import Mathlib.Data.List.Pairwise
import C3po.Official.Cycle

/-! The B3 universe: screeners that build it, refresh parts of it and publish all of it.

Every process has its own screener; they share the published snapshots only. The full build
and the refresh hold the lock of their screener from end to end; hydration does not. Time
counts the steps of all processes.
-/

set_option autoImplicit false

namespace C3po.Universe
open C3po.Library
open C3po.Official (positive removesuffix)
open C3po.Prices (normalise isSpace)

/-- A valued row. When and by which call it was valued no code reads. -/
structure Row where
  symbol : String
  ourTp : Option ℚ
  buyIn : Option ℚ
  valuedAt : ℕ
  call : ℕ
  deriving DecidableEq, Repr

/-- A published universe. It is hydrated only if it is of this methodology and its rows are a
list. Which call published it, and the rows that call meant to publish, no code reads. -/
structure Snapshot where
  publishedAt : ℕ
  current : Bool
  listed : Bool
  rows : List Row
  call : ℕ
  meant : List Row
  deriving DecidableEq, Repr

/-- The screener of one process: its rows, the clock they are the basis of, and who holds
its lock. -/
structure Screener where
  rows : List Row
  basisAt : Option ℕ
  lock : Option ℕ

inductive Call where
  | build
  | refresh (symbols : List String)
  deriving DecidableEq, Repr

/-- What a refresh has found so far: the rows it hydrated, the rows it went on from, and the
rows that take the place of others. -/
structure Survey where
  hydrated : List Row
  existing : List Row
  replacements : Dict String Row

/-- Where a call stands. A build may be made for the refresh of some symbols. -/
inductive Stage where
  | called (call : Call)
  | building (generatedAt : ℕ) (pending : Option (List String))
  | built (rows : List Row) (generatedAt : ℕ) (pending : Option (List String))
  | hydrating (symbols : List String)
  | hydrated (symbols : List String) (rows : List Row)
  | surveying (symbols : List String) (rows : List Row)
  | valuing (symbols : List String) (survey : Survey)
  | assigned (meant : List Row) (generatedAt : Option ℕ) (pending : Option (List String))
  | based (meant : List Row) (pending : Option (List String))
  | stamped (meant : List Row) (publishedAt : ℕ) (pending : Option (List String))

/-- A call under way: whose screener it works on, its number, when it began, and how many
snapshots there were when it read what it goes on from. -/
structure Work where
  screener : ℕ
  number : ℕ
  began : ℕ
  seen : ℕ
  stage : Stage

/-- A call that is over. -/
structure Finished where
  number : ℕ
  began : ℕ
  ended : ℕ
  deriving DecidableEq, Repr

structure State where
  screeners : ℕ → Screener
  threads : ℕ → Option Work
  snapshots : List Snapshot
  calls : ℕ
  finished : List Finished
  time : ℕ

/-- What the providers answer: the valuations of a build, and the one of a single security. -/
structure Answer where
  valuations : List (String × Option ℚ × Option ℚ)
  security : Option (Option ℚ × Option ℚ)

inductive Action where
  | start (thread screener : ℕ) (call : Call)
  | step (thread : ℕ) (answer : Answer)
  | fail (thread : ℕ)
  | hydrate (screener : ℕ)

def strip (text : String) : String := String.ofList ((text.toList.dropWhile isSpace).rdropWhile isSpace)

/-- The symbols of a refresh, each once, in order. -/
def cleanSymbols (symbols : List String) : List String :=
  ((symbols.filter fun symbol => strip symbol ≠ "").map fun symbol => removesuffix (normalise symbol) ".SA").eraseDups

def rowOf (rows : List Row) (symbol : String) : Option Row :=
  if symbol = "" then none else rows.reverse.find? fun row => row.symbol = symbol

def replaced (replacements : Dict String Row) (rows : List Row) : List Row :=
  rows.map fun row => (replacements.get? row.symbol).getD row

namespace Screener
variable (screener : Screener)

/-- A process starts without rows. -/
def fresh : Screener := ⟨[], none, none⟩

/-- The latest snapshot, where it is usable and newer than the basis. -/
def newer (snapshots : List Snapshot) : Option Snapshot :=
  (latest Snapshot.publishedAt snapshots).filter fun snapshot =>
    snapshot.current && snapshot.listed && screener.basisAt.all fun basis => basis < snapshot.publishedAt

/-- `_hydrate_persisted_state`: the newer rows, if there are any. -/
def hydrated (snapshots : List Snapshot) : Screener :=
  match screener.newer snapshots with
  | some snapshot => { screener with rows := snapshot.rows, basisAt := some snapshot.publishedAt }
  | none => screener

end Screener

namespace State
variable (state : State)

def setScreener (number : ℕ) (screener : Screener) : State :=
  { state with screeners := Function.update state.screeners number screener }

def setThread (thread : ℕ) (work : Option Work) : State :=
  { state with threads := Function.update state.threads thread work }

def hydrate (number : ℕ) : State := state.setScreener number ((state.screeners number).hydrated state.snapshots)

def stand (thread : ℕ) (work : Work) (stage : Stage) : State := state.setThread thread (some { work with stage := stage })

/-- What a call goes on from is read now. -/
def read (thread : ℕ) (work : Work) (stage : Stage) : State :=
  state.setThread thread (some { work with seen := state.snapshots.length, stage := stage })

def assign (number : ℕ) (rows : List Row) : State :=
  state.setScreener number { state.screeners number with rows := rows }

def base (number : ℕ) (instant : ℕ) : State :=
  state.setScreener number { state.screeners number with basisAt := some instant }

/-- The call is over, and its lock is free. -/
def finish (thread : ℕ) (work : Work) : State :=
  let released := state.setScreener work.screener { state.screeners work.screener with lock := none }
  { released.setThread thread none with finished := ⟨work.number, work.began, state.time⟩ :: state.finished }

/-- Whatever rows the screener has at this instant are published. -/
def publish (work : Work) (publishedAt : ℕ) (meant : List Row) : State :=
  { state with
    snapshots := state.snapshots ++
      [⟨publishedAt, true, true, (state.screeners work.screener).rows, work.number, meant⟩] }

def value (work : Work) (symbol : String) (numbers : Option ℚ × Option ℚ) : Row :=
  ⟨symbol, numbers.1, numbers.2, state.time, work.number⟩

/-- A security that is valued has a target price and a buy-in. -/
def priced (security : Option (Option ℚ × Option ℚ)) : Option (Option ℚ × Option ℚ) :=
  security.filter fun numbers => (positive numbers.1).isSome && (positive numbers.2).isSome

/-- One symbol of a refresh: its new row, if there is one, else the row it had. -/
def replace (work : Work) (survey : Survey) (symbol : String) (security : Option (Option ℚ × Option ℚ)) : Survey :=
  match priced security with
  | none =>
      match rowOf survey.existing symbol with
      | some preserved => { survey with replacements := survey.replacements.insert symbol preserved }
      | none => survey
  | some numbers =>
      if symbol ∈ survey.existing.map Row.symbol then
        { survey with replacements := survey.replacements.insert symbol (state.value work symbol numbers) }
      else survey

/-- The lock is taken where it is free. -/
def enter (thread : ℕ) (work : Work) (call : Call) : Option State :=
  match (state.screeners work.screener).lock with
  | some _ => none
  | none =>
      let locked := state.setScreener work.screener { state.screeners work.screener with lock := some thread }
      match call with
      | .build => some (locked.read thread work (.building state.time none))
      | .refresh symbols => some (locked.stand thread work (.hydrating symbols))

/-- The next step of a call. -/
def advance (thread : ℕ) (work : Work) (answer : Answer) : Option State :=
  match work.stage with
  | .called call => state.enter thread work call
  | .building generatedAt pending =>
      let rows := answer.valuations.map fun entry => state.value work entry.1 entry.2
      some (state.stand thread work (.built rows generatedAt pending))
  | .built rows generatedAt pending =>
      some ((state.assign work.screener rows).stand thread work (.assigned rows (some generatedAt) pending))
  | .hydrating symbols =>
      let hydrated := state.hydrate work.screener
      some (hydrated.read thread work (.hydrated symbols (hydrated.screeners work.screener).rows))
  | .hydrated symbols rows =>
      if (state.screeners work.screener).rows = [] then
        some (state.read thread work (.building state.time (some symbols)))
      else some (state.stand thread work (.surveying symbols rows))
  | .surveying symbols rows =>
      some (state.stand thread work (.valuing symbols ⟨rows, (state.screeners work.screener).rows, .empty⟩))
  | .valuing (symbol :: rest) survey =>
      some (state.stand thread work (.valuing rest (state.replace work survey symbol answer.security)))
  | .valuing [] survey =>
      if survey.replacements.entries = [] then some (state.finish thread work)
      else
        let rows := replaced survey.replacements (state.screeners work.screener).rows
        some ((state.assign work.screener rows).stand thread work
          (.assigned (replaced survey.replacements survey.hydrated) none none))
  | .assigned meant generatedAt pending =>
      some ((state.base work.screener (generatedAt.getD state.time)).stand thread work (.based meant pending))
  | .based meant pending =>
      some ((state.base work.screener state.time).stand thread work (.stamped meant state.time pending))
  | .stamped meant publishedAt pending =>
      let published := state.publish work publishedAt meant
      match pending with
      | none => some (published.finish thread work)
      | some symbols => some (published.read thread work (.surveying symbols meant))

def launch (thread screener : ℕ) (call : Call) : State :=
  { state.setThread thread (some ⟨screener, state.calls, state.time, 0, .called call⟩) with calls := state.calls + 1 }

/-- A call starts on a thread that has none; a refresh of no symbol is over at once. -/
def begin (thread screener : ℕ) (call : Call) : Option State :=
  match state.threads thread with
  | some _ => none
  | none =>
      match call with
      | .build => some (state.launch thread screener .build)
      | .refresh symbols =>
          if cleanSymbols symbols = [] then some state
          else some (state.launch thread screener (.refresh (cleanSymbols symbols)))

/-- A provider or the store raises, and the call with it. -/
def abandon (thread : ℕ) : Option State :=
  match state.threads thread with
  | none => none
  | some work =>
      match work.stage with
      | .called _ => none
      | _ => some (state.finish thread work)

def tick : State := { state with time := state.time + 1 }

def step (action : Action) : Option State :=
  let next := match action with
    | .start thread screener call => state.begin thread screener call
    | .step thread answer => (state.threads thread).bind fun work => state.advance thread work answer
    | .fail thread => state.abandon thread
    | .hydrate screener => some (state.hydrate screener)
  next.map tick

end State

def State.run : State → List Action → Option State
  | state, [] => some state
  | state, action :: rest => (state.step action).bind fun next => next.run rest

/-- What is stored before any of the processes started. -/
structure Stored where
  publishedAt : ℕ
  current : Bool
  listed : Bool
  rows : List Row

def Stored.snapshot (stored : Stored) : Snapshot :=
  ⟨stored.publishedAt, stored.current, stored.listed, stored.rows, 0, stored.rows⟩

def State.initial (stored : Option Stored) (time : ℕ) : State :=
  ⟨fun _ => .fresh, fun _ => none, (stored.map Stored.snapshot).toList, 1, [], time⟩

end C3po.Universe

/-! What holds of the published universes, the screeners and the calls under way as long as
no call publishes over another and nothing replaces the rows between their assignment and
their publication.
-/

namespace C3po.Universe
open C3po.Library

/-- No row of the snapshots was valued later than a row of the same symbol among these. -/
def Supersedes (snapshots : List Snapshot) (rows : List Row) : Prop :=
  ∀ snapshot ∈ snapshots, ∀ row ∈ snapshot.rows, ∀ later ∈ rows, row.symbol = later.symbol → row.valuedAt ≤ later.valuedAt

/-- Rows of one symbol were valued together. -/
def Uniform (rows : List Row) : Prop :=
  ∀ first ∈ rows, ∀ second ∈ rows, first.symbol = second.symbol → first.valuedAt = second.valuedAt

/-- Rows that may be published next. -/
structure Ready (snapshots : List Snapshot) (time : ℕ) (rows : List Row) : Prop where
  supersedes : Supersedes snapshots rows
  uniform : Uniform rows
  past : ∀ row ∈ rows, row.valuedAt < time

/-- One snapshot after another. -/
structure Follows (earlier later : Snapshot) : Prop where
  published : earlier.publishedAt < later.publishedAt
  supersedes : Supersedes [earlier] later.rows
  usable : later.current ∧ later.listed

structure Chronicle (snapshots : List Snapshot) (time : ℕ) : Prop where
  follow : snapshots.Pairwise Follows
  published : ∀ snapshot ∈ snapshots, snapshot.publishedAt < time
  valued : ∀ snapshot ∈ snapshots, ∀ row ∈ snapshot.rows, row.valuedAt < time
  uniform : ∀ snapshot ∈ snapshots, Uniform snapshot.rows
  meant : ∀ snapshot ∈ snapshots, snapshot.rows = snapshot.meant

def Stage.waiting : Stage → Bool
  | .called _ => true
  | _ => false

/-- Between the assignment of the rows and their publication. -/
def Stage.publishing : Stage → Bool
  | .assigned _ _ _ | .based _ _ | .stamped _ _ _ => true
  | _ => false

/-- A screener whose rows are those of the snapshot that is their basis. -/
def Settled (snapshots : List Snapshot) (screener : Screener) : Prop :=
  (screener.rows = [] ∧ screener.basisAt = none) ∨
    ∃ snapshot ∈ snapshots, (snapshot.current ∧ snapshot.listed) ∧
      screener.basisAt = some snapshot.publishedAt ∧ screener.rows = snapshot.rows

/-- Nothing newer is stored, and these are the rows. -/
structure Held (snapshots : List Snapshot) (time : ℕ) (screener : Screener) (rows : List Row) : Prop where
  newest : screener.newer snapshots = none
  same : screener.rows = rows
  ready : Ready snapshots time rows

/-- What takes the place of other rows is of their symbol and may be published. -/
def Replacing (snapshots : List Snapshot) (time : ℕ) (replacements : Dict String Row) : Prop :=
  ∀ symbol row, replacements.get? symbol = some row →
    row.symbol = symbol ∧ Supersedes snapshots [row] ∧ row.valuedAt < time

/-- What a call relies on while nobody else publishes. -/
def Relies (snapshots : List Snapshot) (time : ℕ) (screener : Screener) : Stage → Prop
  | .called _ | .building _ _ | .hydrating _ => True
  | .built rows _ _ => Ready snapshots time rows
  | .hydrated _ rows | .surveying _ rows => Held snapshots time screener rows
  | .valuing _ survey => Held snapshots time screener survey.hydrated ∧ survey.existing = survey.hydrated ∧
      Replacing snapshots time survey.replacements
  | .assigned meant _ _ | .based meant _ => screener.rows = meant ∧ Ready snapshots time meant
  | .stamped meant publishedAt _ => screener.rows = meant ∧ Ready snapshots time meant ∧
      screener.basisAt = some publishedAt ∧ publishedAt < time ∧ ∀ snapshot ∈ snapshots, snapshot.publishedAt < publishedAt

structure Placed (snapshots : List Snapshot) (time : ℕ) (screener : Screener) (work : Work) : Prop where
  seen : work.seen ≤ snapshots.length
  relies : work.seen = snapshots.length → Relies snapshots time screener work.stage

/-- A call of the screener is about to publish. -/
def State.Publishing (state : State) (number : ℕ) : Prop :=
  ∃ thread work, state.threads thread = some work ∧ work.screener = number ∧ work.stage.publishing

structure Sound (state : State) : Prop where
  chronicle : Chronicle state.snapshots state.time
  settled : ∀ number, ¬state.Publishing number → Settled state.snapshots (state.screeners number)
  holder : ∀ thread work, state.threads thread = some work → ¬work.stage.waiting →
    (state.screeners work.screener).lock = some thread
  placed : ∀ thread work, state.threads thread = some work →
    Placed state.snapshots state.time (state.screeners work.screener) work

/-- A call publishes only what it read last, nothing newer is hydrated between the
assignment of rows and their publication, and no call fails there. -/
def Calm (state : State) : Action → Prop
  | .step thread _ => ∀ work, state.threads thread = some work → ∀ meant publishedAt pending,
      work.stage = .stamped meant publishedAt pending → work.seen = state.snapshots.length
  | .fail thread => ∀ work, state.threads thread = some work → ¬work.stage.publishing
  | .hydrate number => state.Publishing number → (state.screeners number).newer state.snapshots = none
  | .start _ _ _ => True

section Rows
variable {snapshots : List Snapshot} {time : ℕ} {screener : Screener} {rows : List Row} {replacements : Dict String Row}

theorem ready_nil : Ready snapshots time [] where
  supersedes _ _ _ _ _ none := nomatch none
  uniform _ none := nomatch none
  past _ none := nomatch none

theorem Ready.later (ready : Ready snapshots time rows) {next : ℕ} (later : time ≤ next) : Ready snapshots next rows :=
  ⟨ready.supersedes, ready.uniform, fun row member => Nat.lt_of_lt_of_le (ready.past row member) later⟩

theorem Chronicle.ready (chronicle : Chronicle snapshots time) (now : ∀ row ∈ rows, row.valuedAt = time) :
    Ready snapshots (time + 1) rows where
  supersedes snapshot member row held later among _ := by
    rw [now later among]
    exact Nat.le_of_lt (chronicle.valued snapshot member row held)
  uniform first one second two _ := (now first one).trans (now second two).symm
  past row member := by
    rw [now row member]
    exact Nat.lt_succ_self time

theorem Chronicle.ordered (chronicle : Chronicle snapshots time) {first second : Snapshot} (one : first ∈ snapshots)
    (two : second ∈ snapshots) : first = second ∨ Follows first second ∨ Follows second first := by
  have symmetric : Std.Symm fun first second => Follows first second ∨ Follows second first := ⟨fun _ _ => Or.symm⟩
  have either : snapshots.Pairwise fun first second => Follows first second ∨ Follows second first :=
    chronicle.follow.imp .inl
  by_cases same : first = second
  · exact .inl same
  · exact .inr (either.forall one two same)

theorem Chronicle.newest (chronicle : Chronicle snapshots time) {newest : Snapshot}
    (found : latest Snapshot.publishedAt snapshots = some newest) : Ready snapshots time newest.rows := by
  obtain ⟨stored, bound⟩ := latest_spec found
  refine ⟨fun snapshot member row held later among same => ?_, chronicle.uniform newest stored, chronicle.valued newest stored⟩
  rcases chronicle.ordered member stored with rfl | follows | follows
  · exact Nat.le_of_eq (chronicle.uniform snapshot member row held later among same)
  · exact follows.supersedes snapshot List.mem_cons_self row held later among same
  · exact absurd follows.published (Nat.not_lt.mpr (bound snapshot member))

theorem Settled.ready (chronicle : Chronicle snapshots time) (settled : Settled snapshots screener)
    (inert : screener.newer snapshots = none) : Ready snapshots time screener.rows := by
  rcases settled with ⟨none, _⟩ | ⟨snapshot, member, usable, basis, rows⟩
  · rw [none]
    exact ready_nil
  · cases found : latest Snapshot.publishedAt snapshots with
    | none =>
      rw [latest_none.mp found] at member
      cases member
    | some newest =>
      obtain ⟨stored, bound⟩ := latest_spec found
      have same : snapshot = newest := by
        rcases chronicle.ordered member stored with same | follows | follows
        · exact same
        · have missed : screener.newer snapshots = some newest := by
            simp [Screener.newer, found, basis, follows.usable, follows.published]
          rw [missed] at inert
          cases inert
        · exact absurd follows.published (Nat.not_lt.mpr (bound snapshot member))
      rw [rows, same]
      exact chronicle.newest found

theorem Settled.hydrated (settled : Settled snapshots screener) : Settled snapshots (screener.hydrated snapshots) := by
  unfold Screener.hydrated
  cases found : screener.newer snapshots with
  | none => exact settled
  | some snapshot =>
    obtain ⟨newest, usable⟩ := Option.filter_eq_some_iff.mp found
    simp only [Bool.and_eq_true] at usable
    exact .inr ⟨snapshot, (latest_spec newest).1, usable.1, rfl, rfl⟩

theorem newer_hydrated : (screener.hydrated snapshots).newer snapshots = none := by
  unfold Screener.hydrated
  cases found : screener.newer snapshots with
  | none => exact found
  | some snapshot =>
    obtain ⟨newest, _⟩ := Option.filter_eq_some_iff.mp found
    simp [Screener.newer, newest]

theorem hydrated_inert (inert : screener.newer snapshots = none) : screener.hydrated snapshots = screener := by
  unfold Screener.hydrated
  rw [inert]

theorem hydrated_lock : (screener.hydrated snapshots).lock = screener.lock := by
  unfold Screener.hydrated
  split <;> rfl

theorem Replacing.ready (replacing : Replacing snapshots time replacements) (ready : Ready snapshots time rows) :
    Ready snapshots time (replaced replacements rows) := by
  have each : ∀ row ∈ replaced replacements rows, ∃ old ∈ rows, row = (replacements.get? old.symbol).getD old ∧ row.symbol = old.symbol := by
    intro row member
    obtain ⟨old, held, rfl⟩ := List.mem_map.mp member
    refine ⟨old, held, rfl, ?_⟩
    cases found : replacements.get? old.symbol with
    | none => rfl
    | some row => exact (replacing old.symbol row found).1
  refine ⟨fun snapshot member row held later among same => ?_, fun first one second two same => ?_, fun row member => ?_⟩
  · obtain ⟨old, held', rfl, symbol⟩ := each later among
    cases found : replacements.get? old.symbol with
    | none =>
      rw [found] at same
      exact ready.supersedes snapshot member row held old held' same
    | some row' =>
      rw [found] at same
      exact (replacing old.symbol row' found).2.1 snapshot member row held row' List.mem_cons_self same
  · obtain ⟨old, held, value, symbol⟩ := each first one
    obtain ⟨old', held', value', symbol'⟩ := each second two
    have same : old.symbol = old'.symbol := symbol.symm.trans (same.trans symbol')
    rw [value, value', ← same]
    cases replacements.get? old.symbol with
    | none => exact ready.uniform old held old' held' same
    | some row => rfl
  · obtain ⟨old, held, rfl, _⟩ := each row member
    cases found : replacements.get? old.symbol with
    | none => exact ready.past old held
    | some row => exact (replacing old.symbol row found).2.2

end Rows
end C3po.Universe
