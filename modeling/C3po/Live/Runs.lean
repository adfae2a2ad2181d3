import C3po.Live.Moves

/-! Runs of the live engine: any calls, of any session, in any order.

`Seeded` is what a first start takes from a book: positions under their own symbols,
bought for a positive amount and marked. The close of a session changes no money.
-/

set_option autoImplicit false

namespace C3po.Live
open C3po.Library

/-- A call of the service on its engine; `start` opens a session or resumes the one in progress. -/
inductive Act where
  | start (day : Int) (names : List Member)
  | candidates (opening : String → Option ℚ)
  | adopt (tapes : String → Option Tape)
  | step (input : StepInput)
  | fast (pass : Pass)
  | close

namespace Engine
variable (zone : Zone)

def act (engine : Engine) : Act → Engine
  | .start day names => Engine.start engine.state day names
  | .candidates opening => engine.setCandidates opening
  | .adopt tapes => adoptOpening zone engine tapes
  | .step input => engine.step zone input
  | .fast pass => engine.fastExits zone pass
  | .close => engine.closeSession zone

def run (engine : Engine) (acts : List Act) : Engine := acts.foldl (act zone) engine

def purchasesOf (engine : Engine) : Act → List (Engine × Cross × Purchase)
  | .step input => engine.stepPurchases zone input
  | _ => []

end Engine

/-- A state to start from: what a book has of each position. -/
structure EngineState.Seeded (state : EngineState) : Prop where
  keyed : state.Keyed
  bought : ∀ symbol position, state.positions.get? symbol = some position →
    0 < position.costUsd ∧ 0 < position.shares ∧ ∃ mark, position.lastMark = some mark ∧ 0 < mark

theorem seeded_of_entries {state : EngineState} (entries : ∀ entry ∈ state.positions.entries,
    entry.2.symbol = entry.1 ∧ 0 < entry.2.costUsd ∧ 0 < entry.2.shares ∧
      entry.2.lastMark.any fun mark => 0 < mark) : state.Seeded := by
  refine ⟨fun symbol position held => (entries _ (Dict.mem_entries.mpr held)).1,
    fun symbol position held => ?_⟩
  obtain ⟨_, cost, shares, marked⟩ := entries _ (Dict.mem_entries.mpr held)
  cases isMark : position.lastMark with
  | none => simp [isMark] at marked
  | some mark => exact ⟨cost, shares, mark, rfl, by simpa [isMark] using marked⟩

/-- Nothing of the book but the selection. -/
structure Selected (before after : Engine) : Prop where
  navRealized : after.state.navRealized = before.state.navRealized
  positions : after.state.positions = before.state.positions
  fills : after.state.fills = before.state.fills
  session : after.state.session = before.state.session
  navStart : after.state.navStart = before.state.navStart
  config : after.state.config = before.state.config
  day : after.day = before.day
  members : after.members = before.members
  markedMoment : after.markedMoment = before.markedMoment
  lastEntry : after.lastEntry = before.lastEntry

theorem setCandidates_selected (engine : Engine) (opening : String → Option ℚ) :
    Selected engine (engine.setCandidates opening) := by
  unfold Engine.setCandidates
  split
  · exact ⟨rfl, rfl, rfl, rfl, rfl, rfl, rfl, rfl, rfl, rfl⟩
  · exact ⟨rfl, rfl, rfl, rfl, rfl, rfl, rfl, rfl, rfl, rfl⟩

theorem adoptOpening_selected (zone : Zone) (engine : Engine) (tapes : String → Option Tape) :
    Selected engine (Engine.adoptOpening zone engine tapes) := by
  unfold Engine.adoptOpening
  have selected := setCandidates_selected
    { engine with state := { engine.state with candidatesFixed := false } }
    fun symbol => (tapes symbol).bind fun tape =>
      if tape.openingAt.any fun openingAt =>
        openingAt < (zone.instant engine.day Engine.openingWindowEnd : ℚ) / second then tape.opening
      else none
  exact ⟨selected.navRealized, selected.positions, selected.fills, selected.session, selected.navStart,
    selected.config, selected.day, selected.members, selected.markedMoment, selected.lastEntry⟩

/-- What a close does: the positions are a day older, and no money moves. -/
structure Closed (before after : Engine) : Prop where
  navRealized : after.state.navRealized = before.state.navRealized
  positions : after.state.positions = before.state.positions.mapValues Position.older
  fills : after.state.fills = before.state.fills
  session : after.state.session = none
  lastSession : after.state.lastSession = some before.day
  navStart : after.state.navStart = before.state.navStart
  config : after.state.config = before.state.config
  candidates : after.state.candidates = before.state.candidates
  signals : after.state.signals = before.state.signals
  day : after.day = before.day

theorem closeSession_closed (zone : Zone) (engine : Engine) : Closed engine (engine.closeSession zone) := by
  have noFlat : rule.closeFlat = false := rfl
  have signals : ∀ (entries : List (String × Shadow)) (state : EngineState),
      (entries.foldl EngineState.settleShadow state).signals = state.signals := by
    intro entries
    induction entries with
    | nil => exact fun _ => rfl
    | cons entry rest ih => exact fun state => (ih _).trans (settleShadow_same state entry).2
  have same := SameBook.foldl (fun state entry => (settleShadow_same state entry).1)
    engine.state.shadow.entries engine.state
  have signals := signals engine.state.shadow.entries engine.state
  unfold Engine.closeSession
  simp only [noFlat, Bool.false_eq_true, if_false]
  generalize engine.state.shadow.entries.foldl EngineState.settleShadow engine.state = settled
    at same signals
  exact ⟨same.navRealized, congrArg (Dict.mapValues · Position.older) same.positions, same.fills, rfl,
    rfl, same.navStart, same.config, same.candidates, signals, rfl⟩

theorem keyed_older {before after : EngineState} (keyed : before.Keyed)
    (positions : after.positions = before.positions.mapValues Position.older) : after.Keyed := by
  intro symbol position held
  rw [positions, Dict.get?_mapValues] at held
  obtain ⟨young, was, rfl⟩ := Option.map_eq_some_iff.mp held
  exact keyed symbol young was

section Examples

/-- New York in winter. -/
def eastern : Zone where
  date moment := (moment - clockTime 5 0 0) / clockTime 24 0 0 + 719163
  time moment := (moment - clockTime 5 0 0) % clockTime 24 0 0
  instant day time := (day - 719163) * clockTime 24 0 0 + time + clockTime 5 0 0

/-- A step in which nothing is read. -/
def quietStep (now : Int) : StepInput where
  now := now
  pushed := none
  exits := none
  settled _ := {}
  shadows _ := {}
  shadowFault := none
  signal _ := none
  entries := none
  bought _ := {}

/-- 6 November 2026. -/
def friday : Int := 739926

def fridayAt (hour minute second : Int) : Int := eastern.instant friday (clockTime hour minute second)

/-- Twenty carried positions whose costs are the whole NAV. -/
def fullBook : EngineState where
  navRealized := 1000
  lastSession := some (friday - 1)
  positions := ["A", "B", "C", "D", "E", "F", "G", "H", "I", "J", "K", "L", "M", "N", "O", "P", "Q", "R",
    "S", "T"].foldl (fun positions symbol => positions.insert symbol
      { symbol := symbol, market := "NYSE", shares := 1, entryPrice := 49, costUsd := 50
        openedAt := fridayAt 9 0 0, daysHeld := 1, lastMark := some 50 }) Dict.empty

theorem fullBook_seeded : fullBook.Seeded := seeded_of_entries (by decide +kernel)

/-- One name's last trade and VWAP, no other's. -/
def signalOf (symbol : String) (close vwap : ℚ) (asked : String) : Option (ℚ × ℚ) :=
  if asked = symbol then some (close, vwap) else none

def quoteOnly (symbol : String) (quote : Quote) (asked : String) : Option Quote :=
  if asked = symbol then some quote else none

/-- One position stops out at a loss, and a name that dipped crosses back above its VWAP. -/
def reentry : List Act :=
  [.candidates fun symbol => if symbol = "Z" then some 98 else none,
    .fast ⟨fridayAt 10 0 0, fun symbol =>
      { quote := quoteOnly "A" ⟨499 / 10, 4991 / 100, fridayAt 10 0 0⟩ symbol }⟩,
    .step { quietStep (fridayAt 10 0 1) with signal := signalOf "Z" 97 98 },
    .step { quietStep (fridayAt 10 0 2) with
      signal := signalOf "Z" 99 98
      entries := some ⟨[], quoteOnly "Z" ⟨9899 / 100, 99, fridayAt 10 0 2⟩⟩ }]

end Examples

/-! The two stores of a session, and what a new session does first with the previous one's.

The checkpoint is written before the public document, and the process may stop
between them. A call is the list of its writes in order, so stopping midway is
applying a part of that list.
-/

/-- A checkpoint as it is stored: the rule among its inputs, and the state. -/
structure SavedState where
  config : String
  outputs : Checkpoint
  deriving DecidableEq

def saveState (state : EngineState) : SavedState := ⟨labelOr state.config, state.toJson⟩

/-- A checkpoint with no rule of its own takes the one of its inputs. -/
def loadState (saved : SavedState) : EngineState :=
  let state := EngineState.fromJson saved.outputs
  if state.config = "" then { state with config := saved.config } else state

structure Disk where
  saved : Option SavedState
  documents : Dict Int Document
  deriving DecidableEq

inductive Write where
  | checkpoint (saved : SavedState)
  | document (document : Document)

def Disk.write (disk : Disk) : Write → Disk
  | .checkpoint saved => { disk with saved := some saved }
  | .document document => { disk with documents := disk.documents.insert document.day document }

def publish (zone : Zone) (engine : Engine) (now : Int) (asOf : Option Int) (config : String) :
    Except String Document :=
  validate zone (engine.document (asOf.getD now) config) now engineMaxTrades

/-- A document with no book is not one that was published before. -/
def publishedBefore (document : Option Document) (moment : Int) : Bool :=
  (document.bind Document.book).any fun book => book.asOf < moment

/-- The session a checkpoint is of: the one in progress, else the last one closed. -/
def EngineState.prior (state : EngineState) : Option Int := state.session.or state.lastSession

/-- What a call of `reconcilePrevious` leaves: the state, its writes, what it returns, and
the refusal of the screen. -/
structure Reconciled where
  state : EngineState
  writes : List Write := []
  wrote : Bool := false
  refused : Option String := none

/-- The engine of a previous session, with the fills of its checkpoint. -/
def priorEngine (zone : Zone) (state : EngineState) (prior : Int) : Engine :=
  let engine := Engine.start { state with session := some prior } prior []
  if state.session = some prior then engine.closeSession zone
  else { engine with state := { engine.state with session := state.session } }

/-- The rule a previous session is published under. -/
def priorConfig (stored : Option Document) (state : EngineState) : String :=
  ((stored.map Document.config).filter (· ≠ "")).getD state.config

/-- A session the checkpoint never closed is closed first; its document is published again unless
the stored one carries these fills and a book of the close. -/
def reconcilePrevious (zone : Zone) (documents : Dict Int Document) (state : EngineState) (day now : Int) :
    Reconciled :=
  match state.prior with
  | none => { state := state }
  | some prior =>
      if prior = day then { state := state }
      else
        let unclosed : Bool := state.session = some prior
        let close := zone.instant prior sessionClose
        let stored := documents.get? prior
        let trades := stored.map Document.trades
        let short := publishedBefore stored close && (state.fills ≠ [] || trades.getD [] = [])
        if !unclosed ∧ state.fills = [] ∧ !short then { state := state }
        else
          let engine := priorEngine zone state prior
          let config := priorConfig stored engine.state
          let pending := config ≠ "" ∧
            (short ∨ (engine.state.fills ≠ [] ∧ trades ≠ some (engine.document close config).trades))
          if !unclosed ∧ ¬ pending then { state := engine.state }
          else
            let saves := if unclosed then [Write.checkpoint (saveState engine.state)] else []
            if pending then
              match publish zone engine now (some close) config with
              | .ok document =>
                  { state := engine.state, writes := saves ++ [.document document], wrote := true }
              | .error refusal =>
                  { state := engine.state, writes := saves, wrote := true, refused := some refusal }
            else { state := engine.state, writes := saves, wrote := true }

section Loaded

theorem loadState_saveState {state : EngineState} (keyed : state.Keyed) :
    loadState (saveState state) = { state with config := labelOr state.config } := by
  unfold loadState saveState
  simp only [fromJson_toJson keyed]
  unfold labelOr
  split <;> rename_i config <;> simp_all

theorem loadState_saved {state : EngineState} (keyed : state.Keyed) (ruled : state.config ≠ "") :
    loadState (saveState state) = state := by
  unfold loadState saveState
  simp only [fromJson_toJson keyed, ruled, if_false]

end Loaded

section Closed
variable {zone : Zone}

/-- The state after the close of its session, when that is still open. -/
def EngineState.closedOn (state : EngineState) (zone : Zone) (prior : Int) : EngineState :=
  (priorEngine zone state prior).state

theorem closedOn_closed {state : EngineState} {prior : Int} (closed : state.session ≠ some prior) :
    state.closedOn zone prior = state := by
  unfold EngineState.closedOn priorEngine Engine.start
  simp only [closed, if_false, if_true]

theorem priorEngine_day (zone : Zone) (state : EngineState) (prior : Int) :
    (priorEngine zone state prior).day = prior := by
  unfold priorEngine
  split
  · exact (closeSession_closed zone _).day
  · rfl

theorem closedOn_open {state : EngineState} {prior : Int} (unclosed : state.session = some prior) :
    (state.closedOn zone prior).positions = state.positions.mapValues Position.older ∧
      (state.closedOn zone prior).navRealized = state.navRealized ∧
      (state.closedOn zone prior).fills = state.fills ∧
      (state.closedOn zone prior).config = state.config ∧
      (state.closedOn zone prior).session = none ∧
      (state.closedOn zone prior).lastSession = some prior ∧
      (state.closedOn zone prior).navStart = state.navStart := by
  have closed := closeSession_closed zone (Engine.start { state with session := some prior } prior [])
  have same : { state with session := some prior } = state := by rw [← unclosed]
  unfold EngineState.closedOn priorEngine
  simp only [unclosed, if_true]
  rw [same] at closed ⊢
  have opened : (Engine.start state prior []).state = state := by
    unfold Engine.start
    simp only [unclosed, if_true]
  refine ⟨?_, ?_, ?_, ?_, closed.session, closed.lastSession, ?_⟩
  · rw [closed.positions, opened]
  · rw [closed.navRealized, opened]
  · rw [closed.fills, opened]
  · rw [closed.config, opened]
  · rw [closed.navStart, opened]

theorem prior_session {state : EngineState} {prior : Int} (previous : state.prior = some prior) :
    state.session = some prior ∨ state.session = none ∧ state.lastSession = some prior := by
  unfold EngineState.prior at previous
  cases session : state.session with
  | none =>
    rw [session] at previous
    exact .inr ⟨rfl, previous⟩
  | some day =>
    rw [session] at previous
    exact .inl previous

theorem closedOn_frame (zone : Zone) {state : EngineState} {prior : Int} (previous : state.prior = some prior) :
    (state.closedOn zone prior).fills = state.fills ∧ (state.closedOn zone prior).config = state.config ∧
      (state.closedOn zone prior).session = none ∧ (state.closedOn zone prior).lastSession = some prior := by
  rcases prior_session previous with unclosed | ⟨none_, last⟩
  · obtain ⟨_, _, fills, config, session, lastSession, _⟩ := @closedOn_open zone _ _ unclosed
    exact ⟨fills, config, session, lastSession⟩
  · rw [closedOn_closed (by simp [none_])]
    exact ⟨rfl, rfl, none_, last⟩

/-- The checkpoint a reconciliation writes first. -/
def savesOn (zone : Zone) (state : EngineState) (prior : Int) : List Write :=
  if state.session = some prior then [.checkpoint (saveState (state.closedOn zone prior))] else []

theorem reconcile_cases (documents : Dict Int Document) (state : EngineState) (day now : Int) :
    ((reconcilePrevious zone documents state day now).state = state ∧
      (reconcilePrevious zone documents state day now).writes = [] ∧
        (state.session = none ∨ state.session = some day)) ∨
    ∃ (prior : Int) (posts : List Document), state.prior = some prior ∧ prior ≠ day ∧
      (reconcilePrevious zone documents state day now).state = state.closedOn zone prior ∧
        (reconcilePrevious zone documents state day now).writes =
          savesOn zone state prior ++ posts.map Write.document ∧
            ∀ post ∈ posts, publish zone (priorEngine zone state prior) now
              (some (zone.instant prior sessionClose))
                (priorConfig (documents.get? prior) (state.closedOn zone prior)) = .ok post := by
  unfold reconcilePrevious savesOn
  split
  · rename_i never
    exact .inl ⟨rfl, rfl, .inl (Option.or_eq_none_iff.mp never).1⟩
  · rename_i prior previous
    split
    · rename_i same
      subst same
      refine .inl ⟨rfl, rfl, ?_⟩
      rcases prior_session previous with own | ⟨none_, _⟩
      · exact .inr own
      · exact .inl none_
    · rename_i apart
      simp only
      split
      · rename_i quiet
        refine .inl ⟨rfl, rfl, ?_⟩
        rcases prior_session previous with own | ⟨none_, _⟩
        · simp [own] at quiet
        · exact .inl none_
      · split
        · rename_i quiet
          refine .inr ⟨prior, [], previous, apart, rfl, ?_, by simp⟩
          rcases prior_session previous with own | ⟨none_, _⟩
          · simp [own] at quiet
          · simp [none_]
        · split
          · split
            · rename_i document posted
              refine .inr ⟨prior, [document], previous, apart, rfl, ?_, fun post member => ?_⟩
              · simp only [decide_eq_true_eq]
                rfl
              · rw [List.mem_singleton.mp member]
                exact posted
            · refine .inr ⟨prior, [], previous, apart, rfl, ?_, by simp⟩
              simp only [decide_eq_true_eq, List.map_nil, List.append_nil]
              rfl
          · refine .inr ⟨prior, [], previous, apart, rfl, ?_, by simp⟩
            simp only [decide_eq_true_eq, List.map_nil, List.append_nil]
            rfl

end Closed

/-! The life of the service: sessions, commits, closes, and stops at any point.

A process loads the checkpoint, reconciles the previous session and starts an engine;
what a stop finds unsaved never happened. `Ledger` is not of the source: it keeps,
beside a state, the fills of the sessions before it and the NAV of the last close.
-/

/-- An act of a session in progress. -/
def Act.During : Act → Prop
  | .start _ _ => False
  | .close => False
  | _ => True

/-- The NAV a book of the state shows; the instant of the book does not move it. -/
def EngineState.nav (state : EngineState) : ℚ := (state.book 0).navUsd

structure Ledger where
  past : List Fill
  closing : ℚ

structure Service where
  disk : Disk
  /-- The ledger of the checkpoint. -/
  recorded : Ledger
  /-- The engine of the process that runs, and its ledger. -/
  running : Option (Engine × Ledger)

/-- The first start takes the seed. -/
def Disk.load (disk : Disk) (seed : EngineState) : EngineState := disk.saved.elim seed loadState

/-- A session may start again while it is in progress; any other comes after it. -/
def Due (state : EngineState) (day : Int) : Prop :=
  state.session = some day ∨ ∀ prior, state.prior = some prior → prior < day

def Disk.reconciled (disk : Disk) (zone : Zone) (seed : EngineState) (day now : Int) : Reconciled :=
  reconcilePrevious zone disk.documents (disk.load seed) day now

theorem load_posts (posts : List Document) (disk : Disk) :
    ((posts.map Write.document).foldl Disk.write disk).saved = disk.saved := by
  induction posts generalizing disk with
  | nil => rfl
  | cons post rest ih => exact ih _

namespace Service
variable (zone : Zone) (seed : EngineState)

def Ledger.closedBy (ledger : Ledger) (before after : EngineState) : Ledger :=
  if before.session ≠ none ∧ after.session = none then { ledger with closing := after.nav } else ledger

/-- A process that stops after some of the writes of its reconciliation. -/
def stopped (service : Service) (day now : Int) (writes : ℕ) : Service :=
  let call := service.disk.reconciled zone seed day now
  let disk := (call.writes.take writes).foldl Disk.write service.disk
  { disk := disk
    recorded := Ledger.closedBy service.recorded (service.disk.load seed) (disk.load seed)
    running := none }

/-- A process that starts its engine; a new session clears the fills. -/
def booted (service : Service) (day now : Int) (names : List Member) : Service :=
  let call := service.disk.reconciled zone seed day now
  let ledger := Ledger.closedBy service.recorded (service.disk.load seed) call.state
  { disk := call.writes.foldl Disk.write service.disk
    recorded := ledger
    running := some (Engine.start call.state day names,
      if call.state.session = some day then ledger
      else { ledger with past := ledger.past ++ call.state.fills }) }

/-- The checkpoint of a commit, then its document, unless the screen refuses it. -/
def saved (service : Service) (engine : Engine) (ledger : Ledger) : Service :=
  { service with disk := service.disk.write (.checkpoint (saveState engine.state)), recorded := ledger }

def published (service : Service) (engine : Engine) (now : Int) : Service :=
  match publish zone engine now none "" with
  | .ok document => { service with disk := service.disk.write (.document document) }
  | .error _ => service

/-- The services a seed can come to, from the documents that were there before it. -/
inductive Reached (zone : Zone) (seed : EngineState) (documents : Dict Int Document) : Service → Prop where
  | installed : Reached zone seed documents ⟨⟨none, documents⟩, ⟨[], seed.nav⟩, none⟩
  | stopped {service : Service} (day now : Int) (writes : ℕ) : Reached zone seed documents service →
      Due (service.disk.load seed) day →
      Reached zone seed documents (service.stopped zone seed day now writes)
  | booted {service : Service} (day now : Int) (names : List Member) : Reached zone seed documents service →
      Due (service.disk.load seed) day →
      Reached zone seed documents (service.booted zone seed day now names)
  | ran {service : Service} {engine : Engine} {ledger : Ledger} (act : Act) :
      Reached zone seed documents service → service.running = some (engine, ledger) →
      engine.state.session ≠ none → act.During →
      Reached zone seed documents { service with running := some (engine.act zone act, ledger) }
  | closed {service : Service} {engine : Engine} {ledger : Ledger} : Reached zone seed documents service →
      service.running = some (engine, ledger) → engine.state.session ≠ none →
      Reached zone seed documents { service with running := some (engine.closeSession zone,
        { ledger with closing := (engine.closeSession zone).state.nav }) }
  | saved {service : Service} {engine : Engine} {ledger : Ledger} : Reached zone seed documents service →
      service.running = some (engine, ledger) →
      Reached zone seed documents (service.saved engine ledger)
  | committed {service : Service} {engine : Engine} {ledger : Ledger} (now : Int) :
      Reached zone seed documents service → service.running = some (engine, ledger) →
      Reached zone seed documents ((service.saved engine ledger).published zone engine now)

end Service
end C3po.Live
