import C3po.ReadCache.Steps
import Mathlib.Algebra.Order.Field.Rat

/-! The age of what a caller is given, under a lifetime that varies.

An entry lives for the lifetime read when its computation began, and a flight is joined
however long it has been running: neither is compared with the lifetime at the lookup.
-/

set_option autoImplicit false

namespace C3po.ReadCache
variable {V E : Type}

/-- What a caller was given by a hit or by a flight it joined: when it looked, and when the
computation had started. -/
structure Read (V E : Type) where
  outcome : Except E V
  arrival : ℚ
  started : ℚ
deriving DecidableEq

/-- A step with the instants at which it reads the clock or the lifetime. -/
inductive Move (V E : Type)
  | call (thread : ℕ) (key : String)
  | enter (thread : ℕ) (now startedAt : ℚ)
  | compute (thread : ℕ) (began ended : ℚ) (outcome : Except E V)
  | settle (thread : ℕ)
  | publish (thread : ℕ)
  | announce (thread : ℕ)
  | wake (thread : ℕ)
  | invalidate (key : Option String)

/-- The cache with the time: when each flight started, when its lifetime was read, and when each
thread last looked. -/
structure Timed (V E : Type) where
  state : State V E
  clock : ℚ
  starts : ℕ → ℚ
  governed : ℕ → ℚ
  arrivals : ℕ → ℚ
  reads : List (Read V E)

namespace Timed
variable (provider : ℚ → ℚ)

def initial (clock : ℚ) : Timed V E := ⟨.initial, clock, fun _ => clock, fun _ => clock, fun _ => clock, []⟩

def action : Move V E → Action V E
  | .call thread key => .call thread key
  | .enter thread now startedAt => .enter thread now startedAt
  | .compute thread began _ outcome => .compute thread (outcome.map fun value => (provider began, value))
  | .settle thread => .settle thread
  | .publish thread => .publish thread
  | .announce thread => .announce thread
  | .wake thread => .wake thread
  | .invalidate key => .invalidate key

variable (timed : Timed V E)

def finds (thread : ℕ) (now : ℚ) : Option (Lookup V) :=
  match timed.state.threads thread with
  | .began call => some (timed.state.lookup call.key now)
  | _ => none

def enter (thread : ℕ) (now startedAt : ℚ) (next : State V E) : Timed V E :=
  let looked := { timed with state := next, clock := startedAt, arrivals := Function.update timed.arrivals thread now }
  match timed.finds thread now with
  | some (.hit entry) => { looked with reads := timed.reads ++ [⟨.ok entry.value, now, timed.starts entry.flight⟩] }
  | some .lead => { looked with starts := Function.update timed.starts timed.state.opened startedAt }
  | _ => looked

def compute (thread : ℕ) (began ended : ℚ) (next : State V E) : Option (Timed V E) :=
  match timed.state.threads thread with
  | .computing _ flight startedAt =>
    if startedAt ≤ began ∧ began ≤ ended ∧ timed.clock ≤ ended then
      some { timed with state := next, clock := ended, governed := Function.update timed.governed flight began }
    else none
  | _ => none

def given (thread : ℕ) : List (Read V E) :=
  match timed.state.threads thread with
  | .waiting _ number =>
    match (timed.state.flights number).bind Flight.outcome with
    | some outcome => [⟨outcome, timed.arrivals thread, timed.starts number⟩]
    | none => []
  | _ => []

/-- The clock never goes back. -/
def act (move : Move V E) : Option (Timed V E) :=
  (timed.state.act (action provider move)).bind fun next =>
    match move with
    | .enter thread now startedAt =>
      if timed.clock ≤ now ∧ now ≤ startedAt then some (timed.enter thread now startedAt next) else none
    | .compute thread began ended _ => timed.compute thread began ended next
    | .wake thread => some { timed with state := next, reads := timed.reads ++ timed.given thread }
    | _ => some { timed with state := next }

/-- A hit does not fall into the gap that a shortened lifetime opens: past the lifetime of now,
and within the one its entry was stored with. A flight that is joined has not been running for
the lifetime of now. -/
def Prompt : Move V E → Prop
  | .enter thread now _ =>
    match timed.finds thread now with
    | some (.hit entry) =>
      ¬ (timed.starts entry.flight + provider now ≤ now ∧
        now < timed.starts entry.flight + provider (timed.governed entry.flight))
    | some (.join number) => now < timed.starts number + provider now
    | _ => True
  | _ => True

instance : (move : Move V E) → Decidable (timed.Prompt provider move)
  | .enter thread now _ =>
    match found : timed.finds thread now with
    | some (.hit entry) => decidable_of_iff (¬ (timed.starts entry.flight + provider now ≤ now ∧
        now < timed.starts entry.flight + provider (timed.governed entry.flight))) (by rw [Prompt, found])
    | some (.join number) => decidable_of_iff (now < timed.starts number + provider now) (by rw [Prompt, found])
    | some .lead => .isTrue (by rw [Prompt, found]; trivial)
    | none => .isTrue (by rw [Prompt, found]; trivial)
  | .call .. | .compute .. | .settle _ | .publish _ | .announce _ | .wake _ | .invalidate _ => .isTrue trivial

def run : List (Move V E) → Timed V E → Option (Timed V E)
  | [], timed => some timed
  | move :: rest, timed => (timed.act provider move).bind (run rest)

def AllPrompt : List (Move V E) → Timed V E → Prop
  | [], _ => True
  | move :: rest, timed => timed.Prompt provider move ∧ ∀ next ∈ timed.act provider move, AllPrompt rest next

instance : (moves : List (Move V E)) → (timed : Timed V E) → Decidable (timed.AllPrompt provider moves)
  | [], _ => .isTrue trivial
  | move :: rest, timed =>
    have (next : Timed V E) : Decidable (next.AllPrompt provider rest) := instDecidableAllPrompt rest next
    inferInstanceAs (Decidable (timed.Prompt provider move ∧ ∀ next ∈ timed.act provider move, next.AllPrompt provider rest))

end Timed

/-- The computation started later than the arrival less the lifetime of then. -/
def Read.Young (provider : ℚ → ℚ) (read : Read V E) : Prop := read.arrival - provider read.arrival < read.started

section Carried
variable {provider : ℚ → ℚ}

/-- What a thread carries: the start and the lifetime of its flight, or an arrival in time for the
flight it waits for. -/
def Phase.Carries (provider : ℚ → ℚ) (starts governed : ℕ → ℚ) (arrival : ℚ) : Phase V E → Prop
  | .computing _ number startedAt => starts number = startedAt
  | .computed _ number startedAt outcome => starts number = startedAt ∧
    ∀ ttl value, outcome = .ok (ttl, value) → ttl = provider (governed number)
  | .waiting _ number => arrival - provider arrival < starts number
  | _ => True

theorem Phase.Carries.kept {starts later governed ruled : ℕ → ℚ} {arrival : ℚ} {phase : Phase V E}
    (carries : phase.Carries provider starts governed arrival)
    (same : ∀ call number, phase.engaged = some (call, some number) → later number = starts number)
    (rules : ∀ call number startedAt outcome, phase = .computed call number startedAt outcome → ruled number = governed number) :
    phase.Carries provider later ruled arrival := by
  cases phase with
  | computing call number startedAt => exact (same call number rfl).trans carries
  | computed call number startedAt outcome =>
    refine ⟨(same call number rfl).trans carries.1, ?_⟩
    rw [rules call number startedAt outcome rfl]
    exact carries.2
  | waiting call number =>
    change arrival - provider arrival < later number
    rw [same call number rfl]
    exact carries
  | _ => trivial

/-- An entry lives for the lifetime read when its computation began. -/
def Entry.Aged (provider : ℚ → ℚ) (starts governed : ℕ → ℚ) (entry : Entry V) : Prop :=
  entry.expiresAt = starts entry.flight + max 0 (provider (governed entry.flight))

/-- What every lookup relies on. -/
structure Timed.Kept (provider : ℚ → ℚ) (timed : Timed V E) : Prop where
  reached : Reached timed.state
  entries : ∀ {key entry}, timed.state.entries key = some entry → entry.Aged provider timed.starts timed.governed
  threads : ∀ thread, (timed.state.threads thread).Carries provider timed.starts timed.governed (timed.arrivals thread)
  reads : ∀ read ∈ timed.reads, read.Young provider

variable {timed : Timed V E} {next : State V E} {thread : ℕ}

theorem engaged_below (kept : timed.Kept provider) {call : Call} {number : ℕ}
    (engaged : (timed.state.threads thread).engaged = some (call, some number)) : number < timed.state.opened := by
  have sound := reached_sound kept.reached
  obtain ⟨flight, here, -⟩ := (sound.threads thread).flight engaged
  exact (sound.flights here).below

theorem entry_below (kept : timed.Kept provider) {key : String} {entry : Entry V} (held : timed.state.entries key = some entry) :
    entry.flight < timed.state.opened := by
  have sound := reached_sound kept.reached
  obtain ⟨flight, here, -⟩ := sound.entries held
  exact (sound.flights here).below

theorem Timed.Kept.turned (kept : timed.Kept provider) (thread : ℕ) {after : Timed V E} {phase : Phase V E} (reached : Reached after.state)
    (threads : after.state.threads = Function.update timed.state.threads thread phase)
    (entries : after.state.entries = timed.state.entries)
    (starts : after.starts = timed.starts) (governed : after.governed = timed.governed)
    (arrivals : ∀ other, other ≠ thread → after.arrivals other = timed.arrivals other)
    (carries : phase.Carries provider timed.starts timed.governed (after.arrivals thread))
    (reads : ∀ read ∈ after.reads, read ∈ timed.reads ∨ read.Young provider) : after.Kept provider := by
  constructor
  · exact reached
  · intro key entry held
    rw [entries] at held
    rw [starts, governed]
    exact kept.entries held
  · intro other
    rw [threads, starts, governed]
    by_cases mine : other = thread
    · rw [mine, Function.update_self]
      exact carries
    · rw [Function.update_of_ne mine, arrivals other mine]
      exact kept.threads other
  · intro read here
    obtain before | young := reads read here
    · exact kept.reads read before
    · exact young

theorem lookup_hit {state : State V E} {key : String} {now : ℚ} {entry : Entry V} (found : state.lookup key now = .hit entry) :
    state.entries key = some entry ∧ now < entry.expiresAt := by
  unfold State.lookup at found
  split at found
  · next held =>
    cases found
    obtain ⟨held, live⟩ := Option.filter_eq_some_iff.mp held
    exact ⟨held, of_decide_eq_true live⟩
  · split at found
    · cases found
    · split at found
      · cases found
      · split at found <;> cases found

variable (nonneg : ∀ instant, 0 ≤ provider instant)
include nonneg

theorem hit_young_iff (kept : timed.Kept provider) {key : String} {now : ℚ} {entry : Entry V}
    (found : timed.state.lookup key now = .hit entry) :
    (⟨.ok entry.value, now, timed.starts entry.flight⟩ : Read V E).Young provider ↔
      ¬ (timed.starts entry.flight + provider now ≤ now ∧
        now < timed.starts entry.flight + provider (timed.governed entry.flight)) := by
  obtain ⟨held, live⟩ := lookup_hit found
  have aged := kept.entries held
  unfold Entry.Aged at aged
  rw [max_eq_right (nonneg _)] at aged
  rw [aged] at live
  constructor
  · intro young gap
    unfold Read.Young at young
    exact absurd gap.1 (not_le.mpr (sub_lt_iff_lt_add.mp young))
  · intro prompt
    unfold Read.Young
    by_contra old
    apply prompt
    constructor
    · exact le_sub_iff_add_le.mp (not_lt.mp old)
    · exact live

theorem Timed.Kept.entered (kept : timed.Kept provider) {now startedAt : ℚ} (reached : Reached next) {after : State V E}
    (stepped : timed.state.step (.enter thread now startedAt) = some after) (ticked : next = after.tick timed.state.time)
    (prompt : timed.Prompt provider (.enter thread now startedAt)) : (timed.enter thread now startedAt next).Kept provider := by
  simp only [State.step] at stepped
  split at stepped
  · next call stands =>
    cases stepped
    subst ticked
    have finds : timed.finds thread now = some (timed.state.lookup call.key now) := by
      unfold Timed.finds
      rw [stands]
    have others : ∀ other, other ≠ thread → Function.update timed.arrivals thread now other = timed.arrivals other :=
      fun other apart => Function.update_of_ne apart _ _
    simp only [Timed.Prompt, finds] at prompt
    unfold Timed.enter
    rw [finds]
    cases found : timed.state.lookup call.key now with
    | hit entry =>
      rw [found] at prompt
      refine @Timed.Kept.turned _ _ _ _ kept thread _ .idle reached ?_ ?_ rfl rfl others trivial ?_
      · simp only [State.enter, found]
        rfl
      · simp only [State.enter, found]
        rfl
      · intro read here
        obtain before | new := List.mem_append.mp here
        · exact .inl before
        · rw [List.mem_singleton.mp new]
          exact .inr ((hit_young_iff nonneg kept found).mpr prompt)
    | join number =>
      rw [found] at prompt
      refine @Timed.Kept.turned _ _ _ _ kept thread _ (.waiting call number) reached ?_ ?_ rfl rfl others ?_ fun read here => .inl here
      · simp only [State.enter, found]
        rfl
      · simp only [State.enter, found]
        rfl
      · change Function.update timed.arrivals thread now thread - provider (Function.update timed.arrivals thread now thread) <
          timed.starts number
        rw [Function.update_self]
        exact sub_lt_iff_lt_add.mpr prompt
    | lead =>
      -- The new flight takes a number that no thread and no entry names yet.
      have fresh : ∀ number, number < timed.state.opened →
          Function.update timed.starts timed.state.opened startedAt number = timed.starts number :=
        fun number below => Function.update_of_ne (Nat.ne_of_lt below) _ _
      constructor
      · exact reached
      · intro key entry held
        simp only [State.tick, State.enter, found] at held
        change entry.expiresAt = Function.update timed.starts timed.state.opened startedAt entry.flight + _
        rw [fresh _ (entry_below kept held)]
        exact kept.entries held
      · intro other
        simp only [State.tick, State.enter, found, State.stand]
        by_cases mine : other = thread
        · rw [mine, Function.update_self thread _ timed.state.threads]
          exact Function.update_self _ _ _
        · rw [Function.update_of_ne mine _ timed.state.threads, Function.update_of_ne mine _ timed.arrivals]
          exact (kept.threads other).kept (fun call number engaged => fresh number (engaged_below kept engaged)) fun _ _ _ _ _ => rfl
      · exact kept.reads
  · cases stepped

omit nonneg in
/-- The lifetime read by one leader is no other flight's: its own has given nothing yet. -/
theorem Timed.Kept.began (kept : timed.Kept provider) {began ended : ℚ} {outcome : Except E V} (reached : Reached next)
    {after : State V E} {later : Timed V E}
    (stepped : timed.state.step (Timed.action provider (.compute thread began ended outcome)) = some after)
    (ticked : next = after.tick timed.state.time) (computed : timed.compute thread began ended next = some later) :
    later.Kept provider := by
  have sound := reached_sound kept.reached
  simp only [Timed.action, State.step] at stepped
  split at stepped
  · next call number startedAt stands =>
    obtain ⟨flight, here, rfl⟩ := Option.map_eq_some_iff.mp stepped
    subst ticked
    simp only [Timed.compute, stands] at computed
    split at computed
    · cases computed
      obtain ⟨led, found, leader, stage⟩ := @(sound.threads thread).leader number (by rw [stands]; rfl)
      rw [stands] at stage
      have started : timed.starts number = startedAt := by
        have carries := kept.threads thread
        rw [stands] at carries
        exact carries
      constructor
      · exact reached
      · intro key entry held
        have aged := kept.entries held
        obtain ⟨past, there, -, -, gave⟩ := sound.entries held
        have other : entry.flight ≠ number := by
          rintro same
          rw [same, found] at there
          cases there
          rw [stage.1] at gave
          cases gave
        change entry.expiresAt = timed.starts entry.flight +
          max 0 (provider (Function.update timed.governed number began entry.flight))
        rw [Function.update_of_ne other]
        exact aged
      · intro other
        simp only [State.tick, State.stand, State.setFlight]
        by_cases mine : other = thread
        · rw [mine, Function.update_self thread _ timed.state.threads]
          refine ⟨started, ?_⟩
          intro ttl value gives
          rw [Function.update_self]
          cases outcome with
          | error error => cases gives
          | ok value => cases gives; rfl
        · rw [Function.update_of_ne mine _ timed.state.threads]
          refine (kept.threads other).kept (fun _ _ _ => rfl) ?_
          intro call rival startedAt outcome stands'
          apply Function.update_of_ne
          rintro rfl
          obtain ⟨rivalled, there, otherLeader, -⟩ := @(sound.threads other).leader rival (by rw [stands']; rfl)
          rw [found] at there
          cases there
          exact mine (otherLeader.symm.trans leader)
      · exact kept.reads
    · cases computed
  · cases stepped

omit nonneg in
theorem Timed.Kept.settled (kept : timed.Kept provider) (reached : Reached next) {after : State V E}
    (stepped : timed.state.step (.settle thread) = some after) (ticked : next = after.tick timed.state.time) :
    ({ timed with state := next } : Timed V E).Kept provider := by
  simp only [State.step] at stepped
  split at stepped
  · next call number startedAt outcome stands =>
    obtain ⟨flight, here, rfl⟩ := Option.map_eq_some_iff.mp stepped
    subst ticked
    have carries := kept.threads thread
    rw [stands] at carries
    cases outcome with
    | error error => exact kept.turned thread reached rfl rfl rfl rfl (fun _ _ => rfl) trivial fun read here => .inl here
    | ok given =>
      obtain ⟨ttl, value⟩ := given
      constructor
      · exact reached
      · intro key entry held
        simp only [State.tick, State.settle] at held
        split at held
        · by_cases same : key = call.key
          · subst same
            rw [Function.update_self] at held
            cases held
            unfold Entry.Aged
            rw [carries.1, carries.2 ttl value rfl]
          · rw [Function.update_of_ne same] at held
            exact kept.entries held
        · exact kept.entries held
      · intro other
        simp only [State.tick, State.settle, State.stand, State.land]
        by_cases mine : other = thread
        · rw [mine, Function.update_self thread _ timed.state.threads]
          trivial
        · rw [Function.update_of_ne mine _ timed.state.threads]
          exact kept.threads other
      · exact kept.reads
  · cases stepped

theorem Timed.Kept.act (kept : timed.Kept provider) {move : Move V E} {later : Timed V E}
    (acts : timed.act provider move = some later) (prompt : timed.Prompt provider move) : later.Kept provider := by
  obtain ⟨next, stepped, moved⟩ := Option.bind_eq_some_iff.mp acts
  have reached : Reached next := .act kept.reached _ stepped
  obtain ⟨after, turned, ticked⟩ := Option.map_eq_some_iff.mp stepped
  cases move with
  | call thread key =>
    cases moved
    simp only [action, State.step] at turned
    split at turned
    · cases turned
      subst ticked
      exact kept.turned thread reached rfl rfl rfl rfl (fun _ _ => rfl) trivial fun read here => .inl here
    · cases turned
  | enter thread now startedAt =>
    simp only at moved
    split at moved
    · cases moved
      exact kept.entered nonneg reached turned ticked.symm prompt
    · cases moved
  | compute thread began ended outcome => exact kept.began reached turned ticked.symm moved
  | settle thread =>
    cases moved
    exact kept.settled reached turned ticked.symm
  | publish thread =>
    cases moved
    simp only [action, State.step] at turned
    split at turned
    · obtain ⟨flight, here, rfl⟩ := Option.map_eq_some_iff.mp turned
      subst ticked
      exact kept.turned thread reached rfl rfl rfl rfl (fun _ _ => rfl) trivial fun read here => .inl here
    · cases turned
  | announce thread =>
    cases moved
    simp only [action, State.step] at turned
    split at turned
    · obtain ⟨flight, here, rfl⟩ := Option.map_eq_some_iff.mp turned
      subst ticked
      exact kept.turned thread reached rfl rfl rfl rfl (fun _ _ => rfl) trivial fun read here => .inl here
    · cases turned
  | wake thread =>
    cases moved
    simp only [action, State.step] at turned
    split at turned
    · next call number stands =>
      obtain ⟨flight, here, woken⟩ := Option.bind_eq_some_iff.mp turned
      split at woken
      · cases woken
        subst ticked
        refine @Timed.Kept.turned _ _ _ _ kept thread _ .idle reached rfl rfl rfl rfl (fun _ _ => rfl) trivial ?_
        · intro read there
          obtain before | new := List.mem_append.mp there
          · exact .inl before
          · have carries := kept.threads thread
            rw [stands] at carries
            simp only [given, stands] at new
            split at new
            · rw [List.mem_singleton.mp new]
              exact .inr carries
            · cases new
      · cases woken
    · cases turned
  | invalidate key =>
    cases moved
    cases turned
    subst ticked
    cases key with
    | none =>
      constructor
      · exact reached
      · exact fun held => by cases held
      · exact kept.threads
      · exact kept.reads
    | some name =>
      constructor
      · exact reached
      · intro key entry held
        change Function.update timed.state.entries name none key = some entry at held
        by_cases same : key = name
        · rw [same, Function.update_self] at held
          cases held
        · rw [Function.update_of_ne same] at held
          exact kept.entries held
      · exact kept.threads
      · exact kept.reads

theorem Timed.Kept.run (kept : timed.Kept provider) {moves : List (Move V E)} {last : Timed V E}
    (runs : timed.run provider moves = some last) (prompt : timed.AllPrompt provider moves) : last.Kept provider := by
  induction moves generalizing timed with
  | nil =>
    cases runs
    exact kept
  | cons move rest ih =>
    obtain ⟨next, acts, goes⟩ := Option.bind_eq_some_iff.mp runs
    exact ih (kept.act nonneg acts prompt.1) goes (prompt.2 next acts)

omit nonneg in
theorem Timed.initial_kept (clock : ℚ) : (initial clock : Timed V E).Kept provider := by
  constructor
  · exact .start
  · exact fun held => nomatch held
  · exact fun thread => trivial
  · exact fun read here => nomatch here

end Carried

/-- Sixty seconds until the open at 100, two from then on. -/
def shortening (instant : ℚ) : ℚ := if instant < 100 then 60 else 2

/-- The first caller computes a value before the open, and the second finds it. -/
def foundAt (now : ℚ) : List (Move ℕ Unit) :=
  [.call 0 "book", .enter 0 95 95, .compute 0 95 96 (.ok 7), .settle 0, .publish 0, .announce 0, .call 1 "book", .enter 1 now now]

/-- The second caller joins the flight of the first when it has been running for ten seconds. -/
def joinedLate : List (Move ℕ Unit) :=
  [.call 0 "book", .enter 0 100 100, .call 1 "book", .enter 1 110 110, .compute 0 100 112 (.ok 7), .settle 0, .publish 0,
    .announce 0, .wake 1]

theorem shortening_nonneg (instant : ℚ) : 0 ≤ shortening instant := by
  unfold shortening
  split <;> decide

end C3po.ReadCache
