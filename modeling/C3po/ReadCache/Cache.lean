import Mathlib.Algebra.Order.Ring.Rat

/-! The single-flight cache of read payloads: its lock sections, one step each.

Clocks and lifetimes are read by the step that reads them. The time of a state counts its
steps, and only says what came before what.
-/

set_option autoImplicit false

namespace C3po.ReadCache

structure Counters where
  hits : ℕ := 0
  misses : ℕ := 0
  coalesced : ℕ := 0
  errors : ℕ := 0
  invalidations : ℕ := 0

/-- An entry, with the flight that computed it. -/
structure Entry (V : Type) where
  value : V
  expiresAt : ℚ
  flight : ℕ

/-- A flight: what its waiters read of it, who leads it, when it was registered and what its
computation gave. -/
structure Flight (V E : Type) where
  key : String
  epoch : ℕ
  generation : ℕ
  outcome : Option (Except E V)
  done : Bool
  leader : ℕ
  started : ℕ
  computed : Option (Except E V)

/-- A call of `get`. -/
structure Call where
  key : String
  begun : ℕ

/-- Where a thread stands in `get`. A leader computes, settles under the lock, publishes to its
waiters and wakes them. -/
inductive Phase (V E : Type)
  | idle
  | began (call : Call)
  | waiting (call : Call) (flight : ℕ)
  | computing (call : Call) (flight : ℕ) (startedAt : ℚ)
  | computed (call : Call) (flight : ℕ) (startedAt : ℚ) (outcome : Except E (ℚ × V))
  | settled (call : Call) (flight : ℕ) (outcome : Except E V)
  | published (call : Call) (flight : ℕ) (outcome : Except E V)

/-- What a call gave, and the flight it took it from. -/
structure Answer (V E : Type) where
  call : Call
  flight : ℕ
  outcome : Except E V

structure State (V E : Type) where
  threads : ℕ → Phase V E
  entries : String → Option (Entry V)
  inflight : String → Option ℕ
  epoch : ℕ
  generations : String → ℕ
  counters : Counters
  flights : ℕ → Option (Flight V E)
  opened : ℕ
  invalidations : List (Option String × ℕ)
  answers : List (Answer V E)
  time : ℕ

variable {V E : Type}

/-- What the first lock section of `get` finds. -/
inductive Lookup (V : Type)
  | hit (entry : Entry V)
  | join (flight : ℕ)
  | lead

/-- A step of a thread; a lookup reads the clock twice, a computation reads the lifetime first. -/
inductive Action (V E : Type)
  | call (thread : ℕ) (key : String)
  | enter (thread : ℕ) (now startedAt : ℚ)
  | compute (thread : ℕ) (outcome : Except E (ℚ × V))
  | settle (thread : ℕ)
  | publish (thread : ℕ)
  | announce (thread : ℕ)
  | wake (thread : ℕ)
  | invalidate (key : Option String)

namespace State

def initial : State V E where
  threads := fun _ => .idle
  entries := fun _ => none
  inflight := fun _ => none
  epoch := 0
  generations := fun _ => 0
  counters := {}
  flights := fun _ => none
  opened := 0
  invalidations := []
  answers := []
  time := 0

variable (state : State V E)

/-- A flight of this epoch and of this generation of its key. -/
def Current (flight : Flight V E) : Prop :=
  flight.epoch = state.epoch ∧ flight.generation = state.generations flight.key

instance (flight : Flight V E) : Decidable (state.Current flight) := inferInstanceAs (Decidable (_ ∧ _))

def lookup (key : String) (now : ℚ) : Lookup V :=
  match (state.entries key).filter (now < ·.expiresAt) with
  | some entry => .hit entry
  | none =>
    match state.inflight key with
    | none => .lead
    | some number =>
      match state.flights number with
      | none => .lead
      | some flight =>
        if flight.epoch = state.epoch ∧ flight.generation = state.generations key then .join number else .lead

def stand (thread : ℕ) (phase : Phase V E) : State V E := { state with threads := Function.update state.threads thread phase }

/-- A call ends. -/
def finish (thread : ℕ) (answer : Answer V E) : State V E :=
  { state.stand thread .idle with answers := state.answers ++ [answer] }

def setFlight (number : ℕ) (flight : Flight V E) : State V E :=
  { state with flights := Function.update state.flights number (some flight) }

/-- Only the flight itself is removed, never a newer one. -/
def land (key : String) (flight : ℕ) : State V E :=
  { state with inflight := if state.inflight key = some flight then Function.update state.inflight key none else state.inflight }

def enter (thread : ℕ) (call : Call) (now startedAt : ℚ) : State V E :=
  match state.lookup call.key now with
  | .hit entry =>
    { state.finish thread ⟨call, entry.flight, .ok entry.value⟩ with
      counters := { state.counters with hits := state.counters.hits + 1 } }
  | .join flight =>
    { state.stand thread (.waiting call flight) with
      counters := { state.counters with coalesced := state.counters.coalesced + 1 } }
  | .lead =>
    { state.stand thread (.computing call state.opened startedAt) with
      flights := Function.update state.flights state.opened
        (some ⟨call.key, state.epoch, state.generations call.key, none, false, thread, state.time, none⟩)
      opened := state.opened + 1
      inflight := Function.update state.inflight call.key (some state.opened)
      counters := { state.counters with misses := state.counters.misses + 1 } }

/-- The second lock section of a leader, or `_fail_flight`. -/
def settle (thread : ℕ) (call : Call) (number : ℕ) (flight : Flight V E) (startedAt : ℚ) : Except E (ℚ × V) → State V E
  | .ok (ttl, value) =>
    let entries := if flight.epoch = state.epoch ∧ flight.generation = state.generations call.key then
        Function.update state.entries call.key (some ⟨value, startedAt + max 0 ttl, number⟩)
      else state.entries
    { (state.land call.key number).stand thread (.settled call number (.ok value)) with entries }
  | .error error =>
    { (state.land call.key number).stand thread (.settled call number (.error error)) with
      counters := { state.counters with errors := state.counters.errors + 1 } }

def invalidate (key : Option String) : State V E :=
  let noted := { state with
    invalidations := state.invalidations ++ [(key, state.time)]
    counters := { state.counters with invalidations := state.counters.invalidations + 1 } }
  match key with
  | none => { noted with entries := fun _ => none, inflight := fun _ => none, epoch := state.epoch + 1 }
  | some key => { noted with
      entries := Function.update state.entries key none
      inflight := Function.update state.inflight key none
      generations := Function.update state.generations key (state.generations key + 1) }

/-- One step; `none` when the thread does not stand where the step begins. -/
def step : Action V E → Option (State V E)
  | .call thread key =>
    match state.threads thread with
    | .idle => some (state.stand thread (.began ⟨key, state.time⟩))
    | _ => none
  | .enter thread now startedAt =>
    match state.threads thread with
    | .began call => some (state.enter thread call now startedAt)
    | _ => none
  | .compute thread outcome =>
    match state.threads thread with
    | .computing call number startedAt =>
      (state.flights number).map fun flight =>
        (state.setFlight number { flight with computed := some (outcome.map Prod.snd) }).stand thread
          (.computed call number startedAt outcome)
    | _ => none
  | .settle thread =>
    match state.threads thread with
    | .computed call number startedAt outcome =>
      (state.flights number).map fun flight => state.settle thread call number flight startedAt outcome
    | _ => none
  | .publish thread =>
    match state.threads thread with
    | .settled call number outcome =>
      (state.flights number).map fun flight =>
        (state.setFlight number { flight with outcome := some outcome }).stand thread (.published call number outcome)
    | _ => none
  | .announce thread =>
    match state.threads thread with
    | .published call number outcome =>
      (state.flights number).map fun flight =>
        (state.setFlight number { flight with done := true }).finish thread ⟨call, number, outcome⟩
    | _ => none
  | .wake thread =>
    match state.threads thread with
    | .waiting call number =>
      (state.flights number).bind fun flight =>
        match flight.done, flight.outcome with
        | true, some outcome => some (state.finish thread ⟨call, number, outcome⟩)
        | _, _ => none
    | _ => none
  | .invalidate key => some (state.invalidate key)

def act (action : Action V E) : Option (State V E) :=
  (state.step action).map fun next => { next with time := state.time + 1 }

end State

inductive Reached : State V E → Prop
  | start : Reached .initial
  | act {state next : State V E} (before : Reached state) (action : Action V E) (acts : state.act action = some next) : Reached next

structure History (V E : Type) where
  state : State V E
  reached : Reached state

end C3po.ReadCache

/-! What holds between any two lock sections.

A flight of the current epoch and generation that still runs is the one in the map, and
an entry is of the current epoch and generation of its key.
-/

namespace C3po.ReadCache
variable {V E : Type}

/-- An invalidation of one key or of everything reaches a key. -/
def Covers (which : Option String) (key : String) : Prop := which = none ∨ which = some key

/-- The flight was registered after every invalidation of its key that came before the call. -/
def Fresh (invalidations : List (Option String × ℕ)) (call : Call) (flight : Flight V E) : Prop :=
  ∀ note ∈ invalidations, Covers note.1 call.key → note.2 < call.begun → note.2 < flight.started

/-- An invalidation of its key came no earlier than the flight. -/
def Superseded (invalidations : List (Option String × ℕ)) (flight : Flight V E) : Prop :=
  ∃ note ∈ invalidations, Covers note.1 flight.key ∧ flight.started ≤ note.2

namespace Phase

/-- The call a thread is in, and the flight it leads or waits for. -/
def engaged : Phase V E → Option (Call × Option ℕ)
  | .idle => none
  | .began call => some (call, none)
  | .waiting call flight | .computing call flight _ | .computed call flight _ _ | .settled call flight _
  | .published call flight _ => some (call, some flight)

def leads : Phase V E → Option ℕ
  | .computing _ flight _ | .computed _ flight _ _ | .settled _ flight _ | .published _ flight _ => some flight
  | _ => none

/-- The flight a thread computes for, until it settles. -/
def runs : Phase V E → Option ℕ
  | .computing _ flight _ | .computed _ flight _ _ => some flight
  | _ => none

def Stage (flight : Flight V E) : Phase V E → Prop
  | .computing .. => flight.computed = none ∧ flight.outcome = none ∧ flight.done = false
  | .computed _ _ _ outcome => flight.computed = some (outcome.map Prod.snd) ∧ flight.outcome = none ∧ flight.done = false
  | .settled _ _ outcome => flight.computed = some outcome ∧ flight.outcome = none ∧ flight.done = false
  | .published _ _ outcome => flight.computed = some outcome ∧ flight.outcome = some outcome ∧ flight.done = false
  | _ => True

theorem leads_of_runs {phase : Phase V E} {number : ℕ} (runs : phase.runs = some number) : phase.leads = some number := by
  cases phase <;> first | exact runs | cases runs

theorem leads_engaged {phase : Phase V E} {number : ℕ} (leads : phase.leads = some number) :
    ∃ call, phase.engaged = some (call, some number) := by
  cases phase <;> first | exact ⟨_, congrArg (some ∘ Prod.mk _) leads⟩ | cases leads

end Phase

structure Stands (state : State V E) (thread : ℕ) (phase : Phase V E) : Prop where
  begun : ∀ {call : Call} {flight : Option ℕ}, phase.engaged = some (call, flight) → call.begun < state.time
  flight : ∀ {call : Call} {number : ℕ}, phase.engaged = some (call, some number) →
    ∃ flight, state.flights number = some flight ∧ flight.key = call.key ∧ Fresh state.invalidations call flight
  leader : ∀ {number : ℕ}, phase.leads = some number →
    ∃ flight, state.flights number = some flight ∧ flight.leader = thread ∧ phase.Stage flight

structure FlightSound (state : State V E) (number : ℕ) (flight : Flight V E) : Prop where
  below : number < state.opened
  started : flight.started < state.time
  epoch : flight.epoch ≤ state.epoch
  generation : flight.generation ≤ state.generations flight.key
  current : state.Current flight ↔ ¬ Superseded state.invalidations flight
  published : ∀ {outcome : Except E V}, flight.outcome = some outcome → flight.computed = some outcome
  attended : flight.done = true ∧ flight.outcome ≠ none ∨ (state.threads flight.leader).leads = some number

/-- An answer is what a computation of its key gave, registered after the invalidations before the call. -/
structure Answered (state : State V E) (answer : Answer V E) : Prop where
  begun : answer.call.begun < state.time
  flight : ∃ flight, state.flights answer.flight = some flight ∧ flight.key = answer.call.key ∧
    flight.computed = some answer.outcome ∧ Fresh state.invalidations answer.call flight

structure State.Sound (state : State V E) : Prop where
  flights : ∀ {number flight}, state.flights number = some flight → FlightSound state number flight
  notes : ∀ note ∈ state.invalidations, note.2 < state.time
  threads : ∀ thread, Stands state thread (state.threads thread)
  inflight : ∀ {key number}, state.inflight key = some number → ∃ flight, state.flights number = some flight ∧
    flight.key = key ∧ state.Current flight ∧ (state.threads flight.leader).runs = some number
  running : ∀ {thread number flight}, (state.threads thread).runs = some number → state.flights number = some flight →
    state.Current flight → state.inflight flight.key = some number
  entries : ∀ {key entry}, state.entries key = some entry → ∃ flight, state.flights entry.flight = some flight ∧
    flight.key = key ∧ state.Current flight ∧ flight.computed = some (.ok entry.value)
  answers : ∀ answer ∈ state.answers, Answered state answer

/-- A flight after a step of its leader. -/
structure Flight.Advances (flight later : Flight V E) : Prop where
  key : later.key = flight.key
  epoch : later.epoch = flight.epoch
  generation : later.generation = flight.generation
  leader : later.leader = flight.leader
  started : later.started = flight.started
  computed : ∀ {outcome : Except E V}, flight.computed = some outcome → later.computed = some outcome
  published : ∀ {outcome : Except E V}, later.outcome = some outcome → later.computed = some outcome

/-- A step of one thread that leaves the tokens and registers no flight. -/
structure Turn (state next : State V E) (thread : ℕ) (phase : Phase V E) : Prop where
  threads : next.threads = Function.update state.threads thread phase
  epoch : next.epoch = state.epoch
  generations : next.generations = state.generations
  opened : next.opened = state.opened
  invalidations : next.invalidations = state.invalidations
  time : next.time = state.time + 1
  kept : ∀ {number flight}, state.flights number = some flight → ∃ later, next.flights number = some later ∧ flight.Advances later
  flights : ∀ {number later}, next.flights number = some later → ∃ flight, state.flights number = some flight ∧
    flight.Advances later ∧ (later = flight ∨ flight.leader = thread) ∧
    (flight.leader = thread → later.done = true ∧ later.outcome ≠ none ∨ phase.leads = some number)
  stands : Stands next thread phase
  answers : ∀ answer ∈ next.answers, answer ∈ state.answers ∨ Answered next answer

section Turns
variable {state next : State V E} {thread : ℕ} {phase : Phase V E}

theorem Turn.current (turn : Turn state next thread phase) {flight later : Flight V E} (advances : flight.Advances later) :
    next.Current later ↔ state.Current flight := by
  unfold State.Current
  rw [advances.epoch, advances.generation, advances.key, turn.epoch, turn.generations]

theorem Flight.Advances.fresh {flight later : Flight V E} (advances : flight.Advances later) {notes : List (Option String × ℕ)}
    {call : Call} (fresh : Fresh notes call flight) : Fresh notes call later := by
  intro note here covers before
  rw [advances.started]
  exact fresh note here covers before

theorem Turn.flightSound (turn : Turn state next thread phase) (sound : state.Sound) {number : ℕ} {later : Flight V E}
    (here : next.flights number = some later) : FlightSound next number later := by
  obtain ⟨flight, before, advances, same, led⟩ := turn.flights here
  have old := sound.flights before
  constructor
  · rw [turn.opened]
    exact old.below
  · rw [advances.started, turn.time]
    exact Nat.lt_succ_of_lt old.started
  · rw [advances.epoch, turn.epoch]
    exact old.epoch
  · rw [advances.generation, advances.key, turn.generations]
    exact old.generation
  · rw [turn.current advances, old.current, turn.invalidations]
    unfold Superseded
    rw [advances.key, advances.started]
  · exact advances.published
  · rw [advances.leader, turn.threads]
    by_cases mine : flight.leader = thread
    · rw [mine, Function.update_self]
      exact led mine
    · rw [Function.update_of_ne mine]
      obtain rfl | other := same
      · exact old.attended
      · exact absurd other mine

theorem Turn.threadStands (turn : Turn state next thread phase) (sound : state.Sound) (other : ℕ) :
    Stands next other (next.threads other) := by
  rw [turn.threads]
  by_cases mine : other = thread
  · rw [mine, Function.update_self]
    exact turn.stands
  · rw [Function.update_of_ne mine]
    obtain ⟨begun, flight, leader⟩ := sound.threads other
    constructor
    · intro call number engaged
      rw [turn.time]
      exact Nat.lt_succ_of_lt (begun engaged)
    · intro call number engaged
      obtain ⟨flight, before, key, fresh⟩ := flight engaged
      obtain ⟨later, after, advances⟩ := turn.kept before
      rw [turn.invalidations]
      exact ⟨later, after, advances.key.trans key, advances.fresh fresh⟩
    · intro number leads
      obtain ⟨flight, before, leader, stage⟩ := leader leads
      obtain ⟨later, after, advances⟩ := turn.kept before
      obtain ⟨found, there, -, same, -⟩ := turn.flights after
      rw [before] at there
      cases there
      refine ⟨later, after, advances.leader.trans leader, ?_⟩
      obtain rfl | led := same
      · exact stage
      · exact absurd (leader.symm.trans led) mine

theorem Turn.answered (turn : Turn state next thread phase) (sound : state.Sound) : ∀ answer ∈ next.answers, Answered next answer := by
  intro answer here
  obtain before | new := turn.answers answer here
  · obtain ⟨begun, flight, found, key, computed, fresh⟩ := sound.answers answer before
    obtain ⟨later, after, advances⟩ := turn.kept found
    constructor
    · rw [turn.time]
      exact Nat.lt_succ_of_lt begun
    · rw [turn.invalidations]
      exact ⟨later, after, advances.key.trans key, advances.computed computed, advances.fresh fresh⟩
  · exact new

theorem Turn.sound (turn : Turn state next thread phase) (sound : state.Sound) (entries : next.entries = state.entries)
    (inflight : next.inflight = state.inflight) (runs : phase.runs = (state.threads thread).runs) : next.Sound := by
  have sameRuns : ∀ other, (next.threads other).runs = (state.threads other).runs := by
    intro other
    rw [turn.threads]
    by_cases mine : other = thread
    · rw [mine, Function.update_self, runs]
    · rw [Function.update_of_ne mine]
  constructor
  · exact turn.flightSound sound
  · rw [turn.invalidations, turn.time]
    exact fun note here => Nat.lt_succ_of_lt (sound.notes note here)
  · exact turn.threadStands sound
  · intro key number here
    rw [inflight] at here
    obtain ⟨flight, before, sameKey, current, running⟩ := sound.inflight here
    obtain ⟨later, after, advances⟩ := turn.kept before
    refine ⟨later, after, advances.key.trans sameKey, (turn.current advances).mpr current, ?_⟩
    rw [advances.leader, sameRuns]
    exact running
  · intro other number later running here current
    obtain ⟨flight, before, advances, -⟩ := turn.flights here
    rw [inflight, advances.key]
    rw [sameRuns] at running
    exact sound.running running before ((turn.current advances).mp current)
  · intro key entry here
    rw [entries] at here
    obtain ⟨flight, before, sameKey, current, computed⟩ := sound.entries here
    obtain ⟨later, after, advances⟩ := turn.kept before
    exact ⟨later, after, advances.key.trans sameKey, (turn.current advances).mpr current, advances.computed computed⟩
  · exact turn.answered sound

end Turns

end C3po.ReadCache
