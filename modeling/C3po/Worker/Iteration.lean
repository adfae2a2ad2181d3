import Mathlib.Data.List.MinMax
import C3po.Library.Admitted

/-! One wake-up of the valuation worker: the canonical cycle, then the off-hours phases, each
attempt admitted on the runs stored so far. Instants are microseconds of the wall clock of
Sao Paulo.
-/

set_option autoImplicit false

namespace C3po.Worker

def minute : Int := 60000000
def hour : Int := 60 * minute
def day : Int := 24 * hour

/-- `VALUATION_WORKER_PHASES`. -/
inductive PhaseKey where
  | canonical
  | chewie
  | v2Data
  | shadow
  | peerQuality
  | v3Shadow
  | cashYield
  | priceHistory
  | earningsCalendar
  | decisorShadow
  | ensembleLive
  deriving DecidableEq, Repr

def PhaseKey.code : PhaseKey → String
  | .canonical => "valuation-worker-canonical"
  | .chewie => "valuation-worker-chewie"
  | .v2Data => "valuation-worker-v2-data"
  | .shadow => "valuation-worker-v2-shadow"
  | .peerQuality => "valuation-worker-peer-quality"
  | .v3Shadow => "valuation-worker-v3-shadow"
  | .cashYield => "valuation-worker-r2d2-cash-yield"
  | .priceHistory => "valuation-worker-price-history"
  | .earningsCalendar => "valuation-worker-earnings-calendar"
  | .decisorShadow => "valuation-worker-decisor-shadow"
  | .ensembleLive => "valuation-worker-ensemble-live"

theorem PhaseKey.code_injective : Function.Injective PhaseKey.code := by
  intro first second same
  cases first <;> cases second <;> first | rfl | exact absurd same (by decide)

def canonicalRetryDelays : List Int := [15 * minute, hour, 3 * hour]
def canonicalMaxFailures : ℕ := 4
def canonicalMaxFailuresAllBuilds : ℕ := 6
def offhoursRetryDelay : Int := 30 * minute

/-- The wait after so many failures, of which there is at least one. -/
def retryDelay (failures : ℕ) : Int := canonicalRetryDelays.getD (min failures canonicalRetryDelays.length - 1) 0

inductive Status where
  | running
  | succeeded
  | failed
  deriving DecidableEq, Repr

/-- A row of `ingestion_runs` of the worker. -/
structure Run where
  code : String
  status : Status
  startedAt : Int
  scheduledFor : Int
  buildSha : String
  process : ℕ
  deriving DecidableEq, Repr

/-- An off-hours phase; the canonical cycle is none. -/
structure OffhoursPhase where
  key : PhaseKey
  startHour : Int := 1
  endHour : Int := 8
  maxFailures : Option ℕ := none
  clocked : Bool := false
  offhours : key ≠ .canonical := by decide
  deriving DecidableEq, Repr

/-- The admission of a phase's attempt, on the reading of its own clock. -/
structure Attempt where
  phase : OffhoursPhase
  dueAt : Int
  admitted : Int
  deriving DecidableEq, Repr

/-- The stored runs, what each phase answers for its last completion, and the process that
works. The last field only notes the attempts admitted. -/
structure State where
  runs : List Run := []
  completed : PhaseKey → Option Int := fun _ => none
  process : ℕ := 0
  alive : Bool := true
  attempts : List Attempt := []

/-- How an operation ends; a success may move the phase's last completion. -/
inductive Ending where
  | succeeded (completed : Option Int)
  | raised
  | killed
  deriving DecidableEq, Repr

/-- What the world answers a phase's turn: its clock, read twice, the instant it waits for, and
the instant an unclocked run is stamped with. -/
structure Turn where
  clock : Int
  reading : Int
  forward : clock ≤ reading
  notBefore : Option Int
  stampedAt : Int
  ending : Ending
  deriving DecidableEq, Repr

def countIngestionRuns (runs : List Run) (code : String) (status : Status) (scheduledFor : Int) (buildSha : Option String) : ℕ :=
  runs.countP fun run => run.code = code ∧ run.status = status ∧ run.scheduledFor = scheduledFor ∧ buildSha.all (run.buildSha = ·)

def lastIngestionRunStartedAt (runs : List Run) (code : String) (status : Status) (scheduledFor : Int) : Option Int :=
  ((runs.filter fun run => run.code = code ∧ run.status = status ∧ run.scheduledFor = scheduledFor).map Run.startedAt).max?

/-- A later completion stays: a phase never forgets one. -/
def raiseTo (old new : Option Int) : Option Int :=
  match old, new with
  | some before, some after => some (max before after)
  | some before, none => some before
  | none, after => after

namespace State
variable (state : State)

/-- A run is begun, its operation called, and the run finished as that ended; a process that
is killed leaves it running. -/
def runRecordedPhase (key : PhaseKey) (scheduledFor : Int) (buildSha : String) (startedAt : Int) (ending : Ending) : State :=
  let run : Run := ⟨key.code, .running, startedAt, scheduledFor, buildSha, state.process⟩
  match ending with
  | .succeeded completed =>
    { state with
      runs := state.runs ++ [{ run with status := .succeeded }]
      completed := Function.update state.completed key (raiseTo (state.completed key) completed) }
  | .raised => { state with runs := state.runs ++ [{ run with status := .failed }] }
  | .killed => { state with runs := state.runs ++ [run], alive := false }

end State

def startOfToday (now : Int) : Int := now / day * day
def nextMidnight (now : Int) : Int := startOfToday now + day

def phaseIsDue (lastCompletedAt : Option Int) (dueAt : Int) : Bool := lastCompletedAt.all (· < dueAt)

inductive CanonicalStatus where
  | current
  | retryCap
  | retryWait
  | succeeded
  | failed
  deriving DecidableEq, Repr

inductive PhaseStatus where
  | pending
  | retryCap
  | deferred
  | outsideWindow
  | succeeded
  | failed
  deriving DecidableEq, Repr

/-- What the passes of one wake-up leave: its state, its statuses and its wake targets. -/
structure Pass where
  state : State
  canonical : CanonicalStatus := .current
  phases : List (PhaseKey × PhaseStatus) := []
  wakes : List Int := []

section Iteration
variable (state : State) (now : Int) (buildSha : String)

def canonicalFailures (build : Option String) : ℕ :=
  countIngestionRuns state.runs PhaseKey.canonical.code .failed (startOfToday now) build

/-- The instant before which the canonical cycle waits after its last failure. -/
def retryAt : Option Int :=
  (lastIngestionRunStartedAt state.runs PhaseKey.canonical.code .failed (startOfToday now)).map fun last =>
    last + retryDelay (canonicalFailures state now none)

def attemptCanonical (ending : Ending) : Pass :=
  let next := state.runRecordedPhase .canonical (startOfToday now) buildSha now ending
  match ending with
  | .succeeded _ => { state := next, canonical := .succeeded }
  | .raised | .killed =>
    let failures := canonicalFailures next now (some buildSha)
    let failuresToday := canonicalFailures next now none
    { state := next, canonical := .failed
      wakes := if failures < canonicalMaxFailures ∧ failuresToday < canonicalMaxFailuresAllBuilds
        then [now + retryDelay (max failuresToday 1)] else [] }

/-- The canonical cycle, where it is due and its budget of the day allows. -/
def canonicalTurn (due : Bool) (ending : Ending) : Pass :=
  if !due then { state := state }
  else if canonicalMaxFailures ≤ canonicalFailures state now (some buildSha) ∨
      canonicalMaxFailuresAllBuilds ≤ canonicalFailures state now none then
    { state := state, canonical := .retryCap }
  else if canonicalFailures state now none = 0 then attemptCanonical state now buildSha ending
  else
    match retryAt state now with
    | none => attemptCanonical state now buildSha ending
    | some instant =>
      if now < instant then { state := state, canonical := .retryWait, wakes := [instant] }
      else attemptCanonical state now buildSha ending

/-- An attempt of a phase; its recorded start is the reading it was admitted on, if it has a clock. -/
def attemptPhase (phase : OffhoursPhase) (turn : Turn) (dueAt windowEnd current : Int) : State × PhaseStatus × List Int :=
  let admitted : State := { state with attempts := state.attempts ++ [⟨phase, dueAt, current⟩] }
  let next := admitted.runRecordedPhase phase.key dueAt buildSha (if phase.clocked then current else turn.stampedAt) turn.ending
  match turn.ending with
  | .succeeded _ => (next, .succeeded, [])
  | .raised | .killed =>
    (next, .failed, if current + offhoursRetryDelay < windowEnd then [current + offhoursRetryDelay] else [])

def waits (notBefore : Option Int) (current : Int) : Bool := notBefore.any (current < ·)

/-- The turn of an off-hours phase; one that is not due leaves no status. -/
def phaseTurn (phase : OffhoursPhase) (turn : Turn) : State × Option PhaseStatus × List Int :=
  let dueAt := startOfToday now + phase.startHour * hour
  let windowEnd := startOfToday now + phase.endHour * hour
  let current := if phase.clocked then turn.clock else now
  let exhausted := phase.maxFailures.any (· ≤ countIngestionRuns state.runs phase.key.code .failed dueAt none)
  if !phaseIsDue (state.completed phase.key) dueAt then (state, none, [])
  else if current < dueAt then (state, some .pending, [dueAt])
  else if windowEnd ≤ current then (state, some .outsideWindow, [])
  else if exhausted then (state, some .retryCap, [])
  else if waits turn.notBefore current then (state, some .deferred, turn.notBefore.toList)
  else if phase.clocked then
    -- the reads above may cross the end of the window: the clock is read again
    if windowEnd ≤ turn.reading then (state, some .outsideWindow, [])
    else if waits turn.notBefore turn.reading then (state, some .deferred, turn.notBefore.toList)
    else
      let (next, status, wakes) := attemptPhase state buildSha phase turn dueAt windowEnd turn.reading
      (next, some status, wakes)
  else
    let (next, status, wakes) := attemptPhase state buildSha phase turn dueAt windowEnd now
    (next, some status, wakes)

end Iteration

def Pass.take (now : Int) (buildSha : String) (pass : Pass) (turn : OffhoursPhase × Turn) : Pass :=
  if pass.state.alive then
    let (next, status, wakes) := phaseTurn pass.state now buildSha turn.1 turn.2
    { state := next, canonical := pass.canonical
      phases := pass.phases ++ (status.map fun status => (turn.1.key, status)).toList
      wakes := pass.wakes ++ wakes }
  else pass

structure WorkerIterationResult where
  nextWakeAt : Int
  canonicalStatus : CanonicalStatus
  phaseStatuses : List (PhaseKey × PhaseStatus)
  deriving DecidableEq, Repr

/-- One wake-up; a process that is killed answers nothing. -/
def runWorkerIteration (state : State) (now : Int) (buildSha : String) (canonicalDue : Bool) (ending : Ending)
    (turns : List (OffhoursPhase × Turn)) : State × Option WorkerIterationResult :=
  let pass := turns.foldl (Pass.take now buildSha) (canonicalTurn state now buildSha canonicalDue ending)
  (pass.state, if pass.state.alive then
    some ⟨pass.wakes.foldl min (nextMidnight now), pass.canonical, pass.phases⟩ else none)

/-- The runs that processes before this one left running are failed. -/
def reapOrphans (process : ℕ) (processStartedAt : Int) (runs : List Run) : List Run :=
  runs.map fun run =>
    if run.status = .running ∧ run.startedAt < processStartedAt ∧ run.process ≠ process then { run with status := .failed } else run

/-! The budget of attempts that the worker keeps: what an iteration, a restart and a deploy may do
to the stored runs, and how many failures, and how far apart, any sequence of them leaves.
-/

open Library
open Relation (ReflTransGen)

/-- The runs of a phase's instant that did not succeed, of one build or of all of them; one that
was killed is among them, reaped or not. -/
def unsuccessful (runs : List Run) (key : PhaseKey) (scheduledFor : Int) (buildSha : Option String) : ℕ :=
  runs.countP fun run => run.code = key.code ∧ run.status ≠ .succeeded ∧ run.scheduledFor = scheduledFor ∧ buildSha.all (run.buildSha = ·)

/-- A run of the canonical cycle starts after the wait that its day's failures ask for. -/
def Waited (before : List Run) (run : Run) : Prop :=
  run.scheduledFor = startOfToday run.startedAt ∧
  ∀ last ∈ before, last.code = PhaseKey.canonical.code → last.scheduledFor = run.scheduledFor → last.status ≠ .succeeded →
    last.startedAt + retryDelay (unsuccessful before .canonical run.scheduledFor none) ≤ run.startedAt

/-- Every phase of this key has a cap, and none above this one. -/
def Capped (phases : OffhoursPhase → Prop) (key : PhaseKey) (most : ℕ) : Prop :=
  key ≠ .canonical ∧ ∀ phase, phases phase → phase.key = key → ∃ own, phase.maxFailures = some own ∧ own ≤ most

structure Sanctioned (phases : OffhoursPhase → Prop) (before : List Run) (run : Run) : Prop where
  waited : run.code = PhaseKey.canonical.code → Waited before run
  day : run.code = PhaseKey.canonical.code → unsuccessful before .canonical run.scheduledFor none < canonicalMaxFailuresAllBuilds
  build : run.code = PhaseKey.canonical.code → unsuccessful before .canonical run.scheduledFor (some run.buildSha) < canonicalMaxFailures
  capped : ∀ key most, Capped phases key most → run.code = key.code → unsuccessful before key run.scheduledFor none < most

/-- The attempt's clock read inside the phase's hours of its night. -/
def Attempt.Inside (attempt : Attempt) : Prop :=
  ∃ now, attempt.dueAt = startOfToday now + attempt.phase.startHour * hour ∧ attempt.dueAt ≤ attempt.admitted ∧
    attempt.admitted < startOfToday now + attempt.phase.endHour * hour

def Attempt.ofNight (key : PhaseKey) (dueAt : Int) (attempt : Attempt) : Bool :=
  attempt.phase.key = key ∧ attempt.dueAt = dueAt

def Run.ofNight (key : PhaseKey) (dueAt : Int) (run : Run) : Bool :=
  run.code = key.code ∧ run.scheduledFor = dueAt

/-- One turn of an iteration that attempts an operation, with all it was admitted on. -/
inductive Turned (phases : OffhoursPhase → Prop) (state : State) : State → Prop
  | canonical (now : Int) (buildSha : String) (ending : Ending) (alive : state.alive = true)
      (day : canonicalFailures state now none < canonicalMaxFailuresAllBuilds)
      (build : canonicalFailures state now (some buildSha) < canonicalMaxFailures)
      (ready : ∀ instant, retryAt state now = some instant → instant ≤ now) :
      Turned phases state (state.runRecordedPhase .canonical (startOfToday now) buildSha now ending)
  | phase (attempt : Attempt) (buildSha : String) (startedAt : Int) (ending : Ending) (alive : state.alive = true)
      (wired : phases attempt.phase) (inside : attempt.Inside)
      (due : phaseIsDue (state.completed attempt.phase.key) attempt.dueAt = true)
      (left : attempt.phase.maxFailures.any (· ≤ countIngestionRuns state.runs attempt.phase.key.code .failed attempt.dueAt none) = false) :
      Turned phases state (State.runRecordedPhase { state with attempts := state.attempts ++ [attempt] }
        attempt.phase.key attempt.dueAt buildSha startedAt ending)

/-- What happens to the worker: an iteration at any instant, of any build, with any outcomes; the
start of another process, later than every run it finds running, which it reaps; and a last
completion that moves forward. -/
inductive Step (phases : OffhoursPhase → Prop) (state : State) : State → Prop
  | iterate (now : Int) (buildSha : String) (canonicalDue : Bool) (ending : Ending) (turns : List (OffhoursPhase × Turn))
      (alive : state.alive = true) (wired : ∀ turn ∈ turns, phases turn.1) :
      Step phases state (runWorkerIteration state now buildSha canonicalDue ending turns).1
  | restart (process : ℕ) (startedAt : Int)
      (orphaned : ∀ run ∈ state.runs, run.status = .running → run.startedAt < startedAt ∧ run.process ≠ process) :
      Step phases state { state with runs := reapOrphans process startedAt state.runs, process := process, alive := true }
  | completes (key : PhaseKey) (completedAt : Option Int) :
      Step phases state { state with completed := Function.update state.completed key (raiseTo (state.completed key) completedAt) }

section Turns
variable {phases : OffhoursPhase → Prop} {state next : State}

theorem retryAt_unfailed {now : Int} (unfailed : canonicalFailures state now none = 0) : retryAt state now = none := by
  have missed := List.countP_eq_zero.mp unfailed
  have empty : state.runs.filter (fun run => run.code = PhaseKey.canonical.code ∧ run.status = .failed ∧
      run.scheduledFor = startOfToday now) = [] := by
    apply List.filter_eq_nil_iff.mpr
    intro run mem kind
    apply missed run mem
    simpa using kind
  unfold retryAt lastIngestionRunStartedAt
  rw [empty]
  rfl

theorem canonicalTurn_turned (now : Int) (buildSha : String) (due : Bool) (ending : Ending) (alive : state.alive = true) :
    (canonicalTurn state now buildSha due ending).state = state ∨
      Turned phases state (canonicalTurn state now buildSha due ending).state := by
  have attempted (day : canonicalFailures state now none < canonicalMaxFailuresAllBuilds)
      (build : canonicalFailures state now (some buildSha) < canonicalMaxFailures)
      (ready : ∀ instant, retryAt state now = some instant → instant ≤ now) :
      Turned phases state (attemptCanonical state now buildSha ending).state := by
    have turned : Turned phases state _ := .canonical now buildSha ending alive day build ready
    cases ending <;> exact turned
  unfold canonicalTurn
  split
  · exact .inl rfl
  · split
    · exact .inl rfl
    · rename_i room
      rw [not_or, Nat.not_le, Nat.not_le] at room
      split
      · rename_i unfailed
        right
        apply attempted room.2 room.1
        intro instant waits
        rw [retryAt_unfailed unfailed] at waits
        cases waits
      · split
        · rename_i fresh
          right
          apply attempted room.2 room.1
          intro instant waits
          rw [fresh] at waits
          cases waits
        · rename_i instant waits
          split
          · exact .inl rfl
          · rename_i reached
            right
            apply attempted room.2 room.1
            intro other same
            rw [waits] at same
            cases same
            exact Int.not_lt.mp reached

theorem attemptPhase_state (buildSha : String) (phase : OffhoursPhase) (turn : Turn) (dueAt windowEnd current : Int) :
    (attemptPhase state buildSha phase turn dueAt windowEnd current).1 =
      State.runRecordedPhase { state with attempts := state.attempts ++ [⟨phase, dueAt, current⟩] } phase.key dueAt buildSha
        (if phase.clocked then current else turn.stampedAt) turn.ending := by
  unfold attemptPhase
  dsimp only
  split <;> rfl

theorem phaseTurn_turned (now : Int) (buildSha : String) {phase : OffhoursPhase} (turn : Turn) (alive : state.alive = true)
    (wired : phases phase) : (phaseTurn state now buildSha phase turn).1 = state ∨
      Turned phases state (phaseTurn state now buildSha phase turn).1 := by
  unfold phaseTurn
  dsimp only
  generalize reads : (if phase.clocked then turn.clock else now) = current
  split
  · exact .inl rfl
  rename_i due
  split
  · exact .inl rfl
  rename_i reached
  split
  · exact .inl rfl
  rename_i inside
  split
  · exact .inl rfl
  rename_i room
  split
  · exact .inl rfl
  rw [Bool.not_eq_true, Bool.not_eq_false'] at due
  rw [Bool.not_eq_true] at room
  rw [Int.not_lt] at reached
  rw [Int.not_le] at inside
  split
  · rename_i clocked
    rw [if_pos clocked] at reads
    split
    · exact .inl rfl
    rename_i later
    split
    · exact .inl rfl
    right
    rw [attemptPhase_state]
    have forward : current ≤ turn.reading := reads ▸ turn.forward
    exact .phase ⟨phase, _, turn.reading⟩ buildSha _ turn.ending alive wired
      ⟨now, rfl, Int.le_trans reached forward, Int.not_le.mp later⟩ due room
  · rename_i unclocked
    rw [if_neg unclocked] at reads
    subst reads
    right
    rw [attemptPhase_state]
    exact .phase ⟨phase, _, now⟩ buildSha _ turn.ending alive wired ⟨now, rfl, reached, inside⟩ due room

theorem take_turned (now : Int) (buildSha : String) (pass : Pass) (turn : OffhoursPhase × Turn) (wired : phases turn.1) :
    ReflTransGen (Turned phases) pass.state (pass.take now buildSha turn).state := by
  unfold Pass.take
  split
  · rename_i alive
    rcases phaseTurn_turned now buildSha turn.2 alive wired with same | turned
    · dsimp only
      rw [same]
    · exact .single turned
  · exact .refl

theorem runWorkerIteration_turned (now : Int) (buildSha : String) (due : Bool) (ending : Ending) (turns : List (OffhoursPhase × Turn))
    (alive : state.alive = true) (wired : ∀ turn ∈ turns, phases turn.1) :
    ReflTransGen (Turned phases) state (runWorkerIteration state now buildSha due ending turns).1 := by
  have passes (pass : Pass) : ReflTransGen (Turned phases) pass.state (turns.foldl (Pass.take now buildSha) pass).state := by
    induction turns generalizing pass with
    | nil => exact .refl
    | cons turn rest ih =>
      apply (take_turned now buildSha pass turn (wired turn List.mem_cons_self)).trans
      exact ih (fun other mem => wired other (List.mem_cons_of_mem turn mem)) _
  have canonical : (canonicalTurn state now buildSha due ending).state = state ∨
      Turned phases state (canonicalTurn state now buildSha due ending).state := canonicalTurn_turned now buildSha due ending alive
  rcases canonical with same | turned
  · have rest := passes (canonicalTurn state now buildSha due ending)
    rw [same] at rest
    exact rest
  · exact .head turned (passes _)

end Turns

end C3po.Worker
