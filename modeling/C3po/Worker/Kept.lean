import C3po.Worker.Iteration

/-! The worker's budget holds in every state that iterations, restarts and deploys reach. -/

set_option autoImplicit false

namespace C3po.Worker

open Library
open Relation (ReflTransGen)

variable {phases : OffhoursPhase → Prop} {state next : State}

/-- What holds of the worker between its turns. -/
structure Kept (phases : OffhoursPhase → Prop) (state : State) : Prop where
  ended : state.alive = true → ∀ run ∈ state.runs, run.status ≠ .running
  sanctioned : Admitted (Sanctioned phases) state.runs
  inside : ∀ attempt ∈ state.attempts, attempt.Inside
  noted : ∀ key dueAt, key ≠ .canonical →
    state.runs.countP (Run.ofNight key dueAt) = state.attempts.countP (Attempt.ofNight key dueAt)

theorem kept_start (completed : PhaseKey → Option Int) (process : ℕ) : Kept phases { completed := completed, process := process } where
  ended := nofun
  sanctioned := admitted_nil
  inside := nofun
  noted _ _ _ := rfl

theorem unsuccessful_ended {runs : List Run} (ended : ∀ run ∈ runs, run.status ≠ .running) (key : PhaseKey) (scheduledFor : Int)
    (buildSha : Option String) :
    unsuccessful runs key scheduledFor buildSha = countIngestionRuns runs key.code .failed scheduledFor buildSha := by
  apply List.countP_congr
  intro run mem
  have settled : run.status ≠ .succeeded ↔ run.status = .failed := by
    have := ended run mem
    cases status : run.status <;> simp_all
  simp [settled]

theorem runRecordedPhase_runs (state : State) (key : PhaseKey) (scheduledFor : Int) (buildSha : String) (startedAt : Int) (ending : Ending) :
    ∃ status, (state.runRecordedPhase key scheduledFor buildSha startedAt ending).runs =
        state.runs ++ [⟨key.code, status, startedAt, scheduledFor, buildSha, state.process⟩] ∧
      ((state.runRecordedPhase key scheduledFor buildSha startedAt ending).alive = true → status ≠ .running) := by
  cases ending with
  | succeeded completed => exact ⟨.succeeded, rfl, nofun⟩
  | raised => exact ⟨.failed, rfl, nofun⟩
  | killed => exact ⟨.running, rfl, nofun⟩

@[simp] theorem runRecordedPhase_attempts (state : State) (key : PhaseKey) (scheduledFor : Int) (buildSha : String) (startedAt : Int)
    (ending : Ending) : (state.runRecordedPhase key scheduledFor buildSha startedAt ending).attempts = state.attempts := by
  cases ending <;> rfl

theorem Kept.runRecordedPhase (kept : Kept phases state) {attempts : List Attempt} {key : PhaseKey} {scheduledFor : Int} {buildSha : String}
    {startedAt : Int} {ending : Ending} (alive : state.alive = true) (inside : ∀ attempt ∈ attempts, attempt.Inside)
    (noted : ∀ other dueAt, other ≠ .canonical → attempts.countP (Attempt.ofNight other dueAt) =
      state.attempts.countP (Attempt.ofNight other dueAt) + if key = other ∧ scheduledFor = dueAt then 1 else 0)
    (admitted : ∀ status, Sanctioned phases state.runs ⟨key.code, status, startedAt, scheduledFor, buildSha, state.process⟩) :
    Kept phases (State.runRecordedPhase { state with attempts := attempts } key scheduledFor buildSha startedAt ending) := by
  obtain ⟨status, runs, ends⟩ := runRecordedPhase_runs { state with attempts := attempts } key scheduledFor buildSha startedAt ending
  constructor
  · intro working run mem
    rw [runs, List.mem_append, List.mem_singleton] at mem
    rcases mem with earlier | rfl
    · exact kept.ended alive run earlier
    · exact ends working
  · rw [runs]
    exact kept.sanctioned.append (admitted status)
  · rw [runRecordedPhase_attempts]
    exact inside
  · intro other dueAt offhours
    rw [runs, runRecordedPhase_attempts, noted other dueAt offhours, List.countP_append, List.countP_singleton,
      kept.noted other dueAt offhours]
    simp only [Run.ofNight, PhaseKey.code_injective.eq_iff, decide_eq_true_eq]

theorem Kept.turned (kept : Kept phases state) (turn : Turned phases state next) : Kept phases next := by
  cases turn with
  | canonical now buildSha ending alive day build ready =>
    have ended := kept.ended alive
    have failed (buildSha : Option String) := unsuccessful_ended ended .canonical (startOfToday now) buildSha
    apply Kept.runRecordedPhase kept alive kept.inside
    · intro other dueAt offhours
      rw [if_neg fun same => offhours same.1.symm, Nat.add_zero]
    · intro status
      constructor
      · intro _
        refine ⟨rfl, fun last mem code scheduled failing => ?_⟩
        have failedLast : last.status = .failed := by
          have := ended last mem
          cases status : last.status <;> simp_all
        have counted : last ∈ state.runs.filter fun run => run.code = PhaseKey.canonical.code ∧ run.status = .failed ∧
            run.scheduledFor = startOfToday now := by
          rw [List.mem_filter]
          exact ⟨mem, by simp [code, scheduled, failedLast]⟩
        -- the wait is counted from the latest failure, which is no earlier than this one
        have start := List.mem_map_of_mem (f := Run.startedAt) counted
        cases latest : lastIngestionRunStartedAt state.runs PhaseKey.canonical.code .failed (startOfToday now) with
        | none =>
          rw [lastIngestionRunStartedAt, List.max?_eq_none_iff] at latest
          rw [latest] at start
          cases start
        | some newest =>
          have bound : last.startedAt ≤ newest := (List.max?_eq_some_iff.mp latest).2 _ start
          have wait := ready (newest + retryDelay (canonicalFailures state now none)) (by rw [retryAt, latest]; rfl)
          rw [failed none]
          change last.startedAt + retryDelay (canonicalFailures state now none) ≤ now
          omega
      · intro _
        exact (failed none).trans_lt day
      · intro _
        exact (failed (some buildSha)).trans_lt build
      · intro key most capped same
        exact absurd (PhaseKey.code_injective same).symm capped.1
  | phase attempt buildSha startedAt ending alive wired inside due left =>
    have ended := kept.ended alive
    apply Kept.runRecordedPhase kept alive
    · intro other mem
      rw [List.mem_append, List.mem_singleton] at mem
      rcases mem with earlier | rfl
      · exact kept.inside other earlier
      · exact inside
    · intro other dueAt offhours
      rw [List.countP_append, List.countP_singleton]
      simp only [Attempt.ofNight, decide_eq_true_eq]
    · intro status
      have apart {P : Prop} (same : attempt.phase.key.code = PhaseKey.canonical.code) : P :=
        absurd (PhaseKey.code_injective same) attempt.phase.offhours
      refine ⟨apart, apart, apart, fun key most capped same => ?_⟩
      cases PhaseKey.code_injective same
      obtain ⟨own, cap, within⟩ := capped.2 attempt.phase wired rfl
      rw [cap, Option.any_some, decide_eq_false_iff_not, Nat.not_le] at left
      exact ((unsuccessful_ended ended attempt.phase.key attempt.dueAt none).trans_lt left).trans_le within

theorem Kept.turns (kept : Kept phases state) (turns : ReflTransGen (Turned phases) state next) : Kept phases next := by
  induction turns with
  | refl => exact kept
  | tail _ turn ih => exact ih.turned turn

/-- A revision that leaves a run what it was, up to a failure that was not known. -/
structure Settles (revise : Run → Run) : Prop where
  code : ∀ run, (revise run).code = run.code
  startedAt : ∀ run, (revise run).startedAt = run.startedAt
  scheduledFor : ∀ run, (revise run).scheduledFor = run.scheduledFor
  buildSha : ∀ run, (revise run).buildSha = run.buildSha
  succeeded : ∀ run, (revise run).status = .succeeded ↔ run.status = .succeeded

section Settled
variable {revise : Run → Run}

theorem Settles.unsuccessful (settles : Settles revise) (runs : List Run) (key : PhaseKey) (scheduledFor : Int) (buildSha : Option String) :
    unsuccessful (runs.map revise) key scheduledFor buildSha = unsuccessful runs key scheduledFor buildSha := by
  unfold C3po.Worker.unsuccessful
  rw [List.countP_map]
  apply List.countP_congr
  intro run _
  simp [settles.code, settles.scheduledFor, settles.buildSha, settles.succeeded]

theorem Settles.sanctioned (settles : Settles revise) {before : List Run} {run : Run} (sanctioned : Sanctioned phases before run) :
    Sanctioned phases (before.map revise) (revise run) := by
  have count := settles.unsuccessful before
  constructor
  · intro code
    rw [settles.code] at code
    obtain ⟨today, waited⟩ := sanctioned.waited code
    refine ⟨by rw [settles.scheduledFor, settles.startedAt, today], fun last mem own scheduled failing => ?_⟩
    obtain ⟨earlier, held, rfl⟩ := List.mem_map.mp mem
    rw [settles.code] at own
    rw [settles.scheduledFor, settles.scheduledFor] at scheduled
    rw [Ne, settles.succeeded] at failing
    rw [settles.startedAt, settles.startedAt, settles.scheduledFor, count]
    exact waited earlier held own scheduled failing
  · intro code
    rw [settles.code] at code
    rw [settles.scheduledFor, count]
    exact sanctioned.day code
  · intro code
    rw [settles.code] at code
    rw [settles.scheduledFor, settles.buildSha, count]
    exact sanctioned.build code
  · intro key most capped code
    rw [settles.code] at code
    rw [settles.scheduledFor, count]
    exact sanctioned.capped key most capped code

end Settled

theorem reapOrphans_settles (process : ℕ) (startedAt : Int) : ∃ revise, Settles revise ∧ reapOrphans process startedAt = List.map revise := by
  refine ⟨_, ?_, rfl⟩
  constructor <;> intro run <;> split
  all_goals first | rfl | exact Iff.rfl | skip
  rename_i orphaned
  simp [orphaned.1]

theorem reapOrphans_ended {process : ℕ} {startedAt : Int} {runs : List Run}
    (orphaned : ∀ run ∈ runs, run.status = .running → run.startedAt < startedAt ∧ run.process ≠ process) :
    ∀ run ∈ reapOrphans process startedAt runs, run.status ≠ .running := by
  intro run mem
  obtain ⟨earlier, held, rfl⟩ := List.mem_map.mp mem
  split
  · exact nofun
  · rename_i kept
    intro running
    exact kept ⟨running, orphaned earlier held running⟩

theorem Kept.step (kept : Kept phases state) (step : Step phases state next) : Kept phases next := by
  cases step with
  | iterate now buildSha due ending turns alive wired =>
    exact kept.turns (runWorkerIteration_turned now buildSha due ending turns alive wired)
  | restart process startedAt orphaned =>
    obtain ⟨revise, settles, reaps⟩ := reapOrphans_settles process startedAt
    refine ⟨fun _ => reapOrphans_ended orphaned, ?_, kept.inside, fun key dueAt offhours => ?_⟩
    · rw [reaps]
      exact kept.sanctioned.map fun before run sanctioned => settles.sanctioned sanctioned
    · rw [reaps, List.countP_map, ← kept.noted key dueAt offhours]
      apply List.countP_congr
      intro run _
      simp [Run.ofNight, settles.code, settles.scheduledFor]
  | completes key completedAt => exact ⟨kept.ended, kept.sanctioned, kept.inside, kept.noted⟩

def State.Completed (state : State) (key : PhaseKey) (dueAt : Int) : Prop := phaseIsDue (state.completed key) dueAt = false

theorem raiseTo_due {old : Option Int} {dueAt : Int} (done : phaseIsDue old dueAt = false) (new : Option Int) :
    phaseIsDue (raiseTo old new) dueAt = false := by
  cases old with
  | none => cases done
  | some before =>
    cases new with
    | none => exact done
    | some after =>
      simp only [phaseIsDue, raiseTo, Option.all_some, decide_eq_false_iff_not, Int.not_lt] at done ⊢
      exact Int.le_trans done (Int.le_max_left before after)

/-- Once a phase has completed a night it stays so, and no attempt of that night follows. -/
structure Closed (key : PhaseKey) (dueAt : Int) (state next : State) : Prop where
  completed : next.Completed key dueAt
  attempts : next.attempts.filter (Attempt.ofNight key dueAt) = state.attempts.filter (Attempt.ofNight key dueAt)

theorem update_completed {key : PhaseKey} {dueAt : Int} (completed : state.Completed key dueAt) (other : PhaseKey) (new : Option Int) :
    phaseIsDue (Function.update state.completed other (raiseTo (state.completed other) new) key) dueAt = false := by
  by_cases same : key = other
  · subst same
    rw [Function.update_self]
    exact raiseTo_due completed new
  · rw [Function.update_of_ne same]
    exact completed

theorem runRecordedPhase_completed {key : PhaseKey} {dueAt : Int} (completed : state.Completed key dueAt) (other : PhaseKey)
    (scheduledFor : Int) (buildSha : String) (startedAt : Int) (ending : Ending) :
    (state.runRecordedPhase other scheduledFor buildSha startedAt ending).Completed key dueAt := by
  cases ending with
  | succeeded new => exact update_completed completed other new
  | raised => exact completed
  | killed => exact completed

theorem Turned.closed {key : PhaseKey} {dueAt : Int} (turn : Turned phases state next) (completed : state.Completed key dueAt) :
    Closed key dueAt state next := by
  cases turn with
  | canonical now buildSha ending alive day build ready =>
    exact ⟨runRecordedPhase_completed completed .canonical _ _ _ _, by rw [runRecordedPhase_attempts]⟩
  | phase attempt buildSha startedAt ending alive wired inside due left =>
    have before : ({ state with attempts := state.attempts ++ [attempt] } : State).Completed key dueAt := completed
    refine ⟨runRecordedPhase_completed before _ _ _ _ _, ?_⟩
    have other : Attempt.ofNight key dueAt attempt = false := by
      apply eq_false_of_ne_true
      intro own
      obtain ⟨rfl, rfl⟩ := of_decide_eq_true own
      exact Bool.false_ne_true (completed.symm.trans due)
    rw [runRecordedPhase_attempts, List.filter_append, List.filter_singleton, other, cond_false, List.append_nil]

theorem Closed.trans {key : PhaseKey} {dueAt : Int} {last : State} (first : Closed key dueAt state next) (second : Closed key dueAt next last) :
    Closed key dueAt state last :=
  ⟨second.completed, second.attempts.trans first.attempts⟩

theorem closed_turns {key : PhaseKey} {dueAt : Int} (completed : state.Completed key dueAt)
    (turns : ReflTransGen (Turned phases) state next) : Closed key dueAt state next := by
  induction turns with
  | refl => exact ⟨completed, rfl⟩
  | tail _ turn ih => exact ih.trans (turn.closed ih.completed)

theorem Step.closed {key : PhaseKey} {dueAt : Int} (step : Step phases state next) (completed : state.Completed key dueAt) :
    Closed key dueAt state next := by
  cases step with
  | iterate now buildSha due ending turns alive wired =>
    exact closed_turns completed (runWorkerIteration_turned now buildSha due ending turns alive wired)
  | restart process startedAt orphaned => exact ⟨completed, rfl⟩
  | completes other new => exact ⟨update_completed completed other new, rfl⟩

theorem closed_run {key : PhaseKey} {dueAt : Int} (completed : state.Completed key dueAt) (run : ReflTransGen (Step phases) state next) :
    Closed key dueAt state next := by
  induction run with
  | refl => exact ⟨completed, rfl⟩
  | tail _ step ih => exact ih.trans (step.closed ih.completed)

theorem kept_run {start : State} (kept : Kept phases start) (run : ReflTransGen (Step phases) start state) : Kept phases state := by
  induction run with
  | refl => exact kept
  | tail _ step ih => exact ih.step step

/-- Whatever the outcomes, the restarts and the deploys: a day's canonical cycle fails at most six
times and four in one build, each attempt waiting what the failures so far ask; an off-hours phase
fails a night at most as often as its cap, every attempt of it is inside its hours, and none follows
once it has completed the night. -/
theorem iterations_budgeted {phases : OffhoursPhase → Prop} {completed : PhaseKey → Option Int} {process : ℕ} {state : State}
    (run : ReflTransGen (Step phases) { completed := completed, process := process } state) :
    (∀ today, unsuccessful state.runs .canonical today none ≤ canonicalMaxFailuresAllBuilds) ∧
    (∀ today buildSha, unsuccessful state.runs .canonical today (some buildSha) ≤ canonicalMaxFailures) ∧
    Admitted (fun before run => run.code = PhaseKey.canonical.code → Waited before run) state.runs ∧
    (∀ key most, Capped phases key most → ∀ dueAt, unsuccessful state.runs key dueAt none ≤ most) ∧
    (∀ attempt ∈ state.attempts, attempt.Inside) ∧
    (∀ key dueAt, key ≠ .canonical →
      state.runs.countP (Run.ofNight key dueAt) = state.attempts.countP (Attempt.ofNight key dueAt)) ∧
    (∀ key dueAt, state.Completed key dueAt → ∀ later, ReflTransGen (Step phases) state later →
      later.attempts.filter (Attempt.ofNight key dueAt) = state.attempts.filter (Attempt.ofNight key dueAt)) := by
  have kept := kept_run (kept_start completed process) run
  refine ⟨fun today => ?_, fun today buildSha => ?_, kept.sanctioned.mono fun _ _ sanctioned => sanctioned.waited,
    fun key most capped dueAt => ?_, kept.inside, kept.noted, fun key dueAt done later run => (closed_run done run).attempts⟩
  · apply kept.sanctioned.countP_le
    intro before run sanctioned counted
    obtain ⟨code, -, rfl, -⟩ := of_decide_eq_true counted
    exact sanctioned.day code
  · apply kept.sanctioned.countP_le
    intro before run sanctioned counted
    obtain ⟨code, -, rfl, build⟩ := of_decide_eq_true counted
    cases of_decide_eq_true build
    exact sanctioned.build code
  · apply kept.sanctioned.countP_le
    intro before run sanctioned counted
    obtain ⟨code, -, rfl, -⟩ := of_decide_eq_true counted
    exact sanctioned.capped key most capped code

/-- The ensemble's phase and four instants of its night. -/
def ensembleLivePhase : OffhoursPhase := { key := .ensembleLive, endHour := 5, maxFailures := some 2, clocked := true }

def ensembleTurn (clock : Int) (ending : Ending) : OffhoursPhase × Turn :=
  (ensembleLivePhase, ⟨clock, clock, Int.le_refl clock, none, clock, ending⟩)

namespace Night

def killed : State := (runWorkerIteration {} 0 "a" true .killed []).1
def restarted : State := { killed with runs := reapOrphans 1 minute killed.runs, process := 1, alive := true }
def raised : State := (runWorkerIteration restarted (2 * hour) "b" true .raised [ensembleTurn (2 * hour) .raised]).1
def through : State :=
  (runWorkerIteration raised (4 * hour) "b" true (.succeeded none) [ensembleTurn (4 * hour) (.succeeded (some (4 * hour)))]).1
def later : State := (runWorkerIteration through (4 * hour) "b" false .raised [ensembleTurn (4 * hour) .raised]).1

theorem wired (clock : Int) (ending : Ending) : ∀ turn ∈ [ensembleTurn clock ending], turn.1 = ensembleLivePhase := by
  intro turn mem
  rw [List.mem_singleton.mp mem]
  rfl

theorem orphaned : ∀ run ∈ killed.runs, run.status = .running → run.startedAt < minute ∧ run.process ≠ 1 := by decide +kernel

theorem reaches : ReflTransGen (Step (· = ensembleLivePhase)) {} through := by
  have kills : Step (· = ensembleLivePhase) {} killed := .iterate 0 "a" true .killed [] rfl fun _ mem => absurd mem List.not_mem_nil
  have restarts : Step (· = ensembleLivePhase) killed restarted := .restart 1 minute orphaned
  have raises : Step (· = ensembleLivePhase) restarted raised := .iterate (2 * hour) "b" true .raised _ rfl (wired _ _)
  have succeeds : Step (· = ensembleLivePhase) raised through :=
    .iterate (4 * hour) "b" true (.succeeded none) _ (by decide +kernel) (wired _ _)
  exact (((ReflTransGen.single kills).tail restarts).tail raises).tail succeeds

end Night

/-- Killed at midnight, restarted, raised in another build with its phase, then both through. -/
theorem iterations_budgeted_restarted : ∃ state later : State,
    state.runs.map (fun run => (run.status, run.buildSha)) =
      [(.failed, "a"), (.failed, "b"), (.failed, "b"), (.succeeded, "b"), (.succeeded, "b")] ∧
    unsuccessful state.runs .canonical 0 none ≤ canonicalMaxFailuresAllBuilds ∧
    unsuccessful state.runs .ensembleLive hour none ≤ 2 ∧
    ReflTransGen (Step (· = ensembleLivePhase)) state later ∧
    later.attempts.filter (Attempt.ofNight .ensembleLive hour) = state.attempts.filter (Attempt.ofNight .ensembleLive hour) := by
  obtain ⟨day, -, -, capped, -, -, closed⟩ := iterations_budgeted Night.reaches
  have further : ReflTransGen (Step (· = ensembleLivePhase)) Night.through Night.later :=
    .single (.iterate (4 * hour) "b" false .raised _ (by decide +kernel) (Night.wired _ _))
  have completed : Night.through.Completed .ensembleLive hour := by
    unfold State.Completed
    decide +kernel
  have once : Capped (· = ensembleLivePhase) .ensembleLive 2 := by
    refine ⟨nofun, ?_⟩
    rintro phase rfl -
    exact ⟨2, rfl, Nat.le_refl 2⟩
  exact ⟨Night.through, Night.later, by decide +kernel, day 0, capped .ensembleLive 2 once hour, further,
    closed .ensembleLive hour completed Night.later further⟩

end C3po.Worker
