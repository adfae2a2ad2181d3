import C3po.Universe.Service

/-! When a prediction was made, and the instant its record says it was made.

The records of a cycle carry the instant its universe was published, whichever call valued
the row. Builds and refreshes run one after another here, each in any process.
-/

set_option autoImplicit false

namespace C3po.Universe
open C3po.Library
open C3po.Official (Prediction Source officialSources cyclePredictions predictionFromRow rowNumbers universeKey)
open C3po.Prices (normalise)

section Records

/-- What a stored row and a stored universe have besides. -/
structure Columns where
  row : Row → Official.Row
  cycle : Snapshot → Official.Cycle

namespace Columns
variable (columns : Columns)

def stored (row : Row) : Official.Row :=
  { columns.row row with symbol := row.symbol, ourTp := row.ourTp, buyIn := row.buyIn }

/-- The universe as a producer cycle: a live one, no re-run. -/
def live (snapshot : Snapshot) : Official.Cycle :=
  { columns.cycle snapshot with
    analysisType := .universe
    entityKey := universeKey .b3
    publishedAt := snapshot.publishedAt
    rerunOf := none
    rows := snapshot.rows.map columns.stored }

/-- The records of a universe under one source, each with the row it is made of; none while
the calendar does not answer. -/
def recorded (calendars : Official.Calendars) (source : Source) (snapshot : Snapshot) : List (Row × Prediction) :=
  match (columns.live snapshot).clocks with
  | none => []
  | some clocks =>
      match calendars.sessions .b3 clocks.1 with
      | none => []
      | some session => snapshot.rows.filterMap fun row =>
          (predictionFromRow (columns.live snapshot) .b3 clocks session source (columns.stored row)).map fun record => (row, record)

variable {columns} {calendars : Official.Calendars} {source : Source} {snapshot : Snapshot}

theorem recorded_instant {row : Row} {record : Prediction} (member : (row, record) ∈ columns.recorded calendars source snapshot) :
    row ∈ snapshot.rows ∧ record.predictionInstant = snapshot.publishedAt ∧
      calendars.sessions .b3 snapshot.publishedAt = some record.sessionDate := by
  have clock : (columns.live snapshot).clocks = some ((snapshot.publishedAt : Int), (snapshot.publishedAt : Int), none) := rfl
  simp only [recorded, clock] at member
  cases answered : calendars.sessions .b3 snapshot.publishedAt with
  | none =>
    rw [answered] at member
    cases member
  | some session =>
    rw [answered] at member
    obtain ⟨held, among, made⟩ := List.mem_filterMap.mp member
    obtain ⟨prediction, told, same⟩ := Option.map_eq_some_iff.mp made
    cases same
    unfold predictionFromRow at told
    split at told
    · cases told
    · obtain ⟨numbers, _, rfl⟩ := Option.map_eq_some_iff.mp told
      exact ⟨among, rfl, rfl⟩

theorem exists_recorded {row : Row} (member : row ∈ snapshot.rows) (named : normalise row.symbol ≠ "")
    (numbers : (rowNumbers source (columns.stored row)).isSome) {session : Int}
    (answered : calendars.sessions .b3 snapshot.publishedAt = some session) :
    ∃ record, (row, record) ∈ columns.recorded calendars source snapshot ∧ record.sessionDate = session := by
  have clock : (columns.live snapshot).clocks = some ((snapshot.publishedAt : Int), (snapshot.publishedAt : Int), none) := rfl
  have symbol : normalise (columns.stored row).symbol ≠ "" := named
  obtain ⟨pair, read⟩ := Option.isSome_iff_exists.mp numbers
  obtain ⟨record, made, dated⟩ : ∃ record, predictionFromRow (columns.live snapshot) .b3
      ((snapshot.publishedAt : Int), (snapshot.publishedAt : Int), none) session source (columns.stored row) = some record ∧
        record.sessionDate = session := by
    unfold predictionFromRow
    rw [if_neg symbol, read]
    exact ⟨_, rfl, rfl⟩
  refine ⟨record, ?_, dated⟩
  simp only [recorded, clock, answered]
  exact List.mem_filterMap.mpr ⟨row, member, by rw [made]; rfl⟩

end Columns
end Records

section Calls
variable {state next : State} {thread : ℕ} {work : Work}

/-- The instant lies between the start and the end of the call. -/
def State.During (state : State) (call : ℕ) (instant : Int) : Prop :=
  (∃ done ∈ state.finished, done.number = call ∧ done.began ≤ instant ∧ instant ≤ done.ended) ∨
    ∃ thread work, state.threads thread = some work ∧ work.number = call ∧ work.began ≤ instant ∧ instant ≤ state.time

/-- A call starts only when none is under way. -/
def Sequential (state : State) : Action → Prop
  | .start _ _ _ => ∀ thread, state.threads thread = none
  | _ => True

/-- The call goes on, or it is over; only from its last stage does it publish. -/
structure Turn (state : State) (thread : ℕ) (work : Work) (next : State) : Prop where
  calls : next.calls = state.calls
  time : next.time = state.time
  stands : (∃ job, job.number = work.number ∧ job.began = work.began ∧
      (∀ meant publishedAt pending, job.stage = .stamped meant publishedAt pending → publishedAt = state.time) ∧
      next.threads = Function.update state.threads thread (some job) ∧ next.finished = state.finished) ∨
    (next.threads = Function.update state.threads thread none ∧
      next.finished = ⟨work.number, work.began, state.time⟩ :: state.finished)
  snapshots : next.snapshots = state.snapshots ∨ ∃ meant publishedAt pending, work.stage = .stamped meant publishedAt pending ∧
      next.snapshots = state.snapshots ++ [⟨publishedAt, true, true, (state.screeners work.screener).rows, work.number, meant⟩]

theorem Turn.going {seen : ℕ} {stage : Stage}
    (threads : next.threads = Function.update state.threads thread (some { work with seen := seen, stage := stage }))
    (finished : next.finished = state.finished) (calls : next.calls = state.calls) (time : next.time = state.time)
    (snapshots : next.snapshots = state.snapshots)
    (unstamped : ∀ meant publishedAt pending, stage ≠ .stamped meant publishedAt pending) : Turn state thread work next :=
  ⟨calls, time, .inl ⟨{ work with seen := seen, stage := stage }, rfl, rfl, fun meant publishedAt pending same =>
    absurd same (unstamped meant publishedAt pending), threads, finished⟩, .inl snapshots⟩

theorem advance_turn {answer : Answer} (advanced : state.advance thread work answer = some next) : Turn state thread work next := by
  unfold State.advance at advanced
  cases stage : work.stage with
  | called call =>
    simp only [stage, State.enter] at advanced
    split at advanced
    · cases advanced
    · cases call <;> cases advanced <;> exact Turn.going rfl rfl rfl rfl rfl (fun _ _ _ same => nomatch same)
  | hydrated symbols rows =>
    simp only [stage] at advanced
    split at advanced <;> cases advanced <;> exact Turn.going rfl rfl rfl rfl rfl (fun _ _ _ same => nomatch same)
  | valuing symbols survey =>
    cases symbols with
    | cons symbol rest =>
      simp only [stage] at advanced
      cases advanced
      exact Turn.going rfl rfl rfl rfl rfl (fun _ _ _ same => nomatch same)
    | nil =>
      simp only [stage] at advanced
      split at advanced <;> cases advanced
      · exact ⟨rfl, rfl, .inr ⟨rfl, rfl⟩, .inl rfl⟩
      · exact Turn.going rfl rfl rfl rfl rfl (fun _ _ _ same => nomatch same)
  | based meant pending =>
    simp only [stage] at advanced
    cases advanced
    refine ⟨rfl, rfl, .inl ⟨{ work with stage := .stamped meant state.time pending }, rfl, rfl, fun _ _ _ same => ?_, rfl, rfl⟩, .inl rfl⟩
    cases same
    rfl
  | stamped meant publishedAt pending =>
    simp only [stage] at advanced
    cases pending with
    | none =>
      cases advanced
      exact ⟨rfl, rfl, .inr ⟨rfl, rfl⟩, .inr ⟨meant, publishedAt, none, stage, rfl⟩⟩
    | some symbols =>
      cases advanced
      refine ⟨rfl, rfl, .inl ⟨{ work with stage := .surveying symbols meant, seen := _ }, rfl, rfl, fun _ _ _ same => ?_, rfl, rfl⟩,
        .inr ⟨meant, publishedAt, some symbols, stage, rfl⟩⟩
      cases same
  | _ =>
    simp only [stage] at advanced
    cases advanced
    exact Turn.going rfl rfl rfl rfl rfl (fun _ _ _ same => nomatch same)

/-- What a run of one call after another keeps. -/
structure Clocked (state : State) : Prop where
  single : ∀ one other, state.threads one ≠ none → state.threads other ≠ none → one = other
  running : ∀ thread work, state.threads thread = some work → work.began < state.time
  stamped : ∀ thread work, state.threads thread = some work → ∀ meant publishedAt pending,
    work.stage = .stamped meant publishedAt pending → work.began ≤ publishedAt ∧ publishedAt < state.time
  past : ∀ done ∈ state.finished, done.ended < state.time
  apart : ∀ one ∈ state.finished, ∀ other ∈ state.finished,
    one.number = other.number ∨ one.ended < other.began ∨ other.ended < one.began
  after : ∀ thread work, state.threads thread = some work → ∀ done ∈ state.finished, done.ended < work.began
  published : ∀ snapshot ∈ state.snapshots, snapshot.call ≠ 0 → state.During snapshot.call snapshot.publishedAt

theorem Clocked.same (clocked : Clocked state) {one other : ℕ} {instant : Int} (first : state.During one instant)
    (second : state.During other instant) : one = other := by
  have order : ∀ thread work, state.threads thread = some work → ∀ done ∈ state.finished, instant ≤ done.ended →
      ¬(work.began : Int) ≤ instant := by
    intro thread work stands done member ended began
    have earlier := clocked.after thread work stands done member
    omega
  rcases first with ⟨done, member, rfl, began, ended⟩ | ⟨thread, work, stands, rfl, began, _⟩ <;>
    rcases second with ⟨done', member', rfl, began', ended'⟩ | ⟨thread', work', stands', rfl, began', _⟩
  · rcases clocked.apart done member done' member' with same | before | before
    · exact same
    · omega
    · omega
  · exact absurd began' (order thread' work' stands' done member ended)
  · exact absurd began (order thread work stands done' member' ended')
  · have alike : thread = thread' := clocked.single thread thread' (by simp [stands]) (by simp [stands'])
    subst alike
    rw [stands] at stands'
    cases stands'
    rfl

theorem Clocked.only (clocked : Clocked state) (own : state.threads thread = some work) {other : ℕ} (apart : other ≠ thread) :
    state.threads other = none := by
  by_contra stands
  exact apart (clocked.single other thread stands (by simp [own]))

section Turns

theorem Turn.others (turn : Turn state thread work next) (clocked : Clocked state) (own : state.threads thread = some work)
    {other : ℕ} {job : Work} (stands : next.threads other = some job) : other = thread := by
  by_contra apart
  have idle : next.threads other = none := by
    rcases turn.stands with ⟨_, _, _, _, threads, _⟩ | ⟨threads, _⟩ <;>
      rw [threads, Function.update_of_ne apart, clocked.only own apart]
  rw [idle] at stands
  cases stands

theorem Turn.mine (turn : Turn state thread work next) {job : Work} (stands : next.threads thread = some job) :
    job.number = work.number ∧ job.began = work.began ∧ next.finished = state.finished ∧
      ∀ meant publishedAt pending, job.stage = .stamped meant publishedAt pending → publishedAt = state.time := by
  rcases turn.stands with ⟨_, number, began, stamps, threads, finished⟩ | ⟨threads, _⟩
  · rw [threads, Function.update_self] at stands
    cases stands
    exact ⟨number, began, finished, stamps⟩
  · rw [threads, Function.update_self] at stands
    cases stands

theorem Turn.ended (turn : Turn state thread work next) {done : Finished} (member : done ∈ next.finished) :
    done = ⟨work.number, work.began, state.time⟩ ∨ done ∈ state.finished := by
  rcases turn.stands with ⟨_, _, _, _, _, finished⟩ | ⟨_, finished⟩ <;> rw [finished] at member
  · exact .inr member
  · exact List.mem_cons.mp member

theorem Turn.until_now (turn : Turn state thread work next) {instant : Int} (began : work.began ≤ instant)
    (past : instant ≤ state.time) : next.tick.During work.number instant := by
  rcases turn.stands with ⟨job, number, same, _, threads, _⟩ | ⟨threads, finished⟩
  · refine .inr ⟨thread, job, ?_, number, by rwa [same], ?_⟩
    · show next.threads thread = some job
      rw [threads, Function.update_self]
    · have time : next.tick.time = state.time + 1 := congrArg (· + 1) turn.time
      omega
  · refine .inl ⟨⟨work.number, work.began, state.time⟩, ?_, rfl, began, past⟩
    show _ ∈ next.finished
    rw [finished]
    exact List.mem_cons_self

theorem Turn.during (turn : Turn state thread work next) (clocked : Clocked state) (own : state.threads thread = some work)
    {call : ℕ} {instant : Int} (during : state.During call instant) : next.tick.During call instant := by
  rcases during with ⟨done, member, same, began, ended⟩ | ⟨other, job, stands, same, began, past⟩
  · refine .inl ⟨done, ?_, same, began, ended⟩
    show done ∈ next.finished
    rcases turn.stands with ⟨_, _, _, _, _, finished⟩ | ⟨_, finished⟩ <;> rw [finished]
    · exact member
    · exact List.mem_cons_of_mem _ member
  · have alike : other = thread := clocked.single other thread (by simp [stands]) (by simp [own])
    subst alike
    rw [own] at stands
    cases stands
    rw [← same]
    exact turn.until_now began past

theorem Clocked.turns (clocked : Clocked state) (own : state.threads thread = some work) (turn : Turn state thread work next) :
    Clocked next.tick := by
  have time : next.tick.time = state.time + 1 := congrArg (· + 1) turn.time
  have running := clocked.running thread work own
  refine ⟨fun one other first second => ?_, fun other job stands => ?_, fun other job stands meant publishedAt pending stage => ?_,
    fun done member => ?_, fun one first other second => ?_, fun other job stands done member => ?_, fun snapshot member call => ?_⟩
  · obtain ⟨job, first⟩ := Option.ne_none_iff_exists'.mp first
    obtain ⟨job', second⟩ := Option.ne_none_iff_exists'.mp second
    rw [turn.others clocked own first, turn.others clocked own second]
  · obtain rfl := turn.others clocked own stands
    rw [(turn.mine stands).2.1]
    omega
  · obtain rfl := turn.others clocked own stands
    obtain ⟨_, began, _, stamps⟩ := turn.mine stands
    have stamped := stamps meant publishedAt pending stage
    omega
  · rcases turn.ended member with rfl | before
    · simp only
      omega
    · have past := clocked.past done before
      omega
  · rcases turn.ended first with rfl | first <;> rcases turn.ended second with rfl | second
    · exact .inl rfl
    · exact .inr (.inr (clocked.after thread work own other second))
    · exact .inr (.inl (clocked.after thread work own one first))
    · exact clocked.apart one first other second
  · obtain rfl := turn.others clocked own stands
    obtain ⟨_, began, finished, _⟩ := turn.mine stands
    rw [began]
    refine clocked.after other work own done ?_
    rwa [← finished]
  · rcases turn.snapshots with same | ⟨meant, publishedAt, pending, stage, published⟩
    · refine turn.during clocked own (clocked.published snapshot ?_ call)
      rwa [← same]
    · have member : snapshot ∈ next.snapshots := member
      rw [published, List.mem_append, List.mem_singleton] at member
      rcases member with before | rfl
      · exact turn.during clocked own (clocked.published snapshot before call)
      · obtain ⟨began, past⟩ := clocked.stamped thread work own meant publishedAt pending stage
        exact turn.until_now (by simpa using began) (by simp only; omega)

end Turns

theorem Clocked.still (clocked : Clocked state) (threads : next.threads = state.threads) (finished : next.finished = state.finished)
    (snapshots : next.snapshots = state.snapshots) (time : next.time = state.time) : Clocked next.tick := by
  have later : next.tick.time = state.time + 1 := congrArg (· + 1) time
  have during : ∀ call instant, state.During call instant → next.tick.During call instant := by
    rintro call instant (⟨done, member, lasted⟩ | ⟨thread, work, stands, same, began, past⟩)
    · exact .inl ⟨done, finished ▸ member, lasted⟩
    · refine .inr ⟨thread, work, ?_, same, began, by omega⟩
      rwa [← threads] at stands
  constructor
  · intro one other first second
    exact clocked.single one other (threads ▸ first) (threads ▸ second)
  · intro thread work stands
    have began := clocked.running thread work (threads ▸ stands)
    omega
  · intro thread work stands meant publishedAt pending stage
    have stamped := clocked.stamped thread work (threads ▸ stands) meant publishedAt pending stage
    omega
  · intro done member
    have past := clocked.past done (finished ▸ member)
    omega
  · intro one first other second
    exact clocked.apart one (finished ▸ first) other (finished ▸ second)
  · intro thread work stands done member
    exact clocked.after thread work (threads ▸ stands) done (finished ▸ member)
  · intro snapshot member call
    exact during _ _ (clocked.published snapshot (snapshots ▸ member) call)

theorem Clocked.launches (clocked : Clocked state) {screener : ℕ} {call : Call} (idle : ∀ thread, state.threads thread = none) :
    Clocked (state.launch thread screener call).tick := by
  have only : ∀ other work, (state.launch thread screener call).threads other = some work →
      other = thread ∧ work = ⟨screener, state.calls, state.time, 0, .called call⟩ := by
    intro other work stands
    change Function.update state.threads thread _ other = some work at stands
    by_cases same : other = thread
    · subst same
      rw [Function.update_self] at stands
      exact ⟨rfl, (Option.some.inj stands).symm⟩
    · rw [Function.update_of_ne same, idle other] at stands
      cases stands
  constructor
  · intro one other first second
    obtain ⟨work, first⟩ := Option.ne_none_iff_exists'.mp first
    obtain ⟨work', second⟩ := Option.ne_none_iff_exists'.mp second
    rw [(only one work first).1, (only other work' second).1]
  · intro other work stands
    rw [(only other work stands).2]
    exact Nat.lt_succ_self state.time
  · intro other work stands meant publishedAt pending stage
    rw [(only other work stands).2] at stage
    cases stage
  · intro done member
    exact Nat.lt_succ_of_lt (clocked.past done member)
  · exact clocked.apart
  · intro other work stands done member
    rw [(only other work stands).2]
    exact clocked.past done member
  · intro snapshot member call
    rcases clocked.published snapshot member call with before | ⟨other, work, stands, _⟩
    · exact .inl before
    · rw [idle other] at stands
      cases stands

theorem Clocked.step (clocked : Clocked state) {action : Action} (sequential : Sequential state action)
    (stepped : state.step action = some next) : Clocked next := by
  obtain ⟨after, done, rfl⟩ := Option.map_eq_some_iff.mp stepped
  cases action with
  | start thread screener call =>
    simp only [State.begin, sequential thread] at done
    cases call with
    | build =>
      cases done
      exact clocked.launches sequential
    | refresh symbols =>
      simp only at done
      split at done <;> cases done
      · exact clocked.still rfl rfl rfl rfl
      · exact clocked.launches sequential
  | step thread answer =>
    obtain ⟨work, own, advanced⟩ := Option.bind_eq_some_iff.mp done
    exact clocked.turns own (advance_turn advanced)
  | fail thread =>
    simp only [State.abandon] at done
    cases own : state.threads thread with
    | none =>
      rw [own] at done
      cases done
    | some work =>
      rw [own] at done
      simp only at done
      split at done
      · cases done
      · cases done
        exact clocked.turns own ⟨rfl, rfl, .inr ⟨rfl, rfl⟩, .inl rfl⟩
  | hydrate number =>
    cases done
    exact clocked.still rfl rfl rfl rfl

end Calls
end C3po.Universe
