import C3po.Universe.Instants

/-! Rows that a refresh carries over, and how old their records look afterwards. -/

set_option autoImplicit false

namespace C3po.Universe
open C3po.Library
open C3po.Official (Prediction Source rowNumbers)
open C3po.Prices (normalise)

variable {state next final : State} {thread : ℕ} {work : Work}

/-- Every step of the run meets the condition. -/
def Along (meets : State → Action → Prop) : State → List Action → Prop
  | _, [] => True
  | state, action :: rest => meets state action ∧ ∀ next, state.step action = some next → Along meets next rest

/-- `_sessions_behind`, where `distance` counts the sessions from one to another. -/
def sessionsBehind (distance : Int → Int → Int) (tpSession expected : Int) : Int :=
  if expected ≤ tpSession then 0 else distance tpSession expected - 1

section Properties
variable (state) (calendars : Official.Calendars) (columns : Columns)

/-- Every record of the run says an instant of the call that valued its row. -/
def State.Dated : Prop :=
  ∀ snapshot ∈ state.snapshots, snapshot.call ≠ 0 → ∀ source row record,
    (row, record) ∈ columns.recorded calendars source snapshot → state.During row.call record.predictionInstant

/-- A row that a later call carries over looks no younger than it did. -/
def State.NoYounger (distance : Int → Int → Int) : Prop :=
  ∀ earlier ∈ state.snapshots, ∀ later ∈ state.snapshots, earlier.publishedAt < later.publishedAt → later.call ≠ 0 →
    ∀ source row before after, row.call ≠ later.call →
      (row, before) ∈ columns.recorded calendars source earlier → (row, after) ∈ columns.recorded calendars source later →
      ∀ expected, sessionsBehind distance before.sessionDate expected ≤ sessionsBehind distance after.sessionDate expected

end Properties

/-- A refresh goes on to publish only where it has valued every row anew, and nothing newer
is hydrated between the assignment of rows and their publication. -/
def Fresh (state : State) : Action → Prop
  | .step thread _ => ∀ work, state.threads thread = some work → ∀ survey, work.stage = .valuing [] survey →
      survey.replacements.entries ≠ [] →
        ∀ row ∈ replaced survey.replacements (state.screeners work.screener).rows, row.call = work.number
  | .hydrate number => state.Publishing number → (state.screeners number).newer state.snapshots = none
  | _ => True

/-- The rows a call is about to publish are its own. -/
def Owns (state : State) (work : Work) : Prop :=
  match work.stage with
  | .built rows _ _ => ∀ row ∈ rows, row.call = work.number
  | .assigned _ _ _ | .based _ _ | .stamped _ _ _ => ∀ row ∈ (state.screeners work.screener).rows, row.call = work.number
  | _ => True

structure Owned (state : State) : Prop where
  clocked : Clocked state
  works : ∀ thread work, state.threads thread = some work → Owns state work
  snapshots : ∀ snapshot ∈ state.snapshots, snapshot.call ≠ 0 → ∀ row ∈ snapshot.rows, row.call = snapshot.call

theorem setScreener_own {number : ℕ} {screener : Screener} : (state.setScreener number screener).screeners number = screener :=
  Function.update_self _ _ _

theorem advance_owns {answer : Answer} (owns : Owns state work)
    (fresh : ∀ survey, work.stage = .valuing [] survey → survey.replacements.entries ≠ [] →
      ∀ row ∈ replaced survey.replacements (state.screeners work.screener).rows, row.call = work.number)
    (advanced : state.advance thread work answer = some next) {job : Work} (stands : next.threads thread = some job) :
    Owns next job := by
  unfold State.advance at advanced
  unfold Owns at owns
  cases stage : work.stage with
  | called call =>
    simp only [stage, State.enter] at advanced
    split at advanced
    · cases advanced
    · cases call <;> cases advanced <;> cases (Function.update_self _ _ _).symm.trans stands <;> trivial
  | building generatedAt pending =>
    simp only [stage] at advanced
    cases advanced
    cases (Function.update_self _ _ _).symm.trans stands
    intro row member
    obtain ⟨entry, _, rfl⟩ := List.mem_map.mp member
    rfl
  | built rows generatedAt pending =>
    simp only [stage] at advanced owns
    cases advanced
    cases (Function.update_self _ _ _).symm.trans stands
    intro row member
    change row ∈ ((state.assign work.screener rows).screeners work.screener).rows at member
    rw [State.assign, setScreener_own] at member
    exact owns row member
  | hydrating symbols =>
    simp only [stage] at advanced
    cases advanced
    cases (Function.update_self _ _ _).symm.trans stands
    trivial
  | hydrated symbols rows =>
    simp only [stage] at advanced
    split at advanced <;> cases advanced <;> cases (Function.update_self _ _ _).symm.trans stands <;> trivial
  | surveying symbols rows =>
    simp only [stage] at advanced
    cases advanced
    cases (Function.update_self _ _ _).symm.trans stands
    trivial
  | valuing symbols survey =>
    cases symbols with
    | cons symbol rest =>
      simp only [stage] at advanced
      cases advanced
      cases (Function.update_self _ _ _).symm.trans stands
      trivial
    | nil =>
      simp only [stage] at advanced
      split at advanced
      · cases advanced
        cases (Function.update_self _ _ _).symm.trans stands
      · rename_i replacing
        cases advanced
        cases (Function.update_self _ _ _).symm.trans stands
        intro row member
        change row ∈ ((state.assign work.screener _).screeners work.screener).rows at member
        rw [State.assign, setScreener_own] at member
        exact fresh survey stage replacing row member
  | assigned meant generatedAt pending =>
    simp only [stage] at advanced owns
    cases advanced
    cases (Function.update_self _ _ _).symm.trans stands
    intro row member
    change row ∈ ((state.base work.screener _).screeners work.screener).rows at member
    rw [State.base, setScreener_own] at member
    exact owns row member
  | based meant pending =>
    simp only [stage] at advanced owns
    cases advanced
    cases (Function.update_self _ _ _).symm.trans stands
    intro row member
    change row ∈ ((state.base work.screener _).screeners work.screener).rows at member
    rw [State.base, setScreener_own] at member
    exact owns row member
  | stamped meant publishedAt pending =>
    simp only [stage] at advanced
    cases pending <;> cases advanced <;> cases (Function.update_self _ _ _).symm.trans stands
    trivial

theorem Owned.turns (owned : Owned state) (own : state.threads thread = some work) (turn : Turn state thread work next)
    (mine : ∀ job, next.threads thread = some job → Owns next job) : Owned next.tick := by
  refine ⟨owned.clocked.turns own turn, fun other job stands => ?_, fun snapshot member call row held => ?_⟩
  · obtain rfl := turn.others owned.clocked own stands
    exact mine job stands
  · have member : snapshot ∈ next.snapshots := member
    rcases turn.snapshots with same | ⟨meant, publishedAt, pending, stage, published⟩
    · rw [same] at member
      exact owned.snapshots snapshot member call row held
    · rw [published, List.mem_append, List.mem_singleton] at member
      rcases member with before | rfl
      · exact owned.snapshots snapshot before call row held
      · have owns := owned.works thread work own
        simp only [Owns, stage] at owns
        exact owns row held

theorem Owned.step (owned : Owned state) {action : Action} (sequential : Sequential state action) (fresh : Fresh state action)
    (stepped : state.step action = some next) : Owned next := by
  have clocked := owned.clocked.step sequential stepped
  obtain ⟨after, done, rfl⟩ := Option.map_eq_some_iff.mp stepped
  cases action with
  | start thread screener call =>
    simp only [State.begin, sequential thread] at done
    have launched : ∀ kind, after = state.launch thread screener kind → Owned after.tick := by
      rintro kind rfl
      refine ⟨clocked, fun other work stands => ?_, owned.snapshots⟩
      change Function.update state.threads thread _ other = some work at stands
      by_cases same : other = thread
      · subst same
        cases (Function.update_self _ _ _).symm.trans stands
        trivial
      · rw [Function.update_of_ne same, sequential other] at stands
        cases stands
    cases call with
    | build => exact launched _ (Option.some.inj done).symm
    | refresh symbols =>
      simp only at done
      split at done
      · cases done
        exact ⟨clocked, owned.works, owned.snapshots⟩
      · exact launched _ (Option.some.inj done).symm
  | step thread answer =>
    obtain ⟨work, own, advanced⟩ := Option.bind_eq_some_iff.mp done
    exact owned.turns own (advance_turn advanced) fun job stands =>
      advance_owns (owned.works thread work own) (fresh work own) advanced stands
  | fail thread =>
    simp only [State.abandon] at done
    cases own : state.threads thread with
    | none =>
      rw [own] at done
      cases done
    | some work =>
      rw [own] at done
      simp only at done
      split at done
      · cases done
      · cases done
        refine owned.turns own ⟨rfl, rfl, .inr ⟨rfl, rfl⟩, .inl rfl⟩ fun job stands => ?_
        cases (Function.update_self _ _ _).symm.trans stands
  | hydrate number =>
    cases done
    refine ⟨clocked, fun other work stands => ?_, owned.snapshots⟩
    have owns := owned.works other work stands
    -- nothing newer replaces the rows of a call that is about to publish
    have kept : work.stage.publishing → ((state.hydrate number).screeners work.screener).rows = (state.screeners work.screener).rows := by
      intro publishing
      by_cases same : work.screener = number
      · rw [same, State.hydrate, setScreener_own, hydrated_inert (fresh ⟨other, work, stands, same, publishing⟩)]
      · exact congrArg Screener.rows (Function.update_of_ne same _ _)
    show Owns (state.hydrate number) work
    unfold Owns at owns ⊢
    cases stage : work.stage <;> simp only [stage] at owns ⊢
    · exact owns
    all_goals
      rw [kept (by rw [stage]; rfl)]
      exact owns

section Runs

/-- A run of one call after another; what is stored before was valued by none of its calls. -/
structure Sequence where
  stored : Option Stored
  time : ℕ
  before : ∀ one ∈ stored, ∀ row ∈ one.rows, row.call = 0
  actions : List Action
  final : State
  run : (State.initial stored time).run actions = some final
  sequential : Along Sequential (State.initial stored time) actions

theorem clocked_initial (stored : Option Stored) (time : ℕ) : Clocked (State.initial stored time) where
  single _ _ busy := absurd rfl busy
  running _ _ none := nomatch none
  stamped _ _ none := nomatch none
  past _ none := nomatch none
  apart _ none := nomatch none
  after _ _ none := nomatch none
  published snapshot member call := by
    cases stored with
    | none => cases member
    | some one =>
      cases List.mem_singleton.mp member
      exact absurd rfl call

theorem owned_initial (stored : Option Stored) (time : ℕ) : Owned (State.initial stored time) where
  clocked := clocked_initial stored time
  works _ _ none := nomatch none
  snapshots snapshot member call := by
    cases stored with
    | none => cases member
    | some one =>
      cases List.mem_singleton.mp member
      exact absurd rfl call

theorem Clocked.run {actions : List Action} (clocked : Clocked state) (sequential : Along Sequential state actions)
    (run : state.run actions = some final) : Clocked final := by
  induction actions generalizing state with
  | nil =>
    cases run
    exact clocked
  | cons action rest ih =>
    obtain ⟨next, stepped, after⟩ := Option.bind_eq_some_iff.mp run
    exact ih (clocked.step sequential.1 stepped) (sequential.2 next stepped) after

theorem Owned.run {actions : List Action} (owned : Owned state) (sequential : Along Sequential state actions)
    (fresh : Along Fresh state actions) (run : state.run actions = some final) : Owned final := by
  induction actions generalizing state with
  | nil =>
    cases run
    exact owned
  | cons action rest ih =>
    obtain ⟨next, stepped, after⟩ := Option.bind_eq_some_iff.mp run
    exact ih (owned.step sequential.1 fresh.1 stepped) (sequential.2 next stepped) (fresh.2 next stepped) after

variable {calendars : Official.Calendars} {columns : Columns}

theorem Clocked.dated (clocked : Clocked state) {snapshot : Snapshot} (member : snapshot ∈ state.snapshots) (call : snapshot.call ≠ 0)
    {source : Source} {row : Row} {record : Prediction} (recorded : (row, record) ∈ columns.recorded calendars source snapshot) :
    state.During row.call record.predictionInstant ↔ row.call = snapshot.call := by
  have published := clocked.published snapshot member call
  rw [(Columns.recorded_instant recorded).2.1]
  constructor
  · intro during
    exact clocked.same during published
  · intro same
    rwa [same]

/-- Exactly the records of rows their own cycle valued say when the prediction was made; the
others do not exist where every publication is of rows valued anew. -/
theorem instants_told (sequence : Sequence) (calendars : Official.Calendars) (columns : Columns) (distance : Int → Int → Int) :
    (∀ snapshot ∈ sequence.final.snapshots, snapshot.call ≠ 0 → ∀ source row record,
      (row, record) ∈ columns.recorded calendars source snapshot →
        (sequence.final.During row.call record.predictionInstant ↔ row.call = snapshot.call)) ∧
    (Along Fresh (State.initial sequence.stored sequence.time) sequence.actions →
      sequence.final.Dated calendars columns ∧ sequence.final.NoYounger calendars columns distance) := by
  have clocked := (clocked_initial sequence.stored sequence.time).run sequence.sequential sequence.run
  refine ⟨fun snapshot member call source row record recorded => clocked.dated member call recorded, fun fresh => ?_⟩
  have owned := (owned_initial sequence.stored sequence.time).run sequence.sequential fresh sequence.run
  constructor
  · intro snapshot member call source row record recorded
    exact (clocked.dated member call recorded).mpr (owned.snapshots snapshot member call row (Columns.recorded_instant recorded).1)
  · intro earlier first later second order call source row before after carried held recorded
    exact absurd (owned.snapshots later second call row (Columns.recorded_instant recorded).1) carried

/-- Columns that say nothing. -/
def blank : Columns where
  row _ := ⟨"", none, none, none, none, none, none, none, none, none, none, none, none, none, none, none, none, none, none⟩
  cycle _ := ⟨0, .universe, "", 0, none, none, none, "", none, [], none⟩

def petr4 : Row := ⟨"PETR4", some 10, some 8, 2, 1⟩

/-- A session ends with every ten steps. -/
def tens : Official.Calendars := ⟨fun _ instant => some (instant / 10), id⟩

/-- The build of a night values two names. -/
def nightly : List Action :=
  [.step 0 ⟨[], none⟩, .step 0 ⟨[("PETR4", some 10, some 8), ("VALE3", some 60, some 50)], none⟩] ++ List.replicate 4 (.step 0 ⟨[], none⟩)

/-- The refresh of one of them publishes both. -/
def partly : List Action :=
  List.replicate 4 (.step 1 ⟨[], none⟩) ++ [.step 1 ⟨[], some (some 66, some 55)⟩] ++ List.replicate 4 (.step 1 ⟨[], none⟩)

def republished : List Action := .start 0 0 .build :: nightly ++ .start 1 1 (.refresh ["VALE3"]) :: partly

def republishedEnd : Option State := (State.initial none 0).run republished

def Action.moves : Action → Option ℕ
  | .start thread _ _ | .step thread _ | .fail thread => some thread
  | .hydrate _ => none

theorem step_others {action : Action} (stepped : state.step action = some next) {other : ℕ} (apart : action.moves ≠ some other) :
    next.threads other = state.threads other := by
  obtain ⟨after, done, rfl⟩ := Option.map_eq_some_iff.mp stepped
  have turned : ∀ thread work, other ≠ thread → Turn state thread work after → after.threads other = state.threads other := by
    intro thread work apart turn
    rcases turn.stands with ⟨_, _, _, _, threads, _⟩ | ⟨threads, _⟩ <;> rw [threads, Function.update_of_ne apart]
  show after.threads other = state.threads other
  cases action with
  | start thread screener call =>
    simp only [State.begin] at done
    cases call <;> (repeat' split at done) <;> cases done <;>
      first | rfl | exact Function.update_of_ne (fun same => apart (congrArg some same.symm)) _ _
  | step thread answer =>
    obtain ⟨work, own, advanced⟩ := Option.bind_eq_some_iff.mp done
    exact turned thread work (fun same => apart (congrArg some same.symm)) (advance_turn advanced)
  | fail thread =>
    simp only [State.abandon] at done
    repeat' split at done
    · cases done
    · cases done
    · cases done
      exact Function.update_of_ne (fun same => apart (congrArg some same.symm)) _ _
  | hydrate number =>
    cases done
    rfl

theorem run_others {actions : List Action} (run : state.run actions = some final) {other : ℕ}
    (apart : ∀ action ∈ actions, action.moves ≠ some other) : final.threads other = state.threads other := by
  induction actions generalizing state with
  | nil =>
    cases run
    rfl
  | cons action rest ih =>
    obtain ⟨next, stepped, after⟩ := Option.bind_eq_some_iff.mp run
    rw [ih after fun later member => apart later (List.mem_cons_of_mem _ member), step_others stepped (apart action List.mem_cons_self)]

theorem along_append {meets : State → Action → Prop} {first second : List Action} (one : Along meets state first)
    (two : ∀ next, state.run first = some next → Along meets next second) : Along meets state (first ++ second) := by
  induction first generalizing state with
  | nil => exact two state rfl
  | cons action rest ih =>
    refine ⟨one.1, fun next stepped => ih (one.2 next stepped) fun final run => two final ?_⟩
    rw [State.run, stepped]
    exact run

theorem along_sequential {actions : List Action} (going : ∀ action ∈ actions, ∀ thread screener call, action ≠ .start thread screener call) :
    Along Sequential state actions := by
  induction actions generalizing state with
  | nil => trivial
  | cons action rest ih =>
    refine ⟨?_, fun next _ => ih fun later member => going later (List.mem_cons_of_mem _ member)⟩
    cases action with
    | start thread screener call => exact absurd rfl (going _ List.mem_cons_self thread screener call)
    | _ => trivial

theorem republished_sequential : Along Sequential (State.initial none 0) republished := by
  have night : Along Sequential (State.initial none 0) (.start 0 0 .build :: nightly) :=
    ⟨fun _ => rfl, fun _ _ => along_sequential (by simp [nightly])⟩
  refine along_append night fun morning run => ⟨fun thread => ?_, fun _ _ => along_sequential (by simp [partly])⟩
  by_cases same : thread = 0
  · subst same
    have idle : ((State.initial none 0).run (.start 0 0 .build :: nightly)).map (fun state => (state.threads 0).isNone) = some true := rfl
    rw [run] at idle
    simpa using idle
  · rw [run_others run]
    · rfl
    · simp [nightly, Action.moves, Ne.symm same]

/-- The carried row looks as young as the refresh. -/
theorem rejuvenated : ∃ sequence : Sequence, ¬sequence.final.Dated tens blank ∧
    ¬sequence.final.NoYounger tens blank fun one other => other - one + 1 := by
  have ends : republishedEnd.isSome := rfl
  obtain ⟨final, run⟩ := Option.isSome_iff_exists.mp ends
  have stored : (republishedEnd.map fun state => state.snapshots.map fun snapshot => (snapshot.publishedAt, snapshot.call, snapshot.rows)) =
      some [(5, 1, [petr4, ⟨"VALE3", some 60, some 50, 2, 1⟩]),
        (15, 2, [petr4, ⟨"VALE3", some 66, some 55, 12, 2⟩])] := rfl
  rw [run, Option.map_some, Option.some.injEq] at stored
  have members : ∀ published call rows, (published, call, rows) ∈ final.snapshots.map (fun snapshot => (snapshot.publishedAt, snapshot.call, snapshot.rows)) →
      ∃ snapshot ∈ final.snapshots, snapshot.publishedAt = published ∧ snapshot.call = call ∧ snapshot.rows = rows := by
    intro published call rows member
    obtain ⟨snapshot, held, same⟩ := List.mem_map.mp member
    cases same
    exact ⟨snapshot, held, rfl, rfl, rfl⟩
  obtain ⟨earlier, first, firstAt, _, firstRows⟩ := members 5 1 [petr4, ⟨"VALE3", some 60, some 50, 2, 1⟩] (by rw [stored]; simp)
  obtain ⟨later, second, secondAt, secondCall, secondRows⟩ := members 15 2 [petr4, ⟨"VALE3", some 66, some 55, 12, 2⟩]
    (by rw [stored]; simp)
  have usable : (rowNumbers .blend (blank.stored petr4)).isSome := rfl
  have named : normalise petr4.symbol ≠ "" := by decide +kernel
  have yesterday : tens.sessions .b3 earlier.publishedAt = some 0 := by rw [firstAt]; rfl
  have today : tens.sessions .b3 later.publishedAt = some 1 := by rw [secondAt]; rfl
  obtain ⟨before, held, old⟩ := Columns.exists_recorded (firstRows ▸ List.mem_cons_self) named usable yesterday
  obtain ⟨after, carried, new⟩ := Columns.exists_recorded (secondRows ▸ List.mem_cons_self) named usable today
  have clocked := (clocked_initial none 0).run republished_sequential run
  refine ⟨⟨none, 0, (fun one none => nomatch none), republished, final, run, republished_sequential⟩, fun dated => ?_, fun young => ?_⟩
  · have during := dated later second (by rw [secondCall]; decide) .blend petr4 after carried
    have same := (clocked.dated second (by rw [secondCall]; decide) carried).mp during
    rw [secondCall] at same
    exact absurd same (by decide)
  · have younger := young earlier first later second (by rw [firstAt, secondAt]; decide) (by rw [secondCall]; decide)
      .blend petr4 before after (by rw [secondCall]; decide) held carried 1
    rw [old, new] at younger
    exact absurd younger (by decide)

end Runs
end C3po.Universe
