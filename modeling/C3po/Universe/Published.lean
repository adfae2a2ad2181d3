import C3po.Universe.Steps

/-! No publication loses another's revaluation, in every run whose calls publish one at a
time, each over what it read last.
-/

set_option autoImplicit false

namespace C3po.Universe
open C3po.Library

section Steps
variable {state next : State} {thread number : ℕ}

theorem Placed.later {snapshots : List Snapshot} {time : ℕ} {screener : Screener} {work : Work}
    (placed : Placed snapshots time screener work) : Placed snapshots (time + 1) screener work :=
  ⟨placed.seen, fun here => (placed.relies here).later⟩

theorem Sound.ticks (sound : Sound state) : Sound state.tick :=
  ⟨sound.chronicle.later, sound.settled, sound.holder, fun thread work stands => (sound.placed thread work stands).later⟩

theorem Sound.launches (sound : Sound state) (free : state.threads thread = none) (call : Call) :
    Sound (state.launch thread number call).tick := by
  have threadOf : ∀ other work, (state.launch thread number call).threads other = some work →
      work.stage = .called call ∧ work.seen = 0 ∨ state.threads other = some work := by
    intro other work stands
    by_cases same : other = thread
    · subst same
      simp only [State.launch, State.setThread, Function.update_self] at stands
      cases stands
      exact .inl ⟨rfl, rfl⟩
    · simp only [State.launch, State.setThread, Function.update_of_ne same] at stands
      exact .inr stands
  refine ⟨sound.chronicle.later, fun other quiet => sound.settled other ?_, fun other work stands active => ?_, fun other work stands => ?_⟩
  · rintro ⟨holder, work, stands, theirs, publishing⟩
    have apart : holder ≠ thread := by
      rintro rfl
      rw [free] at stands
      cases stands
    exact quiet ⟨holder, work, (Function.update_of_ne apart _ _).trans stands, theirs, publishing⟩
  · rcases threadOf other work stands with ⟨new, _⟩ | before
    · simp [new, Stage.waiting] at active
    · exact sound.holder other work before active
  · rcases threadOf other work stands with ⟨new, seen⟩ | before
    · refine ⟨by rw [seen]; exact Nat.zero_le _, fun _ => ?_⟩
      rw [new]
      trivial
    · exact (sound.placed other work before).later

theorem Sound.begins (sound : Sound state) {call : Call} (begun : state.begin thread number call = some next) :
    Sound next.tick := by
  unfold State.begin at begun
  cases free : state.threads thread with
  | some work =>
    rw [free] at begun
    cases begun
  | none =>
    rw [free] at begun
    cases call with
    | build =>
      cases begun
      exact sound.launches free .build
    | refresh symbols =>
      simp only at begun
      split at begun
      · cases begun
        exact sound.ticks
      · cases begun
        exact sound.launches free _

/-- Hydration without the lock: nobody is about to publish here, and who relies on the rows
has the newest already. -/
theorem Sound.hydrates (sound : Sound state)
    (calm : state.Publishing number → (state.screeners number).newer state.snapshots = none) :
    Sound (state.hydrate number).tick := by
  cases found : (state.screeners number).newer state.snapshots with
  | none =>
    have same : state.hydrate number = state := by
      unfold State.hydrate State.setScreener
      rw [hydrated_inert found, Function.update_eq_self]
    rw [same]
    exact sound.ticks
  | some snapshot =>
    have quiet : ¬state.Publishing number := by
      intro publishing
      have inert := calm publishing
      rw [found] at inert
      cases inert
    have screenerOf : ∀ other, other ≠ number → (state.hydrate number).screeners other = state.screeners other :=
      fun other apart => Function.update_of_ne apart _ _
    have own : (state.hydrate number).screeners number = (state.screeners number).hydrated state.snapshots :=
      Function.update_self ..
    refine ⟨sound.chronicle.later, fun other silent => ?_, fun other work stands active => ?_, fun other work stands => ?_⟩
    · by_cases same : other = number
      · subst same
        show Settled state.snapshots ((state.hydrate other).screeners other)
        rw [own]
        exact (sound.settled other quiet).hydrated
      · show Settled state.snapshots ((state.hydrate number).screeners other)
        rw [screenerOf other same]
        exact sound.settled other silent
    · show ((state.hydrate number).screeners work.screener).lock = some other
      by_cases same : work.screener = number
      · rw [same, own, hydrated_lock, ← same]
        exact sound.holder other work stands active
      · rw [screenerOf _ same]
        exact sound.holder other work stands active
    · have before := (sound.placed other work stands).later
      show Placed state.snapshots (state.time + 1) ((state.hydrate number).screeners work.screener) work
      by_cases same : work.screener = number
      · refine ⟨before.seen, fun here => ?_⟩
        have relies := before.relies here
        have missed : ∀ rows, ¬Held state.snapshots (state.time + 1) (state.screeners work.screener) rows := by
          intro rows held
          have none := held.newest
          rw [same, found] at none
          cases none
        cases stage : work.stage with
        | called => trivial
        | building => trivial
        | hydrating => trivial
        | built =>
          rw [stage] at relies
          exact relies
        | hydrated =>
          rw [stage] at relies
          exact absurd relies (missed _)
        | surveying =>
          rw [stage] at relies
          exact absurd relies (missed _)
        | valuing =>
          rw [stage] at relies
          exact absurd relies.1 (missed _)
        | _ => exact absurd ⟨other, work, stands, same, by rw [stage]; rfl⟩ quiet
      · rw [screenerOf _ same]
        exact before

theorem Sound.step (sound : Sound state) {action : Action} (calm : Calm state action)
    (stepped : state.step action = some next) : Sound next := by
  obtain ⟨before, done, rfl⟩ := Option.map_eq_some_iff.mp stepped
  cases action with
  | start thread screener call => exact sound.begins done
  | step thread answer =>
    obtain ⟨work, own, advanced⟩ := Option.bind_eq_some_iff.mp done
    exact sound.advances own (calm work own) advanced
  | fail thread =>
    simp only [State.abandon] at done
    cases own : state.threads thread with
    | none =>
      rw [own] at done
      cases done
    | some work =>
      rw [own] at done
      simp only at done
      split at done
      · cases done
      · rename_i apart
        cases done
        refine sound.finishes own (fun waiting => ?_) (calm work own)
        cases stage : work.stage <;> simp [stage, Stage.waiting] at waiting apart
  | hydrate number =>
    cases done
    exact sound.hydrates calm

end Steps

section Runs

/-- What is stored is older than the run, and rows of one symbol were valued together. -/
structure Stored.Before (stored : Stored) (time : ℕ) : Prop where
  published : stored.publishedAt < time
  valued : ∀ row ∈ stored.rows, row.valuedAt < time
  uniform : Uniform stored.rows

/-- A run of any number of processes from any stored universe on. -/
structure History where
  stored : Option Stored
  time : ℕ
  before : ∀ one ∈ stored, one.Before time
  actions : List Action
  final : State
  run : (State.initial stored time).run actions = some final

def CalmRun : State → List Action → Prop
  | _, [] => True
  | state, action :: rest => Calm state action ∧ ∀ next, state.step action = some next → CalmRun next rest

/-- A run all of whose steps are calm. -/
structure CalmHistory extends History where
  calm : CalmRun (State.initial stored time) actions

/-- The row of a symbol in a universe published later was valued no earlier. -/
def State.NothingLost (state : State) : Prop :=
  ∀ earlier ∈ state.snapshots, ∀ later ∈ state.snapshots, earlier.publishedAt < later.publishedAt →
    ∀ row ∈ earlier.rows, ∀ other ∈ later.rows, row.symbol = other.symbol → row.valuedAt ≤ other.valuedAt

/-- Every call published what it built, or what it hydrated with its own replacements. -/
def State.OwnRows (state : State) : Prop := ∀ snapshot ∈ state.snapshots, snapshot.rows = snapshot.meant

theorem sound_initial {stored : Option Stored} {time : ℕ} (before : ∀ one ∈ stored, one.Before time) :
    Sound (State.initial stored time) where
  chronicle := by
    cases stored with
    | none => exact ⟨.nil, (fun _ none => nomatch none), (fun _ none => nomatch none), (fun _ none => nomatch none), (fun _ none => nomatch none)⟩
    | some one =>
      have early := before one rfl
      refine ⟨List.pairwise_singleton _ _, fun snapshot single => ?_, fun snapshot single => ?_, fun snapshot single => ?_, fun snapshot single => ?_⟩ <;>
        cases List.mem_singleton.mp single
      · exact early.published
      · exact early.valued
      · exact early.uniform
      · rfl
  settled _ _ := .inl ⟨rfl, rfl⟩
  holder _ _ none := nomatch none
  placed _ _ none := nomatch none

theorem Sound.run {state final : State} {actions : List Action} (sound : Sound state) (calm : CalmRun state actions)
    (run : state.run actions = some final) : Sound final := by
  induction actions generalizing state with
  | nil =>
    cases run
    exact sound
  | cons action rest ih =>
    obtain ⟨next, stepped, after⟩ := Option.bind_eq_some_iff.mp run
    exact ih (sound.step calm.1 stepped) (calm.2 next stepped) after

/-- In a calm run no publication loses another's revaluation. -/
theorem newer_valuations_kept (history : CalmHistory) : history.final.NothingLost ∧ history.final.OwnRows := by
  have sound := (sound_initial history.before).run history.calm history.run
  refine ⟨fun earlier first later second published row held other among same => ?_, sound.chronicle.meant⟩
  rcases sound.chronicle.ordered first second with rfl | follows | follows
  · exact absurd published (Nat.lt_irrefl _)
  · exact follows.supersedes earlier List.mem_cons_self row held other among same
  · exact absurd follows.published (Nat.not_lt.mpr (Nat.le_of_lt published))

def quiet : Answer := ⟨[], none⟩

/-- The nightly build of one process values a name, the refresh of another values it again
and publishes, and the build publishes what it had. -/
def overtaken : List Action :=
  [.start 0 0 .build, .step 0 quiet, .step 0 ⟨[("PETR4", some 10, some 8)], none⟩,
    .start 1 1 (.refresh ["PETR4"])] ++ List.replicate 4 (.step 1 quiet) ++ [.step 1 ⟨[], some (some 12, some 9)⟩] ++
    List.replicate 4 (.step 1 quiet) ++ List.replicate 4 (.step 0 quiet)

def yesterday : Stored := ⟨0, true, true, [⟨"PETR4", some 9, some 7, 0, 0⟩]⟩

theorem yesterday_before : yesterday.Before 1 where
  published := Nat.lt_succ_self 0
  valued _ single := by
    cases List.mem_singleton.mp single
    exact Nat.lt_succ_self 0
  uniform first one second two _ := by
    cases List.mem_singleton.mp one
    cases List.mem_singleton.mp two
    rfl

def overtakenEnd : Option State := (State.initial (some yesterday) 1).run overtaken

/-- The publication of the build takes the name back to the value it had before the refresh. -/
theorem revaluation_lost : ¬∀ history : History, history.final.NothingLost ∧ history.final.OwnRows := by
  intro claim
  have ends : overtakenEnd.isSome := rfl
  obtain ⟨final, run⟩ := Option.isSome_iff_exists.mp ends
  have lost : (overtakenEnd.map fun state => state.snapshots.map fun snapshot => (snapshot.publishedAt, snapshot.rows)) =
      some [(0, [⟨"PETR4", some 9, some 7, 0, 0⟩]), (12, [⟨"PETR4", some 12, some 9, 9, 2⟩]),
        (16, [⟨"PETR4", some 10, some 8, 3, 1⟩])] := rfl
  rw [run, Option.map_some, Option.some.injEq] at lost
  have kept := (claim ⟨some yesterday, 1, fun one held => by cases held; exact yesterday_before, overtaken, final, run⟩).1
  have members : ∀ published rows, (published, rows) ∈ final.snapshots.map (fun snapshot => (snapshot.publishedAt, snapshot.rows)) →
      ∃ snapshot ∈ final.snapshots, snapshot.publishedAt = published ∧ snapshot.rows = rows := by
    intro published rows member
    obtain ⟨snapshot, held, same⟩ := List.mem_map.mp member
    exact ⟨snapshot, held, congrArg Prod.fst same, congrArg Prod.snd same⟩
  obtain ⟨earlier, first, firstAt, firstRows⟩ := members 12 [⟨"PETR4", some 12, some 9, 9, 2⟩] (by rw [lost]; simp)
  obtain ⟨later, second, secondAt, secondRows⟩ := members 16 [⟨"PETR4", some 10, some 8, 3, 1⟩] (by rw [lost]; simp)
  have backwards := kept earlier first later second (by rw [firstAt, secondAt]; decide) ⟨"PETR4", some 12, some 9, 9, 2⟩
    (by rw [firstRows]; exact List.mem_cons_self) ⟨"PETR4", some 10, some 8, 3, 1⟩ (by rw [secondRows]; exact List.mem_cons_self) rfl
  exact absurd backwards (by decide)

end Runs
end C3po.Universe
