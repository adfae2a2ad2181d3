import C3po.Universe.Service

/-! Every calm step keeps the published universes consistent. -/

set_option autoImplicit false

namespace C3po.Universe
open C3po.Library

variable {state next : State} {thread : ℕ} {work : Work}

theorem Held.later {snapshots : List Snapshot} {time : ℕ} {screener : Screener} {rows : List Row}
    (held : Held snapshots time screener rows) : Held snapshots (time + 1) screener rows :=
  ⟨held.newest, held.same, held.ready.later (Nat.le_succ time)⟩

theorem Relies.later {snapshots : List Snapshot} {time : ℕ} {screener : Screener} {stage : Stage}
    (relies : Relies snapshots time screener stage) : Relies snapshots (time + 1) screener stage := by
  cases stage with
  | called => trivial
  | building => trivial
  | hydrating => trivial
  | built => exact Ready.later relies (Nat.le_succ time)
  | hydrated => exact Held.later relies
  | surveying => exact Held.later relies
  | valuing =>
    obtain ⟨held, existing, replacing⟩ := relies
    refine ⟨held.later, existing, fun symbol row found => ?_⟩
    obtain ⟨same, supersedes, past⟩ := replacing symbol row found
    exact ⟨same, supersedes, Nat.lt_succ_of_lt past⟩
  | assigned => exact ⟨relies.1, relies.2.later (Nat.le_succ time)⟩
  | based => exact ⟨relies.1, relies.2.later (Nat.le_succ time)⟩
  | stamped =>
    obtain ⟨same, ready, basis, past, earlier⟩ := relies
    exact ⟨same, ready.later (Nat.le_succ time), basis, Nat.lt_succ_of_lt past, earlier⟩

theorem Chronicle.later {snapshots : List Snapshot} {time : ℕ} (chronicle : Chronicle snapshots time) :
    Chronicle snapshots (time + 1) :=
  ⟨chronicle.follow, fun snapshot member => Nat.lt_succ_of_lt (chronicle.published snapshot member),
    fun snapshot member row held => Nat.lt_succ_of_lt (chronicle.valued snapshot member row held), chronicle.uniform,
    chronicle.meant⟩

theorem Sound.alone (sound : Sound state) (own : state.threads thread = some work) (holds : ¬work.stage.waiting) :
    ∀ other, other ≠ thread → ∀ job, state.threads other = some job → job.screener = work.screener → job.stage.waiting := by
  intro other apart job stands same
  by_contra active
  have mine := sound.holder thread work own holds
  have theirs := sound.holder other job stands active
  rw [same, mine] at theirs
  exact apart (Option.some.inj theirs).symm

theorem Sound.unpublished (sound : Sound state) (own : state.threads thread = some work) (holds : ¬work.stage.waiting)
    (quiet : ¬work.stage.publishing) : ¬state.Publishing work.screener := by
  rintro ⟨other, job, stands, same, publishing⟩
  by_cases apart : other = thread
  · subst apart
    rw [own] at stands
    cases stands
    exact quiet publishing
  · have waiting := sound.alone own holds other apart job stands same
    cases stage : job.stage <;> simp [stage, Stage.waiting, Stage.publishing] at waiting publishing

theorem Sound.changes (sound : Sound state) (number : ℕ) (job : Option Work)
    (own : ∀ work, state.threads thread = some work → work.screener = number)
    (alone : ∀ other, other ≠ thread → ∀ work, state.threads other = some work → work.screener = number → work.stage.waiting)
    (threads : next.threads = Function.update state.threads thread job)
    (screeners : ∀ other, other ≠ number → next.screeners other = state.screeners other)
    (snapshots : next.snapshots = state.snapshots ∨ state.snapshots.length < next.snapshots.length)
    (kept : ∀ snapshot ∈ state.snapshots, snapshot ∈ next.snapshots)
    (time : next.time = state.time) (chronicle : Chronicle next.snapshots (state.time + 1))
    (mine : ∀ work, job = some work → work.screener = number ∧
      (¬work.stage.waiting → (next.screeners number).lock = some thread) ∧
      Placed next.snapshots (state.time + 1) (next.screeners number) work)
    (settled : (∀ work, job = some work → ¬work.stage.publishing) → Settled next.snapshots (next.screeners number)) :
    Sound next.tick := by
  have threadOf : ∀ other work, next.threads other = some work →
      (other = thread ∧ job = some work) ∨ (other ≠ thread ∧ state.threads other = some work) := by
    intro other work stands
    rw [threads] at stands
    by_cases same : other = thread
    · subst same
      rw [Function.update_self] at stands
      exact .inl ⟨rfl, stands⟩
    · rw [Function.update_of_ne same] at stands
      exact .inr ⟨same, stands⟩
  have others : ∀ snapshots', Settled state.snapshots snapshots' → Settled next.snapshots snapshots' := by
    rintro screener (fresh | ⟨snapshot, member, rest⟩)
    · exact .inl fresh
    · exact .inr ⟨snapshot, kept snapshot member, rest⟩
  refine ⟨?_, fun other quiet => ?_, fun other work stands active => ?_, fun other work stands => ?_⟩
  · show Chronicle next.snapshots (next.time + 1)
    rw [time]
    exact chronicle
  · by_cases same : other = number
    · subst same
      refine settled fun work held publishing => quiet ⟨thread, work, ?_, (mine work held).1, publishing⟩
      show next.threads thread = some work
      rw [threads, Function.update_self, held]
    · show Settled next.snapshots (next.screeners other)
      rw [screeners other same]
      refine others _ (sound.settled other ?_)
      rintro ⟨holder, work, stands, theirs, publishing⟩
      have apart : holder ≠ thread := by
        rintro rfl
        exact same (theirs.symm.trans (own work stands))
      refine quiet ⟨holder, work, ?_, theirs, publishing⟩
      show next.threads holder = some work
      rw [threads, Function.update_of_ne apart, stands]
  · show (next.screeners work.screener).lock = some other
    rcases threadOf other work stands with ⟨rfl, held⟩ | ⟨apart, held⟩
    · obtain ⟨same, lock, _⟩ := mine work held
      rw [same]
      exact lock active
    · have away : work.screener ≠ number := fun same => active (alone other apart work held same)
      rw [screeners _ away]
      exact sound.holder other work held active
  · show Placed next.snapshots (next.time + 1) (next.screeners work.screener) work
    rw [time]
    rcases threadOf other work stands with ⟨rfl, held⟩ | ⟨apart, held⟩
    · obtain ⟨same, _, placed⟩ := mine work held
      rw [same]
      exact placed
    · have before := sound.placed other work held
      have longer : state.snapshots.length ≤ next.snapshots.length := by
        rcases snapshots with same | longer
        · rw [same]
        · exact Nat.le_of_lt longer
      refine ⟨Nat.le_trans before.seen longer, fun seen => ?_⟩
      rcases snapshots with same | longer
      · rw [same] at seen ⊢
        by_cases away : work.screener = number
        · have waiting := alone other apart work held away
          cases stage : work.stage with
          | called => trivial
          | _ => simp [stage, Stage.waiting] at waiting
        · rw [screeners _ away]
          exact (before.relies seen).later
      · exact absurd before.seen (by omega)

theorem Sound.stands (sound : Sound state) (own : state.threads thread = some work) (holds : ¬work.stage.waiting)
    (screener : Screener) (job : Work) (same : job.screener = work.screener)
    (lock : screener.lock = (state.screeners work.screener).lock)
    (placed : Placed state.snapshots (state.time + 1) screener job)
    (settled : ¬job.stage.publishing → Settled state.snapshots screener)
    (threads : next.threads = Function.update state.threads thread (some job))
    (screeners : next.screeners = Function.update state.screeners work.screener screener)
    (snapshots : next.snapshots = state.snapshots) (time : next.time = state.time) : Sound next.tick := by
  have mine : next.screeners work.screener = screener := by rw [screeners, Function.update_self]
  refine sound.changes work.screener (some job) ?_ (sound.alone own holds) threads ?_ (.inl snapshots) ?_ time
    ?_ ?_ ?_
  · intro other held
    rw [own] at held
    cases held
    rfl
  · intro other apart
    rw [screeners, Function.update_of_ne apart]
  · intro snapshot member
    rwa [snapshots]
  · rw [snapshots]
    exact sound.chronicle.later
  · intro other held
    cases held
    refine ⟨same, fun _ => ?_, ?_⟩
    · rw [mine, lock]
      exact sound.holder thread work own holds
    · rw [mine, snapshots]
      exact placed
  · intro quiet
    rw [mine, snapshots]
    exact settled (quiet job rfl)

theorem Sound.finishes (sound : Sound state) (own : state.threads thread = some work) (holds : ¬work.stage.waiting)
    (quiet : ¬work.stage.publishing) : Sound (state.finish thread work).tick := by
  have settled := sound.settled work.screener (sound.unpublished own holds quiet)
  refine sound.changes work.screener none ?_ (sound.alone own holds) rfl ?_ (.inl rfl) (fun _ member => member)
    rfl sound.chronicle.later (fun _ none => nomatch none) fun _ => ?_
  · intro other held
    rw [own] at held
    cases held
    rfl
  · intro other apart
    exact Function.update_of_ne apart _ _
  · show Settled state.snapshots (Function.update state.screeners work.screener _ work.screener)
    rw [Function.update_self]
    exact settled

section Refreshes
variable {snapshots : List Snapshot} {time : ℕ} {rows : List Row} {symbol : String}

theorem rowOf_spec {row : Row} (found : rowOf rows symbol = some row) : row ∈ rows ∧ row.symbol = symbol := by
  unfold rowOf at found
  split at found
  · cases found
  · exact ⟨List.mem_reverse.mp (List.mem_of_find?_eq_some found), by simpa using List.find?_some found⟩

theorem Replacing.insert {replacements : Dict String Row} (replacing : Replacing snapshots time replacements) {row : Row}
    (same : row.symbol = symbol) (supersedes : Supersedes snapshots [row]) (past : row.valuedAt < time) :
    Replacing snapshots time (replacements.insert symbol row) := by
  intro other held found
  rw [Dict.get?_insert] at found
  split at found
  · rename_i here
    cases found
    exact ⟨same.trans here.symm, supersedes, past⟩
  · exact replacing other held found

/-- One symbol of a refresh: what it had may be published again, what it has now is newer. -/
theorem Sound.replaces (sound : Sound state) {survey : Survey} (security : Option (Option ℚ × Option ℚ))
    (relies : Relies state.snapshots state.time (state.screeners work.screener) (.valuing (symbol :: []) survey)) :
    Relies state.snapshots (state.time + 1) (state.screeners work.screener)
      (.valuing [] (state.replace work survey symbol security)) := by
  obtain ⟨held, existing, replacing⟩ := (Relies.later relies : Relies state.snapshots (state.time + 1) _ (.valuing _ survey))
  unfold State.replace
  cases State.priced security with
  | none =>
    cases found : rowOf survey.existing symbol with
    | none => exact ⟨held, existing, replacing⟩
    | some preserved =>
      obtain ⟨member, same⟩ := rowOf_spec found
      rw [existing] at member
      refine ⟨held, existing, replacing.insert same (fun snapshot stored row before later single same => ?_) (held.ready.past preserved member)⟩
      cases List.mem_singleton.mp single
      exact held.ready.supersedes snapshot stored row before preserved member same
  | some numbers =>
    simp only
    split
    · have ready : Ready state.snapshots (state.time + 1) [state.value work symbol numbers] :=
        sound.chronicle.ready fun row single => by cases List.mem_singleton.mp single; rfl
      exact ⟨held, existing, replacing.insert rfl ready.supersedes (Nat.lt_succ_self _)⟩
    · exact ⟨held, existing, replacing⟩

end Refreshes

section Publications
variable {meant : List Row} {publishedAt : ℕ} {pending : Option (List String)}

theorem Chronicle.published_snoc {snapshots : List Snapshot} {time : ℕ} (chronicle : Chronicle snapshots time)
    (ready : Ready snapshots time meant) (past : publishedAt < time)
    (earlier : ∀ snapshot ∈ snapshots, snapshot.publishedAt < publishedAt) (number : ℕ) :
    Chronicle (snapshots ++ [⟨publishedAt, true, true, meant, number, meant⟩]) time where
  follow := by
    refine List.pairwise_append.mpr ⟨chronicle.follow, List.pairwise_singleton _ _, fun first member last single => ?_⟩
    cases List.mem_singleton.mp single
    refine ⟨earlier first member, fun snapshot own row held later among same => ?_, rfl, rfl⟩
    cases List.mem_singleton.mp own
    exact ready.supersedes first member row held later among same
  published := by
    intro snapshot member
    rcases List.mem_append.mp member with before | single
    · exact chronicle.published snapshot before
    · cases List.mem_singleton.mp single
      exact past
  valued := by
    intro snapshot member
    rcases List.mem_append.mp member with before | single
    · exact chronicle.valued snapshot before
    · cases List.mem_singleton.mp single
      exact ready.past
  uniform := by
    intro snapshot member
    rcases List.mem_append.mp member with before | single
    · exact chronicle.uniform snapshot before
    · cases List.mem_singleton.mp single
      exact ready.uniform
  meant := by
    intro snapshot member
    rcases List.mem_append.mp member with before | single
    · exact chronicle.meant snapshot before
    · cases List.mem_singleton.mp single
      rfl

theorem Chronicle.held_snoc {snapshots : List Snapshot} {time : ℕ} {screener : Screener} {last : Snapshot}
    (chronicle : Chronicle (snapshots ++ [last]) time) (rows : screener.rows = last.rows)
    (basis : screener.basisAt = some last.publishedAt) : Held (snapshots ++ [last]) time screener last.rows := by
  have bound : ∀ snapshot ∈ snapshots ++ [last], snapshot ≠ last → snapshot.publishedAt < last.publishedAt := by
    intro snapshot member apart
    rcases List.mem_append.mp member with before | single
    · exact ((List.pairwise_append.mp chronicle.follow).2.2 snapshot before last List.mem_cons_self).published
    · exact absurd (List.mem_singleton.mp single) apart
  have newest : latest Snapshot.publishedAt (snapshots ++ [last]) = some last := latest_eq (by simp) bound
  exact ⟨by simp [Screener.newer, newest, basis], rows, chronicle.newest newest⟩

theorem Sound.publishes (sound : Sound state) (own : state.threads thread = some work) {answer : Answer}
    (stage : work.stage = .stamped meant publishedAt pending) (calm : work.seen = state.snapshots.length)
    (advanced : state.advance thread work answer = some next) : Sound next.tick := by
  have holds : ¬work.stage.waiting := by simp [stage, Stage.waiting]
  have relies := (sound.placed thread work own).relies calm
  rw [stage] at relies
  obtain ⟨same, ready, basis, past, earlier⟩ := relies
  have chronicle : Chronicle (state.snapshots ++ [⟨publishedAt, true, true, meant, work.number, meant⟩]) (state.time + 1) :=
    sound.chronicle.later.published_snoc (ready.later (Nat.le_succ _)) (Nat.lt_succ_of_lt past) earlier work.number
  have screenerOf : ∀ other, state.threads thread = some other → other.screener = work.screener := by
    intro other held
    rw [own] at held
    cases held
    rfl
  have published : (state.publish work publishedAt meant).snapshots =
      state.snapshots ++ [⟨publishedAt, true, true, meant, work.number, meant⟩] := by
    simp [State.publish, same]
  have longer : state.snapshots.length < (state.publish work publishedAt meant).snapshots.length := by simp [published]
  have kept : ∀ snapshot ∈ state.snapshots, snapshot ∈ (state.publish work publishedAt meant).snapshots := by
    intro snapshot member
    rw [published]
    exact List.mem_append_left _ member
  rw [← published] at chronicle
  unfold State.advance at advanced
  rw [stage] at advanced
  cases pending with
  | none =>
    cases advanced
    refine sound.changes work.screener none screenerOf (sound.alone own holds) rfl ?_ (.inr longer) kept
      rfl chronicle (fun _ none => nomatch none) fun _ => ?_
    · intro other apart
      exact Function.update_of_ne apart _ _
    · show Settled (state.publish work publishedAt meant).snapshots (Function.update state.screeners work.screener _ work.screener)
      rw [Function.update_self, published]
      exact .inr ⟨_, List.mem_append_right _ List.mem_cons_self, ⟨rfl, rfl⟩, basis, same⟩
  | some symbols =>
    cases advanced
    have held : Held (state.publish work publishedAt meant).snapshots (state.time + 1) (state.screeners work.screener) meant := by
      rw [published] at chronicle ⊢
      exact chronicle.held_snoc same basis
    refine sound.changes work.screener
      (some { work with seen := (state.publish work publishedAt meant).snapshots.length, stage := .surveying symbols meant })
      screenerOf (sound.alone own holds) rfl (fun _ _ => rfl) (.inr longer) kept rfl chronicle ?_ fun _ => ?_
    · intro other set
      cases set
      exact ⟨rfl, fun _ => sound.holder thread work own holds, Nat.le_refl _, fun _ => held⟩
    · show Settled (state.publish work publishedAt meant).snapshots (state.screeners work.screener)
      rw [published]
      exact .inr ⟨_, List.mem_append_right _ List.mem_cons_self, ⟨rfl, rfl⟩, basis, same⟩

end Publications

section Advances
variable {answer : Answer}

theorem Sound.enters (sound : Sound state) (own : state.threads thread = some work) {call : Call}
    (entered : state.enter thread work call = some next) : Sound next.tick := by
  unfold State.enter at entered
  cases free : (state.screeners work.screener).lock with
  | some holder =>
    rw [free] at entered
    cases entered
  | none =>
    rw [free] at entered
    have alone : ∀ other, other ≠ thread → ∀ job, state.threads other = some job → job.screener = work.screener → job.stage.waiting := by
      intro other _ job stands same
      by_contra active
      have held := sound.holder other job stands active
      rw [same, free] at held
      cases held
    have quiet : ¬state.Publishing work.screener := by
      rintro ⟨other, job, stands, same, publishing⟩
      have active : ¬job.stage.waiting := by cases stage : job.stage <;> simp [stage, Stage.waiting, Stage.publishing] at publishing ⊢
      have held := sound.holder other job stands active
      rw [same, free] at held
      cases held
    -- the rows of the screener are as they were; only its lock is taken
    have enters : ∀ job : Work, job.screener = work.screener → job.seen ≤ state.snapshots.length →
        (∀ screener, Relies state.snapshots (state.time + 1) screener job.stage) →
        next = (state.setScreener work.screener { state.screeners work.screener with lock := some thread }).setThread thread (some job) →
        Sound next.tick := by
      rintro job same seen relies rfl
      refine sound.changes work.screener (some job) ?_ alone rfl ?_ (.inl rfl) (fun _ member => member) rfl
        sound.chronicle.later ?_ fun _ => ?_
      · intro other held
        rw [own] at held
        cases held
        rfl
      · exact fun other apart => Function.update_of_ne apart _ _
      · intro other set
        cases set
        refine ⟨same, fun _ => ?_, seen, fun _ => relies _⟩
        show (Function.update state.screeners work.screener _ work.screener).lock = some thread
        rw [Function.update_self]
      · show Settled state.snapshots (Function.update state.screeners work.screener _ work.screener)
        rw [Function.update_self]
        exact sound.settled work.screener quiet
    cases call with
    | build =>
      cases entered
      exact enters { work with seen := state.snapshots.length, stage := .building state.time none } rfl (Nat.le_refl _)
        (fun _ => trivial) rfl
    | refresh symbols =>
      cases entered
      exact enters { work with stage := .hydrating symbols } rfl (sound.placed thread work own).seen (fun _ => trivial) rfl

theorem Sound.advances (sound : Sound state) (own : state.threads thread = some work)
    (calm : ∀ meant publishedAt pending, work.stage = .stamped meant publishedAt pending → work.seen = state.snapshots.length)
    (advanced : state.advance thread work answer = some next) : Sound next.tick := by
  obtain ⟨seen, relies⟩ := sound.placed thread work own
  have same : state.screeners = Function.update state.screeners work.screener (state.screeners work.screener) :=
    (Function.update_eq_self _ _).symm
  have settled : ¬work.stage.waiting → ¬work.stage.publishing → Settled state.snapshots (state.screeners work.screener) :=
    fun holds quiet => sound.settled work.screener (sound.unpublished own holds quiet)
  cases stage : work.stage with
  | called call =>
    simp only [State.advance, stage] at advanced
    exact sound.enters own advanced
  | stamped meant publishedAt pending => exact sound.publishes own stage (calm _ _ _ stage) advanced
  | building generatedAt pending =>
    have holds : ¬work.stage.waiting := by simp [stage, Stage.waiting]
    simp only [State.advance, stage, Option.some.injEq] at advanced
    subst advanced
    refine sound.stands own holds (state.screeners work.screener)
      { work with stage := .built (answer.valuations.map fun entry => state.value work entry.1 entry.2) generatedAt pending }
      rfl rfl ⟨seen, fun _ => ?_⟩ (fun _ => settled holds (by simp [stage, Stage.publishing])) rfl same rfl rfl
    refine sound.chronicle.ready fun row member => ?_
    obtain ⟨entry, _, rfl⟩ := List.mem_map.mp member
    rfl
  | built rows generatedAt pending =>
    have holds : ¬work.stage.waiting := by simp [stage, Stage.waiting]
    simp only [State.advance, stage, Option.some.injEq] at advanced
    subst advanced
    rw [stage] at relies
    refine sound.stands own holds { state.screeners work.screener with rows := rows }
      { work with stage := .assigned rows (some generatedAt) pending } rfl rfl ⟨seen, fun here => ?_⟩
      (fun quiet => absurd rfl quiet) rfl rfl rfl rfl
    exact ⟨rfl, Ready.later (relies here) (Nat.le_succ _)⟩
  | hydrating symbols =>
    have holds : ¬work.stage.waiting := by simp [stage, Stage.waiting]
    have before := settled holds (by simp [stage, Stage.publishing])
    simp only [State.advance, stage, Option.some.injEq] at advanced
    subst advanced
    refine sound.stands own holds ((state.screeners work.screener).hydrated state.snapshots)
      ⟨work.screener, work.number, work.began, state.snapshots.length,
        .hydrated symbols ((state.screeners work.screener).hydrated state.snapshots).rows⟩ rfl hydrated_lock ⟨Nat.le_refl _, fun _ => ?_⟩
      (fun _ => before.hydrated) ?_ rfl rfl rfl
    · exact ⟨newer_hydrated, rfl, (before.hydrated.ready sound.chronicle newer_hydrated).later (Nat.le_succ _)⟩
    · simp [State.read, State.hydrate, State.setScreener, State.setThread]
  | hydrated symbols rows =>
    have holds : ¬work.stage.waiting := by simp [stage, Stage.waiting]
    have before := settled holds (by simp [stage, Stage.publishing])
    simp only [State.advance, stage] at advanced
    rw [stage] at relies
    split at advanced
    · cases advanced
      exact sound.stands own holds (state.screeners work.screener)
        { work with seen := state.snapshots.length, stage := .building state.time (some symbols) } rfl rfl
        ⟨Nat.le_refl _, fun _ => trivial⟩ (fun _ => before) rfl same rfl rfl
    · cases advanced
      exact sound.stands own holds (state.screeners work.screener) { work with stage := .surveying symbols rows } rfl rfl
        ⟨seen, fun here => Held.later (relies here)⟩ (fun _ => before) rfl same rfl rfl
  | surveying symbols rows =>
    have holds : ¬work.stage.waiting := by simp [stage, Stage.waiting]
    have before := settled holds (by simp [stage, Stage.publishing])
    simp only [State.advance, stage, Option.some.injEq] at advanced
    subst advanced
    rw [stage] at relies
    refine sound.stands own holds (state.screeners work.screener)
      { work with stage := .valuing symbols ⟨rows, (state.screeners work.screener).rows, .empty⟩ } rfl rfl
      ⟨seen, fun here => ?_⟩ (fun _ => before) rfl same rfl rfl
    have held : Held state.snapshots state.time (state.screeners work.screener) rows := relies here
    exact ⟨held.later, held.same, fun _ _ none => nomatch none⟩
  | valuing symbols survey =>
    have holds : ¬work.stage.waiting := by simp [stage, Stage.waiting]
    have quiet : ¬work.stage.publishing := by simp [stage, Stage.publishing]
    rw [stage] at relies
    cases symbols with
    | cons symbol rest =>
      simp only [State.advance, stage, Option.some.injEq] at advanced
      subst advanced
      exact sound.stands own holds (state.screeners work.screener)
        { work with stage := .valuing rest (state.replace work survey symbol answer.security) } rfl rfl
        ⟨seen, fun here => sound.replaces answer.security (relies here)⟩
        (fun _ => settled holds quiet) rfl same rfl rfl
    | nil =>
      simp only [State.advance, stage] at advanced
      split at advanced
      · cases advanced
        exact sound.finishes own holds quiet
      · cases advanced
        refine sound.stands own holds
          { state.screeners work.screener with rows := replaced survey.replacements (state.screeners work.screener).rows }
          { work with stage := .assigned (replaced survey.replacements survey.hydrated) none none } rfl rfl
          ⟨seen, fun here => ?_⟩ (fun quiet => absurd rfl quiet) rfl rfl rfl rfl
        obtain ⟨held, _, replacing⟩ := relies here
        refine ⟨congrArg (replaced survey.replacements) held.same, ?_⟩
        exact (replacing.ready held.ready).later (Nat.le_succ _)
  | assigned meant generatedAt pending =>
    have holds : ¬work.stage.waiting := by simp [stage, Stage.waiting]
    simp only [State.advance, stage, Option.some.injEq] at advanced
    subst advanced
    rw [stage] at relies
    refine sound.stands own holds { state.screeners work.screener with basisAt := some (generatedAt.getD state.time) }
      { work with stage := .based meant pending } rfl rfl ⟨seen, fun here => ?_⟩ (fun quiet => absurd rfl quiet) rfl rfl rfl rfl
    exact ⟨(relies here).1, (relies here).2.later (Nat.le_succ _)⟩
  | based meant pending =>
    have holds : ¬work.stage.waiting := by simp [stage, Stage.waiting]
    simp only [State.advance, stage, Option.some.injEq] at advanced
    subst advanced
    rw [stage] at relies
    refine sound.stands own holds { state.screeners work.screener with basisAt := some state.time }
      { work with stage := .stamped meant state.time pending } rfl rfl ⟨seen, fun here => ?_⟩
      (fun quiet => absurd rfl quiet) rfl rfl rfl rfl
    exact ⟨(relies here).1, (relies here).2.later (Nat.le_succ _), rfl, Nat.lt_succ_self _, sound.chronicle.published⟩

end Advances
end C3po.Universe
