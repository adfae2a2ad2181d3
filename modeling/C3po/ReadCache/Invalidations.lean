import C3po.ReadCache.Steps

/-! No cached read crosses an invalidation, in any interleaving. -/

set_option autoImplicit false

namespace C3po.ReadCache
variable {V E : Type} {state : State V E}

def Action.thread : Action V E → Option ℕ
  | .call thread _ | .enter thread _ _ | .compute thread _ | .settle thread | .publish thread | .announce thread
  | .wake thread => some thread
  | .invalidate _ => none

/-- What a leader does next, once its computation returned or raised. -/
def Phase.ends (thread : ℕ) : Phase V E → Option (Action V E)
  | .computed .. => some (.settle thread)
  | .settled .. => some (.publish thread)
  | .published .. => some (.announce thread)
  | _ => none

section Parts

theorem one_running (sound : state.Sound) {first second number other : ℕ} {flight rival : Flight V E}
    (firstRuns : (state.threads first).runs = some number) (secondRuns : (state.threads second).runs = some other)
    (here : state.flights number = some flight) (there : state.flights other = some rival) (sameKey : flight.key = rival.key)
    (valid : ¬ Superseded state.invalidations flight) (alsoValid : ¬ Superseded state.invalidations rival) : first = second := by
  have held := sound.running firstRuns here ((sound.flights here).current.mpr valid)
  have alsoHeld := sound.running secondRuns there ((sound.flights there).current.mpr alsoValid)
  rw [sameKey, alsoHeld] at held
  cases held
  obtain ⟨_, found, firstLeads, -⟩ := (sound.threads first).leader (Phase.leads_of_runs firstRuns)
  obtain ⟨_, alsoFound, secondLeads, -⟩ := (sound.threads second).leader (Phase.leads_of_runs secondRuns)
  rw [found] at alsoFound
  cases alsoFound
  exact firstLeads.symm.trans secondLeads

theorem lookup_invalidate {name key : String} (apart : key ≠ name) (now : ℚ) :
    (state.invalidate (some name)).lookup key now = state.lookup key now := by
  have entries : (state.invalidate (some name)).entries key = state.entries key := Function.update_of_ne apart ..
  have inflight : (state.invalidate (some name)).inflight key = state.inflight key := Function.update_of_ne apart ..
  have generations : (state.invalidate (some name)).generations key = state.generations key := Function.update_of_ne apart ..
  unfold State.lookup
  rw [entries, inflight, generations]
  rfl

theorem superseded_invalidate {name : String} {flight : Flight V E} (apart : flight.key ≠ name) :
    Superseded (state.invalidate (some name)).invalidations flight ↔ Superseded state.invalidations flight := by
  constructor
  · rintro ⟨note, inside, covers, after⟩
    obtain before | new := List.mem_append.mp inside
    · exact ⟨note, before, covers, after⟩
    · rw [List.mem_singleton.mp new] at covers
      obtain impossible | same := covers
      · cases impossible
      · exact absurd (Option.some.inj same).symm apart
  · rintro ⟨note, inside, covers, after⟩
    exact ⟨note, List.mem_append_left _ inside, covers, after⟩

theorem ends_acts (sound : state.Sound) {thread : ℕ} {action : Action V E} (ends : (state.threads thread).ends thread = some action) :
    (state.act action).isSome = true := by
  have held : ∀ {number : ℕ}, (state.threads thread).leads = some number → ∃ flight, state.flights number = some flight := by
    intro number leads
    obtain ⟨flight, here, -⟩ := (sound.threads thread).leader leads
    exact ⟨flight, here⟩
  cases stands : state.threads thread with
  | idle => rw [stands] at ends; cases ends
  | began => rw [stands] at ends; cases ends
  | waiting => rw [stands] at ends; cases ends
  | computing => rw [stands] at ends; cases ends
  | computed call number startedAt outcome =>
    rw [stands] at ends
    cases ends
    obtain ⟨flight, here⟩ := held (by rw [stands]; rfl)
    simp only [State.act, State.step, stands, here, Option.map_some, Option.isSome_some]
  | settled call number outcome =>
    rw [stands] at ends
    cases ends
    obtain ⟨flight, here⟩ := held (by rw [stands]; rfl)
    simp only [State.act, State.step, stands, here, Option.map_some, Option.isSome_some]
  | published call number outcome =>
    rw [stands] at ends
    cases ends
    obtain ⟨flight, here⟩ := held (by rw [stands]; rfl)
    simp only [State.act, State.step, stands, here, Option.map_some, Option.isSome_some]

theorem waiter_goes_on (sound : state.Sound) {thread number : ℕ} {call : Call} (stands : state.threads thread = .waiting call number) :
    ∃ flight, state.flights number = some flight ∧
      ((state.act (.wake thread)).isSome = true ∨ (state.threads flight.leader).leads = some number) := by
  obtain ⟨flight, here, -⟩ := (sound.threads thread).flight (by rw [stands]; rfl : _ = some (call, some number))
  refine ⟨flight, here, ?_⟩
  obtain ⟨done, published⟩ | leading := (sound.flights here).attended
  · left
    obtain ⟨outcome, known⟩ := Option.ne_none_iff_exists'.mp published
    simp only [State.act, State.step, stands, here, Option.bind_some, done, known, Option.map_some, Option.isSome_some]
  · exact .inr leading

theorem superseded_absent (sound : state.Sound) {number : ℕ} {flight : Flight V E} (here : state.flights number = some flight)
    (superseded : Superseded state.invalidations flight) (key : String) : state.inflight key ≠ some number := by
  intro held
  obtain ⟨found, there, -, current, -⟩ := sound.inflight held
  rw [here] at there
  cases there
  exact (sound.flights here).current.mp current superseded

theorem superseded_writes_nothing (sound : state.Sound) {thread number : ℕ} {flight : Flight V E} {action : Action V E}
    {next : State V E} (leads : (state.threads thread).leads = some number) (here : state.flights number = some flight)
    (superseded : Superseded state.invalidations flight) (own : action.thread = some thread) (acts : state.act action = some next) :
    next.entries = state.entries ∧ next.inflight = state.inflight := by
  obtain ⟨after, stepped, rfl⟩ := Option.map_eq_some_iff.mp acts
  change after.entries = _ ∧ after.inflight = _
  cases action with
  | invalidate key => cases own
  | call other key =>
    cases own
    cases stands : state.threads thread <;> simp only [State.step, stands, reduceCtorEq] at stepped
    rw [stands] at leads
    cases leads
  | enter other now startedAt =>
    cases own
    cases stands : state.threads thread <;> simp only [State.step, stands, reduceCtorEq] at stepped
    rw [stands] at leads
    cases leads
  | wake other =>
    cases own
    cases stands : state.threads thread <;> simp only [State.step, stands, reduceCtorEq] at stepped
    rw [stands] at leads
    cases leads
  | compute other outcome =>
    cases own
    cases stands : state.threads thread <;> simp only [State.step, stands, reduceCtorEq] at stepped
    obtain ⟨_, -, rfl⟩ := Option.map_eq_some_iff.mp stepped
    exact ⟨rfl, rfl⟩
  | publish other =>
    cases own
    cases stands : state.threads thread <;> simp only [State.step, stands, reduceCtorEq] at stepped
    obtain ⟨_, -, rfl⟩ := Option.map_eq_some_iff.mp stepped
    exact ⟨rfl, rfl⟩
  | announce other =>
    cases own
    cases stands : state.threads thread <;> simp only [State.step, stands, reduceCtorEq] at stepped
    obtain ⟨_, -, rfl⟩ := Option.map_eq_some_iff.mp stepped
    exact ⟨rfl, rfl⟩
  | settle other =>
    cases own
    cases stands : state.threads thread <;> simp only [State.step, stands, reduceCtorEq] at stepped
    next call led startedAt outcome =>
    rw [stands] at leads
    cases leads
    obtain ⟨found, there, rfl⟩ := Option.map_eq_some_iff.mp stepped
    rw [here] at there
    cases there
    have landed : (state.land call.key number).inflight = state.inflight := if_neg (superseded_absent sound here superseded _)
    cases outcome with
    | error error => exact ⟨rfl, landed⟩
    | ok result =>
      refine ⟨if_neg ?_, landed⟩
      rintro ⟨epoch, generation⟩
      obtain ⟨_, found, key, -⟩ := (sound.threads thread).flight (by rw [stands]; rfl : _ = some (call, some number))
      rw [here] at found
      cases found
      exact (sound.flights here).current.mp ⟨epoch, key.symm ▸ generation⟩ superseded

end Parts

/-- Between any two lock sections. -/
structure NoCrossing (state : State V E) : Prop where
  fresh : ∀ answer ∈ state.answers, ∃ flight, state.flights answer.flight = some flight ∧ flight.key = answer.call.key ∧
    flight.computed = some answer.outcome ∧
    ∀ note ∈ state.invalidations, Covers note.1 answer.call.key → note.2 < answer.call.begun → note.2 < flight.started
  single : ∀ first second number other flight rival, (state.threads first).runs = some number →
    (state.threads second).runs = some other → state.flights number = some flight → state.flights other = some rival →
    flight.key = rival.key → ¬ Superseded state.invalidations flight → ¬ Superseded state.invalidations rival → first = second
  apart : ∀ name key, key ≠ name → (∀ now, (state.invalidate (some name)).lookup key now = state.lookup key now) ∧
    ∀ flight : Flight V E, flight.key = key →
      (Superseded (state.invalidate (some name)).invalidations flight ↔ Superseded state.invalidations flight)
  shared : ∀ first ∈ state.answers, ∀ second ∈ state.answers, first.flight = second.flight → first.outcome = second.outcome
  waiters : ∀ thread call number, state.threads thread = .waiting call number → ∃ flight, state.flights number = some flight ∧
    ((state.act (.wake thread)).isSome = true ∨ (state.threads flight.leader).leads = some number)
  leaders : ∀ thread action, (state.threads thread).ends thread = some action → (state.act action).isSome = true
  stored : ∀ key entry, state.entries key = some entry → ∃ flight, state.flights entry.flight = some flight ∧ flight.key = key ∧
    flight.computed = some (.ok entry.value)
  superseded : ∀ thread number flight action next, (state.threads thread).leads = some number →
    state.flights number = some flight → Superseded state.invalidations flight → action.thread = some thread →
    state.act action = some next → next.entries = state.entries ∧ next.inflight = state.inflight

theorem no_read_crosses (history : History V E) : NoCrossing history.state := by
  have sound := reached_sound history.reached
  constructor
  · intro answer here
    exact (sound.answers answer here).flight
  · intro first second number other flight rival firstRuns secondRuns here there sameKey valid alsoValid
    exact one_running sound firstRuns secondRuns here there sameKey valid alsoValid
  · rintro name key apart
    refine ⟨lookup_invalidate apart, ?_⟩
    rintro flight rfl
    exact superseded_invalidate apart
  · intro first firstIn second secondIn same
    obtain ⟨-, flight, here, -, gave, -⟩ := sound.answers first firstIn
    obtain ⟨-, alsoFlight, alsoHere, -, alsoGave, -⟩ := sound.answers second secondIn
    rw [same, alsoHere] at here
    cases here
    exact Option.some.inj (gave.symm.trans alsoGave)
  · intro thread call number stands
    exact waiter_goes_on sound stands
  · intro thread action ends
    exact ends_acts sound ends
  · intro key entry held
    obtain ⟨flight, here, sameKey, -, computed⟩ := sound.entries held
    exact ⟨flight, here, sameKey, computed⟩
  · intro thread number flight action next leads here superseded own acts
    exact superseded_writes_nothing sound leads here superseded own acts

end C3po.ReadCache
