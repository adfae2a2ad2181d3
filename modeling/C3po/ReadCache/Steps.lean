import C3po.ReadCache.Cache

/-! Each step keeps what holds between the lock sections. -/

set_option autoImplicit false

namespace C3po.ReadCache
variable {V E : Type} {state : State V E} {thread : ℕ}

/-- The step of the clock after a step. -/
def State.tick (next : State V E) (time : ℕ) : State V E := { next with time := time + 1 }

section Quiet
variable {phase : Phase V E}

theorem advances_refl (sound : state.Sound) {number : ℕ} {flight : Flight V E} (here : state.flights number = some flight) :
    flight.Advances flight :=
  ⟨rfl, rfl, rfl, rfl, rfl, id, (sound.flights here).published⟩

theorem landed (sound : state.Sound) (leads : (state.threads thread).leads = none) {number : ℕ} {flight : Flight V E}
    (here : state.flights number = some flight) (mine : flight.leader = thread) : flight.done = true ∧ flight.outcome ≠ none := by
  obtain done | leading := (sound.flights here).attended
  · exact done
  · rw [mine, leads] at leading
    cases leading

theorem runs_of_leads_none {phase : Phase V E} (leads : phase.leads = none) : phase.runs = none := by
  cases phase <;> first | rfl | cases leads

theorem quiet_sound (sound : state.Sound) {next : State V E} (leads : (state.threads thread).leads = none)
    (threads : next.threads = Function.update state.threads thread phase) (flights : next.flights = state.flights)
    (tokens : next.epoch = state.epoch ∧ next.generations = state.generations ∧ next.invalidations = state.invalidations)
    (maps : next.entries = state.entries ∧ next.inflight = state.inflight)
    (opened : next.opened = state.opened) (time : next.time = state.time + 1)
    (runs : phase.runs = none) (stands : Stands next thread phase)
    (answers : ∀ answer ∈ next.answers, answer ∈ state.answers ∨ Answered next answer) :
    next.Sound := by
  have turn : Turn state next thread phase := by
    constructor
    · exact threads
    · exact tokens.1
    · exact tokens.2.1
    · exact opened
    · exact tokens.2.2
    · exact time
    · intro number flight here
      exact ⟨flight, flights ▸ here, advances_refl sound here⟩
    · intro number later here
      rw [flights] at here
      exact ⟨later, here, advances_refl sound here, .inl rfl, fun mine => .inl (landed sound leads here mine)⟩
    · exact stands
    · exact answers
  exact turn.sound sound maps.1 maps.2 (runs.trans (runs_of_leads_none leads).symm)

theorem stands_idle (next : State V E) (thread : ℕ) : Stands next thread .idle := by
  constructor
  · intro _ _ engaged
    cases engaged
  · intro _ _ engaged
    cases engaged
  · intro _ leads
    cases leads

end Quiet

theorem call_sound (sound : state.Sound) (stands : state.threads thread = .idle) (key : String) :
    ((state.stand thread (.began ⟨key, state.time⟩)).tick state.time).Sound := by
  have leads : (state.threads thread).leads = none := by rw [stands]; rfl
  refine quiet_sound sound leads rfl rfl ⟨rfl, rfl, rfl⟩ ⟨rfl, rfl⟩ rfl rfl rfl ?_ fun _ here => .inl here
  · constructor
    · rintro call number ⟨⟩
      exact Nat.lt_succ_self _
    · rintro call number ⟨⟩
    · intro number leads
      cases leads

theorem fresh_of_current (sound : state.Sound) {number : ℕ} {flight : Flight V E} (here : state.flights number = some flight)
    (current : state.Current flight) (call : Call) (key : flight.key = call.key) : Fresh state.invalidations call flight := by
  intro note there covers before
  have unsuperseded := (sound.flights here).current.mp current
  by_contra after
  exact unsuperseded ⟨note, there, key ▸ covers, not_lt.mp after⟩

theorem wake_sound (sound : state.Sound) {call : Call} {number : ℕ} (stands : state.threads thread = .waiting call number)
    {flight : Flight V E} (here : state.flights number = some flight) {outcome : Except E V}
    (published : flight.outcome = some outcome) : ((state.finish thread ⟨call, number, outcome⟩).tick state.time).Sound := by
  have leads : (state.threads thread).leads = none := by rw [stands]; rfl
  refine quiet_sound sound leads rfl rfl ⟨rfl, rfl, rfl⟩ ⟨rfl, rfl⟩ rfl rfl rfl (stands_idle _ _) ?_
  · intro answer there
    obtain before | new := List.mem_append.mp there
    · exact .inl before
    · right
      rw [List.mem_singleton.mp new]
      obtain ⟨found, same, key, fresh⟩ := (sound.threads thread).flight (by rw [stands]; rfl)
      rw [here] at same
      cases same
      have begun := (sound.threads thread).begun (by rw [stands]; rfl)
      exact ⟨Nat.lt_succ_of_lt begun, flight, here, key, (sound.flights here).published published, fresh⟩

section Enter
variable {call : Call} {now startedAt : ℚ}

theorem hit_sound (sound : state.Sound) (stands : state.threads thread = .began call) {entry : Entry V}
    (found : state.lookup call.key now = .hit entry) : ((state.enter thread call now startedAt).tick state.time).Sound := by
  have leads : (state.threads thread).leads = none := by rw [stands]; rfl
  have held : state.entries call.key = some entry := by
    unfold State.lookup at found
    split at found
    · next kept =>
      cases found
      exact (Option.filter_eq_some_iff.mp kept).1
    · split at found
      · cases found
      · split at found
        · cases found
        · split at found <;> cases found
  rw [State.enter, found]
  refine quiet_sound sound leads rfl rfl ⟨rfl, rfl, rfl⟩ ⟨rfl, rfl⟩ rfl rfl rfl (stands_idle _ _) ?_
  · intro answer there
    obtain before | new := List.mem_append.mp there
    · exact .inl before
    · right
      rw [List.mem_singleton.mp new]
      obtain ⟨flight, here, key, current, computed⟩ := sound.entries held
      have begun := (sound.threads thread).begun (by rw [stands]; rfl)
      exact ⟨Nat.lt_succ_of_lt begun, flight, here, key, computed, fresh_of_current sound here current call key⟩

theorem lookup_join {number : ℕ} (found : state.lookup call.key now = .join number) : ∃ flight, state.inflight call.key = some number ∧
    state.flights number = some flight ∧ flight.epoch = state.epoch ∧ flight.generation = state.generations call.key := by
  unfold State.lookup at found
  split at found
  · cases found
  · split at found
    · cases found
    · next held =>
      split at found
      · cases found
      · next flight here =>
        split at found
        · next tokens =>
          cases found
          exact ⟨flight, held, here, tokens⟩
        · cases found

theorem join_sound (sound : state.Sound) (stands : state.threads thread = .began call) {number : ℕ}
    (found : state.lookup call.key now = .join number) : ((state.enter thread call now startedAt).tick state.time).Sound := by
  have leads : (state.threads thread).leads = none := by rw [stands]; rfl
  obtain ⟨flight, held, here, -⟩ := lookup_join found
  obtain ⟨same, there, key, current, -⟩ := sound.inflight held
  rw [here] at there
  cases there
  rw [State.enter, found]
  refine quiet_sound sound leads rfl rfl ⟨rfl, rfl, rfl⟩ ⟨rfl, rfl⟩ rfl rfl rfl ?_ fun _ inside => .inl inside
  · constructor
    · rintro _ _ ⟨⟩
      exact Nat.lt_succ_of_lt ((sound.threads thread).begun (by rw [stands]; rfl))
    · rintro _ _ ⟨⟩
      exact ⟨flight, here, key, fresh_of_current sound here current call key⟩
    · intro _ leads
      cases leads

end Enter

section Leader
variable {phase next : Phase V E} {number : ℕ} {flight later : Flight V E}

theorem leader_turn (sound : state.Sound) (leads : (state.threads thread).leads = some number)
    (here : state.flights number = some flight) (advances : flight.Advances later)
    (led : later.done = true ∧ later.outcome ≠ none ∨ next.leads = some number)
    {after : State V E} (threads : after.threads = Function.update state.threads thread next)
    (flights : after.flights = Function.update state.flights number (some later))
    (tokens : after.epoch = state.epoch ∧ after.generations = state.generations ∧ after.invalidations = state.invalidations)
    (opened : after.opened = state.opened) (time : after.time = state.time + 1) (stands : Stands after thread next)
    (answers : ∀ answer ∈ after.answers, answer ∈ state.answers ∨ Answered after answer) :
    Turn state after thread next := by
  obtain ⟨mine, there, leader, -⟩ := (sound.threads thread).leader leads
  rw [here] at there
  cases there
  constructor
  · exact threads
  · exact tokens.1
  · exact tokens.2.1
  · exact opened
  · exact tokens.2.2
  · exact time
  · intro other found before
    rw [flights]
    by_cases same : other = number
    · rw [same, Function.update_self]
      rw [same, here] at before
      cases before
      exact ⟨later, rfl, advances⟩
    · rw [Function.update_of_ne same]
      exact ⟨found, before, advances_refl sound before⟩
  · intro other found before
    rw [flights] at before
    by_cases same : other = number
    · rw [same, Function.update_self] at before
      cases before
      rw [same]
      exact ⟨flight, here, advances, .inr leader, fun _ => led⟩
    · rw [Function.update_of_ne same] at before
      refine ⟨found, before, advances_refl sound before, .inl rfl, ?_⟩
      intro alsoMine
      obtain done | leading := (sound.flights before).attended
      · exact .inl done
      · rw [alsoMine, leads] at leading
        exact absurd (Option.some.inj leading).symm same
  · exact stands
  · exact answers

theorem leader_sound (sound : state.Sound) (leads : (state.threads thread).leads = some number)
    (here : state.flights number = some flight) (advances : flight.Advances later)
    (led : later.done = true ∧ later.outcome ≠ none ∨ next.leads = some number)
    {after : State V E} (threads : after.threads = Function.update state.threads thread next)
    (flights : after.flights = Function.update state.flights number (some later))
    (tokens : after.epoch = state.epoch ∧ after.generations = state.generations ∧ after.invalidations = state.invalidations)
    (maps : after.entries = state.entries ∧ after.inflight = state.inflight)
    (opened : after.opened = state.opened) (time : after.time = state.time + 1)
    (runs : next.runs = (state.threads thread).runs) (stands : Stands after thread next)
    (answers : ∀ answer ∈ after.answers, answer ∈ state.answers ∨ Answered after answer) :
    after.Sound :=
  (leader_turn sound leads here advances led threads flights tokens opened time stands answers).sound sound maps.1 maps.2 runs

theorem stands_leading (sound : state.Sound) {call : Call} (engaged : (state.threads thread).engaged = some (call, some number))
    (leads : (state.threads thread).leads = some number) (here : state.flights number = some flight)
    (advances : flight.Advances later) {after : State V E} (found : after.flights number = some later)
    (invalidations : after.invalidations = state.invalidations) (time : after.time = state.time + 1)
    (still : next.engaged = some (call, some number)) (stage : next.Stage later) : Stands after thread next := by
  obtain ⟨mine, there, leader, -⟩ := (sound.threads thread).leader leads
  rw [here] at there
  cases there
  obtain ⟨same, alsoHere, key, fresh⟩ := (sound.threads thread).flight engaged
  rw [here] at alsoHere
  cases alsoHere
  constructor
  · intro other number same
    rw [still] at same
    cases same
    rw [time]
    exact Nat.lt_succ_of_lt ((sound.threads thread).begun engaged)
  · intro other number same
    rw [still] at same
    cases same
    rw [invalidations]
    exact ⟨later, found, advances.key.trans key, advances.fresh fresh⟩
  · intro other leading
    obtain ⟨_, same⟩ := Phase.leads_engaged leading
    rw [still] at same
    cases same
    exact ⟨later, found, advances.leader.trans leader, stage⟩

end Leader

section Leading
variable {call : Call} {number : ℕ} {flight : Flight V E}

theorem stage_of (sound : state.Sound) (leads : (state.threads thread).leads = some number)
    (here : state.flights number = some flight) : (state.threads thread).Stage flight := by
  obtain ⟨mine, there, -, stage⟩ := (sound.threads thread).leader leads
  rw [here] at there
  cases there
  exact stage

theorem compute_sound (sound : state.Sound) {startedAt : ℚ} (stands : state.threads thread = .computing call number startedAt)
    (here : state.flights number = some flight) (outcome : Except E (ℚ × V)) :
    (((state.setFlight number { flight with computed := some (outcome.map Prod.snd) }).stand thread
      (.computed call number startedAt outcome)).tick state.time).Sound := by
  have leads : (state.threads thread).leads = some number := by rw [stands]; rfl
  have engaged : (state.threads thread).engaged = some (call, some number) := by rw [stands]; rfl
  obtain ⟨fresh, unpublished, undone⟩ : flight.computed = none ∧ flight.outcome = none ∧ flight.done = false := by
    have stage := stage_of sound leads here
    rw [stands] at stage
    exact stage
  have advances : flight.Advances { flight with computed := some (outcome.map Prod.snd) } := by
    refine ⟨rfl, rfl, rfl, rfl, rfl, ?_, ?_⟩
    · intro _ known
      rw [fresh] at known
      cases known
    · intro _ known
      rw [show _ = none from unpublished] at known
      cases known
  refine leader_sound sound leads here advances (.inr rfl) rfl rfl ⟨rfl, rfl, rfl⟩ ⟨rfl, rfl⟩ rfl rfl ?_ ?_ fun _ inside => .inl inside
  · rw [stands]
    rfl
  · exact stands_leading sound engaged leads here advances (Function.update_self ..) rfl rfl rfl ⟨rfl, unpublished, undone⟩

theorem publish_sound (sound : state.Sound) {outcome : Except E V} (stands : state.threads thread = .settled call number outcome)
    (here : state.flights number = some flight) :
    (((state.setFlight number { flight with outcome := some outcome }).stand thread
      (.published call number outcome)).tick state.time).Sound := by
  have leads : (state.threads thread).leads = some number := by rw [stands]; rfl
  have engaged : (state.threads thread).engaged = some (call, some number) := by rw [stands]; rfl
  obtain ⟨computed, -, undone⟩ : flight.computed = some outcome ∧ flight.outcome = none ∧ flight.done = false := by
    have stage := stage_of sound leads here
    rw [stands] at stage
    exact stage
  have advances : flight.Advances { flight with outcome := some outcome } := by
    refine ⟨rfl, rfl, rfl, rfl, rfl, id, ?_⟩
    rintro _ ⟨⟩
    exact computed
  refine leader_sound sound leads here advances (.inr rfl) rfl rfl ⟨rfl, rfl, rfl⟩ ⟨rfl, rfl⟩ rfl rfl ?_ ?_ fun _ inside => .inl inside
  · rw [stands]
    rfl
  · exact stands_leading sound engaged leads here advances (Function.update_self ..) rfl rfl rfl ⟨computed, rfl, undone⟩

theorem announce_sound (sound : state.Sound) {outcome : Except E V} (stands : state.threads thread = .published call number outcome)
    (here : state.flights number = some flight) :
    (((state.setFlight number { flight with done := true }).finish thread ⟨call, number, outcome⟩).tick state.time).Sound := by
  have leads : (state.threads thread).leads = some number := by rw [stands]; rfl
  obtain ⟨computed, published, -⟩ : flight.computed = some outcome ∧ flight.outcome = some outcome ∧ flight.done = false := by
    have stage := stage_of sound leads here
    rw [stands] at stage
    exact stage
  have advances : flight.Advances { flight with done := true } :=
    ⟨rfl, rfl, rfl, rfl, rfl, id, (sound.flights here).published⟩
  have done : flight.outcome ≠ none := by
    rw [published]
    exact Option.some_ne_none _
  refine leader_sound sound leads here advances (.inl ⟨rfl, done⟩) rfl rfl ⟨rfl, rfl, rfl⟩ ⟨rfl, rfl⟩ rfl rfl ?_ (stands_idle _ _) ?_
  · rw [stands]
    rfl
  · intro answer inside
    obtain before | new := List.mem_append.mp inside
    · exact .inl before
    · right
      rw [List.mem_singleton.mp new]
      obtain ⟨same, there, key, fresh⟩ := (sound.threads thread).flight (by rw [stands]; rfl)
      rw [here] at there
      cases there
      have begun := (sound.threads thread).begun (by rw [stands]; rfl)
      exact ⟨Nat.lt_succ_of_lt begun, _, Function.update_self .., key, computed, advances.fresh fresh⟩

theorem land_of_other {key other : String} (differs : state.inflight other ≠ some number) :
    (state.land key number).inflight other = state.inflight other := by
  unfold State.land
  by_cases mine : state.inflight key = some number
  · have apart : other ≠ key := by
      rintro rfl
      exact differs mine
    simp only [if_pos mine, Function.update_of_ne apart]
  · simp only [if_neg mine]

theorem settled_sound (sound : state.Sound) {startedAt : ℚ} {outcome : Except E (ℚ × V)}
    (stands : state.threads thread = .computed call number startedAt outcome) (here : state.flights number = some flight)
    {after : State V E} (threads : after.threads = Function.update state.threads thread (.settled call number (outcome.map Prod.snd)))
    (flights : after.flights = state.flights) (inflight : after.inflight = (state.land call.key number).inflight)
    (tokens : after.epoch = state.epoch ∧ after.generations = state.generations ∧ after.invalidations = state.invalidations)
    (opened : after.opened = state.opened) (time : after.time = state.time + 1) (answers : after.answers = state.answers)
    (entries : ∀ {key entry}, after.entries key = some entry → state.entries key = some entry ∨
      key = call.key ∧ entry.flight = number ∧ state.Current flight ∧ flight.computed = some (.ok entry.value)) : after.Sound := by
  have leads : (state.threads thread).leads = some number := by rw [stands]; rfl
  have engaged : (state.threads thread).engaged = some (call, some number) := by rw [stands]; rfl
  obtain ⟨computed, unpublished, undone⟩ : flight.computed = some (outcome.map Prod.snd) ∧ flight.outcome = none ∧
      flight.done = false := by
    have stage := stage_of sound leads here
    rw [stands] at stage
    exact stage
  obtain ⟨key, leader⟩ : flight.key = call.key ∧ flight.leader = thread := by
    obtain ⟨same, there, key, -⟩ := (sound.threads thread).flight engaged
    obtain ⟨mine, alsoThere, leader, -⟩ := (sound.threads thread).leader leads
    rw [here] at there alsoThere
    cases there
    cases alsoThere
    exact ⟨key, leader⟩
  have advances := advances_refl sound here
  have unmoved : after.flights = Function.update state.flights number (some flight) := by
    rw [flights, ← here, Function.update_eq_self]
  have turn : Turn state after thread (.settled call number (outcome.map Prod.snd)) := by
    apply leader_turn sound leads here advances (.inr rfl) threads unmoved tokens opened time
    · exact stands_leading sound engaged leads here advances (flights ▸ here) tokens.2.2 time rfl ⟨computed, unpublished, undone⟩
    · rw [answers]
      exact fun _ inside => .inl inside
  have current : ∀ other : Flight V E, after.Current other ↔ state.Current other := by
    intro other
    unfold State.Current
    rw [tokens.1, tokens.2.1]
  have elsewhere : ∀ {other : ℕ}, other ≠ thread → after.threads other = state.threads other := by
    intro other apart
    rw [threads, Function.update_of_ne apart]
  constructor
  · exact turn.flightSound sound
  · rw [tokens.2.2, time]
    exact fun note inside => Nat.lt_succ_of_lt (sound.notes note inside)
  · exact turn.threadStands sound
  · intro name other inside
    have apart : state.inflight name ≠ some number := by
      intro landed
      obtain ⟨found, there, sameKey, -⟩ := sound.inflight landed
      rw [here] at there
      cases there
      rw [inflight, ← sameKey, key] at inside
      rw [← sameKey, key] at landed
      simp only [State.land, if_pos landed, Function.update_self, reduceCtorEq] at inside
    rw [inflight, land_of_other apart] at inside
    obtain ⟨found, there, sameKey, isCurrent, running⟩ := sound.inflight inside
    have other : found.leader ≠ thread := by
      intro mine
      rw [mine] at running
      have same := (Phase.leads_of_runs running).symm.trans leads
      rw [inside] at apart
      exact apart same
    rw [flights]
    refine ⟨found, there, sameKey, (current found).mpr isCurrent, ?_⟩
    rw [elsewhere other]
    exact running
  · intro other moved found running there isCurrent
    have apart : other ≠ thread := by
      rintro rfl
      rw [threads, Function.update_self] at running
      cases running
    rw [elsewhere apart] at running
    rw [flights] at there
    have inside := sound.running running there ((current found).mp isCurrent)
    rw [inflight, land_of_other]
    · exact inside
    · rw [inside]
      rintro ⟨⟩
      obtain ⟨mine, alsoThere, otherLeads, -⟩ := (sound.threads other).leader (Phase.leads_of_runs running)
      rw [here] at alsoThere
      cases alsoThere
      exact apart (otherLeads.symm.trans leader)
  · intro name entry inside
    rw [flights]
    obtain before | ⟨rfl, rfl, isCurrent, value⟩ := entries inside
    · obtain ⟨found, there, sameKey, isCurrent, value⟩ := sound.entries before
      exact ⟨found, there, sameKey, (current found).mpr isCurrent, value⟩
    · exact ⟨flight, here, key, (current flight).mpr isCurrent, value⟩
  · exact turn.answered sound

theorem settle_sound (sound : state.Sound) {startedAt : ℚ} {outcome : Except E (ℚ × V)}
    (stands : state.threads thread = .computed call number startedAt outcome) (here : state.flights number = some flight) :
    ((state.settle thread call number flight startedAt outcome).tick state.time).Sound := by
  cases outcome with
  | error error =>
    exact settled_sound sound stands here rfl rfl rfl ⟨rfl, rfl, rfl⟩ rfl rfl rfl fun inside => .inl inside
  | ok result =>
    refine settled_sound sound stands here rfl rfl rfl ⟨rfl, rfl, rfl⟩ rfl rfl rfl ?_
    intro name entry inside
    have leads : (state.threads thread).leads = some number := by rw [stands]; rfl
    have computed : flight.computed = some (.ok result.2) := by
      have stage := stage_of sound leads here
      rw [stands] at stage
      exact stage.1
    obtain ⟨same, there, key, -⟩ := (sound.threads thread).flight (by rw [stands]; rfl : _ = some (call, some number))
    rw [here] at there
    cases there
    change (if _ then _ else state.entries) name = some entry at inside
    split at inside
    · next tokens =>
      by_cases mine : name = call.key
      · rw [mine, Function.update_self] at inside
        cases inside
        exact .inr ⟨mine, rfl, ⟨tokens.1, key ▸ tokens.2⟩, computed⟩
      · rw [Function.update_of_ne mine] at inside
        exact .inl inside
    · exact .inl inside

end Leading

section Registering
variable {call : Call} {now startedAt : ℚ}

theorem lookup_lead (found : state.lookup call.key now = .lead) {number : ℕ} {flight : Flight V E}
    (held : state.inflight call.key = some number) (here : state.flights number = some flight) (key : flight.key = call.key) :
    ¬ state.Current flight := by
  unfold State.lookup at found
  split at found
  · cases found
  · rw [held] at found
    simp only [here] at found
    split at found
    · cases found
    · next other => exact fun current => other ⟨current.1, key ▸ current.2⟩

theorem registered_sound (sound : state.Sound) (stands : state.threads thread = .began call)
    (found : state.lookup call.key now = .lead) {after : State V E}
    (threads : after.threads = Function.update state.threads thread (.computing call state.opened startedAt))
    (flights : after.flights = Function.update state.flights state.opened
      (some ⟨call.key, state.epoch, state.generations call.key, none, false, thread, state.time, none⟩))
    (inflight : after.inflight = Function.update state.inflight call.key (some state.opened))
    (tokens : after.epoch = state.epoch ∧ after.generations = state.generations ∧ after.invalidations = state.invalidations)
    (opened : after.opened = state.opened + 1) (time : after.time = state.time + 1)
    (kept : after.entries = state.entries ∧ after.answers = state.answers) : after.Sound := by
  have leads : (state.threads thread).leads = none := by rw [stands]; rfl
  have begun : call.begun < state.time := (sound.threads thread).begun (by rw [stands]; rfl)
  have still : ∀ {number : ℕ} {flight : Flight V E}, state.flights number = some flight → after.flights number = some flight := by
    intro number flight here
    rw [flights, Function.update_of_ne (sound.flights here).below.ne]
    exact here
  have current : ∀ flight : Flight V E, after.Current flight ↔ state.Current flight := by
    intro flight
    unfold State.Current
    rw [tokens.1, tokens.2.1]
  have elsewhere : ∀ {other : ℕ}, other ≠ thread → after.threads other = state.threads other := by
    intro other apart
    rw [threads, Function.update_of_ne apart]
  have own : after.threads thread = .computing call state.opened startedAt := by rw [threads, Function.update_self]
  have new : after.flights state.opened =
      some ⟨call.key, state.epoch, state.generations call.key, none, false, thread, state.time, none⟩ := by
    rw [flights, Function.update_self]
  constructor
  · intro number flight here
    by_cases fresh : number = state.opened
    · rw [fresh, new] at here
      cases here
      constructor
      · rw [opened, fresh]
        exact Nat.lt_succ_self _
      · rw [time]
        exact Nat.lt_succ_self _
      · rw [tokens.1]
      · rw [tokens.2.1]
      · rw [current, tokens.2.2]
        refine iff_of_true ⟨rfl, rfl⟩ ?_
        rintro ⟨note, inside, -, after⟩
        exact absurd (sound.notes note inside) (not_lt.mpr after)
      · intro _ none
        cases none
      · right
        rw [own, fresh]
        rfl
    · rw [flights, Function.update_of_ne fresh] at here
      have old := sound.flights here
      constructor
      · rw [opened]
        exact Nat.lt_succ_of_lt old.below
      · rw [time]
        exact Nat.lt_succ_of_lt old.started
      · rw [tokens.1]
        exact old.epoch
      · rw [tokens.2.1]
        exact old.generation
      · rw [current, tokens.2.2]
        exact old.current
      · exact old.published
      · by_cases mine : flight.leader = thread
        · exact .inl (landed sound leads here mine)
        · rw [elsewhere mine]
          exact old.attended
  · rw [tokens.2.2, time]
    exact fun note inside => Nat.lt_succ_of_lt (sound.notes note inside)
  · intro other
    by_cases mine : other = thread
    · rw [mine, own]
      constructor
      · rintro _ _ ⟨⟩
        rw [time]
        exact Nat.lt_succ_of_lt begun
      · rintro _ _ ⟨⟩
        rw [tokens.2.2]
        exact ⟨_, new, rfl, fun note inside _ _ => sound.notes note inside⟩
      · rintro _ ⟨⟩
        exact ⟨_, new, rfl, rfl, rfl, rfl⟩
    · rw [elsewhere mine]
      obtain ⟨begun, flight, leader⟩ := sound.threads other
      constructor
      · intro call number engaged
        rw [time]
        exact Nat.lt_succ_of_lt (begun engaged)
      · intro call number engaged
        obtain ⟨flight, here, same⟩ := flight engaged
        rw [tokens.2.2]
        exact ⟨flight, still here, same⟩
      · intro number leading
        obtain ⟨flight, here, same⟩ := leader leading
        exact ⟨flight, still here, same⟩
  · intro key number inside
    rw [inflight] at inside
    by_cases mine : key = call.key
    · rw [mine, Function.update_self] at inside
      cases inside
      refine ⟨_, new, mine.symm, (current _).mpr ⟨rfl, rfl⟩, ?_⟩
      rw [own]
      rfl
    · rw [Function.update_of_ne mine] at inside
      obtain ⟨flight, here, sameKey, isCurrent, running⟩ := sound.inflight inside
      have apart : flight.leader ≠ thread := by
        intro same
        rw [same, runs_of_leads_none leads] at running
        cases running
      refine ⟨flight, still here, sameKey, (current flight).mpr isCurrent, ?_⟩
      rw [elsewhere apart]
      exact running
  · intro other number flight running here isCurrent
    rw [inflight]
    by_cases mine : other = thread
    · rw [mine, own] at running
      cases running
      rw [new] at here
      cases here
      exact Function.update_self ..
    · rw [elsewhere mine] at running
      obtain ⟨same, there, -⟩ := (sound.threads other).leader (Phase.leads_of_runs running)
      rw [still there] at here
      cases here
      have held := sound.running running there ((current _).mp isCurrent)
      have apart : flight.key ≠ call.key := by
        intro sameKey
        rw [sameKey] at held
        exact lookup_lead found held there sameKey ((current _).mp isCurrent)
      rw [Function.update_of_ne apart]
      exact held
  · intro key entry inside
    rw [kept.1] at inside
    obtain ⟨flight, here, sameKey, isCurrent, computed⟩ := sound.entries inside
    exact ⟨flight, still here, sameKey, (current flight).mpr isCurrent, computed⟩
  · intro answer inside
    rw [kept.2] at inside
    obtain ⟨begun, flight, here, same⟩ := sound.answers answer inside
    constructor
    · rw [time]
      exact Nat.lt_succ_of_lt begun
    · rw [tokens.2.2]
      exact ⟨flight, still here, same⟩

theorem lead_sound (sound : state.Sound) (stands : state.threads thread = .began call)
    (found : state.lookup call.key now = .lead) : ((state.enter thread call now startedAt).tick state.time).Sound := by
  rw [State.enter, found]
  exact registered_sound sound stands found rfl rfl rfl ⟨rfl, rfl, rfl⟩ rfl rfl ⟨rfl, rfl⟩

theorem fresh_noted {call : Call} {flight : Flight V E} {which : Option String} (begun : call.begun < state.time)
    (fresh : Fresh state.invalidations call flight) : Fresh (state.invalidations ++ [(which, state.time)]) call flight := by
  intro note inside covers before
  obtain old | new := List.mem_append.mp inside
  · exact fresh note old covers before
  · rw [List.mem_singleton.mp new] at before
    exact absurd (before.trans begun) (lt_irrefl _)

theorem invalidated_sound (sound : state.Sound) (which : Option String) {after : State V E}
    (threads : after.threads = state.threads) (flights : after.flights = state.flights) (opened : after.opened = state.opened)
    (time : after.time = state.time + 1) (answers : after.answers = state.answers)
    (invalidations : after.invalidations = state.invalidations ++ [(which, state.time)])
    (covered : ∀ {key}, Covers which key → after.inflight key = none ∧ after.entries key = none ∧
      (state.epoch < after.epoch ∨ state.generations key < after.generations key))
    (uncovered : ∀ {key}, ¬ Covers which key → after.inflight key = state.inflight key ∧ after.entries key = state.entries key ∧
      after.epoch = state.epoch ∧ after.generations key = state.generations key)
    (epoch : state.epoch ≤ after.epoch) (generations : ∀ key, state.generations key ≤ after.generations key) : after.Sound := by
  have current : ∀ {number : ℕ} {flight : Flight V E}, state.flights number = some flight →
      (after.Current flight ↔ ¬ Covers which flight.key ∧ state.Current flight) := by
    intro number flight here
    have old := sound.flights here
    constructor
    · rintro ⟨sameEpoch, sameGeneration⟩
      have outside : ¬ Covers which flight.key := by
        intro inside
        obtain newer | newer := (covered inside).2.2
        · exact absurd (sameEpoch ▸ old.epoch) (not_le.mpr newer)
        · exact absurd (sameGeneration ▸ old.generation) (not_le.mpr newer)
      obtain ⟨-, -, epochKept, generationKept⟩ := uncovered outside
      exact ⟨outside, sameEpoch.trans epochKept, sameGeneration.trans generationKept⟩
    · rintro ⟨outside, sameEpoch, sameGeneration⟩
      obtain ⟨-, -, epochKept, generationKept⟩ := uncovered outside
      exact ⟨sameEpoch.trans epochKept.symm, sameGeneration.trans generationKept.symm⟩
  constructor
  · intro number flight here
    rw [flights] at here
    have old := sound.flights here
    constructor
    · exact opened ▸ old.below
    · rw [time]
      exact Nat.lt_succ_of_lt old.started
    · exact old.epoch.trans epoch
    · exact old.generation.trans (generations _)
    · rw [current here, old.current, invalidations]
      constructor
      · rintro ⟨outside, unsuperseded⟩ ⟨note, inside, covers, after⟩
        obtain before | new := List.mem_append.mp inside
        · exact unsuperseded ⟨note, before, covers, after⟩
        · rw [List.mem_singleton.mp new] at covers
          exact outside covers
      · intro unsuperseded
        constructor
        · intro covers
          exact unsuperseded ⟨(which, state.time), by simp, covers, old.started.le⟩
        · rintro ⟨note, inside, covers, after⟩
          exact unsuperseded ⟨note, List.mem_append_left _ inside, covers, after⟩
    · exact old.published
    · rw [threads]
      exact old.attended
  · rw [invalidations, time]
    intro note inside
    obtain before | new := List.mem_append.mp inside
    · exact Nat.lt_succ_of_lt (sound.notes note before)
    · rw [List.mem_singleton.mp new]
      exact Nat.lt_succ_self _
  · intro thread
    rw [threads]
    obtain ⟨begun, flight, leader⟩ := sound.threads thread
    constructor
    · intro call number engaged
      rw [time]
      exact Nat.lt_succ_of_lt (begun engaged)
    · intro call number engaged
      obtain ⟨flight, here, key, fresh⟩ := flight engaged
      rw [flights, invalidations]
      exact ⟨flight, here, key, fresh_noted (begun engaged) fresh⟩
    · rw [flights]
      exact leader
  · intro key number inside
    by_cases covers : Covers which key
    · rw [(covered covers).1] at inside
      cases inside
    · rw [(uncovered covers).1] at inside
      obtain ⟨flight, here, sameKey, isCurrent, running⟩ := sound.inflight inside
      rw [flights, threads]
      exact ⟨flight, here, sameKey, (current here).mpr ⟨sameKey ▸ covers, isCurrent⟩, running⟩
  · intro thread number flight running here isCurrent
    rw [flights] at here
    rw [threads] at running
    obtain ⟨outside, before⟩ := (current here).mp isCurrent
    rw [(uncovered outside).1]
    exact sound.running running here before
  · intro key entry inside
    by_cases covers : Covers which key
    · rw [(covered covers).2.1] at inside
      cases inside
    · rw [(uncovered covers).2.1] at inside
      obtain ⟨flight, here, sameKey, isCurrent, computed⟩ := sound.entries inside
      rw [flights]
      exact ⟨flight, here, sameKey, (current here).mpr ⟨sameKey ▸ covers, isCurrent⟩, computed⟩
  · intro answer inside
    rw [answers] at inside
    obtain ⟨begun, flight, here, key, computed, fresh⟩ := sound.answers answer inside
    constructor
    · rw [time]
      exact Nat.lt_succ_of_lt begun
    · rw [flights, invalidations]
      exact ⟨flight, here, key, computed, fresh_noted begun fresh⟩

theorem invalidate_sound (sound : state.Sound) (which : Option String) : ((state.invalidate which).tick state.time).Sound := by
  cases which with
  | none =>
    refine invalidated_sound sound none rfl rfl rfl rfl rfl rfl ?_ ?_ (Nat.le_succ _) fun _ => le_refl _
    · intro key _
      exact ⟨rfl, rfl, .inl (Nat.lt_succ_self _)⟩
    · intro key outside
      exact absurd (.inl rfl) outside
  | some name =>
    refine invalidated_sound sound (some name) rfl rfl rfl rfl rfl rfl ?_ ?_ (le_refl _) ?_
    · rintro key (impossible | same)
      · cases impossible
      · cases same
        refine ⟨Function.update_self .., Function.update_self .., .inr ?_⟩
        change _ < Function.update state.generations name _ name
        rw [Function.update_self]
        exact Nat.lt_succ_self _
    · intro key outside
      have apart : key ≠ name := by
        rintro rfl
        exact outside (.inr rfl)
      exact ⟨Function.update_of_ne apart .., Function.update_of_ne apart .., rfl, Function.update_of_ne apart ..⟩
    · intro key
      change _ ≤ Function.update state.generations name _ key
      by_cases same : key = name
      · rw [same, Function.update_self]
        exact Nat.le_succ _
      · rw [Function.update_of_ne same]

end Registering

theorem act_sound (sound : state.Sound) {next : State V E} {action : Action V E} (acts : state.act action = some next) : next.Sound := by
  obtain ⟨after, stepped, rfl⟩ := Option.map_eq_some_iff.mp acts
  cases action with
  | call thread key =>
    simp only [State.step] at stepped
    split at stepped
    · next stands =>
      cases stepped
      exact call_sound sound stands key
    · cases stepped
  | enter thread now startedAt =>
    simp only [State.step] at stepped
    split at stepped
    · next call stands =>
      cases stepped
      cases found : state.lookup call.key now with
      | hit entry => exact hit_sound sound stands found
      | join flight => exact join_sound sound stands found
      | lead => exact lead_sound sound stands found
    · cases stepped
  | compute thread outcome =>
    simp only [State.step] at stepped
    split at stepped
    · next call number startedAt stands =>
      obtain ⟨flight, here, rfl⟩ := Option.map_eq_some_iff.mp stepped
      exact compute_sound sound stands here outcome
    · cases stepped
  | settle thread =>
    simp only [State.step] at stepped
    split at stepped
    · next call number startedAt outcome stands =>
      obtain ⟨flight, here, rfl⟩ := Option.map_eq_some_iff.mp stepped
      exact settle_sound sound stands here
    · cases stepped
  | publish thread =>
    simp only [State.step] at stepped
    split at stepped
    · next call number outcome stands =>
      obtain ⟨flight, here, rfl⟩ := Option.map_eq_some_iff.mp stepped
      exact publish_sound sound stands here
    · cases stepped
  | announce thread =>
    simp only [State.step] at stepped
    split at stepped
    · next call number outcome stands =>
      obtain ⟨flight, here, rfl⟩ := Option.map_eq_some_iff.mp stepped
      exact announce_sound sound stands here
    · cases stepped
  | wake thread =>
    simp only [State.step] at stepped
    split at stepped
    · next call number stands =>
      obtain ⟨flight, here, woken⟩ := Option.bind_eq_some_iff.mp stepped
      split at woken
      · next outcome done published =>
        cases woken
        exact wake_sound sound stands here published
      · cases woken
    · cases stepped
  | invalidate key =>
    cases stepped
    exact invalidate_sound sound key

theorem reached_sound {state : State V E} (reached : Reached state) : state.Sound := by
  induction reached with
  | start =>
    constructor
    · intro _ _ here
      cases here
    · exact fun _ here => nomatch here
    · exact fun thread => stands_idle _ thread
    · intro _ _ here
      cases here
    · intro _ _ _ running
      cases running
    · intro _ _ here
      cases here
    · exact fun _ here => nomatch here
  | act before action acts ih => exact act_sound ih acts

end C3po.ReadCache
