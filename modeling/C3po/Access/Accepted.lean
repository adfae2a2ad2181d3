import Mathlib.Data.List.Count
import C3po.Access.Challenges

/-! An attempt is accepted once, in time, and on the newest challenge of its e-mail. -/

set_option autoImplicit false

namespace C3po.Access
open C3po.Library

/-- Every record keeps the rules, after those before it. -/
def Lawfully (settings : Settings) (history : List Record) : Prop :=
  ∀ before record after, history = before ++ record :: after → Lawful settings before record

/-- What holds of the store between any two steps. -/
structure Sound (settings : Settings) (state : State) : Prop where
  knows : ∀ call, Knows settings state (state.calls call)
  kept : ∀ id code, Record.stored id code ∈ state.history → ∃ current, state.codes.get? id = some current ∧ current.terms = code.terms
  source : ∀ id current, state.codes.get? id = some current → ∃ code, Record.stored id code ∈ state.history
  newest : ∀ id current, state.codes.get? id = some current → current.usedAt = none →
    ∀ earlier code later, state.history = earlier ++ .stored id code :: later → ∀ other newer, .stored other newer ∈ later → newer.email ≠ code.email
  counted : ∀ id current, state.codes.get? id = some current → evaluations state.history id = current.attempts
  unused : ∀ id current, state.codes.get? id = some current → current.usedAt = none →
    ∀ earlier instant, .attempted earlier .accepted instant ∈ state.history → earlier.challengeId ≠ id
  absent : ∀ id, state.codes.get? id = none → ∀ attempt outcome instant, .attempted attempt outcome instant ∈ state.history →
    outcome.evaluates = true → attempt.challengeId ≠ id
  failures : ∀ requestedIp since, recentFailures state.failures requestedIp since = failedSince state.history requestedIp since
  lawfully : Lawfully settings state.history

section
variable {settings : Settings} {backend : Backend} {state next : State}

theorem sound_initial (clock : Int) : Sound settings (State.initial clock) where
  knows _ := trivial
  kept _ _ member := nomatch member
  source _ _ found := nomatch found
  newest _ _ found := nomatch found
  counted _ _ found := nomatch found
  unused _ _ found := nomatch found
  absent _ _ _ _ _ member := nomatch member
  failures _ _ := rfl
  lawfully before record after same := by cases before <;> cases same

theorem lawfully_snoc {history : List Record} {record : Record} (lawfully : Lawfully settings history) (lawful : Lawful settings history record) :
    Lawfully settings (history ++ [record]) := by
  intro before other after same
  rcases snoc_split same with ⟨rfl, rfl, rfl⟩ | ⟨front, whole, rfl⟩
  · exact lawful
  · exact lawfully before other front whole

theorem knows_update {call : ℕ} {phase : Phase} (known : ∀ call, Knows settings state (state.calls call)) (later : Later state next)
    (calls : next.calls = Function.update state.calls call phase) (knows : Knows settings next phase) :
    ∀ call, Knows settings next (next.calls call) := by
  intro other
  rw [calls]
  by_cases own : other = call
  · rw [own, Function.update_self]
    exact knows
  · rw [Function.update_of_ne own]
    exact (known other).later later

theorem sound_quiet (sound : Sound settings state) {call : ℕ} {phase : Phase} (quiet : Quiet settings state next call phase) :
    Sound settings next := by
  have later : Later state next := ⟨quiet.clock ▸ Int.le_refl _, fun found => ⟨_, quiet.codes ▸ found, rfl⟩⟩
  constructor
  · exact knows_update sound.knows later quiet.calls (quiet.knows.later later)
  all_goals (try rw [quiet.history]); (try rw [quiet.codes]); (try rw [quiet.failures])
  · exact sound.kept
  · exact sound.source
  · exact sound.newest
  · exact sound.counted
  · exact sound.unused
  · exact sound.absent
  · exact sound.failures
  · exact sound.lawfully

theorem evaluations_stored (history : List Record) (id other : String) (code : LoginCode) :
    evaluations (history ++ [.stored other code]) id = evaluations history id := by
  unfold evaluations
  rw [List.countP_append]
  rfl

theorem failedSince_stored (history : List Record) (requestedIp id : String) (code : LoginCode) (since : Int) :
    failedSince (history ++ [.stored id code]) requestedIp since = failedSince history requestedIp since := by
  unfold failedSince
  rw [List.countP_append]
  rfl

theorem sound_stored (sound : Sound settings state) {call : ℕ} {email requestedIp : String} {now : Int} {method : Method} {answer : Answer}
    (stored : state.storeCode settings call email requestedIp now method answer = some next) : Sound settings next := by
  unfold State.storeCode at stored
  split at stored
  · cases stored
  rename_i fresh
  cases stored
  have absent : state.codes.get? answer.id = none := Dict.get?_of_not_mem fresh
  have later : Later state { state.finish call (.requested answer.id) with
      codes := createLoginCode state.codes answer.id (State.challengeOf settings email requestedIp now method answer.id answer.code)
      history := state.history ++ [.stored answer.id (State.challengeOf settings email requestedIp now method answer.id answer.code)] } := by
    refine ⟨Int.le_refl _, fun {id code} found => ?_⟩
    have apart : id ≠ answer.id := by
      rintro rfl
      rw [absent] at found
      cases found
    dsimp only
    rw [get?_createLoginCode, if_neg apart, found]
    exact ⟨_, rfl, terms_supersede _ _⟩
  constructor
  · exact knows_update sound.knows later rfl trivial
  · intro id code member
    rcases List.mem_append.mp member with old | new
    · obtain ⟨current, found, same⟩ := sound.kept id code old
      obtain ⟨after, foundAfter, kept⟩ := later.codes found
      exact ⟨after, foundAfter, kept.trans same⟩
    · cases List.mem_singleton.mp new
      dsimp only
      rw [get?_createLoginCode, if_pos rfl]
      exact ⟨_, rfl, rfl⟩
  · intro id current found
    dsimp only at found
    rw [get?_createLoginCode] at found
    split at found
    · rename_i own
      exact ⟨_, List.mem_append_right _ (by rw [own]; exact List.mem_singleton_self _)⟩
    · obtain ⟨old, foundOld, _⟩ := Option.map_eq_some_iff.mp found
      obtain ⟨code, member⟩ := sound.source id old foundOld
      exact ⟨code, List.mem_append_left _ member⟩
  · intro id current found unused earlier code after same other newer member
    dsimp only at found same
    rw [get?_createLoginCode] at found
    rcases snoc_split same with ⟨rfl, own, rfl⟩ | ⟨front, whole, rfl⟩
    · cases member
    · split at found
      · rename_i own
        -- a challenge stored now was never stored before
        have old : Record.stored id code ∈ state.history := by rw [whole]; simp
        obtain ⟨_, foundOld, _⟩ := sound.kept id code old
        rw [own, absent] at foundOld
        cases foundOld
      · obtain ⟨old, foundOld, rfl⟩ := Option.map_eq_some_iff.mp found
        obtain ⟨unusedOld, otherEmail⟩ := unused_supersede unused
        rcases List.mem_append.mp member with before | last
        · exact sound.newest id old foundOld unusedOld earlier code front whole other newer before
        · cases List.mem_singleton.mp last
          have listed : Record.stored id code ∈ state.history := by rw [whole]; simp
          obtain ⟨_, foundKept, terms⟩ := sound.kept id code listed
          rw [foundOld] at foundKept
          cases foundKept
          rw [← email_of_terms terms]
          exact fun same => otherEmail same.symm
  · intro id current found
    dsimp only at found ⊢
    rw [evaluations_stored]
    rw [get?_createLoginCode] at found
    split at found
    · rename_i own
      cases found
      refine List.countP_eq_zero.mpr fun record member => ?_
      cases record with
      | stored => exact Bool.false_ne_true
      | attempted attempt outcome instant =>
        intro counted
        simp only [Bool.and_eq_true, decide_eq_true_eq] at counted
        exact sound.absent id (own ▸ absent) attempt outcome instant member counted.2 counted.1
    · obtain ⟨old, foundOld, rfl⟩ := Option.map_eq_some_iff.mp found
      rw [sound.counted id old foundOld, attempts_supersede]
  · intro id current found unused earlier instant member
    dsimp only at found
    rcases List.mem_append.mp member with old | new
    · rw [get?_createLoginCode] at found
      split at found
      · rename_i own
        exact sound.absent id (own ▸ absent) earlier .accepted instant old rfl
      · obtain ⟨before, foundOld, rfl⟩ := Option.map_eq_some_iff.mp found
        exact sound.unused id before foundOld (unused_supersede unused).1 earlier instant old
    · cases List.mem_singleton.mp new
  · intro id missing attempt outcome instant member evaluates
    dsimp only at missing
    rw [get?_createLoginCode] at missing
    split at missing
    · cases missing
    · rcases List.mem_append.mp member with old | new
      · exact sound.absent id (Option.map_eq_none_iff.mp missing) attempt outcome instant old evaluates
      · cases List.mem_singleton.mp new
  · intro address since
    dsimp only
    rw [failedSince_stored]
    exact sound.failures address since
  · exact lawfully_snoc sound.lawfully trivial

inductive Claim (settings : Settings) (state : State) (attempt : Attempt) : Outcome → Dict String LoginCode → List Failure → Prop
  | rateLimited : Claim settings state attempt .rateLimited state.codes state.failures
  | inactive (failure : Failure) (address : failure.requestedIp = attempt.requestedIp) (noted : failure.occurredAt = state.clock) :
      Claim settings state attempt .inactive state.codes (state.failures ++ [failure])
  | failed (code : LoginCode) (found : state.codes.get? attempt.challengeId = some code) (active : code.active attempt.now = true)
      (budget : recentFailures state.failures attempt.requestedIp (attempt.now - minutes settings.authRateLimitMinutes) <
        settings.authVerifyFailureLimitPerIp)
      (failure : Failure) (address : failure.requestedIp = attempt.requestedIp) (noted : failure.occurredAt = state.clock) :
      Claim settings state attempt .failed (state.codes.insert attempt.challengeId { code with attempts := code.attempts + 1 })
        (state.failures ++ [failure])
  | accepted (code : LoginCode) (found : state.codes.get? attempt.challengeId = some code) (active : code.active attempt.now = true)
      (budget : recentFailures state.failures attempt.requestedIp (attempt.now - minutes settings.authRateLimitMinutes) <
        settings.authVerifyFailureLimitPerIp)
      (valid : attempt.valid = true) (user : attempt.userActive = true) :
      Claim settings state attempt .accepted
        (state.codes.insert attempt.challengeId { code with attempts := code.attempts + 1, usedAt := some attempt.now }) state.failures

theorem claim_spec (attempt : Attempt) : ∀ outcome codes failures,
    claimLoginAttempt state.codes state.failures attempt.challengeId (attempt.valid && attempt.userActive) attempt.requestedIp attempt.now
      (attempt.now - minutes settings.authRateLimitMinutes) settings.authVerifyFailureLimitPerIp state.clock = (outcome, codes, failures) →
    Claim settings state attempt outcome codes failures := by
  intro outcome codes failures claimed
  unfold claimLoginAttempt at claimed
  split at claimed
  · cases claimed
    exact .rateLimited
  · rename_i spare
    have budget := Nat.lt_of_not_le spare
    split at claimed
    · cases claimed
      exact .inactive _ rfl rfl
    · rename_i code found
      split at claimed
      · rename_i active
        split at claimed
        · rename_i valid
          cases claimed
          have both := Bool.and_eq_true_iff.mp valid
          exact .accepted code found active budget both.1 both.2
        · cases claimed
          exact .failed code found active budget _ rfl rfl
      · cases claimed
        exact .inactive _ rfl rfl

theorem recentFailures_snoc (failures : List Failure) (failure : Failure) (address : String) (since : Int) :
    recentFailures (failures ++ [failure]) address since =
      recentFailures failures address since + if failure.requestedIp = address ∧ since ≤ failure.occurredAt then 1 else 0 := by
  unfold recentFailures
  rw [List.countP_append, List.countP_singleton]
  simp only [decide_eq_true_eq]

theorem failedSince_attempted (history : List Record) (attempt : Attempt) (outcome : Outcome) (clock : Int) (address : String) (since : Int) :
    failedSince (history ++ [.attempted attempt outcome clock]) address since =
      failedSince history address since + if attempt.requestedIp = address ∧ since ≤ clock ∧ outcome.fails = true then 1 else 0 := by
  unfold failedSince
  rw [List.countP_append, List.countP_singleton]
  simp only [Bool.and_eq_true, decide_eq_true_eq, and_assoc]

theorem evaluations_attempted (history : List Record) (attempt : Attempt) (outcome : Outcome) (clock : Int) (id : String) :
    evaluations (history ++ [.attempted attempt outcome clock]) id =
      evaluations history id + if attempt.challengeId = id ∧ outcome.evaluates = true then 1 else 0 := by
  unfold evaluations
  rw [List.countP_append, List.countP_singleton]
  simp only [Bool.and_eq_true, decide_eq_true_eq]

theorem failedSince_mono (history : List Record) (address : String) {since later : Int} (order : since ≤ later) :
    failedSince history address later ≤ failedSince history address since := by
  refine List.countP_mono_left fun record _ recent => ?_
  cases record with
  | stored => exact recent
  | attempted attempt outcome clock =>
    simp only [Bool.and_eq_true, decide_eq_true_eq] at recent ⊢
    exact ⟨⟨recent.1.1, Int.le_trans order recent.1.2⟩, recent.2⟩

theorem active_iff {code : LoginCode} {now : Int} :
    code.active now = true ↔ code.usedAt = none ∧ now < code.expiresAt ∧ code.attempts < code.maxAttempts := by
  simp [LoginCode.active]

theorem sound_unevaluated (sound : Sound settings state) {call : ℕ} {ending : Ending} {attempt : Attempt} {outcome : Outcome}
    {failures : List Failure} (turned : outcome.evaluates = false)
    (noted : ∀ address since, recentFailures failures address since = recentFailures state.failures address since +
      if attempt.requestedIp = address ∧ since ≤ state.clock ∧ outcome.fails = true then 1 else 0) :
    Sound settings { state.finish call ending with
      failures := failures, history := state.history ++ [.attempted attempt outcome state.clock] } := by
  have later : Later state { state.finish call ending with
      failures := failures, history := state.history ++ [.attempted attempt outcome state.clock] } :=
    ⟨Int.le_refl _, fun found => ⟨_, found, rfl⟩⟩
  have stored : ∀ {id code}, Record.stored id code ∈ state.history ++ [.attempted attempt outcome state.clock] →
      Record.stored id code ∈ state.history := fun member =>
    (List.mem_append.mp member).resolve_right fun new => nomatch List.mem_singleton.mp new
  constructor
  · exact knows_update sound.knows later rfl trivial
  · exact fun id code member => sound.kept id code (stored member)
  · intro id current found
    obtain ⟨code, member⟩ := sound.source id current found
    exact ⟨code, List.mem_append_left _ member⟩
  · intro id current found unused earlier code after same other newer member
    rcases snoc_split same with ⟨_, record, _⟩ | ⟨front, whole, rfl⟩
    · cases record
    · rcases List.mem_append.mp member with old | new
      · exact sound.newest id current found unused earlier code front whole other newer old
      · cases List.mem_singleton.mp new
  · intro id current found
    dsimp only
    rw [evaluations_attempted, if_neg (fun counted => by simp [turned] at counted), Nat.add_zero]
    exact sound.counted id current found
  · intro id current found unused earlier instant member
    rcases List.mem_append.mp member with old | new
    · exact sound.unused id current found unused earlier instant old
    · cases List.mem_singleton.mp new
      cases turned
  · intro id missing other given instant member evaluates
    rcases List.mem_append.mp member with old | new
    · exact sound.absent id missing other given instant old evaluates
    · cases List.mem_singleton.mp new
      rw [turned] at evaluates
      cases evaluates
  · intro address since
    dsimp only
    rw [noted, failedSince_attempted, sound.failures]
  · refine lawfully_snoc sound.lawfully ⟨fun evaluates => ?_, fun accepted => ?_⟩
    · rw [turned] at evaluates
      cases evaluates
    · rw [accepted] at turned
      cases turned

theorem sound_evaluated (sound : Sound settings state) {call : ℕ} {ending : Ending} {attempt : Attempt} {outcome : Outcome}
    {failures : List Failure} {code : LoginCode} {used : Option Int} (counts : outcome.evaluates = true)
    (found : state.codes.get? attempt.challengeId = some code) (spent : outcome = .accepted → used ≠ none)
    (kept : used = none → code.usedAt = none)
    (noted : ∀ address since, recentFailures failures address since = recentFailures state.failures address since +
      if attempt.requestedIp = address ∧ since ≤ state.clock ∧ outcome.fails = true then 1 else 0)
    (lawful : Lawful settings state.history (.attempted attempt outcome state.clock)) :
    Sound settings { state.finish call ending with
      codes := state.codes.insert attempt.challengeId { code with attempts := code.attempts + 1, usedAt := used }
      failures := failures, history := state.history ++ [.attempted attempt outcome state.clock] } := by
  have later : Later state { state.finish call ending with
      codes := state.codes.insert attempt.challengeId { code with attempts := code.attempts + 1, usedAt := used }
      failures := failures, history := state.history ++ [.attempted attempt outcome state.clock] } := by
    refine ⟨Int.le_refl _, fun {id old} foundOld => ?_⟩
    dsimp only
    rw [Dict.get?_insert]
    split
    · rename_i own
      rw [own, found] at foundOld
      cases foundOld
      exact ⟨_, rfl, rfl⟩
    · exact ⟨old, foundOld, rfl⟩
  have stored : ∀ {id code}, Record.stored id code ∈ state.history ++ [.attempted attempt outcome state.clock] →
      Record.stored id code ∈ state.history := fun member =>
    (List.mem_append.mp member).resolve_right fun new => by cases List.mem_singleton.mp new
  constructor
  · exact knows_update sound.knows later rfl trivial
  · intro id other member
    obtain ⟨current, foundCurrent, same⟩ := sound.kept id other (stored member)
    obtain ⟨after, foundAfter, terms⟩ := later.codes foundCurrent
    exact ⟨after, foundAfter, terms.trans same⟩
  · intro id current foundCurrent
    dsimp only at foundCurrent
    rw [Dict.get?_insert] at foundCurrent
    have before : ∃ old, state.codes.get? id = some old := by
      split at foundCurrent
      · rename_i own
        exact ⟨code, own ▸ found⟩
      · exact ⟨current, foundCurrent⟩
    obtain ⟨old, foundOld⟩ := before
    obtain ⟨origin, member⟩ := sound.source id old foundOld
    exact ⟨origin, List.mem_append_left _ member⟩
  · intro id current foundCurrent unused earlier origin after same other newer member
    dsimp only at foundCurrent
    rw [Dict.get?_insert] at foundCurrent
    have before : ∃ old, state.codes.get? id = some old ∧ old.usedAt = none := by
      split at foundCurrent
      · rename_i own
        cases foundCurrent
        exact ⟨code, own ▸ found, kept unused⟩
      · exact ⟨current, foundCurrent, unused⟩
    obtain ⟨old, foundOld, unusedOld⟩ := before
    rcases snoc_split same with ⟨_, record, _⟩ | ⟨front, whole, rfl⟩
    · cases record
    · rcases List.mem_append.mp member with earlierOne | new
      · exact sound.newest id old foundOld unusedOld earlier origin front whole other newer earlierOne
      · cases List.mem_singleton.mp new
  · intro id current foundCurrent
    dsimp only at foundCurrent ⊢
    rw [Dict.get?_insert] at foundCurrent
    rw [evaluations_attempted]
    split at foundCurrent
    · rename_i own
      cases foundCurrent
      rw [if_pos ⟨own.symm, counts⟩, own, sound.counted _ code found]
    · rename_i apart
      rw [if_neg fun counted => apart counted.1.symm, Nat.add_zero]
      exact sound.counted id current foundCurrent
  · intro id current foundCurrent unused earlier instant member
    dsimp only at foundCurrent
    rw [Dict.get?_insert] at foundCurrent
    rcases List.mem_append.mp member with old | new
    · split at foundCurrent
      · rename_i own
        cases foundCurrent
        exact own ▸ sound.unused _ code found (kept unused) earlier instant old
      · exact sound.unused id current foundCurrent unused earlier instant old
    · cases List.mem_singleton.mp new
      intro own
      rw [if_pos own.symm] at foundCurrent
      cases foundCurrent
      exact spent rfl unused
  · intro id missing other given instant member evaluates
    dsimp only at missing
    rw [Dict.get?_insert] at missing
    split at missing
    · cases missing
    · rename_i apart
      rcases List.mem_append.mp member with old | new
      · exact sound.absent id missing other given instant old evaluates
      · cases List.mem_singleton.mp new
        exact fun own => apart own.symm
  · intro address since
    dsimp only
    rw [noted, failedSince_attempted, sound.failures]
  · exact lawfully_snoc sound.lawfully lawful

theorem evaluated_of_active (sound : Sound settings state) {attempt : Attempt} (knows : Knows settings state (.claiming attempt)) {code : LoginCode}
    (found : state.codes.get? attempt.challengeId = some code) (active : code.active attempt.now = true)
    (budget : recentFailures state.failures attempt.requestedIp (attempt.now - minutes settings.authRateLimitMinutes) <
      settings.authVerifyFailureLimitPerIp) : Evaluated settings state.history attempt state.clock where
  stored := sound.source _ code found
  spare other member := by
    obtain ⟨current, foundCurrent, same⟩ := sound.kept _ other member
    rw [found] at foundCurrent
    cases foundCurrent
    have limits : code.maxAttempts = other.maxAttempts := by
      have equal : code.terms.maxAttempts = other.terms.maxAttempts := by rw [same]
      exact equal
    rw [sound.counted _ code found, ← limits]
    exact (active_iff.mp active).2.2
  begun := knows.1
  budget instant after := by
    refine Nat.lt_of_le_of_lt (failedSince_mono _ _ ?_) (sound.failures _ _ ▸ budget)
    omega

theorem accepted_of_active (sound : Sound settings state) {attempt : Attempt} (knows : Knows settings state (.claiming attempt)) {code : LoginCode}
    (found : state.codes.get? attempt.challengeId = some code) (active : code.active attempt.now = true) (valid : attempt.valid = true)
    (user : attempt.userActive = true) : Accepted settings state.history attempt where
  first := sound.unused _ code found (active_iff.mp active).1
  valid other member := by
    obtain ⟨current, foundCurrent, same⟩ := sound.kept _ other member
    obtain ⟨held, foundHeld, terms⟩ := knows.2.1
    rw [foundCurrent] at foundHeld
    cases foundHeld
    have read : attempt.challenge.terms = other.terms := terms.symm.trans same
    have given := knows.2.2 valid
    have methods : attempt.challenge.terms.verificationMethod = other.terms.verificationMethod := by rw [read]
    have hashes : attempt.challenge.terms.codeHash = other.terms.codeHash := by rw [read]
    have method : attempt.challenge.verificationMethod = other.verificationMethod := methods
    have hash : attempt.challenge.codeHash = other.codeHash := hashes
    unfold Attempt.ValidFor at given ⊢
    rwa [method, hash, email_of_terms read] at given
  active := user
  timely other member := by
    obtain ⟨current, foundCurrent, same⟩ := sound.kept _ other member
    rw [found] at foundCurrent
    cases foundCurrent
    have ends : code.terms.expiresAt = other.terms.expiresAt := by rw [same]
    have expires : code.expiresAt = other.expiresAt := ends
    rw [← expires]
    exact (active_iff.mp active).2.1
  newest := sound.newest _ code found (active_iff.mp active).1

theorem sound_claimed (sound : Sound settings state) {call : ℕ} {attempt : Attempt} (knows : Knows settings state (.claiming attempt)) :
    Sound settings (state.claimAttempt settings call attempt) := by
  unfold State.claimAttempt
  dsimp only
  cases given : claimLoginAttempt state.codes state.failures attempt.challengeId (attempt.valid && attempt.userActive) attempt.requestedIp
      attempt.now (attempt.now - minutes settings.authRateLimitMinutes) settings.authVerifyFailureLimitPerIp state.clock with
  | mk outcome rest =>
    obtain ⟨codes, failures⟩ := rest
    have claim := claim_spec attempt outcome codes failures given
    dsimp only
    cases claim with
    | rateLimited => exact sound_unevaluated sound rfl fun address since => by simp [Outcome.fails]
    | inactive failure address noted =>
      refine sound_unevaluated sound rfl fun other since => ?_
      rw [recentFailures_snoc, address, noted]
      simp [Outcome.fails]
    | failed code found active budget failure address noted =>
      refine sound_evaluated sound rfl found (fun accepted => nomatch accepted) id (fun other since => ?_)
        ⟨fun _ => evaluated_of_active sound knows found active budget, fun accepted => nomatch accepted⟩
      rw [recentFailures_snoc, address, noted]
      simp [Outcome.fails]
    | accepted code found active budget valid user =>
      refine sound_evaluated sound rfl found (fun _ => Option.some_ne_none _) (fun none => nomatch none) (fun other since => ?_)
        ⟨fun _ => evaluated_of_active sound knows found active budget, fun _ => accepted_of_active sound knows found active valid user⟩
      simp [Outcome.fails]

theorem later_tick (elapsed : ℕ) : Later state { state with clock := state.clock + elapsed } :=
  ⟨Int.le_add_of_nonneg_right (Int.natCast_nonneg elapsed), fun found => ⟨_, found, rfl⟩⟩

theorem sound_run (run : Run settings backend state next) (sound : Sound settings state) : Sound settings next := by
  induction run with
  | refl => exact sound
  | tail _ step ih =>
    obtain ⟨action, step⟩ := step
    cases moved_of_step ih.knows step with
    | ticked elapsed =>
      exact ⟨fun call => (ih.knows call).later (later_tick elapsed), ih.kept, ih.source, ih.newest, ih.counted, ih.unused, ih.absent,
        ih.failures, ih.lawfully⟩
    | quiet call phase quiet => exact sound_quiet ih quiet
    | stored call email requestedIp now method answer _ _ stored => exact sound_stored ih stored
    | claimed call attempt knows => exact sound_claimed ih knows

/-- In every interleaving, each attempt is evaluated within the limits of its challenge and of
its address, and accepted once, with a valid code, in time, and on the newest challenge of its e-mail. -/
theorem challenges_safe {settings : Settings} {backend : Backend} {clock : Int} {state : State}
    (run : Run settings backend (State.initial clock) state) : Lawfully settings state.history :=
  (sound_run run (sound_initial clock)).lawfully

end

/-- The service with codes that are their own hashes. -/
def plainSettings : Settings where
  codeHash id code := id ++ ":" ++ code
  totpCode _ _ := "000000"

/-- A challenge is asked for, tried with a wrong code and accepted with the right one. -/
def loginActions : List Action :=
  [.requestCode 0 "a@x" "10.0.0.1" true, .advance 0 {}, .advance 0 {}, .advance 0 { id := "c1", code := "123456" },
    .verifyCode 1 "c1" "654321" "10.0.0.1", .advance 1 {}, .advance 1 {}, .advance 1 {},
    .verifyCode 2 "c1" "123456" "10.0.0.1", .advance 2 {}, .advance 2 {}, .advance 2 {}]

theorem challenges_safe_login : ∃ state, State.perform plainSettings .postgres (fun _ _ => true) (State.initial 0) loginActions = some state ∧
    state.calls 2 = .ended (.accepted "c1" none) ∧ Lawfully plainSettings state.history := by
  have ends : (State.perform plainSettings .postgres (fun _ _ => true) (State.initial 0) loginActions).map (·.calls 2) = some (.ended (.accepted "c1" none)) := by
    decide
  obtain ⟨state, done, accepted⟩ := Option.map_eq_some_iff.mp ends
  exact ⟨state, done, accepted, challenges_safe (run_of_runWhere (runWhere_of_perform done))⟩

/-! How many challenges are requested: one of an e-mail is unused at a time, and the limits
hold where a request's counts still hold when its challenge is stored.
-/

/-- The chosen challenges created in the window that ends at an instant. -/
def createdWithin (settings : Settings) (codes : Dict String LoginCode) (chosen : LoginCode → Bool) (last : Int) : ℕ :=
  codes.entries.countP fun entry =>
    chosen entry.2 && decide (last - minutes settings.authRateLimitMinutes ≤ entry.2.createdAt ∧ entry.2.createdAt ≤ last)

def unusedFor (codes : Dict String LoginCode) (email : String) : ℕ :=
  codes.entries.countP fun entry => entry.2.email = email ∧ entry.2.usedAt = none

/-- No window holds more challenges than the limits, and no e-mail two unused ones. -/
structure Limited (settings : Settings) (codes : Dict String LoginCode) : Prop where
  email : ∀ email last, createdWithin settings codes (fun code => code.email = email) last ≤ settings.authRequestLimitPerEmail
  requestedIp : ∀ requestedIp last,
    createdWithin settings codes (fun code => code.requestedIp = requestedIp) last ≤ settings.authRequestLimitPerIp
  unused : ∀ email, unusedFor codes email ≤ 1

/-- A request whose challenge is stored next still finds its counts below the limits. -/
def stillBelow (settings : Settings) (state : State) : Action → Bool
  | .advance call _ =>
    match state.calls call with
    | .storing email requestedIp now _ =>
      let counts := recentLoginCodeCounts state.codes email requestedIp (now - minutes settings.authRateLimitMinutes)
      counts.1 < settings.authRequestLimitPerEmail ∧ counts.2 < settings.authRequestLimitPerIp
    | _ => true
  | _ => true

section
variable {settings : Settings} {backend : Backend} {state next : State} {codes : Dict String LoginCode}

theorem entries_createLoginCode {id : String} {code : LoginCode} (fresh : id ∉ codes.keys) :
    (createLoginCode codes id code).entries =
      (codes.entries.map fun entry => (entry.1, entry.2.supersede code.email code.createdAt)) ++ [(id, code)] := by
  refine Dict.put_absent fun member => fresh ?_
  unfold Dict.mapValues at member
  rwa [Dict.mapValues_keys] at member

theorem countP_createLoginCode {chosen : String × LoginCode → Bool} {id : String} {code : LoginCode} (fresh : id ∉ codes.keys) :
    (createLoginCode codes id code).entries.countP chosen =
      (codes.entries.countP fun entry => chosen (entry.1, entry.2.supersede code.email code.createdAt)) + if chosen (id, code) then 1 else 0 := by
  rw [entries_createLoginCode fresh, List.countP_append, List.countP_map, List.countP_singleton]
  rfl

theorem unusedFor_created {id : String} {code : LoginCode} (fresh : id ∉ codes.keys) (single : ∀ email, unusedFor codes email ≤ 1)
    (email : String) : unusedFor (createLoginCode codes id code) email ≤ 1 := by
  unfold unusedFor
  rw [countP_createLoginCode fresh]
  by_cases own : code.email = email
  · have none : codes.entries.countP (fun entry => decide ((entry.2.supersede code.email code.createdAt).email = email ∧
        (entry.2.supersede code.email code.createdAt).usedAt = none)) = 0 := by
      refine List.countP_eq_zero.mpr fun entry _ counts => ?_
      obtain ⟨same, unused⟩ := of_decide_eq_true counts
      rw [email_of_terms (terms_supersede _ _)] at same
      exact (unused_supersede unused).2 (same.trans own.symm)
    rw [none, Nat.zero_add]
    split <;> omega
  · rw [if_neg fun counts => own (of_decide_eq_true counts).1, Nat.add_zero]
    refine le_trans (List.countP_mono_left fun entry _ counts => ?_) (single email)
    obtain ⟨same, unused⟩ := of_decide_eq_true counts
    rw [email_of_terms (terms_supersede _ _)] at same
    exact decide_eq_true ⟨same, (unused_supersede unused).1⟩

theorem unusedFor_insert {id : String} {old new : LoginCode} (found : codes.get? id = some old) (same : new.terms = old.terms)
    (used : new.usedAt = none → old.usedAt = none) (email : String) : unusedFor (codes.insert id new) email ≤ unusedFor codes email := by
  refine Dict.countP_put_le found fun counts => ?_
  obtain ⟨own, unused⟩ := of_decide_eq_true counts
  exact decide_eq_true ⟨(email_of_terms same).symm.trans own, used unused⟩

section Windows
variable {chosen : LoginCode → Bool} (terms : ∀ code : LoginCode, chosen code = chosen code.terms)
include terms

theorem createdWithin_insert {id : String} {old new : LoginCode} (found : codes.get? id = some old) (same : new.terms = old.terms) (last : Int) :
    createdWithin settings (codes.insert id new) chosen last ≤ createdWithin settings codes chosen last := by
  refine Dict.countP_put_le found fun counts => ?_
  have created : new.terms.createdAt = old.terms.createdAt := by rw [same]
  have created : new.createdAt = old.createdAt := created
  rw [terms] at counts ⊢
  rwa [same, created] at counts

theorem createdWithin_created {id : String} {code : LoginCode} (fresh : id ∉ codes.keys) {last : Int} {limit : ℕ}
    (limited : createdWithin settings codes chosen last ≤ limit)
    (below : chosen code = true → (codes.entries.countP fun entry =>
      chosen entry.2 && decide (code.createdAt - minutes settings.authRateLimitMinutes ≤ entry.2.createdAt)) < limit) :
    createdWithin settings (createLoginCode codes id code) chosen last ≤ limit := by
  have kept : (codes.entries.countP fun entry => chosen (entry.2.supersede code.email code.createdAt) &&
      decide (last - minutes settings.authRateLimitMinutes ≤ (entry.2.supersede code.email code.createdAt).createdAt ∧
        (entry.2.supersede code.email code.createdAt).createdAt ≤ last)) = createdWithin settings codes chosen last := by
    refine List.countP_congr fun entry _ => ?_
    have created : (entry.2.supersede code.email code.createdAt).terms.createdAt = entry.2.terms.createdAt := by rw [terms_supersede]
    have created : (entry.2.supersede code.email code.createdAt).createdAt = entry.2.createdAt := created
    rw [terms (LoginCode.supersede _ _ _), terms_supersede, ← terms, created]
  show (createLoginCode codes id code).entries.countP _ ≤ limit
  rw [countP_createLoginCode fresh, kept]
  split
  · rename_i counts
    obtain ⟨own, inside⟩ := Bool.and_eq_true_iff.mp counts
    have inside : last - minutes settings.authRateLimitMinutes ≤ code.createdAt ∧ code.createdAt ≤ last := of_decide_eq_true inside
    refine le_trans (Nat.add_le_add_right (List.countP_mono_left fun entry _ old => ?_) 1) (below own)
    obtain ⟨same, within⟩ := Bool.and_eq_true_iff.mp old
    have within := of_decide_eq_true within
    exact Bool.and_eq_true_iff.mpr ⟨same, decide_eq_true (by omega)⟩
  · exact limited

end Windows

theorem limited_insert (limited : Limited settings codes) {id : String} {old new : LoginCode} (found : codes.get? id = some old)
    (same : new.terms = old.terms) (used : new.usedAt = none → old.usedAt = none) : Limited settings (codes.insert id new) where
  email email last := (createdWithin_insert (fun _ => rfl) found same last).trans (limited.email email last)
  requestedIp requestedIp last := (createdWithin_insert (fun _ => rfl) found same last).trans (limited.requestedIp requestedIp last)
  unused email := (unusedFor_insert found same used email).trans (limited.unused email)

theorem claim_codes (Inv : Dict String LoginCode → Prop) {attempt : Attempt} (start : Inv state.codes)
    (insert : ∀ id old new, state.codes.get? id = some old → new.terms = old.terms → (new.usedAt = none → old.usedAt = none) →
      Inv (state.codes.insert id new)) (call : ℕ) : Inv (state.claimAttempt settings call attempt).codes := by
  unfold State.claimAttempt
  dsimp only
  cases given : claimLoginAttempt state.codes state.failures attempt.challengeId (attempt.valid && attempt.userActive) attempt.requestedIp
      attempt.now (attempt.now - minutes settings.authRateLimitMinutes) settings.authVerifyFailureLimitPerIp state.clock with
  | mk outcome rest =>
    obtain ⟨codes, failures⟩ := rest
    dsimp only
    cases claim_spec attempt outcome codes failures given with
    | rateLimited => exact start
    | inactive => exact start
    | failed code found => exact insert _ code _ found rfl id
    | accepted code found => exact insert _ code _ found rfl fun none => nomatch none

theorem limited_initial (clock : Int) : Limited settings (State.initial clock).codes :=
  ⟨fun _ _ => Nat.zero_le _, fun _ _ => Nat.zero_le _, fun _ => Nat.zero_le _⟩

theorem limited_stored (limited : Limited settings state.codes) {call : ℕ} {email requestedIp : String} {now : Int} {method : Method}
    {answer : Answer} (stored : state.storeCode settings call email requestedIp now method answer = some next)
    (below : (recentLoginCodeCounts state.codes email requestedIp (now - minutes settings.authRateLimitMinutes)).1 <
        settings.authRequestLimitPerEmail ∧
      (recentLoginCodeCounts state.codes email requestedIp (now - minutes settings.authRateLimitMinutes)).2 <
        settings.authRequestLimitPerIp) : Limited settings next.codes := by
  unfold State.storeCode at stored
  split at stored
  · cases stored
  · rename_i fresh
    cases stored
    constructor
    · intro other last
      refine createdWithin_created (fun _ => rfl) fresh (limited.email other last) fun own => ?_
      have own : email = other := of_decide_eq_true own
      subst own
      refine lt_of_le_of_lt (List.countP_mono_left fun entry _ counts => ?_) below.1
      obtain ⟨same, since⟩ := Bool.and_eq_true_iff.mp counts
      exact decide_eq_true ⟨of_decide_eq_true same, of_decide_eq_true since⟩
    · intro other last
      refine createdWithin_created (fun _ => rfl) fresh (limited.requestedIp other last) fun own => ?_
      have own : requestedIp = other := of_decide_eq_true own
      subst own
      refine lt_of_le_of_lt (List.countP_mono_left fun entry _ counts => ?_) below.2
      obtain ⟨same, since⟩ := Bool.and_eq_true_iff.mp counts
      exact decide_eq_true ⟨of_decide_eq_true same, of_decide_eq_true since⟩
    · exact unusedFor_created fresh limited.unused

/-- Where every request still finds its counts below the limits when its challenge is stored,
the limits hold in every window. -/
theorem limited_of_below {settings : Settings} {backend : Backend} {clock : Int} {state : State}
    (run : RunWhere settings backend (stillBelow settings) (State.initial clock) state) : Limited settings state.codes := by
  induction run with
  | refl => exact limited_initial clock
  | tail before step ih =>
    obtain ⟨action, below, step⟩ := step
    cases moved_of_step (sound_run (run_of_runWhere before) (sound_initial clock)).knows step with
    | ticked elapsed => exact ih
    | quiet call phase quiet => exact quiet.codes ▸ ih
    | stored call email requestedIp now method answer advances standing stored =>
      rw [advances, stillBelow, standing] at below
      exact limited_stored ih stored (of_decide_eq_true below)
    | claimed call attempt knows => exact claim_codes (Limited settings) ih (fun id old new => limited_insert ih) call

end

/-- A single login keeps the limits. -/
theorem limited_of_below_login : ∃ state, State.perform plainSettings .postgres (stillBelow plainSettings) (State.initial 0) loginActions =
    some state ∧ Limited plainSettings state.codes := by
  have ends : (State.perform plainSettings .postgres (stillBelow plainSettings) (State.initial 0) loginActions).isSome = true := by
    decide +kernel
  obtain ⟨state, done⟩ := Option.isSome_iff_exists.mp ends
  exact ⟨state, done, limited_of_below (runWhere_of_perform done)⟩

/-- Six requests for one e-mail count before any of them stores its challenge. -/
def hurriedActions : List Action :=
  ((List.range 6).flatMap fun call => [.requestCode call "a@x" "10.0.0.1" true, .advance call {}]) ++
    (List.range 6).flatMap fun call => [.advance call {}, .advance call { id := s!"c{call}", code := "123456" }]

/-- All six are created, where five are allowed. -/
theorem hurried_exceeds : ¬ ∀ (settings : Settings) (backend : Backend) (clock : Int) (state : State),
    Run settings backend (State.initial clock) state → Limited settings state.codes := by
  intro claim
  have created : (State.perform plainSettings .postgres (fun _ _ => true) (State.initial 0) hurriedActions).map
      (fun state => createdWithin plainSettings state.codes (fun code => code.email = "a@x") 0) = some 6 := by decide +kernel
  obtain ⟨state, done, six⟩ := Option.map_eq_some_iff.mp created
  have limited := (claim plainSettings .postgres 0 state (run_of_runWhere (runWhere_of_perform done))).email "a@x" 0
  rw [six] at limited
  exact absurd limited (by decide)

end C3po.Access
