import C3po.Access.Challenges

/-! The authenticator's steps and secrets: what authorises what, where no call writes over a
credential it did not read.
-/

set_option autoImplicit false

namespace C3po.Access
open C3po.Library

/-- The step a call used up, from the moment the store gave it. -/
def Phase.uses : Phase → Option Proof
  | .claiming attempt => attempt.proof
  | .ended (.accepted _ proof) => proof
  | .ended (.confirmed proof) => some proof
  | _ => none

/-- The step that authorised the accepted login or the confirmation a call ended in. -/
def Phase.authorised : Phase → Option Proof
  | .ended (.accepted _ proof) => proof
  | .ended (.confirmed proof) => some proof
  | _ => none

def State.confirmedWith (state : State) (email secret : String) : Prop :=
  ∃ row, state.credentials.get? email = some row ∧ row.confirmedAt.isSome ∧ row.secret = secret

def confirmedRow (state : State) (email : String) (now : Int) (replacing : Bool) (step : Int) : Option Credential :=
  (state.credentials.get? email).bind (if replacing then confirmTotpReconfiguration step now else confirmTotp step now)

/-- No call writes over a credential it did not read, and what uses a step up is accepted: the
row a step is claimed on has the secret its code was matched with, and so has the row that is
confirmed or removed; a new set-up finds nothing confirmed; and an attempt that used a step up
finds its user active, its challenge active and its address within the budget. -/
def orderly (settings : Settings) (backend : Backend) (state : State) : Action → Bool
  | .advance call _ =>
    match state.calls call with
    | .consuming attempt proof =>
      ((state.credentials.get? proof.email).bind (claimTotpStep backend proof.step attempt.now)).all fun row =>
        row.secret = proof.secret ∧ proof.step ≠ 0
    | .claiming attempt =>
      attempt.proof.isNone || (attempt.userActive && (state.codes.get? attempt.challengeId).any (·.active attempt.now) &&
        decide (recentFailures state.failures attempt.requestedIp (attempt.now - minutes settings.authRateLimitMinutes) <
          settings.authVerifyFailureLimitPerIp))
    | .staging email _ enabled _ => enabled || !state.totpEnabled email
    | .promoting email _ now replacing secret step => (confirmedRow state email now replacing step).all (·.secret = secret)
    | .deleting email _ _ secret _ => (state.credentials.get? email).all fun row => row.confirmedAt.isNone || row.secret = secret
    | _ => true
  | _ => true

def StepChanged (state next : State) : Prop :=
  ∃ email row after, state.credentials.get? email = some row ∧ next.credentials.get? email = some after ∧ after.lastUsedStep ≠ row.lastUsedStep

/-- A call confirms a code of the replacement, or removes with a valid code of the secret. -/
def Released (settings : Settings) (state : State) (email secret : String) (call : ℕ) : Prop :=
  (∃ code now replacement step, state.calls call = .promoting email code now true replacement step ∧
    settings.matchingTotpStep replacement code now = some step ∧
      ∃ row, state.credentials.get? email = some row ∧ row.pendingSecret = some replacement) ∨
  ∃ code now step, state.calls call = .deleting email code now secret step ∧ settings.matchingTotpStep secret code now = some step

/-- Steps are used up by what they authorise, and secrets released by their codes. -/
structure Consumed (settings : Settings) (backend : Backend) (allowed : State → Action → Bool) (state : State) : Prop where
  once : ∀ first second proof, (state.calls first).authorised = some proof → (state.calls second).authorised = some proof → first = second
  authorises : ∀ action next final, allowed state action = true → state.step settings backend action = some next → StepChanged state next →
    RunWhere settings backend allowed next final → ∃ call answer, action = .advance call answer ∧
      ∀ ending, final.calls call = .ended ending → (final.calls call).authorised.isSome
  releases : ∀ action next email secret, allowed state action = true → state.step settings backend action = some next →
    state.confirmedWith email secret → ¬ next.confirmedWith email secret →
      ∃ call answer, action = .advance call answer ∧ Released settings state email secret call

/-- What a call knows of the codes it was made with. -/
def Matches (settings : Settings) : Phase → Prop
  | .consuming attempt _ => attempt.proof = none
  | .claiming attempt => attempt.proof.isSome → attempt.valid = true
  | .promoting _ code now _ secret step => settings.matchingTotpStep secret code now = some step
  | .deleting _ code now secret step => settings.matchingTotpStep secret code now = some step
  | _ => True

/-- A secret that waits to be stored for the e-mail. -/
def Staged (state : State) (email secret : String) : Prop := ∃ call enabled now, state.calls call = .staging email secret enabled now

/-- The secrets of a credential were drawn, each for one place, and no step is used before the confirmation. -/
structure Fits (state : State) (email : String) (row : Credential) : Prop where
  drawn : row.secret ∈ state.drawn
  stored : ¬ Staged state email row.secret
  unused : row.confirmedAt = none → row.lastUsedStep = none
  pending : ∀ pending, row.pendingSecret = some pending → pending ∈ state.drawn ∧ ¬ Staged state email pending ∧ pending ≠ row.secret

/-- No step up to one that was used can be used again. -/
structure Passed (row : Credential) (proof : Proof) : Prop where
  pending : row.pendingSecret ≠ some proof.secret
  passed : row.secret = proof.secret → row.confirmedAt.isSome ∧ ∃ last, row.lastUsedStep = some last ∧ proof.step ≤ last

structure Tidy (settings : Settings) (state : State) : Prop where
  matched : ∀ call, Matches settings (state.calls call)
  drawn : ∀ email secret, Staged state email secret → secret ∈ state.drawn
  alone : ∀ {first second email other secret enabled replaced now later}, state.calls first = .staging email secret enabled now →
    state.calls second = .staging other secret replaced later → first = second
  rows : ∀ email row, state.credentials.get? email = some row → Fits state email row
  uses : ∀ call proof, (state.calls call).uses = some proof → proof.secret ∈ state.drawn ∧ ¬ Staged state proof.email proof.secret ∧
    ∀ row, state.credentials.get? proof.email = some row → Passed row proof
  once : ∀ first second proof, (state.calls first).uses = some proof → (state.calls second).uses = some proof → first = second

def Phase.stages : Phase → Bool
  | .staging .. => true
  | _ => false

section
variable {settings : Settings} {backend : Backend} {state next : State} {call : ℕ} {phase : Phase}

theorem Staged.before (calls : next.calls = Function.update state.calls call phase) (plain : phase.stages = false) {email secret : String}
    (staged : Staged next email secret) : Staged state email secret := by
  obtain ⟨other, enabled, now, standing⟩ := staged
  rw [calls] at standing
  by_cases own : other = call
  · rw [own, Function.update_self] at standing
    rw [standing] at plain
    cases plain
  · rw [Function.update_of_ne own] at standing
    exact ⟨other, enabled, now, standing⟩

theorem Fits.later {email : String} {row : Credential} (fits : Fits state email row) (drawn : ∀ secret ∈ state.drawn, secret ∈ next.drawn)
    (staged : ∀ secret, Staged next email secret → secret ∈ state.drawn → Staged state email secret) : Fits next email row where
  drawn := drawn _ fits.drawn
  stored waits := fits.stored (staged _ waits fits.drawn)
  unused := fits.unused
  pending pending found := by
    obtain ⟨known, stored, apart⟩ := fits.pending pending found
    exact ⟨drawn _ known, fun waits => stored (staged _ waits known), apart⟩

theorem tidy_initial (clock : Int) : Tidy settings (State.initial clock) where
  matched _ := trivial
  drawn _ _ := fun ⟨_, _, _, standing⟩ => nomatch standing
  alone standing := nomatch standing
  rows _ _ found := nomatch found
  uses _ _ used := nomatch used
  once _ _ _ used := nomatch used

theorem matched_update (tidy : Tidy settings state) (calls : next.calls = Function.update state.calls call phase)
    (own : Matches settings phase) (other : ℕ) : Matches settings (next.calls other) := by
  rw [calls]
  by_cases same : other = call
  · rw [same, Function.update_self]
    exact own
  · rw [Function.update_of_ne same]
    exact tidy.matched other

theorem alone_update (tidy : Tidy settings state) (calls : next.calls = Function.update state.calls call phase) (plain : phase.stages = false)
    {first second : ℕ} {email other secret : String} {enabled replaced : Bool} {now later : Int}
    (standing : next.calls first = .staging email secret enabled now) (standing' : next.calls second = .staging other secret replaced later) :
    first = second := by
  have apart : ∀ {number email secret enabled now}, next.calls number = .staging email secret enabled now →
      state.calls number = .staging email secret enabled now := by
    intro number email secret enabled now standing
    rw [calls] at standing
    by_cases own : number = call
    · rw [own, Function.update_self] at standing
      rw [standing] at plain
      cases plain
    · rwa [Function.update_of_ne own] at standing
  exact tidy.alone (apart standing) (apart standing')

theorem tidy_write (tidy : Tidy settings state) (calls : next.calls = Function.update state.calls call phase)
    (drawn : next.drawn = state.drawn) (plain : phase.stages = false) (own : Matches settings phase)
    (rows : ∀ email row, next.credentials.get? email = some row → Fits next email row)
    (passed : ∀ other proof, (state.calls other).uses = some proof → ∀ row, next.credentials.get? proof.email = some row → Passed row proof)
    (used : phase.uses = (state.calls call).uses ∨ phase.uses = none ∨ ∃ proof, phase.uses = some proof ∧ proof.secret ∈ state.drawn ∧
      ¬ Staged state proof.email proof.secret ∧ (∀ row, next.credentials.get? proof.email = some row → Passed row proof) ∧
        ∀ other, (state.calls other).uses ≠ some proof) : Tidy settings next := by
  have before : ∀ {email secret}, Staged next email secret → Staged state email secret := fun staged => staged.before calls plain
  -- a use is an old one, or the new one of this call
  have source : ∀ other proof, (next.calls other).uses = some proof → (state.calls other).uses = some proof ∨
      (other = call ∧ phase.uses = some proof ∧ proof.secret ∈ state.drawn ∧ ¬ Staged state proof.email proof.secret ∧
        (∀ row, next.credentials.get? proof.email = some row → Passed row proof) ∧ ∀ other, (state.calls other).uses ≠ some proof) := by
    intro other proof uses
    rw [calls] at uses
    by_cases same : other = call
    · rw [same, Function.update_self] at uses
      rcases used with kept | none | ⟨new, newUse, facts⟩
      · exact .inl (by rw [same, ← kept]; exact uses)
      · rw [none] at uses
        cases uses
      · rw [newUse] at uses
        cases uses
        exact .inr ⟨same, newUse, facts⟩
    · rw [Function.update_of_ne same] at uses
      exact .inl uses
  constructor
  · exact matched_update tidy calls own
  · exact fun email secret staged => drawn ▸ tidy.drawn email secret (before staged)
  · exact alone_update tidy calls plain
  · exact rows
  · intro other proof uses
    rw [drawn]
    rcases source other proof uses with old | ⟨_, _, known, stored, rest, _⟩
    · obtain ⟨known, stored, _⟩ := tidy.uses other proof old
      exact ⟨known, fun staged => stored (before staged), passed other proof old⟩
    · exact ⟨known, fun staged => stored (before staged), rest⟩
  · intro first second proof firstUse secondUse
    rcases source first proof firstUse with old | ⟨here, _, _, _, _, fresh⟩
    · rcases source second proof secondUse with old' | ⟨_, _, _, _, _, fresh⟩
      · exact tidy.once first second proof old old'
      · exact absurd old (fresh first)
    · rcases source second proof secondUse with old' | ⟨there, _⟩
      · exact absurd old' (fresh second)
      · exact here.trans there.symm

theorem tidy_plain (tidy : Tidy settings state) (calls : next.calls = Function.update state.calls call phase) (drawn : next.drawn = state.drawn)
    (credentials : next.credentials = state.credentials) (plain : phase.stages = false) (own : Matches settings phase)
    (used : phase.uses = (state.calls call).uses ∨ phase.uses = none) : Tidy settings next := by
  refine tidy_write tidy calls drawn plain own (fun email row found => ?_) (fun other proof uses row found => ?_) (used.imp_right .inl)
  · rw [credentials] at found
    exact (tidy.rows email row found).later (fun _ => drawn ▸ id) fun _ staged _ => staged.before calls plain
  · rw [credentials] at found
    exact (tidy.uses other proof uses).2.2 row found

theorem tidy_tick (tidy : Tidy settings state) (elapsed : ℕ) : Tidy settings { state with clock := state.clock + elapsed } where
  matched := tidy.matched
  drawn := tidy.drawn
  alone := tidy.alone
  rows email row found := (tidy.rows email row found).later (fun _ => id) fun _ staged _ => staged
  uses := tidy.uses
  once := tidy.once

theorem tidy_stand (tidy : Tidy settings state) (plain : phase.stages = false) (own : Matches settings phase)
    (used : phase.uses = (state.calls call).uses ∨ phase.uses = none) : Tidy settings (state.stand call phase) :=
  tidy_plain tidy rfl rfl rfl plain own used

theorem tidy_raise (tidy : Tidy settings state) (refusal : Refusal) : Tidy settings (state.raise call refusal) :=
  tidy_stand tidy rfl trivial (.inr rfl)

theorem tidy_draw (tidy : Tidy settings state) {email secret : String} {enabled : Bool}
    (drawn : state.drawSecret call email enabled secret = some next) : Tidy settings next := by
  unfold State.drawSecret at drawn
  split at drawn
  · cases drawn
  rename_i fresh
  cases drawn
  have before : ∀ {other waiting}, Staged { state.stand call (.staging email secret enabled state.clock) with drawn := secret :: state.drawn }
      other waiting → Staged state other waiting ∨ waiting = secret := by
    rintro other waiting ⟨number, replaced, now, standing⟩
    change Function.update state.calls call _ number = _ at standing
    by_cases own : number = call
    · rw [own, Function.update_self] at standing
      cases standing
      exact .inr rfl
    · rw [Function.update_of_ne own] at standing
      exact .inl ⟨number, replaced, now, standing⟩
  have known : ∀ {other waiting}, waiting ∈ state.drawn → ¬ Staged state other waiting →
      ¬ Staged { state.stand call (.staging email secret enabled state.clock) with drawn := secret :: state.drawn } other waiting := by
    intro other waiting drawn stored staged
    rcases before staged with old | rfl
    · exact stored old
    · exact fresh drawn
  have uses : ∀ {other proof}, (Function.update state.calls call (.staging email secret enabled state.clock) other).uses = some proof →
      (state.calls other).uses = some proof := by
    intro other proof used
    by_cases own : other = call
    · rw [own, Function.update_self] at used
      cases used
    · rwa [Function.update_of_ne own] at used
  constructor
  · exact matched_update tidy rfl trivial
  · intro other waiting staged
    rcases before staged with old | rfl
    · exact List.mem_cons_of_mem _ (tidy.drawn other waiting old)
    · exact List.mem_cons_self
  · intro first second own other waiting enabled replaced now later standing standing'
    change Function.update state.calls call _ first = _ at standing
    change Function.update state.calls call _ second = _ at standing'
    by_cases here : first = call <;> by_cases there : second = call
    · exact here.trans there.symm
    · rw [here, Function.update_self] at standing
      rw [Function.update_of_ne there] at standing'
      cases standing
      exact absurd (tidy.drawn _ _ ⟨second, _, _, standing'⟩) fresh
    · rw [Function.update_of_ne here] at standing
      rw [there, Function.update_self] at standing'
      cases standing'
      exact absurd (tidy.drawn _ _ ⟨first, _, _, standing⟩) fresh
    · rw [Function.update_of_ne here] at standing
      rw [Function.update_of_ne there] at standing'
      exact tidy.alone standing standing'
  · intro other row found
    have fits := tidy.rows other row found
    refine fits.later (fun _ => List.mem_cons_of_mem _) fun waiting staged drawn => ?_
    rcases before staged with old | rfl
    · exact old
    · exact absurd drawn fresh
  · intro other proof used
    obtain ⟨drawn, stored, passed⟩ := tidy.uses other proof (uses used)
    exact ⟨List.mem_cons_of_mem _ drawn, known drawn stored, passed⟩
  · exact fun first second proof firstUse secondUse => tidy.once first second proof (uses firstUse) (uses secondUse)

theorem tidy_row (tidy : Tidy settings state) {email : String} {row : Credential} (calls : next.calls = Function.update state.calls call phase)
    (drawn : next.drawn = state.drawn) (credentials : next.credentials = state.credentials.insert email row) (plain : phase.stages = false)
    (own : Matches settings phase) (fits : Fits next email row)
    (passed : ∀ other proof, (state.calls other).uses = some proof → proof.email = email → Passed row proof)
    (used : phase.uses = none ∨ ∃ proof, phase.uses = some proof ∧ proof.email = email ∧ proof.secret ∈ state.drawn ∧
      ¬ Staged state email proof.secret ∧ Passed row proof ∧ ∀ other, (state.calls other).uses ≠ some proof) : Tidy settings next := by
  have found : ∀ {other after}, next.credentials.get? other = some after →
      (other = email ∧ after = row) ∨ (other ≠ email ∧ state.credentials.get? other = some after) := by
    intro other after foundAfter
    rw [credentials, Dict.get?_insert] at foundAfter
    split at foundAfter
    · rename_i same
      exact .inl ⟨same, (Option.some.inj foundAfter).symm⟩
    · rename_i apart
      exact .inr ⟨apart, foundAfter⟩
  refine tidy_write tidy calls drawn plain own ?_ ?_ (.inr (used.imp_right ?_))
  · intro other after foundAfter
    rcases found foundAfter with ⟨rfl, rfl⟩ | ⟨_, old⟩
    · exact fits
    · exact (tidy.rows other after old).later (fun _ => drawn ▸ id) fun _ staged _ => staged.before calls plain
  · intro other proof uses after foundAfter
    rcases found foundAfter with ⟨same, rfl⟩ | ⟨_, old⟩
    · exact passed other proof uses same
    · exact (tidy.uses other proof uses).2.2 after old
  · rintro ⟨proof, new, rfl, known, stored, passes, fresh⟩
    refine ⟨proof, new, known, stored, fun after foundAfter => ?_, fresh⟩
    rcases found foundAfter with ⟨_, rfl⟩ | ⟨apart, _⟩
    · exact passes
    · exact absurd rfl apart

theorem claimTotpStep_ok {step now : Int} {row after : Credential} (claimed : claimTotpStep backend step now row = some after) :
    row.confirmedAt.isSome ∧ unusedStep backend step row.lastUsedStep = true ∧ after = { row with lastUsedStep := some step, updatedAt := now } := by
  unfold claimTotpStep at claimed
  split at claimed
  · rename_i free
    cases claimed
    exact ⟨free.1, free.2, rfl⟩
  · cases claimed

theorem last_lt_of_unused {step last : Int} (unused : unusedStep backend step (some last) = true) (later : step ≠ 0) : last < step := by
  unfold unusedStep at unused
  dsimp only at unused
  split at unused
  · rename_i memory
    have := of_decide_eq_true unused
    omega
  · exact of_decide_eq_true unused

theorem tidy_consume (tidy : Tidy settings state) {attempt : Attempt} {proof : Proof} (standing : state.calls call = .consuming attempt proof)
    (ordered : ((state.credentials.get? proof.email).bind (claimTotpStep backend proof.step attempt.now)).all
      (fun row => row.secret = proof.secret ∧ proof.step ≠ 0) = true) : Tidy settings (state.consumeStep backend call attempt proof) := by
  have unproven : attempt.proof = none := by
    have known := tidy.matched call
    rwa [standing] at known
  unfold State.consumeStep
  split
  · refine tidy_stand tidy rfl (fun proven => ?_) (.inr unproven)
    rw [unproven] at proven
    cases proven
  · rename_i after claimed
    rw [claimed] at ordered
    obtain ⟨row, found, ok⟩ := Option.bind_eq_some_iff.mp claimed
    obtain ⟨confirmed, unused, rfl⟩ := claimTotpStep_ok ok
    obtain ⟨same, later⟩ := of_decide_eq_true ordered
    have same : row.secret = proof.secret := same
    have fits := tidy.rows _ row found
    refine tidy_row tidy rfl rfl rfl rfl (fun _ => rfl) ?_ (fun other old uses own => ?_) (.inr ⟨proof, rfl, rfl, ?_, ?_, ?_, ?_⟩)
    · refine ⟨fits.drawn, fun staged => fits.stored (staged.before rfl rfl), fun unconfirmed => ?_, fun pending waits => ?_⟩
      · rw [show row.confirmedAt = none from unconfirmed] at confirmed
        cases confirmed
      · obtain ⟨known, stored, apart⟩ := fits.pending pending waits
        exact ⟨known, fun staged => stored (staged.before rfl rfl), apart⟩
    · have passed := (tidy.uses other old uses).2.2 row (own ▸ found)
      refine ⟨passed.pending, fun current => ⟨confirmed, proof.step, rfl, ?_⟩⟩
      obtain ⟨_, last, used, bound⟩ := passed.passed current
      rw [used] at unused
      exact Int.le_trans bound (Int.le_of_lt (last_lt_of_unused unused later))
    · exact same ▸ fits.drawn
    · exact same ▸ fits.stored
    · exact ⟨fun pending => (fits.pending _ pending).2.2 same.symm, fun _ => ⟨confirmed, proof.step, rfl, Int.le_refl _⟩⟩
    · intro other uses
      obtain ⟨_, last, used, bound⟩ := ((tidy.uses other proof uses).2.2 row found).passed same
      rw [used] at unused
      exact Int.not_lt.mpr bound (last_lt_of_unused unused later)

theorem tidy_storeSecret (tidy : Tidy settings state) {email secret : String} {enabled : Bool} {now : Int}
    (standing : state.calls call = .staging email secret enabled now) : Tidy settings (state.storeSecret backend call email secret enabled now) := by
  have waits : Staged state email secret := ⟨call, enabled, now, standing⟩
  have drawn := tidy.drawn email secret waits
  -- the secret waits no longer once it is stored
  have placed : ∀ {next : State} {ending : Ending}, next.calls = Function.update state.calls call (.ended ending) → ¬ Staged next email secret := by
    rintro next ending calls ⟨other, replaced, later, still⟩
    rw [calls] at still
    by_cases own : other = call
    · rw [own, Function.update_self] at still
      cases still
    · rw [Function.update_of_ne own] at still
      exact own (tidy.alone still standing)
  have apart : ∀ other old, (state.calls other).uses = some old → old.email = email → old.secret ≠ secret := by
    intro other old uses own same
    exact (tidy.uses other old uses).2.1 (own ▸ same ▸ waits)
  unfold State.storeSecret
  dsimp only
  split
  · split
    · exact tidy_raise tidy _
    · rename_i after staged
      obtain ⟨row, found, ok⟩ := Option.bind_eq_some_iff.mp staged
      unfold stageTotpReconfiguration at ok
      split at ok
      · rename_i confirmed
        cases ok
        have fits := tidy.rows _ row found
        refine tidy_row tidy rfl rfl rfl rfl trivial ?_ (fun other old uses own => ?_) (.inl rfl)
        · exact ⟨fits.drawn, fun staged => fits.stored (staged.before rfl rfl), fits.unused, fun pending same => by
            cases same
            exact ⟨drawn, placed rfl, fun same => fits.stored (same ▸ waits)⟩⟩
        · refine ⟨fun same => apart other old uses own (Option.some.inj same).symm, ?_⟩
          exact ((tidy.uses other old uses).2.2 row (own ▸ found)).passed
      · cases ok
  · refine tidy_row tidy rfl rfl rfl rfl trivial ?_ (fun other old uses own => ?_) (.inl rfl)
    · unfold upsertTotpSetup
      split
      · rename_i row found
        have fits := tidy.rows _ row found
        refine ⟨drawn, placed rfl, fun _ => rfl, fun pending waiting => ?_⟩
        obtain ⟨known, stored, _⟩ := fits.pending pending waiting
        exact ⟨known, fun staged => stored (staged.before rfl rfl), fun same => stored (same ▸ waits)⟩
      · exact ⟨drawn, placed rfl, fun _ => rfl, fun _ none => by cases none⟩
    · have other := apart other old uses own
      unfold upsertTotpSetup
      split
      · rename_i row found
        exact ⟨((tidy.uses _ old uses).2.2 row (own ▸ found)).pending, fun same => absurd same.symm other⟩
      · exact ⟨fun none => (by cases none), fun same => absurd same.symm other⟩

theorem confirmedRow_ok {email : String} {now : Int} {replacing : Bool} {step : Int} {after : Credential}
    (confirmed : confirmedRow state email now replacing step = some after) : ∃ row, state.credentials.get? email = some row ∧
      after.confirmedAt.isSome ∧ after.lastUsedStep = some step ∧
        (replacing = true ∧ row.confirmedAt.isSome ∧ row.pendingSecret = some after.secret ∧ after.pendingSecret = none ∨
          replacing = false ∧ row.confirmedAt = none ∧ after.secret = row.secret ∧ after.pendingSecret = row.pendingSecret) := by
  obtain ⟨row, found, ok⟩ := Option.bind_eq_some_iff.mp confirmed
  refine ⟨row, found, ?_⟩
  cases replacing with
  | true =>
    rw [if_pos rfl] at ok
    unfold confirmTotpReconfiguration at ok
    split at ok
    · rename_i since pending expiresAt sinceFound waiting expires
      split at ok
      · cases ok
        exact ⟨rfl, rfl, .inl ⟨rfl, by rw [sinceFound]; rfl, waiting, rfl⟩⟩
      · cases ok
    · cases ok
  | false =>
    rw [if_neg Bool.false_ne_true] at ok
    unfold confirmTotp at ok
    split at ok
    · rename_i unconfirmed
      cases ok
      exact ⟨rfl, rfl, .inr ⟨rfl, unconfirmed.1, rfl, rfl⟩⟩
    · cases ok

theorem promote_eq {email : String} {now : Int} {replacing : Bool} {secret : String} {step : Int} :
    state.promote call email now replacing secret step = match confirmedRow state email now replacing step with
      | none => state.raise call (.authentication "Código inválido. Confira o app Senhas e tente novamente.")
      | some row => { state.finish call (.confirmed ⟨email, secret, step⟩) with credentials := state.credentials.insert email row } := rfl

theorem tidy_promote (tidy : Tidy settings state) {email : String} {now : Int} {replacing : Bool} {secret : String} {step : Int}
    (ordered : (confirmedRow state email now replacing step).all (·.secret = secret) = true) :
    Tidy settings (state.promote call email now replacing secret step) := by
  rw [promote_eq]
  split
  · exact tidy_raise tidy _
  · rename_i after confirmed
    rw [confirmed] at ordered
    have same : after.secret = secret := of_decide_eq_true ordered
    obtain ⟨row, found, since, used, source⟩ := confirmedRow_ok confirmed
    have fits := tidy.rows _ row found
    -- no use has the secret that is confirmed: it waited for its first code
    have unused : ∀ other old, (state.calls other).uses = some old → old.email = email → after.secret ≠ old.secret := by
      intro other old uses own equal
      have passed := (tidy.uses other old uses).2.2 row (own ▸ found)
      rcases source with ⟨_, _, pending, _⟩ | ⟨_, unconfirmed, kept, _⟩
      · exact passed.pending (by rw [pending, equal])
      · have confirmed := (passed.passed (kept ▸ equal)).1
        rw [unconfirmed] at confirmed
        cases confirmed
    have drawn : after.secret ∈ state.drawn ∧ ¬ Staged state email after.secret := by
      rcases source with ⟨_, _, pending, _⟩ | ⟨_, _, kept, _⟩
      · exact ⟨(fits.pending _ pending).1, (fits.pending _ pending).2.1⟩
      · exact kept ▸ ⟨fits.drawn, fits.stored⟩
    have waiting : ∀ pending, after.pendingSecret = some pending → row.pendingSecret = some pending ∧ after.secret = row.secret := by
      intro pending waits
      rcases source with ⟨_, _, _, none⟩ | ⟨_, _, kept, pendings⟩
      · rw [none] at waits
        cases waits
      · exact ⟨pendings ▸ waits, kept⟩
    refine tidy_row tidy rfl rfl rfl rfl trivial ?_ (fun other old uses own => ?_) (.inr ⟨⟨email, secret, step⟩, rfl, rfl, ?_, ?_, ?_, ?_⟩)
    · refine ⟨drawn.1, fun staged => drawn.2 (staged.before rfl rfl), fun unconfirmed => ?_, fun pending waits => ?_⟩
      · rw [unconfirmed] at since
        cases since
      · obtain ⟨old, kept⟩ := waiting pending waits
        obtain ⟨known, stored, apart⟩ := fits.pending pending old
        exact ⟨known, fun staged => stored (staged.before rfl rfl), kept ▸ apart⟩
    · refine ⟨fun waits => ?_, fun equal => absurd equal (unused other old uses own)⟩
      exact ((tidy.uses other old uses).2.2 row (own ▸ found)).pending (waiting _ waits).1
    · exact same ▸ drawn.1
    · exact same ▸ drawn.2
    · refine ⟨fun waits => ?_, fun _ => ⟨since, step, used, Int.le_refl _⟩⟩
      obtain ⟨old, kept⟩ := waiting _ waits
      exact (fits.pending _ old).2.2 (same ▸ kept)
    · exact fun other uses => unused other _ uses rfl same

theorem tidy_remove (tidy : Tidy settings state) {email : String} : Tidy settings (state.remove call email) := by
  have before : ∀ {other after}, (state.remove call email).credentials.get? other = some after → state.credentials.get? other = some after := by
    intro other after found
    change (state.credentials.erase email).get? other = some after at found
    rw [Dict.get?_erase] at found
    split at found
    · cases found
    · exact found
  refine tidy_write tidy rfl rfl rfl trivial (fun other after found => ?_) (fun other old uses after found => ?_) (.inr (.inl rfl))
  · exact (tidy.rows other after (before found)).later (fun _ => id) fun _ staged _ => staged.before rfl rfl
  · exact (tidy.uses other old uses).2.2 after (before found)

theorem claimAttempt_accepted {attempt : Attempt} (valid : attempt.valid = true)
    (ordered : (attempt.userActive && (state.codes.get? attempt.challengeId).any (·.active attempt.now) &&
      decide (recentFailures state.failures attempt.requestedIp (attempt.now - minutes settings.authRateLimitMinutes) <
        settings.authVerifyFailureLimitPerIp)) = true) :
    (state.claimAttempt settings call attempt).calls = Function.update state.calls call (.ended (.accepted attempt.challengeId attempt.proof)) := by
  rw [Bool.and_eq_true, Bool.and_eq_true] at ordered
  obtain ⟨⟨user, active⟩, budget⟩ := ordered
  have spare := Nat.not_le.mpr (of_decide_eq_true budget)
  obtain ⟨code, found, active⟩ := (Option.any_eq_true _ _).mp active
  unfold State.claimAttempt claimLoginAttempt
  simp only [if_neg spare, found, active, valid, user, Bool.and_self, if_true]
  rfl

theorem claimAttempt_frame (settings : Settings) (state : State) (call : ℕ) (attempt : Attempt) :
    (state.claimAttempt settings call attempt).credentials = state.credentials ∧
    (state.claimAttempt settings call attempt).drawn = state.drawn ∧
      ∃ ending, (state.claimAttempt settings call attempt).calls = Function.update state.calls call (.ended ending) ∧
        ((Phase.ended ending).uses = attempt.proof ∨ (Phase.ended ending).uses = none) := by
  unfold State.claimAttempt
  dsimp only
  refine ⟨rfl, rfl, _, rfl, ?_⟩
  split
  · exact .inr rfl
  · exact .inr rfl
  · exact .inr rfl
  · exact .inl rfl

theorem tidy_claim (tidy : Tidy settings state) {attempt : Attempt} (standing : state.calls call = .claiming attempt) :
    Tidy settings (state.claimAttempt settings call attempt) := by
  obtain ⟨credentials, drawn, ending, calls, uses⟩ := claimAttempt_frame settings state call attempt
  refine tidy_plain tidy calls drawn credentials rfl trivial ?_
  rw [standing]
  exact uses

theorem tidy_enter (tidy : Tidy settings state) (admitted : state.enter call phase = some next) (plain : phase.stages = false)
    (own : Matches settings phase) (used : phase.uses = none) : Tidy settings next := by
  unfold State.enter at admitted
  split at admitted
  · cases admitted
    exact tidy_stand tidy plain own (.inr used)
  · cases admitted

theorem tidy_matchCode (tidy : Tidy settings state) {id code requestedIp : String} {now : Int} {challenge : LoginCode} {userActive : Bool} :
    Tidy settings (state.matchCode settings call id code requestedIp now challenge userActive) := by
  unfold State.matchCode
  dsimp only
  split
  · exact tidy_stand tidy rfl (fun proven => nomatch proven) (.inr rfl)
  · split
    · exact tidy_stand tidy rfl (fun proven => nomatch proven) (.inr rfl)
    · split
      · exact tidy_stand tidy rfl (fun proven => nomatch proven) (.inr rfl)
      · exact tidy_stand tidy rfl rfl (.inr rfl)

theorem tidy_step (tidy : Tidy settings state) {action : Action} (ordered : orderly settings backend state action = true)
    (step : state.step settings backend action = some next) : Tidy settings next := by
  cases action with
  | tick elapsed =>
    cases step
    exact tidy_tick tidy elapsed
  | requestCode call email requestedIp auto => exact tidy_enter tidy step rfl trivial rfl
  | verifyCode call challengeId code requestedIp => exact tidy_enter tidy step rfl trivial rfl
  | beginTotpSetup call email replace => exact tidy_enter tidy step rfl trivial rfl
  | confirmTotpSetup call email code => exact tidy_enter tidy step rfl trivial rfl
  | disableTotp call email code => exact tidy_enter tidy step rfl trivial rfl
  | advance call answer =>
    unfold State.step State.advance at step
    unfold orderly at ordered
    dsimp only at step ordered
    cases standing : state.calls call with
    | unborn | ended =>
      rw [standing] at step
      cases step
    | counting email requestedIp auto now =>
      rw [standing] at step
      cases step
      unfold State.countCodes
      dsimp only
      split
      · exact tidy_raise tidy _
      · exact tidy_stand tidy rfl trivial (.inr rfl)
    | choosing email requestedIp auto now =>
      rw [standing] at step
      cases step
      exact tidy_stand tidy rfl trivial (.inr rfl)
    | storing email requestedIp now method =>
      rw [standing] at step
      dsimp only at step
      unfold State.storeCode at step
      split at step
      · cases step
      · cases step
        exact tidy_plain tidy rfl rfl rfl rfl trivial (.inr rfl)
    | fetching challengeId code requestedIp now =>
      rw [standing] at step
      cases step
      unfold State.fetchCode
      split
      · exact tidy_raise tidy _
      · exact tidy_stand tidy rfl trivial (.inr rfl)
    | matching challengeId code requestedIp now challenge =>
      rw [standing] at step
      cases step
      exact tidy_matchCode tidy
    | consuming attempt proof =>
      rw [standing] at step ordered
      cases step
      exact tidy_consume tidy standing ordered
    | claiming attempt =>
      rw [standing] at step
      cases step
      exact tidy_claim tidy standing
    | beginning email replace =>
      rw [standing] at step
      cases step
      unfold State.checkEnabled
      split
      · exact tidy_raise tidy _
      · exact tidy_stand tidy rfl trivial (.inr rfl)
    | drawing email enabled =>
      rw [standing] at step
      exact tidy_draw tidy step
    | staging email secret enabled now =>
      rw [standing] at step
      cases step
      exact tidy_storeSecret tidy standing
    | confirming email code now =>
      rw [standing] at step
      cases step
      unfold State.matchSetup
      split
      · exact tidy_raise tidy _
      · split
        · exact tidy_raise tidy _
        · split
          · exact tidy_raise tidy _
          · rename_i step matched
            exact tidy_stand tidy rfl matched (.inr rfl)
    | promoting email code now replacing secret step' =>
      rw [standing] at step ordered
      cases step
      exact tidy_promote tidy ordered
    | disabling email code now =>
      rw [standing] at step
      cases step
      unfold State.matchRemoval
      split
      · exact tidy_raise tidy _
      · split
        · exact tidy_raise tidy _
        · rename_i step matched
          exact tidy_stand tidy rfl matched (.inr rfl)
    | deleting email code now secret step' =>
      rw [standing] at step
      cases step
      exact tidy_remove tidy

end
end C3po.Access
