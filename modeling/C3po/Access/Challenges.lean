import C3po.Access.Codes
import C3po.Library.Loops

/-! Challenges under every interleaving: when an attempt on one is evaluated, and when it is
accepted.
-/

set_option autoImplicit false

namespace C3po.Access
open C3po.Library

/-- Every interleaving of the calls of any number of clients. -/
def Run (settings : Settings) (backend : Backend) : State → State → Prop :=
  Relation.ReflTransGen fun state next => ∃ action, state.step settings backend action = some next

/-- The interleavings whose steps are all allowed. -/
def RunWhere (settings : Settings) (backend : Backend) (allowed : State → Action → Bool) : State → State → Prop :=
  Relation.ReflTransGen fun state next => ∃ action, allowed state action = true ∧ state.step settings backend action = some next

theorem run_of_runWhere {settings : Settings} {backend : Backend} {allowed : State → Action → Bool} {state next : State}
    (run : RunWhere settings backend allowed state next) : Run settings backend state next :=
  Relation.ReflTransGen.mono (fun _ _ ⟨action, _, step⟩ => ⟨action, step⟩) _ _ run

def State.perform (settings : Settings) (backend : Backend) (allowed : State → Action → Bool) (state : State) : List Action → Option State
  | [] => some state
  | action :: rest =>
    if allowed state action then (state.step settings backend action).bind fun next => next.perform settings backend allowed rest else none

theorem runWhere_of_perform {settings : Settings} {backend : Backend} {allowed : State → Action → Bool} {state next : State}
    {actions : List Action} (done : state.perform settings backend allowed actions = some next) :
    RunWhere settings backend allowed state next := by
  induction actions generalizing state with
  | nil =>
    cases done
    exact .refl
  | cons action rest ih =>
    unfold State.perform at done
    split at done
    · rename_i kept
      obtain ⟨middle, step, done⟩ := Option.bind_eq_some_iff.mp done
      exact .head ⟨action, kept, step⟩ (ih done)
    · cases done

/-- The empty store. -/
def State.initial (clock : Int) : State := { clock := clock }

/-- What no call changes of a challenge. -/
def LoginCode.terms (code : LoginCode) : LoginCode := { code with attempts := 0, usedAt := none }

/-- The call's code is valid for a challenge: its hash is the stored one, or the confirmed
authenticator of its user gives the code for a step, which the call used up. -/
def Attempt.ValidFor (settings : Settings) (attempt : Attempt) (code : LoginCode) : Prop :=
  match code.verificationMethod with
  | .email => settings.codeHash attempt.challengeId attempt.code = code.codeHash
  | .totp => ∃ credential step, attempt.credential = some credential ∧ credential.confirmedAt.isSome ∧
      settings.matchingTotpStep credential.secret attempt.code attempt.now = some step ∧
        attempt.proof = some ⟨code.email, credential.secret, step⟩

def Outcome.evaluates : Outcome → Bool
  | .failed | .accepted => true
  | .rateLimited | .inactive => false

def Outcome.fails : Outcome → Bool
  | .failed | .inactive => true
  | .rateLimited | .accepted => false

/-- How many attempts on a challenge were evaluated. -/
def evaluations (history : List Record) (id : String) : ℕ :=
  history.countP fun
    | .attempted attempt outcome _ => attempt.challengeId = id && outcome.evaluates
    | .stored .. => false

def failedSince (history : List Record) (requestedIp : String) (since : Int) : ℕ :=
  history.countP fun
    | .attempted attempt outcome clock => attempt.requestedIp = requestedIp && since ≤ clock && outcome.fails
    | .stored .. => false

structure Evaluated (settings : Settings) (before : List Record) (attempt : Attempt) (clock : Int) : Prop where
  stored : ∃ code, .stored attempt.challengeId code ∈ before
  spare : ∀ code, .stored attempt.challengeId code ∈ before → evaluations before attempt.challengeId < code.maxAttempts
  begun : attempt.now ≤ clock
  budget : ∀ instant, attempt.now ≤ instant →
    failedSince before attempt.requestedIp (instant - minutes settings.authRateLimitMinutes) < settings.authVerifyFailureLimitPerIp

structure Accepted (settings : Settings) (before : List Record) (attempt : Attempt) : Prop where
  first : ∀ earlier instant, .attempted earlier .accepted instant ∈ before → earlier.challengeId ≠ attempt.challengeId
  valid : ∀ code, .stored attempt.challengeId code ∈ before → attempt.ValidFor settings code
  active : attempt.userActive = true
  timely : ∀ code, .stored attempt.challengeId code ∈ before → attempt.now < code.expiresAt
  newest : ∀ earlier code later, before = earlier ++ .stored attempt.challengeId code :: later →
    ∀ id other, .stored id other ∈ later → other.email ≠ code.email

/-- What the store was asked keeps the rules. -/
def Lawful (settings : Settings) (before : List Record) : Record → Prop
  | .stored .. => True
  | .attempted attempt outcome clock =>
    (outcome.evaluates → Evaluated settings before attempt clock) ∧ (outcome = .accepted → Accepted settings before attempt)

section Codes
variable {codes : Dict String LoginCode} {id key : String} {code : LoginCode}

@[simp] theorem terms_supersede (email : String) (now : Int) : (code.supersede email now).terms = code.terms := by
  unfold LoginCode.supersede
  split <;> rfl

theorem attempts_supersede (email : String) (now : Int) : (code.supersede email now).attempts = code.attempts := by
  unfold LoginCode.supersede
  split <;> rfl

theorem unused_supersede {email : String} {now : Int} (unused : (code.supersede email now).usedAt = none) :
    code.usedAt = none ∧ code.email ≠ email := by
  unfold LoginCode.supersede at unused
  split at unused
  · cases unused
  · rename_i kept
    exact ⟨unused, fun same => kept ⟨same, unused⟩⟩

theorem get?_createLoginCode : (createLoginCode codes id code).get? key =
    if key = id then some code else (codes.get? key).map (LoginCode.supersede code.email code.createdAt) := by
  unfold createLoginCode
  rw [Dict.get?_insert, Dict.get?_mapValues]

theorem email_of_terms {other : LoginCode} (same : code.terms = other.terms) : code.email = other.email := by
  have emails : code.terms.email = other.terms.email := by rw [same]
  exact emails

end Codes

/-- A later state: the clock went on, and every challenge is kept on its terms. -/
structure Later (state next : State) : Prop where
  clock : state.clock ≤ next.clock
  codes : ∀ {id code}, state.codes.get? id = some code → ∃ later, next.codes.get? id = some later ∧ later.terms = code.terms

/-- The store holds a challenge on the terms a call read. -/
def Holding (state : State) (id : String) (challenge : LoginCode) : Prop :=
  ∃ code, state.codes.get? id = some code ∧ code.terms = challenge.terms

/-- What a call knows where it stands. -/
def Knows (settings : Settings) (state : State) : Phase → Prop
  | .fetching _ _ _ now => now ≤ state.clock
  | .matching id _ _ now challenge => now ≤ state.clock ∧ Holding state id challenge
  | .consuming attempt proof => attempt.now ≤ state.clock ∧ Holding state attempt.challengeId attempt.challenge ∧
      attempt.valid = false ∧ Attempt.ValidFor settings { attempt with proof := some proof } attempt.challenge
  | .claiming attempt => attempt.now ≤ state.clock ∧ Holding state attempt.challengeId attempt.challenge ∧
      (attempt.valid = true → attempt.ValidFor settings attempt.challenge)
  | _ => True

section Knowledge
variable {settings : Settings} {backend : Backend} {state next : State}

theorem Holding.later {id : String} {challenge : LoginCode} (holding : Holding state id challenge) (later : Later state next) :
    Holding next id challenge := by
  obtain ⟨code, found, same⟩ := holding
  obtain ⟨after, foundAfter, kept⟩ := later.codes found
  exact ⟨after, foundAfter, kept.trans same⟩

theorem Knows.later {phase : Phase} (knows : Knows settings state phase) (later : Later state next) : Knows settings next phase := by
  have clock := later.clock
  cases phase with
  | fetching => exact Int.le_trans knows clock
  | matching => exact ⟨Int.le_trans knows.1 clock, knows.2.later later⟩
  | consuming => exact ⟨Int.le_trans knows.1 clock, knows.2.1.later later, knows.2.2⟩
  | claiming => exact ⟨Int.le_trans knows.1 clock, knows.2.1.later later, knows.2.2⟩
  | _ => trivial

/-- A step that asks the store for no challenge. -/
structure Quiet (settings : Settings) (state next : State) (call : ℕ) (phase : Phase) : Prop where
  calls : next.calls = Function.update state.calls call phase
  clock : next.clock = state.clock
  codes : next.codes = state.codes
  failures : next.failures = state.failures
  history : next.history = state.history
  knows : Knows settings state phase

theorem quiet_stand {call : ℕ} {phase : Phase} (knows : Knows settings state phase) :
    Quiet settings state (state.stand call phase) call phase := ⟨rfl, rfl, rfl, rfl, rfl, knows⟩

theorem quiet_raise {call : ℕ} (refusal : Refusal) : Quiet settings state (state.raise call refusal) call (.ended (.raised refusal)) :=
  quiet_stand trivial

theorem quiet_fetchCode {call : ℕ} {id code requestedIp : String} {now : Int} (begun : now ≤ state.clock) :
    ∃ phase, Quiet settings state (state.fetchCode call id code requestedIp now) call phase := by
  unfold State.fetchCode
  split
  · exact ⟨_, quiet_raise _⟩
  · rename_i challenge found
    exact ⟨_, quiet_stand ⟨begun, challenge, found, rfl⟩⟩

theorem quiet_matchCode {call : ℕ} {id code requestedIp : String} {now : Int} {challenge : LoginCode} {userActive : Bool}
    (begun : now ≤ state.clock) (holding : Holding state id challenge) :
    ∃ phase, Quiet settings state (state.matchCode settings call id code requestedIp now challenge userActive) call phase := by
  unfold State.matchCode
  dsimp only
  split
  · rename_i method
    refine ⟨_, quiet_stand ⟨begun, holding, fun valid => ?_⟩⟩
    unfold Attempt.ValidFor
    rw [method]
    exact of_decide_eq_true valid
  · rename_i method
    split
    · exact ⟨_, quiet_stand ⟨begun, holding, fun valid => nomatch valid⟩⟩
    · rename_i credential found
      split
      · exact ⟨_, quiet_stand ⟨begun, holding, fun valid => nomatch valid⟩⟩
      · rename_i step matched
        refine ⟨_, quiet_stand ⟨begun, holding, rfl, ?_⟩⟩
        unfold Attempt.ValidFor
        rw [method]
        exact ⟨credential, step, rfl, (Option.filter_eq_some_iff.mp found).2, matched, rfl⟩

theorem quiet_consumeStep {call : ℕ} {attempt : Attempt} {proof : Proof} (knows : Knows settings state (.consuming attempt proof)) :
    ∃ phase, Quiet settings state (state.consumeStep backend call attempt proof) call phase := by
  obtain ⟨begun, holding, invalid, valid⟩ := knows
  unfold State.consumeStep
  split
  · refine ⟨_, quiet_stand ⟨begun, holding, fun given => ?_⟩⟩
    rw [invalid] at given
    cases given
  · exact ⟨.claiming _, rfl, rfl, rfl, rfl, rfl, begun, holding, fun _ => valid⟩

theorem quiet_setups {call : ℕ} {answer : Answer} (advanced : state.advance settings backend call answer = some next)
    (setup : match state.calls call with
      | .beginning .. | .drawing .. | .staging .. | .confirming .. | .promoting .. | .disabling .. | .deleting .. => True
      | _ => False) : ∃ phase, Quiet settings state next call phase := by
  unfold State.advance at advanced
  split at advanced <;> rename_i standing <;> rw [standing] at setup <;> try exact setup.elim
  · cases advanced
    unfold State.checkEnabled
    split
    · exact ⟨_, quiet_raise _⟩
    · exact ⟨_, quiet_stand trivial⟩
  · unfold State.drawSecret at advanced
    split at advanced
    · cases advanced
    · cases advanced
      exact ⟨.staging _ _ _ _, rfl, rfl, rfl, rfl, rfl, trivial⟩
  · cases advanced
    unfold State.storeSecret
    dsimp only
    split
    · split
      · exact ⟨_, quiet_raise _⟩
      · exact ⟨.ended _, rfl, rfl, rfl, rfl, rfl, trivial⟩
    · exact ⟨.ended _, rfl, rfl, rfl, rfl, rfl, trivial⟩
  · cases advanced
    unfold State.matchSetup
    split
    · exact ⟨_, quiet_raise _⟩
    · split
      · exact ⟨_, quiet_raise _⟩
      · split
        · exact ⟨_, quiet_raise _⟩
        · exact ⟨_, quiet_stand trivial⟩
  · cases advanced
    unfold State.promote
    dsimp only
    split
    · exact ⟨_, quiet_raise _⟩
    · exact ⟨.ended _, rfl, rfl, rfl, rfl, rfl, trivial⟩
  · cases advanced
    unfold State.matchRemoval
    split
    · exact ⟨_, quiet_raise _⟩
    · split
      · exact ⟨_, quiet_raise _⟩
      · exact ⟨_, quiet_stand trivial⟩
  · cases advanced
    exact ⟨.ended _, rfl, rfl, rfl, rfl, rfl, trivial⟩

/-- What a step does to the store of challenges. -/
inductive Moved (settings : Settings) (state : State) (action : Action) : State → Prop
  | ticked (elapsed : ℕ) : Moved settings state action { state with clock := state.clock + elapsed }
  | quiet {next : State} (call : ℕ) (phase : Phase) (quiet : Quiet settings state next call phase) : Moved settings state action next
  | stored {next : State} (call : ℕ) (email requestedIp : String) (now : Int) (method : Method) (answer : Answer)
      (advances : action = .advance call answer) (standing : state.calls call = .storing email requestedIp now method)
      (stored : state.storeCode settings call email requestedIp now method answer = some next) : Moved settings state action next
  | claimed (call : ℕ) (attempt : Attempt) (knows : Knows settings state (.claiming attempt)) :
      Moved settings state action (state.claimAttempt settings call attempt)

theorem moved_enter {action : Action} {call : ℕ} {phase : Phase} (admitted : state.enter call phase = some next)
    (knows : Knows settings state phase) : Moved settings state action next := by
  unfold State.enter at admitted
  split at admitted
  · cases admitted
    exact .quiet call phase (quiet_stand knows)
  · cases admitted

theorem moved_of_step {action : Action} (known : ∀ call, Knows settings state (state.calls call))
    (step : state.step settings backend action = some next) : Moved settings state action next := by
  cases action with
  | tick elapsed =>
    cases step
    exact .ticked elapsed
  | requestCode call email requestedIp auto => exact moved_enter step trivial
  | verifyCode call challengeId code requestedIp => exact moved_enter step (Int.le_refl _)
  | beginTotpSetup call email replace => exact moved_enter step trivial
  | confirmTotpSetup call email code => exact moved_enter step trivial
  | disableTotp call email code => exact moved_enter step trivial
  | advance call answer =>
    have knows := known call
    have advanced : state.advance settings backend call answer = some next := step
    unfold State.step State.advance at step
    dsimp only at step
    cases standing : state.calls call with
    | unborn | ended =>
      rw [standing] at step
      cases step
    | counting email requestedIp auto now =>
      rw [standing] at step
      cases step
      unfold State.countCodes
      dsimp only
      split
      · exact .quiet call _ (quiet_raise _)
      · exact .quiet call _ (quiet_stand trivial)
    | choosing email requestedIp auto now =>
      rw [standing] at step
      cases step
      exact .quiet call _ (quiet_stand trivial)
    | storing email requestedIp now method =>
      rw [standing] at step
      exact .stored call email requestedIp now method answer rfl standing step
    | fetching challengeId code requestedIp now =>
      rw [standing] at step knows
      cases step
      obtain ⟨phase, quiet⟩ := quiet_fetchCode knows
      exact .quiet call phase quiet
    | matching challengeId code requestedIp now challenge =>
      rw [standing] at step knows
      cases step
      obtain ⟨phase, quiet⟩ := quiet_matchCode knows.1 knows.2
      exact .quiet call phase quiet
    | consuming attempt proof =>
      rw [standing] at step knows
      cases step
      obtain ⟨phase, quiet⟩ := quiet_consumeStep knows
      exact .quiet call phase quiet
    | claiming attempt =>
      rw [standing] at step knows
      cases step
      exact .claimed call attempt knows
    | beginning | drawing | staging | confirming | promoting | disabling | deleting =>
      obtain ⟨phase, quiet⟩ := quiet_setups advanced (by rw [standing]; trivial)
      exact .quiet call phase quiet

end Knowledge
end C3po.Access
