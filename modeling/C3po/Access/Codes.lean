import C3po.Library.Dict

/-! Login challenges and the credentials of the authenticator: what each call of the store
does, in one step. Instants count microseconds; addresses of e-mail come normalised.
-/

set_option autoImplicit false

namespace C3po.Access
open C3po.Library

def minutes (count : Int) : Int := count * 60000000

/-- The settings the service reads, with its keyed hash of a code and the authenticator's code of a step. -/
structure Settings where
  authCodeMinutes : Int := 10
  authRequestLimitPerEmail : ℕ := 5
  authRequestLimitPerIp : ℕ := 10
  authVerifyFailureLimitPerIp : ℕ := 15
  authRateLimitMinutes : Int := 15
  codeHash : String → String → String
  totpCode : String → Int → String

inductive Method where
  | email
  | totp
  deriving DecidableEq, Repr

/-- A row of `auth_login_codes`, but its id. -/
structure LoginCode where
  email : String
  codeHash : String
  expiresAt : Int
  attempts : ℕ := 0
  maxAttempts : ℕ := 5
  usedAt : Option Int := none
  requestedIp : String
  createdAt : Int
  verificationMethod : Method
  deriving DecidableEq, Repr

/-- An `auth.otp_failed` event. -/
structure Failure where
  actor : String
  challengeId : String
  requestedIp : String
  reason : String
  occurredAt : Int
  deriving DecidableEq, Repr

/-- A row of `auth_totp_credentials`, but its e-mail; the secrets as they are read back. -/
structure Credential where
  secret : String
  confirmedAt : Option Int := none
  setupExpiresAt : Int
  lastUsedStep : Option Int := none
  createdAt : Int
  updatedAt : Int
  pendingSecret : Option String := none
  pendingSetupExpiresAt : Option Int := none
  deriving DecidableEq, Repr

inductive Backend where
  | memory
  | postgres
  deriving DecidableEq, Repr

section LoginCodes
variable (codes : Dict String LoginCode)

/-- How many challenges of an e-mail, and of an address, were created since. -/
def recentLoginCodeCounts (email requestedIp : String) (since : Int) : ℕ × ℕ :=
  (codes.entries.countP fun entry => entry.2.email = email ∧ since ≤ entry.2.createdAt,
    codes.entries.countP fun entry => entry.2.requestedIp = requestedIp ∧ since ≤ entry.2.createdAt)

/-- An unused challenge of the e-mail counts as used from now on. -/
def LoginCode.supersede (email : String) (now : Int) (code : LoginCode) : LoginCode :=
  if code.email = email ∧ code.usedAt = none then { code with usedAt := some now } else code

def createLoginCode (id : String) (code : LoginCode) : Dict String LoginCode :=
  (codes.mapValues (LoginCode.supersede code.email code.createdAt)).insert id code

def LoginCode.active (code : LoginCode) (now : Int) : Bool :=
  code.usedAt = none ∧ now < code.expiresAt ∧ code.attempts < code.maxAttempts

inductive Outcome where
  | rateLimited
  | inactive
  | failed
  | accepted
  deriving DecidableEq, Repr

def recentFailures (failures : List Failure) (requestedIp : String) (since : Int) : ℕ :=
  failures.countP fun failure => failure.requestedIp = requestedIp ∧ since ≤ failure.occurredAt

/-- `claim_login_attempt`; the store's clock dates the failure it notes. -/
def claimLoginAttempt (failures : List Failure) (challengeId : String) (codeValid : Bool) (requestedIp : String) (now since : Int)
    (ipFailureLimit : ℕ) (clock : Int) : Outcome × Dict String LoginCode × List Failure :=
  if ipFailureLimit ≤ recentFailures failures requestedIp since then (.rateLimited, codes, failures)
  else
    match codes.get? challengeId with
    | none => (.inactive, codes, failures ++ [⟨"anonymous", challengeId, requestedIp, "inactive_challenge", clock⟩])
    | some code =>
      if code.active now then
        if codeValid then
          (.accepted, codes.insert challengeId { code with attempts := code.attempts + 1, usedAt := some now }, failures)
        else
          (.failed, codes.insert challengeId { code with attempts := code.attempts + 1 },
            failures ++ [⟨code.email, challengeId, requestedIp, "invalid_code", clock⟩])
      else (.inactive, codes, failures ++ [⟨code.email, challengeId, requestedIp, "inactive_challenge", clock⟩])

end LoginCodes

section Authenticator

/-- `upsert_totp_setup`: the table keeps what the memory forgets of the row it overwrites. -/
def upsertTotpSetup (backend : Backend) (secret : String) (expiresAt now : Int) (row : Option Credential) : Credential :=
  match backend, row with
  | .postgres, some old =>
    { old with secret := secret, confirmedAt := none, setupExpiresAt := expiresAt, lastUsedStep := none, updatedAt := now }
  | _, _ => { secret := secret, setupExpiresAt := expiresAt, createdAt := now, updatedAt := now }

def stageTotpReconfiguration (secret : String) (expiresAt now : Int) (row : Credential) : Option Credential :=
  if row.confirmedAt.isSome then
    some { row with pendingSecret := some secret, pendingSetupExpiresAt := some expiresAt, updatedAt := now }
  else none

def confirmTotpReconfiguration (step now : Int) (row : Credential) : Option Credential :=
  match row.confirmedAt, row.pendingSecret, row.pendingSetupExpiresAt with
  | some _, some pending, some expiresAt =>
    if now < expiresAt then
      some { row with
        secret := pending, setupExpiresAt := expiresAt, confirmedAt := some now, lastUsedStep := some step
        pendingSecret := none, pendingSetupExpiresAt := none, updatedAt := now }
    else none
  | _, _, _ => none

def confirmTotp (step now : Int) (row : Credential) : Option Credential :=
  if row.confirmedAt = none ∧ now < row.setupExpiresAt then
    some { row with confirmedAt := some now, lastUsedStep := some step, updatedAt := now }
  else none

/-- No step up to the last one used; the memory takes step zero for none. -/
def unusedStep (backend : Backend) (step : Int) : Option Int → Bool
  | none => backend = .postgres ∨ -1 < step
  | some last => if backend = .memory ∧ last = 0 then -1 < step else last < step

def claimTotpStep (backend : Backend) (step now : Int) (row : Credential) : Option Credential :=
  if row.confirmedAt.isSome ∧ unusedStep backend step row.lastUsedStep then
    some { row with lastUsedStep := some step, updatedAt := now }
  else none

/-- The step of the authenticator an instant lies in. -/
def stepOf (now : Int) : Int := now / 30000000

def Settings.matchingTotpStep (settings : Settings) (secret code : String) (now : Int) : Option Int :=
  [stepOf now, stepOf now - 1, stepOf now + 1].find? fun step => settings.totpCode secret step = code

end Authenticator

/-! The calls of the access service, each as the steps it takes: one call of the store, or
one reading of the clock, a step.
-/

inductive Refusal where
  | authentication (text : String)
  | rateLimited (text : String)
  deriving DecidableEq, Repr

def invalidCode : Refusal := .authentication "Código inválido ou expirado."
def expiredSetup : Refusal := .authentication "A configuração expirou. Gere um novo QR Code."

/-- The step of a secret whose code a call was made with. -/
structure Proof where
  email : String
  secret : String
  step : Int
  deriving DecidableEq, Repr

/-- How a call ended. -/
inductive Ending where
  | requested (challengeId : String)
  | accepted (challengeId : String) (proof : Option Proof)
  | begun (secret : String)
  | confirmed (proof : Proof)
  | disabled
  | raised (refusal : Refusal)
  deriving DecidableEq, Repr

/-- An attempt on a challenge: when the call began, the challenge, the user and the credential
as it read them, and the step it used up, if any. -/
structure Attempt where
  challengeId : String
  code : String
  requestedIp : String
  now : Int
  challenge : LoginCode
  userActive : Bool
  credential : Option Credential
  valid : Bool
  proof : Option Proof
  deriving DecidableEq, Repr

/-- Where a call stands; each waits for its next step. -/
inductive Phase where
  | unborn
  | counting (email requestedIp : String) (auto : Bool) (now : Int)
  | choosing (email requestedIp : String) (auto : Bool) (now : Int)
  | storing (email requestedIp : String) (now : Int) (method : Method)
  | fetching (challengeId code requestedIp : String) (now : Int)
  | matching (challengeId code requestedIp : String) (now : Int) (challenge : LoginCode)
  | consuming (attempt : Attempt) (proof : Proof)
  | claiming (attempt : Attempt)
  | beginning (email : String) (replace : Bool)
  | drawing (email : String) (enabled : Bool)
  | staging (email secret : String) (enabled : Bool) (now : Int)
  | confirming (email code : String) (now : Int)
  | promoting (email code : String) (now : Int) (replacing : Bool) (secret : String) (step : Int)
  | disabling (email code : String) (now : Int)
  | deleting (email code : String) (now : Int) (secret : String) (step : Int)
  | ended (ending : Ending)
  deriving DecidableEq, Repr

/-- What the store was asked, in order: the challenges stored and the attempts claimed. -/
inductive Record where
  | stored (challengeId : String) (code : LoginCode)
  | attempted (attempt : Attempt) (outcome : Outcome) (clock : Int)
  deriving DecidableEq, Repr

/-- The store, the clock and the calls. The last two fields only note what happened: the
secrets generated so far, and what the store was asked. -/
structure State where
  clock : Int
  codes : Dict String LoginCode := Dict.empty
  failures : List Failure := []
  credentials : Dict String Credential := Dict.empty
  calls : ℕ → Phase := fun _ => .unborn
  drawn : List String := []
  history : List Record := []

/-- What the world answers a step: whether the user is active, the identifiers and the code
generated. -/
structure Answer where
  userActive : Bool := true
  id : String := ""
  code : String := ""
  secret : String := ""
  deriving DecidableEq, Repr

inductive Action where
  | tick (elapsed : ℕ)
  | requestCode (call : ℕ) (email requestedIp : String) (auto : Bool)
  | verifyCode (call : ℕ) (challengeId code requestedIp : String)
  | beginTotpSetup (call : ℕ) (email : String) (replace : Bool)
  | confirmTotpSetup (call : ℕ) (email code : String)
  | disableTotp (call : ℕ) (email code : String)
  | advance (call : ℕ) (answer : Answer)
  deriving DecidableEq, Repr

namespace State
variable (state : State)

def stand (call : ℕ) (phase : Phase) : State := { state with calls := Function.update state.calls call phase }

def finish (call : ℕ) (ending : Ending) : State := state.stand call (.ended ending)

def raise (call : ℕ) (refusal : Refusal) : State := state.finish call (.raised refusal)

def totpEnabled (email : String) : Bool := (state.credentials.get? email).any (·.confirmedAt.isSome)

variable (settings : Settings) (backend : Backend)

section Requests

def countCodes (call : ℕ) (email requestedIp : String) (auto : Bool) (now : Int) : State :=
  let (emailCount, ipCount) := recentLoginCodeCounts state.codes email requestedIp (now - minutes settings.authRateLimitMinutes)
  if settings.authRequestLimitPerEmail ≤ emailCount ∨ settings.authRequestLimitPerIp ≤ ipCount then
    state.raise call (.rateLimited "Aguarde alguns minutos antes de solicitar outro código.")
  else state.stand call (.choosing email requestedIp auto now)

def choose (call : ℕ) (email requestedIp : String) (auto : Bool) (now : Int) : State :=
  state.stand call (.storing email requestedIp now (if auto ∧ state.totpEnabled email then .totp else .email))

def challengeOf (email requestedIp : String) (now : Int) (method : Method) (id code : String) : LoginCode where
  email := email
  codeHash := settings.codeHash id code
  expiresAt := now + minutes settings.authCodeMinutes
  requestedIp := requestedIp
  createdAt := now
  verificationMethod := method

/-- Identifiers are new whenever they are generated. -/
def storeCode (call : ℕ) (email requestedIp : String) (now : Int) (method : Method) (answer : Answer) : Option State :=
  if answer.id ∈ state.codes.keys then none
  else
    let code := challengeOf settings email requestedIp now method answer.id answer.code
    some { state.finish call (.requested answer.id) with
      codes := createLoginCode state.codes answer.id code
      history := state.history ++ [.stored answer.id code] }

end Requests

section Verifications

def fetchCode (call : ℕ) (challengeId code requestedIp : String) (now : Int) : State :=
  match state.codes.get? challengeId with
  | none => state.raise call invalidCode
  | some challenge => state.stand call (.matching challengeId code requestedIp now challenge)

/-- The credential is read for an authenticator's challenge only; the user may be any. -/
def matchCode (call : ℕ) (challengeId code requestedIp : String) (now : Int) (challenge : LoginCode) (userActive : Bool) : State :=
  let read (credential : Option Credential) (valid : Bool) : Attempt :=
    ⟨challengeId, code, requestedIp, now, challenge, userActive, credential, valid, none⟩
  match challenge.verificationMethod with
  | .email => state.stand call (.claiming (read none (settings.codeHash challengeId code = challenge.codeHash)))
  | .totp =>
    match (state.credentials.get? challenge.email).filter (·.confirmedAt.isSome) with
    | none => state.stand call (.claiming (read none false))
    | some credential =>
      match settings.matchingTotpStep credential.secret code now with
      | none => state.stand call (.claiming (read (some credential) false))
      | some step => state.stand call (.consuming (read (some credential) false) ⟨challenge.email, credential.secret, step⟩)

def consumeStep (call : ℕ) (attempt : Attempt) (proof : Proof) : State :=
  match (state.credentials.get? proof.email).bind (claimTotpStep backend proof.step attempt.now) with
  | none => state.stand call (.claiming attempt)
  | some row =>
    { state.stand call (.claiming { attempt with valid := true, proof := some proof }) with
      credentials := state.credentials.insert proof.email row }

def claimAttempt (call : ℕ) (attempt : Attempt) : State :=
  let (outcome, codes, failures) := claimLoginAttempt state.codes state.failures attempt.challengeId (attempt.valid && attempt.userActive)
    attempt.requestedIp attempt.now (attempt.now - minutes settings.authRateLimitMinutes) settings.authVerifyFailureLimitPerIp state.clock
  let ending := match outcome with
    | .rateLimited => .raised (.rateLimited "Muitas tentativas de acesso. Aguarde alguns minutos.")
    | .inactive | .failed => .raised invalidCode
    | .accepted => .accepted attempt.challengeId attempt.proof
  { state.finish call ending with
    codes := codes, failures := failures, history := state.history ++ [.attempted attempt outcome state.clock] }

end Verifications

section Setups

def checkEnabled (call : ℕ) (email : String) (replace : Bool) : State :=
  if state.totpEnabled email ∧ ¬ replace then
    state.raise call (.authentication "O autenticador já está ativo para este usuário.")
  else state.stand call (.drawing email (state.totpEnabled email))

/-- A secret is new whenever it is generated. -/
def drawSecret (call : ℕ) (email : String) (enabled : Bool) (secret : String) : Option State :=
  if secret ∈ state.drawn then none
  else some { state.stand call (.staging email secret enabled state.clock) with drawn := secret :: state.drawn }

def storeSecret (call : ℕ) (email secret : String) (enabled : Bool) (now : Int) : State :=
  let expiresAt := now + minutes 10
  if enabled then
    match (state.credentials.get? email).bind (stageTotpReconfiguration secret expiresAt now) with
    | none => state.raise call (.authentication "Não foi possível iniciar a troca do autenticador.")
    | some row => { state.finish call (.begun secret) with credentials := state.credentials.insert email row }
  else
    { state.finish call (.begun secret) with
      credentials := state.credentials.insert email (upsertTotpSetup backend secret expiresAt now (state.credentials.get? email)) }

/-- The secret that waits for its first code, in a row that replaces one or in a new one. -/
def Credential.waiting (row : Credential) (now : Int) : Option String :=
  if row.confirmedAt.isSome then
    if row.pendingSetupExpiresAt.any (now < ·) then row.pendingSecret else none
  else if now < row.setupExpiresAt then some row.secret
  else none

def matchSetup (call : ℕ) (email code : String) (now : Int) : State :=
  match state.credentials.get? email with
  | none => state.raise call expiredSetup
  | some row =>
    match Credential.waiting row now with
    | none => state.raise call expiredSetup
    | some secret =>
      match settings.matchingTotpStep secret code now with
      | none => state.raise call (.authentication "Código inválido. Confira o app Senhas e tente novamente.")
      | some step => state.stand call (.promoting email code now row.confirmedAt.isSome secret step)

def promote (call : ℕ) (email : String) (now : Int) (replacing : Bool) (secret : String) (step : Int) : State :=
  let confirm := if replacing then confirmTotpReconfiguration step now else confirmTotp step now
  match (state.credentials.get? email).bind confirm with
  | none => state.raise call (.authentication "Código inválido. Confira o app Senhas e tente novamente.")
  | some row =>
    { state.finish call (.confirmed ⟨email, secret, step⟩) with credentials := state.credentials.insert email row }

def matchRemoval (call : ℕ) (email code : String) (now : Int) : State :=
  match (state.credentials.get? email).filter (·.confirmedAt.isSome) with
  | none => state.raise call (.authentication "O autenticador não está ativo.")
  | some row =>
    match settings.matchingTotpStep row.secret code now with
    | none => state.raise call (.authentication "Código inválido.")
    | some step => state.stand call (.deleting email code now row.secret step)

def remove (call : ℕ) (email : String) : State :=
  { state.finish call .disabled with credentials := state.credentials.erase email }

end Setups

def advance (call : ℕ) (answer : Answer) : Option State :=
  match state.calls call with
  | .unborn | .ended _ => none
  | .counting email requestedIp auto now => some (state.countCodes settings call email requestedIp auto now)
  | .choosing email requestedIp auto now => some (state.choose call email requestedIp auto now)
  | .storing email requestedIp now method => state.storeCode settings call email requestedIp now method answer
  | .fetching challengeId code requestedIp now => some (state.fetchCode call challengeId code requestedIp now)
  | .matching challengeId code requestedIp now challenge =>
    some (state.matchCode settings call challengeId code requestedIp now challenge answer.userActive)
  | .consuming attempt proof => some (state.consumeStep backend call attempt proof)
  | .claiming attempt => some (state.claimAttempt settings call attempt)
  | .beginning email replace => some (state.checkEnabled call email replace)
  | .drawing email enabled => state.drawSecret call email enabled answer.secret
  | .staging email secret enabled now => some (state.storeSecret backend call email secret enabled now)
  | .confirming email code now => some (state.matchSetup settings call email code now)
  | .promoting email _ now replacing secret step => some (state.promote call email now replacing secret step)
  | .disabling email code now => some (state.matchRemoval settings call email code now)
  | .deleting email _ _ _ _ => some (state.remove call email)

/-- A call begins under a number of its own. -/
def enter (call : ℕ) (phase : Phase) : Option State :=
  match state.calls call with
  | .unborn => some (state.stand call phase)
  | _ => none

def step : Action → Option State
  | .tick elapsed => some { state with clock := state.clock + elapsed }
  | .requestCode call email requestedIp auto => state.enter call (.counting email requestedIp auto state.clock)
  | .verifyCode call challengeId code requestedIp => state.enter call (.fetching challengeId code requestedIp state.clock)
  | .beginTotpSetup call email replace => state.enter call (.beginning email replace)
  | .confirmTotpSetup call email code => state.enter call (.confirming email code state.clock)
  | .disableTotp call email code => state.enter call (.disabling email code state.clock)
  | .advance call answer => state.advance settings backend call answer

end State
end C3po.Access
