import Mathlib.Logic.Function.Basic
import C3po.Access.Codes
import C3po.Library.Loops

/-! Sessions: what an accepted code opens, and what ends it. Every call of the store is one
step, and an authentication is two: it checks the session, then reads the account.
-/

set_option autoImplicit false

namespace C3po.Access.Sessions
open C3po.Library

structure Policy where
  authEmail : String
  authSessionHours : Int := 24
  authOwnerSessionHours : Int := 24
  authOwnerIdleMinutes : Int := 360
  authMemberIdleMinutes : Int := 60

inductive Role where
  | owner
  | member
  deriving DecidableEq, Repr

/-- A row of `auth_sessions`, but its id and the hash of its token. -/
structure Session where
  email : String
  expiresAt : Int
  createdAt : Int
  lastSeenAt : Int
  createdIp : String
  idleTimeoutSeconds : Int
  revokedAt : Option Int := none
  deriving DecidableEq, Repr

/-- A row of `access_users`, but its e-mail and its dates. -/
structure AccessUser where
  displayName : String
  role : Role := .member
  isActive : Bool := true
  permissions : List String := []
  capabilities : List String := ["read"]
  deriving DecidableEq, Repr

def seconds (count : Int) : Int := count * 1000000

def Policy.idleTimeoutSeconds (policy : Policy) (email : String) : Int :=
  (if email = policy.authEmail then policy.authOwnerIdleMinutes else policy.authMemberIdleMinutes) * 60

/-- The session that `verify_code` creates for an accepted code. -/
def Policy.opened (policy : Policy) (email : String) (role : Role) (createdIp : String) (now : Int) : Session where
  email := email
  expiresAt := now + minutes (60 * if role = .owner ∨ email = policy.authEmail then policy.authOwnerSessionHours else policy.authSessionHours)
  createdAt := now
  lastSeenAt := now
  createdIp := createdIp
  idleTimeoutSeconds := policy.idleTimeoutSeconds email

def Session.lapsed (session : Session) (desired now : Int) : Bool :=
  session.expiresAt ≤ now ∨ session.lastSeenAt + seconds (min session.idleTimeoutSeconds desired) ≤ now

/-- `get_session` on a row, and what it answers: a session that has lapsed is revoked on the spot. -/
def Session.check (session : Session) (desired now : Int) (touchActivity : Bool) : Session × Option Session :=
  if session.revokedAt.isSome then (session, none)
  else if session.lapsed desired now then ({ session with revokedAt := some now }, none)
  else
    let kept := { session with idleTimeoutSeconds := desired, lastSeenAt := if touchActivity then now else session.lastSeenAt }
    (kept, some kept)

def Session.revokeFor (email : String) (now : Int) (session : Session) : Session :=
  if session.email = email ∧ session.revokedAt = none then { session with revokedAt := some now } else session

/-- What the store was asked, in the order of its steps. -/
inductive Record where
  | login (token : String) (session : Session)
  | checked (token : String) (policy : Policy) (now : Int) (touched : Bool) (found : Option Session)
  | logout (token : String)
  | revoked (email : String)
  | saved (email : String) (user : AccessUser)
  | deleted (email : String)
  | admitted (token : String) (session : Session) (user : AccessUser)

/-- An authentication between its two steps, or after them. -/
inductive Phase where
  | unborn
  | checked (token : String) (session : Session)
  | refused
  | authenticated (session : Session) (user : AccessUser)

structure State where
  sessions : Dict String Session := Dict.empty
  users : Dict String AccessUser := Dict.empty
  calls : ℕ → Phase := fun _ => .unborn
  history : List Record := []

inductive Action where
  | login (policy : Policy) (token email : String) (role : Role) (createdIp : String) (now : Int)
  | authenticate (call : ℕ) (policy : Policy) (token : String) (now : Int) (touchActivity : Bool)
  | readUser (call : ℕ)
  | logout (token : String) (now : Int)
  | revokeSessionsForEmail (email : String) (now : Int)
  | upsertAccessUser (email : String) (user : AccessUser)
  | deleteAccessUser (email : String)

namespace State
variable (state : State)

def note (record : Record) : State := { state with history := state.history ++ [record] }

def stand (call : ℕ) (phase : Phase) : State := { state with calls := Function.update state.calls call phase }

/-- `create_session`: the hash of a token is unique. -/
def createSession (token : String) (session : Session) : State :=
  if (state.sessions.get? token).isSome then state
  else { state with sessions := state.sessions.insert token session }.note (.login token session)

def getSession (call : ℕ) (policy : Policy) (token : String) (now : Int) (touchActivity : Bool) : State :=
  match state.sessions.get? token with
  | none => (state.stand call .refused).note (.checked token policy now touchActivity none)
  | some session =>
    let checked := session.check (policy.idleTimeoutSeconds session.email) now touchActivity
    { state.stand call (checked.2.elim .refused (.checked token)) with sessions := state.sessions.insert token checked.1 }.note
      (.checked token policy now touchActivity checked.2)

/-- The second half of `authenticate`: the account has to be there and active. -/
def getAccessUser (call : ℕ) (token : String) (session : Session) : State :=
  match state.users.get? session.email with
  | some user =>
    if user.isActive then (state.stand call (.authenticated session user)).note (.admitted token session user)
    else state.stand call .refused
  | none => state.stand call .refused

def revokeSession (token : String) (now : Int) : State :=
  match state.sessions.get? token with
  | some session => { state with sessions := state.sessions.insert token { session with revokedAt := some now } }
  | none => state

/-- The table keeps the role of an account that exists. -/
def upsertAccessUser (email : String) (user : AccessUser) : AccessUser :=
  { user with role := ((state.users.get? email).map AccessUser.role).getD user.role }

/-- One call of the store; what cannot happen in a state leaves it. -/
def step : Action → State
  | .login policy token email role createdIp now => state.createSession token (policy.opened email role createdIp now)
  | .authenticate call policy token now touchActivity =>
    match state.calls call with
    | .unborn => state.getSession call policy token now touchActivity
    | _ => state
  | .readUser call =>
    match state.calls call with
    | .checked token session => state.getAccessUser call token session
    | _ => state
  | .logout token now => (state.revokeSession token now).note (.logout token)
  | .revokeSessionsForEmail email now =>
    { state with sessions := state.sessions.mapValues (Session.revokeFor email now) }.note (.revoked email)
  | .upsertAccessUser email user =>
    { state with users := state.users.insert email (state.upsertAccessUser email user) }.note (.saved email (state.upsertAccessUser email user))
  | .deleteAccessUser email => { state with users := state.users.erase email }.note (.deleted email)

end State

/-! What the records say of a session. -/

/-- What ends the session of a token: a logout, the revocation of its e-mail's sessions, and a check that found it lapsed. -/
def Record.ends (token email : String) : Record → Bool
  | .logout other => other = token
  | .revoked other => other = email
  | .checked other _ _ _ none => other = token
  | _ => false

/-- The instant at which a record shows its token in use. -/
def Record.sign (token : String) : Record → Option Int
  | .login other session => if other = token then some session.createdAt else none
  | .checked other _ now true (some _) => if other = token then some now else none
  | _ => none

def Record.writes (email : String) : Record → Bool
  | .saved other _ => other = email
  | .deleted other => other = email
  | _ => false

/-- A session as it stands: opened by a login that nothing has ended since, and last in use at its last sign. -/
def Standing (history : List Record) (token : String) (session : Session) : Prop :=
  ∃ earlier start later, history = earlier ++ .login token start :: later ∧ session.email = start.email ∧
    session.expiresAt = start.expiresAt ∧ (∀ record ∈ later, record.ends token session.email = false) ∧
      ∃ record ∈ .login token start :: later, record.sign token = some session.lastSeenAt

def Written (history : List Record) (email : String) (user : AccessUser) : Prop :=
  ∃ earlier later, history = earlier ++ .saved email user :: later ∧ ∀ record ∈ later, record.writes email = false

/-- A check that found its session: it stood, had not expired and was in use within the idle time of today. -/
def Checked (history : List Record) (token : String) (session : Session) : Prop :=
  ∃ before policy now touched after prior, history = before ++ .checked token policy now touched (some session) :: after ∧
    Standing before token prior ∧ session.email = prior.email ∧ session.expiresAt = prior.expiresAt ∧ now < prior.expiresAt ∧
      now < prior.lastSeenAt + seconds (policy.idleTimeoutSeconds prior.email)

/-- Every admission is of a session that stood when it was checked, and of an account last written as active. -/
def Lawfully (history : List Record) : Prop :=
  ∀ before token session user after, history = before ++ .admitted token session user :: after →
    Checked before token session ∧ user.isActive = true ∧ Written before session.email user

def Record.opens : Record → Option String
  | .login token _ => some token
  | _ => none

/-- What holds of the store between any two steps. -/
structure Sound (state : State) : Prop where
  rows : ∀ token session, state.sessions.get? token = some session → session.revokedAt = none → Standing state.history token session
  users : ∀ email user, state.users.get? email = some user → Written state.history email user
  calls : ∀ call token session, state.calls call = .checked token session → Checked state.history token session
  known : ∀ token ∈ state.history.filterMap Record.opens, (state.sessions.get? token).isSome
  once : (state.history.filterMap Record.opens).Nodup
  lawful : Lawfully state.history

section
variable {state : State} {history : List Record} {record : Record} {token email : String} {session : Session} {user : AccessUser}

theorem Standing.next (standing : Standing history token session) {kept : Session} (email : kept.email = session.email)
    (expiresAt : kept.expiresAt = session.expiresAt) (quiet : record.ends token session.email = false)
    (seen : kept.lastSeenAt = session.lastSeenAt ∨ record.sign token = some kept.lastSeenAt) :
    Standing (history ++ [record]) token kept := by
  obtain ⟨earlier, start, later, rfl, sameEmail, sameEnd, unended, sign, member, last⟩ := standing
  refine ⟨earlier, start, later ++ [record], by simp, email.trans sameEmail, expiresAt.trans sameEnd, ?_, ?_⟩
  · intro other there
    rw [email]
    rcases List.mem_append.mp there with before | own
    · exact unended other before
    · rw [List.mem_singleton.mp own]
      exact quiet
  · rcases seen with same | own
    · exact ⟨sign, List.mem_append_left [record] member, last.trans (congrArg some same.symm)⟩
    · exact ⟨record, List.mem_cons_of_mem _ (List.mem_append_right _ (List.mem_singleton_self record)), own⟩

theorem Standing.snoc (standing : Standing history token session) (quiet : record.ends token session.email = false) :
    Standing (history ++ [record]) token session :=
  standing.next rfl rfl quiet (.inl rfl)

theorem Written.snoc (written : Written history email user) (quiet : record.writes email = false) :
    Written (history ++ [record]) email user := by
  obtain ⟨earlier, later, rfl, unwritten⟩ := written
  refine ⟨earlier, later ++ [record], by simp, fun other there => ?_⟩
  rcases List.mem_append.mp there with before | own
  · exact unwritten other before
  · rw [List.mem_singleton.mp own]
    exact quiet

theorem Checked.snoc (checked : Checked history token session) : Checked (history ++ [record]) token session := by
  obtain ⟨before, policy, now, touched, after, prior, rfl, rest⟩ := checked
  exact ⟨before, policy, now, touched, after ++ [record], prior, by simp, rest⟩

theorem lawfully_snoc (lawful : Lawfully history) (plain : ∀ token session user, record = .admitted token session user →
    Checked history token session ∧ user.isActive = true ∧ Written history session.email user) : Lawfully (history ++ [record]) := by
  intro before token session user after same
  rcases snoc_split same with ⟨rfl, rfl, rfl⟩ | ⟨rest, whole, rfl⟩
  · exact plain token session user rfl
  · exact lawful before token session user rest whole

theorem opens_snoc (history : List Record) (record : Record) (closed : record.opens = none) :
    (history ++ [record]).filterMap Record.opens = history.filterMap Record.opens := by
  rw [List.filterMap_append, List.filterMap_cons_none closed, List.filterMap_nil, List.append_nil]

theorem Sound.noted (sound : Sound state) {next : State} (record : Record) (closed : record.opens = none)
    (plain : ∀ token session user, record ≠ .admitted token session user) (history : next.history = state.history ++ [record])
    (rows : ∀ token session, next.sessions.get? token = some session → session.revokedAt = none → Standing next.history token session)
    (kept : ∀ token, (state.sessions.get? token).isSome → (next.sessions.get? token).isSome)
    (users : ∀ email user, next.users.get? email = some user → Written next.history email user)
    (calls : ∀ call token session, next.calls call = .checked token session → Checked next.history token session) : Sound next where
  rows := rows
  users := users
  calls := calls
  known token member := kept token (sound.known token (opens_snoc state.history record closed ▸ history ▸ member))
  once := by
    rw [history, opens_snoc _ record closed]
    exact sound.once
  lawful := history ▸ lawfully_snoc sound.lawful fun token session user same => absurd same (plain token session user)

theorem calls_snoc (sound : Sound state) : ∀ call token session, state.calls call = .checked token session →
    Checked (state.history ++ [record]) token session :=
  fun call token session there => (sound.calls call token session there).snoc

theorem calls_update (sound : Sound state) {call : ℕ} {phase : Phase}
    (own : ∀ token session, phase = .checked token session → Checked (state.history ++ [record]) token session) :
    ∀ other token session, Function.update state.calls call phase other = .checked token session →
      Checked (state.history ++ [record]) token session := by
  intro other token session there
  by_cases same : other = call
  · rw [same, Function.update_self] at there
    exact own token session there
  · rw [Function.update_of_ne same] at there
    exact calls_snoc sound other token session there

theorem users_snoc (sound : Sound state) (quiet : ∀ email, record.writes email = false) : ∀ email user,
    state.users.get? email = some user → Written (state.history ++ [record]) email user :=
  fun email user there => (sound.users email user there).snoc (quiet email)

theorem sound_createSession (sound : Sound state) (opened : session.createdAt = session.lastSeenAt) :
    Sound (state.createSession token session) := by
  unfold State.createSession
  split
  · exact sound
  rename_i absent
  constructor
  · intro other found there live
    change (state.sessions.insert token session).get? other = some found at there
    rw [Dict.get?_insert] at there
    split at there
    · rename_i own
      cases there
      rw [own]
      exact ⟨state.history, session, [], rfl, rfl, rfl, fun _ none => absurd none List.not_mem_nil, _, List.mem_singleton_self _,
        (if_pos rfl).trans (congrArg some opened)⟩
    · exact (sound.rows other found there live).snoc rfl
  · exact users_snoc sound fun _ => rfl
  · exact calls_snoc sound
  · intro other member
    change (Dict.get? (state.sessions.insert token session) other).isSome
    rw [Dict.get?_insert]
    split
    · rfl
    rename_i another
    change other ∈ (state.history ++ [Record.login token session]).filterMap Record.opens at member
    rw [List.filterMap_append, List.mem_append] at member
    rcases member with before | own
    · exact sound.known other before
    · exact absurd (List.mem_singleton.mp own) another
  · change ((state.history ++ [Record.login token session]).filterMap Record.opens).Nodup
    rw [List.filterMap_append]
    refine List.nodup_append.mpr ⟨sound.once, List.nodup_singleton _, fun first member second own same => ?_⟩
    rw [List.mem_singleton.mp own] at same
    exact absent (sound.known token (same ▸ member))
  · exact lawfully_snoc sound.lawful fun _ _ _ same => by cases same

theorem check_spec (session : Session) (desired now : Int) (touched : Bool) :
    (session.check desired now touched).2 = none ∧ (session.check desired now touched).1.revokedAt ≠ none ∨
      ∃ kept, session.check desired now touched = (kept, some kept) ∧ session.revokedAt = none ∧ kept.email = session.email ∧
        kept.expiresAt = session.expiresAt ∧ kept.lastSeenAt = (if touched then now else session.lastSeenAt) ∧
          now < session.expiresAt ∧ now < session.lastSeenAt + seconds desired := by
  unfold Session.check
  by_cases revoked : session.revokedAt.isSome = true
  · rw [if_pos revoked]
    exact .inl ⟨rfl, Option.ne_none_iff_isSome.mpr revoked⟩
  rw [if_neg revoked]
  by_cases lapsed : session.lapsed desired now = true
  · rw [if_pos lapsed]
    exact .inl ⟨rfl, Option.some_ne_none now⟩
  · rw [if_neg lapsed]
    unfold Session.lapsed at lapsed
    rw [decide_eq_true_eq, not_or, Int.not_le, Int.not_le] at lapsed
    have least : seconds (min session.idleTimeoutSeconds desired) ≤ seconds desired := by
      unfold seconds
      omega
    exact .inr ⟨_, rfl, Option.not_isSome_iff_eq_none.mp revoked, rfl, rfl, rfl, lapsed.1, by omega⟩

theorem rows_other (sound : Sound state) {after : Session} (quiet : ∀ other email, other ≠ token → record.ends other email = false)
    (own : after.revokedAt = none → Standing (state.history ++ [record]) token after) :
    ∀ other found, (state.sessions.insert token after).get? other = some found → found.revokedAt = none →
      Standing (state.history ++ [record]) other found := by
  intro other found there live
  rw [Dict.get?_insert] at there
  split at there
  · rename_i same
    cases there
    exact same ▸ own live
  · rename_i another
    exact (sound.rows other found there live).snoc (quiet other found.email another)

theorem isSome_insert {sessions : Dict String Session} {other : String} (there : (sessions.get? other).isSome) (after : Session) :
    ((sessions.insert token after).get? other).isSome := by
  rw [Dict.get?_insert]
  split
  · rfl
  · exact there

theorem sound_getSession (sound : Sound state) (call : ℕ) (policy : Policy) (token : String) (now : Int) (touched : Bool) :
    Sound (state.getSession call policy token now touched) := by
  have elsewhere : ∀ found other email, other ≠ token → (Record.checked token policy now touched found).ends other email = false := by
    intro found other email another
    cases found
    · exact decide_eq_false (Ne.symm another)
    · rfl
  unfold State.getSession
  cases there : state.sessions.get? token with
  | none =>
    dsimp only
    refine sound.noted (.checked token policy now touched none) rfl (fun _ _ _ same => by cases same) rfl ?_ (fun _ own => own)
      (users_snoc sound fun _ => rfl) (calls_update sound fun _ _ same => by cases same)
    intro other found held live
    refine (sound.rows other found held live).snoc (elsewhere none other _ fun same => ?_)
    subst same
    exact absurd (held.symm.trans there) (Option.some_ne_none found)
  | some session =>
    dsimp only
    rcases check_spec session (policy.idleTimeoutSeconds session.email) now touched with ⟨refused, ended⟩ |
      ⟨kept, whole, live, email, expiresAt, seen, early, used⟩
    · -- what was found lapsed is revoked on the spot
      rw [refused]
      exact sound.noted (.checked token policy now touched none) rfl (fun _ _ _ same => by cases same) rfl
        (rows_other sound (elsewhere none) fun live => absurd live ended) (fun _ own => isSome_insert own _)
        (users_snoc sound fun _ => rfl) (calls_update sound fun _ _ same => by cases same)
    · rw [whole]
      have standing := sound.rows token session there live
      refine sound.noted (.checked token policy now touched (some kept)) rfl (fun _ _ _ same => by cases same) rfl
        (rows_other sound (elsewhere (some kept)) fun _ => ?_) (fun _ own => isSome_insert own _)
        (users_snoc sound fun _ => rfl) (calls_update sound fun other found same => ?_)
      · refine standing.next email expiresAt rfl ?_
        cases touched
        · exact .inl seen
        · exact .inr ((if_pos rfl).trans (congrArg some seen.symm))
      · cases same
        exact ⟨state.history, policy, now, touched, [], session, rfl, standing, email, expiresAt, early, used⟩

theorem sound_getAccessUser (sound : Sound state) {call : ℕ} (standing : state.calls call = .checked token session) :
    Sound (state.getAccessUser call token session) := by
  have refused : Sound (state.stand call .refused) := by
    refine ⟨sound.rows, sound.users, fun other found held there => ?_, sound.known, sound.once, sound.lawful⟩
    by_cases same : other = call
    · subst same
      change Function.update state.calls other .refused other = _ at there
      rw [Function.update_self] at there
      cases there
    · exact sound.calls other found held ((Function.update_of_ne same _ _).symm.trans there)
  unfold State.getAccessUser
  cases there : state.users.get? session.email with
  | none => exact refused
  | some user =>
    dsimp only
    by_cases active : user.isActive = true
    · rw [if_pos active]
      constructor
      · exact fun token session held live => (sound.rows token session held live).snoc rfl
      · exact users_snoc sound fun _ => rfl
      · exact calls_update sound fun _ _ same => by cases same
      · exact fun other member => sound.known other (opens_snoc state.history (.admitted token session user) rfl ▸ member)
      · exact (opens_snoc state.history (.admitted token session user) rfl).symm ▸ sound.once
      · refine lawfully_snoc sound.lawful fun _ _ _ same => ?_
        cases same
        exact ⟨sound.calls call token session standing, active, sound.users session.email user there⟩
    · rw [if_neg active]
      exact refused

theorem revokeFor_live {now : Int} (live : (session.revokeFor email now).revokedAt = none) :
    session.revokeFor email now = session ∧ session.email ≠ email := by
  unfold Session.revokeFor at live ⊢
  by_cases own : session.email = email ∧ session.revokedAt = none
  · rw [if_pos own] at live
    exact absurd live (Option.some_ne_none now)
  · rw [if_neg own] at live ⊢
    exact ⟨rfl, fun same => own ⟨same, live⟩⟩

theorem sound_step (sound : Sound state) (action : Action) : Sound (state.step action) := by
  cases action with
  | login policy token email role createdIp now => exact sound_createSession sound rfl
  | authenticate call policy token now touched =>
    unfold State.step
    dsimp only
    split
    · exact sound_getSession sound call policy token now touched
    · exact sound
  | readUser call =>
    unfold State.step
    dsimp only
    split
    · rename_i standing
      exact sound_getAccessUser sound standing
    · exact sound
  | logout token now =>
    have elsewhere : ∀ other email, other ≠ token → (Record.logout token).ends other email = false :=
      fun other email another => decide_eq_false (Ne.symm another)
    unfold State.step State.revokeSession
    dsimp only
    cases there : state.sessions.get? token with
    | none =>
      refine sound.noted (.logout token) rfl (fun _ _ _ same => by cases same) rfl ?_ (fun _ own => own)
        (users_snoc sound fun _ => rfl) (calls_snoc sound)
      intro other found held live
      refine (sound.rows other found held live).snoc (elsewhere other _ fun same => ?_)
      subst same
      exact absurd (held.symm.trans there) (Option.some_ne_none found)
    | some session =>
      exact sound.noted (.logout token) rfl (fun _ _ _ same => by cases same) rfl
        (rows_other sound elsewhere fun live => absurd live (Option.some_ne_none now)) (fun _ own => isSome_insert own _)
        (users_snoc sound fun _ => rfl) (calls_snoc sound)
  | revokeSessionsForEmail email now =>
    refine sound.noted (.revoked email) rfl (fun _ _ _ same => by cases same) rfl ?_ ?_ (users_snoc sound fun _ => rfl) (calls_snoc sound)
    · intro token found held live
      change (state.sessions.mapValues (Session.revokeFor email now)).get? token = some found at held
      rw [Dict.get?_mapValues] at held
      obtain ⟨session, there, rfl⟩ := Option.map_eq_some_iff.mp held
      obtain ⟨same, another⟩ := revokeFor_live live
      rw [same] at live ⊢
      exact (sound.rows token session there live).snoc (decide_eq_false (Ne.symm another))
    · intro token there
      change ((state.sessions.mapValues (Session.revokeFor email now)).get? token).isSome
      rw [Dict.get?_mapValues, Option.isSome_map]
      exact there
  | upsertAccessUser email user =>
    refine sound.noted (.saved email (state.upsertAccessUser email user)) rfl (fun _ _ _ same => by cases same) rfl
      (fun token session held live => (sound.rows token session held live).snoc rfl) (fun _ own => own) ?_ (calls_snoc sound)
    intro other found held
    change (state.users.insert email (state.upsertAccessUser email user)).get? other = some found at held
    rw [Dict.get?_insert] at held
    split at held
    · rename_i same
      cases held
      exact same ▸ ⟨state.history, [], rfl, fun _ none => absurd none List.not_mem_nil⟩
    · rename_i another
      exact (sound.users other found held).snoc (decide_eq_false (Ne.symm another))
  | deleteAccessUser email =>
    refine sound.noted (.deleted email) rfl (fun _ _ _ same => by cases same) rfl
      (fun token session held live => (sound.rows token session held live).snoc rfl) (fun _ own => own) ?_ (calls_snoc sound)
    intro other found held
    change (state.users.erase email).get? other = some found at held
    rw [Dict.get?_erase] at held
    split at held
    · cases held
    · rename_i another
      exact (sound.users other found held).snoc (decide_eq_false (Ne.symm another))

theorem sound_run (sound : Sound state) (actions : List Action) : Sound (actions.foldl State.step state) := by
  induction actions generalizing state with
  | nil => exact sound
  | cons action rest ih => exact ih (sound_step sound action)

/-- In every interleaving an authentication is let through only with a session that a login opened, that had neither expired nor
been idle for too long when it was checked, and that nothing had ended since its login; no token is opened twice, so what has
ended never stands again; and the account is as it was last written, and active. -/
theorem sessions_stand (actions : List Action) : Lawfully (actions.foldl State.step {}).history ∧
    ((actions.foldl State.step {}).history.filterMap Record.opens).Nodup := by
  have initial : Sound {} := by
    refine ⟨?_, ?_, ?_, ?_, List.nodup_nil, ?_⟩
    · exact fun _ _ held => by cases held
    · exact fun _ _ held => by cases held
    · exact fun _ _ _ held => by cases held
    · exact fun _ member => absurd member List.not_mem_nil
    · exact fun before _ _ _ _ same => by cases before <;> cases same
  have sound := sound_run initial actions
  exact ⟨sound.lawful, sound.once⟩

end

end C3po.Access.Sessions
