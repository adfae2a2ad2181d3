import C3po.Access.Accepted
import C3po.Access.Authenticators

/-! What each step does to a credential, and what a call that used a step up ends in. -/

set_option autoImplicit false

namespace C3po.Access
open C3po.Library

section
variable {settings : Settings} {backend : Backend} {state next : State} {call : ℕ}

theorem advance_calls {answer : Answer} (advanced : state.advance settings backend call answer = some next) :
    ∃ phase, next.calls = Function.update state.calls call phase := by
  unfold State.advance at advanced
  cases standing : state.calls call with
  | unborn | ended =>
    rw [standing] at advanced
    cases advanced
  | counting =>
    rw [standing] at advanced
    cases advanced
    unfold State.countCodes
    dsimp only
    split
    · exact ⟨_, rfl⟩
    · exact ⟨_, rfl⟩
  | choosing | deleting =>
    rw [standing] at advanced
    cases advanced
    exact ⟨_, rfl⟩
  | storing =>
    rw [standing] at advanced
    dsimp only at advanced
    unfold State.storeCode at advanced
    split at advanced
    · cases advanced
    · cases advanced
      exact ⟨_, rfl⟩
  | fetching =>
    rw [standing] at advanced
    cases advanced
    unfold State.fetchCode
    split
    · exact ⟨_, rfl⟩
    · exact ⟨_, rfl⟩
  | matching =>
    rw [standing] at advanced
    cases advanced
    unfold State.matchCode
    dsimp only
    split
    · exact ⟨_, rfl⟩
    · split
      · exact ⟨_, rfl⟩
      · split
        · exact ⟨_, rfl⟩
        · exact ⟨_, rfl⟩
  | consuming =>
    rw [standing] at advanced
    cases advanced
    unfold State.consumeStep
    split
    · exact ⟨_, rfl⟩
    · exact ⟨_, rfl⟩
  | claiming attempt =>
    rw [standing] at advanced
    cases advanced
    obtain ⟨_, _, ending, calls, _⟩ := claimAttempt_frame settings state call attempt
    exact ⟨_, calls⟩
  | beginning =>
    rw [standing] at advanced
    cases advanced
    unfold State.checkEnabled
    split
    · exact ⟨_, rfl⟩
    · exact ⟨_, rfl⟩
  | drawing =>
    rw [standing] at advanced
    dsimp only at advanced
    unfold State.drawSecret at advanced
    split at advanced
    · cases advanced
    · cases advanced
      exact ⟨_, rfl⟩
  | staging =>
    rw [standing] at advanced
    cases advanced
    unfold State.storeSecret
    dsimp only
    split
    · split
      · exact ⟨_, rfl⟩
      · exact ⟨_, rfl⟩
    · exact ⟨_, rfl⟩
  | confirming =>
    rw [standing] at advanced
    cases advanced
    unfold State.matchSetup
    split
    · exact ⟨_, rfl⟩
    · split
      · exact ⟨_, rfl⟩
      · split
        · exact ⟨_, rfl⟩
        · exact ⟨_, rfl⟩
  | promoting =>
    rw [standing] at advanced
    cases advanced
    rw [promote_eq]
    split
    · exact ⟨_, rfl⟩
    · exact ⟨_, rfl⟩
  | disabling =>
    rw [standing] at advanced
    cases advanced
    unfold State.matchRemoval
    split
    · exact ⟨_, rfl⟩
    · split
      · exact ⟨_, rfl⟩
      · exact ⟨_, rfl⟩

theorem uses_kept (tidy : Tidy settings state) {action : Action} (ordered : orderly settings backend state action = true)
    (step : state.step settings backend action = some next) {other : ℕ} {proof : Proof} (uses : (state.calls other).uses = some proof) :
    (next.calls other).uses = some proof := by
  have admitted : ∀ {call phase}, state.enter call phase = some next → (next.calls other).uses = some proof := by
    intro call phase admitted
    unfold State.enter at admitted
    split at admitted
    · rename_i unborn
      cases admitted
      have apart : other ≠ call := by
        rintro rfl
        rw [unborn] at uses
        cases uses
      change (Function.update state.calls call phase other).uses = _
      rwa [Function.update_of_ne apart]
    · cases admitted
  cases action with
  | tick elapsed =>
    cases step
    exact uses
  | requestCode | verifyCode | beginTotpSetup | confirmTotpSetup | disableTotp => exact admitted step
  | advance call answer =>
    by_cases own : other = call
    · subst own
      unfold State.step State.advance at step
      unfold orderly at ordered
      dsimp only at step ordered
      cases standing : state.calls other with
      | claiming attempt =>
        rw [standing] at step ordered uses
        cases step
        have valid : attempt.valid = true := by
          have known := tidy.matched other
          rw [standing] at known
          exact known (Option.isSome_of_mem uses)
        have proven : attempt.proof.isNone = false := by
          rw [show attempt.proof = some proof from uses]
          rfl
        dsimp only at ordered
        rw [proven, Bool.false_or] at ordered
        rw [claimAttempt_accepted valid ordered, Function.update_self]
        exact uses
      | ended =>
        rw [standing] at step
        cases step
      | _ =>
        rw [standing] at uses
        cases uses
    · obtain ⟨phase, calls⟩ := advance_calls step
      rw [calls, Function.update_of_ne own]
      exact uses

/-- What a step writes of the credentials. -/
inductive Wrote (settings : Settings) (backend : Backend) (state : State) : Action → State → Prop
  | kept {action : Action} {next : State} (same : next.credentials = state.credentials) : Wrote settings backend state action next
  | consumed {call : ℕ} {answer : Answer} {attempt : Attempt} {proof : Proof} {row after : Credential}
      (standing : state.calls call = .consuming attempt proof) (found : state.credentials.get? proof.email = some row)
      (claimed : claimTotpStep backend proof.step attempt.now row = some after) :
      Wrote settings backend state (.advance call answer) (state.consumeStep backend call attempt proof)
  | staged {call : ℕ} {answer : Answer} {email secret : String} {now : Int} {row after : Credential}
      (standing : state.calls call = .staging email secret true now) (found : state.credentials.get? email = some row)
      (stored : stageTotpReconfiguration secret (now + minutes 10) now row = some after) :
      Wrote settings backend state (.advance call answer) (state.storeSecret backend call email secret true now)
  | restarted {call : ℕ} {answer : Answer} {email secret : String} {now : Int} (standing : state.calls call = .staging email secret false now) :
      Wrote settings backend state (.advance call answer) (state.storeSecret backend call email secret false now)
  | confirmed {call : ℕ} {answer : Answer} {email code secret : String} {now step : Int} {replacing : Bool} {after : Credential}
      (standing : state.calls call = .promoting email code now replacing secret step)
      (stored : confirmedRow state email now replacing step = some after) :
      Wrote settings backend state (.advance call answer) (state.promote call email now replacing secret step)
  | removed {call : ℕ} {answer : Answer} {email code secret : String} {now step : Int}
      (standing : state.calls call = .deleting email code now secret step) :
      Wrote settings backend state (.advance call answer) (state.remove call email)

theorem wrote_of_step {action : Action} (step : state.step settings backend action = some next) : Wrote settings backend state action next := by
  have admitted : ∀ {call phase}, state.enter call phase = some next → next.credentials = state.credentials := by
    intro call phase admitted
    unfold State.enter at admitted
    split at admitted
    · cases admitted
      rfl
    · cases admitted
  cases action with
  | tick elapsed =>
    cases step
    exact .kept rfl
  | requestCode | verifyCode | beginTotpSetup | confirmTotpSetup | disableTotp => exact .kept (admitted step)
  | advance call answer =>
    unfold State.step State.advance at step
    dsimp only at step
    cases standing : state.calls call with
    | unborn | ended =>
      rw [standing] at step
      cases step
    | counting =>
      rw [standing] at step
      cases step
      unfold State.countCodes
      dsimp only
      split
      · exact .kept rfl
      · exact .kept rfl
    | choosing =>
      rw [standing] at step
      cases step
      exact .kept rfl
    | storing =>
      rw [standing] at step
      dsimp only at step
      unfold State.storeCode at step
      split at step
      · cases step
      · cases step
        exact .kept rfl
    | fetching =>
      rw [standing] at step
      cases step
      unfold State.fetchCode
      split
      · exact .kept rfl
      · exact .kept rfl
    | matching =>
      rw [standing] at step
      cases step
      unfold State.matchCode
      dsimp only
      split
      · exact .kept rfl
      · split
        · exact .kept rfl
        · split
          · exact .kept rfl
          · exact .kept rfl
    | consuming attempt proof =>
      rw [standing] at step
      cases step
      cases claimed : (state.credentials.get? proof.email).bind (claimTotpStep backend proof.step attempt.now) with
      | none =>
        refine .kept ?_
        unfold State.consumeStep
        rw [claimed]
        rfl
      | some after =>
        obtain ⟨row, found, ok⟩ := Option.bind_eq_some_iff.mp claimed
        exact .consumed standing found ok
    | claiming attempt =>
      rw [standing] at step
      cases step
      exact .kept (claimAttempt_frame _ _ _ attempt).1
    | beginning =>
      rw [standing] at step
      cases step
      unfold State.checkEnabled
      split
      · exact .kept rfl
      · exact .kept rfl
    | drawing =>
      rw [standing] at step
      dsimp only at step
      unfold State.drawSecret at step
      split at step
      · cases step
      · cases step
        exact .kept rfl
    | staging email secret enabled now =>
      rw [standing] at step
      cases step
      cases enabled with
      | false => exact .restarted standing
      | true =>
        cases stored : (state.credentials.get? email).bind (stageTotpReconfiguration secret (now + minutes 10) now) with
        | none =>
          refine .kept ?_
          unfold State.storeSecret
          dsimp only
          rw [if_pos rfl, stored]
          rfl
        | some after =>
          obtain ⟨row, found, ok⟩ := Option.bind_eq_some_iff.mp stored
          exact .staged standing found ok
    | confirming =>
      rw [standing] at step
      cases step
      unfold State.matchSetup
      split
      · exact .kept rfl
      · split
        · exact .kept rfl
        · split
          · exact .kept rfl
          · exact .kept rfl
    | promoting email code now replacing secret step' =>
      rw [standing] at step
      cases step
      cases stored : confirmedRow state email now replacing step' with
      | none =>
        refine .kept ?_
        rw [promote_eq, stored]
        rfl
      | some after => exact .confirmed standing stored
    | disabling =>
      rw [standing] at step
      cases step
      unfold State.matchRemoval
      split
      · exact .kept rfl
      · split
        · exact .kept rfl
        · exact .kept rfl
    | deleting =>
      rw [standing] at step
      cases step
      exact .removed standing

section Written
variable {email : String} {row after : Credential}

theorem consumeStep_some {attempt : Attempt} {proof : Proof} (found : state.credentials.get? proof.email = some row)
    (claimed : claimTotpStep backend proof.step attempt.now row = some after) : state.consumeStep backend call attempt proof =
      { state.stand call (.claiming { attempt with valid := true, proof := some proof }) with
        credentials := state.credentials.insert proof.email after } := by
  unfold State.consumeStep
  rw [found, Option.bind_some, claimed]

theorem storeSecret_staged {secret : String} {now : Int} (found : state.credentials.get? email = some row)
    (stored : stageTotpReconfiguration secret (now + minutes 10) now row = some after) : state.storeSecret backend call email secret true now =
      { state.finish call (.begun secret) with credentials := state.credentials.insert email after } := by
  unfold State.storeSecret
  dsimp only
  rw [if_pos rfl, found, Option.bind_some, stored]

theorem stage_ok {secret : String} {expiresAt now : Int} (stored : stageTotpReconfiguration secret expiresAt now row = some after) :
    after.secret = row.secret ∧ after.confirmedAt = row.confirmedAt ∧ after.lastUsedStep = row.lastUsedStep := by
  unfold stageTotpReconfiguration at stored
  split at stored
  · cases stored
    exact ⟨rfl, rfl, rfl⟩
  · cases stored

theorem confirmedWith_insert {secret other : String} (before : state.confirmedWith other secret)
    (lost : ¬ next.confirmedWith other secret) (credentials : next.credentials = state.credentials.insert email after) :
    other = email ∧ ¬ (after.confirmedAt.isSome ∧ after.secret = secret) := by
  by_cases own : other = email
  · refine ⟨own, fun still => lost ⟨after, ?_, still⟩⟩
    rw [credentials, Dict.get?_insert, if_pos own]
  · obtain ⟨old, found, still⟩ := before
    refine absurd ⟨old, ?_, still⟩ lost
    rw [credentials, Dict.get?_insert, if_neg own]
    exact found

theorem stepChanged_insert (changed : StepChanged state next) (credentials : next.credentials = state.credentials.insert email after) :
    ∃ row, state.credentials.get? email = some row ∧ after.lastUsedStep ≠ row.lastUsedStep := by
  obtain ⟨other, row, written, found, foundAfter, apart⟩ := changed
  rw [credentials, Dict.get?_insert] at foundAfter
  split at foundAfter
  · rename_i own
    cases foundAfter
    exact ⟨row, own ▸ found, apart⟩
  · rw [found] at foundAfter
    cases foundAfter
    exact absurd rfl apart

theorem stepChanged_kept (changed : StepChanged state next) (same : next.credentials = state.credentials) : False := by
  obtain ⟨other, row, written, found, foundAfter, apart⟩ := changed
  rw [same, found] at foundAfter
  cases foundAfter
  exact apart rfl

end Written

theorem unconfirmed_of_orderly {answer : Answer} {email secret : String} {now : Int} (standing : state.calls call = .staging email secret false now)
    (ordered : orderly settings backend state (.advance call answer) = true) {row : Credential}
    (found : state.credentials.get? email = some row) : row.confirmedAt = none := by
  unfold orderly at ordered
  dsimp only at ordered
  rw [standing] at ordered
  dsimp only at ordered
  unfold State.totpEnabled at ordered
  rw [found] at ordered
  simpa using ordered

theorem uses_of_stepChanged (tidy : Tidy settings state) {action : Action} (ordered : orderly settings backend state action = true)
    (step : state.step settings backend action = some next) (changed : StepChanged state next) :
    ∃ call answer proof, action = .advance call answer ∧ (next.calls call).uses = some proof := by
  cases wrote_of_step step with
  | kept same => exact (stepChanged_kept changed same).elim
  | consumed standing found claimed =>
    rename_i call answer attempt proof row after
    refine ⟨call, answer, proof, rfl, ?_⟩
    rw [consumeStep_some found claimed]
    change (Function.update state.calls call _ call).uses = _
    rw [Function.update_self]
    rfl
  | staged standing found stored =>
    rw [storeSecret_staged found stored] at changed
    obtain ⟨old, foundOld, apart⟩ := stepChanged_insert changed rfl
    rw [found] at foundOld
    cases foundOld
    exact absurd (stage_ok stored).2.2 apart
  | restarted standing =>
    rename_i call answer email secret now
    obtain ⟨old, foundOld, apart⟩ := stepChanged_insert changed rfl
    -- nothing is confirmed, so no step was used
    have unconfirmed := unconfirmed_of_orderly standing ordered foundOld
    refine absurd ?_ apart
    rw [(tidy.rows _ old foundOld).unused unconfirmed, foundOld]
    unfold upsertTotpSetup
    split <;> rfl
  | confirmed standing stored =>
    rename_i call answer email code secret now step' replacing after
    refine ⟨call, answer, ⟨email, secret, step'⟩, rfl, ?_⟩
    rw [promote_eq, stored]
    change (Function.update state.calls call _ call).uses = _
    rw [Function.update_self]
    rfl
  | removed standing =>
    obtain ⟨other, row, written, found, foundAfter, apart⟩ := changed
    change (state.credentials.erase _).get? other = some written at foundAfter
    rw [Dict.get?_erase] at foundAfter
    split at foundAfter
    · cases foundAfter
    · rw [found] at foundAfter
      cases foundAfter
      exact absurd rfl apart

theorem released_of_lost (tidy : Tidy settings state) {action : Action} (ordered : orderly settings backend state action = true)
    (step : state.step settings backend action = some next) {email secret : String} (before : state.confirmedWith email secret)
    (lost : ¬ next.confirmedWith email secret) : ∃ call answer, action = .advance call answer ∧ Released settings state email secret call := by
  cases wrote_of_step step with
  | kept same =>
    refine absurd before fun ⟨row, found, still⟩ => lost ⟨row, ?_, still⟩
    rw [same]
    exact found
  | consumed standing found claimed =>
    rw [consumeStep_some found claimed] at lost
    obtain ⟨rfl, gone⟩ := confirmedWith_insert before lost rfl
    obtain ⟨row, foundRow, since, own⟩ := before
    rw [found] at foundRow
    cases foundRow
    obtain ⟨_, _, rfl⟩ := claimTotpStep_ok claimed
    exact absurd ⟨since, own⟩ gone
  | staged standing found stored =>
    rw [storeSecret_staged found stored] at lost
    obtain ⟨rfl, gone⟩ := confirmedWith_insert before lost rfl
    obtain ⟨row, foundRow, since, own⟩ := before
    rw [found] at foundRow
    cases foundRow
    obtain ⟨kept, still, _⟩ := stage_ok stored
    exact absurd ⟨still ▸ since, kept ▸ own⟩ gone
  | restarted standing =>
    obtain ⟨rfl, _⟩ := confirmedWith_insert before lost rfl
    obtain ⟨row, found, since, _⟩ := before
    rw [unconfirmed_of_orderly standing ordered found] at since
    cases since
  | confirmed standing stored =>
    rename_i call answer other code replacement now step' replacing after
    rw [promote_eq, stored] at lost
    obtain ⟨rfl, _⟩ := confirmedWith_insert before lost rfl
    obtain ⟨row, found, since, _⟩ := before
    unfold orderly at ordered
    dsimp only at ordered
    rw [standing] at ordered
    dsimp only at ordered
    rw [stored] at ordered
    have same : after.secret = replacement := of_decide_eq_true ordered
    have matched := tidy.matched call
    rw [standing] at matched
    obtain ⟨old, foundOld, _, _, source⟩ := confirmedRow_ok stored
    rw [found] at foundOld
    cases foundOld
    rcases source with ⟨rfl, _, pending, _⟩ | ⟨_, unconfirmed, _, _⟩
    · exact ⟨call, answer, rfl, .inl ⟨code, now, replacement, step', standing, matched, row, found, same ▸ pending⟩⟩
    · rw [unconfirmed] at since
      cases since
  | removed standing =>
    rename_i call answer other code own now step'
    obtain ⟨row, found, since, same⟩ := before
    have here : email = other := by
      by_contra apart
      refine lost ⟨row, ?_, since, same⟩
      change (state.credentials.erase other).get? email = some row
      rw [Dict.get?_erase, if_neg apart]
      exact found
    subst here
    unfold orderly at ordered
    dsimp only at ordered
    rw [standing] at ordered
    dsimp only at ordered
    rw [found] at ordered
    have read : row.secret = own := by
      have either : row.confirmedAt.isNone = true ∨ decide (row.secret = own) = true := Bool.or_eq_true_iff.mp ordered
      rcases either with unconfirmed | read
      · rw [Option.isNone_iff_eq_none.mp unconfirmed] at since
        cases since
      · exact of_decide_eq_true read
    have matched := tidy.matched call
    rw [standing] at matched
    have removedOwn : own = secret := read.symm.trans same
    exact ⟨call, answer, rfl, .inr ⟨code, now, step', removedOwn ▸ standing, removedOwn ▸ matched⟩⟩

theorem tidy_run (run : RunWhere settings backend (orderly settings backend) state next) (tidy : Tidy settings state) : Tidy settings next := by
  induction run with
  | refl => exact tidy
  | tail _ step ih =>
    obtain ⟨action, ordered, step⟩ := step
    exact tidy_step ih ordered step

theorem uses_run (run : RunWhere settings backend (orderly settings backend) state next) (tidy : Tidy settings state) {proof : Proof}
    (uses : (state.calls call).uses = some proof) : (next.calls call).uses = some proof := by
  induction run with
  | refl => exact uses
  | tail before step ih =>
    obtain ⟨action, ordered, step⟩ := step
    exact uses_kept (tidy_run before tidy) ordered step ih

theorem authorised_of_ended {ending : Ending} (ended : state.calls call = .ended ending) :
    (state.calls call).authorised = (state.calls call).uses := by
  rw [ended]
  cases ending <;> rfl

theorem uses_of_authorised {proof : Proof} (authorised : (state.calls call).authorised = some proof) : (state.calls call).uses = some proof := by
  cases standing : state.calls call with
  | ended ending => rw [← standing, ← authorised_of_ended standing, authorised]
  | _ =>
    rw [standing] at authorised
    cases authorised

/-- Where no call writes over a credential it did not read, and what uses a step up is
accepted, steps are used up by what they authorise and secrets released by their codes. -/
theorem steps_consumed {settings : Settings} {backend : Backend} {clock : Int} {state : State}
    (run : RunWhere settings backend (orderly settings backend) (State.initial clock) state) :
    Consumed settings backend (orderly settings backend) state := by
  have tidy := tidy_run run (tidy_initial clock)
  constructor
  · exact fun first second proof here there => tidy.once first second proof (uses_of_authorised here) (uses_of_authorised there)
  · intro action next final ordered step changed later
    obtain ⟨call, answer, proof, rfl, uses⟩ := uses_of_stepChanged tidy ordered step changed
    refine ⟨call, answer, rfl, fun ending ended => ?_⟩
    rw [authorised_of_ended ended, uses_run later (tidy_step tidy ordered step) uses]
    rfl
  · exact fun action next email secret ordered step before lost => released_of_lost tidy ordered step before lost

end

/-- An authenticator set up and confirmed in its second minute, and the challenge of a login. -/
def setupActions : List Action :=
  [.beginTotpSetup 0 "a@x" false, .advance 0 {}, .advance 0 { secret := "S" }, .advance 0 {},
    .confirmTotpSetup 1 "a@x" "000000", .advance 1 {}, .advance 1 {},
    .tick 30000000, .requestCode 2 "a@x" "10.0.0.1" true, .advance 2 {}, .advance 2 {}, .advance 2 { id := "c1" }]

def verifyActions : List Action := [.verifyCode 3 "c1" "000000" "10.0.0.1", .advance 3 {}, .advance 3 {}]

theorem steps_consumed_login : ∃ state, State.perform plainSettings .memory (orderly plainSettings .memory) (State.initial 60000000)
    (setupActions ++ verifyActions ++ [.advance 3 {}, .advance 3 {}]) = some state ∧
      (state.calls 3).authorised = some ⟨"a@x", "S", 3⟩ ∧ Consumed plainSettings .memory (orderly plainSettings .memory) state := by
  have ends : (State.perform plainSettings .memory (orderly plainSettings .memory) (State.initial 60000000)
      (setupActions ++ verifyActions ++ [.advance 3 {}, .advance 3 {}])).map (fun state => (state.calls 3).authorised) =
        some (some ⟨"a@x", "S", 3⟩) := by decide +kernel
  obtain ⟨state, done, authorised⟩ := Option.map_eq_some_iff.mp ends
  exact ⟨state, done, authorised, steps_consumed (runWhere_of_perform done)⟩

def State.lastStep (state : State) (email : String) : Option (Option Int) := (state.credentials.get? email).map (·.lastUsedStep)

/-- A code tried on a challenge that expired uses its step up, and the call raises. -/
theorem expired_consumes : ¬ ∀ (settings : Settings) (backend : Backend) (clock : Int) (state : State),
    RunWhere settings backend (fun _ _ => true) (State.initial clock) state → Consumed settings backend (fun _ _ => true) state := by
  intro claim
  have trace : ((State.perform plainSettings .memory (fun _ _ => true) (State.initial 60000000)
      (setupActions ++ [.tick 600000000] ++ verifyActions)).bind fun state =>
        (state.step plainSettings .memory (.advance 3 {})).bind fun next =>
          (next.step plainSettings .memory (.advance 3 {})).map fun final =>
            (state.lastStep "a@x", next.lastStep "a@x", final.calls 3)) =
      some (some (some 2), some (some 23), .ended (.raised invalidCode)) := by decide +kernel
  obtain ⟨state, done, trace⟩ := Option.bind_eq_some_iff.mp trace
  obtain ⟨next, step, trace⟩ := Option.bind_eq_some_iff.mp trace
  obtain ⟨final, last, facts⟩ := Option.map_eq_some_iff.mp trace
  obtain ⟨before, rest⟩ := Prod.mk.inj facts
  obtain ⟨after, ended⟩ := Prod.mk.inj rest
  obtain ⟨row, found, old⟩ := Option.map_eq_some_iff.mp before
  obtain ⟨written, foundWritten, new⟩ := Option.map_eq_some_iff.mp after
  have consumed := claim plainSettings .memory 60000000 state (runWhere_of_perform done)
  have changed : StepChanged state next := by
    refine ⟨"a@x", row, written, found, foundWritten, ?_⟩
    rw [old, new]
    decide
  obtain ⟨call, answer, advances, authorised⟩ := consumed.authorises _ next final rfl step changed (.single ⟨_, rfl, last⟩)
  cases advances
  have raised := authorised _ ended
  rw [ended] at raised
  cases raised

end C3po.Access
