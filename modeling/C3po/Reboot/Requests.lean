import C3po.Reboot.Upheld

/-! What a receipt pass leaves: it upholds what holds of the host, and where the last
request is not of this boot, or is a quarter of an hour old, no marker of the boot stands and
no scheduler is paused.
-/

set_option autoImplicit false

namespace C3po.Reboot
open C3po.Library Script

/-- What a pass leaves alone. -/
structure Passing (world next : World) : Prop where
  bootId : next.bootId = world.bootId
  requests : next.requests = world.requests
  handling : next.handling = world.handling
  reached : next.reached = world.reached
  clock : world.clock ≤ next.clock

instance : IsPreorder World Passing where
  refl _ := ⟨rfl, rfl, rfl, rfl, Nat.le_refl _⟩
  trans _ _ _ before after := ⟨after.bootId.trans before.bootId, after.requests.trans before.requests,
    after.handling.trans before.handling, after.reached.trans before.reached, Nat.le_trans before.clock after.clock⟩

theorem Scheduling.passing {world next : World} (scheduling : Scheduling world next) : Passing world next :=
  have same := scheduling.undisturbed
  ⟨same.bootId, same.requests, same.handling, same.reached, same.clock⟩

section Kept
variable {A : Type}

theorem Keeps.passing {script : Pass A} (keeps : Keeps Scheduling script) : Keeps Passing script :=
  fun memory world => Safe.widen (keeps memory world) fun _ within => within.passing

theorem act_passes {effect : World → World} (within : ∀ world, Passing world (effect world)) :
    Keeps Passing (act effect) := by
  refine Keeps.bind (Keeps.passing (Keeps.scheduling observe_keeps)) fun answer => Keeps.bind Keeps.ask fun _ => ?_
  cases answer.write with
  | done => exact Keeps.step within
  | refused => exact Keeps.raise
  | unsure => exact Keeps.bind (Keeps.step within) fun _ => Keeps.raise

theorem removeMarker_passes : Keeps Passing removeMarker := act_passes fun _ => ⟨rfl, rfl, rfl, rfl, Nat.le_refl _⟩

theorem removePending_passes : Keeps Passing removePending := act_passes fun _ => ⟨rfl, rfl, rfl, rfl, Nat.le_refl _⟩

theorem writeState_passes (record : Record) : Keeps Passing (writeState record) :=
  act_passes fun _ => ⟨rfl, rfl, rfl, rfl, Nat.le_refl _⟩

theorem settled_passes (state : Option Record) : Keeps Passing (settled state) := by
  refine Keeps.bind (Keeps.passing restore_keeps) fun _ => Keeps.bind Keeps.look fun _ => Keeps.ite ?_ Keeps.pure
  exact Keeps.bind removeMarker_passes fun _ => Keeps.bind removePending_passes fun _ => Keeps.pure

theorem awaited_passes (now : ℕ) (record : Record) : Keeps Passing (awaited now record) := by
  refine Keeps.ite ?_ Keeps.pure
  refine Keeps.bind removeMarker_passes fun _ => Keeps.bind removePending_passes fun _ => ?_
  exact Keeps.bind (Keeps.passing restore_keeps) fun _ => Keeps.bind (writeState_passes _) fun _ => Keeps.pure

theorem rebooted_passes (now boot : ℕ) (record : Record) : Keeps Passing (rebooted now boot record) := by
  refine Keeps.bind (Keeps.passing restore_keeps) fun _ => Keeps.bind removeMarker_passes fun _ => ?_
  refine Keeps.bind removePending_passes fun _ => Keeps.bind (Keeps.passing (Keeps.scheduling verifies_keeps)) fun _ => ?_
  refine Keeps.bind (Keeps.passing (Keeps.scheduling (evidence_keeps _))) fun _ => ?_
  exact Keeps.bind (writeState_passes _) fun _ => Keeps.pure

theorem bootReceipt_passes (now : ℕ) : Keeps Passing (bootReceipt now) := by
  refine Keeps.bind Keeps.look fun boot => Keeps.bind Keeps.look fun state => ?_
  cases state with
  | none => exact settled_passes none
  | some record => exact Keeps.ite (settled_passes _) (Keeps.ite (awaited_passes now record) (rebooted_passes now boot record))

end Kept

/-- The last request is of another boot, or is more than a quarter of an hour old. -/
def Due (now : ℕ) (world : World) : Prop :=
  ∀ request, world.requests.head? = some request → request.bootId = world.bootId → 15 * minute < now - request.requestedAt

/-- No marker of this boot stands, and no scheduler is paused. -/
structure World.Repaired (world : World) : Prop where
  marker : world.marker ≠ some world.bootId
  admits : world.admits
  rested : world.Rested

/-- What a pass with this clock leaves. -/
structure Passed (now : ℕ) (world : World) : Prop where
  repaired : world.handling = false → Due now world → world.Repaired
  ready : world.Rested ∨ cooling now world.state

section Unmarked
variable {world : World}

/-- What is written of a request leaves time and the schedulers alone. -/
structure Stating (world next : World) : Prop where
  bootId : next.bootId = world.bootId
  clock : next.clock = world.clock
  processes : next.processes = world.processes
  schedulers : next.schedulers = world.schedulers
  reached : next.reached = world.reached
  stopped : next.stopped = world.stopped
  suspended : next.suspended = world.suspended

theorem Stating.rested {next : World} (stating : Stating world next) (rested : world.Rested) : next.Rested :=
  ⟨fun receipt stored => rested.restored receipt (stating.schedulers ▸ stored), stating.stopped.trans rested.stopped,
    stating.suspended.trans rested.suspended⟩

theorem Stating.saved {next : World} (stating : Stating world next) (saved : world.Saved) : next.Saved := by
  rcases saved with ⟨stopped, suspended⟩ | ⟨receipt, covered⟩
  · exact .inl ⟨stating.stopped.trans stopped, stating.suspended.trans suspended⟩
  · refine .inr ⟨receipt, stating.schedulers.trans covered.stored, covered.unrestored, ?_, fun process held => ?_⟩
    · rw [stating.stopped]
      exact covered.timers
    · rw [stating.bootId]
      exact covered.cron process (stating.suspended ▸ held)

theorem Sound.stating (sound : Sound world) {next : World} (stating : Stating world next)
    (spaced : next.requests.Pairwise fun later earlier => earlier.requestedAt + day ≤ later.requestedAt)
    (latest : next.state.map Record.request = next.requests.head?)
    (known : ∀ record, next.state = some record → record.bootId ≤ next.bootId)
    (marked : ∀ boot, next.marker = some boot → boot = next.bootId ∧ next.Explained)
    (closed : ∀ boot, next.pending = some boot → boot ≤ next.bootId ∧ (boot = next.bootId → next.Explained))
    (cooled : ∀ now, next.reached = some now → cooling now world.state → cooling now next.state) : Sound next := by
  refine ⟨spaced, latest, known, marked, closed, fun process held => ?_, stating.saved sound.saved, fun now reached => ?_⟩
  · rw [stating.processes]
    exact sound.alive process (stating.suspended ▸ held)
  · obtain ⟨past, cause⟩ := sound.reached now (stating.reached ▸ reached)
    exact ⟨stating.clock.symm ▸ past, cause.imp stating.rested (cooled now reached)⟩

theorem Sound.withoutMarker (sound : Sound world) : Sound { world with marker := none } :=
  sound.stating ⟨rfl, rfl, rfl, rfl, rfl, rfl, rfl⟩ sound.spaced sound.latest sound.known (fun _ stands => nomatch stands)
    sound.closed fun _ _ cool => cool

theorem Sound.withoutPending (sound : Sound world) : Sound { world with pending := none } :=
  sound.stating ⟨rfl, rfl, rfl, rfl, rfl, rfl, rfl⟩ sound.spaced sound.latest sound.known sound.marked
    (fun _ stands => nomatch stands) fun _ _ cool => cool

theorem Sound.repaired (sound : Sound world) (withdrawn : world.handling = false)
    (past : ∀ record, world.state = some record → record.status ≠ .requested) (rested : world.Rested) : world.Repaired := by
  have unexplained : ¬world.Explained := by
    rintro ⟨record, stored, _, requested | handling⟩
    · exact past record stored requested
    · simp [withdrawn] at handling
  refine ⟨fun stands => unexplained (sound.marked _ stands).2, ?_, rested⟩
  simpa [World.admits] using fun stands => unexplained ((sound.closed _ stands).2 rfl)

theorem repaired_unmarked (marker : world.marker = none) (pending : world.pending = none) (rested : world.Rested) :
    world.Repaired := ⟨by simp [marker], by simp [World.admits, pending], rested⟩

end Unmarked
section Passes
variable {world : World}

theorem cooling_request {now : ℕ} {state other : Option Record} (same : state.map Record.request = other.map Record.request) :
    cooling now state = cooling now other := by
  have clocks : state.map Record.requestedAt = other.map Record.requestedAt := by
    simpa [Function.comp_def, Record.request] using congrArg (Option.map Request.requestedAt) same
  cases state <;> cases other <;> simp_all [cooling]

theorem removeMarker_leads (sound : Sound world) :
    Leads removeMarker world fun _ final =>
      final.state = world.state ∧ final.marker = none ∧ final.pending = world.pending ∧ (world.Rested → final.Rested) := by
  refine sound.acts fun later within still => ⟨still.withoutMarker, within.undisturbed.state, rfl, within.undisturbed.pending, ?_⟩
  intro rested
  have stating : Stating later { later with marker := none } := ⟨rfl, rfl, rfl, rfl, rfl, rfl, rfl⟩
  exact stating.rested (rested.later within)

theorem removePending_leads (sound : Sound world) :
    Leads removePending world fun _ final =>
      final.state = world.state ∧ final.marker = world.marker ∧ final.pending = none ∧ (world.Rested → final.Rested) := by
  refine sound.acts fun later within still => ⟨still.withoutPending, within.undisturbed.state, within.undisturbed.marker, rfl, ?_⟩
  intro rested
  have stating : Stating later { later with pending := none } := ⟨rfl, rfl, rfl, rfl, rfl, rfl, rfl⟩
  exact stating.rested (rested.later within)

theorem writeState_leads {previous record : Record} (sound : Sound world) (stored : world.state = some previous)
    (same : record.request = previous.request) (marker : world.marker = none) (pending : world.pending = none)
    (rested : world.Rested) : Leads (writeState record) world fun _ final => final.Repaired := by
  refine sound.acts fun later within still => ?_
  have stored : later.state = some previous := within.undisturbed.state.trans stored
  have marker : later.marker = none := within.undisturbed.marker.trans marker
  have pending : later.pending = none := within.undisturbed.pending.trans pending
  have stating : Stating later { later with state := some record } := ⟨rfl, rfl, rfl, rfl, rfl, rfl, rfl⟩
  have requests : (some record).map Record.request = later.state.map Record.request := by
    rw [stored]
    exact congrArg some same
  refine ⟨still.stating stating still.spaced (requests.trans still.latest) ?_ ?_ ?_ ?_,
    repaired_unmarked marker pending (stating.rested (rested.later within))⟩
  · intro other held
    cases held
    have boots : record.bootId = previous.bootId := congrArg Request.bootId same
    exact boots ▸ still.known previous stored
  · exact fun boot stands => absurd (marker.symm.trans stands) (by simp)
  · exact fun boot stands => absurd (pending.symm.trans stands) (by simp)
  · exact fun now _ cool => cooling_request requests ▸ cool

theorem passed_repaired {now : ℕ} (repaired : world.Repaired) : Passed now world := ⟨fun _ _ => repaired, .inl repaired.rested⟩

theorem settled_leads {now : ℕ} {state : Option Record} (sound : Sound world) (stored : world.state = state)
    (past : ∀ record, state = some record → record.status ≠ .requested) :
    Leads (settled state) world fun _ final => Passed now final := by
  have done : ∀ final : World, Sound final → final.state = state → final.Rested → Passed now final := by
    refine fun final sound stored rested => ⟨fun withdrawn _ => sound.repaired withdrawn ?_ rested, .inl rested⟩
    exact fun record held => past record (stored.symm.trans held)
  refine Leads.bind (Leads.mono (restore_leads sound) fun _ first sound ⟨within, rested⟩ => ?_)
  have stored : first.state = state := within.undisturbed.state.trans stored
  refine Leads.bind (sound.here.look (Holds.ite (fun verified => ?_) fun _ => sound.here.pure (done first sound stored rested)))
  refine Leads.bind (Leads.mono (removeMarker_leads sound) fun _ second sound ⟨same, _, _, rests⟩ => ?_)
  refine Leads.bind (Leads.mono (removePending_leads sound) fun _ third sound ⟨same', _, _, rests'⟩ => ?_)
  exact sound.here.pure (done third sound (same'.trans (same.trans stored)) (rests' (rests rested)))

theorem awaited_leads {now : ℕ} {record : Record} (sound : Sound world) (stored : world.state = some record)
    (boot : record.bootId = world.bootId) : Leads (awaited now record) world fun _ final => Passed now final := by
  refine Holds.ite (fun late => ?_) fun early => sound.here.pure ⟨fun _ due => ?_, .inr ?_⟩
  · refine Leads.bind (Leads.mono (removeMarker_leads sound) fun _ first sound ⟨same, marker, _, _⟩ => ?_)
    refine Leads.bind (Leads.mono (removePending_leads sound) fun _ second sound ⟨same', marker', pending, _⟩ => ?_)
    refine Leads.bind (Leads.mono (restore_leads sound) fun _ third sound ⟨within, rested⟩ => ?_)
    have stored : third.state = some record := within.undisturbed.state.trans (same'.trans (same.trans stored))
    have marker : third.marker = none := within.undisturbed.marker.trans (marker'.trans marker)
    have pending : third.pending = none := within.undisturbed.pending.trans pending
    refine Leads.bind (Leads.mono (writeState_leads sound stored rfl marker pending rested) fun _ _ sound repaired => ?_)
    exact sound.here.pure (passed_repaired repaired)
  · have last : world.requests.head? = some record.request := by
      rw [← sound.latest, stored]
      rfl
    exact absurd (due record.request last boot) early
  · have soon : now - record.requestedAt < day := Nat.lt_of_le_of_lt (Nat.le_of_not_lt early) (by decide)
    simpa [cooling, stored] using soon

theorem rebooted_leads {now boot : ℕ} {record : Record} (sound : Sound world) (stored : world.state = some record) :
    Leads (rebooted now boot record) world fun _ final => Passed now final := by
  refine Leads.bind (Leads.mono (restore_leads sound) fun _ first sound ⟨within, rested⟩ => ?_)
  have stored : first.state = some record := within.undisturbed.state.trans stored
  refine Leads.bind (Leads.mono (removeMarker_leads sound) fun _ second sound ⟨same, marker, _, rests⟩ => ?_)
  refine Leads.bind (Leads.mono (removePending_leads sound) fun _ third sound ⟨same', marker', pending, rests'⟩ => ?_)
  refine Leads.bind (sound.asks verifies_keeps fun ok fourth before sound => ?_)
  refine Leads.bind (sound.asks (evidence_keeps ok) fun _ fifth after sound => ?_)
  have still : Later third fifth := IsTrans.trans _ _ _ before after
  have stored : fifth.state = some record := still.undisturbed.state.trans (same'.trans (same.trans stored))
  have marker : fifth.marker = none := still.undisturbed.marker.trans (marker'.trans marker)
  have pending : fifth.pending = none := still.undisturbed.pending.trans pending
  have rested : fifth.Rested := (rests' (rests rested)).later still
  refine Leads.bind (Leads.mono (writeState_leads sound stored rfl marker pending rested) fun _ _ sound repaired => ?_)
  exact sound.here.pure (passed_repaired repaired)

theorem bootReceipt_leads {now : ℕ} (sound : Sound world) :
    Leads (bootReceipt now) world fun _ final => Passing world final ∧ Passed now final := by
  refine Leads.within ?_ (bootReceipt_passes now)
  refine Leads.bind (sound.here.look (Leads.bind (sound.here.look ?_)))
  cases stored : world.state with
  | none => exact settled_leads sound stored fun _ held => nomatch held
  | some record =>
    refine Holds.ite (fun settled => settled_leads sound stored ?_) fun _ => ?_
    · intro other held
      cases held
      exact settled.1
    · exact Holds.ite (fun boot => awaited_leads sound stored boot) fun _ => rebooted_leads sound stored

end Passes

/-! What a request leaves: it is stored before its markers stand, it comes a day after the
last one, and what it pauses is on the receipt before it stops.
-/

section Pauses
variable {world : World} {receipt : Receipt}

theorem surveyed_leads (sound : Sound world) :
    Leads surveyed world fun receipt final =>
      Later world final ∧ receipt.restored = false ∧ receipt.bootId = world.bootId := by
  refine Leads.within ?_ surveyed_keeps
  refine Leads.bind (sound.asks observe_keeps fun _ first within sound => Leads.bind (sound.here.outcome fun units _ => ?_))
  refine Holds.ite (fun _ => sound.here.raise _) fun _ => ?_
  refine Leads.bind (sound.asks observe_keeps fun _ second within' sound => Leads.bind (sound.here.outcome fun pid _ => ?_))
  refine Leads.bind (sound.here.look (Leads.bind (sound.here.look ?_)))
  exact sound.here.pure ⟨rfl, within'.undisturbed.bootId.trans within.undisturbed.bootId⟩

theorem stopTimers_leads (sound : Sound world) (covered : Covered receipt world) :
    Leads (stopTimers receipt.timers) world fun _ final => Covered receipt final := by
  refine Holds.ite (fun _ => sound.here.pure covered) fun _ => sound.acts fun later within still => ?_
  have before := covered.later within
  have after : Covered receipt { later with stopped := receipt.timers ++ later.stopped } := by
    refine ⟨before.stored, before.unrestored, fun unit member => ?_, before.cron⟩
    exact (List.mem_append.mp member).elim id (before.timers unit)
  refine ⟨still.scheduling (.intro _ _ _ _ _ (Nat.le_refl _)) still.alive (.inr ⟨receipt, after⟩) fun rested => ?_, after⟩
  exact absurd (rested.restored receipt before.stored) (by simp [before.unrestored])

theorem suspendCron_leads (sound : Sound world) (covered : Covered receipt world) (boot : receipt.bootId = world.bootId) :
    Leads (suspendCron receipt) world fun _ _ => True := by
  refine Holds.ite (fun _ => sound.here.pure trivial) fun found => ?_
  refine Leads.bind (sound.asks observe_keeps fun _ later within still => Leads.bind (still.here.look ?_))
  cases running : later.processes receipt.cronPid with
  | none => exact still.here.raise _
  | some start =>
    refine Holds.ite (fun _ => still.here.raise _) fun same => still.here.step ?_ trivial
    have before := covered.later within
    have boot : receipt.bootId = later.bootId := boot.trans within.undisturbed.bootId.symm
    have after : Covered receipt { later with suspended := some (receipt.cronPid, start) } := by
      refine ⟨before.stored, before.unrestored, before.timers, fun process held => ?_⟩
      cases held
      exact ⟨boot, found, rfl, (Decidable.of_not_not same).symm⟩
    refine still.scheduling (.intro _ _ _ _ _ (Nat.le_refl _)) ?_ (.inr ⟨receipt, after⟩) fun rested => ?_
    · intro process held
      cases held
      exact running
    · exact absurd (rested.restored receipt before.stored) (by simp [before.unrestored])

theorem pause_leads (sound : Sound world) (unreached : world.reached = none) (rested : world.Rested) :
    Leads pause world fun _ final => Scheduling world final := by
  suffices paused : Leads pause world fun _ _ => True from
    Leads.mono (paused.within pause_keeps) fun _ _ _ held => held.1
  refine Leads.bind (Leads.mono (surveyed_leads sound) fun receipt first sound ⟨within, unrestored, boot⟩ => ?_)
  have rested := rested.later within
  have unreached : first.reached = none := within.undisturbed.reached.trans unreached
  have written := writeReceipt_leads receipt sound rested.stopped rested.suspended (.inr unreached)
  refine Leads.bind (Leads.mono (written.within (writeReceipt_keeps receipt)) fun _ second sound ⟨same, stored, idle, awake⟩ => ?_)
  have covered : Covered receipt second := by
    refine ⟨stored, unrestored, fun unit member => ?_, fun process held => absurd (awake.symm.trans held) (by simp)⟩
    rw [idle] at member
    cases member
  have boot : receipt.bootId = second.bootId :=
    boot.trans (within.undisturbed.bootId.symm.trans same.undisturbed.bootId.symm)
  have stopping : Leads (do stopTimers receipt.timers; suspendCron receipt : Pass Unit) second fun _ _ => True := by
    refine Leads.bind (Leads.mono ((stopTimers_leads sound covered).within (stopTimers_keeps _)) ?_)
    exact fun _ third sound ⟨same, covered⟩ => suspendCron_leads sound covered (boot.trans same.undisturbed.bootId.symm)
  refine Leads.bind (Leads.mono (stopping.attempt fun raised final sound => ?_) fun _ final sound _ => sound.here.pure trivial)
  exact Leads.bind (Leads.mono (restore_leads sound) fun _ _ sound _ => sound.here.raise _)

end Pauses

section Submits
variable {world : World} {record : Record}

/-- The request that is being made. -/
structure Marking (record : Record) (world : World) : Prop where
  stored : world.state = some record
  requested : record.status = .requested
  boot : record.bootId = world.bootId

theorem Marking.later {next : World} (marking : Marking record world) (later : Later world next) : Marking record next :=
  ⟨later.undisturbed.state.trans marking.stored, marking.requested, marking.boot.trans later.undisturbed.bootId.symm⟩

theorem Sound.requested (sound : Sound world) {now : ℕ} (boot : record.bootId = world.bootId) (status : record.status = .requested)
    (unreached : world.reached = none) (past : now ≤ record.requestedAt) (rare : cooling now world.state = false) :
    Sound { world with state := some record, requests := record.request :: world.requests } := by
  have explained : World.Explained { world with state := some record, requests := record.request :: world.requests } :=
    ⟨record, rfl, boot, .inl status⟩
  refine sound.stating ⟨rfl, rfl, rfl, rfl, rfl, rfl, rfl⟩ ?_ rfl ?_ ?_ ?_ ?_
  · refine List.pairwise_cons.mpr ⟨fun earlier member => ?_, sound.spaced⟩
    -- the last request is the latest of all
    have latest : ∀ request, world.requests.head? = some request → request.requestedAt + day ≤ now := by
      intro request last
      rw [← sound.latest, Option.map_eq_some_iff] at last
      obtain ⟨previous, stored, rfl⟩ := last
      have long : day ≤ now - previous.requestedAt := by simpa [cooling, stored] using rare
      have some_ : 0 < day := by decide
      show previous.requestedAt + day ≤ now
      omega
    show earlier.requestedAt + day ≤ record.requestedAt
    cases requests : world.requests with
    | nil =>
      rw [requests] at member
      cases member
    | cons last rest =>
      have recent := latest last (by rw [requests]; rfl)
      rw [requests] at member
      rcases List.mem_cons.mp member with rfl | older
      · exact Nat.le_trans recent past
      · have before := (List.pairwise_cons.mp (requests ▸ sound.spaced)).1 earlier older
        omega
  · intro other held
    cases held
    exact Nat.le_of_eq boot
  · exact fun boot stands => ⟨(sound.marked boot stands).1, explained⟩
  · exact fun boot stands => ⟨(sound.closed boot stands).1, fun _ => explained⟩
  · exact fun _ reached => absurd (unreached.symm.trans reached) (by simp)

theorem Sound.marking (sound : Sound world) (marking : Marking record world) :
    Sound { world with marker := some world.bootId } := by
  refine sound.stating ⟨rfl, rfl, rfl, rfl, rfl, rfl, rfl⟩ sound.spaced sound.latest sound.known ?_ sound.closed fun _ _ cool => cool
  intro boot stands
  cases stands
  exact ⟨rfl, record, marking.stored, marking.boot, .inl marking.requested⟩

theorem Sound.closing (sound : Sound world) (marking : Marking record world) :
    Sound { world with pending := some world.bootId } := by
  refine sound.stating ⟨rfl, rfl, rfl, rfl, rfl, rfl, rfl⟩ sound.spaced sound.latest sound.known sound.marked ?_ fun _ _ cool => cool
  intro boot stands
  cases stands
  exact ⟨Nat.le_refl _, fun _ => ⟨record, marking.stored, marking.boot, .inl marking.requested⟩⟩

theorem Marking.acts {effect : World → World} (sound : Sound world) (marking : Marking record world)
    (kept : ∀ later, Sound later → Marking record later → Sound (effect later) ∧ Marking record (effect later)) :
    Holds Sound (fun _ => Marking record) (act effect) () world fun _ _ final => Marking record final := by
  refine sound.actsWhile (fun _ within => marking.later within) fun later within still => ?_
  obtain ⟨sound, marking⟩ := kept later still (marking.later within)
  exact ⟨sound, marking, marking⟩

theorem publish_leads (sound : Sound world) (marking : Marking record world) :
    Holds Sound (fun _ => Marking record) (publish record.bootId) () world fun _ _ _ => True := by
  refine Holds.bind (Holds.mono (marking.acts sound fun _ sound marking => ⟨sound, marking⟩) fun _ _ first sound marking => ?_)
  refine Holds.bind (Holds.mono (marking.acts sound fun later sound marking => ?_) fun _ _ second sound marking => ?_)
  · exact ⟨marking.boot ▸ sound.marking marking, marking.stored, marking.requested, marking.boot⟩
  · refine Holds.bind (Holds.mono (marking.acts sound fun later sound marking => ?_) fun _ _ third sound marking => ?_)
    · exact ⟨marking.boot ▸ sound.closing marking, marking.stored, marking.requested, marking.boot⟩
    · exact Holds.mono (marking.acts sound fun _ sound marking => ⟨sound, marking⟩) fun _ _ _ _ _ => trivial

/-- A request is withdrawn in the order in which it was made: it is still explained while its
markers stand, if nothing else because it is being withdrawn. -/
theorem withdraw_leads (sound : Sound world) (marking : Marking record world) (raised : String) :
    Leads (withdraw record raised) world fun _ _ => True := by
  have failed : Leads (writeFailed { record with status := .failed, error := some "reboot_request_failed" }) world fun _ _ => True := by
    refine sound.acts fun later within still => ⟨?_, trivial⟩
    have now := marking.later within
    refine still.stating ⟨rfl, rfl, rfl, rfl, rfl, rfl, rfl⟩ still.spaced ?_ ?_ ?_ ?_ ?_
    · rw [← still.latest, now.stored]
      rfl
    · intro other held
      cases held
      exact Nat.le_of_eq now.boot
    · exact fun boot stands => ⟨(still.marked boot stands).1, _, rfl, now.boot, .inr rfl⟩
    · exact fun boot stands => ⟨(still.closed boot stands).1, fun _ => ⟨_, rfl, now.boot, .inr rfl⟩⟩
    · exact fun _ _ cool => by simpa [cooling, now.stored] using cool
  refine Leads.bind (Leads.mono failed fun _ first sound _ => ?_)
  refine Leads.bind (Leads.mono (removeMarker_leads sound) fun _ second sound ⟨_, unmarked, _, _⟩ => ?_)
  have retracted : Leads retractPending second fun _ _ => True := by
    refine sound.acts fun later within still => ⟨?_, trivial⟩
    refine still.stating ⟨rfl, rfl, rfl, rfl, rfl, rfl, rfl⟩ still.spaced still.latest still.known ?_ ?_ fun _ _ cool => cool
    · exact fun boot stands => absurd ((within.undisturbed.marker.trans unmarked).symm.trans stands) (by simp)
    · exact fun _ stands => nomatch stands
  exact Leads.bind (Leads.mono retracted fun _ third sound _ => sound.here.raise _)

theorem submit_leads {now boot : ℕ} (sound : Sound world) (same : boot = world.bootId) (unreached : world.reached = none)
    (past : now ≤ world.clock) (rare : cooling now world.state = false) : Leads (submit boot) world fun _ _ => True := by
  refine Leads.bind (sound.asks observe_keeps fun _ first before sound => Leads.bind (sound.here.look ?_))
  refine Leads.bind (sound.asks command_keeps fun _ second after sound => ?_)
  have within : Later world second := IsTrans.trans _ _ _ before after
  have past : now ≤ first.clock := Nat.le_trans past before.undisturbed.clock
  have written : Leads (writeRequest ⟨.requested, boot, first.clock, none, none, none⟩) second fun _ final =>
      Marking ⟨.requested, boot, first.clock, none, none, none⟩ final := by
    refine sound.acts fun later last still => ?_
    have within : Later world later := IsTrans.trans _ _ _ within last
    have boot : boot = later.bootId := same.trans within.undisturbed.bootId.symm
    refine ⟨still.requested boot rfl (within.undisturbed.reached.trans unreached) past ?_, rfl, rfl, boot⟩
    rw [within.undisturbed.state]
    exact rare
  refine Leads.bind (Leads.mono written fun _ third sound marking => ?_)
  have published := publish_leads sound marking
  exact Holds.attempt published fun raised _ final here => withdraw_leads here.upheld here.raised raised

theorem paused_leads {now boot : ℕ} (sound : Sound world) (same : boot = world.bootId) (unreached : world.reached = none)
    (past : now ≤ world.clock) (rare : cooling now world.state = false) (rested : world.Rested) :
    Leads (paused boot) world fun _ _ => True := by
  refine Leads.bind (Leads.mono (pause_leads sound unreached rested) fun receipt first sound paused => ?_)
  have held : Leads (underPause boot receipt) first fun _ _ => True := by
    refine Leads.bind (sound.asks (lastObservations_keeps receipt) fun found second within sound => ?_)
    cases found with
    | some action => exact sound.here.pure trivial
    | none =>
      have same' := paused.undisturbed
      have same'' := within.undisturbed
      have submitted := submit_leads sound (same.trans (same''.bootId.trans same'.bootId).symm)
        (same''.reached.trans (same'.reached.trans unreached)) (Nat.le_trans past (Nat.le_trans same'.clock same''.clock))
        (by rw [same''.state, same'.state]; exact rare)
      exact Leads.bind (Leads.mono submitted fun _ _ sound _ => sound.here.pure trivial)
  have restored : ∀ raised final, Sound final →
      Leads (do restore; raise raised : Pass (String × Bool)) final fun _ _ => True :=
    fun raised final sound => Leads.bind (Leads.mono (restore_leads sound) fun _ _ sound _ => sound.here.raise raised)
  refine Leads.bind (Leads.mono (Leads.attempt held restored) fun answer second sound _ => ?_)
  refine Holds.ite (fun _ => sound.here.pure trivial) fun _ => ?_
  exact Leads.bind (Leads.mono (restore_leads sound) fun _ _ sound _ => sound.here.pure trivial)

theorem requestReboot_leads {now : ℕ} (sound : Sound world) (unreached : world.reached = none) (past : now ≤ world.clock)
    (ready : world.Rested ∨ cooling now world.state) : Leads (requestReboot now) world fun _ _ => True := by
  refine Leads.bind (sound.asks probe_keeps fun required first before sound => ?_)
  refine Leads.bind (sound.asks probe_keeps fun automatic second after sound => ?_)
  have within : Later world second := IsTrans.trans _ _ _ before after
  refine Holds.ite (fun _ => sound.here.pure trivial) fun _ => ?_
  refine Leads.bind (sound.here.look (Leads.bind (sound.here.look ?_)))
  refine Holds.ite (fun _ => sound.here.pure trivial) fun rare => ?_
  have rare : cooling now second.state = false := by simpa using rare
  have rested : second.Rested := by
    rw [within.undisturbed.state] at rare
    exact (ready.resolve_right (by simp [rare])).later within
  refine Leads.bind (sound.asks observations_keeps fun found third seen sound => ?_)
  cases found with
  | some action => exact sound.here.pure trivial
  | none =>
    refine Leads.bind (sound.asks drained_keeps fun held fourth drains sound => ?_)
    cases held with
    | some action => exact sound.here.pure trivial
    | none =>
      have later : Later second fourth := IsTrans.trans _ _ _ seen drains
      have whole : Later world fourth := IsTrans.trans _ _ _ within later
      refine paused_leads sound later.undisturbed.bootId.symm (whole.undisturbed.reached.trans unreached)
        (Nat.le_trans past whole.undisturbed.clock) ?_ (rested.later later)
      rw [later.undisturbed.state]
      exact rare

end Submits

/-! The host over whole runs: requests lie a day apart, admission is closed for a stored
request only, and a pass opens it again once the request is due. The last is so where no
process ends between the record of a failed request and the removal of its markers.
-/

section Calls
variable {world : World}

theorem Sound.reach (sound : Sound world) {now : Option ℕ}
    (ready : ∀ value, now = some value → value ≤ world.clock ∧ (world.Rested ∨ cooling value world.state)) :
    Sound { world with reached := now } := by
  refine ⟨sound.spaced, sound.latest, sound.known, sound.marked, sound.closed, sound.alive, ?_, fun value reached => ?_⟩
  · rcases sound.saved with idle | ⟨receipt, covered⟩
    · exact .inl idle
    · exact .inr ⟨receipt, covered.stored, covered.unrestored, covered.timers, covered.cron⟩
  · obtain ⟨past, cause⟩ := ready value reached
    exact ⟨past, cause.imp_left fun rested => ⟨rested.restored, rested.stopped, rested.suspended⟩⟩

theorem reading_leads (sound : Sound world) :
    Leads reading world fun now final => Later world final ∧ now ≤ final.clock := by
  refine Leads.within ?_ reading_keeps
  refine Leads.bind (sound.asks observe_keeps fun answer later _ still => Leads.bind (still.here.look ?_))
  exact still.here.pure (Nat.sub_le _ _)

theorem Sound.rebooted (sound : Sound world) (answer : Answer) : Sound (world.rebooted answer) := by
  refine ⟨sound.spaced, sound.latest, ?_, (fun _ stands => nomatch stands), ?_, (fun _ held => nomatch held), ?_,
    (fun _ reached => nomatch reached)⟩
  · exact fun record stored => Nat.le_succ_of_le (sound.known record stored)
  · intro boot stands
    have before := (sound.closed boot stands).1
    exact ⟨Nat.le_succ_of_le before, fun same => absurd before (by rw [same]; exact Nat.not_succ_le_self _)⟩
  · rcases sound.saved with ⟨idle, _⟩ | ⟨receipt, covered⟩
    · exact .inl ⟨idle, rfl⟩
    · exact .inr ⟨receipt, covered.stored, covered.unrestored, covered.timers, fun _ held => nomatch held⟩

/-- What a call ends with: a pass that is done has repaired the host, if the request is due
and none is being withdrawn. -/
def Ends (handling : Bool) (outcome : Outcome) (world : World) : Prop :=
  ∀ now, outcome = .passed now → handling = false → Due now world → world.Repaired

theorem pass_leads (sound : Sound world) : Leads (call .pass) world (Ends world.handling) := by
  refine Leads.bind (Leads.mono (reading_leads sound) fun now first sound ⟨within, _⟩ => ?_)
  refine Leads.bind (Leads.mono (bootReceipt_leads sound) fun _ second sound ⟨passing, passed⟩ => ?_)
  refine sound.here.pure fun value same withdrawn due => ?_
  cases same
  exact passed.repaired (passing.handling.trans (within.undisturbed.handling.trans withdrawn)) due

theorem cycle_leads (sound : Sound world) : Leads (call .cycle) world (Ends world.handling) := by
  refine Leads.bind (sound.here.step (sound.reach fun _ none => nomatch none) ?_)
  have sound : Sound { world with reached := none } := sound.reach fun _ none => nomatch none
  refine Leads.bind (Leads.mono (reading_leads sound) fun now first sound ⟨within, past⟩ => ?_)
  refine Leads.bind (Leads.mono (bootReceipt_leads sound) fun _ second sound ⟨passing, passed⟩ => ?_)
  have ready : Sound { second with reached := some now } := by
    refine sound.reach fun value same => ?_
    cases same
    exact ⟨Nat.le_trans past passing.clock, passed.ready⟩
  refine Leads.bind (sound.here.step ready (ready.here.pure fun value same withdrawn due => ?_))
  cases same
  have repaired := passed.repaired (passing.handling.trans (within.undisturbed.handling.trans withdrawn)) due
  exact ⟨repaired.marker, repaired.admits, repaired.rested.restored, repaired.rested.stopped, repaired.rested.suspended⟩

theorem request_leads (sound : Sound world) : Leads (call .request) world (Ends world.handling) := by
  refine Leads.bind (sound.here.look ?_)
  cases reached : world.reached with
  | none => exact sound.here.pure fun _ same => nomatch same
  | some now =>
    obtain ⟨past, ready⟩ := sound.reached now reached
    have cleared : Sound { world with reached := none } := sound.reach fun _ none => nomatch none
    refine Leads.bind (sound.here.step cleared ?_)
    have ready : World.Rested { world with reached := none } ∨ cooling now world.state :=
      ready.imp_left fun rested => ⟨rested.restored, rested.stopped, rested.suspended⟩
    refine Leads.bind (Leads.mono (requestReboot_leads cleared rfl past ready) fun _ _ sound _ => ?_)
    exact sound.here.pure fun _ same => nomatch same

theorem reboot_leads (sound : Sound world) : Leads (call .reboot) world (Ends world.handling) := by
  refine Leads.bind (sound.here.ask fun answer => Leads.bind (sound.here.step (sound.rebooted answer) ?_))
  exact (sound.rebooted answer).here.pure fun _ same => nomatch same

theorem call_leads (kind : Call) (sound : Sound world) : Leads (call kind) world (Ends world.handling) := by
  cases kind with
  | pass => exact pass_leads sound
  | cycle => exact cycle_leads sound
  | request => exact request_leads sound
  | reboot => exact reboot_leads sound

end Calls

section Runs

theorem sound_installed (bootId clock : ℕ) (processes : ℕ → Option ℕ) : Sound (World.installed bootId clock processes) where
  spaced := .nil
  latest := rfl
  known _ stored := nomatch stored
  marked _ stands := nomatch stands
  closed _ stands := nomatch stands
  alive _ held := nomatch held
  saved := .inl ⟨rfl, rfl⟩
  reached _ reached := nomatch reached

/-- No process ended, or was killed, between recording that a request failed and removing
both of its markers. -/
def Unbroken (host : Machine) : Prop := host.running = none → host.world.handling = false

/-- A run of a host from its installation on. -/
structure History where
  bootId : ℕ
  clock : ℕ
  processes : ℕ → Option ℕ
  host : Machine
  run : Host.Run body ⟨World.installed bootId clock processes, none⟩ host

/-- No process of the run was cut where its end leaves the markers of a failed request. -/
def History.Unbroken (history : History) : Prop :=
  Host.RunWithin Reboot.Unbroken body ⟨World.installed history.bootId history.clock history.processes, none⟩ history.host

def History.PassDone (history : History) (now : ℕ) : Prop := history.host.running = some (.done (.ok (.passed now), ()))

/-- Requests lie a day apart, and admission is closed for a stored request of the boot only.
In an unbroken run a pass that is done when the request is due leaves no marker of the boot,
admission open and every scheduler going. -/
theorem host_recovers (history : History) :
    history.host.world.requests.Pairwise (fun later earlier => earlier.requestedAt + day ≤ later.requestedAt) ∧
    (history.host.world.admits = false →
      ∃ record, history.host.world.state = some record ∧ record.bootId = history.host.world.bootId) ∧
    (history.Unbroken → ∀ now, history.PassDone now → Due now history.host.world → history.host.world.Repaired) := by
  obtain ⟨bootId, clock, processes, host, run⟩ := history
  have start := sound_installed bootId clock processes
  have sound : Sound host.world := Host.run_survives
    (fun kind world sound => Program.Survives.mono (call_leads kind sound) fun _ _ _ _ => trivial) start run
  refine ⟨sound.spaced, fun shut => ?_, fun unbroken now done due => ?_⟩
  · have stands : host.world.pending = some host.world.bootId := by simpa [World.admits] using shut
    obtain ⟨record, stored, boot, _⟩ := (sound.closed _ stands).2 rfl
    exact ⟨record, stored, boot⟩
  · -- each call that starts with no request being withdrawn repairs what it finds due
    have repairs : ∀ kind world, Sound world → world.handling = false →
        Program.Survives Sound (body kind) world
          fun answer final => ∀ now, answer.1 = .ok (.passed now) → Due now final → final.Repaired := by
      intro kind world sound resting
      refine Program.Survives.mono (call_leads kind sound) fun answer final _ leaves now same due => ?_
      obtain ⟨result, memory⟩ := answer
      cases same
      exact leaves now rfl resting due
    have underway := Host.run_within_survives repairs (fun _ kindly => kindly rfl) start rfl unbroken
    exact underway.finished done now rfl due

/-- Nothing to do, nothing in the way. -/
def Answer.quiet : Answer := ⟨0, 0, fun _ => none, .done, .ok "0", .ok true, .ok [], .ok 0⟩

def Answer.no : Answer := { Answer.quiet with told := .ok false }

def Answer.failing : Answer := { Answer.quiet with write := .refused }

def Answer.late : Answer := { Answer.quiet with elapsed := 16 * minute }

def fresh : World := World.installed 1 0 fun _ => none

def afterCycle : World := (Host.told [.quiet] (body .cycle) fresh).2

/-- A request goes through until the command that reboots fails, and is withdrawn as far as
the record that it failed; there the controller is killed. -/
def untilFailed : List Answer :=
  List.replicate 4 .quiet ++ List.replicate 5 .no ++ List.replicate 7 .quiet ++ [.no, .no] ++
    List.replicate 18 .quiet ++ [.failing] ++ List.replicate 3 .quiet

def afterKill : World := (Host.told untilFailed (body .request) afterCycle).2

/-- The pass sixteen minutes later. -/
def afterPass : Program World Answer (Except String Outcome × Unit) × World :=
  Host.told [.late, .quiet, .quiet, .quiet] (body .pass) afterKill

theorem run_afterPass : Host.Run body ⟨fresh, none⟩ ⟨afterPass.2, some afterPass.1⟩ := by
  have cycle : Host.Run body ⟨fresh, none⟩ ⟨afterCycle, none⟩ := Host.run_left [Answer.quiet] Call.cycle fresh
  have request : Host.Run body ⟨afterCycle, none⟩ ⟨afterKill, none⟩ := Host.run_left untilFailed Call.request afterCycle
  have pass : Host.Run body ⟨afterKill, none⟩ ⟨afterPass.2, some afterPass.1⟩ :=
    Host.run_begun [Answer.late, .quiet, .quiet, .quiet] Call.pass afterKill
  exact cycle.trans (request.trans pass)

/-- A controller killed between the record of a failed request and the removal of its
markers leaves admission closed after every pass of the boot. -/
theorem host_stays_closed : ¬∀ (history : History) (now : ℕ),
    history.PassDone now → Due now history.host.world → history.host.world.Repaired := by
  intro claim
  have done : afterPass.1 = .done (.ok (.passed (16 * minute)), ()) := rfl
  have requests : afterPass.2.requests = [⟨1, 0⟩] := rfl
  have due : Due (16 * minute) afterPass.2 := by
    intro request last _
    rw [requests] at last
    cases last
    decide
  have repaired := claim ⟨1, 0, fun _ => none, ⟨afterPass.2, some afterPass.1⟩, run_afterPass⟩ (16 * minute) (congrArg some done) due
  have shut : afterPass.2.admits = false := rfl
  exact absurd repaired.admits (by simp [shut])

end Runs
end C3po.Reboot
