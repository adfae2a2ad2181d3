import C3po.Reboot.Controller

/-! What the parts of a pass and of a request leave alone: a question lets time pass only,
and what is done to the schedulers touches nothing of a request.
-/

set_option autoImplicit false

namespace C3po.Reboot
open C3po.Library Script

def World.Alive (world : World) : Prop :=
  ∀ process, world.suspended = some process → world.processes process.1 = some process.2

/-- Time passed, and processes came and went. -/
inductive Later (world : World) : World → Prop where
  | intro (clock : ℕ) (processes : ℕ → Option ℕ) (suspended : Option (ℕ × ℕ)) (later : world.clock ≤ clock)
      (fewer : suspended = world.suspended ∨ suspended = none)
      (alive : world.Alive → ∀ process, suspended = some process → processes process.1 = some process.2) :
      Later world { world with clock := clock, processes := processes, suspended := suspended }

/-- Only time and the schedulers changed. -/
inductive Scheduling (world : World) : World → Prop where
  | intro (clock : ℕ) (processes : ℕ → Option ℕ) (schedulers : Option Receipt) (stopped : List String)
      (suspended : Option (ℕ × ℕ)) (later : world.clock ≤ clock) :
      Scheduling world { world with
        clock := clock, processes := processes, schedulers := schedulers, stopped := stopped, suspended := suspended }

instance : IsPreorder World Later where
  refl world := .intro world.clock world.processes world.suspended (Nat.le_refl _) (.inl rfl) fun alive => alive
  trans first second third before after := by
    cases before with
    | intro clock processes suspended later fewer alive =>
      cases after with
      | intro clock' processes' suspended' later' fewer' alive' =>
        refine .intro clock' processes' suspended' (Nat.le_trans later later') ?_ fun live => alive' (alive live)
        rcases fewer' with same | none
        · exact same ▸ fewer
        · exact .inr none

instance : IsPreorder World Scheduling where
  refl world := .intro world.clock world.processes world.schedulers world.stopped world.suspended (Nat.le_refl _)
  trans first second third before after := by
    cases before with
    | intro _ _ _ _ _ later =>
      cases after with
      | intro clock processes schedulers stopped suspended later' =>
        exact .intro clock processes schedulers stopped suspended (Nat.le_trans later later')

theorem Later.scheduling {world next : World} (later : Later world next) : Scheduling world next := by
  cases later with
  | intro clock processes suspended later =>
    exact .intro clock processes world.schedulers world.stopped suspended later

/-- What is told and marked of a request is as it was. -/
structure Undisturbed (world next : World) : Prop where
  bootId : next.bootId = world.bootId
  state : next.state = world.state
  marker : next.marker = world.marker
  pending : next.pending = world.pending
  requests : next.requests = world.requests
  handling : next.handling = world.handling
  reached : next.reached = world.reached
  clock : world.clock ≤ next.clock

theorem Scheduling.undisturbed {world next : World} (scheduling : Scheduling world next) : Undisturbed world next := by
  cases scheduling with
  | intro _ _ _ _ _ later => exact ⟨rfl, rfl, rfl, rfl, rfl, rfl, rfl, later⟩

theorem Later.undisturbed {world next : World} (later : Later world next) : Undisturbed world next :=
  later.scheduling.undisturbed

theorem later_after (world : World) (answer : Answer) : Later world (world.after answer) := by
  apply Later.intro (world.clock + answer.elapsed) answer.processes _ (Nat.le_add_right _ _)
  · cases world.suspended with
    | none => exact .inr rfl
    | some process =>
      rw [Option.filter_some]
      split
      · exact .inl rfl
      · exact .inr rfl
  · intro _ process held
    simpa using (Option.filter_eq_some_iff.mp held).2

section Quiet
variable {A : Type}

theorem Keeps.scheduling {script : Pass A} (keeps : Keeps Later script) : Keeps Scheduling script :=
  fun memory world => Safe.widen (keeps memory world) fun _ later => later.scheduling

theorem observe_keeps : Keeps Later observe :=
  Keeps.bind Keeps.ask fun answer => Keeps.bind (Keeps.step fun world => later_after world answer) fun _ => Keeps.pure

theorem command_keeps : Keeps Later command := Keeps.bind observe_keeps fun _ => Keeps.outcome

theorem probe_keeps : Keeps Later probe := Keeps.bind observe_keeps fun _ => Keeps.outcome

theorem reading_keeps : Keeps Later reading :=
  Keeps.bind observe_keeps fun _ => Keeps.bind Keeps.look fun _ => Keeps.pure

theorem verifies_keeps : Keeps Later verifies := by
  apply Keeps.attempt
  · refine Keeps.bind probe_keeps fun healthy => Keeps.ite ?_ Keeps.pure
    exact Keeps.bind probe_keeps fun _ => Keeps.pure
  · exact fun _ => Keeps.pure

theorem evidence_keeps (ok : Bool) : Keeps Later (evidence ok) := by
  refine Keeps.ite ?_ Keeps.pure
  exact Keeps.bind command_keeps fun _ => Keeps.bind command_keeps fun _ => Keeps.bind command_keeps fun _ => Keeps.pure

theorem anyTold_keeps (questions : List String) : Keeps Later (anyTold questions) := by
  induction questions with
  | nil => exact Keeps.pure
  | cons _ rest ih => exact Keeps.bind probe_keeps fun _ => Keeps.ite Keeps.pure ih

theorem anyOutput_keeps (busy questions : List String) : Keeps Later (anyOutput busy questions) := by
  induction questions with
  | nil => exact Keeps.pure
  | cons _ rest ih => exact Keeps.bind command_keeps fun _ => Keeps.ite Keeps.pure ih

theorem databaseBusy_keeps : Keeps Later databaseBusy := Keeps.bind command_keeps fun _ => Keeps.pure

theorem observations_keeps : Keeps Later observations := by
  refine Keeps.bind probe_keeps fun _ => Keeps.ite Keeps.pure (Keeps.bind probe_keeps fun _ => Keeps.ite Keeps.pure ?_)
  refine Keeps.bind (anyTold_keeps _) fun _ => Keeps.ite Keeps.pure ?_
  refine Keeps.bind (anyOutput_keeps _ _) fun _ => Keeps.ite Keeps.pure (Keeps.bind command_keeps fun _ => ?_)
  refine Keeps.bind databaseBusy_keeps fun _ => Keeps.ite Keeps.pure ?_
  refine Keeps.bind command_keeps fun _ => Keeps.bind command_keeps fun _ => ?_
  exact Keeps.bind databaseBusy_keeps fun _ => Keeps.ite Keeps.pure Keeps.pure

theorem drained_keeps : Keeps Later drained := by
  refine Keeps.bind probe_keeps fun _ => Keeps.ite Keeps.pure (Keeps.bind probe_keeps fun _ => Keeps.ite Keeps.pure ?_)
  refine Keeps.bind probe_keeps fun _ => Keeps.ite Keeps.pure ?_
  exact Keeps.bind probe_keeps fun _ => Keeps.ite Keeps.pure Keeps.pure

theorem triggeredBusy_keeps (timers : List String) : Keeps Later (triggeredBusy timers) := by
  induction timers with
  | nil => exact Keeps.pure
  | cons _ rest ih =>
    refine Keeps.bind observe_keeps fun _ => Keeps.bind Keeps.outcome fun _ => ?_
    exact Keeps.bind (anyOutput_keeps _ _) fun _ => Keeps.ite Keeps.pure ih

theorem idle_keeps (receipt : Receipt) : Keeps Later (idle receipt) := by
  refine Keeps.bind (triggeredBusy_keeps _) fun _ => Keeps.ite Keeps.pure (Keeps.ite Keeps.pure ?_)
  exact Keeps.bind command_keeps fun _ => Keeps.bind probe_keeps fun _ => Keeps.pure

theorem lastObservations_keeps (receipt : Receipt) : Keeps Later (lastObservations receipt) := by
  refine Keeps.bind (idle_keeps receipt) fun _ => Keeps.ite Keeps.pure ?_
  refine Keeps.bind databaseBusy_keeps fun _ => Keeps.ite Keeps.pure ?_
  exact Keeps.bind probe_keeps fun _ => Keeps.ite Keeps.pure Keeps.pure

theorem surveyed_keeps : Keeps Later surveyed := by
  refine Keeps.bind observe_keeps fun _ => Keeps.bind Keeps.outcome fun _ => Keeps.ite Keeps.raise ?_
  refine Keeps.bind observe_keeps fun _ => Keeps.bind Keeps.outcome fun _ => ?_
  exact Keeps.bind Keeps.look fun _ => Keeps.bind Keeps.look fun _ => Keeps.pure

end Quiet

section Schedulers

theorem act_keeps {effect : World → World} (within : ∀ world, Scheduling world (effect world)) :
    Keeps Scheduling (act effect) := by
  refine Keeps.bind (Keeps.scheduling observe_keeps) fun answer => Keeps.bind Keeps.ask fun _ => ?_
  cases answer.write with
  | done => exact Keeps.step within
  | refused => exact Keeps.raise
  | unsure => exact Keeps.bind (Keeps.step within) fun _ => Keeps.raise

theorem signal_keeps (pid : ℕ) {effect : World → World} (within : ∀ world, Scheduling world (effect world)) :
    Keeps Scheduling (signal pid effect) := by
  refine Keeps.bind (Keeps.scheduling observe_keeps) fun _ => Keeps.bind Keeps.look fun found => ?_
  cases found with
  | none => exact Keeps.raise
  | some _ => exact Keeps.step within

theorem resumeCron_keeps (receipt : Receipt) : Keeps Scheduling (resumeCron receipt) := by
  refine Keeps.bind Keeps.look fun _ => Keeps.ite (Keeps.bind Keeps.look fun _ => Keeps.ite ?_ Keeps.pure) Keeps.pure
  exact signal_keeps _ fun world => .intro _ _ _ _ _ (Nat.le_refl _)

theorem startTimers_keeps (timers : List String) : Keeps Scheduling (startTimers timers) :=
  Keeps.ite Keeps.pure (act_keeps fun _ => .intro _ _ _ _ _ (Nat.le_refl _))

theorem writeReceipt_keeps (receipt : Receipt) : Keeps Scheduling (writeReceipt receipt) :=
  act_keeps fun _ => .intro _ _ _ _ _ (Nat.le_refl _)

theorem restore_keeps : Keeps Scheduling restore := by
  refine Keeps.bind Keeps.look fun found => ?_
  cases found with
  | none => exact Keeps.pure
  | some receipt =>
    refine Keeps.ite Keeps.pure (Keeps.bind (resumeCron_keeps receipt) fun _ => ?_)
    exact Keeps.bind (startTimers_keeps _) fun _ => writeReceipt_keeps _

theorem stopTimers_keeps (timers : List String) : Keeps Scheduling (stopTimers timers) :=
  Keeps.ite Keeps.pure (act_keeps fun _ => .intro _ _ _ _ _ (Nat.le_refl _))

theorem suspendCron_keeps (receipt : Receipt) : Keeps Scheduling (suspendCron receipt) := by
  refine Keeps.ite Keeps.pure (Keeps.bind (Keeps.scheduling observe_keeps) fun _ => Keeps.bind Keeps.look fun found => ?_)
  cases found with
  | none => exact Keeps.raise
  | some start => exact Keeps.ite Keeps.raise (Keeps.step fun _ => .intro _ _ _ _ _ (Nat.le_refl _))

theorem pause_keeps : Keeps Scheduling pause := by
  refine Keeps.bind (Keeps.scheduling surveyed_keeps) fun receipt => Keeps.bind (writeReceipt_keeps receipt) fun _ => ?_
  refine Keeps.bind (Keeps.attempt ?_ fun _ => Keeps.bind restore_keeps fun _ => Keeps.raise) fun _ => Keeps.pure
  exact Keeps.bind (stopTimers_keeps _) fun _ => suspendCron_keeps receipt

end Schedulers

/-! What holds of the host between any two steps: requests lie a day apart, the markers of
a boot are explained by its request, and what a pause stopped is on its receipt.
-/

/-- The stored request is of this boot, and its markers may stand. -/
def World.Explained (world : World) : Prop :=
  ∃ record, world.state = some record ∧ record.bootId = world.bootId ∧ (record.status = .requested ∨ world.handling)

/-- No scheduler is paused. -/
structure World.Rested (world : World) : Prop where
  restored : ∀ receipt, world.schedulers = some receipt → receipt.restored
  stopped : world.stopped = []
  suspended : world.suspended = none

/-- What a pause stopped is on its receipt. -/
structure Covered (receipt : Receipt) (world : World) : Prop where
  stored : world.schedulers = some receipt
  unrestored : receipt.restored = false
  timers : ∀ unit ∈ world.stopped, unit ∈ receipt.timers
  cron : ∀ process, world.suspended = some process →
    receipt.bootId = world.bootId ∧ receipt.cronPid ≠ 0 ∧ receipt.cronPid = process.1 ∧ receipt.cronStart = some process.2

def World.Saved (world : World) : Prop :=
  (world.stopped = [] ∧ world.suspended = none) ∨ ∃ receipt, Covered receipt world

structure Sound (world : World) : Prop where
  spaced : world.requests.Pairwise fun later earlier => earlier.requestedAt + day ≤ later.requestedAt
  latest : world.state.map Record.request = world.requests.head?
  known : ∀ record, world.state = some record → record.bootId ≤ world.bootId
  marked : ∀ boot, world.marker = some boot → boot = world.bootId ∧ world.Explained
  closed : ∀ boot, world.pending = some boot → boot ≤ world.bootId ∧ (boot = world.bootId → world.Explained)
  alive : world.Alive
  saved : world.Saved
  reached : ∀ now, world.reached = some now → now ≤ world.clock ∧ (world.Rested ∨ cooling now world.state)

section Stability
variable {world next : World} {receipt : Receipt}

theorem World.Rested.later (rested : world.Rested) (later : Later world next) : next.Rested := by
  cases later with
  | intro clock processes suspended _ fewer =>
    refine ⟨rested.restored, rested.stopped, ?_⟩
    rcases fewer with same | none
    · exact same.trans rested.suspended
    · exact none

theorem Covered.later (covered : Covered receipt world) (later : Later world next) : Covered receipt next := by
  cases later with
  | intro clock processes suspended _ fewer =>
    refine ⟨covered.stored, covered.unrestored, covered.timers, fun process held => ?_⟩
    rcases fewer with same | none
    · exact covered.cron process (same ▸ held)
    · exact absurd (none.symm.trans held) (by simp)

theorem World.Saved.later (saved : world.Saved) (later : Later world next) : next.Saved := by
  rcases saved with ⟨stopped, suspended⟩ | ⟨receipt, covered⟩
  · cases later with
    | intro _ _ _ _ fewer =>
      refine .inl ⟨stopped, ?_⟩
      rcases fewer with same | none
      · exact same.trans suspended
      · exact none
  · exact .inr ⟨receipt, covered.later later⟩

theorem Later.alive (later : Later world next) (alive : world.Alive) : next.Alive := by
  cases later with
  | intro clock processes suspended _ _ still => exact still alive

theorem Sound.scheduling (sound : Sound world) (frame : Scheduling world next) (alive : next.Alive) (saved : next.Saved)
    (rests : world.Rested → next.Rested) : Sound next := by
  cases frame with
  | intro clock processes schedulers stopped suspended later =>
    refine ⟨sound.spaced, sound.latest, sound.known, sound.marked, sound.closed, alive, saved, fun now reached => ?_⟩
    obtain ⟨past, cause⟩ := sound.reached now reached
    exact ⟨Nat.le_trans past later, cause.imp_left rests⟩

theorem Sound.later (sound : Sound world) (later : Later world next) : Sound next :=
  sound.scheduling later.scheduling (later.alive sound.alive) (sound.saved.later later) fun rested => rested.later later

theorem Sound.rested (sound : Sound world) (restored : ∀ receipt, world.schedulers = some receipt → receipt.restored) :
    world.Rested := by
  rcases sound.saved with ⟨stopped, suspended⟩ | ⟨receipt, covered⟩
  · exact ⟨restored, stopped, suspended⟩
  · exact absurd (restored receipt covered.stored) (by simp [covered.unrestored])

end Stability

section Leads
variable {A B : Type} {world : World} {script : Pass A}

/-- The script upholds what holds of the host, and what it ends with is so. -/
def Leads (script : Pass A) (world : World) (good : A → World → Prop) : Prop :=
  Holds Sound (fun _ _ => True) script () world fun value _ final => good value final

theorem Sound.here (sound : Sound world) : Here Sound (fun _ _ => True) () world := ⟨sound, trivial⟩

theorem Leads.bind {next : A → Pass B} {good : B → World → Prop}
    (first : Leads script world fun value final => Leads (next value) final good) : Leads (script >>= next) world good :=
  Holds.bind first

theorem Leads.mono {good better : A → World → Prop} (leads : Leads script world better)
    (implied : ∀ value final, Sound final → better value final → good value final) : Leads script world good :=
  Holds.mono leads fun value _ final sound held => implied value final sound held

theorem Leads.within {frame : World → World → Prop} {good : A → World → Prop} (leads : Leads script world good)
    (keeps : Keeps frame script) : Leads script world fun value final => frame world final ∧ good value final :=
  keeps.within leads

theorem Sound.asks {good : A → World → Prop} (sound : Sound world) (keeps : Keeps Later script)
    (after : ∀ value final, Later world final → Sound final → good value final) : Leads script world good :=
  keeps.holds (fun _ later => sound.later later) (fun _ _ _ => trivial)
    fun value _ final later => after value final later (sound.later later)

theorem Sound.actsWhile {effect : World → World} {bad good : World → Prop} (sound : Sound world)
    (stays : ∀ later, Later world later → bad later)
    (effected : ∀ later, Later world later → Sound later → Sound (effect later) ∧ bad (effect later) ∧ good (effect later)) :
    Holds Sound (fun _ => bad) (act effect) () world fun _ _ final => good final := by
  refine Holds.bind (observe_keeps.holds (fun _ later => sound.later later) (fun _ final later => stays final later) ?_)
  intro answer _ later within
  obtain ⟨kept, raised, after⟩ := effected later within (sound.later within)
  have here : Here Sound (fun _ => bad) () later := ⟨sound.later within, stays later within⟩
  exact here.replace ⟨kept, raised⟩ after

theorem Sound.acts {effect : World → World} {good : World → Prop} (sound : Sound world)
    (effected : ∀ later, Later world later → Sound later → Sound (effect later) ∧ good (effect later)) :
    Leads (act effect) world fun _ final => good final :=
  sound.actsWhile (fun _ _ => trivial) fun later within still =>
    have effected := effected later within still
    ⟨effected.1, trivial, effected.2⟩

theorem Leads.attempt {handler : String → Pass A} {good : A → World → Prop} (first : Leads script world good)
    (handled : ∀ raised final, Sound final → Leads (handler raised) final good) : Leads (script.attempt handler) world good :=
  Holds.attempt first fun raised _ final here => handled raised final here.upheld

end Leads

section Restore
variable {world : World} {receipt : Receipt}

theorem Sound.resumed (sound : Sound world) (pid : ℕ) : Sound (world.resumed pid) := by
  have fewer : ∀ process, (world.resumed pid).suspended = some process → world.suspended = some process :=
    fun process held => (Option.filter_eq_some_iff.mp held).1
  apply sound.scheduling (.intro _ _ _ _ _ (Nat.le_refl _))
  · exact fun process held => sound.alive process (fewer process held)
  · rcases sound.saved with ⟨stopped, none⟩ | ⟨receipt, covered⟩
    · exact .inl ⟨stopped, Option.eq_none_iff_forall_ne_some.mpr fun process held => by simp [none] at fewer; exact fewer _ _ held⟩
    · exact .inr ⟨receipt, covered.stored, covered.unrestored, covered.timers, fun process held => covered.cron process (fewer process held)⟩
  · intro rested
    refine ⟨rested.restored, rested.stopped, Option.eq_none_iff_forall_ne_some.mpr fun process held => ?_⟩
    exact absurd (rested.suspended.symm.trans (fewer process held)) (by simp)

theorem Sound.covered (sound : Sound world) (stored : world.schedulers = some receipt) {process : ℕ × ℕ}
    (held : world.suspended = some process) : Covered receipt world := by
  rcases sound.saved with ⟨_, none⟩ | ⟨other, covered⟩
  · exact absurd (none.symm.trans held) (by simp)
  · cases stored.symm.trans covered.stored
    exact covered

theorem resumeCron_leads (sound : Sound world) (stored : world.schedulers = some receipt) :
    Leads (resumeCron receipt) world fun _ final => final.schedulers = some receipt ∧ final.suspended = none := by
  refine Leads.bind (sound.here.look (Holds.ite (fun boot => ?_) fun other => ?_))
  · refine Leads.bind (sound.here.look (Holds.ite (fun found => ?_) fun gone => ?_))
    · refine Leads.bind (sound.asks observe_keeps fun _ later within still => ?_)
      have stored : later.schedulers = some receipt := by
        cases within
        exact stored
      refine Leads.bind (still.here.look ?_)
      cases later.processes receipt.cronPid with
      | none => exact still.here.raise _
      | some start =>
        refine still.here.step (still.resumed _) ⟨stored, Option.eq_none_iff_forall_ne_some.mpr fun process held => ?_⟩
        obtain ⟨suspended, other⟩ := Option.filter_eq_some_iff.mp held
        have pid := ((still.covered stored suspended).cron process suspended).2.2.1
        simp [pid] at other
    · refine sound.here.pure ⟨stored, Option.eq_none_iff_forall_ne_some.mpr fun process suspended => gone ?_⟩
      obtain ⟨_, found, pid, start⟩ := (sound.covered stored suspended).cron process suspended
      refine ⟨found, ?_⟩
      rw [pid, start]
      exact sound.alive process suspended
  · refine sound.here.pure ⟨stored, Option.eq_none_iff_forall_ne_some.mpr fun process suspended => other ?_⟩
    exact ((sound.covered stored suspended).cron process suspended).1

theorem startTimers_leads (sound : Sound world) (stored : world.schedulers = some receipt)
    (resumed : world.suspended = none) :
    Leads (startTimers receipt.timers) world fun _ final => final.stopped = [] ∧ final.suspended = none := by
  have listed : ∀ world : World, Sound world → world.schedulers = some receipt → ∀ unit ∈ world.stopped, unit ∈ receipt.timers := by
    intro world sound stored unit member
    rcases sound.saved with ⟨none, _⟩ | ⟨other, covered⟩
    · rw [none] at member
      cases member
    · cases stored.symm.trans covered.stored
      exact covered.timers unit member
  refine Holds.ite (fun none => ?_) fun _ => sound.acts fun later within still => ?_
  · refine sound.here.pure ⟨List.eq_nil_iff_forall_not_mem.mpr fun unit member => ?_, resumed⟩
    have known := listed world sound stored unit member
    rw [none] at known
    cases known
  · have stored : later.schedulers = some receipt := by
      cases within
      exact stored
    have resumed : later.suspended = none := by
      cases within with
      | intro _ _ _ _ fewer => exact fewer.elim (fun same => same.trans resumed) id
    have started : later.stopped.filter (· ∉ receipt.timers) = [] := by
      rw [List.filter_eq_nil_iff]
      exact fun unit member => by simpa using listed later still stored unit member
    refine ⟨still.scheduling (.intro _ _ _ _ _ (Nat.le_refl _)) still.alive (.inl ⟨started, resumed⟩) fun rested => ?_, started, resumed⟩
    exact ⟨rested.restored, started, resumed⟩

theorem writeReceipt_leads (receipt : Receipt) (sound : Sound world) (idle : world.stopped = []) (resumed : world.suspended = none)
    (fresh : receipt.restored ∨ world.reached = none) :
    Leads (writeReceipt receipt) world fun _ final =>
      final.schedulers = some receipt ∧ final.stopped = [] ∧ final.suspended = none := by
  refine sound.acts fun later within still => ?_
  have idle : later.stopped = [] := by
    cases within
    exact idle
  have resumed : later.suspended = none := by
    cases within with
    | intro _ _ _ _ fewer => exact fewer.elim (fun same => same.trans resumed) id
  have fresh : receipt.restored ∨ later.reached = none := by
    cases within
    exact fresh
  refine ⟨⟨still.spaced, still.latest, still.known, still.marked, still.closed, still.alive, .inl ⟨idle, resumed⟩, ?_⟩, rfl, idle, resumed⟩
  intro now reached
  obtain ⟨past, cause⟩ := still.reached now reached
  rcases fresh with restored | none
  · exact ⟨past, cause.imp_left fun _ => ⟨fun other same => by cases same; exact restored, idle, resumed⟩⟩
  · exact absurd (none.symm.trans reached) (by simp)

theorem restore_leads (sound : Sound world) : Leads restore world fun _ final => Scheduling world final ∧ final.Rested := by
  refine Leads.within ?_ restore_keeps
  refine Leads.bind (sound.here.look ?_)
  cases stored : world.schedulers with
  | none => exact sound.here.pure (sound.rested fun _ found => absurd (stored.symm.trans found) (by simp))
  | some receipt =>
    refine Holds.ite (fun restored => sound.here.pure (sound.rested fun other found => ?_)) fun _ => ?_
    · cases stored.symm.trans found
      exact restored
    · refine Leads.bind (Leads.mono (resumeCron_leads sound stored) fun _ resumed sound ⟨stored, awake⟩ => ?_)
      refine Leads.bind (Leads.mono (startTimers_leads sound stored awake) fun _ started sound ⟨idle, awake⟩ => ?_)
      refine Leads.mono (writeReceipt_leads _ sound idle awake (.inl rfl)) fun _ final _ ⟨stored, idle, awake⟩ => ?_
      exact ⟨fun other found => by cases stored.symm.trans found; rfl, idle, awake⟩

end Restore
end C3po.Reboot
