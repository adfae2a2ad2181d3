import C3po.Schedule.Once

/-! The functions of a pass, each with what it leaves, and the runs of all passes. -/

set_option autoImplicit false

namespace C3po.Schedule
open C3po.Library
open Script (Holds)

/-- The states of an entry whose outcome is open. -/
def State.pending (state : State) : Bool :=
  state ∈ [State.dispatchIntent, .dispatchUnknown, .runConfirmed, .noticeIntent, .noticeUnknown]

structure Pending (zone : Zone) (slot : Slot) (memory : Memory) (trace : Trace) : Prop where
  here : Here zone (Fitting zone) memory trace
  entry : ∃ entry, memory.entries.get? slot.key = some entry ∧ entry.state.pending

def Telling (zone : Zone) (slot : Slot) (memory : Memory) (trace : Trace) : Prop :=
  Fitting zone memory trace ∧ ∃ entry, memory.entries.get? slot.key = some entry ∧ entry.state.told

section Notices
variable {zone : Zone} {bad : Memory → Trace → Prop} {memory : Memory} {trace : Trace} {slot : Slot} {entry : Entry}

theorem State.told_ran {state : State} (told : state.told) : state.ran := by cases state <;> first | rfl | cases told

theorem State.waiting_alive : ∀ {state : State}, state ∈ [State.dispatchIntent, .dispatchUnknown] → state ≠ .skipped := by
  intro state
  cases state <;> decide

theorem State.waiting_untold {other : Bool} : ∀ {state : State}, state ∈ [State.dispatchIntent, .dispatchUnknown] →
    state.told → other := by
  intro state
  cases state <;> simp [State.told]

theorem State.pending_of : ∀ {state : State}, state ∉ [State.complete, .skipped] → state ≠ .dispatchHeld →
    state.pending := by
  intro state
  cases state <;> decide

theorem State.confirmed : ∀ {state : State}, state.pending → state ∉ [State.dispatchIntent, .dispatchUnknown] →
    state ∉ [State.noticeIntent, .noticeUnknown] → state = .runConfirmed := by
  intro state
  cases state <;> decide

theorem State.pending_ran : ∀ {state : State}, state.pending → state ∉ [State.dispatchIntent, .dispatchUnknown] →
    state.ran := by
  intro state
  cases state <;> decide

theorem completeNotice_holds (here : Here zone bad memory trace) {id : Int} {good : Unit → Memory → Trace → Prop}
    (found : memory.entries.get? slot.key = some entry)
    (after : good () (memory.put slot { entry with state := .complete, commentId := some id }) trace) :
    Holds (Upheld zone) bad (completeNotice slot id) memory trace good := by
  refine Holds.bind (here.entryOf fun held same => ?_)
  cases found.symm.trans same
  exact here.putEntry after

theorem Here.complete (here : Here zone (Fitting zone) memory trace) {id : Int}
    (found : memory.entries.get? slot.key = some entry) (ran : entry.state.ran) :
    Here zone (Fitting zone) (memory.put slot { entry with state := .complete, commentId := some id }) trace := by
  refine here.put (checkEntry_complete (here.accepted found) ran) ?_
  have agrees := here.agrees (stateOf_found found)
  exact agrees.move (by rintro skipped; rw [skipped] at ran; cases ran) (fun _ => rfl) (fun _ => rfl)

theorem postNotice_holds (here : Here zone (Fitting zone) memory trace) {body : String} {attempted : Int}
    (found : memory.entries.get? slot.key = some entry) (intent : entry.state.told)
    (disk : stateOf (durable trace) slot.key = some entry.state) (untold : ¬Noticed trace slot.key) :
    Holds (Upheld zone) (Telling zone slot) (postNotice slot body attempted) memory trace fun _ memory trace =>
      Here zone (Fitting zone) memory trace := by
  have shown : ∀ key, slot.key = key → (stateOf memory.entries key).any State.told := by
    rintro key rfl
    rw [stateOf_found found]
    exact intent
  have fits : Fitting zone memory (trace ++ [Action.noticed slot]) :=
    ⟨here.fits.accepted, fun key => (here.fits.agrees key).noticing (shown key)⟩
  have upheld : Upheld zone (trace ++ [Action.noticed slot]) := by
    refine ⟨here.upheld.lawful.noticing untold, ?_⟩
    rw [durable_snoc]
    refine ⟨here.upheld.disk.accepted, fun key => (here.upheld.disk.agrees key).noticing ?_⟩
    rintro rfl
    rw [disk]
    exact intent
  have telling : Here zone (Telling zone slot) memory (trace ++ [Action.noticed slot]) := ⟨upheld, fits, entry, found, intent⟩
  have start : Here zone (Telling zone slot) memory trace := ⟨here.upheld, here.raised, entry, found, intent⟩
  refine Holds.bind (start.record upheld (Holds.bind (telling.ask fun answer => ?_)))
  refine Holds.bind (telling.outcome fun result _ => ?_)
  cases result.id with
  | none => exact telling.raise _
  | some id =>
    refine Holds.ite (fun _ => telling.raise _) fun _ => Holds.bind (telling.commentListing fun comments => ?_)
    refine Holds.ite (fun _ => ?_) fun _ => telling.raise _
    exact completeNotice_holds telling found (Here.complete ⟨upheld, fits⟩ found (State.told_ran intent))

theorem noticeUnknown_holds {code : String} {good : Unit → Memory → Trace → Prop}
    (telling : Here zone (Telling zone slot) memory trace) :
    Holds (Upheld zone) (Fitting zone) (do
        putState slot .noticeUnknown
        save
        raise code : Pass Unit) memory trace good := by
  obtain ⟨upheld, fits, entry, found, told⟩ := telling
  have here : Here zone (Fitting zone) memory trace := ⟨upheld, fits⟩
  have moved : Here zone (Fitting zone) (memory.put slot { entry with state := .noticeUnknown }) trace := by
    refine here.put (checkEntry_state (here.accepted found) fun _ => State.told_ran told) ?_
    have agrees := here.agrees (stateOf_found found)
    exact agrees.move (by rintro skipped; rw [skipped] at told; cases told) (fun _ => rfl) (fun _ => rfl)
  exact Holds.bind (here.putState found (Holds.bind (moved.save (moved.saved.raise _))))

theorem announce_holds (here : Here zone (Fitting zone) memory trace) {body : String} {attempted : Int}
    (found : memory.entries.get? slot.key = some entry) (intent : entry.state = .noticeIntent)
    (disk : stateOf (durable trace) slot.key = some .noticeIntent) (untold : ¬Noticed trace slot.key) :
    Holds (Upheld zone) (Fitting zone) (announce slot body attempted) memory trace fun _ memory trace =>
      Here zone (Fitting zone) memory trace := by
  have agrees := here.agrees (stateOf_found found)
  rw [intent] at agrees
  refine Holds.bind (here.mayWrite fun allowed => Holds.ite (fun _ => ?_) fun _ => ?_)
  · have post := @postNotice_holds zone memory trace slot entry here body attempted found
      (by rw [intent]; rfl) (by rw [disk, intent]) untold
    refine Holds.bind (Holds.attempt (post.mono ?_) fun code memory trace telling => noticeUnknown_holds telling)
    exact fun _ memory trace _ here => here.save here.saved
  · have confirmed : Here zone (Fitting zone) (memory.put slot { entry with state := .runConfirmed }) trace := by
      refine here.put (checkEntry_state (here.accepted found) fun _ => by rw [intent]; rfl) ?_
      exact ⟨fun _ => rfl, fun done => absurd done untold, fun done => nomatch agrees.shut done⟩
    exact Holds.bind (here.putState found (confirmed.save confirmed.saved))

theorem publishNotice_holds (here : Here zone (Fitting zone) memory trace)
    (found : memory.entries.get? slot.key = some entry) (pending : entry.state.pending)
    (known : entry.state ∉ [State.dispatchIntent, .dispatchUnknown]) :
    Holds (Upheld zone) (Fitting zone) (publishNotice slot) memory trace fun _ memory trace =>
      Here zone (Fitting zone) memory trace := by
  have ran := State.pending_ran pending known
  refine Holds.bind (here.entryOf fun held same => ?_)
  cases found.symm.trans same
  refine Holds.bind (here.require fun runId _ => Holds.bind (here.require fun attempted _ => ?_))
  refine Holds.bind (here.commentListing fun comments => ?_)
  split
  · -- a notice of this run is there already
    rename_i id _ _
    have complete := @Here.complete zone memory trace slot entry here id found ran
    exact Holds.bind (completeNotice_holds here found (complete.save complete.saved))
  · exact here.raise _
  · refine Holds.ite (fun _ => here.raise _) fun silent => ?_
    have confirmed := State.confirmed pending known silent
    have agrees := here.agrees (stateOf_found found)
    rw [confirmed] at agrees
    have untold : ¬Noticed trace slot.key := fun done => nomatch agrees.noticed done
    refine Holds.bind (here.mayWrite fun allowed => Holds.ite (fun _ => ?_) fun _ => here.pure here)
    have intent : Here zone (Fitting zone) (memory.put slot { entry with state := .noticeIntent }) trace := by
      refine here.put (checkEntry_state (here.accepted found) fun _ => ran) ?_
      exact agrees.move (by decide) (fun _ => rfl) (fun _ => rfl)
    refine Holds.bind (here.putState found (Holds.bind (intent.save ?_)))
    refine announce_holds intent.saved get?_put rfl ?_ ?_
    · rw [durable_snoc, stateOf_sorted, stateOf_found get?_put]
    · exact not_noticed_snoc untold fun _ same => nomatch same

end Notices

section Dispatches
variable {zone : Zone} {memory : Memory} {trace : Trace} {slot : Slot} {entry : Entry}

theorem confirmRun_holds (here : Here zone (Fitting zone) memory trace) {runs : List Run}
    {good : Bool → Memory → Trace → Prop} (found : memory.entries.get? slot.key = some entry)
    (waiting : entry.state ∈ [State.dispatchIntent, .dispatchUnknown]) (none : good false memory trace)
    (one : ∀ memory, Pending zone slot memory trace → good true memory trace) :
    Holds (Upheld zone) (Fitting zone) (confirmRun slot runs) memory trace good := by
  refine Holds.bind (here.entryOf fun held same => ?_)
  cases found.symm.trans same
  refine Holds.bind (here.require fun before known => Holds.bind (here.require fun attempted _ => ?_))
  split
  · exact here.pure none
  · rename_i run only
    have member : run ∈ runs.filter (matching slot entry.headSha before attempted) := by
      rw [only]
      exact List.mem_singleton_self run
    have later : before < run.id := by
      have matched := List.of_mem_filter member
      unfold matching at matched
      simp only [Bool.and_eq_true, decide_eq_true_eq] at matched
      exact matched.1.1.1.1
    have agrees := here.agrees (stateOf_found found)
    have confirmed : Here zone (Fitting zone)
        (memory.put slot { entry with state := .runConfirmed, runId := some run.id }) trace := by
      refine here.put (checkEntry_confirmed (here.accepted found) known later) ?_
      exact agrees.move (State.waiting_alive waiting) (fun _ => rfl) (State.waiting_untold waiting)
    exact Holds.bind (here.putEntry (confirmed.pure (one _ ⟨confirmed, _, get?_put, rfl⟩)))
  · exact here.raise _

theorem poll_holds (here : Here zone (Fitting zone) memory trace) (left : ℕ)
    (found : memory.entries.get? slot.key = some entry)
    (waiting : entry.state ∈ [State.dispatchIntent, .dispatchUnknown]) :
    Holds (Upheld zone) (Fitting zone) (poll slot left) memory trace fun _ memory trace => Pending zone slot memory trace := by
  induction left generalizing trace with
  | zero =>
    refine here.pure ⟨here, entry, found, ?_⟩
    cases state : entry.state <;> rw [state] at waiting <;> simp at waiting <;> rfl
  | succ left ih =>
    refine Holds.bind (here.currentTime fun now => ?_)
    have read : Here zone (Fitting zone) memory (trace ++ [Action.clock now]) := here.quiet rfl
    refine Holds.bind (read.runListing fun runs => ?_)
    have listed : Here zone (Fitting zone) memory (trace ++ [Action.clock now] ++ [Action.listed slot runs]) := read.quiet rfl
    refine Holds.bind (confirmRun_holds listed found waiting ?_ ?_)
    · exact Holds.ite (fun confirmed => nomatch confirmed) fun _ => ih listed
    · intro memory pending
      refine Holds.ite (fun _ => ?_) fun other => absurd rfl other
      exact pending.here.save ⟨pending.here.saved, pending.entry⟩

theorem FoundMissing.snoc {action : Action} (missing : FoundMissing zone trace slot) (same : action ≠ .began) :
    FoundMissing zone (trace ++ [action]) slot := by
  obtain ⟨before, runs, now, after, rfl, within, nothing⟩ := missing
  refine ⟨before, runs, now, after ++ [action], by simp, ?_, nothing⟩
  intro member
  rcases List.mem_append.mp member with earlier | last
  · exact within earlier
  · exact same (List.mem_singleton.mp last).symm

/-- What a slot leaves: a ledger that fits, and an open entry where it was dispatched. -/
def Tried (zone : Zone) (slot : Slot) (sent : Bool) (memory : Memory) (trace : Trace) : Prop :=
  Here zone (Fitting zone) memory trace ∧ (sent → Pending zone slot memory trace)

theorem Tried.unsent (here : Here zone (Fitting zone) memory trace) : Tried zone slot false memory trace :=
  ⟨here, fun sent => nomatch sent⟩

theorem Here.counted (here : Here zone (Fitting zone) memory trace) {other : Memory}
    (same : other.entries = memory.entries) : Here zone (Fitting zone) other trace := by
  refine ⟨here.upheld, ?_⟩
  unfold Fitting
  rw [same]
  exact here.fits

theorem unsent_holds (here : Here zone (Fitting zone) memory trace) {change : Memory → Memory}
    (same : (change memory).entries = memory.entries) :
    Holds (Upheld zone) (Fitting zone) (do
        Script.remember change
        pure false : Pass Bool) memory trace (Tried zone slot) :=
  Holds.bind (here.remember ((here.counted same).pure (Tried.unsent (here.counted same))))

theorem dispatched_here (here : Here zone (Fitting zone) memory trace) (found : memory.entries.get? slot.key = some entry)
    (intent : entry.state = .dispatchIntent) (unsent : ¬Posted trace slot.key) (ready : Ready zone trace slot) :
    Here zone (Fitting zone) memory (trace ++ [Action.dispatched slot]) := by
  refine ⟨⟨here.upheld.lawful.dispatched unsent ready, ?_⟩, ?_⟩
  · rw [durable_snoc]
    refine ⟨here.upheld.disk.accepted, fun key => (here.upheld.disk.agrees key).dispatched ?_⟩
    rintro rfl
    rw [ready.intent]
    rfl
  · refine ⟨here.fits.accepted, fun key => (here.fits.agrees key).dispatched ?_⟩
    rintro rfl
    rw [stateOf_found found, intent]
    rfl

def Waiting (zone : Zone) (slot : Slot) (memory : Memory) (trace : Trace) : Prop :=
  Here zone (Fitting zone) memory trace ∧ ∃ entry, memory.entries.get? slot.key = some entry ∧
    entry.state ∈ [State.dispatchIntent, .dispatchUnknown]

theorem postDispatch_holds (here : Here zone (Fitting zone) memory trace)
    (sent : Here zone (Fitting zone) memory (trace ++ [Action.dispatched slot]))
    (found : memory.entries.get? slot.key = some entry) (intent : entry.state = .dispatchIntent) :
    Holds (Upheld zone) (Waiting zone slot) (postDispatch slot) memory trace fun _ => Waiting zone slot := by
  have waiting : entry.state ∈ [State.dispatchIntent, .dispatchUnknown] := by simp [intent]
  have start : Here zone (Waiting zone slot) memory trace := ⟨here.upheld, here, entry, found, waiting⟩
  have asked : Here zone (Waiting zone slot) memory (trace ++ [Action.dispatched slot]) :=
    ⟨sent.upheld, sent, entry, found, waiting⟩
  refine Holds.bind (start.record sent.upheld (Holds.bind (asked.ask fun answer => ?_)))
  exact asked.outcome fun _ _ => ⟨sent, entry, found, waiting⟩

theorem dispatchUnknown_holds (waiting : Waiting zone slot memory trace) :
    Holds (Upheld zone) (Fitting zone) (do
        putState slot .dispatchUnknown
        save : Pass Unit) memory trace fun _ => Waiting zone slot := by
  obtain ⟨here, entry, found, waiting⟩ := waiting
  have agrees := here.agrees (stateOf_found found)
  have moved : Here zone (Fitting zone) (memory.put slot { entry with state := .dispatchUnknown }) trace := by
    refine here.put (checkEntry_state (here.accepted found) fun ran => nomatch ran) ?_
    exact agrees.move (State.waiting_alive waiting) (fun _ => rfl) (State.waiting_untold waiting)
  exact Holds.bind (here.putState found (moved.save ⟨moved.saved, _, get?_put, by simp⟩))

theorem send_holds (here : Here zone (Fitting zone) memory trace) (found : memory.entries.get? slot.key = some entry)
    (intent : entry.state = .dispatchIntent) (unsent : ¬Posted trace slot.key) (untold : ¬Noticed trace slot.key)
    (disk : stateOf (durable trace) slot.key = some .dispatchIntent) (missing : FoundMissing zone trace slot) :
    Holds (Upheld zone) (Fitting zone) (send slot) memory trace (Tried zone slot) := by
  have fresh : Agrees trace slot.key none := by
    refine ⟨fun done => absurd done unsent, fun done => absurd done untold, fun done => ?_⟩
    have skipped := (here.agrees (stateOf_found found)).shut done
    rw [intent] at skipped
    cases skipped
  refine Holds.bind (here.mayWrite fun allowed => Holds.ite (fun _ => ?_) fun _ => ?_)
  · refine Holds.bind (here.currentTime fun late => ?_)
    have read : Here zone (Fitting zone) memory (trace ++ [Action.clock late]) := here.quiet rfl
    refine Holds.ite (fun due => ?_) fun _ => ?_
    · have ready : Ready zone (trace ++ [Action.clock late]) slot := by
        refine ⟨?_, missing.snoc (fun same => nomatch same), late, ⟨trace, [], rfl, by simp⟩, due_iff.mp due⟩
        rw [durable_quiet rfl]
        exact disk
      have unsent' : ¬Posted (trace ++ [Action.clock late]) slot.key := not_posted_snoc unsent fun _ same => nomatch same
      have sent := dispatched_here read found intent unsent' ready
      refine Holds.bind ((Holds.attempt (postDispatch_holds read sent found intent) fun code memory trace asked =>
        dispatchUnknown_holds asked.raised).mono ?_)
      rintro _ memory trace _ ⟨here, entry, found, waiting⟩
      exact Holds.bind ((poll_holds here 12 found waiting).mono fun _ memory trace _ pending =>
        pending.here.pure ⟨pending.here, fun _ => pending⟩)
    · -- the slot aged out while its intent was written
      have skipped : Here zone (Fitting zone) (memory.put slot { entry with state := .skipped }) (trace ++ [Action.clock late]) :=
        read.put (checkEntry_state (read.accepted found) fun ran => nomatch ran) (fresh.quiet rfl).fresh
      refine Holds.bind (read.putState found (Holds.bind (skipped.save ?_)))
      exact unsent_holds skipped.saved rfl
  · have held : Here zone (Fitting zone) (memory.put slot { entry with state := .dispatchHeld }) trace :=
      here.put (checkEntry_state (here.accepted found) fun ran => nomatch ran) fresh.fresh
    refine Holds.bind (here.putState found (Holds.bind (held.save ?_)))
    exact unsent_holds held.saved rfl

theorem mainSha_holds (here : Here zone (Fitting zone) memory trace) {good : Option String → Memory → Trace → Prop}
    (after : ∀ sha, good sha memory trace) : Holds (Upheld zone) (Fitting zone) mainSha memory trace good :=
  Holds.bind (here.ask fun _ => here.outcome fun sha _ => after sha)

theorem accounted_holds (here : Here zone (Fitting zone) memory trace) {good : List Run × Bool → Memory → Trace → Prop}
    (after : ∀ trace runs found, Here zone (Fitting zone) memory trace → (found = false → FoundMissing zone trace slot) →
      good (runs, found) memory trace) :
    Holds (Upheld zone) (Fitting zone) (accounted zone slot) memory trace good := by
  refine Holds.bind (here.currentTime fun before => ?_)
  have read : Here zone (Fitting zone) memory (trace ++ [Action.clock before]) := here.quiet rfl
  refine Holds.bind (read.runListing fun runs => ?_)
  have listed : Here zone (Fitting zone) memory (trace ++ [Action.clock before] ++ [Action.listed slot runs]) := read.quiet rfl
  refine Holds.bind (listed.currentTime fun now => ?_)
  have final : Here zone (Fitting zone) memory
      (trace ++ [Action.clock before] ++ [Action.listed slot runs] ++ [Action.clock now]) := listed.quiet rfl
  refine Holds.bind (final.outcome fun found accounted => final.pure (after _ runs found final ?_))
  rintro rfl
  exact ⟨trace ++ [Action.clock before], runs, now, [], by simp, by simp, accounted⟩

theorem missed_holds {act : Bool} {runs : List Run} (here : Here zone (Fitting zone) memory trace)
    (valid : validateSlot zone slot.workflow (some slot.instant) = .ok slot)
    (fresh : stateOf memory.entries slot.key = none ∨ stateOf memory.entries slot.key = some .dispatchHeld) :
    Holds (Upheld zone) (Fitting zone) (missed zone act slot runs) memory trace (Tried zone slot) := by
  refine Holds.bind (here.ask fun answer => Holds.bind (here.outcome fun workflow _ => ?_))
  refine Holds.ite (fun _ => here.raise _) fun _ => Holds.bind (here.currentTime fun now => ?_)
  have read : Here zone (Fitting zone) memory (trace ++ [Action.clock now]) := here.quiet rfl
  refine Holds.bind (read.outcome fun found _ => Holds.ite (fun _ => unsent_holds read rfl) fun _ => ?_)
  refine Holds.ite (fun _ => unsent_holds read rfl) fun _ => Holds.bind (mainSha_holds read fun main => ?_)
  refine Holds.ite (fun _ => read.raise _) fun sha => Holds.bind (accounted_holds read ?_)
  intro trace runs found here missing
  refine Holds.ite (fun _ => unsent_holds here rfl) fun absent => Holds.bind (mainSha_holds here fun checked => ?_)
  refine Holds.ite (fun _ => here.raise _) fun _ => Holds.bind (here.currentTime fun live => ?_)
  have read : Here zone (Fitting zone) memory (trace ++ [Action.clock live]) := here.quiet rfl
  refine Holds.ite (fun _ => unsent_holds read rfl) fun _ => Holds.bind (read.mayWrite fun allowed => ?_)
  refine Holds.ite (fun _ => ?_) fun _ => unsent_holds read rfl
  have none : Agrees (trace ++ [Action.clock live]) slot.key none := by
    rcases fresh with absent | held
    · exact read.agrees absent
    · exact (read.agrees held).held
  have intent : Here zone (Fitting zone) (memory.put slot (intentOf slot live main runs)) (trace ++ [Action.clock live]) :=
    read.put (checkEntry_intent valid (by simpa using sha)) none.fresh
  refine Holds.bind (read.putEntry (Holds.bind (intent.save ?_)))
  refine send_holds intent.saved get?_put rfl ?_ ?_ ?_ ?_
  · exact not_posted_snoc (fun done => nomatch none.posted done) fun _ same => nomatch same
  · exact not_noticed_snoc (fun done => nomatch none.noticed done) fun _ same => nomatch same
  · rw [durable_snoc, stateOf_sorted, stateOf_found get?_put]
    rfl
  · have found : FoundMissing zone (trace ++ [Action.clock live]) slot :=
      (missing (by simpa using absent)).snoc fun same => nomatch same
    exact found.snoc fun same => nomatch same

end Dispatches

section Runs
variable {zone : Zone} {act : Bool} {memory : Memory} {trace : Trace} {slot : Slot} {entry : Entry}

theorem settle_holds (pending : Pending zone slot memory trace) :
    Holds (Upheld zone) (Fitting zone) (settle act slot) memory trace fun _ memory trace =>
      Here zone (Fitting zone) memory trace := by
  obtain ⟨here, entry, found, open'⟩ := pending
  refine Holds.bind (here.entryOf fun held same => ?_)
  cases found.symm.trans same
  refine Holds.ite (fun waiting => ?_) fun known => ?_
  · refine Holds.ite (fun _ => ?_) fun _ => here.raise _
    have moved : Here zone (Fitting zone) (memory.put slot { entry with state := .dispatchUnknown }) trace := by
      refine here.put (checkEntry_state (here.accepted found) fun ran => nomatch ran) ?_
      exact (here.agrees (stateOf_found found)).move (State.waiting_alive waiting) (fun _ => rfl)
        (State.waiting_untold waiting)
    exact Holds.bind (here.putState found (Holds.bind (moved.save (moved.saved.raise _))))
  · have counted := here.counted (show ({ memory with confirmed := memory.confirmed + 1 } : Memory).entries = _ from rfl)
    refine Holds.bind (here.remember ?_)
    refine Holds.ite (fun _ => ?_) fun _ => counted.pure counted
    exact publishNotice_holds counted found open' known

theorem attemptMissed_holds (here : Here zone (Fitting zone) memory trace)
    (valid : validateSlot zone slot.workflow (some slot.instant) = .ok slot)
    (fresh : stateOf memory.entries slot.key = none ∨ stateOf memory.entries slot.key = some .dispatchHeld) :
    Holds (Upheld zone) (Fitting zone) (attemptMissed zone act slot) memory trace fun _ memory trace =>
      Here zone (Fitting zone) memory trace := by
  refine Holds.bind (here.currentTime fun now => ?_)
  have read : Here zone (Fitting zone) memory (trace ++ [Action.clock now]) := here.quiet rfl
  refine Holds.bind (read.runListing fun runs => ?_)
  have listed : Here zone (Fitting zone) memory (trace ++ [Action.clock now] ++ [Action.listed slot runs]) := read.quiet rfl
  refine Holds.bind ((missed_holds listed valid fresh).mono fun sent memory trace _ tried => ?_)
  exact Holds.ite (fun sent => settle_holds (tried.2 sent)) fun _ => tried.1.pure tried.1

theorem resume_holds (here : Here zone (Fitting zone) memory trace) (found : memory.entries.get? slot.key = some entry)
    (open' : entry.state.pending) :
    Holds (Upheld zone) (Fitting zone) (resume act slot entry.state) memory trace fun _ memory trace =>
      Here zone (Fitting zone) memory trace := by
  refine Holds.bind (here.currentTime fun now => ?_)
  have read : Here zone (Fitting zone) memory (trace ++ [Action.clock now]) := here.quiet rfl
  refine Holds.bind (read.runListing fun runs => ?_)
  have listed : Here zone (Fitting zone) memory (trace ++ [Action.clock now] ++ [Action.listed slot runs]) := read.quiet rfl
  refine Holds.ite (fun waiting => ?_) fun _ => settle_holds ⟨listed, entry, found, open'⟩
  refine Holds.bind (confirmRun_holds listed found waiting ?_ fun memory pending => ?_)
  · exact settle_holds ⟨listed, entry, found, open'⟩
  · refine Holds.ite (fun _ => ?_) fun other => absurd rfl other
    refine Holds.ite (fun _ => ?_) fun _ => settle_holds pending
    exact Holds.bind (pending.here.save (settle_holds ⟨pending.here.saved, pending.entry⟩))

theorem recoverSlot_holds (here : Here zone (Fitting zone) memory trace)
    (valid : validateSlot zone slot.workflow (some slot.instant) = .ok slot) :
    Holds (Upheld zone) (Fitting zone) (recoverSlot zone act slot) memory trace fun _ memory trace =>
      Here zone (Fitting zone) memory trace := by
  refine Holds.bind (here.recalled ?_)
  cases found : memory.entries.get? slot.key with
  | none =>
    exact attemptMissed_holds here valid (.inl (by rw [stateOf, found, Option.map_none]))
  | some entry =>
    have counted : ∀ trace, Here zone (Fitting zone) memory trace →
        Holds (Upheld zone) (Fitting zone) countCovered memory trace fun _ memory trace =>
          Here zone (Fitting zone) memory trace := fun trace here =>
      here.remember (here.counted rfl)
    refine Holds.ite (fun _ => counted trace here) fun settled => Holds.ite (fun held => ?_) fun alive => ?_
    · refine Holds.bind (here.currentTime fun now => ?_)
      have read : Here zone (Fitting zone) memory (trace ++ [Action.clock now]) := here.quiet rfl
      refine Holds.ite (fun _ => ?_) fun _ => Holds.ite (fun _ => ?_) fun _ => counted _ read
      · exact attemptMissed_holds read valid (.inr (by rw [stateOf_found found, held]))
      · -- the slot was never sent, and may not be any more
        have fresh := read.agrees (stateOf_found found)
        rw [held] at fresh
        have skipped : Here zone (Fitting zone) (memory.put slot { entry with state := .skipped }) (trace ++ [Action.clock now]) :=
          read.put (checkEntry_state (read.accepted found) fun ran => by cases ran) fresh.held.fresh
        refine Holds.bind (read.putState found (Holds.bind (skipped.save ?_)))
        exact skipped.saved.remember (skipped.saved.counted rfl)
    · exact resume_holds here found (State.pending_of settled alive)

theorem candidates_valid {now : ℕ} {entries : Entries} {found : Dict String Slot}
    (ok : candidates zone now entries = .ok found) :
    ∀ key slot, found.get? key = some slot → validateSlot zone slot.workflow (some slot.instant) = .ok slot := by
  refine foldlM_keeps (fun found : Dict String Slot => ∀ key slot, found.get? key = some slot →
    validateSlot zone slot.workflow (some slot.instant) = .ok slot) ?_ ?_ ok
  · intro entry _ found next valid ok
    split at ok
    · obtain ⟨slot, named, ok⟩ := bind_ok ok
      cases ok
      obtain ⟨workflow, stamped⟩ := validateSlot_ok named
      intro key other found
      rw [Dict.get?_insert] at found
      split at found
      · cases found
        rwa [workflow, stamped]
      · exact valid key other found
    · cases ok
      exact valid
  · exact fun key slot => Dict.get?_foldl_insert Slot.key (fun _ _ none => by cases none) fun _ member =>
      slots_valid member

theorem recover_holds (here : Here zone (Fitting zone) memory trace) :
    Holds (Upheld zone) (Fitting zone) (recover zone act) memory trace fun _ memory trace =>
      Here zone (Fitting zone) memory trace := by
  refine Holds.bind (here.currentTime fun now => ?_)
  have read : Here zone (Fitting zone) memory (trace ++ [Action.clock now]) := here.quiet rfl
  refine Holds.bind (read.recalled (Holds.bind (read.outcome fun found ok => ?_)))
  have valid := candidates_valid ok
  refine Holds.foldlM (fun _ memory trace => Here zone (Fitting zone) memory trace) read.upheld read ?_
  intro _ candidate member memory trace _ here
  exact Holds.attempt (recoverSlot_holds here (valid _ _ (Dict.mem_entries.mp member))) fun code memory trace here =>
    here.remember (Here.counted here rfl)

/-- Before the ledger is open, there is nothing in memory that a raise could leave. -/
def Unread (_ : Memory) (_ : Trace) : Prop := True

theorem openLedger_holds (here : Here zone Unread memory trace) :
    Holds (Upheld zone) Unread (openLedger zone) memory trace fun _ memory trace => Here zone (Fitting zone) memory trace := by
  refine Holds.bind (here.ask fun answer => ?_)
  have began : Here zone Unread memory (trace ++ [Action.began]) := ⟨here.upheld.quiet rfl, trivial⟩
  refine Holds.bind (here.record began.upheld (Holds.ite (fun _ => began.raise _) fun _ => ?_))
  refine Holds.bind (began.look (Holds.bind (began.outcome fun _ _ => ?_)))
  exact began.remember ⟨began.upheld, began.upheld.disk⟩

theorem body_survives (zone : Zone) (act : Bool) (trace : Trace) (upheld : Upheld zone trace) :
    Program.Survives (Upheld zone) (body zone act) trace fun _ _ => True := by
  have here : Here zone Unread Memory.initial trace := ⟨upheld, trivial⟩
  have pass : Holds (Upheld zone) Unread (main zone act) Memory.initial trace fun _ _ _ => True := by
    refine Holds.bind (here.mayWrite fun allowed => Holds.ite (fun _ => ?_) fun _ => here.pure trivial)
    refine Holds.bind ((openLedger_holds here).mono fun _ memory trace _ here => ?_)
    exact ((recover_holds here).mono fun _ _ _ _ _ => trivial).raises fun _ _ _ => trivial
  exact Program.Survives.mono pass fun _ _ _ _ => trivial

end Runs

section Claims

/-- A ledger to start from, each of its entries accepted. -/
structure Start (zone : Zone) where
  entries : Entries
  accepted : ∀ key entry, entries.get? key = some entry → checkEntry zone key entry = .ok ()

/-- Passes over one ledger, one at a time, any of them killed between any two steps. -/
structure History (zone : Zone) where
  start : Start zone
  host : Host Trace Answer (Except String Unit × Memory)
  run : Host.Run (body zone) ⟨[.saved start.entries], none⟩ host

variable {zone : Zone}

theorem upheld_start (start : Start zone) : Upheld zone [.saved start.entries] := by
  have unposted : ∀ key, ¬Posted [.saved start.entries] key := by
    rintro key ⟨slot, _, member⟩
    cases List.mem_singleton.mp member
  have untold : ∀ key, ¬Noticed [.saved start.entries] key := by
    rintro key ⟨slot, _, member⟩
    cases List.mem_singleton.mp member
  refine ⟨⟨fun slot => ?_, fun slot => ?_, fun before slot after same => ?_⟩, start.accepted, fun key => ?_⟩
  · rw [List.count_singleton, if_neg (by simp)]
    exact Nat.zero_le 1
  · rw [List.count_singleton, if_neg (by simp)]
    exact Nat.zero_le 1
  · have member : Action.dispatched slot ∈ [Action.saved start.entries] := by
      rw [same]
      simp
    cases List.mem_singleton.mp member
  · refine ⟨fun done => absurd done (unposted key), fun done => absurd done (untold key), ?_⟩
    rintro ⟨entries, entry, member, found, skipped⟩
    cases List.mem_singleton.mp member
    show stateOf start.entries key = _
    rw [stateOf, found, Option.map_some, skipped]

theorem checkLedger_ok {entries : Entries} {trace : Trace} (fits : Fits zone entries trace) (small : entries.size ≤ 50000) :
    checkLedger zone entries = .ok () := by
  unfold checkLedger
  rw [if_neg (Nat.not_lt.mpr small)]
  exact forM_ok fun entry member => fits.accepted entry.1 entry.2 (Dict.mem_entries.mp member)

/-- What the record of all passes, and the ledger they leave, satisfy. -/
structure RecoveredOnce (zone : Zone) (trace : Trace) : Prop where
  lawful : Lawful zone trace
  silent : ∀ slot : Slot, Shut trace slot.key → .dispatched slot ∉ trace ∧ .noticed slot ∉ trace
  accepted : (durable trace).size ≤ 50000 → checkLedger zone (durable trace) = .ok ()
  valid : ∀ now : ℕ, ∀ slot ∈ slots zone now, validateSlot zone slot.workflow (some slot.instant) = .ok slot

end Claims

end C3po.Schedule
