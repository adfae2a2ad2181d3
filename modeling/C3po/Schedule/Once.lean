import Mathlib.Data.List.Count
import C3po.Library.Loops
import C3po.Schedule.Recovery

/-! A missed schedule is recovered by at most one dispatch, announced at most once.

The ledger of every pass, in memory and on disk, agrees with what was done: what was posted
shows as tried, what was announced as told, and what was skipped stays skipped.
-/

set_option autoImplicit false

namespace C3po.Schedule
open C3po.Library

/-- The states of a slot whose dispatch may have been sent. -/
def State.tried (state : State) : Bool :=
  state ∈ [State.dispatchIntent, .dispatchUnknown, .runConfirmed, .noticeIntent, .noticeUnknown, .complete]

/-- The states of a slot whose notice may have been sent. -/
def State.told (state : State) : Bool := state ∈ [State.noticeIntent, .noticeUnknown, .complete]

def Posted (trace : Trace) (key : String) : Prop := ∃ slot : Slot, slot.key = key ∧ .dispatched slot ∈ trace

def Noticed (trace : Trace) (key : String) : Prop := ∃ slot : Slot, slot.key = key ∧ .noticed slot ∈ trace

/-- A ledger was saved in which the slot is skipped. -/
def Shut (trace : Trace) (key : String) : Prop :=
  ∃ entries entry, .saved entries ∈ trace ∧ entries.get? key = some entry ∧ entry.state = .skipped

structure Agrees (trace : Trace) (key : String) (state : Option State) : Prop where
  posted : Posted trace key → state.any State.tried
  noticed : Noticed trace key → state.any State.told
  shut : Shut trace key → state = some .skipped

def stateOf (entries : Entries) (key : String) : Option State := (entries.get? key).map Entry.state

/-- A ledger that agrees with what was done, and that is accepted when it is opened. -/
structure Fits (zone : Zone) (entries : Entries) (trace : Trace) : Prop where
  accepted : ∀ key entry, entries.get? key = some entry → checkEntry zone key entry = .ok ()
  agrees : ∀ key, Agrees trace key (stateOf entries key)

def LastReading (trace : Trace) (now : Int) : Prop :=
  ∃ before after, trace = before ++ .clock now :: after ∧ ∀ later, .clock later ∉ after

/-- In the pass that runs, a complete listing accounted for nothing of the slot. -/
def FoundMissing (zone : Zone) (trace : Trace) (slot : Slot) : Prop :=
  ∃ before runs now after, trace = before ++ .listed slot runs :: .clock now :: after ∧
    .began ∉ after ∧ covered zone slot now runs = .ok false

/-- What has to be so when a dispatch is sent. -/
structure Ready (zone : Zone) (trace : Trace) (slot : Slot) : Prop where
  intent : stateOf (durable trace) slot.key = some .dispatchIntent
  missing : FoundMissing zone trace slot
  due : ∃ now, LastReading trace now ∧ minAge ≤ now - slot.instant ∧ now - slot.instant ≤ maxAge

/-- A record in which every post was due and sent once. -/
structure Lawful (zone : Zone) (trace : Trace) : Prop where
  dispatchedOnce : ∀ slot, trace.count (.dispatched slot) ≤ 1
  noticedOnce : ∀ slot, trace.count (.noticed slot) ≤ 1
  ready : ∀ before slot after, trace = before ++ .dispatched slot :: after → Ready zone before slot

/-- What holds between any two steps of any pass. -/
structure Upheld (zone : Zone) (trace : Trace) : Prop where
  lawful : Lawful zone trace
  disk : Fits zone (durable trace) trace

section Traces
variable {zone : Zone} {trace : Trace} {key : String} {entries : Entries} {slot : Slot} {action : Action}

/-- An action that neither posts nor saves. -/
def Action.quiet : Action → Bool
  | .began | .clock _ | .listed _ _ => true
  | _ => false

theorem durable_snoc : durable (trace ++ [action]) =
    match action with
    | .saved entries => entries
    | _ => durable trace := by
  unfold durable
  rw [List.foldl_append]
  cases action <;> rfl

theorem durable_quiet (quiet : action.quiet) : durable (trace ++ [action]) = durable trace := by
  rw [durable_snoc]
  cases action <;> first | rfl | cases quiet

theorem posted_snoc : Posted (trace ++ [action]) key ↔
    Posted trace key ∨ ∃ slot : Slot, slot.key = key ∧ action = .dispatched slot := by
  unfold Posted
  constructor
  · rintro ⟨slot, own, member⟩
    rcases List.mem_append.mp member with earlier | last
    · exact .inl ⟨slot, own, earlier⟩
    · exact .inr ⟨slot, own, (List.mem_singleton.mp last).symm⟩
  · rintro (⟨slot, own, earlier⟩ | ⟨slot, own, rfl⟩)
    · exact ⟨slot, own, List.mem_append_left _ earlier⟩
    · exact ⟨slot, own, by simp⟩

theorem noticed_snoc : Noticed (trace ++ [action]) key ↔
    Noticed trace key ∨ ∃ slot : Slot, slot.key = key ∧ action = .noticed slot := by
  unfold Noticed
  constructor
  · rintro ⟨slot, own, member⟩
    rcases List.mem_append.mp member with earlier | last
    · exact .inl ⟨slot, own, earlier⟩
    · exact .inr ⟨slot, own, (List.mem_singleton.mp last).symm⟩
  · rintro (⟨slot, own, earlier⟩ | ⟨slot, own, rfl⟩)
    · exact ⟨slot, own, List.mem_append_left _ earlier⟩
    · exact ⟨slot, own, by simp⟩

theorem not_posted_snoc (unsent : ¬Posted trace key) (other : ∀ slot, action ≠ .dispatched slot) :
    ¬Posted (trace ++ [action]) key := by
  rw [posted_snoc]
  rintro (done | ⟨slot, _, same⟩)
  · exact unsent done
  · exact other slot same

theorem not_noticed_snoc (untold : ¬Noticed trace key) (other : ∀ slot, action ≠ .noticed slot) :
    ¬Noticed (trace ++ [action]) key := by
  rw [noticed_snoc]
  rintro (done | ⟨slot, _, same⟩)
  · exact untold done
  · exact other slot same

theorem shut_snoc : Shut (trace ++ [action]) key ↔
    Shut trace key ∨ ∃ entries, action = .saved entries ∧ stateOf entries key = some .skipped := by
  unfold Shut stateOf
  constructor
  · rintro ⟨entries, entry, member, found, skipped⟩
    rcases List.mem_append.mp member with earlier | last
    · exact .inl ⟨entries, entry, earlier, found, skipped⟩
    · exact .inr ⟨entries, (List.mem_singleton.mp last).symm, by rw [found, Option.map_some, skipped]⟩
  · rintro (⟨entries, entry, earlier, found, skipped⟩ | ⟨entries, rfl, skipped⟩)
    · exact ⟨entries, entry, List.mem_append_left _ earlier, found, skipped⟩
    · obtain ⟨entry, found, state⟩ := Option.map_eq_some_iff.mp skipped
      exact ⟨entries, entry, by simp, found, state⟩

end Traces

section Agreement
variable {zone : Zone} {trace : Trace} {key : String} {entries : Entries} {slot : Slot} {action : Action}
  {old new : State} {state : Option State}

theorem Agrees.fresh (fresh : Agrees trace key none) : Agrees trace key state where
  posted done := absurd (fresh.posted done) (by simp)
  noticed done := absurd (fresh.noticed done) (by simp)
  shut done := nomatch fresh.shut done

theorem Agrees.held (agrees : Agrees trace key (some .dispatchHeld)) : Agrees trace key none where
  posted done := absurd (agrees.posted done) (by decide)
  noticed done := absurd (agrees.noticed done) (by decide)
  shut done := nomatch agrees.shut done

theorem Agrees.move (agrees : Agrees trace key (some old)) (alive : old ≠ .skipped)
    (tried : old.tried → new.tried) (told : old.told → new.told) : Agrees trace key (some new) where
  posted done := tried (agrees.posted done)
  noticed done := told (agrees.noticed done)
  shut done := absurd (Option.some.inj (agrees.shut done)) alive

theorem Agrees.quiet (agrees : Agrees trace key state) (quiet : action.quiet) :
    Agrees (trace ++ [action]) key state where
  posted done := by
    rcases posted_snoc.mp done with earlier | ⟨slot, _, rfl⟩
    · exact agrees.posted earlier
    · cases quiet
  noticed done := by
    rcases noticed_snoc.mp done with earlier | ⟨slot, _, rfl⟩
    · exact agrees.noticed earlier
    · cases quiet
  shut done := by
    rcases shut_snoc.mp done with earlier | ⟨entries, rfl, _⟩
    · exact agrees.shut earlier
    · cases quiet

theorem Agrees.saved (agrees : Agrees trace key (stateOf entries key)) :
    Agrees (trace ++ [.saved entries]) key (stateOf entries key) where
  posted done := by
    rcases posted_snoc.mp done with earlier | ⟨slot, _, same⟩
    · exact agrees.posted earlier
    · cases same
  noticed done := by
    rcases noticed_snoc.mp done with earlier | ⟨slot, _, same⟩
    · exact agrees.noticed earlier
    · cases same
  shut done := by
    rcases shut_snoc.mp done with earlier | ⟨entries, same, skipped⟩
    · exact agrees.shut earlier
    · cases same
      exact skipped

theorem Agrees.dispatched (agrees : Agrees trace key state) (shown : slot.key = key → state.any State.tried) :
    Agrees (trace ++ [.dispatched slot]) key state where
  posted done := by
    rcases posted_snoc.mp done with earlier | ⟨other, own, same⟩
    · exact agrees.posted earlier
    · cases same
      exact shown own
  noticed done := by
    rcases noticed_snoc.mp done with earlier | ⟨other, _, same⟩
    · exact agrees.noticed earlier
    · cases same
  shut done := by
    rcases shut_snoc.mp done with earlier | ⟨entries, same, _⟩
    · exact agrees.shut earlier
    · cases same

theorem Agrees.noticing (agrees : Agrees trace key state) (shown : slot.key = key → state.any State.told) :
    Agrees (trace ++ [.noticed slot]) key state where
  posted done := by
    rcases posted_snoc.mp done with earlier | ⟨other, _, same⟩
    · exact agrees.posted earlier
    · cases same
  noticed done := by
    rcases noticed_snoc.mp done with earlier | ⟨other, own, same⟩
    · exact agrees.noticed earlier
    · cases same
      exact shown own
  shut done := by
    rcases shut_snoc.mp done with earlier | ⟨entries, same, _⟩
    · exact agrees.shut earlier
    · cases same

theorem stateOf_sorted : stateOf (entries.sorted inOrder) key = stateOf entries key := by
  unfold stateOf
  rw [Dict.get?_sorted]

theorem stateOf_insert {entry : Entry} (other : String) : stateOf (entries.insert key entry) other =
    if other = key then some entry.state else stateOf entries other := by
  unfold stateOf
  rw [Dict.get?_insert]
  split <;> rfl

theorem Fits.quiet (fits : Fits zone entries trace) (quiet : action.quiet) : Fits zone entries (trace ++ [action]) where
  accepted := fits.accepted
  agrees key := (fits.agrees key).quiet quiet

theorem Fits.saved (fits : Fits zone entries trace) :
    Fits zone entries (trace ++ [.saved (entries.sorted inOrder)]) where
  accepted := fits.accepted
  agrees key := by
    have agrees := fits.agrees key
    rw [← @stateOf_sorted key entries] at agrees ⊢
    exact agrees.saved

theorem Fits.sorted (fits : Fits zone entries trace) : Fits zone (entries.sorted inOrder) trace where
  accepted key entry found := fits.accepted key entry (by rwa [Dict.get?_sorted] at found)
  agrees key := by
    rw [stateOf_sorted]
    exact fits.agrees key

theorem Fits.put {entry : Entry} (fits : Fits zone entries trace) (accepted : checkEntry zone key entry = .ok ())
    (agrees : Agrees trace key (some entry.state)) : Fits zone (entries.insert key entry) trace where
  accepted other held found := by
    rw [Dict.get?_insert] at found
    split at found
    · rename_i same
      cases same
      cases found
      exact accepted
    · exact fits.accepted other held found
  agrees other := by
    rw [stateOf_insert]
    split
    · rename_i same
      cases same
      exact agrees
    · exact fits.agrees other

end Agreement

section Kept
variable {zone : Zone} {trace : Trace} {entries : Entries} {slot : Slot} {action : Action}

theorem Lawful.snoc (lawful : Lawful zone trace) (sends : ∀ slot, action ≠ .dispatched slot)
    (tells : ∀ slot, action ≠ .noticed slot) : Lawful zone (trace ++ [action]) where
  dispatchedOnce slot := by
    have other : [action].count (.dispatched slot) = 0 := List.count_singleton.trans (by simp [sends slot])
    rw [List.count_append, other]
    exact lawful.dispatchedOnce slot
  noticedOnce slot := by
    have other : [action].count (.noticed slot) = 0 := List.count_singleton.trans (by simp [tells slot])
    rw [List.count_append, other]
    exact lawful.noticedOnce slot
  ready before slot after same := by
    rcases snoc_split same with ⟨_, last, _⟩ | ⟨rest, earlier, _⟩
    · exact absurd last (sends slot)
    · exact lawful.ready before slot rest earlier

theorem Lawful.dispatched (lawful : Lawful zone trace) (unsent : ¬Posted trace slot.key)
    (ready : Ready zone trace slot) : Lawful zone (trace ++ [.dispatched slot]) where
  dispatchedOnce other := by
    rw [List.count_append, List.count_singleton]
    split
    · rename_i same
      have same : slot = other := by simpa using same
      subst same
      have none : trace.count (.dispatched slot) = 0 := List.count_eq_zero.mpr fun member => unsent ⟨slot, rfl, member⟩
      rw [none]
    · exact lawful.dispatchedOnce other
  noticedOnce other := by
    rw [List.count_append]
    exact lawful.noticedOnce other
  ready before other after same := by
    rcases snoc_split same with ⟨rfl, last, _⟩ | ⟨rest, earlier, _⟩
    · cases last
      exact ready
    · exact lawful.ready before other rest earlier

theorem Lawful.noticing (lawful : Lawful zone trace) (untold : ¬Noticed trace slot.key) :
    Lawful zone (trace ++ [.noticed slot]) where
  dispatchedOnce other := by
    rw [List.count_append]
    exact lawful.dispatchedOnce other
  noticedOnce other := by
    rw [List.count_append, List.count_singleton]
    split
    · rename_i same
      have same : slot = other := by simpa using same
      subst same
      have none : trace.count (.noticed slot) = 0 := List.count_eq_zero.mpr fun member => untold ⟨slot, rfl, member⟩
      rw [none]
    · exact lawful.noticedOnce other
  ready before other after same := by
    rcases snoc_split same with ⟨_, last, _⟩ | ⟨rest, earlier, _⟩
    · cases last
    · exact lawful.ready before other rest earlier

theorem Upheld.quiet (upheld : Upheld zone trace) (quiet : action.quiet) : Upheld zone (trace ++ [action]) where
  lawful := upheld.lawful.snoc (by rintro slot rfl; cases quiet) (by rintro slot rfl; cases quiet)
  disk := by
    rw [durable_quiet quiet]
    exact upheld.disk.quiet quiet

theorem Upheld.saved (upheld : Upheld zone trace) (fits : Fits zone entries trace) :
    Upheld zone (trace ++ [.saved (entries.sorted inOrder)]) where
  lawful := upheld.lawful.snoc (fun _ same => nomatch same) (fun _ same => nomatch same)
  disk := by
    rw [durable_snoc]
    exact fits.saved.sorted

end Kept

/-! Every pass keeps the record lawful, wherever it is killed. -/

open Script (Holds)

/-- Where a pass is between two steps, and may raise. -/
abbrev Here (zone : Zone) (bad : Memory → Trace → Prop) (memory : Memory) (trace : Trace) : Prop :=
  Script.Here (Upheld zone) bad memory trace

def Fitting (zone : Zone) (memory : Memory) (trace : Trace) : Prop := Fits zone memory.entries trace

section Rules
variable {zone : Zone} {bad : Memory → Trace → Prop} {memory : Memory} {trace : Trace} {slot : Slot} {A : Type}

namespace Here

section Still
variable (here : Here zone bad memory trace)
include here

theorem record {good : Unit → Memory → Trace → Prop} {action : Action} (kept : Upheld zone (trace ++ [action]))
    (after : good () memory (trace ++ [action])) : Holds (Upheld zone) bad (C3po.Schedule.record action) memory trace good :=
  here.step kept after

theorem mayWrite {good : Bool → Memory → Trace → Prop} (after : ∀ allowed, good allowed memory trace) :
    Holds (Upheld zone) bad C3po.Schedule.mayWrite memory trace good :=
  Holds.bind (here.ask fun answer => here.pure (after answer.allowed))

theorem require {good : A → Memory → Trace → Prop} {field : Option A}
    (after : ∀ value, field = some value → good value memory trace) :
    Holds (Upheld zone) bad (C3po.Schedule.require field) memory trace good := by
  unfold C3po.Schedule.require
  cases field with
  | none => exact here.raise _
  | some value => exact here.pure (after value rfl)

theorem entryOf {good : Entry → Memory → Trace → Prop}
    (after : ∀ entry, memory.entries.get? slot.key = some entry → good entry memory trace) :
    Holds (Upheld zone) bad (C3po.Schedule.entryOf slot) memory trace good :=
  Holds.bind (here.recalled (here.require after))

theorem pagesFrom {R : Type} {get : Answer → Except String (Page R)} {resource : String} {counted : Bool}
    {good : List R → Memory → Trace → Prop} (after : ∀ rows, good rows memory trace) (left : ℕ) (path : String)
    (seen : List String) (rows : List R) (expected : Option Int) :
    Holds (Upheld zone) bad (C3po.Schedule.pagesFrom get resource counted left path seen rows expected) memory trace good := by
  induction left generalizing path seen rows expected with
  | zero => exact here.raise _
  | succ left ih =>
    unfold C3po.Schedule.pagesFrom
    refine Holds.ite (fun _ => here.raise _) fun _ => ?_
    refine Holds.bind (here.ask fun answer => Holds.bind (here.outcome fun page _ => ?_))
    refine Holds.bind (here.outcome fun expected _ => ?_)
    cases page.rows with
    | none => exact here.raise _
    | some chunk =>
      refine Holds.bind (here.outcome fun next _ => ?_)
      cases next with
      | none => exact here.pure (after _)
      | some next => exact ih next _ _ _

theorem pages {R : Type} {get : Answer → Except String (Page R)} {resource query : String} {counted : Bool}
    {good : List R → Memory → Trace → Prop} (after : ∀ rows, good rows memory trace) :
    Holds (Upheld zone) bad (C3po.Schedule.pages get resource query counted) memory trace good :=
  here.pagesFrom after ..

theorem commentListing {attempted : Int} {good : List Comment → Memory → Trace → Prop}
    (after : ∀ comments, good comments memory trace) :
    Holds (Upheld zone) bad (C3po.Schedule.commentListing attempted) memory trace good := here.pages after

end Still

section Steps
variable (here : Here zone (Fitting zone) memory trace)
include here

theorem fits : Fits zone memory.entries trace := here.raised

theorem quiet {action : Action} (quiet : action.quiet) : Here zone (Fitting zone) memory (trace ++ [action]) :=
  ⟨here.upheld.quiet quiet, here.fits.quiet quiet⟩

theorem saved : Here zone (Fitting zone) memory (trace ++ [.saved (memory.entries.sorted inOrder)]) :=
  ⟨here.upheld.saved here.fits, here.fits.saved⟩

theorem currentTime {good : Int → Memory → Trace → Prop}
    (after : ∀ now : ℕ, good now memory (trace ++ [.clock now])) :
    Holds (Upheld zone) (Fitting zone) C3po.Schedule.currentTime memory trace good := by
  refine Holds.bind (here.ask fun answer => ?_)
  have later : Here zone (Fitting zone) memory (trace ++ [.clock answer.now]) := here.quiet rfl
  exact Holds.bind (here.record later.upheld (later.pure (after answer.now)))

theorem save {good : Unit → Memory → Trace → Prop}
    (after : good () memory (trace ++ [.saved (memory.entries.sorted inOrder)])) :
    Holds (Upheld zone) (Fitting zone) C3po.Schedule.save memory trace good := by
  exact Holds.bind (here.recalled (here.replace here.saved after))

theorem runListing {now : Int} {good : List Run → Memory → Trace → Prop}
    (after : ∀ runs, good runs memory (trace ++ [.listed slot runs])) :
    Holds (Upheld zone) (Fitting zone) (C3po.Schedule.runListing slot now) memory trace good := by
  refine Holds.bind (here.pages fun rows => Holds.bind (here.outcome fun runs _ => ?_))
  have later : Here zone (Fitting zone) memory (trace ++ [.listed slot runs]) := here.quiet rfl
  exact Holds.bind (here.record later.upheld (later.pure (after runs)))

end Steps
end Here
end Rules

section Entries
variable {zone : Zone} {key : String} {entry : Entry} {slot : Slot}

theorem checkEntry_iff : checkEntry zone key entry = .ok () ↔
    entry.workflow ∈ retiredWorkflows ∨
      (∃ slot, validateSlot zone entry.workflow entry.slot = .ok slot ∧ key = slot.key) ∧ isSha entry.headSha ∧
        entry.attemptedAt ≠ none ∧ ∃ before, entry.beforeId = some before ∧ 0 ≤ before ∧
          (entry.state.ran → entry.runId.any (before < ·)) := by
  unfold checkEntry
  by_cases retired : entry.workflow ∈ retiredWorkflows
  · simp [retired]
  · rw [if_neg retired]
    simp only [retired, false_or]
    cases valid : validateSlot zone entry.workflow entry.slot with
    | error code => simp [bind, Except.bind]
    | ok slot =>
      cases before : entry.beforeId with
      | none =>
        simp only [bind, Except.bind]
        split_ifs <;> simp
      | some before =>
        simp only [bind, Except.bind]
        split_ifs <;> grind

theorem checkEntry_state {state : State} (accepted : checkEntry zone key entry = .ok ())
    (ran : state.ran → entry.state.ran) : checkEntry zone key { entry with state := state } = .ok () := by
  rw [checkEntry_iff] at accepted ⊢
  rcases accepted with retired | ⟨named, sha, sure, before, known, positive, run⟩
  · exact .inl retired
  · exact .inr ⟨named, sha, sure, before, known, positive, fun now => run (ran now)⟩

theorem checkEntry_confirmed {before id : Int} (accepted : checkEntry zone key entry = .ok ())
    (known : entry.beforeId = some before) (later : before < id) :
    checkEntry zone key { entry with state := .runConfirmed, runId := some id } = .ok () := by
  rw [checkEntry_iff] at accepted ⊢
  rcases accepted with retired | ⟨named, sha, sure, held, same, positive, _⟩
  · exact .inl retired
  · cases known.symm.trans same
    exact .inr ⟨named, sha, sure, before, known, positive, fun _ => by simpa using later⟩

theorem checkEntry_complete {comment : Int} (accepted : checkEntry zone key entry = .ok ()) (ran : entry.state.ran) :
    checkEntry zone key { entry with state := .complete, commentId := some comment } = .ok () := by
  rw [checkEntry_iff] at accepted ⊢
  rcases accepted with retired | ⟨named, sha, sure, before, known, positive, run⟩
  · exact .inl retired
  · exact .inr ⟨named, sha, sure, before, known, positive, fun _ => run ran⟩

theorem foldl_max_nonneg (ids : List Int) : 0 ≤ ids.foldl max 0 := by
  have grows : ∀ start : Int, start ≤ ids.foldl max start := by
    induction ids with
    | nil => exact fun start => le_refl start
    | cons id rest ih => exact fun start => le_trans (le_max_left start id) (ih (max start id))
  exact grows 0

theorem checkEntry_intent {live : Int} {main : Option String} {runs : List Run}
    (valid : validateSlot zone slot.workflow (some slot.instant) = .ok slot) (sha : isSha main) :
    checkEntry zone slot.key (intentOf slot live main runs) = .ok () := by
  unfold intentOf
  rw [checkEntry_iff]
  exact .inr ⟨⟨slot, valid, rfl⟩, sha, by simp, _, rfl, foldl_max_nonneg _, fun ran => nomatch ran⟩

end Entries

section Moves
variable {zone : Zone} {bad : Memory → Trace → Prop} {memory : Memory} {trace : Trace} {slot : Slot} {entry : Entry}

def Memory.put (memory : Memory) (slot : Slot) (entry : Entry) : Memory :=
  { memory with entries := memory.entries.insert slot.key entry }

@[simp] theorem get?_put : (memory.put slot entry).entries.get? slot.key = some entry := by
  simp [Memory.put]

namespace Here

theorem put (here : Here zone (Fitting zone) memory trace) (accepted : checkEntry zone slot.key entry = .ok ())
    (agrees : Agrees trace slot.key (some entry.state)) : Here zone (Fitting zone) (memory.put slot entry) trace :=
  ⟨here.upheld, here.fits.put accepted agrees⟩

theorem accepted (here : Here zone (Fitting zone) memory trace) (found : memory.entries.get? slot.key = some entry) :
    checkEntry zone slot.key entry = .ok () := here.fits.accepted _ _ found

theorem agrees (here : Here zone (Fitting zone) memory trace) {state : Option State}
    (found : stateOf memory.entries slot.key = state) : Agrees trace slot.key state := by
  rw [← found]
  exact here.fits.agrees slot.key

theorem putEntry (here : Here zone bad memory trace) {good : Unit → Memory → Trace → Prop}
    (after : good () (memory.put slot entry) trace) :
    Holds (Upheld zone) bad (C3po.Schedule.putEntry slot entry) memory trace good := here.remember after

theorem putState (here : Here zone bad memory trace) {state : State} {good : Unit → Memory → Trace → Prop}
    (found : memory.entries.get? slot.key = some entry)
    (after : good () (memory.put slot { entry with state := state }) trace) :
    Holds (Upheld zone) bad (C3po.Schedule.putState slot state) memory trace good := by
  refine Holds.bind (here.entryOf fun held same => ?_)
  cases found.symm.trans same
  exact here.putEntry after

end Here

theorem stateOf_found (found : memory.entries.get? slot.key = some entry) :
    stateOf memory.entries slot.key = some entry.state := by
  rw [stateOf, found, Option.map_some]

end Moves

end C3po.Schedule
