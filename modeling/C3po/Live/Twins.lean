import C3po.Live.Runs

/-! Two engines that differ only in what they forgot.

A restart forgets when the exits last marked each name, and rebuilds the members. A
mark is read once: by the exits of a step, which leave alone a name marked since
their wait on Massive began. `Twin` compares both engines with what each had when
that wait began, and its step lemmas show that a forgotten mark is never the one a
decision turns on.
-/

set_option autoImplicit false

namespace C3po.Live
open C3po.Library

/-- One session's marks, and what another engine of the session still has of them. -/
def Recalls (restart : Int) (kept resumed : Dict String Int) : Prop :=
  ∀ symbol, resumed.get? symbol = kept.get? symbol ∨
    resumed.get? symbol = none ∧ ∃ moment ≤ restart, kept.get? symbol = some moment

/-- Every instant of an act of the session comes after the restart. -/
def Pass.After (restart : Int) (pass : Pass) : Prop := restart < pass.now

def Wait.After (restart : Int) (wait : Wait) : Prop := ∀ pass ∈ wait.passes, pass.After restart

structure StepInput.After (restart : Int) (input : StepInput) : Prop where
  now : restart < input.now
  exits : ∀ wait, input.exits = some wait → wait.After restart
  entries : ∀ wait, input.entries = some wait → wait.After restart

namespace Engine
variable {zone : Zone} {restart : Int}

/-- The candidates an engine trades, read when the entries of an instant are open. -/
def SameMembers (zone : Zone) (restart : Int) (kept resumed : Engine) : Prop :=
  (∃ moment, restart < moment ∧ zone.time moment ≤ kept.lastEntryNow) →
    ∀ symbol, kept.state.candidates.contains symbol →
      resumed.members.get? symbol = kept.members.get? symbol

/-- Two engines in the same state, of the same session. -/
structure Paired (zone : Zone) (restart : Int) (kept resumed : Engine) : Prop where
  state : resumed.state = kept.state
  day : resumed.day = kept.day
  lastEntry : resumed.lastEntry = kept.lastEntry
  members : SameMembers zone restart kept resumed

/-- A name's marks in both: as they were, or made since by both. -/
def Remarked (restart : Int) (first second : Dict String Int) (kept resumed : Engine) (symbol : String) : Prop :=
  (kept.markedMoment.get? symbol = first.get? symbol ∧
      resumed.markedMoment.get? symbol = second.get? symbol) ∨
    (resumed.markedMoment.get? symbol = kept.markedMoment.get? symbol ∧
      (kept.state.positions.contains symbol →
        ∃ moment, restart < moment ∧ kept.markedMoment.get? symbol = some moment))

/-- Paired engines since their marks were `first` and `second`. -/
structure Twin (zone : Zone) (restart : Int) (first second : Dict String Int) (kept resumed : Engine) :
    Prop extends Paired zone restart kept resumed where
  marks : ∀ symbol, Remarked restart first second kept resumed symbol

section Exits
variable {first second : Dict String Int} {kept resumed : Engine}

theorem Paired.twin (paired : Paired zone restart kept resumed) :
    Twin zone restart kept.markedMoment resumed.markedMoment kept resumed :=
  ⟨paired, fun _ => .inl ⟨rfl, rfl⟩⟩

theorem Twin.recalls (twin : Twin zone restart first second kept resumed)
    (recalled : Recalls restart first second) : Recalls restart kept.markedMoment resumed.markedMoment := by
  intro symbol
  rcases twin.marks symbol with ⟨before, after⟩ | ⟨same, _⟩
  · rw [before, after]
    exact recalled symbol
  · exact .inl same

theorem Twin.mark (twin : Twin zone restart first second kept resumed) (position : Position)
    {moment : Int} (later : restart < moment) :
    Twin zone restart first second (kept.mark position moment) (resumed.mark position moment) := by
  refine ⟨⟨?_, twin.day, twin.lastEntry, twin.members⟩, fun symbol => ?_⟩
  · simp only [Engine.mark, twin.state]
  · unfold Remarked Dict.contains
    simp only [Engine.mark, Dict.get?_insert]
    by_cases here : symbol = position.symbol
    · simp only [here, if_true]
      exact .inr ⟨trivial, fun _ => ⟨moment, later, rfl⟩⟩
    · simp only [here, if_false]
      exact twin.marks symbol

theorem Twin.sell (twin : Twin zone restart first second kept resumed) (position : Position)
    (bid net : ℚ) (reason : ExitReason) (moment : Int) :
    Twin zone restart first second (kept.sell position bid net reason moment)
      (resumed.sell position bid net reason moment) := by
  refine ⟨⟨?_, twin.day, twin.lastEntry, twin.members⟩, fun symbol => ?_⟩
  · simp only [Engine.sell, twin.state]
  · unfold Remarked Dict.contains
    simp only [Engine.sell, Dict.get?_erase]
    by_cases here : symbol = position.symbol
    · simp [here]
    · simp only [here, if_false]
      exact twin.marks symbol

theorem Twin.exit (twin : Twin zone restart first second kept resumed) (position : Position)
    (market : MarketView) {moment : Int} (later : restart < moment) (bid : ℚ) (source : ExitSource) :
    Twin zone restart first second (kept.exit zone position market moment bid source)
      (resumed.exit zone position market moment bid source) := by
  have marked := twin.mark (position.marked bid) later
  unfold Engine.exit
  simp only [marked.state]
  split
  · exact marked
  · exact marked.sell ..

theorem Twin.afterClose (twin : Twin zone restart first second kept resumed) (moment : Int) :
    resumed.afterClose zone moment = kept.afterClose zone moment := by
  unfold Engine.afterClose
  rw [twin.day]

theorem read_later {now : Int} (later : restart < now) (elapsed : ℕ) : restart < now + elapsed := by omega

theorem Twin.passOver {now : Int} (later : restart < now) (read : String → Reading) (symbols : List String)
    {kept resumed : Engine} (twin : Twin zone restart first second kept resumed) :
    Twin zone restart first second (passOver zone now read symbols kept)
      (Engine.passOver zone now read symbols resumed) := by
  induction symbols generalizing kept resumed with
  | nil => exact twin
  | cons symbol rest ih =>
    unfold Engine.passOver
    simp only [twin.state, twin.afterClose]
    split
    · exact ih twin
    · split
      · exact twin
      · split
        · exact ih twin
        · exact ih (twin.exit _ _ (read_later later _) ..)

theorem Twin.fastExits (twin : Twin zone restart first second kept resumed) {pass : Pass}
    (later : pass.After restart) :
    Twin zone restart first second (kept.fastExits zone pass) (resumed.fastExits zone pass) := by
  unfold Engine.fastExits
  rw [twin.state]
  exact Twin.passOver later pass.read _ twin

theorem Twin.fastPasses (passes : List Pass) (later : ∀ pass ∈ passes, pass.After restart)
    {kept resumed : Engine} (twin : Twin zone restart first second kept resumed) :
    Twin zone restart first second (kept.fastPasses zone passes) (resumed.fastPasses zone passes) := by
  induction passes generalizing kept resumed with
  | nil => exact twin
  | cons pass rest ih =>
    exact ih (fun other member => later other (List.mem_cons_of_mem _ member))
      (twin.fastExits (later pass List.mem_cons_self))

theorem Twin.pushedExits {now : Int} (later : restart < now) (read : String → Reading)
    (symbols pending : List String) {kept resumed : Engine}
    (twin : Twin zone restart first second kept resumed) :
    Twin zone restart first second (pushedExits zone now read symbols kept pending).1
        (Engine.pushedExits zone now read symbols resumed pending).1 ∧
      (Engine.pushedExits zone now read symbols resumed pending).2 =
        (Engine.pushedExits zone now read symbols kept pending).2 := by
  induction symbols generalizing kept resumed pending with
  | nil => exact ⟨twin, rfl⟩
  | cons symbol rest ih =>
    unfold Engine.pushedExits
    simp only [twin.state, twin.afterClose]
    split
    · exact ih pending twin
    · split
      · exact ⟨twin, rfl⟩
      · split
        · exact ih _ twin
        · exact ih pending (twin.exit _ _ (read_later later _) ..)

theorem Twin.marked_since (twin : Twin zone restart first second kept resumed)
    (recalled : Recalls restart first second) {symbol : String} {position : Position}
    (held : kept.state.positions.get? symbol = some position) :
    resumed.markedMoment.get? symbol ≠ second.get? symbol ↔
      kept.markedMoment.get? symbol ≠ first.get? symbol := by
  rcases twin.marks symbol with ⟨before, after⟩ | ⟨same, since⟩
  · rw [before, after]
    exact ⟨fun apart => absurd rfl apart, fun apart => absurd rfl apart⟩
  · obtain ⟨moment, later, marked⟩ := since (by simp [Dict.contains, held])
    rw [same, marked]
    rcases recalled symbol with equal | ⟨forgotten, old, early, was⟩
    · rw [equal]
    · rw [forgotten, was]
      refine iff_of_true (by simp) fun equal => ?_
      have now := Option.some.inj equal
      omega

theorem Twin.settle (recalled : Recalls restart first second) {now : Int} (later : restart < now)
    (answers : String → Option Quote) (read : String → Reading) (symbols : List String)
    {kept resumed : Engine} (twin : Twin zone restart first second kept resumed) :
    Twin zone restart first second (settle zone now answers read first symbols kept)
      (Engine.settle zone now answers read second symbols resumed) := by
  induction symbols generalizing kept resumed with
  | nil => exact twin
  | cons symbol rest ih =>
    unfold Engine.settle
    simp only [twin.state, twin.afterClose]
    split
    · exact ih twin
    · rename_i position held
      simp only [twin.marked_since recalled held]
      split
      · exact ih twin
      · split
        · exact twin
        · split
          · exact ih (twin.exit _ _ (read_later later _) ..)
          · exact ih (twin.exit _ _ (read_later later _) ..)
          · exact ih twin

theorem Paired.stepExits {input : StepInput} (later : input.After restart)
    (paired : Paired zone restart kept resumed)
    (recalled : Recalls restart kept.markedMoment resumed.markedMoment) :
    Paired zone restart (kept.stepExits zone input) (resumed.stepExits zone input) ∧
      Recalls restart (kept.stepExits zone input).markedMoment
        (resumed.stepExits zone input).markedMoment := by
  have pushed : Twin zone restart kept.markedMoment resumed.markedMoment (kept.stepPushed zone input).1
      (resumed.stepPushed zone input).1 ∧
        (resumed.stepPushed zone input).2 = (kept.stepPushed zone input).2 := by
    unfold stepPushed
    split
    · exact ⟨paired.twin, by rw [paired.state]⟩
    · simp only [paired.state]
      exact Twin.pushedExits later.now _ _ _ paired.twin
  obtain ⟨twin, pending⟩ := pushed
  have began := twin.recalls recalled
  have since := twin.toPaired.twin
  have done : Twin zone restart (kept.stepPushed zone input).1.markedMoment
      (resumed.stepPushed zone input).1.markedMoment (kept.stepExits zone input)
      (resumed.stepExits zone input) := by
    unfold Engine.stepExits
    simp only [pending]
    split
    · rename_i wait asked
      refine Twin.settle began later.now _ _ _ ?_
      split
      · exact since
      · exact since.fastPasses _ (later.exits wait asked)
    · exact Twin.settle began later.now _ _ _ since
  exact ⟨done.toPaired, done.recalls began⟩

end Exits

section Entries
variable {kept resumed : Engine}

theorem Paired.frame (paired : Paired zone restart kept resumed) {nextKept nextResumed : Engine}
    (keptFrame : Frame kept nextKept) (resumedFrame : Frame resumed nextResumed)
    (state : nextResumed.state = nextKept.state) : Paired zone restart nextKept nextResumed := by
  refine ⟨state, ?_, ?_, ?_⟩
  · rw [keptFrame.day, resumedFrame.day, paired.day]
  · rw [keptFrame.lastEntry, resumedFrame.lastEntry, paired.lastEntry]
  · unfold SameMembers Engine.lastEntryNow
    rw [keptFrame.lastEntry, keptFrame.candidates, keptFrame.members, resumedFrame.members]
    exact paired.members

theorem watch_same (state : resumed.state = kept.state) (signal : String → Option (ℚ × ℚ))
    {candidate : String × ℚ} (known : resumed.members.get? candidate.1 = kept.members.get? candidate.1)
    (crosses : List Cross) :
    (watch signal (resumed, crosses) candidate).1.state = (watch signal (kept, crosses) candidate).1.state ∧
      (watch signal (resumed, crosses) candidate).2 = (watch signal (kept, crosses) candidate).2 := by
  unfold watch Dict.contains
  simp only [known, state]
  split
  · exact ⟨state, rfl⟩
  · split
    · exact ⟨state, rfl⟩
    · split_ifs <;> simp [state]

theorem watch_foldl_same (signal : String → Option (ℚ × ℚ)) (candidates : List (String × ℚ))
    (crosses : List Cross) {kept resumed : Engine} (state : resumed.state = kept.state)
    (known : ∀ candidate ∈ candidates,
      resumed.members.get? candidate.1 = kept.members.get? candidate.1) :
    (candidates.foldl (watch signal) (resumed, crosses)).1.state =
        (candidates.foldl (watch signal) (kept, crosses)).1.state ∧
      (candidates.foldl (watch signal) (resumed, crosses)).2 =
        (candidates.foldl (watch signal) (kept, crosses)).2 := by
  induction candidates generalizing kept resumed crosses with
  | nil => exact ⟨state, rfl⟩
  | cons candidate rest ih =>
    obtain ⟨sameState, sameCrosses⟩ := watch_same state signal (known candidate List.mem_cons_self) crosses
    have keptFrame := watch_frame signal (kept, crosses) candidate
    have resumedFrame := watch_frame signal (resumed, crosses) candidate
    rw [List.foldl_cons, List.foldl_cons]
    generalize watch signal (resumed, crosses) candidate = next at sameState sameCrosses resumedFrame
    generalize watch signal (kept, crosses) candidate = other at sameState sameCrosses keptFrame
    obtain ⟨nextEngine, nextCrosses⟩ := next
    obtain ⟨otherEngine, otherCrosses⟩ := other
    subst sameCrosses
    refine ih _ sameState fun later member => ?_
    rw [keptFrame.members, resumedFrame.members]
    exact known later (List.mem_cons_of_mem _ member)

theorem enter_markedMoment (now : Int) (asked : Option Wait) (read : String → Reading)
    (crosses : List Cross) (engine : Engine) :
    (enter zone now asked read crosses engine).markedMoment = engine.markedMoment := by
  induction crosses generalizing engine with
  | nil => rfl
  | cons cross rest ih =>
    unfold enter
    split
    · exact ih _
    · rfl
    · exact ih _
    · exact ih _

theorem Paired.verdict (paired : Paired zone restart kept resumed) (now : Int) (asked : Option Wait)
    (read : String → Reading) (cross : Cross) :
    resumed.verdict zone now asked read cross = kept.verdict zone now asked read cross := by
  unfold Engine.verdict Engine.lastEntryNow
  rw [paired.state, paired.lastEntry]

theorem Paired.buy (paired : Paired zone restart kept resumed) {cross : Cross}
    (known : resumed.members.get? cross.symbol = kept.members.get? cross.symbol) (purchase : Purchase) :
    Paired zone restart (kept.buy cross purchase) (resumed.buy cross purchase) := by
  refine ⟨?_, paired.day, paired.lastEntry, paired.members⟩
  simp only [Engine.buy, paired.state, known]

theorem Paired.enter (now : Int) (asked : Option Wait) (read : String → Reading) (crosses : List Cross)
    {kept resumed : Engine} (paired : Paired zone restart kept resumed)
    (known : ∀ cross ∈ crosses, resumed.members.get? cross.symbol = kept.members.get? cross.symbol) :
    Paired zone restart (enter zone now asked read crosses kept)
      (Engine.enter zone now asked read crosses resumed) := by
  induction crosses generalizing kept resumed with
  | nil => exact paired
  | cons cross rest ih =>
    have later : ∀ other ∈ rest, resumed.members.get? other.symbol = kept.members.get? other.symbol :=
      fun other member => known other (List.mem_cons_of_mem _ member)
    unfold Engine.enter
    simp only [paired.verdict]
    split
    · exact ih paired later
    · exact paired
    · refine ih (paired.frame (shadowOpen_frame ..) (shadowOpen_frame ..) ?_) later
      simp only [Engine.shadowOpen, paired.state]
    · exact ih (paired.buy (known cross List.mem_cons_self) _) later

theorem Paired.stepShadows (paired : Paired zone restart kept resumed) (input : StepInput) :
    Paired zone restart (kept.stepShadows zone input) (resumed.stepShadows zone input) := by
  refine paired.frame (stepShadows_frame ..) (stepShadows_frame ..) ?_
  simp only [Engine.stepShadows, paired.state]

theorem Paired.stepWait {input : StepInput} (later : input.After restart)
    (paired : Paired zone restart kept resumed) (crosses : List Cross) :
    Twin zone restart kept.markedMoment resumed.markedMoment (kept.stepWait zone input crosses)
      (resumed.stepWait zone input crosses) := by
  unfold Engine.stepWait
  rw [paired.state]
  split
  · rename_i wait asked
    split
    · exact paired.twin.fastPasses _ (later.entries wait asked)
    · exact paired.twin
  · exact paired.twin

theorem Paired.stepSignals {input : StepInput} (later : input.After restart)
    (paired : Paired zone restart kept resumed) (entryHours : zone.time input.now ≤ kept.lastEntryNow) :
    Paired zone restart (kept.stepSignals zone input).1 (resumed.stepSignals zone input).1 ∧
      (resumed.stepSignals zone input).2 = (kept.stepSignals zone input).2 := by
  have known := paired.members ⟨input.now, later.now, entryHours⟩
  have signals : (resumed.stepSignals zone input).1.state = (kept.stepSignals zone input).1.state ∧
      (resumed.stepSignals zone input).2 = (kept.stepSignals zone input).2 := by
    unfold Engine.stepSignals
    simp only [paired.state]
    refine watch_foldl_same _ _ _ rfl fun candidate member => known _ ?_
    simp [Dict.contains, Dict.mem_entries.mp member]
  exact ⟨paired.frame (stepSignals_spec ..).1 (stepSignals_spec ..).1 signals.1, signals.2⟩

theorem Paired.stepEntries {input : StepInput} (later : input.After restart)
    (paired : Paired zone restart kept resumed) (keyed : kept.state.Keyed)
    (recalled : Recalls restart kept.markedMoment resumed.markedMoment) :
    Paired zone restart (kept.stepEntries zone input) (resumed.stepEntries zone input) ∧
      Recalls restart (kept.stepEntries zone input).markedMoment
        (resumed.stepEntries zone input).markedMoment := by
  have entryHours : resumed.lastEntryNow = kept.lastEntryNow := by
    unfold lastEntryNow
    rw [paired.lastEntry]
  unfold Engine.stepEntries
  rw [entryHours]
  split
  · rename_i open_
    obtain ⟨signalled, crosses⟩ := paired.stepSignals later open_
    have keptFrame : Frame kept (kept.stepSignals zone input).1 := (stepSignals_spec ..).1
    have resumedFrame : Frame resumed (resumed.stepSignals zone input).1 := (stepSignals_spec ..).1
    have waited := signalled.stepWait later (kept.stepSignals zone input).2
    have still : Still kept ((kept.stepSignals zone input).1.stepWait zone input
        (kept.stepSignals zone input).2) :=
      ((still_steady kept).stepWait input _
        ⟨keyed_frame keptFrame keyed, (Still.refl kept).frame keptFrame⟩).2
    have members := waited.members ⟨input.now, later.now, by
      unfold lastEntryNow at open_ ⊢
      rw [still.lastEntry]
      exact open_⟩
    simp only [crosses]
    refine ⟨Paired.enter _ _ _ _ waited.toPaired fun cross member => members _ ?_, ?_⟩
    · rw [still.candidates]
      exact ((stepSignals_known zone kept input).2 cross member).1
    · rw [enter_markedMoment, enter_markedMoment]
      refine waited.recalls ?_
      rw [keptFrame.markedMoment, resumedFrame.markedMoment]
      exact recalled
  · exact ⟨paired, recalled⟩

theorem Paired.step {input : StepInput} (later : input.After restart)
    (paired : Paired zone restart kept resumed) (keyed : kept.state.Keyed)
    (recalled : Recalls restart kept.markedMoment resumed.markedMoment) :
    Paired zone restart (kept.step zone input) (resumed.step zone input) ∧
      Recalls restart (kept.step zone input).markedMoment (resumed.step zone input).markedMoment := by
  obtain ⟨exits, recalls⟩ := paired.stepExits later recalled
  have start : (kept.stepExits zone input).state.Keyed :=
    ((still_steady kept).stepExits input ⟨keyed, .refl kept⟩).1
  exact (exits.stepShadows input).stepEntries later (keyed_frame (stepShadows_frame ..) start) recalls

end Entries
end Engine
end C3po.Live
