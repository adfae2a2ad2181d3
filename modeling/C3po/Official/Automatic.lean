import C3po.Official.Chaining

/-! The automatic writers: the activation pass, the direct admission, the bootstrap and the
persistence hook. Whatever one of them chains is an automatic generation of the rules.
-/

set_option autoImplicit false

namespace C3po.Official
open C3po.Library
open C3po.Prices (normalise)

variable {Digest : Type} {setting : Setting Digest} {store : Store} {log : List (Event Store Reading)}

def AutoOutcome (log : List (Event Store Reading)) (result : Option Generation)
    (later : List (Event Store Reading)) : Prop :=
  match result with
  | some generation => Inserted generation log later
  | none => Quiet log later

theorem AutoOutcome.since {result : Option Generation} {middle later : List (Event Store Reading)}
    (quiet : Quiet log middle) (outcome : AutoOutcome middle result later) : AutoOutcome log result later := by
  cases result with
  | some generation => exact quiet.inserted outcome
  | none => exact quiet.trans outcome

theorem readClock_then {B : Type} {rest : Int → Process B} {post : B → List (Event Store Reading) → Store → Prop}
    (after : ∀ answer later, setting.allowed log answer → .answered answer ∈ later → Quiet log later →
      (official setting).Holds (rest answer.clock) later store post) :
    (official setting).Holds (readClock >>= rest) log store post := answer_then after

section Clocks

theorem activationClock_automatic {head : Option Generation} {clock activatedAt : Int}
    (activated : activationClock head none clock = .ok activatedAt) :
    clock ≤ activatedAt ∧ ∀ tip, head = some tip → tip.activatedAt < activatedAt := by
  cases head with
  | none =>
    cases activated
    exact ⟨le_rfl, fun _ same => nomatch same⟩
  | some tip =>
    have value : (if clock ≤ tip.activatedAt then tip.activatedAt + 1 else clock) = activatedAt := by
      simpa [activationClock] using activated
    refine ⟨by split_ifs at value <;> omega, fun other same => ?_⟩
    cases same
    split_ifs at value <;> omega

theorem not_frozen {head : Generation} {wall ends : Int} (thawed : ¬ (selectionFreeze (some head) wall).isSome)
    (frozen : head.freezeEnd = some ends) : ends ≤ wall := by
  unfold Generation.freezeEnd at frozen
  split at frozen
  · rename_i explicit
    obtain ⟨freeze, carried, rfl⟩ := Option.map_eq_some_iff.mp frozen
    by_contra before
    refine thawed ?_
    simp only [selectionFreeze, Option.bind_eq_bind, Option.bind_some, carried]
    rw [if_pos ⟨explicit, not_le.mp before⟩]
    rfl
  · cases frozen

theorem steady_le {answer wall : Reading} {first middle : List (Event Store Reading)} (steady : setting.Steady)
    (earlier : .answered wall ∈ first) (quiet : Quiet first middle) (allowed : setting.allowed middle answer) :
    wall.clock ≤ answer.clock := steady middle wall answer allowed (quiet.mem earlier)

end Clocks

section Orders

/-- The order a writer reads: the last one, once there is a head. -/
def orderOf (current : Option Generation) (store : Store) : Option Generation :=
  match current with
  | none => none
  | some _ => store.latestExplicitSelection

theorem readOrder_spec {current : Option Generation} :
    Spec setting (readOrder current) log store fun order last =>
      ∃ read, (official setting).Later store read ∧ (official setting).Later read last ∧ order = orderOf current read := by
  unfold readOrder
  split
  · exact Spec.pure fun last reached => ⟨store, Protocol.Later.refl store, reached, rfl⟩
  · exact Spec.read fun next last reached after => ⟨next, reached, after, rfl⟩

theorem afterOrder_of_clock {origin read next : Store} {order : Option Generation} {cycleId : ℕ}
    (ofOrder : order = orderOf origin.tip read) (sameRead : read.generations = origin.generations)
    (same : next.generations = origin.generations) (after : AfterClock order next cycleId) :
    AfterOrder next cycleId := by
  intro authority found
  refine after authority ?_
  rw [ofOrder]
  unfold Store.latestExplicitSelection at found
  cases tip : origin.tip with
  | none =>
    rw [same, tip_none tip] at found
    cases found
  | some head =>
    rw [same] at found
    change read.latestExplicitSelection = _
    unfold Store.latestExplicitSelection
    rw [sameRead]
    exact found

end Orders

section Heads
variable (sound : Sound setting store)
include sound

theorem Sound.tip_admissible {symbol : String} {cycleId : ℕ}
    (held : (currentTargeted store.tip).get? symbol = some cycleId) :
    Admissible setting.calendars store (selectedSource store.tip) symbol cycleId := by
  cases found : store.tip with
  | none => rw [found] at held; cases held
  | some head =>
    rw [found] at held
    exact (sound.whole head (tip_mem found)).targeted symbol cycleId held

theorem Sound.clean_of_admissible {source : Source} {symbol : String} {cycleId : ℕ}
    (admissible : Admissible setting.calendars store source symbol cycleId) : normalise symbol = symbol := by
  obtain ⟨_, _, _, _, _, _, _, recorded⟩ := admissible
  exact sound.clean recorded

theorem Sound.tip_clean : CleanKeys (currentTargeted store.tip) := fun _ _ held =>
  sound.clean_of_admissible (sound.tip_admissible held)

theorem Sound.tip_first : firstTargeted (currentTargeted store.tip).entries = currentTargeted store.tip :=
  firstTargeted_clean sound.tip_clean

end Heads

theorem Recovering.clean {carried : Dict String ℕ} {order : Option Generation} {source : Source} {found : Recovery}
    (recovering : Recovering setting carried order source found store) (sound : Sound setting store)
    (clean : CleanKeys carried) : CleanKeys found.targeted := by
  intro symbol cycleId held
  rw [recovering.targeted] at held
  rcases Option.or_eq_some_iff.mp held with recovered | ⟨_, carriedHeld⟩
  · exact sound.clean_of_admissible (recovering.recovered symbol cycleId recovered).1
  · exact clean symbol cycleId carriedHeld

theorem automatic_of_composed {origin read next : Store} {order : Option Generation}
    {choices : Market → MarketChoice} {found : Recovery} {attempt : ℕ} {clock activatedAt : Int}
    {generation : Generation} (sound : Sound setting next) (same : next.generations = origin.generations)
    (sameRead : read.generations = origin.generations) (ofOrder : order = orderOf origin.tip read)
    (chosen : ∀ market, Chosen setting origin.tip order market (choices market) next)
    (recovering : Recovering setting (currentTargeted origin.tip) order (selectedSource origin.tip) found next)
    (activated : activationClock origin.tip none clock = .ok activatedAt)
    (thawed : setting.Steady → ∀ head ends, origin.tip = some head → head.freezeEnd = some ends → ends ≤ clock)
    (assembled : assemble (composed origin.tip order choices found attempt) origin.tip activatedAt false =
      .ok generation) :
    Automatic setting next (next.stored generation) := by
  have tip : next.tip = origin.tip := tip_congr same
  have clean : CleanKeys found.targeted := recovering.clean sound (tip ▸ sound.tip_clean)
  obtain ⟨notBefore, past⟩ := activationClock_automatic activated
  cases assembled
  have map : ∀ symbol, (sortedTargeted (firstTargeted found.targeted.entries)).get? symbol =
      found.targeted.get? symbol := fun symbol => by
    rw [get?_sortedTargeted, firstTargeted_clean clean]
  exact
    { id := rfl
      previous := by rw [tip]; rfl
      unmarked := rfl
      composed :=
        { source := by rw [tip]; rfl
          changed := by rw [tip]; rfl
          targeted := fun symbol => by
            rw [tip]
            exact (map symbol).trans (recovering.targeted symbol) }
      clock := fun head found => past head (tip ▸ found)
      thawed := fun steady head ends found frozen =>
        (thawed steady head ends (tip ▸ found) frozen).trans notBefore
      chosen := by
        intro market
        rw [tip]
        rcases chosen market with carried | ⟨selectable, after⟩
        · exact .inl carried
        · exact .inr ⟨selectable, fun head found apart =>
            afterOrder_of_clock ofOrder sameRead same (after head found apart)⟩
      admitted := by
        intro symbol cycleId admitted
        obtain ⟨admissible, after, newer⟩ := recovering.recovered symbol cycleId admitted
        refine ⟨admissible, afterOrder_of_clock ofOrder sameRead same after, fun _ held carried => newer held ?_⟩
        rw [← tip]
        exact carried
      tidy := sortedTargeted_sortedTargeted _ }

theorem activateFrom_spec (left attempt : ℕ) (sound : Sound setting store) :
    (official setting).Holds (activateFrom setting.calendars left attempt) log store
      fun result later _ => AutoOutcome log result later := by
  induction left generalizing attempt store log with
  | zero => exact fun _ _ => Quiet.refl log
  | succ left ih =>
    unfold activateFrom
    apply read_then
    intro origin first reached quiet
    have soundOrigin : Sound setting origin := reached.keeps sound
    rw [soundOrigin.head]
    apply readClock_then
    intro wall second _ walled quiet'
    have soFar := quiet.trans quiet'
    split
    · exact fun _ _ => soFar
    rename_i thawed
    refine (forMarkets_spec (Candidate setting (selectedSource origin.tip))
      (fun market later next reached => selectableCycle_spec (reached.keeps soundOrigin))
      fun market value first second reached => Candidate.grows (later_grows reached)).then
        fun candidates third store₁ reached₁ quiet₁ candidatesFound => ?_
    split
    · exact fun _ _ => soFar.trans quiet₁
    rename_i candidates
    refine readOrder_spec.then fun order fourth store₂ reached₂ quiet₂ orderRead => ?_
    obtain ⟨read, toRead, fromRead, ofOrder⟩ := orderRead
    refine (forMarkets_spec (Chosen setting origin.tip order) (fun market later next reached₃ => chooseMarket_spec
      (Candidate.grows (later_grows (reached₂.trans reached₃)) (candidatesFound candidates rfl market)))
      fun market value first second reached => Chosen.grows (later_grows reached)).then
        fun choices fifth store₃ reached₃ quiet₃ chosen => ?_
    split
    · exact fun _ _ => soFar.trans (quiet₁.trans (quiet₂.trans quiet₃))
    rename_i choices
    have toStore₃ := reached₁.trans (reached₂.trans reached₃)
    rw [soundOrigin.tip_first]
    refine (recoveredTargeted_spec (toStore₃.keeps soundOrigin)
      (fun symbol cycleId held => (later_grows toStore₃).admissible (soundOrigin.tip_admissible held))).then
        fun found sixth store₄ reached₄ quiet₄ recovering => ?_
    have toInsert := quiet₁.trans (quiet₂.trans (quiet₃.trans quiet₄))
    split
    · exact fun _ _ => soFar.trans toInsert
    refine Protocol.Holds.bind (Protocol.Holds.mono (newGeneration_spec soundOrigin (toStore₃.trans reached₄) rfl ?_)
      fun result last next after outcome => ?_)
    · intro next middle last clock activatedAt generation after same quietMiddle _ clockRead activated assembled
      obtain ⟨answer, allowed, rfl⟩ := clockRead
      have toNext := (reached₂.trans reached₃).trans (reached₄.trans after)
      have sameRead : read.generations = origin.generations :=
        between (later_grows (reached₁.trans toRead))
          (later_grows (fromRead.trans (reached₃.trans (reached₄.trans after)))) same
      refine .automatic next (automatic_of_composed ((reached₁.trans toNext).keeps soundOrigin) same sameRead ofOrder
        (fun market => (chosen choices rfl market).grows (later_grows (reached₄.trans after)))
        (recovering.grows (later_grows after)) activated (fun steady head ends tip frozen => ?_) assembled)
      rw [tip] at thawed
      exact (not_frozen thawed frozen).trans (steady_le steady walled (toInsert.trans quietMiddle) allowed)
    · cases result with
      | ok generation => exact fun _ _ => (soFar.trans toInsert).inserted outcome
      | error refusal =>
        have reachedNext := toStore₃.trans (reached₄.trans after)
        exact Protocol.Holds.mono (ih (attempt + 1) (reachedNext.keeps soundOrigin))
          fun _ _ _ _ final => AutoOutcome.since ((soFar.trans toInsert).trans outcome) final

section Admission

theorem decidedByOrder_spec {cycleId : ℕ} {order : Option Generation} :
    Spec setting (decidedByOrder cycleId order) log store fun decided next =>
      decided = false → AfterClock order next cycleId := by
  unfold decidedByOrder
  split
  · exact Spec.pure fun _ _ _ _ same => nomatch same
  · rename_i order
    unfold predictedAtOrBefore
    apply read_then
    intro next later _ quiet
    refine Spec.since quiet ?_
    split
    · exact Spec.pure fun _ _ same => by cases same
    · rename_i clocks clocked
      refine Spec.pure fun last reached same authority alike => ?_
      cases alike
      have found : next.instantOf cycleId = some clocks.1 := by
        unfold Store.instantOf
        obtain ⟨cycle, stored, own⟩ := Option.bind_eq_some_iff.mp clocked
        rw [stored, Option.bind_some, own]
        rfl
      exact ⟨clocks.1, (later_grows reached).instant found, not_le.mp (of_decide_eq_false same)⟩

theorem validatedFor_spec {validation : Option Validation} {symbol : String} {cycleId : ℕ} {source : Source}
    (earlier : ∀ before, validation = some before → Admissible setting.calendars store before.source symbol cycleId) :
    Spec setting (validatedFor setting.calendars validation symbol cycleId source) log store fun result next =>
      ∀ found, result = some found → Admissible setting.calendars next source symbol cycleId ∧ found.source = source := by
  unfold validatedFor
  split
  · rename_i before kept
    obtain ⟨same, own⟩ := Option.filter_eq_some_iff.mp kept
    refine Spec.pure fun next reached found alike => ?_
    cases alike
    have ofSource := of_decide_eq_true own
    exact ⟨(later_grows reached).admissible (ofSource ▸ earlier before same), ofSource⟩
  · exact admissibleTargeted_spec

theorem candidate_recorded {origin : Store} {symbol : String} {cycleId : ℕ} {source : Source}
    (sound : Sound setting origin) (soundLater : Sound setting store) (grows : Grows origin store)
    (known : HasRecord origin cycleId) (recorded : symbol ∈ store.recordedSymbols cycleId source) :
    symbol ∈ origin.recordedSymbols cycleId source := by
  obtain ⟨record, stored, rfl⟩ := known
  have final := sound.records_final soundLater grows stored source
  unfold Store.recordedSymbols at recorded ⊢
  rwa [← final]

theorem automatic_of_admitting {origin read next : Store} {head : Generation} {order : Option Generation}
    {symbol : String} {cycleId attempt : ℕ} {clock activatedAt : Int} {generation : Generation}
    (sound : Sound setting next) (same : next.generations = origin.generations) (tip : origin.tip = some head)
    (sameRead : read.generations = origin.generations) (ofOrder : order = orderOf origin.tip read)
    (admissible : Admissible setting.calendars next head.source symbol cycleId)
    (after : AfterClock order next cycleId)
    (newer : setting.recordedFirst → ∀ held, head.targeted.get? symbol = some held → Newer next held cycleId)
    (activated : activationClock (some head) none clock = .ok activatedAt)
    (thawed : setting.Steady → ∀ ends, head.freezeEnd = some ends → ends ≤ clock)
    (assembled : assemble (admitting head symbol cycleId attempt) (some head) activatedAt false = .ok generation) :
    Automatic setting next (next.stored generation) := by
  have tipNext : next.tip = some head := (tip_congr same).trans tip
  have first : firstTargeted head.targeted.entries = head.targeted := by
    have whole := sound.tip_first
    rwa [tipNext] at whole
  have clean : CleanKeys (head.targeted.insert symbol cycleId) := by
    intro other id held
    rw [Dict.get?_insert] at held
    split at held
    · rename_i here
      rw [here]
      exact sound.clean_of_admissible admissible
    · have own := sound.tip_clean
      rw [tipNext] at own
      exact own other id held
  obtain ⟨notBefore, past⟩ := activationClock_automatic activated
  cases assembled
  have map : ∀ other, (sortedTargeted (firstTargeted
      ((firstTargeted head.targeted.entries).insert symbol cycleId).entries)).get? other =
        (head.targeted.insert symbol cycleId).get? other := fun other => by
    rw [get?_sortedTargeted, first, firstTargeted_clean clean]
  exact
    { id := rfl
      previous := by rw [tipNext]; rfl
      unmarked := rfl
      composed :=
        { source := by rw [tipNext]; rfl
          changed := by
            rw [tipNext]
            change [] = markets.filter _
            simp [markets, Store.stored, admitting]
          targeted := fun other => by
            rw [tipNext]
            refine (map other).trans ?_
            change _ = ((Dict.empty.insert symbol cycleId).get? other).or (head.targeted.get? other)
            rw [Dict.get?_insert, Dict.get?_insert]
            split
            · rfl
            · rfl }
      clock := fun other found => past other (tipNext ▸ found)
      thawed := fun steady other ends found frozen => by
        rw [tipNext] at found
        cases found
        exact (thawed steady ends frozen).trans notBefore
      chosen := fun market => .inl ⟨head, tipNext, rfl, rfl⟩
      admitted := by
        intro other id admitted
        change (Dict.empty.insert symbol cycleId).get? other = some id at admitted
        rw [Dict.get?_insert] at admitted
        split at admitted
        · rename_i here
          cases admitted
          subst here
          refine ⟨admissible, afterOrder_of_clock ofOrder sameRead same after, fun first held carried => ?_⟩
          rw [tipNext] at carried
          exact newer first held carried
        · cases admitted
      tidy := sortedTargeted_sortedTargeted _ }

theorem admitFrom_spec {symbol : String} {cycleId : ℕ} (left attempt : ℕ) (validation : Option Validation)
    (sound : Sound setting store) (known : setting.recordedFirst → HasRecord store cycleId)
    (earlier : ∀ before, validation = some before → Admissible setting.calendars store before.source symbol cycleId) :
    (official setting).Holds (admitFrom setting.calendars symbol cycleId left attempt validation) log store
      fun result later _ => AutoOutcome log result later := by
  induction left generalizing attempt validation store log with
  | zero => exact fun _ _ => Quiet.refl log
  | succ left ih =>
    unfold admitFrom
    apply read_then
    intro origin first reached quiet
    have soundOrigin : Sound setting origin := reached.keeps sound
    have grows := later_grows reached
    rw [soundOrigin.head]
    cases tip : origin.tip with
    | none => exact fun _ _ => quiet
    | some head =>
    apply readClock_then
    intro wall second _ walled quiet'
    have soFar := quiet.trans quiet'
    split
    · exact fun _ _ => soFar
    rename_i thawed
    have whole := soundOrigin.whole head (tip_mem tip)
    have firstOf : firstTargeted head.targeted.entries = head.targeted := by
      have own := soundOrigin.tip_first
      rwa [tip] at own
    simp only [firstOf]
    split
    · exact fun _ _ => soFar
    apply read_then
    intro read third reached₁ quiet₁
    refine decidedByOrder_spec.then fun decided fourth store₂ reached₂ quiet₂ after => ?_
    split
    · exact fun _ _ => soFar.trans (quiet₁.trans quiet₂)
    rename_i notDecided
    refine readRecord_spec.then fun kept fifth store₃ reached₃ quiet₃ keptFound => ?_
    refine readRecord_spec.then fun candidate sixth store₄ reached₄ quiet₄ candidateFound => ?_
    have quiet₅ := quiet₁.trans (quiet₂.trans (quiet₃.trans quiet₄))
    have toStore₂ := reached₁.trans reached₂
    have toStore₄ := toStore₂.trans (reached₃.trans reached₄)
    split
    · exact fun _ _ => soFar.trans quiet₅
    rename_i recent
    refine (validatedFor_spec fun before same =>
      (grows.trans (later_grows toStore₄)).admissible (earlier before same)).then
        fun validation seventh store₅ reached₅ quiet₆ validated => ?_
    split
    · exact fun _ _ => soFar.trans (quiet₅.trans quiet₆)
    rename_i accepted
    obtain ⟨admissible, ofSource⟩ := validated accepted rfl
    apply read_then
    intro store₆ eighth reached₆ quiet₇
    have toInsert := quiet₅.trans (quiet₆.trans quiet₇)
    split
    · exact fun _ _ => soFar.trans toInsert
    have toStore₆ := toStore₄.trans (reached₅.trans reached₆)
    refine Protocol.Holds.bind (Protocol.Holds.mono (newGeneration_spec soundOrigin toStore₆ (by rw [tip]; rfl) ?_)
      fun result last next after' outcome => ?_)
    · intro next middle last clock activatedAt generation after' same quietMiddle _ clockRead activated assembled
      obtain ⟨answer, allowed, rfl⟩ := clockRead
      rw [tip] at activated assembled
      have fromStore₂ := (reached₃.trans reached₄).trans (reached₅.trans (reached₆.trans after'))
      have sameRead : read.generations = origin.generations :=
        between (later_grows reached₁) (later_grows (reached₂.trans fromStore₂)) same
      have soundNext : Sound setting next := (toStore₆.trans after').keeps soundOrigin
      have toNext := later_grows (reached₅.trans (reached₆.trans after'))
      refine .automatic next (automatic_of_admitting soundNext same tip sameRead (by rw [tip]; rfl)
        ((later_grows (reached₆.trans after')).admissible admissible)
        ((after (Bool.eq_false_of_not_eq_true notDecided)).grows (later_grows fromStore₂)) ?_ activated ?_ assembled)
      · intro first held carried
        -- both records were there when they were read, so the clocks were compared
        obtain ⟨_, _, _, _, _, _, _, heldRecorded⟩ := whole.targeted symbol held carried
        obtain ⟨_, _, _, _, _, _, _, ownRecorded⟩ := admissible
        obtain ⟨keptRecord, rfl, keptStored⟩ := keptFound held carried ((later_grows toStore₂).recordedSymbols heldRecorded)
        have ownEarly := candidate_recorded soundOrigin ((toStore₄.trans reached₅).keeps soundOrigin)
          (later_grows (toStore₄.trans reached₅))
          ((known first).grows grows) ownRecorded
        obtain ⟨own, rfl, ownStored⟩ := candidateFound cycleId rfl
          ((later_grows (toStore₂.trans reached₃)).recordedSymbols ownEarly)
        have order : keptRecord.predictionInstant < own.predictionInstant := by
          simpa [notNewer] using recent
        obtain ⟨ownIn, ofCycle, _⟩ := predictionRecord_spec ownStored
        have newer := newer_of_records (toStore₄.keeps soundOrigin) ((later_grows reached₄).record keptStored) ownIn order
        rw [ofCycle] at newer
        exact toNext.newer newer
      · intro steady ends frozen
        exact (not_frozen thawed frozen).trans (steady_le steady walled (toInsert.trans quietMiddle) allowed)
    · cases result with
      | ok generation => exact fun _ _ => (soFar.trans toInsert).inserted outcome
      | error refusal =>
        have reachedNext := toStore₆.trans after'
        refine Protocol.Holds.mono (ih (attempt + 1) (some accepted) (reachedNext.keeps soundOrigin) ?_ ?_)
          fun _ _ _ _ final => AutoOutcome.since ((soFar.trans toInsert).trans outcome) final
        · exact fun first => (known first).grows (grows.trans (later_grows reachedNext))
        · intro before same
          cases same
          rw [ofSource]
          exact (later_grows (reached₆.trans after')).admissible admissible

end Admission

section Hook

theorem hasRecord_spec {symbol : String} {cycleId : ℕ} (sources : List Source) :
    Spec setting (hasRecord symbol cycleId sources) log store
      fun known next => known = true → HasRecord next cycleId := by
  induction sources generalizing store log with
  | nil => exact Spec.pure fun _ _ same => nomatch same
  | cons source rest ih =>
    unfold hasRecord
    apply read_then
    intro next later _ quiet
    split
    · rename_i recorded
      refine Spec.since quiet (Spec.pure fun last reached _ => ?_)
      obtain ⟨record, member, _⟩ := List.mem_map.mp recorded
      obtain ⟨stored, matched⟩ := List.mem_filter.mp member
      exact ⟨record, (later_grows reached).predictions.subset stored, (of_decide_eq_true matched).1⟩
    · exact Spec.since quiet ih

theorem activateGenerationIfChanged_spec (sound : Sound setting store) :
    (official setting).Holds (activateGenerationIfChanged setting.calendars) log store
      fun result later _ => AutoOutcome log result later := activateFrom_spec _ _ sound

theorem admitTargetedCycle_spec {symbol : String} {cycleId : ℕ} (sound : Sound setting store)
    (known : setting.recordedFirst → HasRecord store cycleId) :
    (official setting).Holds (admitTargetedCycle setting.calendars symbol cycleId) log store
      fun result later _ => AutoOutcome log result later :=
  admitFrom_spec _ _ none sound known fun _ same => nomatch same

theorem recordSnapshot_spec {cycle : Cycle} (sound : Sound setting store)
    (stored : store.analysisSnapshotById cycle.id = some cycle) :
    (official setting).Holds (recordSnapshot setting.calendars cycle) log store
      fun result later _ => AutoOutcome log result later := by
  unfold recordSnapshot
  split
  · exact fun _ _ => Quiet.refl log
  refine (recordCyclePredictions_spec stored).then fun recorded first store₁ reached quiet added => ?_
  have sound₁ : Sound setting store₁ := reached.keeps sound
  split
  · exact Protocol.Holds.mono (activateGenerationIfChanged_spec sound₁) fun _ _ _ _ => AutoOutcome.since quiet
  -- the admission, once a record of the cycle is known
  have admitted : ∀ known second store₂, (official setting).Later store₁ store₂ → Quiet first second →
      (known = true → HasRecord store₂ cycle.id) →
      (official setting).Holds (if known = true then
          admitTargetedCycle setting.calendars (normalise cycle.entityKey) cycle.id else pure none)
        second store₂ fun result later _ => AutoOutcome log result later := by
    intro known second store₂ reached₂ quiet₂ record
    split
    · rename_i yes
      exact Protocol.Holds.mono (admitTargetedCycle_spec (reached₂.keeps sound₁) fun _ => record yes)
        fun _ _ _ _ => AutoOutcome.since (quiet.trans quiet₂)
    · exact fun _ _ => quiet.trans quiet₂
  simp only
  split
  · rename_i some
    exact admitted true first store₁ (Protocol.Later.refl store₁) (Quiet.refl first) fun _ => added some
  · exact (hasRecord_spec officialSources).then fun known second store₂ reached₂ quiet₂ record =>
      admitted known second store₂ reached₂ quiet₂ record

/-- What a call did to the selection: nothing, or the one insert of the generation it
answers. -/
def Accounted (log : List (Event Store Reading)) (result : Option Generation)
    (later : List (Event Store Reading)) : Prop :=
  Quiet log later ∨ ∃ generation, result = some generation ∧ Inserted generation log later

theorem AutoOutcome.accounted {result : Option Generation} {later : List (Event Store Reading)}
    (outcome : AutoOutcome log result later) : Accounted log result later := by
  cases result with
  | some generation => exact .inr ⟨generation, rfl, outcome⟩
  | none => exact .inl outcome

theorem recordLatest_spec {market : Market} (sound : Sound setting store) :
    Spec setting (recordLatest setting.calendars market) log store fun result _ => ∀ value, result = .ok value → True := by
  unfold recordLatest
  apply read_then
  intro next later reached quiet
  split
  · exact Spec.since quiet (Spec.pure fun _ _ _ _ => trivial)
  · rename_i cycle found
    have stored := (latestSnapshot_spec (reached.keeps sound) found).1
    refine (recordCyclePredictions_spec stored).then fun added second store₂ _ quiet₂ _ => ?_
    exact Spec.since (quiet.trans quiet₂) (Spec.pure fun _ _ _ _ => trivial)

theorem bootstrapOfficialSelection_spec (sound : Sound setting store) :
    (official setting).Holds (bootstrapOfficialSelection setting.calendars) log store
      fun result later _ => Accounted log result later := by
  unfold bootstrapOfficialSelection
  refine (forMarkets_spec (fun _ _ _ => True) (fun market later next reached =>
    recordLatest_spec (reached.keeps sound)) fun _ _ _ _ _ _ => trivial).then fun _ first store₁ reached quiet _ => ?_
  refine Protocol.Holds.bind (Protocol.Holds.mono (activateGenerationIfChanged_spec (reached.keeps sound))
    fun result last next _ outcome => ?_)
  cases result with
  | some generation => exact fun _ _ => .inr ⟨generation, rfl, quiet.inserted outcome⟩
  | none =>
    refine fun final _ => ⟨Protocol.Later.refl final, fun _ _ => .inl ?_⟩
    exact (quiet.trans outcome).trans (Quiet.step rfl)

theorem saveAnalysisSnapshot_spec {cycle : Cycle} (sound : Sound setting store) (produced : setting.producible cycle) :
    (official setting).Holds (saveAnalysisSnapshot setting.calendars cycle) log store
      fun result later _ => AutoOutcome log result later := by
  unfold saveAnalysisSnapshot
  refine Protocol.Holds.write fun next reached => ?_
  have move : Move setting next (next.saveSnapshot cycle) := .published next cycle produced
  have soundNext : Sound setting next := reached.keeps sound
  refine ⟨Relation.ReflTransGen.single move, ?_⟩
  have stored : (next.saveSnapshot cycle).analysisSnapshotById (next.published cycle).id = some (next.published cycle) := by
    unfold Store.analysisSnapshotById Store.saveSnapshot
    have fresh : next.snapshots.find? (fun other => decide (other.id = (next.published cycle).id)) = none := by
      rw [List.find?_eq_none]
      intro other member same
      obtain ⟨place, found⟩ := List.mem_iff_getElem?.mp member
      have bound := (List.getElem?_eq_some_iff.mp found).1
      have id := soundNext.ids place other found
      have alike : other.id = next.snapshots.length := of_decide_eq_true same
      omega
    rw [List.find?_append, fresh]
    simp
  exact Protocol.Holds.mono (recordSnapshot_spec (soundNext.kept move) stored)
    fun _ _ _ _ => AutoOutcome.since (Quiet.step rfl)

theorem replaySnapshot_spec {cycleId : ℕ} (sound : Sound setting store) :
    (official setting).Holds (replaySnapshot setting.calendars cycleId) log store
      fun result later _ => AutoOutcome log result later := by
  unfold replaySnapshot
  apply read_then
  intro next later reached quiet
  split
  · exact fun _ _ => quiet
  · rename_i cycle found
    have id := snapshot_id found
    subst id
    exact Protocol.Holds.mono (recordSnapshot_spec (reached.keeps sound) found) fun _ _ _ _ => AutoOutcome.since quiet

end Hook

end C3po.Official
