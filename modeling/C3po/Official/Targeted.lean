import C3po.Official.Linear
import C3po.Official.Pass

/-! Targeted admissions: what automatic generations keep, and what a pass catches up on.

A pass looks at the newest record of each symbol only. Where its cycle is refused, an older
accepted one stays unadmitted, until the replay of its own snapshot admits it.
-/

set_option autoImplicit false

namespace C3po.Official
open C3po.Library
open C3po.Library.Program (Always always_bind always_read always_answer)
open C3po.Prices (normalise)

variable {Digest : Type} {setting : Setting Digest} {store : Store} {answers : Reading → Prop}

def Store.cycleSymbols (store : Store) (cycleId : ℕ) : List String :=
  match store.analysisSnapshotById cycleId with
  | none => []
  | some cycle => cycle.cycleRows.map fun row => normalise row.symbol

/-- The head holds, of every symbol its B3 universe does not serve, a targeted cycle at least
as recent as every recorded one that the validator accepts and no order decided over. -/
def Converged (setting : Setting Digest) (store : Store) (head : Generation) : Prop :=
  ∀ record ∈ store.targetedPredictions head.source,
    record.symbol ∉ store.recordedSymbols (head.cycles .b3) head.source →
    Admissible setting.calendars store head.source record.symbol record.cycleId →
    AfterOrder store record.cycleId → AtLeast store head.targeted record

/-- No accepted cycle of a symbol newer than the one held has a newer, refused one over it. -/
def Unhidden (setting : Setting Digest) (store : Store) (head : Generation) : Prop :=
  ∀ symbol newest, store.latestTargetedPrediction head.source symbol = some newest →
    ¬ Admissible setting.calendars store head.source symbol newest.cycleId →
    symbol ∉ store.cycleSymbols (nextCycle setting.calendars store head .b3) →
    ∀ record ∈ store.targetedPredictions head.source, record.symbol = symbol →
      Admissible setting.calendars store head.source symbol record.cycleId →
      AfterOrder store record.cycleId → AtLeast store head.targeted record

/-- Every stored targeted cycle that can be recorded is recorded. -/
def Kept (setting : Setting Digest) (store : Store) : Prop :=
  ∀ cycle ∈ store.snapshots, cycle.analysisType = .targeted → ∀ clocks session, cycle.clocks = some clocks →
    setting.calendars.sessions .b3 clocks.1 = some session → cyclePredictions cycle .b3 clocks session ≠ [] →
    HasRecord store cycle.id

section Stores
variable {final : Store}

theorem AtLeast.of_snapshots {targeted : Dict String ℕ} {record : Prediction} (same : final.snapshots = store.snapshots)
    (least : AtLeast store targeted record) : AtLeast final targeted record := by
  obtain ⟨held, instant, found, dated, bound⟩ := least
  refine ⟨held, instant, found, ?_, bound⟩
  unfold Store.instantOf Store.analysisSnapshotById at dated ⊢
  rwa [same]

theorem AtLeast.of_map {first second : Dict String ℕ} {record : Prediction}
    (same : first.get? record.symbol = second.get? record.symbol) (least : AtLeast store first record) :
    AtLeast store second record := by
  obtain ⟨held, instant, found, facts⟩ := least
  exact ⟨held, instant, same ▸ found, facts⟩

theorem AfterOrder.of_same {cycleId : ℕ} (same : final.snapshots = store.snapshots)
    (ordered : final.latestExplicitSelection = store.latestExplicitSelection) (after : AfterOrder store cycleId) :
    AfterOrder final cycleId := by
  intro order found
  rw [ordered] at found
  obtain ⟨instant, dated, later⟩ := after order found
  refine ⟨instant, ?_, later⟩
  unfold Store.instantOf Store.analysisSnapshotById at dated ⊢
  rwa [same]

theorem cycleSymbols_congr (same : final.snapshots = store.snapshots) (cycleId : ℕ) :
    final.cycleSymbols cycleId = store.cycleSymbols cycleId := by
  unfold Store.cycleSymbols Store.analysisSnapshotById
  rw [same]

theorem admissible_congr {record : Prediction} {source : Source} (sound : Sound setting store) (soundFinal : Sound setting final)
    (same : final.snapshots = store.snapshots) (here : record ∈ store.targetedPredictions source)
    (there : record ∈ final.targetedPredictions source) :
    Admissible setting.calendars final source record.symbol record.cycleId ↔
      Admissible setting.calendars store source record.symbol record.cycleId := by
  have recorded : ∀ {other : Store}, record ∈ other.targetedPredictions source →
      record.symbol ∈ other.recordedSymbols record.cycleId source := fun member => by
    obtain ⟨stored, matched⟩ := List.mem_filter.mp member
    exact List.mem_map_of_mem (List.mem_filter.mpr ⟨stored, decide_eq_true ⟨rfl, (of_decide_eq_true matched).2.1⟩⟩)
  obtain ⟨cycle, _, _, _, stored, _⟩ := sound.recorded record (List.mem_filter.mp here).1
  have storedFinal : final.analysisSnapshotById record.cycleId = some cycle := by
    rw [← stored]
    unfold Store.analysisSnapshotById
    rw [same]
  rw [sound.admissible_iff stored, soundFinal.admissible_iff storedFinal]
  simp only [recorded here, recorded there]

theorem newest_of_record {record : Prediction} {source : Source} (member : record ∈ store.targetedPredictions source) :
    ∃ newest, store.latestTargetedPrediction source record.symbol = some newest ∧
      record.predictionInstant ≤ newest.predictionInstant := by
  have own : record ∈ ((store.targetedPredictions source).filter fun other => other.symbol = record.symbol).reverse :=
    List.mem_reverse.mpr (List.mem_filter.mpr ⟨member, decide_eq_true rfl⟩)
  cases found : store.latestTargetedPrediction source record.symbol with
  | none =>
    unfold Store.latestTargetedPrediction at found
    rw [latest_none.mp found] at own
    cases own
  | some newest =>
    refine ⟨newest, rfl, ?_⟩
    have order := (latest_spec found).2 record own
    exact Prod.Lex.monotone_fst _ _ order

theorem Whole.served_iff {generation : Generation} {market : Market} {symbol : String} (sound : Sound setting store)
    (whole : Whole setting.calendars store generation) :
    symbol ∈ store.recordedSymbols (generation.cycles market) generation.source ↔
      symbol ∈ store.cycleSymbols (generation.cycles market) := by
  obtain ⟨cycle, _, stored, _, _, _, _, _, complete⟩ := whole.markets market
  have id := snapshot_id stored
  unfold Store.cycleSymbols
  rw [stored]
  constructor
  · intro recorded
    obtain ⟨record, member, rfl⟩ := List.mem_map.mp recorded
    obtain ⟨there, matched⟩ := List.mem_filter.mp member
    obtain ⟨origin, _, _, _, originStored, _, _, _, made, _⟩ := sound.recorded record there
    rw [(of_decide_eq_true matched).1, stored, Option.some_inj] at originStored
    subst originStored
    obtain ⟨_, row, rowIn, from'⟩ := mem_cyclePredictions.mp made
    exact List.mem_map.mpr ⟨row, rowIn, (predictionFromRow_some from').2.2.1.symm⟩
  · intro named
    obtain ⟨row, rowIn, rfl⟩ := List.mem_map.mp named
    exact id ▸ complete.recorded row rowIn

end Stores

section Caught
variable {head after : Generation} {final : Store}

theorem Passed.converged (passed : Passed setting answers store head final after) (clear : Clear answers)
    (sound : Sound setting store) (soundFinal : Sound setting final) :
    Converged setting final after ↔ Unhidden setting store head := by
  have whole := soundFinal.whole after (tip_mem passed.tip)
  have symbols : ∀ symbol, symbol ∈ final.recordedSymbols (after.cycles .b3) after.source ↔
      symbol ∈ store.cycleSymbols (nextCycle setting.calendars store head .b3) := fun symbol => by
    rw [whole.served_iff soundFinal, passed.clearly clear, cycleSymbols_congr passed.snapshots]
  have both : ∀ record, record ∈ store.targetedPredictions head.source →
      (Admissible setting.calendars final head.source record.symbol record.cycleId ↔
        Admissible setting.calendars store head.source record.symbol record.cycleId) := fun record member =>
    admissible_congr sound soundFinal passed.snapshots member (by rwa [passed.targeted])
  have newestIn : ∀ {symbol newest}, store.latestTargetedPrediction head.source symbol = some newest →
      newest ∈ store.targetedPredictions head.source ∧ newest.symbol = symbol := fun found => by
    have member := List.mem_filter.mp (List.mem_reverse.mp (latest_spec found).1)
    exact ⟨member.1, of_decide_eq_true member.2⟩
  constructor
  · intro converged symbol newest found refused unserved record member ofSymbol admissible afterOrder
    subst ofSymbol
    obtain ⟨newestMember, sameSymbol⟩ := newestIn found
    have least := converged record (by rwa [passed.targeted, passed.source])
      (by rw [symbols]; exact unserved) (by rw [passed.source]; exact (both record member).mpr admissible)
      (afterOrder.of_same passed.snapshots passed.ordered)
    refine (AtLeast.of_map (passed.left record.symbol fun other otherFound takeable => ?_) least).of_snapshots
      passed.snapshots.symm
    cases found.symm.trans otherFound
    have own := (both newest newestMember).mp (by rw [sameSymbol]; exact takeable.admissible)
    rw [sameSymbol] at own
    exact absurd own refused
  · intro unhidden record member unserved admissible afterOrder
    rw [passed.source] at member admissible
    rw [passed.targeted] at member
    rw [symbols] at unserved
    obtain ⟨newest, found, bound⟩ := newest_of_record member
    obtain ⟨newestMember, sameSymbol⟩ := newestIn found
    by_cases accepted : Admissible setting.calendars final head.source record.symbol newest.cycleId
    · -- the newest is taken, so something at least as recent as it is held
      have takeable : Takeable setting final head.source store.latestExplicitSelection (after.cycles .b3)
          record.symbol newest := by
        refine ⟨by rw [← passed.source, symbols]; exact unserved, fun authority same => ?_, accepted⟩
        obtain ⟨instant, dated, later⟩ := afterOrder authority (passed.ordered.trans same)
        have targeted : record ∈ final.targetedPredictions head.source := by rwa [passed.targeted]
        have own := soundFinal.record_instant (List.mem_filter.mp targeted).1
        rw [dated, Option.some_inj] at own
        exact (own ▸ later).trans_le bound
      obtain ⟨held, instant, holds, dated, recent⟩ := passed.taken clear record.symbol newest found takeable
      exact ⟨held, instant, sameSymbol ▸ holds, dated, bound.trans recent⟩
    · have refused : ¬ Admissible setting.calendars store head.source record.symbol newest.cycleId := by
        rw [← sameSymbol] at accepted ⊢
        rwa [← both newest newestMember]
      have least := unhidden record.symbol newest found refused unserved record member rfl
        ((both record member).mp admissible)
        (AfterOrder.of_same passed.snapshots.symm passed.ordered.symm afterOrder)
      refine AtLeast.of_map (passed.left record.symbol fun other otherFound takeable => ?_).symm
        (least.of_snapshots passed.snapshots)
      cases found.symm.trans otherFound
      exact absurd takeable.admissible accepted

theorem sound_answers (sound : Sound setting store) :
    Sound { setting with allowed := fun _ _ => True } store :=
  ⟨sound.ids, sound.produced, sound.keys, sound.recorded, sound.placed, sound.ordered, sound.whole⟩

theorem activate_sound (left attempt : ℕ) (sound : Sound setting store) :
    Always answers (activateFrom setting.calendars left attempt) store fun _ final =>
      Sound setting final ∧ Grows store final := by
  have holds : (official { setting with allowed := fun _ _ => True }).Holds
      (activateFrom setting.calendars left attempt) [] store fun result later _ => AutoOutcome [] result later :=
    activateFrom_spec left attempt (sound_answers sound)
  refine (holds.always fun _ _ _ => trivial).mono fun _ final found => ?_
  have own : Sound { setting with allowed := fun _ _ => True } final := found.1.keeps (sound_answers sound)
  exact ⟨⟨own.ids, own.produced, own.keys, own.recorded, own.placed, own.ordered, own.whole⟩, later_grows found.1⟩

end Caught

/-- Nothing is left to activate over the head. -/
structure Idle (setting : Setting Digest) (store : Store) (head : Generation) : Prop where
  sound : Sound setting store
  tip : store.tip = some head
  cycles : ∀ market, nextCycle setting.calendars store head market = head.cycles market
  converged : Converged setting store head
  kept : Kept setting store

section Idleness
variable {head after : Generation} {final : Store}

theorem Passed.idle (passed : Passed setting answers store head final after) (clear : Clear answers)
    (soundFinal : Sound setting final) (grows : Grows store final) (converged : Converged setting final after)
    (kept : Kept setting store) : Idle setting final after where
  sound := soundFinal
  tip := passed.tip
  converged := converged
  kept := fun cycle member kind clocks session clocked known some =>
    (kept cycle (passed.snapshots ▸ member) kind clocks session clocked known some).grows grows
  cycles := by
    intro market
    have taken := passed.clearly clear market
    have newest : final.latestAnalysisSnapshot .universe (universeKey market) =
        store.latestAnalysisSnapshot .universe (universeKey market) := by
      unfold Store.latestAnalysisSnapshot
      rw [passed.snapshots]
    unfold nextCycle at taken ⊢
    rw [newest, passed.source]
    cases found : store.latestAnalysisSnapshot .universe (universeKey market) with
    | none => rfl
    | some cycle =>
      rw [found] at taken
      simp only at taken ⊢
      split at taken
      · -- the cycle taken is the one in force now
        rw [taken, ite_self]
      · rename_i left
        have same : final.decidedOver (after.cycles market) cycle = store.decidedOver (head.cycles market) cycle := by
          unfold Store.decidedOver
          rw [passed.ordered, taken]
        rw [same, if_neg left]

theorem Idle.near (idle : Idle setting store head) (near : Near setting store final) : Idle setting final head where
  sound := near.sound
  tip := near.tip.trans idle.tip
  cycles := fun market => (near.nextCycle setting.calendars head market).trans (idle.cycles market)
  converged := by
    intro record member unserved admissible afterOrder
    rw [near.targeted] at member
    have own := (admissible_congr idle.sound near.sound near.snapshots member (by rwa [near.targeted])).mp admissible
    exact (idle.converged record member (fun served => unserved (near.grows.recordedSymbols served)) own
      (AfterOrder.of_same near.snapshots.symm near.latestExplicit.symm afterOrder)).of_snapshots near.snapshots
  kept := fun cycle member kind clocks session clocked known some =>
    (idle.kept cycle (near.snapshots ▸ member) kind clocks session clocked known some).grows near.grows

theorem Idle.pass (idle : Idle setting store head) (left attempt : ℕ) :
    Always answers (activateFrom setting.calendars (left + 1) attempt) store fun _ final => Near setting store final := by
  refine ((activateFrom_alone left attempt idle.sound idle.tip).and
    (activate_sound (left + 1) attempt idle.sound)).mono fun _ final found => ?_
  obtain ⟨outcome, sound, grows⟩ := found
  rcases outcome with ⟨rfl, _⟩ | ⟨after, passed⟩
  · exact Near.refl idle.sound
  have cycles : ∀ market, after.cycles market = head.cycles market := fun market => by
    rcases passed.cycles market with next | same
    · exact next.trans (idle.cycles market)
    · exact same
  have targeted : ∀ symbol, after.targeted.get? symbol = head.targeted.get? symbol := by
    intro symbol
    refine passed.left symbol fun newest found takeable => ?_
    have member := List.mem_filter.mp (List.mem_reverse.mp (latest_spec found).1)
    have ofSymbol : newest.symbol = symbol := of_decide_eq_true member.2
    subst ofSymbol
    refine (idle.converged newest member.1 (fun served => takeable.unserved ?_) ?_ ?_).of_snapshots passed.snapshots
    · rw [cycles]
      exact grows.recordedSymbols served
    · exact (admissible_congr idle.sound sound passed.snapshots member.1 (by rw [passed.targeted]; exact member.1)).mp
        takeable.admissible
    · exact fun order found => ⟨_, idle.sound.record_instant (List.mem_filter.mp member.1).1,
        takeable.undecided order found⟩
  rcases passed.changed with ⟨_, same⟩ | ⟨_, apart⟩
  · exact ⟨sound, grows, passed.snapshots, same, passed.targeted⟩
  · exact absurd ⟨cycles, targeted⟩ apart

theorem insertPredictions_present {records : List Prediction}
    (present : ∀ record ∈ records, record.key ∈ store.predictions.map Prediction.key) :
    store.insertPredictions records = store := by
  unfold Store.insertPredictions
  refine foldl_keeps (fun next : Store => next = store) records (fun record member next same => ?_) rfl
  subst same
  unfold Store.insertPrediction
  obtain ⟨other, otherIn, key⟩ := List.mem_map.mp (present record member)
  exact if_pos (List.any_eq_true.mpr ⟨other, otherIn, decide_eq_true key⟩)

theorem Idle.record (idle : Idle setting store head) {cycle : Cycle} (kind : cycle.analysisType = .targeted)
    (stored : store.analysisSnapshotById cycle.id = some cycle) :
    Always answers (recordCyclePredictions setting.calendars cycle) store fun _ final => final = store := by
  unfold recordCyclePredictions
  split
  · rename_i market clocks ofMarket clocked
    refine (sessionOf_alone cycle).then fun session next found => ?_
    obtain ⟨rfl, answered, clearly⟩ := found
    split
    · rfl
    rename_i day
    obtain ⟨sameMarket, sameClocks, same, alike, known⟩ := answered day rfl
    cases ofMarket.symm.trans same
    cases clocked.symm.trans alike
    simp only
    split
    · rfl
    rename_i nonempty
    have b3 : market = .b3 := by
      unfold Cycle.market at ofMarket
      rw [kind] at ofMarket
      cases ofMarket
      rfl
    subst b3
    have some : cyclePredictions cycle .b3 clocks day ≠ [] := fun none => nonempty (by rw [none]; rfl)
    obtain ⟨record, recordIn, ofCycle⟩ :=
      idle.kept cycle (List.mem_of_find?_eq_some stored) kind clocks day clocked known some
    obtain ⟨own, _, _, _, ownStored, ownMarket, ownClocked, ownKnown, _, others⟩ := idle.sound.recorded record recordIn
    rw [ofCycle, stored, Option.some_inj] at ownStored
    subst ownStored
    cases ofMarket.symm.trans ownMarket
    cases clocked.symm.trans ownClocked
    cases known.symm.trans ownKnown
    exact insertPredictions_present others
  · rfl

theorem decidedByOrder_alone {cycleId : ℕ} {order : Option Generation} :
    Always answers (decidedByOrder cycleId order) store fun decided final =>
      final = store ∧ (decided = false → ∀ authority, order = some authority →
        ∃ instant, store.instantOf cycleId = some instant ∧ authority.activatedAt < instant) := by
  unfold decidedByOrder
  split
  · exact ⟨rfl, fun _ _ same => nomatch same⟩
  · rename_i order
    unfold predictedAtOrBefore
    refine always_read.mpr ?_
    split
    · exact ⟨rfl, fun same => nomatch same⟩
    · rename_i clocks clocked
      refine ⟨rfl, fun same authority alike => ?_⟩
      cases alike
      obtain ⟨cycle, stored, own⟩ := Option.bind_eq_some_iff.mp clocked
      refine ⟨clocks.1, ?_, not_le.mp (of_decide_eq_false same)⟩
      unfold Store.instantOf
      rw [stored, Option.bind_some, own]
      rfl

theorem Sound.targetedRecord {source : Source} {symbol : String} {cycleId : ℕ} (sound : Sound setting store)
    (admissible : Admissible setting.calendars store source symbol cycleId) :
    ∃ record, store.predictionRecord cycleId symbol source = some record ∧ record ∈ store.targetedPredictions source := by
  obtain ⟨cycle, _, stored, kind, _, _, _, recorded⟩ := admissible
  obtain ⟨record, found⟩ := Option.isSome_iff_exists.mp (predictionRecord_isSome recorded)
  obtain ⟨member, ofCycle, ofSource, _⟩ := predictionRecord_spec found
  refine ⟨record, found, List.mem_filter.mpr ⟨member, decide_eq_true ⟨?_, ofSource, ?_⟩⟩⟩
  all_goals
    obtain ⟨own, market, _, _, ownStored, ofMarket, _, _, made, _⟩ := sound.recorded record member
    rw [ofCycle, stored, Option.some_inj] at ownStored
    subst ownStored
    obtain ⟨_, _, _, from'⟩ := mem_cyclePredictions.mp made
  · rw [(predictionFromRow_some from').2.2.2.2.1]
    unfold Cycle.market at ofMarket
    rw [kind] at ofMarket
    cases ofMarket
    rfl
  · rw [(predictionFromRow_some from').2.2.2.2.2.1]
    unfold Cycle.scope
    rw [kind]
    rfl

theorem Idle.admission (idle : Idle setting store head) {symbol : String} {cycleId : ℕ} (left attempt : ℕ) :
    Always answers (admitFrom setting.calendars symbol cycleId (left + 1) attempt none) store
      fun _ final => final = store := by
  have firstOf : firstTargeted head.targeted.entries = head.targeted := by
    have own := idle.sound.tip_first
    rwa [idle.tip] at own
  unfold admitFrom
  apply always_read.mpr
  rw [idle.sound.head, idle.tip]
  refine always_answer.mpr fun answer given => ?_
  simp only [firstOf]
  split
  · rfl
  split
  · rfl
  apply always_read.mpr
  refine decidedByOrder_alone.then fun decided next found => ?_
  obtain ⟨rfl, after⟩ := found
  split
  · rfl
  rename_i undecided
  have kept : ∀ heldCycle, Always answers (readRecord heldCycle symbol head.source) next fun record final =>
      final = next ∧ record = heldCycle.bind fun held => next.predictionRecord held symbol head.source := by
    intro heldCycle
    cases heldCycle with
    | none => exact ⟨rfl, rfl⟩
    | some held => exact ⟨rfl, rfl⟩
  refine (kept _).then fun heldRecord first found => ?_
  obtain ⟨rfl, heldIs⟩ := found
  refine (kept _).then fun candidate second found => ?_
  obtain ⟨rfl, candidateIs⟩ := found
  split
  · rfl
  rename_i newer
  refine (admissibleTargeted_alone idle.sound).then fun validation third found => ?_
  obtain ⟨rfl, admissible, _⟩ := found
  split
  · rfl
  apply always_read.mpr
  split
  · rfl
  rename_i unserved
  -- the head holds a cycle at least as recent, so the candidate was not newer
  have accepted := admissible rfl
  obtain ⟨record, recordFound, targeted⟩ := idle.sound.targetedRecord accepted
  obtain ⟨_, ofCycle, _, ofSymbol⟩ := predictionRecord_spec recordFound
  have least := idle.converged record targeted (by rw [ofSymbol]; exact unserved)
    (by rw [ofSymbol, ofCycle]; exact accepted)
    (by rw [ofCycle]; exact after (Bool.eq_false_of_not_eq_true undecided))
  obtain ⟨held, instant, holds, dated, bound⟩ := least
  rw [ofSymbol] at holds
  obtain ⟨_, _, _, _, _, _, _, heldRecorded⟩ := (idle.sound.whole head (tip_mem idle.tip)).targeted symbol held holds
  obtain ⟨own, ownFound⟩ := Option.isSome_iff_exists.mp (predictionRecord_isSome heldRecorded)
  obtain ⟨ownIn, ownCycle, _⟩ := predictionRecord_spec ownFound
  have same := idle.sound.record_instant ownIn
  rw [ownCycle, dated, Option.some_inj] at same
  rw [heldIs, candidateIs, holds, Option.bind_some, Option.bind_some, ownFound, recordFound] at newer
  exact absurd (decide_eq_true (same ▸ bound)) newer

theorem hasRecord_alone {symbol : String} {cycleId : ℕ} (sources : List Source) :
    Always answers (hasRecord symbol cycleId sources) store fun _ final => final = store := by
  induction sources with
  | nil => rfl
  | cons source rest ih =>
    unfold hasRecord
    apply always_read.mpr
    split
    · rfl
    · exact ih

theorem Idle.replay (idle : Idle setting store head) (cycleId : ℕ) :
    Always answers (replaySnapshot setting.calendars cycleId) store fun _ final => Near setting store final := by
  unfold replaySnapshot
  apply always_read.mpr
  cases stored : store.analysisSnapshotById cycleId with
  | none => exact Near.refl idle.sound
  | some cycle =>
    have id := snapshot_id stored
    subst id
    simp only
    unfold recordSnapshot
    split
    · exact Near.refl idle.sound
    rename_i market ofMarket
    cases kind : cycle.analysisType with
    | other =>
      unfold Cycle.market at ofMarket
      rw [kind] at ofMarket
      cases ofMarket
    | «universe» =>
      refine (recordUniverse_alone idle.sound kind stored).then fun added next found => ?_
      rw [if_pos rfl]
      exact ((idle.near found.1).pass _ _).mono fun _ final near => found.1.trans near
    | targeted =>
      refine (idle.record kind stored).then fun added next found => ?_
      subst found
      rw [if_neg (by decide)]
      have admitted : ∀ known : Bool, Always answers (if known = true then
          admitTargetedCycle setting.calendars (normalise cycle.entityKey) cycle.id else pure none) next
            fun _ final => Near setting next final := by
        intro known
        split
        · exact (idle.admission _ _).mono fun _ final same => by rw [same]; exact Near.refl idle.sound
        · exact Near.refl idle.sound
      simp only
      split
      · exact admitted true
      · refine (hasRecord_alone officialSources).then fun known final same => ?_
        subst same
        exact admitted known

/-- Passes and replays of stored cycles, one after the other. -/
def again (calendars : Calendars) : List (Option ℕ) → Process Unit
  | [] => pure ()
  | none :: rest => do
      let _ ← activateGenerationIfChanged calendars
      again calendars rest
  | some cycleId :: rest => do
      let _ ← replaySnapshot calendars cycleId
      again calendars rest

theorem Idle.again (idle : Idle setting store head) (calls : List (Option ℕ)) :
    Always answers (again setting.calendars calls) store fun _ final => final.generations = store.generations := by
  induction calls generalizing store with
  | nil => rfl
  | cons call rest ih =>
    cases call with
    | none =>
      refine (idle.pass _ _).then fun _ middle near => ?_
      exact (ih (idle.near near)).mono fun _ final same => same.trans near.generations
    | some cycleId =>
      refine (idle.replay cycleId).then fun _ middle near => ?_
      exact (ih (idle.near near)).mono fun _ final same => same.trans near.generations

end Idleness

variable [DecidableEq Digest]

/-- What interleaved writers keep of the targeted admissions, and what a pass that meets no
other writer comes to. -/
structure TargetedRuns (reached : Reached setting) : Prop where
  kept : setting.recordedFirst → ∀ head ∈ reached.store.generations, ∀ next ∈ reached.store.generations,
    next.previous = some head.id → next.receipt.explicit = false →
    ∀ symbol held, head.targeted.get? symbol = some held → ∃ cycleId, next.targeted.get? symbol = some cycleId ∧
      (cycleId = held ∨ Newer reached.store held cycleId)
  caught : ∀ (answers : Reading → Prop) head, reached.store.latestSelection = some head → Clear answers →
    (∀ answer, answers answer → selectionFreeze (some head) answer.clock = none) →
    Always answers (activateGenerationIfChanged setting.calendars) reached.store fun _ final => ∃ after,
      final.latestSelection = some after ∧ (Converged setting final after ↔ Unhidden setting reached.store head) ∧
      (Unhidden setting reached.store head → Kept setting reached.store → ∀ (others : Reading → Prop) calls,
        Always others (again setting.calendars calls) final fun _ last => last.generations = final.generations)

/-- Targeted admissions are never lost and never go back, and a pass catches up on all that
is not hidden. -/
theorem targeted_runs (reached : Reached setting) : TargetedRuns reached where
  kept := by
    intro hooked head headIn next nextIn linked unmarked symbol held found
    obtain ⟨place, atHead, atNext⟩ := reached.sound.neighbours headIn nextIn linked
    obtain ⟨before, chained⟩ := history reached.later atNext
    have tip := chained.tip atHead
    have fits := chained.automatic unmarked
    have composed := fits.composed.targeted symbol
    rw [tip] at composed
    change _ = (next.receipt.admissions.get? symbol).or (head.targeted.get? symbol) at composed
    rw [composed, found]
    cases admitted : next.receipt.admissions.get? symbol with
    | none => exact ⟨held, rfl, .inl rfl⟩
    | some cycleId =>
      refine ⟨cycleId, rfl, .inr ((later_grows chained.since).newer ?_)⟩
      exact (fits.admitted symbol cycleId admitted).2.2 hooked held (by rw [tip]; exact found)
  caught := by
    intro answers head tip clear thawed
    rw [reached.sound.head] at tip
    refine ((activateFrom_alone _ _ reached.sound tip).and (activate_sound _ _ reached.sound)).mono
      fun _ final found => ?_
    obtain ⟨outcome, sound, grows⟩ := found
    rcases outcome with ⟨_, answer, given, frozen⟩ | ⟨after, passed⟩
    · rw [thawed answer given] at frozen
      cases frozen
    · have converged := passed.converged clear reached.sound sound
      exact ⟨after, sound.head.trans passed.tip, converged, fun unhidden kept others calls =>
        (passed.idle clear sound grows (converged.mpr unhidden) kept).again calls⟩

section Hidden

/-- The sample after a freeze under which two targeted cycles were published: an accepted one,
then one without a price. -/
noncomputable def hiddenReached : Reached sampleSetting :=
  let unpriced (symbol : String) : Cycle :=
    { sampleCycle .targeted symbol symbol 80 with row := some { sampleRow symbol with price := none } }
  let frozen := sampleReached.sample (.freeze 50 100 "freeze") 50
  let accepted := frozen.samplePublish .targeted "WEGE3" "WEGE3" 60
  accepted.sample (.publish (unpriced "WEGE3") (fun row member => by cases List.mem_singleton.mp member; decide)) 81

/-- The pass after the freeze, run alone. -/
noncomputable def hiddenFinal : Store :=
  ((activateGenerationIfChanged sampleSetting.calendars).execute ⟨200, true⟩ [] hiddenReached.store).2.2

/-- The pass leaves the accepted cycle under the refused one, and its replay admits it. -/
theorem older_hidden :
    (¬ ∀ (reached : Reached sampleSetting) (answers : Reading → Prop) head, reached.store.latestSelection = some head →
      Clear answers → (∀ answer, answers answer → selectionFreeze (some head) answer.clock = none) →
      Always answers (activateGenerationIfChanged sampleSetting.calendars) reached.store fun _ final =>
        ∃ after, final.latestSelection = some after ∧ Converged sampleSetting final after) ∧
    ((replaySnapshot sampleSetting.calendars 4).execute ⟨201, true⟩ [] hiddenFinal).2.2.generations.length =
      hiddenFinal.generations.length + 1 := by
  refine ⟨fun claim => ?_, by decide +kernel⟩
  obtain ⟨head, tip⟩ : ∃ head, hiddenReached.store.latestSelection = some head :=
    Option.isSome_iff_exists.mp (by decide +kernel)
  have thawed : selectionFreeze hiddenReached.store.latestSelection 200 = none := by decide +kernel
  have passed := claim hiddenReached (· = ⟨200, true⟩) head tip (fun answer same => by rw [same])
    (fun answer same => by rw [same, ← tip]; exact thawed)
  obtain ⟨after, afterTip, converged⟩ := passed.execute rfl []
  have alone : Always (fun answer : Reading => answer = ⟨200, true⟩)
      (activateFrom sampleSetting.calendars recompositionAttempts 1) hiddenReached.store
        fun _ final => Sound sampleSetting final ∧ Grows hiddenReached.store final :=
    activate_sound recompositionAttempts 1 hiddenReached.sound
  have sound : Sound sampleSetting hiddenFinal := (alone.execute rfl []).1
  change hiddenFinal.latestSelection = some after at afterTip
  change Converged sampleSetting hiddenFinal after at converged
  have source : hiddenFinal.latestSelection.map Generation.source = some .blend := by decide +kernel
  have held : hiddenFinal.latestSelection.map (fun head => head.targeted.get? "WEGE3") = some none := by decide +kernel
  have served : hiddenFinal.latestSelection.map (fun head =>
      decide ("WEGE3" ∈ hiddenFinal.recordedSymbols (head.cycles .b3) .blend)) = some false := by decide +kernel
  rw [afterTip, Option.map_some, Option.some_inj] at source held served
  obtain ⟨record, member, ofSymbol, ofCycle⟩ : ∃ record ∈ hiddenFinal.targetedPredictions .blend,
      record.symbol = "WEGE3" ∧ record.cycleId = 4 := by decide +kernel
  obtain ⟨cycle, stored, accepted⟩ := any_some_of_true (show (hiddenFinal.analysisSnapshotById 4).any
    (fun cycle => decide (cycle.analysisType = .targeted ∧ acceptable sampleSetting.calendars .blend cycle = true ∧
      "WEGE3" ∈ hiddenFinal.recordedSymbols 4 .blend)) = true by decide +kernel)
  have ordered : hiddenFinal.latestExplicitSelection.map Generation.activatedAt = some 50 := by decide +kernel
  have dated : hiddenFinal.instantOf 4 = some 60 := by decide +kernel
  have least := converged record (by rw [source]; exact member) (by
    rw [source, ofSymbol]
    exact of_decide_eq_false served) (by
    rw [source, ofSymbol, ofCycle]
    exact (sound.admissible_iff stored).mpr (of_decide_eq_true accepted)) (by
    intro order found
    rw [found, Option.map_some, Option.some_inj] at ordered
    rw [ofCycle, ordered]
    exact ⟨60, dated, by decide⟩)
  obtain ⟨heldCycle, _, found, _⟩ := least
  rw [ofSymbol, held] at found
  cases found

end Hidden

end C3po.Official
