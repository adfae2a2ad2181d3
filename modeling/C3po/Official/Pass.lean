import C3po.Official.Orders

/-! An activation pass that meets no other writer.

Alone, the pass is a function of the store: it takes of each market the newest acceptable
cycle the order in force did not decide over, and of each symbol the newest targeted record
where its cycle is admissible.
-/

set_option autoImplicit false

namespace C3po.Official
open C3po.Library
open C3po.Library.Program (Always always_bind always_read always_answer)
open C3po.Prices (normalise)

variable {Digest : Type} {setting : Setting Digest} {store : Store} {answers : Reading → Prop}

def Clear (answers : Reading → Prop) : Prop := ∀ answer, answers answer → answer.calendar = true

def Cycle.session (calendars : Calendars) (cycle : Cycle) : Option Int :=
  match cycle.market, cycle.clocks with
  | some market, some clocks => calendars.sessions market clocks.1
  | _, _ => none

/-- What the validator asks of a cycle itself, its records aside. -/
def acceptable (calendars : Calendars) (source : Source) (cycle : Cycle) : Bool :=
  !cycle.cycleRows.isEmpty && cycle.cycleRows.all (usable · source) && (cycle.session calendars).isSome

theorem any_some_of_true {A : Type} {test : A → Bool} {option : Option A} (holds : option.any test = true) :
    ∃ value, option = some value ∧ test value = true := by
  cases option with
  | none => cases holds
  | some value => exact ⟨value, rfl, holds⟩

section Cycles
variable {calendars : Calendars} {source : Source} {cycle : Cycle}

theorem acceptable_iff : acceptable calendars source cycle = true ↔
    cycle.cycleRows ≠ [] ∧ (∀ row ∈ cycle.cycleRows, usable row source = true) ∧ (cycle.session calendars).isSome := by
  simp [acceptable, and_assoc]

theorem session_eq {market : Market} {clocks : Int × Int × Option String} (ofMarket : cycle.market = some market)
    (clocked : cycle.clocks = some clocks) : cycle.session calendars = calendars.sessions market clocks.1 := by
  unfold Cycle.session
  rw [ofMarket, clocked]

theorem session_some {day : Int} (known : cycle.session calendars = some day) : ∃ market clocks,
    cycle.market = some market ∧ cycle.clocks = some clocks ∧ calendars.sessions market clocks.1 = some day := by
  unfold Cycle.session at known
  split at known
  · rename_i market clocks ofMarket clocked
    exact ⟨market, clocks, ofMarket, clocked, known⟩
  · cases known

theorem acceptable_of_valid {recorded : List String} {session : Option Int} (answered : Answered calendars cycle session)
    (ofMarket : cycle.market.isSome) (valid : (cycleValidation cycle recorded source session).valid = true) :
    acceptable calendars source cycle = true := by
  obtain ⟨rows, usable, _⟩ := validation_valid valid
  obtain ⟨_, known, _⟩ := validation_session valid ofMarket
  obtain ⟨day, same⟩ := Option.isSome_iff_exists.mp known
  obtain ⟨market, clocks, own, clocked, dated⟩ := answered day same
  refine acceptable_iff.mpr ⟨rows, usable, ?_⟩
  rw [session_eq own clocked, dated]
  rfl

theorem valid_of_acceptable {recorded : List String} (accepted : acceptable calendars source cycle = true)
    (all : ∀ row ∈ cycle.cycleRows, normalise row.symbol ∈ recorded) :
    (cycleValidation cycle recorded source (cycle.session calendars)).valid = true := by
  obtain ⟨rows, usable, known⟩ := acceptable_iff.mp accepted
  obtain ⟨day, same⟩ := Option.isSome_iff_exists.mp known
  obtain ⟨market, clocks, ofMarket, clocked, _⟩ := session_some same
  have none : ∀ row ∈ cycle.cycleRows, Official.usable row source = true → normalise row.symbol ∈ recorded :=
    fun row member _ => all row member
  simp only [cycleValidation, ofMarket, clocked, same, Option.isSome_some, Bool.and_self, if_true, Bool.and_eq_true,
    Bool.not_eq_true', List.isEmpty_eq_false_iff, List.isEmpty_iff, List.filter_eq_nil_iff, Option.isNone_some,
    Bool.false_or, and_true, decide_eq_true_eq, not_and, not_not]
  exact ⟨⟨rows, fun row member => by rw [usable row member]; decide⟩, none⟩

theorem predictionFromRow_usable (cycle : Cycle) {row : Row} (valid : usable row source = true) (market : Market)
    (clocks : Int × Int × Option String) (session : Int) :
    ∃ record, predictionFromRow cycle market clocks session source row = some record := by
  simp only [usable, Bool.and_eq_true, Bool.or_eq_true, ne_eq, decide_not, Bool.not_eq_true',
    decide_eq_false_iff_not] at valid
  obtain ⟨⟨⟨⟨⟨symbol, _⟩, tp⟩, buyIn⟩, internalTp⟩, internal⟩ := valid
  obtain ⟨tp, tpFound⟩ := Option.isSome_iff_exists.mp tp
  obtain ⟨buyIn, buyInFound⟩ := Option.isSome_iff_exists.mp buyIn
  obtain ⟨internalTp, internalTpFound⟩ := Option.isSome_iff_exists.mp internalTp
  unfold predictionFromRow
  rw [if_neg symbol]
  cases source with
  | blend => exact ⟨_, by rw [rowNumbers, tpFound, buyInFound]; rfl⟩
  | internal =>
    have internalBuyIn : (positive row.internalBuyIn).isSome := by
      rcases internal with apart | both
      · exact absurd rfl apart
      · exact both.1
    obtain ⟨internalBuyIn, internalBuyInFound⟩ := Option.isSome_iff_exists.mp internalBuyIn
    exact ⟨_, by rw [rowNumbers, internalTpFound, internalBuyInFound]; rfl⟩

theorem cyclePredictions_acceptable (accepted : acceptable calendars source cycle = true) (market : Market)
    (clocks : Int × Int × Option String) (session : Int) : cyclePredictions cycle market clocks session ≠ [] := by
  obtain ⟨rows, usable, _⟩ := acceptable_iff.mp accepted
  obtain ⟨row, member⟩ := List.exists_mem_of_ne_nil _ rows
  obtain ⟨record, made⟩ := predictionFromRow_usable cycle (usable row member) market clocks session
  exact List.ne_nil_of_mem (mem_cyclePredictions.mpr ⟨source, row, member, made⟩)

end Cycles

section Records
variable (sound : Sound setting store)
include sound

theorem Sound.recordedRow {cycle : Cycle} {source : Source} {row : Row} (stored : store.analysisSnapshotById cycle.id = some cycle)
    (known : HasRecord store cycle.id) (member : row ∈ cycle.cycleRows) (valid : usable row source = true) :
    normalise row.symbol ∈ store.recordedSymbols cycle.id source := by
  obtain ⟨record, recordIn, ofCycle⟩ := known
  obtain ⟨own, market, clocks, session, ownStored, ofMarket, clocked, dated, _, others⟩ := sound.recorded record recordIn
  rw [ofCycle, stored, Option.some_inj] at ownStored
  subst ownStored
  obtain ⟨made, from'⟩ := predictionFromRow_usable cycle valid market clocks session
  obtain ⟨kept, keptIn, key⟩ := List.mem_map.mp (others made (mem_cyclePredictions.mpr ⟨source, row, member, from'⟩))
  obtain ⟨ofId, ofSource, ofSymbol, _⟩ := predictionFromRow_some from'
  simp only [Prediction.key, Prod.mk.injEq] at key
  obtain ⟨sameSource, _, _, sameSymbol, sameId⟩ := key
  refine List.mem_map.mpr ⟨kept, List.mem_filter.mpr ⟨keptIn, decide_eq_true ⟨sameId.trans ofId, sameSource.trans ofSource⟩⟩, ?_⟩
  exact sameSymbol.trans ofSymbol

theorem Sound.complete_of_acceptable {calendars : Calendars} {cycle : Cycle} {source : Source}
    (stored : store.analysisSnapshotById cycle.id = some cycle) (known : HasRecord store cycle.id)
    (accepted : acceptable calendars source cycle = true) : Complete store source cycle := by
  obtain ⟨rows, usable, _⟩ := acceptable_iff.mp accepted
  exact ⟨rows, usable, fun row member => sound.recordedRow stored known member (usable row member)⟩

theorem Sound.admissible_iff {source : Source} {symbol : String} {cycleId : ℕ} {cycle : Cycle}
    (stored : store.analysisSnapshotById cycleId = some cycle) :
    Admissible setting.calendars store source symbol cycleId ↔ cycle.analysisType = .targeted ∧
      acceptable setting.calendars source cycle = true ∧ symbol ∈ store.recordedSymbols cycleId source := by
  have id := snapshot_id stored
  subst id
  constructor
  · rintro ⟨other, clocks, otherStored, kind, clocked, known, complete, recorded⟩
    cases stored.symm.trans otherStored
    refine ⟨kind, acceptable_iff.mpr ⟨complete.rows, complete.usable, ?_⟩, recorded⟩
    unfold Cycle.session Cycle.market
    rw [kind, clocked]
    exact known
  · rintro ⟨kind, accepted, recorded⟩
    obtain ⟨day, same⟩ := Option.isSome_iff_exists.mp (acceptable_iff.mp accepted).2.2
    obtain ⟨market, clocks, ofMarket, clocked, dated⟩ := session_some same
    obtain ⟨record, member, _⟩ := List.mem_map.mp recorded
    obtain ⟨there, matched⟩ := List.mem_filter.mp member
    have known : HasRecord store cycle.id := ⟨record, there, (of_decide_eq_true matched).1⟩
    have b3 : market = .b3 := by
      unfold Cycle.market at ofMarket
      rw [kind] at ofMarket
      cases ofMarket
      rfl
    subst b3
    exact ⟨cycle, clocks, stored, kind, clocked, by rw [dated]; rfl, sound.complete_of_acceptable stored known accepted,
      recorded⟩

end Records

/-- A later store with the same cycles, generations and targeted records. -/
structure Near (setting : Setting Digest) (store next : Store) : Prop where
  sound : Sound setting next
  grows : Grows store next
  snapshots : next.snapshots = store.snapshots
  generations : next.generations = store.generations
  targeted : ∀ source, next.targetedPredictions source = store.targetedPredictions source

theorem Near.refl (sound : Sound setting store) : Near setting store store :=
  ⟨sound, Grows.refl store, rfl, rfl, fun _ => rfl⟩

theorem Near.trans {middle next : Store} (first : Near setting store middle) (second : Near setting middle next) :
    Near setting store next :=
  ⟨second.sound, first.grows.trans second.grows, second.snapshots.trans first.snapshots,
    second.generations.trans first.generations, fun source => (second.targeted source).trans (first.targeted source)⟩

section Nearby
variable {next : Store} (near : Near setting store next)
include near

theorem Near.tip : next.tip = store.tip := tip_congr near.generations

theorem Near.latestExplicit : next.latestExplicitSelection = store.latestExplicitSelection := by
  unfold Store.latestExplicitSelection
  rw [near.generations]

theorem Near.latestSnapshot (analysisType : AnalysisType) (entityKey : String) :
    next.latestAnalysisSnapshot analysisType entityKey = store.latestAnalysisSnapshot analysisType entityKey := by
  unfold Store.latestAnalysisSnapshot
  rw [near.snapshots]

theorem Near.latestTargeted (source : Source) (symbol : String) :
    next.latestTargetedPrediction source symbol = store.latestTargetedPrediction source symbol := by
  unfold Store.latestTargetedPrediction
  rw [near.targeted]

end Nearby

section Parts

theorem sessionOf_alone (cycle : Cycle) : Always answers (sessionOf setting.calendars cycle) store fun session next =>
    next = store ∧ Answered setting.calendars cycle session ∧ (Clear answers → session = cycle.session setting.calendars) := by
  unfold sessionOf
  split
  · rename_i market clocks ofMarket clocked
    apply always_answer.mpr
    intro answer given
    refine ⟨rfl, fun day found => ?_, fun clear => ?_⟩
    · split at found
      · exact ⟨market, clocks, ofMarket, clocked, found⟩
      · cases found
    · rw [if_pos (clear answer given), session_eq ofMarket clocked]
  · rename_i apart
    refine ⟨rfl, (fun _ found => nomatch found : Answered setting.calendars cycle none), fun _ => ?_⟩
    cases found : cycle.session setting.calendars with
    | none => rfl
    | some day =>
      obtain ⟨market, clocks, ofMarket, clocked, _⟩ := session_some found
      exact (apart market clocks ofMarket clocked).elim

theorem insertPredictions_targeted {records : List Prediction} (apart : ∀ record ∈ records, record.scope ≠ .targeted)
    (source : Source) : (store.insertPredictions records).targetedPredictions source = store.targetedPredictions source := by
  unfold Store.insertPredictions
  refine foldl_keeps (fun next : Store => next.targetedPredictions source = store.targetedPredictions source)
    records (fun record member next same => ?_) rfl
  unfold Store.insertPrediction
  split
  · exact same
  · unfold Store.targetedPredictions at same ⊢
    rw [List.filter_append, same]
    simp [apart record member]

theorem recordUniverse_alone {cycle : Cycle} (sound : Sound setting store) (kind : cycle.analysisType = .universe)
    (stored : store.analysisSnapshotById cycle.id = some cycle) :
    Always answers (recordCyclePredictions setting.calendars cycle) store fun added next => Near setting store next ∧
      (added = 0 → next.predictions = store.predictions) ∧ ∀ source, Clear answers → acceptable setting.calendars source cycle = true → HasRecord next cycle.id := by
  have unanswered : ∀ {P : Prop}, cycle.session setting.calendars = none →
      ∀ source, acceptable setting.calendars source cycle = true → P := fun none source accepted => by
    have known := (acceptable_iff.mp accepted).2.2
    rw [none] at known
    cases known
  unfold recordCyclePredictions
  split
  · rename_i market clocks ofMarket clocked
    refine (sessionOf_alone cycle).then fun session next found => ?_
    obtain ⟨rfl, answered, clearly⟩ := found
    split
    · exact ⟨Near.refl sound, fun _ => rfl, fun source clear accepted => unanswered (clearly clear).symm source accepted⟩
    rename_i day
    obtain ⟨sameMarket, sameClocks, same, alike, known⟩ := answered day rfl
    cases ofMarket.symm.trans same
    cases clocked.symm.trans alike
    simp only
    split
    · rename_i empty
      exact ⟨Near.refl sound, fun _ => rfl, fun source _ accepted =>
        absurd (List.isEmpty_iff.mp empty) (cyclePredictions_acceptable accepted market clocks day)⟩
    · rename_i nonempty
      have move : Move setting next _ := .recorded next stored ofMarket clocked known
      have some : cyclePredictions cycle market clocks day ≠ [] := fun none => nonempty (by rw [none]; rfl)
      refine ⟨⟨sound.kept move, move.grows, (insertPredictions_keeps _ _).1, (insertPredictions_keeps _ _).2,
        insertPredictions_targeted fun record member => ?_⟩, fun none => ?_, fun _ _ _ => hasRecord_inserted some⟩
      · obtain ⟨_, row, _, made⟩ := mem_cyclePredictions.mp member
        rw [(predictionFromRow_some made).2.2.2.2.2.1]
        unfold Cycle.scope
        rw [if_pos kind]
        decide
      · exact (move.grows.predictions.eq_of_length_le (Nat.sub_eq_zero_iff_le.mp none)).symm
  · rename_i apart
    refine ⟨Near.refl sound, fun _ => rfl, fun source _ accepted => unanswered ?_ source accepted⟩
    cases found : cycle.session setting.calendars with
    | none => rfl
    | some day =>
      obtain ⟨market, clocks, ofMarket, clocked, _⟩ := session_some found
      exact (apart market clocks ofMarket clocked).elim

/-- The candidate of a market is its newest universe cycle, as the validator finds it. -/
def CandidateOf (setting : Setting Digest) (answers : Reading → Prop) (source : Source) (store : Store) (market : Market)
    (item : Option (Validation × String)) : Prop :=
  match store.latestAnalysisSnapshot .universe (universeKey market) with
  | none => item = none
  | some cycle => ∃ validation version, item = some (validation, version) ∧ validation.cycleId = cycle.id ∧
      validation.predictionInstant = cycle.clocks.map (·.1) ∧
      (validation.valid = true → acceptable setting.calendars source cycle = true) ∧
      (Clear answers → acceptable setting.calendars source cycle = true → validation.valid = true)

theorem selectableCycle_alone {source : Source} {market : Market} (sound : Sound setting store) :
    Always answers (selectableCycle setting.calendars source market) store fun result next =>
      Near setting store next ∧ ∃ item, result = .ok item ∧ CandidateOf setting answers source store market item := by
  unfold selectableCycle CandidateOf
  apply always_read.mpr
  cases found : store.latestAnalysisSnapshot .universe (universeKey market) with
  | none => exact ⟨Near.refl sound, none, rfl, rfl⟩
  | some cycle =>
    obtain ⟨stored, kind, key⟩ := latestSnapshot_spec sound found
    have ofMarket : cycle.market = some market := by
      unfold Cycle.market
      rw [kind, key, universeKey_market]
    apply always_read.mpr
    -- the validation of the cycle, whatever was recorded of it
    have validated : ∀ recorded next, Near setting store next →
        (Clear answers → acceptable setting.calendars source cycle = true →
          ∀ row ∈ cycle.cycleRows, normalise row.symbol ∈ recorded) →
        Always answers (do
            let session ← sessionOf setting.calendars cycle
            pure (Except.ok (some (cycleValidation cycle recorded source session, cycle.sourceVersion))))
          next fun (result : Except Unit (Option (Validation × String))) next => Near setting store next ∧
            ∃ item, result = .ok item ∧ ∃ validation version, item = some (validation, version) ∧
              validation.cycleId = cycle.id ∧ validation.predictionInstant = cycle.clocks.map (·.1) ∧
              (validation.valid = true → acceptable setting.calendars source cycle = true) ∧
              (Clear answers → acceptable setting.calendars source cycle = true → validation.valid = true) := by
      intro recorded next near known
      refine (sessionOf_alone cycle).then fun session last facts => ?_
      obtain ⟨rfl, answered, clearly⟩ := facts
      refine ⟨near, _, rfl, _, _, rfl, rfl, rfl, ?_, fun clear accepted => ?_⟩
      · exact acceptable_of_valid answered (by rw [ofMarket]; rfl)
      · rw [clearly clear]
        exact valid_of_acceptable accepted (known clear accepted)
    have recordedRows : ∀ next, Near setting store next → HasRecord next cycle.id →
        acceptable setting.calendars source cycle = true →
        ∀ row ∈ cycle.cycleRows, normalise row.symbol ∈ next.recordedSymbols cycle.id source :=
      fun next near known accepted row member => near.sound.recordedRow (near.grows.snapshot stored) known member
        ((acceptable_iff.mp accepted).2.1 row member)
    have hasRecord : ∀ next : Store, (next.recordedSymbols cycle.id source).isEmpty = false → HasRecord next cycle.id := by
      intro next some
      obtain ⟨symbol, member⟩ := List.exists_mem_of_ne_nil _ (List.isEmpty_eq_false_iff.mp some)
      obtain ⟨record, recordIn, _⟩ := List.mem_map.mp member
      obtain ⟨there, matched⟩ := List.mem_filter.mp recordIn
      exact ⟨record, there, (of_decide_eq_true matched).1⟩
    simp only
    split
    · rename_i absent
      refine (recordUniverse_alone sound kind stored).then fun added next facts => ?_
      obtain ⟨near, same, known⟩ := facts
      split
      · exact validated _ next near fun clear accepted => recordedRows next near (known source clear accepted) accepted
      · -- nothing new was recorded, so the records were there
        rename_i none
        refine validated _ next near fun clear accepted => ?_
        have alike := same (Nat.eq_zero_of_not_pos none)
        obtain ⟨record, member, ofCycle⟩ := known source clear accepted
        exact recordedRows store (Near.refl sound) ⟨record, alike ▸ member, ofCycle⟩ accepted
    · rename_i present
      refine validated _ store (Near.refl sound) fun clear accepted => ?_
      obtain ⟨rows, usable, _⟩ := acceptable_iff.mp accepted
      obtain ⟨row, member⟩ := List.exists_mem_of_ne_nil _ rows
      have recordable : (cycle.cycleRows.any fun row => Official.usable row source) = true :=
        List.any_eq_true.mpr ⟨row, member, usable row member⟩
      rw [recordable, Bool.and_true, Bool.not_eq_true] at present
      exact recordedRows store (Near.refl sound) (hasRecord store present) accepted

theorem forMarkets_alone {A : Type} {choose : Market → Process (Except Unit A)} (facts : Market → A → Prop)
    (sound : Sound setting store)
    (each : ∀ market next, Near setting store next → Always answers (choose market) next fun result last =>
      Near setting next last ∧ ∃ value, result = .ok value ∧ facts market value) :
    Always answers (forMarkets choose) store fun result next =>
      Near setting store next ∧ ∃ values, result = .ok values ∧ ∀ market, facts market (values market) := by
  unfold forMarkets
  refine (each .b3 store (Near.refl sound)).then fun b3 first found => ?_
  obtain ⟨near, b3, rfl, factB3⟩ := found
  refine (each .nasdaq first near).then fun nasdaq second found => ?_
  obtain ⟨near', nasdaq, rfl, factNasdaq⟩ := found
  refine (each .nyse second (near.trans near')).then fun nyse third found => ?_
  obtain ⟨near'', nyse, rfl, factNyse⟩ := found
  refine ⟨near.trans (near'.trans near''), _, rfl, fun market => ?_⟩
  cases market with
  | b3 => exact factB3
  | nasdaq => exact factNasdaq
  | nyse => exact factNyse

/-- Whether the order in force decided over another cycle than the one in force. -/
def Store.decidedOver (store : Store) (inForce : ℕ) (cycle : Cycle) : Bool :=
  cycle.id ≠ inForce && store.latestExplicitSelection.any fun order =>
    cycle.clocks.any fun clocks => clocks.1 ≤ order.activatedAt

def nextCycle (calendars : Calendars) (store : Store) (head : Generation) (market : Market) : ℕ :=
  match store.latestAnalysisSnapshot .universe (universeKey market) with
  | none => head.cycles market
  | some cycle =>
      if acceptable calendars head.source cycle && !store.decidedOver (head.cycles market) cycle then cycle.id
      else head.cycles market

theorem Near.nextCycle {next : Store} (near : Near setting store next) (calendars : Calendars) (head : Generation)
    (market : Market) : nextCycle calendars next head market = nextCycle calendars store head market := by
  unfold Official.nextCycle Store.decidedOver
  rw [near.latestSnapshot, near.latestExplicit]

theorem chooseMarket_alone {head : Generation} {candidates : Market → Option (Validation × String)} {market : Market}
    (candidate : CandidateOf setting answers head.source store market (candidates market)) {next : Store} :
    Always answers (chooseMarket (some head) store.latestExplicitSelection candidates market) next fun result last =>
      last = next ∧ ∃ choice, result = .ok choice ∧
        (choice.cycle = nextCycle setting.calendars store head market ∨ choice.cycle = head.cycles market) ∧
        (Clear answers → choice.cycle = nextCycle setting.calendars store head market) := by
  unfold CandidateOf at candidate
  unfold chooseMarket nextCycle
  cases found : store.latestAnalysisSnapshot .universe (universeKey market) with
  | none =>
    rw [found] at candidate
    simp only [candidate, Option.any_none, Option.filter_none, Option.map_some]
    exact always_read.mpr ⟨rfl, _, rfl, .inr rfl, fun _ => rfl⟩
  | some cycle =>
    rw [found] at candidate
    obtain ⟨validation, version, item, ofCycle, instant, accepted, valid⟩ := candidate
    have held : heldByOrder (some (head.cycles market)) store.latestExplicitSelection validation =
        (validation.valid && store.decidedOver (head.cycles market) cycle) := by
      unfold heldByOrder Store.decidedOver
      rw [instant, ofCycle]
      cases store.latestExplicitSelection with
      | none => simp
      | some order =>
        cases cycle.clocks with
        | none => simp
        | some clocks => simp [Bool.and_assoc]
    simp only [item, Option.any_some, Option.map_some, held]
    cases validity : validation.valid with
    | false =>
      rw [Option.filter_some, if_neg (by simp [validity])]
      refine always_read.mpr ⟨rfl, _, rfl, .inr rfl, fun clear => ?_⟩
      have refused : acceptable setting.calendars head.source cycle = false := by
        by_contra other
        rw [valid clear (Bool.eq_true_of_not_eq_false other)] at validity
        cases validity
      rw [refused, Bool.false_and]
      rfl
    | true =>
      rw [accepted validity, Bool.true_and, Bool.true_and]
      cases decided : store.decidedOver (head.cycles market) cycle with
      | true =>
        rw [Option.filter_some, if_neg (by simp [validity])]
        exact always_read.mpr ⟨rfl, _, rfl, .inr rfl, fun _ => rfl⟩
      | false =>
        rw [Option.filter_some, if_pos (by simp [validity])]
        exact ⟨rfl, _, rfl, .inl ofCycle, fun _ => ofCycle⟩

theorem admissibleTargeted_alone {symbol : String} {cycleId : ℕ} {source : Source} (sound : Sound setting store) :
    Always answers (admissibleTargeted setting.calendars symbol cycleId source) store fun result next =>
      next = store ∧ (result.isSome → Admissible setting.calendars store source symbol cycleId) ∧
        (Clear answers → Admissible setting.calendars store source symbol cycleId → result.isSome) := by
  unfold admissibleTargeted
  apply always_read.mpr
  cases stored : store.analysisSnapshotById cycleId with
  | none =>
    refine ⟨rfl, (fun some => nomatch some), fun _ admissible => ?_⟩
    obtain ⟨cycle, _, other, _⟩ := admissible
    rw [stored] at other
    cases other
  | some cycle =>
    rw [sound.admissible_iff stored]
    simp only
    split
    · rename_i apart
      exact ⟨rfl, (fun some => nomatch some), fun _ facts => absurd facts.1 apart⟩
    rename_i kind
    have kind := not_not.mp kind
    have id := snapshot_id stored
    apply always_read.mpr
    refine (sessionOf_alone cycle).then fun session next facts => ?_
    obtain ⟨rfl, answered, clearly⟩ := facts
    have ofMarket : cycle.market.isSome := by
      unfold Cycle.market
      rw [kind]
      rfl
    split
    · rename_i refused
      refine ⟨rfl, (fun some => nomatch some), fun clear facts => ?_⟩
      obtain ⟨_, accepted, recorded⟩ := facts
      rcases refused with invalid | absent
      · obtain ⟨record, member, _⟩ := List.mem_map.mp recorded
        obtain ⟨there, matched⟩ := List.mem_filter.mp member
        have known : HasRecord next cycle.id := ⟨record, there, (of_decide_eq_true matched).1.trans id.symm⟩
        have complete := sound.complete_of_acceptable (id.symm ▸ stored) known accepted
        rw [clearly clear, valid_of_acceptable accepted fun row member => id ▸ complete.recorded row member] at invalid
        cases invalid
      · exact absurd recorded absent
    · rename_i passed
      obtain ⟨valid, recorded⟩ := not_or.mp passed
      exact ⟨rfl, fun _ => ⟨kind, acceptable_of_valid answered ofMarket (Bool.not_eq_false _ ▸ valid), not_not.mp recorded⟩,
        fun _ _ => rfl⟩

end Parts

section Recovery
variable {source : Source} {order : Option Generation} {carried : Dict String ℕ} {universeCycle : ℕ}

/-- A map holds, for the symbol of a record, a cycle at least as recent as the record's. -/
def AtLeast (store : Store) (targeted : Dict String ℕ) (record : Prediction) : Prop :=
  ∃ held instant, targeted.get? record.symbol = some held ∧ store.instantOf held = some instant ∧
    record.predictionInstant ≤ instant

/-- Every cycle of a map is admissible for its symbol. -/
def AllAdmissible (setting : Setting Digest) (store : Store) (source : Source) (targeted : Dict String ℕ) : Prop :=
  ∀ symbol cycleId, targeted.get? symbol = some cycleId → Admissible setting.calendars store source symbol cycleId

/-- A symbol and its newest record may be taken: the universe does not serve it, the order
did not decide over it and its cycle is admissible. -/
structure Takeable (setting : Setting Digest) (store : Store) (source : Source) (order : Option Generation)
    (universeCycle : ℕ) (symbol : String) (newest : Prediction) : Prop where
  unserved : symbol ∉ store.recordedSymbols universeCycle source
  undecided : ∀ authority, order = some authority → authority.activatedAt < newest.predictionInstant
  admissible : Admissible setting.calendars store source symbol newest.cycleId

/-- A turn leaves the map, or takes a cycle newer than the one held. -/
def Turn (setting : Setting Digest) (store : Store) (source : Source) (order : Option Generation) (universeCycle : ℕ)
    (entry : String × Prediction) (before after : Dict String ℕ) : Prop :=
  after = before ∨ (after = before.insert entry.1 entry.2.cycleId ∧
    Takeable setting store source order universeCycle entry.1 entry.2 ∧
    ∀ held instant, before.get? entry.1 = some held → store.instantOf held = some instant →
      instant < entry.2.predictionInstant)

section Turns
variable {entry : String × Prediction} {before after : Dict String ℕ}
  (turn : Turn setting store source order universeCycle entry before after)
include turn

theorem Turn.admissible (all : AllAdmissible setting store source before) : AllAdmissible setting store source after := by
  rcases turn with rfl | ⟨rfl, takeable, _⟩
  · exact all
  · intro symbol cycleId held
    rw [Dict.get?_insert] at held
    split at held
    · rename_i here
      cases held
      rw [here]
      exact takeable.admissible
    · exact all symbol cycleId held

theorem Turn.atLeast {record : Prediction} (instant : store.instantOf entry.2.cycleId = some entry.2.predictionInstant)
    (least : AtLeast store before record) : AtLeast store after record := by
  rcases turn with rfl | ⟨rfl, _, newer⟩
  · exact least
  · obtain ⟨held, before', found, dated, bound⟩ := least
    unfold AtLeast
    rw [Dict.get?_insert]
    split
    · rename_i here
      rw [here] at found
      exact ⟨_, _, rfl, instant, bound.trans (newer held before' found dated).le⟩
    · exact ⟨held, before', found, dated, bound⟩

end Turns

variable (sound : Sound setting store)
include sound

theorem Sound.latestTargeted {symbol : String} {newest : Prediction}
    (found : store.latestTargetedPrediction source symbol = some newest) :
    newest.symbol = symbol ∧ normalise symbol = symbol ∧
      store.instantOf newest.cycleId = some newest.predictionInstant := by
  obtain ⟨member, _, ofSource, _, ofSymbol⟩ := latestTargetedPrediction_spec found
  refine ⟨ofSymbol, ?_, sound.record_instant member⟩
  have recorded : symbol ∈ store.recordedSymbols newest.cycleId source :=
    List.mem_map.mpr ⟨newest, List.mem_filter.mpr ⟨member, decide_eq_true ⟨rfl, ofSource⟩⟩, ofSymbol⟩
  exact sound.clean recorded

theorem recoverSymbol_alone {found : Recovery} {entry : String × Prediction}
    (newest : store.latestTargetedPrediction source entry.1 = some entry.2)
    (held : AllAdmissible setting store source found.targeted) :
    Always answers (recoverSymbol setting.calendars (store.recordedSymbols universeCycle source) order source found entry)
      store fun after final => final = store ∧
        Turn setting store source order universeCycle entry found.targeted after.targeted ∧
        (Clear answers → Takeable setting store source order universeCycle entry.1 entry.2 →
          AtLeast store after.targeted entry.2) := by
  obtain ⟨ofSymbol, clean, instant⟩ := sound.latestTargeted newest
  unfold recoverSymbol
  rw [clean]
  simp only
  split
  · rename_i skipped
    refine ⟨rfl, .inl rfl, fun _ takeable => ?_⟩
    rcases skipped with served | own
    · exact absurd served takeable.unserved
    · exact ⟨_, _, ofSymbol ▸ own, instant, le_rfl⟩
  split
  · rename_i decided
    refine ⟨rfl, .inl rfl, fun _ takeable => ?_⟩
    obtain ⟨authority, same, bound⟩ := any_some_of_true decided
    exact absurd (takeable.undecided authority same) (not_lt.mpr (of_decide_eq_true bound))
  rename_i unskipped undecided
  have after : ∀ authority, order = some authority → authority.activatedAt < entry.2.predictionInstant := by
    intro authority same
    rw [same, Option.any_some, decide_eq_true_eq, not_le] at undecided
    exact undecided
  -- the record held, if any, and the instant of its cycle
  have heldRecord : Always answers (readRecord (found.targeted.get? entry.1) entry.1 source) store fun admitted final =>
      final = store ∧ ∀ kept, admitted = some kept ↔ ∃ heldCycle, found.targeted.get? entry.1 = some heldCycle ∧
        store.predictionRecord heldCycle entry.1 source = some kept := by
    unfold readRecord
    cases own : found.targeted.get? entry.1 with
    | none => exact ⟨rfl, fun kept => ⟨fun same => (by cases same), by rintro ⟨_, same, _⟩; cases same⟩⟩
    | some heldCycle =>
      refine ⟨rfl, fun kept => ⟨fun same => ⟨heldCycle, rfl, same⟩, ?_⟩⟩
      rintro ⟨_, same, stored⟩
      cases same
      exact stored
  refine heldRecord.then fun admitted final facts => ?_
  obtain ⟨rfl, ofHeld⟩ := facts
  split
  · rename_i older
    refine ⟨rfl, .inl rfl, fun _ _ => ?_⟩
    obtain ⟨kept, same, bound⟩ := any_some_of_true older
    obtain ⟨heldCycle, own, stored⟩ := (ofHeld kept).mp same
    obtain ⟨member, ofCycle, _⟩ := predictionRecord_spec stored
    exact ⟨heldCycle, _, ofSymbol ▸ own, ofCycle ▸ sound.record_instant member, of_decide_eq_true bound⟩
  rename_i notOlder
  refine (admissibleTargeted_alone sound).then fun validation final facts => ?_
  obtain ⟨rfl, refused, accepted⟩ := facts
  split
  · exact ⟨rfl, .inl rfl, fun clear takeable => by cases accepted clear takeable.admissible⟩
  · refine ⟨rfl, .inr ⟨rfl, ⟨(not_or.mp unskipped).1, after, refused rfl⟩, ?_⟩, fun _ _ => ?_⟩
    · intro heldCycle before own dated
      obtain ⟨_, _, _, _, _, _, _, recorded⟩ := held entry.1 heldCycle own
      obtain ⟨kept, stored⟩ := Option.isSome_iff_exists.mp (predictionRecord_isSome recorded)
      obtain ⟨member, ofCycle, _⟩ := predictionRecord_spec stored
      have same := sound.record_instant member
      rw [ofCycle, dated, Option.some_inj] at same
      rw [(ofHeld kept).mpr ⟨heldCycle, own, stored⟩, Option.any_some, decide_eq_true_eq, not_le] at notOlder
      rw [same]
      exact notOlder
    · exact ⟨_, _, by rw [ofSymbol, Dict.get?_insert, if_pos rfl], instant, le_rfl⟩

omit sound in
theorem mem_latestTargeted {symbol : String} {newest : Prediction}
    (found : store.latestTargetedPrediction source symbol = some newest) :
    (symbol, newest) ∈ store.latestTargetedPredictions source := by
  unfold Store.latestTargetedPredictions
  refine List.mem_filterMap.mpr ⟨symbol, ?_, by rw [found]; rfl⟩
  have member := List.mem_filter.mp (List.mem_reverse.mp (latest_spec found).1)
  rw [mem_stableSort, List.mem_dedup, ← of_decide_eq_true member.2]
  exact List.mem_map_of_mem member.1

theorem recoveredTargeted_alone (held : AllAdmissible setting store source carried) :
    Always answers (recoveredTargeted setting.calendars carried universeCycle order source) store fun found final =>
      final = store ∧ AllAdmissible setting store source found.targeted ∧
        (Clear answers → ∀ symbol newest, store.latestTargetedPrediction source symbol = some newest →
          Takeable setting store source order universeCycle symbol newest → AtLeast store found.targeted newest) ∧
        (∀ symbol, (∀ newest, store.latestTargetedPrediction source symbol = some newest →
          Takeable setting store source order universeCycle symbol newest → AtLeast store carried newest) →
            found.targeted.get? symbol = carried.get? symbol) := by
  unfold recoveredTargeted
  apply always_read.mpr
  apply always_read.mpr
  set entries := store.latestTargetedPredictions source with entriesAre
  -- the invariant: what was taken so far, by the symbols gone through
  refine (Always.foldlM (fun remaining (found : Recovery) final => final = store ∧
      AllAdmissible setting store source found.targeted ∧
      (Clear answers → ∀ entry ∈ entries, entry ∈ remaining ∨
        (Takeable setting store source order universeCycle entry.1 entry.2 → AtLeast store found.targeted entry.2)) ∧
      (∀ symbol, (∀ newest, store.latestTargetedPrediction source symbol = some newest →
        Takeable setting store source order universeCycle symbol newest → AtLeast store carried newest) →
          found.targeted.get? symbol = carried.get? symbol))
    ⟨rfl, held, fun _ entry member => .inl member, fun _ _ => rfl⟩ ?_).mono fun found final facts => ?_
  · intro entry rest found final member facts
    obtain ⟨rfl, all, taken, left⟩ := facts
    have newest := mem_latestTargetedPredictions member
    obtain ⟨ofSymbol, _, instant⟩ := sound.latestTargeted newest
    refine (recoverSymbol_alone sound newest all).mono fun after final facts => ?_
    obtain ⟨rfl, turn, took⟩ := facts
    refine ⟨rfl, turn.admissible all, fun clear other otherIn => ?_, fun symbol refused => ?_⟩
    · rcases taken clear other otherIn with waiting | done
      · rcases List.mem_cons.mp waiting with rfl | later
        · exact .inr (took clear)
        · exact .inl later
      · exact .inr fun takeable => turn.atLeast instant (done takeable)
    · rw [← left symbol refused]
      rcases turn with same | ⟨same, takeable, newer⟩
      · rw [same]
      · rw [same, Dict.get?_insert]
        split
        · rename_i here
          subst here
          -- a newer cycle was taken over one at least as recent
          obtain ⟨heldCycle, before, own, dated, bound⟩ := refused entry.2 newest takeable
          rw [ofSymbol, ← left entry.1 refused] at own
          exact absurd (newer heldCycle before own dated) (not_lt.mpr bound)
        · rfl
  · obtain ⟨rfl, all, taken, left⟩ := facts
    refine ⟨rfl, all, fun clear symbol newest found takeable => ?_, left⟩
    rcases taken clear (symbol, newest) (mem_latestTargeted found) with waiting | done
    · cases waiting
    · exact done takeable

end Recovery

section Passes

theorem newGeneration_alone {draft : Draft} (sound : Sound setting store)
    (expected : draft.expectedPrevious = store.tip.map Generation.id) :
    Always answers (newGeneration draft none) store fun result final => ∃ activatedAt generation,
      assemble draft store.tip activatedAt false = .ok generation ∧ result = .ok (store.stored generation) ∧
        final = store.chain (store.stored generation) := by
  unfold newGeneration
  apply always_read.mpr
  rw [sound.head, if_neg (by rw [expected]; exact not_not.mpr rfl)]
  refine always_answer.mpr fun answer _ => ?_
  have clock : ∃ activatedAt, activationClock store.tip none answer.clock = .ok activatedAt := by
    cases store.tip with
    | none => exact ⟨_, rfl⟩
    | some head => exact ⟨_, rfl⟩
  obtain ⟨activatedAt, activated⟩ := clock
  simp only [activated, Option.isSome_none]
  obtain ⟨generation, assembled⟩ : ∃ generation, assemble draft store.tip activatedAt false = .ok generation := ⟨_, rfl⟩
  simp only [assembled]
  have free : store.conflict generation = false := by
    refine Bool.eq_false_of_not_eq_true fun taken => ?_
    exact (conflict_iff sound sound (Grows.refl store) (assemble_previous assembled)).mp taken rfl
  refine Program.always_write.mpr ?_
  have chained : store.insertSelection generation = store.chain (store.stored generation) := if_neg (by rw [free]; decide)
  simp only [free, chained]
  exact ⟨activatedAt, generation, assembled, rfl, rfl⟩

structure Passed (setting : Setting Digest) (answers : Reading → Prop) (store : Store) (head : Generation)
    (final : Store) (after : Generation) : Prop where
  snapshots : final.snapshots = store.snapshots
  targeted : ∀ source, final.targetedPredictions source = store.targetedPredictions source
  ordered : final.latestExplicitSelection = store.latestExplicitSelection
  tip : final.tip = some after
  source : after.source = head.source
  cycles : ∀ market, after.cycles market = nextCycle setting.calendars store head market ∨
    after.cycles market = head.cycles market
  clearly : Clear answers → ∀ market, after.cycles market = nextCycle setting.calendars store head market
  taken : Clear answers → ∀ symbol newest, store.latestTargetedPrediction head.source symbol = some newest →
    Takeable setting final head.source store.latestExplicitSelection (after.cycles .b3) symbol newest →
      AtLeast final after.targeted newest
  left : ∀ symbol, (∀ newest, store.latestTargetedPrediction head.source symbol = some newest →
    Takeable setting final head.source store.latestExplicitSelection (after.cycles .b3) symbol newest →
      AtLeast final head.targeted newest) → after.targeted.get? symbol = head.targeted.get? symbol
  changed : (after = head ∧ final.generations = store.generations) ∨
    (final.generations = store.generations ++ [after] ∧
      ¬ ((∀ market, after.cycles market = head.cycles market) ∧
        ∀ symbol, after.targeted.get? symbol = head.targeted.get? symbol))

theorem sortedEntries_congr {first second : Dict String ℕ} (same : ∀ symbol, first.get? symbol = second.get? symbol) :
    sortedEntries first = sortedEntries second := by
  have perm : first.entries.Perm second.entries := by
    refine (List.perm_ext_iff_of_nodup (List.Nodup.of_map Prod.fst first.distinct)
      (List.Nodup.of_map Prod.fst second.distinct)).mpr fun entry => ?_
    rw [Dict.mem_entries, Dict.mem_entries, same]
  exact stableSort_eq_of_perm perm first.distinct

theorem get?_of_sortedEntries {first second : Dict String ℕ} (same : sortedEntries first = sortedEntries second)
    (symbol : String) : first.get? symbol = second.get? symbol := by
  have alike : sortedTargeted first = sortedTargeted second := dict_ext same
  rw [← get?_sortedTargeted first, alike, get?_sortedTargeted]

theorem passed_unchanged {head : Generation} {middle : Store} {choices : Market → MarketChoice} {found : Recovery}
    (near : Near setting store middle) (tip : store.tip = some head)
    (cycles : ∀ market, ((choices market).cycle = nextCycle setting.calendars store head market ∨
      (choices market).cycle = head.cycles market) ∧
        (Clear answers → (choices market).cycle = nextCycle setting.calendars store head market))
    (taken : Clear answers → ∀ symbol newest, middle.latestTargetedPrediction head.source symbol = some newest →
      Takeable setting middle head.source store.latestExplicitSelection (choices .b3).cycle symbol newest →
        AtLeast middle found.targeted newest)
    (same : unchanged (some head) choices found.targeted = true) : Passed setting answers store head middle head := by
  simp only [unchanged, Option.any_some, Bool.and_eq_true, List.all_eq_true, decide_eq_true_eq] at same
  obtain ⟨alike, entries⟩ := same
  have own : ∀ market, head.cycles market = (choices market).cycle := fun market =>
    alike market (by cases market <;> decide)
  exact
    { snapshots := near.snapshots
      targeted := near.targeted
      ordered := near.latestExplicit
      tip := near.tip.trans tip
      source := rfl
      cycles := fun market => .inr rfl
      clearly := fun clear market => (own market).trans ((cycles market).2 clear)
      taken := fun clear symbol newest newestFound takeable => by
        rw [own] at takeable
        obtain ⟨held, instant, holds, dated, bound⟩ :=
          taken clear symbol newest ((near.latestTargeted _ _).trans newestFound) takeable
        exact ⟨held, instant, (get?_of_sortedEntries entries newest.symbol).trans holds, dated, bound⟩
      left := fun _ _ => rfl
      changed := .inl ⟨rfl, near.generations⟩ }

theorem takeable_chain {middle : Store} {generation : Generation} {source : Source} {order : Option Generation}
    {universeCycle : ℕ} {symbol : String} {newest : Prediction} :
    Takeable setting (middle.chain generation) source order universeCycle symbol newest ↔
      Takeable setting middle source order universeCycle symbol newest := by
  constructor
  · rintro ⟨unserved, undecided, cycle, clocks, stored, kind, clocked, known, complete, recorded⟩
    exact ⟨unserved, undecided, cycle, clocks, stored, kind, clocked, known,
      ⟨complete.rows, complete.usable, complete.recorded⟩, recorded⟩
  · rintro ⟨unserved, undecided, cycle, clocks, stored, kind, clocked, known, complete, recorded⟩
    exact ⟨unserved, undecided, cycle, clocks, stored, kind, clocked, known,
      ⟨complete.rows, complete.usable, complete.recorded⟩, recorded⟩

theorem passed_changed {head generation : Generation} {middle : Store} {choices : Market → MarketChoice} {found : Recovery}
    {attempt : ℕ} {activatedAt : Int} (near : Near setting store middle)
    (cycles : ∀ market, ((choices market).cycle = nextCycle setting.calendars store head market ∨
      (choices market).cycle = head.cycles market) ∧
        (Clear answers → (choices market).cycle = nextCycle setting.calendars store head market))
    (clean : CleanKeys found.targeted)
    (taken : Clear answers → ∀ symbol newest, middle.latestTargetedPrediction head.source symbol = some newest →
      Takeable setting middle head.source store.latestExplicitSelection (choices .b3).cycle symbol newest →
        AtLeast middle found.targeted newest)
    (left : ∀ symbol, (∀ newest, middle.latestTargetedPrediction head.source symbol = some newest →
      Takeable setting middle head.source store.latestExplicitSelection (choices .b3).cycle symbol newest →
        AtLeast middle head.targeted newest) → found.targeted.get? symbol = head.targeted.get? symbol)
    (apart : ¬ unchanged (some head) choices found.targeted = true)
    (assembled : assemble (composed (some head) store.latestExplicitSelection choices found attempt) (some head)
      activatedAt false = .ok generation) :
    Passed setting answers store head (middle.chain (middle.stored generation)) (middle.stored generation) := by
  cases assembled
  have map : ∀ symbol, (sortedTargeted (firstTargeted found.targeted.entries)).get? symbol = found.targeted.get? symbol :=
    fun symbol => by rw [get?_sortedTargeted, firstTargeted_clean clean]
  exact
    { snapshots := near.snapshots
      targeted := near.targeted
      ordered := by
        rw [← near.latestExplicit]
        unfold Store.latestExplicitSelection Store.chain
        rw [List.filter_append]
        simp [Store.stored]
      tip := List.getLast?_concat
      source := rfl
      cycles := fun market => (cycles market).1
      clearly := fun clear market => (cycles market).2 clear
      taken := fun clear symbol newest newestFound takeable => by
        obtain ⟨held, instant, holds, dated, bound⟩ :=
          taken clear symbol newest ((near.latestTargeted _ _).trans newestFound)
            (takeable_chain.mp takeable)
        exact ⟨held, instant, (map _).trans holds, dated, bound⟩
      left := fun symbol refused => (map symbol).trans (left symbol fun newest newestFound takeable =>
        refused newest ((near.latestTargeted _ _).symm.trans newestFound) (takeable_chain.mpr takeable))
      changed := by
        refine .inr ⟨by rw [← near.generations]; rfl, fun same => apart ?_⟩
        simp only [unchanged, Option.any_some, Bool.and_eq_true, List.all_eq_true, decide_eq_true_eq]
        refine ⟨fun market _ => (same.1 market).symm, sortedEntries_congr fun symbol => ?_⟩
        rw [← same.2 symbol]
        exact map symbol }

theorem activateFrom_alone (left attempt : ℕ) {head : Generation} (sound : Sound setting store) (tip : store.tip = some head) :
    Always answers (activateFrom setting.calendars (left + 1) attempt) store fun _ final =>
      (final = store ∧ ∃ answer, answers answer ∧ (selectionFreeze (some head) answer.clock).isSome) ∨
        ∃ after, Passed setting answers store head final after := by
  unfold activateFrom
  apply always_read.mpr
  rw [sound.head, tip]
  refine always_answer.mpr fun answer given => ?_
  have firstOf : firstTargeted (currentTargeted (some head)).entries = head.targeted := by
    have own := sound.tip_first
    rwa [tip] at own
  simp only [firstOf]
  split
  · rename_i frozen
    exact .inl ⟨rfl, answer, given, frozen⟩
  refine (forMarkets_alone (CandidateOf setting answers head.source store) sound fun market next near =>
    (selectableCycle_alone near.sound).mono fun result last found => ?_).then fun candidates first found => ?_
  · obtain ⟨near', item, same, candidate⟩ := found
    refine ⟨near', item, same, ?_⟩
    unfold CandidateOf at candidate ⊢
    rwa [near.latestSnapshot] at candidate
  obtain ⟨near, candidates, rfl, candidate⟩ := found
  simp only
  apply always_read.mpr
  rw [near.latestExplicit]
  refine (forMarkets_alone (fun market (choice : MarketChoice) =>
      (choice.cycle = nextCycle setting.calendars store head market ∨ choice.cycle = head.cycles market) ∧
        (Clear answers → choice.cycle = nextCycle setting.calendars store head market)) near.sound
    fun market next near' => (chooseMarket_alone (candidate market)).mono fun result last found => ?_).then
      fun choices second found => ?_
  · obtain ⟨rfl, choice, same, facts⟩ := found
    exact ⟨Near.refl near'.sound, choice, same, facts⟩
  obtain ⟨near', choices, rfl, cycles⟩ := found
  have nearAll := near.trans near'
  have heldAll : AllAdmissible setting second head.source head.targeted := fun symbol cycleId held =>
    nearAll.grows.admissible ((sound.whole head (tip_mem tip)).targeted symbol cycleId held)
  simp only
  refine (recoveredTargeted_alone nearAll.sound heldAll).then fun found third facts => ?_
  obtain ⟨rfl, all, taken, leftOut⟩ := facts
  have clean : CleanKeys found.targeted := fun symbol cycleId held =>
    nearAll.sound.clean_of_admissible (all symbol cycleId held)
  split
  · rename_i same
    exact .inr ⟨head, passed_unchanged nearAll tip cycles taken same⟩
  · rename_i apart
    refine (newGeneration_alone nearAll.sound (by rw [nearAll.tip, tip]; rfl)).then fun result final facts => ?_
    obtain ⟨activatedAt, generation, assembled, rfl, rfl⟩ := facts
    rw [nearAll.tip, tip] at assembled
    exact .inr ⟨_, passed_changed nearAll cycles clean taken leftOut apart assembled⟩

end Passes
end C3po.Official
