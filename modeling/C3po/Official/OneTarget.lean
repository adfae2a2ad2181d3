import C3po.Official.Readers

/-! One official target a symbol on every read path, and the cycles on which the paths differ. -/

set_option autoImplicit false

namespace C3po.Official
open C3po.Library
open C3po.Prices (normalise)

variable {Digest : Type} {setting : Setting Digest} {store : Store} {generation : Generation}

/-- A served row whose record and display are of one row of the cycle. -/
def FromOneRow (calendars : Calendars) (store : Store) (generation : Generation) (cycleId : ℕ) (scope : Scope) (market : Market)
    (record : Prediction) (served : ServedRow) : Prop :=
  store.predictionRecord cycleId record.symbol generation.source = some record ∧
    ∃ cycle clocks session, ∃ row ∈ cycle.cycleRows, store.analysisSnapshotById cycleId = some cycle ∧ cycle.clocks = some clocks ∧
      calendars.sessions market clocks.1 = some session ∧
      predictionFromRow cycle market clocks session generation.source row = some record ∧
      servedRow row record generation cycleId scope market = some served

/-- Every read path of a generation shows a symbol alike. -/
structure OneTarget (calendars : Calendars) (store : Store) (generation : Generation) : Prop where
  rows : ∀ request symbol served, (store.officialRows request (some generation)).get? (normalise symbol) = some served →
    store.officialRow request symbol (some generation) = some served
  records : ∀ market : Market, ∃ snapshot, store.officialPredictionSnapshot market.name (some generation) = some snapshot ∧
    ∀ symbol record, recordOf snapshot.results symbol = some record ↔ record.symbol = symbol ∧
      ∃ served cycleId scope, Serves store generation market.name symbol served ∧
        FromOneRow calendars store generation cycleId scope market record served
  single : ∀ request symbol served, (store.officialRows request (some generation)).get? symbol = some served ∨
      store.officialRow request symbol (some generation) = some served →
    ∃ cycleId scope market record, FromOneRow calendars store generation cycleId scope market record served

/-- A cycle whose symbols carry no suffix that a request strips, and whose rows of one symbol, the
first and the last, agree on all that the record does not replace. -/
structure Unambiguous (source : Source) (cycle : Cycle) : Prop where
  plain : ∀ row ∈ cycle.cycleRows, Store.lookupKey row.symbol = normalise row.symbol
  alike : ∀ symbol first last, cycle.cycleRows.find? (fun row => normalise row.symbol = symbol) = some first →
    displayRow cycle symbol = some last →
    first.beside source (if source = .internal then some 0 else first.consensusWeightPercent).isSome =
      last.beside source (if source = .internal then some 0 else first.consensusWeightPercent).isSome

/-- The universe cycles are unambiguous and the targeted symbols plain. -/
def Unambiguously (store : Store) (generation : Generation) : Prop :=
  (∀ market cycle, store.analysisSnapshotById (generation.cycles market) = some cycle → Unambiguous generation.source cycle) ∧
    ∀ symbol, (generation.targeted.get? symbol).isSome → Store.lookupKey symbol = symbol

theorem lookupKey_normalise (symbol : String) : Store.lookupKey (normalise symbol) = Store.lookupKey symbol := by
  unfold Store.lookupKey
  rw [normalise_normalise]

theorem marketsFor_b3 : marketsFor (some "B3") = [.b3] := by decide +kernel

theorem marketsFor_name (market : Market) : marketsFor (some market.name) = [market] := by
  cases market <;> decide +kernel

theorem officialPredictionSnapshot_record (store : Store) (generation : Generation) (market : Market) :
    ∃ snapshot, store.officialPredictionSnapshot market.name (some generation) = some snapshot ∧
    ∀ symbol, recordOf snapshot.results symbol = (store.predictionRecord (generation.cycles market) symbol generation.source).or
      (if market = .b3 then (generation.targeted.get? symbol).bind fun cycleId => store.predictionRecord cycleId symbol generation.source
        else none) := by
  have own : Official.markets.find? (fun own => own.name = market.name) = some market := by
    cases market <;> decide +kernel
  refine ⟨_, by simp only [Store.officialPredictionSnapshot, own, Option.bind_eq_bind, Option.bind_some]; rfl, fun symbol => ?_⟩
  exact recordOf_generationRecords generation market generation.source symbol

theorem name_injective {first second : Market} (same : first.name = second.name) : first = second := by
  cases first <;> cases second <;> first | rfl | exact absurd same (by decide)

theorem lastServed_recorded {market : Market} {symbol : String} {served : ServedRow}
    (shown : store.lastServed generation symbol market = some served) :
    ∃ record, store.predictionRecord (generation.cycles market) symbol generation.source = some record := by
  cases recorded : store.predictionRecord (generation.cycles market) symbol generation.source with
  | none =>
    rw [(unserved recorded).2] at shown
    cases shown
  | some record => exact ⟨record, rfl⟩

section Paths
variable (firsts : ∀ record ∈ store.predictions, FirstOfKey setting.calendars store record)
  (whole : Whole setting.calendars store generation)
include firsts whole

theorem Whole.firstServed_single {market : Market} {symbol : String} {served : ServedRow}
    (shown : store.firstServed generation symbol market = some served) : ∃ record, record.symbol = symbol ∧
      FromOneRow setting.calendars store generation (generation.cycles market) .universe market record served := by
  cases recorded : store.predictionRecord (generation.cycles market) symbol generation.source with
  | none =>
    rw [(unserved recorded).1] at shown
    cases shown
  | some record =>
    obtain ⟨found⟩ := whole.found firsts recorded
    have ofSymbol := (predictionRecord_spec recorded).2.2.2
    exact ⟨record, ofSymbol, by rw [ofSymbol]; exact recorded, found.cycle, found.clocks, found.session, found.first, found.firstIn,
      found.stored, found.clocked, found.known, found.made, found.firstServed ▸ shown⟩

theorem Whole.targetedRow_single {symbol : String} {served : ServedRow} (shown : store.targetedRow generation symbol = some served) :
    ∃ cycleId record, generation.targeted.get? symbol = some cycleId ∧ record.symbol = symbol ∧
      FromOneRow setting.calendars store generation cycleId .targeted .b3 record served := by
  unfold Store.targetedRow at shown
  obtain ⟨cycleId, held, shown⟩ := Option.bind_eq_some_iff.mp shown
  obtain ⟨cycle, stored, shown⟩ := Option.bind_eq_some_iff.mp shown
  obtain ⟨record, recorded, shown⟩ := Option.bind_eq_some_iff.mp shown
  obtain ⟨row, rowFound, made⟩ := Option.bind_eq_some_iff.mp shown
  obtain ⟨own, _, ownStored, kind, _, _, complete, _⟩ := whole.targeted symbol cycleId held
  cases stored.symm.trans ownStored
  obtain ⟨market, clocks, session, first, ofMarket, clocked, known, firstFound, firstMade⟩ :=
    record_of_first firsts complete.usable stored recorded
  rw [rowFound, Option.some_inj] at firstFound
  subst firstFound
  have b3 : market = .b3 := by
    unfold Cycle.market marketOfEntity at ofMarket
    rw [kind] at ofMarket
    exact (Option.some.inj ofMarket).symm
  subst b3
  have ofSymbol := (predictionRecord_spec recorded).2.2.2
  exact ⟨cycleId, record, held, ofSymbol, by rw [ofSymbol]; exact recorded, cycle, clocks, session, row,
    List.mem_of_find?_eq_some rowFound, stored, clocked, known, firstMade, made⟩

theorem Whole.officialRow_eq (request : Option String) (symbol : String) : store.officialRow request symbol (some generation) =
    ((marketsFor request).findSome? (store.firstServed generation (Store.lookupKey symbol))).or
      (if .b3 ∈ marketsFor request then store.targetedRow generation (Store.lookupKey symbol) else none) := by
  simp only [Store.officialRow]
  rw [whole.universeRow_eq firsts]
  cases (marketsFor request).findSome? (store.firstServed generation (Store.lookupKey symbol)) <;> rfl

theorem Whole.officialRow_cases {request : Option String} {symbol : String} {served : ServedRow}
    (shown : store.officialRow request symbol (some generation) = some served) :
    (∃ market ∈ marketsFor request, store.firstServed generation (Store.lookupKey symbol) market = some served) ∨
      ((marketsFor request).findSome? (store.firstServed generation (Store.lookupKey symbol)) = none ∧ .b3 ∈ marketsFor request ∧
        store.targetedRow generation (Store.lookupKey symbol) = some served) := by
  rw [whole.officialRow_eq firsts] at shown
  rcases Option.or_eq_some_iff.mp shown with first | ⟨none, targeted⟩
  · exact .inl (List.exists_of_findSome?_eq_some first)
  · obtain ⟨asked, row⟩ := Option.ite_none_right_eq_some.mp targeted
    exact .inr ⟨none, asked, row⟩

theorem Whole.officialRow_symbol {request : Option String} {symbol : String} {served : ServedRow}
    (shown : store.officialRow request symbol (some generation) = some served) :
    normalise served.row.symbol = Store.lookupKey symbol := by
  have of_single {cycleId : ℕ} {scope : Scope} {market : Market} {record : Prediction} (ofSymbol : record.symbol = Store.lookupKey symbol)
      (single : FromOneRow setting.calendars store generation cycleId scope market record served) :
      normalise served.row.symbol = Store.lookupKey symbol := by
    obtain ⟨_, _, _, _, row, _, _, _, _, made, shown⟩ := single
    rw [(servedRow_row shown).1, ← (predictionFromRow_some made).2.2.1, ofSymbol]
  rcases whole.officialRow_cases firsts shown with ⟨market, _, first⟩ | ⟨_, _, targeted⟩
  · obtain ⟨record, ofSymbol, single⟩ := whole.firstServed_single firsts first
    exact of_single ofSymbol single
  · obtain ⟨_, record, _, ofSymbol, single⟩ := whole.targetedRow_single firsts targeted
    exact of_single ofSymbol single

theorem Whole.lastServed_symbol {market : Market} {symbol : String} {served : ServedRow}
    (shown : store.lastServed generation symbol market = some served) : normalise served.row.symbol = symbol := by
  cases recorded : store.predictionRecord (generation.cycles market) symbol generation.source with
  | none =>
    rw [(unserved recorded).2] at shown
    cases shown
  | some record =>
    obtain ⟨found⟩ := whole.found firsts recorded
    rw [found.lastServed] at shown
    rw [(servedRow_row shown).1]
    exact found.lastSymbol

theorem Whole.served_one (clear : Unambiguously store generation) (symbol : String) (market : Market) :
    store.firstServed generation symbol market = store.lastServed generation symbol market := by
  cases recorded : store.predictionRecord (generation.cycles market) symbol generation.source with
  | none => rw [(unserved recorded).1, (unserved recorded).2]
  | some record =>
    obtain ⟨found⟩ := whole.found firsts recorded
    exact found.served_alike.mpr ((clear.1 market found.cycle found.stored).alike symbol _ _ found.firstFound found.lastFound)

theorem Whole.key_plain (clear : Unambiguously store generation) {market : Market} {symbol : String} {record : Prediction}
    (recorded : store.predictionRecord (generation.cycles market) symbol generation.source = some record) :
    Store.lookupKey symbol = symbol := by
  obtain ⟨found⟩ := whole.found firsts recorded
  rw [← found.firstSymbol, lookupKey_normalise]
  exact (clear.1 market found.cycle found.stored).plain found.first found.firstIn

theorem Whole.rows_agree (clear : Unambiguously store generation) {request : Option String} {symbol : String} {served : ServedRow}
    (shown : (store.officialRows request (some generation)).get? (normalise symbol) = some served) :
    store.officialRow request symbol (some generation) = some served := by
  rw [whole.officialRows_eq firsts] at shown
  obtain ⟨market, _, last⟩ := List.exists_of_findSome?_eq_some shown
  obtain ⟨record, recorded⟩ := lastServed_recorded last
  have key : Store.lookupKey symbol = normalise symbol := by
    rw [← lookupKey_normalise]
    exact whole.key_plain firsts clear recorded
  have alike : store.firstServed generation (normalise symbol) = store.lastServed generation (normalise symbol) :=
    funext fun market => whole.served_one firsts clear (normalise symbol) market
  rw [whole.officialRow_eq firsts, key, alike, shown, Option.some_or]

theorem Whole.rows_single (clear : Unambiguously store generation) {request : Option String} {symbol : String} {served : ServedRow}
    (shown : (store.officialRows request (some generation)).get? symbol = some served) :
    ∃ market ∈ marketsFor request, ∃ record, record.symbol = symbol ∧
      FromOneRow setting.calendars store generation (generation.cycles market) .universe market record served := by
  rw [whole.officialRows_eq firsts] at shown
  obtain ⟨market, asked, last⟩ := List.exists_of_findSome?_eq_some shown
  rw [← whole.served_one firsts clear] at last
  exact ⟨market, asked, whole.firstServed_single firsts last⟩

theorem Whole.served_of_record (clear : Unambiguously store generation) {market : Market} {symbol : String} {record : Prediction}
    (recorded : store.predictionRecord (generation.cycles market) symbol generation.source = some record) :
    ∃ served, (store.officialRows (some market.name) (some generation)).get? symbol = some served ∧
      FromOneRow setting.calendars store generation (generation.cycles market) .universe market record served := by
  obtain ⟨found⟩ := whole.found firsts recorded
  obtain ⟨served, shown⟩ := Option.isSome_iff_exists.mp found.firstServed_isSome
  obtain ⟨own, ofSymbol, single⟩ := whole.firstServed_single firsts shown
  have same : own = record := by
    have read := single.1
    rw [ofSymbol, recorded] at read
    exact (Option.some.inj read).symm
  subst same
  refine ⟨served, ?_, single⟩
  rw [whole.officialRows_eq firsts, marketsFor_name, List.findSome?_singleton, ← whole.served_one firsts clear, shown]

theorem Whole.records_agree (sound : Sound setting store) (clear : Unambiguously store generation) (market : Market) (symbol : String)
    (record : Prediction) :
    ((store.predictionRecord (generation.cycles market) symbol generation.source).or
      (if market = .b3 then (generation.targeted.get? symbol).bind fun cycleId => store.predictionRecord cycleId symbol generation.source
        else none)) = some record ↔ record.symbol = symbol ∧ ∃ served cycleId scope, Serves store generation market.name symbol served ∧
        FromOneRow setting.calendars store generation cycleId scope market record served := by
  have rowless (unrecorded : store.predictionRecord (generation.cycles market) symbol generation.source = none) :
      (store.officialRows (some market.name) (some generation)).get? symbol = none := by
    rw [whole.officialRows_eq firsts, marketsFor_name, List.findSome?_singleton, (unserved unrecorded).2]
  constructor
  · intro read
    rcases Option.or_eq_some_iff.mp read with own | ⟨unrecorded, targeted⟩
    · obtain ⟨served, shown, single⟩ := whole.served_of_record firsts clear own
      exact ⟨(predictionRecord_spec own).2.2.2, served, _, _, .market market shown, single⟩
    · obtain ⟨rfl, targeted⟩ := Option.ite_none_right_eq_some.mp targeted
      obtain ⟨cycleId, held, recorded⟩ := Option.bind_eq_some_iff.mp targeted
      obtain ⟨served, shown, _⟩ := whole.targetedRow sound held
      obtain ⟨ownCycle, own, ownHeld, ofSymbol, single⟩ := whole.targetedRow_single firsts shown
      cases held.symm.trans ownHeld
      have same : own = record := by
        have read := single.1
        rw [ofSymbol, recorded] at read
        exact (Option.some.inj read).symm
      subst same
      have admitted : (generation.targeted.get? symbol).isSome := by rw [held]; rfl
      refine ⟨ofSymbol, served, cycleId, .targeted, .targeted admitted (rowless unrecorded) ?_, single⟩
      rw [whole.officialRow_eq firsts, clear.2 symbol admitted, marketsFor_b3, List.findSome?_singleton, (unserved unrecorded).1]
      exact shown
  · rintro ⟨ofSymbol, served, cycleId, scope, serves, single⟩
    have stamped := (servedRow_row single.2.choose_spec.choose_spec.choose_spec.choose_spec.2.2.2.2.2).2.1
    have recorded := single.1
    rw [ofSymbol] at recorded
    generalize named : market.name = name at serves
    cases serves with
    | market own shown =>
      have same := name_injective named
      subst same
      obtain ⟨other, asked, _, _, otherSingle⟩ := whole.rows_single firsts clear shown
      rw [marketsFor_name, List.mem_singleton] at asked
      subst asked
      obtain ⟨_, _, _, _, row, _, _, _, _, _, made⟩ := otherSingle
      rw [(servedRow_row made).2.1] at stamped
      rw [stamped, recorded, Option.some_or]
    | targeted admitted apart shown =>
      have b3 : market = .b3 := name_injective named
      subst b3
      have unrecorded : store.predictionRecord (generation.cycles .b3) symbol generation.source = none := by
        cases own : store.predictionRecord (generation.cycles .b3) symbol generation.source with
        | none => rfl
        | some record =>
          obtain ⟨other, otherShown, _⟩ := whole.served_of_record firsts clear own
          exact nomatch apart.symm.trans otherShown
      rcases whole.officialRow_cases firsts shown with ⟨other, asked, first⟩ | ⟨_, _, targeted⟩
      · rw [clear.2 symbol admitted] at first
        rw [marketsFor_b3, List.mem_singleton] at asked
        subst asked
        rw [(unserved unrecorded).1] at first
        cases first
      · rw [clear.2 symbol admitted] at targeted
        obtain ⟨ownCycle, _, held, _, otherSingle⟩ := whole.targetedRow_single firsts targeted
        obtain ⟨_, _, _, _, row, _, _, _, _, _, made⟩ := otherSingle
        rw [(servedRow_row made).2.1] at stamped
        rw [unrecorded, Option.none_or, if_pos rfl, held, Option.bind_some, stamped, recorded]

theorem Whole.one_target (sound : Sound setting store) (clear : Unambiguously store generation) :
    OneTarget setting.calendars store generation where
  rows _ _ _ shown := whole.rows_agree firsts clear shown
  records market := by
    obtain ⟨snapshot, taken, read⟩ := officialPredictionSnapshot_record store generation market
    refine ⟨snapshot, taken, fun symbol record => ?_⟩
    rw [read]
    exact whole.records_agree firsts sound clear market symbol record
  single request symbol served shown := by
    rcases shown with rows | row
    · obtain ⟨market, _, record, _, single⟩ := whole.rows_single firsts clear rows
      exact ⟨_, _, _, record, single⟩
    · rcases whole.officialRow_cases firsts row with ⟨market, _, first⟩ | ⟨_, _, targeted⟩
      · obtain ⟨record, _, single⟩ := whole.firstServed_single firsts first
        exact ⟨_, _, _, record, single⟩
      · obtain ⟨cycleId, record, _, _, single⟩ := whole.targetedRow_single firsts targeted
        exact ⟨_, _, _, record, single⟩

theorem Whole.plain_of_one (one : OneTarget setting.calendars store generation) {market : Market} {symbol : String} {record : Prediction}
    (recorded : store.predictionRecord (generation.cycles market) symbol generation.source = some record) :
    Store.lookupKey symbol = symbol := by
  obtain ⟨found⟩ := whole.found firsts recorded
  obtain ⟨served, last⟩ := Option.isSome_iff_exists.mp found.lastServed_isSome
  have clean : normalise symbol = symbol := by rw [← found.firstSymbol, normalise_normalise]
  have shown : (store.officialRows (some market.name) (some generation)).get? (normalise symbol) = some served := by
    rw [whole.officialRows_eq firsts, marketsFor_name, List.findSome?_singleton, clean, last]
  have key := whole.officialRow_symbol firsts (one.rows _ symbol served shown)
  rw [← key]
  exact whole.lastServed_symbol firsts last

theorem Whole.targeted_plain_of_one (one : OneTarget setting.calendars store generation) {symbol : String}
    (admitted : (generation.targeted.get? symbol).isSome) : Store.lookupKey symbol = symbol := by
  cases recorded : store.predictionRecord (generation.cycles .b3) symbol generation.source with
  | some record => exact whole.plain_of_one firsts one recorded
  | none =>
    obtain ⟨cycleId, held⟩ := Option.isSome_iff_exists.mp admitted
    obtain ⟨_, _, _, _, _, _, _, ofCycle⟩ := whole.targeted symbol cycleId held
    obtain ⟨record, found⟩ := Option.isSome_iff_exists.mp (predictionRecord_isSome ofCycle)
    obtain ⟨snapshot, taken, read⟩ := officialPredictionSnapshot_record store generation .b3
    obtain ⟨other, otherTaken, agrees⟩ := one.records .b3
    cases taken.symm.trans otherTaken
    have listed : recordOf snapshot.results symbol = some record := by
      rw [read, recorded, Option.none_or, if_pos rfl, held, Option.bind_some, found]
    obtain ⟨_, served, _, _, serves, single⟩ := (agrees symbol record).mp listed
    obtain ⟨_, _, _, _, row, _, _, _, _, made, shown⟩ := single
    have rowSymbol : normalise served.row.symbol = symbol := by
      rw [(servedRow_row shown).1, ← (predictionFromRow_some made).2.2.1]
      exact (predictionRecord_spec found).2.2.2
    generalize named : Market.b3.name = name at serves
    cases serves with
    | market own rows =>
      cases name_injective named
      rw [whole.officialRows_eq firsts, marketsFor_name, List.findSome?_singleton, (unserved recorded).2] at rows
      cases rows
    | targeted _ _ row => exact (whole.officialRow_symbol firsts row).symm.trans rowSymbol

theorem Whole.unambiguously (one : OneTarget setting.calendars store generation) :
    Unambiguously store generation := by
  refine ⟨fun market cycle stored => ⟨fun row member => ?_, fun symbol first last firstFound lastFound => ?_⟩,
    fun symbol admitted => whole.targeted_plain_of_one firsts one admitted⟩
  · obtain ⟨own, _, ownStored, _, _, _, _, _, complete⟩ := whole.markets market
    cases stored.symm.trans ownStored
    have held := complete.recorded row member
    rw [snapshot_id stored] at held
    obtain ⟨record, recorded⟩ := Option.isSome_iff_exists.mp (predictionRecord_isSome held)
    rw [← lookupKey_normalise]
    exact whole.plain_of_one firsts one recorded
  · obtain ⟨own, _, ownStored, _, _, _, _, _, complete⟩ := whole.markets market
    cases stored.symm.trans ownStored
    have symbolOf : normalise first.symbol = symbol := of_decide_eq_true (List.find?_some firstFound :)
    have held := complete.recorded first (List.mem_of_find?_eq_some firstFound)
    rw [symbolOf, snapshot_id stored] at held
    obtain ⟨record, recorded⟩ := Option.isSome_iff_exists.mp (predictionRecord_isSome held)
    obtain ⟨found⟩ := whole.found firsts recorded
    cases stored.symm.trans found.stored
    cases firstFound.symm.trans found.firstFound
    cases lastFound.symm.trans found.lastFound
    apply found.served_alike.mp
    -- the row asked for is the first one's, and by the agreement the last one's
    obtain ⟨served, shown⟩ := Option.isSome_iff_exists.mp found.lastServed_isSome
    have clean : normalise symbol = symbol := by rw [← symbolOf, normalise_normalise]
    have rows : (store.officialRows (some market.name) (some generation)).get? (normalise symbol) = some served := by
      rw [whole.officialRows_eq firsts, marketsFor_name, List.findSome?_singleton, clean, shown]
    have asked := one.rows _ symbol served rows
    obtain ⟨first, firstShown⟩ := Option.isSome_iff_exists.mp found.firstServed_isSome
    rw [whole.officialRow_eq firsts, whole.plain_of_one firsts one recorded, marketsFor_name, List.findSome?_singleton, firstShown,
      Option.some_or] at asked
    rw [firstShown, shown, asked]

end Paths

variable [DecidableEq Digest]

/-- Every read path shows a symbol alike exactly where no cycle has two rows of one symbol that
differ and no symbol carries a suffix that a request strips. -/
theorem one_target_iff (reached : Reached setting) : ∀ generation ∈ reached.store.generations,
    OneTarget setting.calendars reached.store generation ↔ Unambiguously reached.store generation := by
  intro generation member
  have firsts := firsts_kept reached.later
  have whole := reached.sound.whole generation member
  exact ⟨whole.unambiguously firsts, whole.one_target firsts reached.sound⟩

theorem one_target_iff_sample : ∃ generation ∈ sampleReached.store.generations,
    OneTarget sampleSetting.calendars sampleReached.store generation ↔ Unambiguously sampleReached.store generation := by
  have there : ∃ generation ∈ sampleReached.store.generations, generation.targeted.get? "ABEV3" = some 3 := by
    decide +kernel
  obtain ⟨generation, member, _⟩ := there
  exact ⟨generation, member, one_target_iff sampleReached generation member⟩

section Repeated

/-- A cycle whose symbol has two rows. -/
def repeatedCycle : Cycle :=
  { sampleCycle .universe "B3_UNIVERSE" "PETR4" 10 with
    rows := [sampleRow "PETR4", { sampleRow " petr4 " with price := some 20, score := some 1 }] }

theorem repeatedCycle_plain : ∀ row ∈ repeatedCycle.cycleRows, Store.lookupKey row.symbol = normalise row.symbol := by decide +kernel

theorem plain_aapl : Store.lookupKey "AAPL" = normalise "AAPL" := by decide

theorem plain_ko : Store.lookupKey "KO" = normalise "KO" := by decide

/-- The sample's markets, B3 by the cycle with a repeated symbol. -/
noncomputable def repeatedReached : Reached sampleSetting :=
  (((Reached.empty sampleSetting).sample (.publish repeatedCycle repeatedCycle_plain) 11).samplePublish .universe
    "NASDAQ_UNIVERSE" "AAPL" 20 plain_aapl).samplePublish .universe "NYSE_UNIVERSE" "KO" 30 plain_ko

/-- The scan shows the first row and the rows by symbol the last, under the numbers of the first. -/
theorem repeated_differs : ∃ generation ∈ repeatedReached.store.generations,
    (repeatedReached.store.officialRow (some "B3") "PETR4" (some generation)).map (fun served => (served.row.price, served.ourTp)) =
      some (some 10, some 12) ∧
    ((repeatedReached.store.officialRows (some "B3") (some generation)).get? "PETR4").map (fun served => (served.row.price, served.ourTp)) =
      some (some 20, some 12) ∧
    ¬OneTarget sampleSetting.calendars repeatedReached.store generation := by
  have there : ∃ generation ∈ repeatedReached.store.generations,
      (repeatedReached.store.officialRow (some "B3") "PETR4" (some generation)).map (fun served => (served.row.price, served.ourTp)) =
        some (some 10, some 12) ∧
      ((repeatedReached.store.officialRows (some "B3") (some generation)).get? "PETR4").map (fun served => (served.row.price, served.ourTp)) =
        some (some 20, some 12) := by
    decide +kernel
  obtain ⟨generation, member, first, last⟩ := there
  refine ⟨generation, member, first, last, fun one => ?_⟩
  obtain ⟨served, shown, numbers⟩ := Option.map_eq_some_iff.mp last
  have asked := one.rows (some "B3") "PETR4" served (by
    rw [show normalise "PETR4" = "PETR4" by decide +kernel]
    exact shown)
  rw [asked, Option.map_some, numbers] at first
  exact absurd first (by decide)

end Repeated

end C3po.Official
