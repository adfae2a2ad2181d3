import C3po.Official.Final
import C3po.Official.Pass

/-! The record stored of a symbol is the one of its first row: an insert ignores what comes
later under a stored key.
-/

set_option autoImplicit false

namespace C3po.Official
open C3po.Library
open C3po.Prices (normalise)

variable {Digest : Type} {setting : Setting Digest} {store : Store}

theorem insertPredictions_first {records : List Prediction} {record : Prediction}
    (member : record ∈ (store.insertPredictions records).predictions) :
    record ∈ store.predictions ∨ (record.key ∉ store.predictions.map Prediction.key ∧
      records.find? (fun other => other.key = record.key) = some record) := by
  induction records generalizing store with
  | nil => exact .inl member
  | cons first rest ih =>
    have later : record ∈ ((store.insertPrediction first).insertPredictions rest).predictions := member
    rcases ih later with earlier | ⟨fresh, found⟩
    · unfold Store.insertPrediction at earlier
      split at earlier
      · exact .inl earlier
      · rename_i absent
        rcases List.mem_append.mp earlier with stored | own
        · exact .inl stored
        · rw [List.mem_singleton.mp own]
          refine .inr ⟨fun held => absent ?_, List.find?_cons_of_pos (decide_eq_true rfl)⟩
          obtain ⟨other, otherIn, same⟩ := List.mem_map.mp held
          exact List.any_eq_true.mpr ⟨other, otherIn, decide_eq_true same⟩
    · have apart : first.key ≠ record.key := fun same => fresh (same ▸ insertPrediction_key store first)
      refine .inr ⟨fun held => fresh ?_, ?_⟩
      · exact ((insertPredictions_grown [first] store).map Prediction.key).subset held
      · rw [List.find?_cons_of_neg (by simpa using apart)]
        exact found

/-- A record that is the first of its key among those its cycle was recorded with. -/
def FirstOfKey (calendars : Calendars) (store : Store) (record : Prediction) : Prop :=
  ∃ cycle market clocks session, store.analysisSnapshotById record.cycleId = some cycle ∧
    cycle.market = some market ∧ cycle.clocks = some clocks ∧ calendars.sessions market clocks.1 = some session ∧
    (cyclePredictions cycle market clocks session).find? (fun other => other.key = record.key) = some record

theorem FirstOfKey.grows {next : Store} {calendars : Calendars} {record : Prediction} (first : FirstOfKey calendars store record)
    (grows : Grows store next) : FirstOfKey calendars next record := by
  obtain ⟨cycle, market, clocks, session, stored, rest⟩ := first
  exact ⟨cycle, market, clocks, session, grows.snapshot stored, rest⟩

theorem Move.firsts {next : Store} (move : Move setting store next) {record : Prediction} (member : record ∈ next.predictions) :
    record ∈ store.predictions ∨ FirstOfKey setting.calendars next record := by
  have grows := move.grows
  cases move with
  | published => exact .inl member
  | @recorded cycle market clocks session stored ofMarket clocked known =>
    rcases insertPredictions_first member with earlier | ⟨_, found⟩
    · exact .inl earlier
    · right
      obtain ⟨_, row, _, made⟩ := mem_cyclePredictions.mp (List.mem_of_find?_eq_some found)
      refine ⟨cycle, market, clocks, session, ?_, ofMarket, clocked, known, found⟩
      rw [(predictionFromRow_some made).1]
      exact grows.snapshot stored
  | automatic => exact .inl member
  | ordered => exact .inl member

theorem firsts_kept (later : (official setting).Later Store.empty store) :
    ∀ record ∈ store.predictions, FirstOfKey setting.calendars store record := by
  induction later with
  | refl => exact fun _ member => nomatch member
  | tail _ move ih =>
    intro record member
    rcases move.firsts member with earlier | first
    · exact (ih record earlier).grows move.grows
    · exact first

section Found
variable {cycle : Cycle} {market : Market} {clocks : Int × Int × Option String} {session : Int}

theorem find_sourcePredictions {source other : Source} (valid : ∀ row ∈ cycle.cycleRows, usable row source = true) (symbol : String) :
    (cycle.cycleRows.filterMap (predictionFromRow cycle market clocks session other)).find?
        (fun record => record.key = (source, cycle.sourceVersion, market, symbol, cycle.id)) =
      if other = source then (cycle.cycleRows.find? fun row => normalise row.symbol = symbol).bind
        (predictionFromRow cycle market clocks session source) else none := by
  split
  · rename_i same
    subst same
    rw [List.find?_filterMap]
    refine congrArg (Option.bind · _) (List.find?_congr fun row member => ?_)
    obtain ⟨record, made⟩ := predictionFromRow_usable cycle (valid row member) market clocks session
    obtain ⟨ofCycle, ofSource, ofSymbol, _, ofMarket, _, ofVersion, _⟩ := predictionFromRow_some made
    rw [made, Option.any_some]
    simp [Prediction.key, ofCycle, ofSource, ofSymbol, ofMarket, ofVersion]
  · rename_i apart
    rw [List.find?_eq_none]
    intro record member keyed
    obtain ⟨row, _, made⟩ := List.mem_filterMap.mp member
    have ofSource := (predictionFromRow_some made).2.1
    exact apart (ofSource.symm.trans (congrArg Prod.fst (of_decide_eq_true keyed)))

theorem find_cyclePredictions {source : Source} (valid : ∀ row ∈ cycle.cycleRows, usable row source = true) (symbol : String) :
    (cyclePredictions cycle market clocks session).find?
        (fun record => record.key = (source, cycle.sourceVersion, market, symbol, cycle.id)) =
      (cycle.cycleRows.find? fun row => normalise row.symbol = symbol).bind
        (predictionFromRow cycle market clocks session source) := by
  unfold cyclePredictions
  rw [List.find?_flatMap]
  simp only [find_sourcePredictions valid symbol]
  cases source with
  | blend => cases (cycle.cycleRows.find? fun row => normalise row.symbol = symbol).bind _ <;> simp [officialSources]
  | internal => cases (cycle.cycleRows.find? fun row => normalise row.symbol = symbol).bind _ <;> simp [officialSources]

end Found

theorem record_of_first {source : Source} {cycle : Cycle} {symbol : String} {record : Prediction}
    (firsts : ∀ record ∈ store.predictions, FirstOfKey setting.calendars store record)
    (valid : ∀ row ∈ cycle.cycleRows, usable row source = true) {cycleId : ℕ} (stored : store.analysisSnapshotById cycleId = some cycle)
    (found : store.predictionRecord cycleId symbol source = some record) :
    ∃ market clocks session first, cycle.market = some market ∧ cycle.clocks = some clocks ∧
      setting.calendars.sessions market clocks.1 = some session ∧
      cycle.cycleRows.find? (fun row => normalise row.symbol = symbol) = some first ∧
      predictionFromRow cycle market clocks session source first = some record := by
  obtain ⟨recordIn, ofCycle, ofSource, ofSymbol⟩ := predictionRecord_spec found
  obtain ⟨origin, market, clocks, session, originStored, ofMarket, clocked, known, first⟩ := firsts record recordIn
  rw [ofCycle, stored, Option.some_inj] at originStored
  subst originStored
  obtain ⟨_, row, _, made⟩ := mem_cyclePredictions.mp (List.mem_of_find?_eq_some first)
  obtain ⟨_, sameSource, _, _, sameMarket, _, sameVersion, _⟩ := predictionFromRow_some made
  have key : record.key = (source, cycle.sourceVersion, market, symbol, cycle.id) := by
    rw [← (predictionFromRow_some made).1]
    simp [Prediction.key, ofSource, sameMarket, ofSymbol, sameVersion]
  rw [key, find_cyclePredictions valid] at first
  obtain ⟨shown, shownFound, shownMade⟩ := Option.bind_eq_some_iff.mp first
  exact ⟨market, clocks, session, shown, ofMarket, clocked, known, shownFound, shownMade⟩

end C3po.Official

/-! The read paths of a generation: what each shows of a symbol, and where two rows of one
symbol make a difference.
-/

namespace C3po.Official
open C3po.Library
open C3po.Prices (normalise)

variable {Digest : Type} {setting : Setting Digest} {store : Store}

section Rows

/-- What of a row is shown beside a record: all but the fields that the record, or the row's
own internal view, puts in their place. -/
def Row.beside (source : Source) (weighted : Bool) (row : Row) : Row :=
  let numbers := { row with
    ourTp := none, buyIn := none, upsidePercent := none, priceVsBuyInPercent := none
    consensusWeightPercent := if weighted then none else row.consensusWeightPercent }
  match source with
  | .blend => numbers
  | .internal => { numbers with
      score := none, status := none, expectedTotalReturnPercent := none
      tpValidationStatus := if row.internalTpValidationStatus.isSome then none else row.tpValidationStatus }

theorem internalView_shown {row : Row} (viewed : (internalView row).isSome) : ∃ score expected status,
    row.internalScore = some score ∧ row.internalExpectedTotalReturnPercent = some expected ∧ row.internalStatus = some status := by
  unfold internalView at viewed
  split at viewed
  · rename_i score expected status readScore readExpected readStatus
    exact ⟨score, expected, status, readScore, readExpected, readStatus⟩
  · cases viewed

theorem internalView_usable {row : Row} {source : Source} (valid : usable row source = true) (internal : source = .internal) :
    (internalView row).isSome := by
  subst internal
  simp only [usable, Bool.and_eq_true, Bool.or_eq_true, ne_eq, not_true_eq_false, decide_false, Bool.false_eq_true, false_or] at valid
  exact valid.2.2

theorem predictionFromRow_shown {cycle : Cycle} {market : Market} {clocks : Int × Int × Option String} {session : Int} {source : Source}
    {row : Row} {record : Prediction} (made : predictionFromRow cycle market clocks session source row = some record) :
    record.price = positive row.price ∧
      record.consensusWeightPercent = if source = .internal then some 0 else row.consensusWeightPercent := by
  unfold predictionFromRow at made
  split at made
  · cases made
  · obtain ⟨_, _, rfl⟩ := Option.map_eq_some_iff.mp made
    exact ⟨rfl, rfl⟩

theorem servedRow_alike {first last : Row} {record : Prediction} (priced : (positive record.price).isSome)
    (firstView : record.source = .internal → (internalView first).isSome) (lastView : record.source = .internal → (internalView last).isSome)
    (generation : Generation) (cycleId : ℕ) (scope : Scope) (market : Market) :
    servedRow first record generation cycleId scope market = servedRow last record generation cycleId scope market ↔
      first.beside record.source record.consensusWeightPercent.isSome = last.beside record.source record.consensusWeightPercent.isSome := by
  obtain ⟨price, positive⟩ := Option.isSome_iff_exists.mp priced
  cases source : record.source with
  | blend =>
    cases weight : record.consensusWeightPercent <;>
      simp [servedRow, Row.withPrice, positive, weight, source, Row.beside]
  | internal =>
    obtain ⟨score, expected, status, readScore, readExpected, readStatus⟩ := internalView_shown (firstView source)
    obtain ⟨score', expected', status', readScore', readExpected', readStatus'⟩ := internalView_shown (lastView source)
    cases weight : record.consensusWeightPercent <;> cases shown : first.internalTpValidationStatus <;>
      cases shown' : last.internalTpValidationStatus <;>
      simp [servedRow, Row.withPrice, Row.withView, internalView, positive, weight, source, Row.beside, readScore, readExpected, readStatus,
        readScore', readExpected', readStatus', shown, shown'] <;> grind

theorem servedRow_row {row : Row} {record : Prediction} {generation : Generation} {cycleId : ℕ} {scope : Scope} {market : Market}
    {served : ServedRow} (made : servedRow row record generation cycleId scope market = some served) :
    served.row.symbol = row.symbol ∧ served.officialCycleId = cycleId ∧ served.officialScope = scope ∧ served.officialMarket = market := by
  unfold servedRow at made
  obtain ⟨shown, found, rfl⟩ := Option.map_eq_some_iff.mp made
  refine ⟨?_, rfl, rfl, rfl⟩
  have priced : (row.withPrice record).symbol = row.symbol := by
    unfold Row.withPrice
    cases positive record.price <;> rfl
  split at found
  · cases found
    refine Eq.trans ?_ priced
    cases record.consensusWeightPercent <;> rfl
  · obtain ⟨view, _, rfl⟩ := Option.map_eq_some_iff.mp found
    refine Eq.trans ?_ priced
    cases record.consensusWeightPercent <;> rfl

end Rows

section Snapshot

/-- The records of one market that a generation serves, keyed by symbol. -/
structure PredictionSnapshot where
  id : ℕ
  entityKey : String
  publishedAt : Int
  generationId : ℕ
  source : Source
  sourceVersion : String
  sessionDate : Option Int
  targetedCycles : List (String × ℕ)
  results : List Prediction

def withTargetedRecord (store : Store) (market : Market) (source : Source) (found : List Prediction × List (String × ℕ))
    (entry : String × ℕ) : List Prediction × List (String × ℕ) :=
  if entry.1 ∈ found.1.map Prediction.symbol ∨ market ≠ .b3 then found
  else match store.predictionRecord entry.2 entry.1 source with
    | none => found
    | some record => (found.1 ++ [record], found.2 ++ [entry])

/-- Everything a generation serves of a market in one source, and the targeted cycles among it. -/
def Store.generationRecords (store : Store) (generation : Generation) (market : Market) (source : Source) :
    List Prediction × List (String × ℕ) :=
  (sortedEntries generation.targeted).foldl (withTargetedRecord store market source)
    (store.predictionsForCycle (generation.cycles market) source, [])

/-- The snapshot is of one market, named as the generation names its cycle. -/
def Store.officialPredictionSnapshot (store : Store) (market : String) (generation : Option Generation) : Option PredictionSnapshot := do
  let generation ← generation
  let own ← markets.find? fun own => own.name = market
  let (results, targetedCycles) := store.generationRecords generation own generation.source
  some
    { id := generation.cycles own
      entityKey := market ++ "_OFFICIAL"
      publishedAt := generation.activatedAt
      generationId := generation.id
      source := generation.source
      sourceVersion := generation.sourceVersion
      sessionDate := generation.sessionDates own
      targetedCycles, results }

theorem recordOf_withTargeted (market : Market) (source : Source) (entries : List (String × ℕ)) (distinct : (entries.map Prod.fst).Nodup)
    (found : List Prediction × List (String × ℕ)) (symbol : String) :
    recordOf (entries.foldl (withTargetedRecord store market source) found).1 symbol = (recordOf found.1 symbol).or
      (if market = .b3 then (Dict.find symbol entries).bind fun cycleId => store.predictionRecord cycleId symbol source else none) := by
  induction entries generalizing found with
  | nil => simp [Dict.find]
  | cons entry rest ih =>
    obtain ⟨key, cycleId⟩ := entry
    rw [List.map_cons, List.nodup_cons] at distinct
    rw [List.foldl_cons, ih distinct.2]
    -- what this entry adds is of its own symbol, and only where the market has none
    have turn : recordOf (withTargetedRecord store market source found (key, cycleId)).1 symbol = (recordOf found.1 symbol).or
        (if market = .b3 ∧ key = symbol then store.predictionRecord cycleId symbol source else none) := by
      unfold withTargetedRecord
      by_cases held : key ∈ found.1.map Prediction.symbol
      · rw [if_pos (.inl held)]
        by_cases own : key = symbol
        · subst own
          obtain ⟨record, member, same⟩ := List.mem_map.mp held
          have some : (recordOf found.1 key).isSome := List.find?_isSome.mpr ⟨record, member, decide_eq_true same⟩
          obtain ⟨first, firstFound⟩ := Option.isSome_iff_exists.mp some
          rw [firstFound, Option.some_or]
        · rw [if_neg fun both => own both.2, Option.or_none]
      · by_cases b3 : market = .b3
        · rw [if_neg (not_or.mpr ⟨held, not_not_intro b3⟩)]
          dsimp only
          cases read : store.predictionRecord cycleId key source with
          | none =>
            by_cases own : key = symbol
            · subst own
              rw [if_pos ⟨b3, rfl⟩, read, Option.or_none]
            · rw [if_neg fun both => own both.2, Option.or_none]
          | some record =>
            have ofSymbol := (predictionRecord_spec read).2.2.2
            unfold recordOf
            rw [List.find?_append, List.find?_singleton]
            by_cases own : key = symbol
            · subst own
              simp [b3, read, ofSymbol]
            · simp [own, ofSymbol]
        · rw [if_pos (.inr b3), if_neg fun both => b3 both.1, Option.or_none]
    rw [turn, Option.or_assoc]
    congr 1
    by_cases b3 : market = .b3
    · simp only [b3, true_and]
      by_cases own : key = symbol
      · subst own
        have apart : Dict.find key rest = none := by
          rw [Option.eq_none_iff_forall_not_mem]
          intro other found
          have there : (key, other) ∈ rest := Dict.mem_of_find found
          exact distinct.1 (List.mem_map.mpr ⟨_, there, rfl⟩)
        simp [Dict.find, apart]
      · simp [Dict.find, own]
    · simp [b3]

theorem recordOf_generationRecords (generation : Generation) (market : Market) (source : Source) (symbol : String) :
    recordOf (store.generationRecords generation market source).1 symbol =
      (store.predictionRecord (generation.cycles market) symbol source).or
        (if market = .b3 then (generation.targeted.get? symbol).bind fun cycleId => store.predictionRecord cycleId symbol source else none) := by
  unfold Store.generationRecords
  rw [recordOf_withTargeted market source _ (sortedEntries_nodup generation.targeted)]
  have same : Dict.find symbol (sortedEntries generation.targeted) = generation.targeted.get? symbol :=
    get?_sortedTargeted generation.targeted symbol
  rw [same]
  rfl

end Snapshot

section Lookups
variable (store) (generation : Generation) (symbol : String) (market : Market)

/-- What the scan of one market shows of a symbol: its first row under its record. -/
def Store.firstServed : Option ServedRow :=
  (store.analysisSnapshotById (generation.cycles market)).bind fun cycle =>
    (store.predictionRecord (generation.cycles market) symbol generation.source).bind fun record =>
      (cycle.cycleRows.find? fun row => normalise row.symbol = symbol).bind fun row =>
        servedRow row record generation (generation.cycles market) .universe market

/-- What the rows by symbol show of it: its last row under its record. -/
def Store.lastServed : Option ServedRow :=
  (store.analysisSnapshotById (generation.cycles market)).bind fun cycle =>
    (store.predictionRecord (generation.cycles market) symbol generation.source).bind fun record =>
      (displayRow cycle symbol).bind fun row => servedRow row record generation (generation.cycles market) .universe market

end Lookups

/-- A symbol with a record in the market's cycle, its first row, which the record is of, and its last. -/
structure Found (setting : Setting Digest) (store : Store) (generation : Generation) (market : Market) (symbol : String)
    (record : Prediction) where
  recorded : store.predictionRecord (generation.cycles market) symbol generation.source = some record
  cycle : Cycle
  stored : store.analysisSnapshotById (generation.cycles market) = some cycle
  clocks : Int × Int × Option String
  clocked : cycle.clocks = some clocks
  session : Int
  known : setting.calendars.sessions market clocks.1 = some session
  first : Row
  firstFound : cycle.cycleRows.find? (fun row => normalise row.symbol = symbol) = some first
  made : predictionFromRow cycle market clocks session generation.source first = some record
  last : Row
  lastFound : displayRow cycle symbol = some last
  valid : ∀ row ∈ cycle.cycleRows, usable row generation.source = true

section Shown
variable {generation : Generation} (firsts : ∀ record ∈ store.predictions, FirstOfKey setting.calendars store record)
  (whole : Whole setting.calendars store generation)
include firsts whole

theorem Whole.found {market : Market} {symbol : String} {record : Prediction}
    (recorded : store.predictionRecord (generation.cycles market) symbol generation.source = some record) :
    Nonempty (Found setting store generation market symbol record) := by
  obtain ⟨cycle, _, stored, _, ofMarket, _, _, _, complete⟩ := whole.markets market
  obtain ⟨own, clocks, session, first, sameMarket, clocked, known, firstFound, made⟩ :=
    record_of_first firsts complete.usable stored recorded
  rw [ofMarket, Option.some_inj] at sameMarket
  subst sameMarket
  have symbolOf : normalise first.symbol = symbol := of_decide_eq_true (List.find?_some firstFound :)
  obtain ⟨last, _, lastFound⟩ := displayRow_some (List.mem_of_find?_eq_some firstFound)
  exact ⟨{ recorded, cycle, stored, clocks, clocked, session, known, first, firstFound, made, last, valid := complete.usable
           lastFound := symbolOf ▸ lastFound }⟩

end Shown

namespace Found
variable {generation : Generation} {market : Market} {symbol : String} {record : Prediction}
  (found : Found setting store generation market symbol record)

include found

theorem firstIn : found.first ∈ found.cycle.cycleRows := List.mem_of_find?_eq_some found.firstFound

theorem firstSymbol : normalise found.first.symbol = symbol := of_decide_eq_true (List.find?_some found.firstFound :)

theorem lastIn : found.last ∈ found.cycle.cycleRows :=
  List.mem_reverse.mp (List.mem_of_find?_eq_some (show found.cycle.cycleRows.reverse.find? _ = _ from found.lastFound))

theorem lastSymbol : normalise found.last.symbol = symbol :=
  of_decide_eq_true (List.find?_some (show found.cycle.cycleRows.reverse.find? _ = _ from found.lastFound) :)

theorem ofSource : record.source = generation.source := (predictionFromRow_some found.made).2.1

theorem priced : (positive record.price).isSome := by
  have valid := found.valid found.first found.firstIn
  simp only [usable, Bool.and_eq_true] at valid
  obtain ⟨price, read⟩ := Option.isSome_iff_exists.mp valid.1.1.1.1.2
  have above : 0 < price := of_decide_eq_true (Option.filter_eq_some_iff.mp read).2
  rw [(predictionFromRow_shown found.made).1, read]
  simp [positive, Option.filter, above]

theorem firstView : record.source = .internal → (internalView found.first).isSome := fun internal =>
  internalView_usable (found.valid found.first found.firstIn) (found.ofSource ▸ internal)

theorem lastView : record.source = .internal → (internalView found.last).isSome := fun internal =>
  internalView_usable (found.valid found.last found.lastIn) (found.ofSource ▸ internal)

theorem firstServed : store.firstServed generation symbol market =
    servedRow found.first record generation (generation.cycles market) .universe market := by
  unfold Store.firstServed
  rw [found.stored, Option.bind_some, found.recorded, Option.bind_some, found.firstFound, Option.bind_some]

theorem lastServed : store.lastServed generation symbol market =
    servedRow found.last record generation (generation.cycles market) .universe market := by
  unfold Store.lastServed
  rw [found.stored, Option.bind_some, found.recorded, Option.bind_some, found.lastFound, Option.bind_some]

theorem firstServed_isSome : (store.firstServed generation symbol market).isSome := by
  obtain ⟨served, made, _⟩ := servedRow_usable generation (found.valid found.first found.firstIn) found.ofSource
    (generation.cycles market) .universe market
  rw [found.firstServed, made]
  rfl

theorem lastServed_isSome : (store.lastServed generation symbol market).isSome := by
  obtain ⟨served, made, _⟩ := servedRow_usable generation (found.valid found.last found.lastIn) found.ofSource
    (generation.cycles market) .universe market
  rw [found.lastServed, made]
  rfl

theorem served_alike : store.firstServed generation symbol market = store.lastServed generation symbol market ↔
    found.first.beside generation.source (if generation.source = .internal then some 0 else found.first.consensusWeightPercent).isSome =
      found.last.beside generation.source (if generation.source = .internal then some 0 else found.first.consensusWeightPercent).isSome := by
  rw [found.firstServed, found.lastServed, servedRow_alike found.priced found.firstView found.lastView, found.ofSource,
    (predictionFromRow_shown found.made).2]

end Found

section Readers
variable {generation : Generation} (firsts : ∀ record ∈ store.predictions, FirstOfKey setting.calendars store record)
  (whole : Whole setting.calendars store generation)

theorem unserved {market : Market} {symbol : String}
    (unrecorded : store.predictionRecord (generation.cycles market) symbol generation.source = none) :
    store.firstServed generation symbol market = none ∧ store.lastServed generation symbol market = none := by
  unfold Store.firstServed Store.lastServed
  constructor <;> cases store.analysisSnapshotById (generation.cycles market) <;> simp [unrecorded]

include firsts whole

theorem Whole.universeRow_eq (symbol : String) (asked : List Market) :
    store.universeRow generation symbol asked = (asked.findSome? (store.firstServed generation symbol)).map some := by
  induction asked with
  | nil => rfl
  | cons market rest ih =>
    unfold Store.universeRow
    rw [List.findSome?_cons]
    cases recorded : store.predictionRecord (generation.cycles market) symbol generation.source with
    | none =>
      simp only [recorded, (unserved recorded).1]
      exact ih
    | some record =>
      obtain ⟨found⟩ := whole.found firsts recorded
      obtain ⟨served, shown⟩ := Option.isSome_iff_exists.mp found.firstServed_isSome
      simp only [recorded, found.stored, found.firstFound, shown]
      rw [← found.firstServed, shown]
      rfl

theorem Whole.officialRows_eq (symbol : String) (request : Option String) :
    (store.officialRows request (some generation)).get? symbol = (marketsFor request).findSome? (store.lastServed generation symbol) := by
  have own (market : Market) : ((store.marketRows generation market).find? fun entry => entry.1 = symbol).map Prod.snd =
      store.lastServed generation symbol market := by
    obtain ⟨cycle, _, stored, _, _, _, _, _, complete⟩ := whole.markets market
    unfold Store.marketRows Store.lastServed
    rw [stored, Option.bind_some]
    dsimp only
    rw [List.find?_filterMap]
    have kept : (store.predictionsForCycle (generation.cycles market) generation.source).find? (fun record =>
        (((displayRow cycle record.symbol).bind fun row => (servedRow row record generation (generation.cycles market) .universe market).map
          fun served => (record.symbol, served)).any fun entry => entry.1 = symbol)) =
        store.predictionRecord (generation.cycles market) symbol generation.source := by
      apply List.find?_congr
      intro record member
      have held : record.symbol ∈ store.recordedSymbols (generation.cycles market) generation.source := List.mem_map_of_mem member
      obtain ⟨first, recorded⟩ := Option.isSome_iff_exists.mp (predictionRecord_isSome held)
      obtain ⟨found⟩ := whole.found firsts recorded
      have ofSource : record.source = generation.source := (of_decide_eq_true (List.mem_filter.mp member).2).2
      obtain ⟨served, made, _⟩ := servedRow_usable generation (found.valid found.last found.lastIn) ofSource
        (generation.cycles market) .universe market
      cases stored.symm.trans found.stored
      rw [found.lastFound, Option.bind_some, made]
      rfl
    rw [kept]
    cases recorded : store.predictionRecord (generation.cycles market) symbol generation.source with
    | none => rfl
    | some record =>
      have ofSymbol := (predictionRecord_spec recorded).2.2.2
      rw [Option.bind_some, Option.bind_some, ofSymbol]
      cases displayRow cycle symbol with
      | none => rfl
      | some row =>
        rw [Option.bind_some, Option.bind_some]
        cases servedRow row record generation (generation.cycles market) .universe market <;> rfl
  unfold Store.officialRows
  rw [Dict.get?_foldl_first, Dict.get?_empty, Option.none_or, List.find?_flatMap, List.map_findSome?]
  congr 1
  exact funext own

end Readers

end C3po.Official
