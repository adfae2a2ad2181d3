import C3po.Official.Linear

/-! The ledger of the served target: what a capture reads and what it appends.

A capture compares what the generation in force serves with the ledger's own latest
record of each symbol. The words of a record, its company and its currency are left out.
-/

set_option autoImplicit false

namespace C3po.Official
open C3po.Library
open C3po.Prices (normalise)

inductive Trigger where
  | initial | financialResults | materialEvent | webResearch | marketData | methodology
  deriving DecidableEq, Repr

/-- The four numbers of a record. -/
structure Values where
  tp : Option ℚ
  buyIn : Option ℚ
  consensusTp : Option ℚ
  confidence : Option ℚ
  deriving DecidableEq, Repr

def Values.unknown : Values := ⟨none, none, none, none⟩

/-- A record of the ledger. A legacy one has neither source nor generation. -/
structure Change where
  market : String
  symbol : String
  tpSource : Option Source
  generationId : Option ℕ
  changedAt : Int
  triggerType : Trigger
  changedFields : List String
  eventId : Option ℕ
  old : Values
  new : Values
  tpChangePercent : Option ℚ
  price : Option ℚ
  tpSourceVersion : Option String
  officialCycleId : Option ℕ
  predictionInstant : Option Int
  deriving DecidableEq, Repr

namespace Change
variable (record : Change)

def key : String × String := (record.market, record.symbol)

def legacy : Prop := record.tpSource = none ∧ record.generationId = none

end Change

/-- An event of the investor relations that matters for a valuation. -/
structure IrEvent where
  id : ℕ
  eventType : String
  publishedAt : Option Int
  collectedAt : Option Int

/-- When an event was known: the later of its two clocks. -/
def IrEvent.instant (event : IrEvent) : Option Int := [event.publishedAt, event.collectedAt].reduceOption.max?

def isAfter (candidate reference : Option Int) : Bool :=
  match candidate, reference with
  | some candidate, some reference => reference < candidate
  | _, _ => false

/-- The served numbers: label, column and the decimals shown. -/
def servedFields : List (String × (Values → Option ℚ) × ℕ) :=
  [("c3po_tp", Values.tp, 2), ("buy_in", Values.buyIn, 2), ("consensus_tp", Values.consensusTp, 2),
    ("confidence", Values.confidence, 1)]

def servedValues (item : ServedRow) : Values :=
  ⟨item.ourTp, item.buyIn, item.row.publicConsensusTp, item.row.valuationConfidence⟩

/-- The latest record of a symbol: by clock, then by insertion. -/
def latestValuationChange (ledger : List Change) (key : String × String) : Option Change :=
  latest Change.changedAt (ledger.filter fun record => record.key = key).reverse

/-- Whether two numbers show differently. -/
def moved (decimals : ℕ) : Option ℚ → Option ℚ → Bool
  | none, none => false
  | some old, some new => roundTo decimals old ≠ roundTo decimals new
  | _, _ => true

def servedChangedFields (previous : Option Change) (values : Values) (tpSource : Source) : List String :=
  match previous with
  | none => []
  | some previous =>
      (servedFields.filter fun field => moved field.2.2 (field.2.1 previous.new) (field.2.1 values)).map Prod.fst ++
        if previous.tpSource ≠ some tpSource then ["tp_source"] else []

/-- Why a record that has a previous one was appended, and the event it names. An event
after the prediction cannot explain it, nor can one explain an order or another source. -/
def changeTrigger (head : Generation) (item : ServedRow) (previous : Change) (event : Option IrEvent) :
    Trigger × Option ℕ :=
  let known := event.bind IrEvent.instant
  let changeEvent :=
    if isAfter known (some previous.changedAt) && !isAfter known (some item.predictionInstant) then event else none
  if previous.tpSource ≠ some item.tpSource then (.methodology, none)
  else if head.receipt.explicit then (.methodology, none)
  else
    match changeEvent with
    | some event => (if event.eventType = "Financial Results" then .financialResults else .materialEvent, some event.id)
    | none =>
        if item.tpSourceVersion ≠ previous.tpSourceVersion.getD "None" then (.methodology, none) else (.marketData, none)

/-- When the served number started being served, past the symbol's latest record. -/
def recordAt (head : Generation) : Option Change → Int
  | none => head.activatedAt
  | some previous => if head.activatedAt ≤ previous.changedAt then previous.changedAt + 1 else head.activatedAt

def servedChange (head : Generation) (key : String × String) (item : ServedRow) (previous : Option Change)
    (fields : List String) (event : Option IrEvent) : Change :=
  let values := servedValues item
  let old := (previous.map Change.new).getD Values.unknown
  let trigger : Trigger × Option ℕ := match previous with
    | none => (.initial, none)
    | some previous => changeTrigger head item previous event
  { market := key.1
    symbol := key.2
    tpSource := some item.tpSource
    generationId := some head.id
    changedAt := recordAt head previous
    triggerType := trigger.1
    changedFields := fields
    eventId := trigger.2
    old
    new := values
    tpChangePercent := (positive old.tp).map fun before => (values.tp.getD 0 / before - 1) * 100
    price := item.row.price
    tpSourceVersion := some item.tpSourceVersion
    officialCycleId := some item.officialCycleId
    predictionInstant := some item.predictionInstant }

/-- The events a capture finds: one for a symbol, under B3 or the US. -/
abbrev IrEvents := String → String → Option IrEvent

def irMarket (market : String) : String := if market = "B3" then "B3" else "US"

/-- What a served row adds to the ledger, if anything. -/
def changeOf (events : IrEvents) (head : Generation) (ledger : List Change)
    (entry : (String × String) × ServedRow) : Option Change :=
  let values := servedValues entry.2
  if (positive values.tp).isNone then none
  else
    let previous := latestValuationChange ledger entry.1
    let fields := servedChangedFields previous values entry.2.tpSource
    if previous.isNone || !fields.isEmpty then
      some (servedChange head entry.1 entry.2 previous (if fields.isEmpty then ["initial_valuation"] else fields)
        (events (irMarket entry.1.1) entry.1.2))
    else none

/-- The rows a generation serves, by market and symbol. -/
abbrev ServedRows := Dict (String × String) ServedRow

def servedChanges (events : IrEvents) (head : Generation) (served : ServedRows) (ledger : List Change) : List Change :=
  (stableSort (fun entry => toLex entry.1) served.entries).filterMap (changeOf events head ledger)

/-- One row; a record of a stored generation and symbol is dropped. -/
def insertValuationChange (ledger : List Change) (record : Change) : List Change :=
  if ledger.any fun other => other.generationId = record.generationId ∧ other.key = record.key then ledger
  else ledger ++ [record]

def storeValuationChanges (ledger : List Change) (records : List Change) : List Change :=
  records.foldl insertValuationChange ledger

section Reads

def addMarketRows (head : Generation) (served : ServedRows) (market : Market) : Process ServedRows := do
  let rows ← Program.read fun store => store.officialRows (some market.name) (some head)
  pure (rows.entries.foldl (fun served entry =>
    let key := (market.name, normalise entry.1)
    if served.contains key then served else served.insert key entry.2) served)

def addTargetedRow (head : Generation) (served : ServedRows) (entry : String × ℕ) : Process ServedRows :=
  let key := ("B3", normalise entry.1)
  if served.contains key then pure served
  else do
    let item ← Program.read fun store => store.officialRow (some "B3") key.2 (some head)
    match item with
    | none => pure served
    | some item => pure (served.insert key item)

def servedRows (head : Generation) : Process ServedRows := do
  let served ← markets.foldlM (addMarketRows head) .empty
  (sortedEntries head.targeted).foldlM (addTargetedRow head) served

def captureHead : Option Generation → Process (Option (Generation × ServedRows))
  | none => pure none
  | some head => do
      let served ← servedRows head
      pure (some (head, served))

/-- What a capture reads of the selection: the head, and the rows it serves. -/
def captureReads : Process (Option (Generation × ServedRows)) := do
  let head ← Program.read Store.latestSelection
  captureHead head

end Reads

/-- The end of a capture: the ledger compared with what was read, and written. -/
def captureServedValuationChanges (events : IrEvents) (captured : Option (Generation × ServedRows))
    (ledger : List Change) : List Change :=
  match captured with
  | none => ledger
  | some (head, served) => storeValuationChanges ledger (servedChanges events head served ledger)

/-- A capture under way, and the store when it took the lock. -/
structure Capturing where
  begun : Store
  program : Process (Option (Generation × ServedRows))
  log : List (Event Store Reading)

/-- A capture that completed, and the head it read. -/
structure Completed where
  begun : Store
  head : Option Generation

/-- The calls of the selection, the ledger, the one capture that holds its lock and those
that completed. -/
structure Desk {Digest : Type} (setting : Setting Digest) where
  calls : Calls setting
  ledger : List Change
  capturing : Option Capturing
  completed : List Completed

namespace Desk
variable {Digest : Type} [DecidableEq Digest] {setting : Setting Digest}

def store (desk : Desk setting) : Store := desk.calls.store

/-- One step: of a call, or of a capture. A capture may fail anywhere before its write. -/
inductive Step : Desk setting → Desk setting → Prop where
  | call (desk : Desk setting) {calls : Calls setting} (step : Pool.Step Call.body setting.allowed desk.calls calls) :
      Step desk { desk with calls }
  | lock (desk : Desk setting) (free : desk.capturing = none) :
      Step desk { desk with capturing := some ⟨desk.store, captureReads, []⟩ }
  | read (desk : Desk setting) {begun : Store} {effect : Store → Store}
      {rest : Store → Process (Option (Generation × ServedRows))} {log : List (Event Store Reading)}
      (held : desk.capturing = some ⟨begun, .act effect rest, log⟩) :
      Step desk { desk with
        calls := { desk.calls with store := effect desk.store }
        capturing := some ⟨begun, rest desk.store, log ++ [.stepped desk.store (effect desk.store)]⟩ }
  | fail (desk : Desk setting) : Step desk { desk with capturing := none }
  | write (desk : Desk setting) (events : IrEvents) {begun : Store} {captured : Option (Generation × ServedRows)}
      {log : List (Event Store Reading)} (held : desk.capturing = some ⟨begun, .done captured, log⟩) :
      Step desk { desk with
        ledger := captureServedValuationChanges events captured desk.ledger
        capturing := none
        completed := desk.completed ++ [⟨begun, captured.map Prod.fst⟩] }

end Desk

/-! A selected generation has no hole: whatever it names is there to be served. -/

variable {Digest : Type} {setting : Setting Digest} {store : Store}

/-- The symbols of targeted cycles are plain: catalogue tickers without a suffix. -/
def Setting.Plain (setting : Setting Digest) : Prop :=
  ∀ cycle, setting.producible cycle → cycle.analysisType = .targeted → ∀ row ∈ cycle.cycleRows,
    Store.lookupKey row.symbol = normalise row.symbol

structure MarketServed (calendars : Calendars) (store : Store) (generation : Generation) (market : Market)
    (cycle : Cycle) : Prop where
  stored : store.analysisSnapshotById (generation.cycles market) = some cycle
  kind : cycle.analysisType = .universe
  ofMarket : cycle.market = some market
  session : ∃ clocks, cycle.clocks = some clocks ∧ generation.sessionDates market = calendars.sessions market clocks.1 ∧
    (generation.sessionDates market).isSome
  rows : cycle.cycleRows ≠ []
  usable : ∀ row ∈ cycle.cycleRows, usable row generation.source = true
  recorded : ∀ row ∈ cycle.cycleRows,
    (store.predictionRecord (generation.cycles market) (normalise row.symbol) generation.source).isSome
  served : ∀ request, market ∈ marketsFor request → ∀ row ∈ cycle.cycleRows, ∃ served,
    (store.officialRows request (some generation)).get? (normalise row.symbol) = some served ∧
      served.tpSource = generation.source

/-- A targeted symbol is served, by its own cycle unless the universe serves it first. -/
def TargetedServed (store : Store) (generation : Generation) (symbol : String) (cycleId : ℕ) : Prop :=
  ∀ request, .b3 ∈ marketsFor request → ∃ served,
    store.officialRow request symbol (some generation) = some served ∧ served.tpSource = generation.source ∧
      (store.universeRow generation symbol (marketsFor request) = none →
        served.officialCycleId = cycleId ∧ served.officialScope = .targeted)

section Rows
variable {source : Source} {row : Row} {record : Prediction}

theorem servedRow_usable (generation : Generation) (valid : usable row source = true) (ofSource : record.source = source) (cycleId : ℕ)
    (scope : Scope) (market : Market) : ∃ served, servedRow row record generation cycleId scope market = some served ∧
      served.tpSource = source ∧ served.officialCycleId = cycleId ∧ served.officialScope = scope := by
  unfold servedRow
  cases ofSource
  cases own : record.source with
  | blend => exact ⟨_, rfl, rfl, rfl, rfl⟩
  | internal =>
    rw [own] at valid
    simp only [usable, Bool.and_eq_true, Bool.or_eq_true, ne_eq, not_true_eq_false, decide_false,
      Bool.false_eq_true, false_or] at valid
    obtain ⟨view, found⟩ := Option.isSome_iff_exists.mp valid.2.2
    simp only [found, Option.map_some]
    exact ⟨_, rfl, rfl, rfl, rfl⟩

theorem displayRow_some {cycle : Cycle} (member : row ∈ cycle.cycleRows) :
    ∃ last ∈ cycle.cycleRows, displayRow cycle (normalise row.symbol) = some last := by
  unfold displayRow
  obtain ⟨last, found⟩ := Option.isSome_iff_exists.mp (List.find?_isSome
    (p := fun other : Row => decide (normalise other.symbol = normalise row.symbol)).mpr
      ⟨row, List.mem_reverse.mpr member, decide_eq_true rfl⟩)
  exact ⟨last, List.mem_reverse.mp (List.mem_of_find?_eq_some found), found⟩

end Rows

section Universe
variable {generation : Generation} {market : Market} {cycle : Cycle}
  (stored : store.analysisSnapshotById (generation.cycles market) = some cycle)
  (complete : Complete store generation.source cycle)
include stored complete

theorem marketRows_some {row : Row} (member : row ∈ cycle.cycleRows) : ∃ served,
    (normalise row.symbol, served) ∈ store.marketRows generation market := by
  have id := snapshot_id stored
  obtain ⟨record, recordIn, same⟩ := List.mem_map.mp (complete.recorded row member)
  obtain ⟨_, matched⟩ := List.mem_filter.mp recordIn
  obtain ⟨last, lastIn, display⟩ := displayRow_some member
  obtain ⟨served, made, _⟩ := servedRow_usable generation (complete.usable last lastIn)
    (of_decide_eq_true matched).2 (generation.cycles market) .universe market
  unfold Store.marketRows
  rw [stored]
  refine ⟨served, List.mem_filterMap.mpr ⟨record, id ▸ recordIn, ?_⟩⟩
  rw [same, display, Option.bind_some, made]
  rfl

omit complete in
theorem marketRows_source {entry : String × ServedRow} (member : entry ∈ store.marketRows generation market) :
    entry.2.tpSource = generation.source := by
  unfold Store.marketRows at member
  rw [stored] at member
  obtain ⟨record, recordIn, made⟩ := List.mem_filterMap.mp member
  obtain ⟨_, matched⟩ := List.mem_filter.mp recordIn
  obtain ⟨row, _, shown⟩ := Option.bind_eq_some_iff.mp made
  obtain ⟨served, servedFrom, rfl⟩ := Option.map_eq_some_iff.mp shown
  unfold servedRow at servedFrom
  obtain ⟨_, _, rfl⟩ := Option.map_eq_some_iff.mp servedFrom
  exact (of_decide_eq_true matched).2

end Universe

section Generation
variable {calendars : Calendars} {generation : Generation} (whole : Whole calendars store generation)
include whole

theorem Whole.officialRows {market : Market} {request : Option String} {cycle : Cycle} {row : Row}
    (stored : store.analysisSnapshotById (generation.cycles market) = some cycle)
    (complete : Complete store generation.source cycle) (asked : market ∈ marketsFor request)
    (member : row ∈ cycle.cycleRows) : ∃ served,
      (store.officialRows request (some generation)).get? (normalise row.symbol) = some served ∧
        served.tpSource = generation.source := by
  obtain ⟨first, firstIn⟩ := marketRows_some stored complete member
  have known := List.find?_isSome
    (p := fun entry : String × ServedRow => decide (entry.1 = normalise row.symbol)).mpr
      ⟨_, List.mem_flatMap.mpr ⟨market, asked, firstIn⟩, decide_eq_true rfl⟩
  obtain ⟨entry, found⟩ := Option.isSome_iff_exists.mp known
  obtain ⟨other, otherAsked, there⟩ := List.mem_flatMap.mp (List.mem_of_find?_eq_some found)
  obtain ⟨otherCycle, _, otherStored, _⟩ := whole.markets other
  refine ⟨entry.2, ?_, marketRows_source otherStored there⟩
  unfold Store.officialRows
  rw [Dict.get?_foldl_first, found]
  rfl

theorem Whole.marketServed (market : Market) : ∃ cycle, MarketServed calendars store generation market cycle := by
  obtain ⟨cycle, clocks, stored, kind, ofMarket, clocked, session, known, complete⟩ := whole.markets market
  exact ⟨cycle,
    { stored
      kind
      ofMarket
      session := ⟨clocks, clocked, session, known⟩
      rows := complete.rows
      usable := complete.usable
      recorded := fun row member => predictionRecord_isSome (snapshot_id stored ▸ complete.recorded row member)
      served := fun request asked row member => whole.officialRows stored complete asked member }⟩

theorem Whole.universeRow {symbol : String} (asked : List Market) {answer : Option ServedRow}
    (found : store.universeRow generation symbol asked = some answer) :
    ∃ served, answer = some served ∧ served.tpSource = generation.source := by
  induction asked with
  | nil => cases found
  | cons market rest ih =>
    obtain ⟨cycle, _, stored, _, _, _, _, _, complete⟩ := whole.markets market
    unfold Store.universeRow at found
    simp only [stored] at found
    split at found
    · rename_i record other recordFound same
      cases same
      split at found
      · rename_i row rowFound
        obtain ⟨served, made, ofSource, _⟩ := servedRow_usable generation
          (complete.usable row (List.mem_of_find?_eq_some rowFound))
          (predictionRecord_spec recordFound).2.2.1 (generation.cycles market) .universe market
        rw [made] at found
        cases found
        exact ⟨served, rfl, ofSource⟩
      · exact ih found
    · exact ih found

theorem Whole.targetedRow {symbol : String} {cycleId : ℕ} (sound : Sound setting store)
    (held : generation.targeted.get? symbol = some cycleId) : ∃ served,
      store.targetedRow generation symbol = some served ∧ served.tpSource = generation.source ∧
        served.officialCycleId = cycleId ∧ served.officialScope = .targeted := by
  obtain ⟨cycle, _, stored, _, _, _, complete, recorded⟩ := whole.targeted symbol cycleId held
  obtain ⟨record, recordFound⟩ := Option.isSome_iff_exists.mp (predictionRecord_isSome recorded)
  obtain ⟨recordIn, ofCycle, ofSource, ofSymbol⟩ := predictionRecord_spec recordFound
  -- the record was made of a row of this very cycle
  obtain ⟨origin, _, _, _, originStored, _, _, _, made, _⟩ := sound.recorded record recordIn
  rw [ofCycle, stored, Option.some_inj] at originStored
  subst originStored
  obtain ⟨_, row, member, from'⟩ := mem_cyclePredictions.mp made
  have same : normalise row.symbol = symbol := (predictionFromRow_some from').2.2.1.symm.trans ofSymbol
  obtain ⟨first, firstFound⟩ := Option.isSome_iff_exists.mp (List.find?_isSome
    (p := fun other : Row => decide (normalise other.symbol = symbol)).mpr ⟨row, member, decide_eq_true same⟩)
  obtain ⟨served, servedFrom, facts⟩ := servedRow_usable generation
    (complete.usable first (List.mem_of_find?_eq_some firstFound)) ofSource cycleId .targeted .b3
  refine ⟨served, ?_, facts⟩
  unfold Store.targetedRow
  rw [held, Option.bind_some, stored, Option.bind_some, recordFound, Option.bind_some, firstFound, Option.bind_some,
    servedFrom]

theorem Whole.lookupKey {symbol : String} {cycleId : ℕ} (sound : Sound setting store) (plain : setting.Plain)
    (held : generation.targeted.get? symbol = some cycleId) : Store.lookupKey symbol = symbol := by
  obtain ⟨cycle, _, stored, kind, _, _, _, recorded⟩ := whole.targeted symbol cycleId held
  obtain ⟨record, recordIn, ofSymbol⟩ := List.mem_map.mp recorded
  obtain ⟨there, matched⟩ := List.mem_filter.mp recordIn
  obtain ⟨origin, _, _, _, originStored, _, _, _, made, _⟩ := sound.recorded record there
  rw [(of_decide_eq_true matched).1, stored, Option.some_inj] at originStored
  subst originStored
  obtain ⟨_, row, member, from'⟩ := mem_cyclePredictions.mp made
  obtain ⟨original, produced, alike⟩ := sound.produced cycle (List.mem_of_find?_eq_some stored)
  have own : row ∈ original.cycleRows := by
    rw [alike] at member
    exact member
  have key := plain original produced (by rw [alike] at kind; exact kind) row own
  have symbolOf : normalise row.symbol = symbol := (predictionFromRow_some from').2.2.1.symm.trans ofSymbol
  unfold Store.lookupKey at key ⊢
  rw [symbolOf] at key
  rw [← symbolOf, normalise_normalise, symbolOf]
  exact key

theorem Whole.targetedServed {symbol : String} {cycleId : ℕ} (sound : Sound setting store) (plain : setting.Plain)
    (held : generation.targeted.get? symbol = some cycleId) : TargetedServed store generation symbol cycleId := by
  intro request asked
  obtain ⟨served, found, ofSource, own⟩ := whole.targetedRow sound held
  unfold Store.officialRow
  simp only [whole.lookupKey sound plain held]
  cases answered : store.universeRow generation symbol (marketsFor request) with
  | none =>
    simp only [if_pos asked]
    exact ⟨served, found, ofSource, fun _ => own⟩
  | some answer =>
    obtain ⟨first, rfl, firstSource⟩ := whole.universeRow _ answered
    exact ⟨first, rfl, firstSource, fun none => nomatch none⟩

end Generation

variable [DecidableEq Digest]

end C3po.Official
