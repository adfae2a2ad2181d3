import C3po.Official.Cycle

/-! What a generation serves: the records of its cycles, each shown on its own row. -/

set_option autoImplicit false

namespace C3po.Official
open C3po.Library
open C3po.Prices (normalise)

structure ServedRow where
  row : Row
  tpSource : Source
  tpSourceVersion : String
  generationId : ℕ
  officialCycleId : ℕ
  officialScope : Scope
  officialMarket : Market
  officialSessionDate : Int
  predictionInstant : Int
  officialPublishedAt : Int
  deriving DecidableEq

namespace ServedRow
variable (served : ServedRow)

def ourTp : Option ℚ := served.row.ourTp
def buyIn : Option ℚ := served.row.buyIn

end ServedRow

/-- The two identities of the producer over the served numbers. -/
def Row.withPrice (row : Row) (record : Prediction) : Row :=
  match positive record.price with
  | none => row
  | some price => { row with
      upsidePercent := some ((record.tp / price - 1) * 100)
      priceVsBuyInPercent := some ((price / record.buyIn - 1) * 100) }

def Row.withView (row : Row) (view : View) : Row :=
  { row with
    score := some view.score
    status := some view.status
    expectedTotalReturnPercent := some view.expectedTotalReturnPercent
    tpValidationStatus := match view.tpValidationStatus with
      | some shown => some shown
      | none => row.tpValidationStatus }

/-- The row of a record as a consumer receives it. An internal record whose row has no
internal view is not served. -/
def servedRow (row : Row) (record : Prediction) (generation : Generation) (cycleId : ℕ) (scope : Scope)
    (market : Market) : Option ServedRow :=
  let stamped := row.withPrice record
  let weighted := match record.consensusWeightPercent with
    | some weight => { stamped with consensusWeightPercent := some weight }
    | none => stamped
  let shown := match record.source with
    | .blend => some weighted
    | .internal => (internalView row).map weighted.withView
  shown.map fun row =>
    { row := { row with ourTp := some record.tp, buyIn := some record.buyIn }
      tpSource := record.source
      tpSourceVersion := record.sourceVersion
      generationId := generation.id
      officialCycleId := cycleId
      officialScope := scope
      officialMarket := market
      officialSessionDate := record.sessionDate
      predictionInstant := record.predictionInstant
      officialPublishedAt := record.publishedAt }

/-- The markets a request names: every one, the two of the US, or the one of the name. -/
def marketsFor : Option String → List Market
  | none => markets
  | some name =>
      let clean := normalise name
      if clean = "US" then [.nasdaq, .nyse] else markets.filter fun market => market.name = clean

/-- Of the rows of one symbol, the last one. -/
def displayRow (cycle : Cycle) (symbol : String) : Option Row :=
  cycle.cycleRows.reverse.find? fun row => normalise row.symbol = symbol

namespace Store
variable (store : Store)

def marketRows (generation : Generation) (market : Market) : List (String × ServedRow) :=
  match store.analysisSnapshotById (generation.cycles market) with
  | none => []
  | some cycle =>
      (store.predictionsForCycle (generation.cycles market) generation.source).filterMap fun record =>
        (displayRow cycle record.symbol).bind fun row =>
          (servedRow row record generation (generation.cycles market) .universe market).map
            fun served => (record.symbol, served)

/-- Every official row of the markets a request names; the first of a symbol stays. -/
def officialRows (request : Option String) (generation : Option Generation) : Dict String ServedRow :=
  match generation with
  | none => .empty
  | some generation =>
      ((marketsFor request).flatMap (store.marketRows generation)).foldl
        (fun result entry => if result.contains entry.1 then result else result.insert entry.1 entry.2) .empty

/-- The answer of the universe cycles, the first that has the symbol. -/
def universeRow (generation : Generation) (clean : String) : List Market → Option (Option ServedRow)
  | [] => none
  | market :: rest =>
      let cycleId := generation.cycles market
      match store.predictionRecord cycleId clean generation.source, store.analysisSnapshotById cycleId with
      | some record, some cycle =>
          match cycle.cycleRows.find? fun row => normalise row.symbol = clean with
          | some row => some (servedRow row record generation cycleId .universe market)
          | none => universeRow generation clean rest
      | _, _ => universeRow generation clean rest

/-- The answer of the targeted cycle admitted for the symbol. -/
def targetedRow (generation : Generation) (clean : String) : Option ServedRow :=
  (generation.targeted.get? clean).bind fun cycleId =>
    (store.analysisSnapshotById cycleId).bind fun cycle =>
      (store.predictionRecord cycleId clean generation.source).bind fun record =>
        (cycle.cycleRows.find? fun row => normalise row.symbol = clean).bind fun row =>
          servedRow row record generation cycleId .targeted .b3

def lookupKey (symbol : String) : String := removesuffix (removesuffix (normalise symbol) ".SA") ".US"

/-- The official row of one symbol: from the universe, else from its targeted cycle. -/
def officialRow (request : Option String) (symbol : String) (generation : Option Generation) :
    Option ServedRow :=
  match generation with
  | none => none
  | some generation =>
      match store.universeRow generation (lookupKey symbol) (marketsFor request) with
      | some answer => answer
      | none => if .b3 ∈ marketsFor request then store.targetedRow generation (lookupKey symbol) else none

end Store

/-! The before/after report of a switch of the official source.

The report compares what a generation serves as the blend with what a proposed
composition would serve as the internal source, and binds the proposal: the hash an
order cites is the hash of this comparison. Its reads come first, its figures after. A
number is exact.
-/

section Figures

/-- Linear interpolation at position `(n - 1) * fraction` of the sorted sample. -/
def percentile (values : List ℚ) (fraction : ℚ) : Option ℚ :=
  let ordered := stableSort id values
  let position := ((ordered.length : ℚ) - 1) * fraction
  let lower := ordered[position.floor.toNat]?
  let upper := ordered[position.ceil.toNat]?
  if position.floor = position.ceil then lower
  else do
    let weight := position - position.floor
    pure ((← lower) * (1 - weight) + (← upper) * weight)

def median (values : List ℚ) : Option ℚ :=
  let ordered := stableSort id values
  let half := ordered.length / 2
  if ordered.length % 2 = 1 then ordered[half]?
  else do pure (((← ordered[half - 1]?) + (← ordered[half]?)) / 2)

structure RatioStats where
  median : Option ℚ
  p10 : Option ℚ
  p90 : Option ℚ
  absMedian : Option ℚ
  absP90 : Option ℚ

def ratioStats (values : List ℚ) : RatioStats :=
  let magnitudes := values.map fun value => |value|
  ⟨median values, percentile values (1 / 10), percentile values (9 / 10), median magnitudes,
    percentile magnitudes (9 / 10)⟩

structure Quantiles where
  p10 : Option ℚ
  p25 : Option ℚ
  median : Option ℚ
  p75 : Option ℚ
  p90 : Option ℚ

def quantiles (values : List ℚ) : Quantiles :=
  ⟨percentile values (1 / 10), percentile values (1 / 4), median values, percentile values (3 / 4),
    percentile values (9 / 10)⟩

def changeBounds : List (String × ℚ) :=
  [("lt_1pct", 1 / 100), ("1_to_5pct", 5 / 100), ("5_to_10pct", 10 / 100), ("10_to_25pct", 25 / 100)]

def changeBucket (ratio : ℚ) : String :=
  ((changeBounds.find? fun bound => |ratio| < bound.2).map Prod.fst).getD "ge_25pct"

structure ChangeBuckets where
  down : ℕ
  flat : ℕ
  up : ℕ
  magnitudes : List (String × ℕ)

def changeBuckets (ratios : List ℚ) : ChangeBuckets :=
  { down := ratios.countP (· < 0)
    flat := ratios.countP (· = 0)
    up := ratios.countP (0 < ·)
    magnitudes := (changeBounds.map Prod.fst ++ ["ge_25pct"]).map fun name =>
      (name, ratios.countP fun ratio => changeBucket ratio = name) }

def tally (texts : List String) : List (String × ℕ) :=
  stableSort Prod.fst (texts.dedup.map fun text => (text, texts.count text))

structure StatusBlock where
  before : List (String × ℕ)
  after : List (String × ℕ)
  changed : ℕ
  transitions : List (String × ℕ)

def statusBlock (pairs : List (String × String)) : StatusBlock :=
  let moved := pairs.filter fun pair => pair.1 ≠ pair.2
  ⟨tally (pairs.map Prod.fst), tally (pairs.map Prod.snd), moved.length,
    tally (moved.map fun pair => pair.1 ++ "->" ++ pair.2)⟩

def ratingCuts : List (String × ℚ) := [("COMPRA", 25), ("ACUMULAR", 10), ("NEUTRO", -10)]

def onePagerRating (upsidePercent : Option ℚ) : Option String :=
  upsidePercent.map fun upside =>
    ((ratingCuts.find? fun cut => cut.2 ≤ upside).map Prod.fst).getD "REDUZIR"

def buyStatus : String := "full_match"

end Figures

/-- One symbol recorded in both arms, and what each arm shows of it. -/
structure Pair where
  symbol : String
  before : Prediction
  after : Prediction
  shownBefore : Option ServedRow
  shownAfter : Option ServedRow

/-- What the report reads of one market. -/
structure Comparison where
  pairs : List Pair
  missing : List String
  onlyInternal : List String

/-- What both sides of a pair show. -/
structure PairView where
  statusBlend : String
  statusInternal : String
  upsideBlend : Option ℚ
  upsideInternal : Option ℚ
  scoreBlend : Option ℚ
  scoreInternal : Option ℚ
  validatedBlend : Bool
  validatedInternal : Bool
  ratingBlend : String
  ratingInternal : String
  validationPresent : Bool

namespace Pair
variable (pair : Pair)

def tpRatio : ℚ := pair.after.tp / pair.before.tp - 1
def buyInRatio : ℚ := pair.after.buyIn / pair.before.buyIn - 1

def view : Option PairView := do
  let before := (← pair.shownBefore).row
  let after := (← pair.shownAfter).row
  pure
    { statusBlend := before.status.getD "unknown"
      statusInternal := after.status.getD "unknown"
      upsideBlend := before.upsidePercent
      upsideInternal := after.upsidePercent
      scoreBlend := before.score
      scoreInternal := after.score
      validatedBlend := before.tpValidationStatus = some (some "validated")
      validatedInternal := after.tpValidationStatus = some (some "validated")
      ratingBlend := (onePagerRating before.upsidePercent).getD "unknown"
      ratingInternal := (onePagerRating after.upsidePercent).getD "unknown"
      validationPresent := before.tpValidationStatus.isSome || after.tpValidationStatus.isSome }

end Pair

structure MarketReport where
  n : ℕ
  missingInternal : ℕ
  onlyInternal : ℕ
  servedPairs : ℕ
  beforeUnservable : ℕ
  afterUnservable : ℕ
  tp : RatioStats
  tpChangeBuckets : ChangeBuckets
  buyIn : RatioStats
  status : StatusBlock
  rating : StatusBlock
  buyBefore : ℕ
  buyAfter : ℕ
  buyEntered : ℕ
  buyLeft : ℕ
  upsideBefore : Quantiles
  upsideAfter : Quantiles
  upsideChange : RatioStats
  scoreChange : RatioStats
  tpValidation : Option (ℕ × ℕ)

def marketReport (comparison : Comparison) : MarketReport :=
  let served := comparison.pairs.filterMap Pair.view
  let upsides := served.filterMap fun view => do pure (← view.upsideBlend, ← view.upsideInternal)
  let scores := served.filterMap fun view => do pure ((← view.scoreInternal) - (← view.scoreBlend))
  let ratios := comparison.pairs.map Pair.tpRatio
  { n := comparison.pairs.length
    missingInternal := comparison.missing.length
    onlyInternal := comparison.onlyInternal.length
    servedPairs := served.length
    beforeUnservable := comparison.pairs.countP fun pair => pair.shownBefore.isNone
    afterUnservable := comparison.pairs.countP fun pair => pair.shownAfter.isNone
    tp := ratioStats ratios
    tpChangeBuckets := changeBuckets ratios
    buyIn := ratioStats (comparison.pairs.map Pair.buyInRatio)
    status := statusBlock (served.map fun view => (view.statusBlend, view.statusInternal))
    rating := statusBlock (served.map fun view => (view.ratingBlend, view.ratingInternal))
    buyBefore := served.countP fun view => view.statusBlend = buyStatus
    buyAfter := served.countP fun view => view.statusInternal = buyStatus
    buyEntered := served.countP fun view => view.statusBlend ≠ buyStatus ∧ view.statusInternal = buyStatus
    buyLeft := served.countP fun view => view.statusBlend = buyStatus ∧ view.statusInternal ≠ buyStatus
    upsideBefore := quantiles (upsides.map Prod.fst)
    upsideAfter := quantiles (upsides.map Prod.snd)
    upsideChange := ratioStats (upsides.map fun pair => pair.2 - pair.1)
    scoreChange := ratioStats scores
    tpValidation := if served.any (·.validationPresent) then
        some (served.countP (·.validatedBlend), served.countP (·.validatedInternal))
      else none }

structure PairDetail where
  symbol : String
  tpBlend : ℚ
  tpInternal : ℚ
  tpRatio : ℚ
  buyInBlend : ℚ
  buyInInternal : ℚ
  buyInRatio : ℚ
  view : Option PairView

structure MarketDetail where
  pairs : List PairDetail
  missingInternal : List String
  onlyInternal : List String

def marketDetail (comparison : Comparison) : MarketDetail :=
  { pairs := comparison.pairs.map fun pair =>
      ⟨pair.symbol, pair.before.tp, pair.after.tp, pair.tpRatio, pair.before.buyIn, pair.after.buyIn,
        pair.buyInRatio, pair.view⟩
    missingInternal := comparison.missing
    onlyInternal := comparison.onlyInternal }

/-- The report without its own hash. -/
structure Aggregate (Digest : Type) where
  generationId : ℕ
  generationSource : Source
  cycles : List (Market × ℕ)
  targetedCycles : ℕ
  afterCycles : List (Market × ℕ)
  afterTargetedCount : ℕ
  afterTargetedSha256 : Digest
  afterSourceVersion : String
  sessionDates : List (Market × Option Int)
  sourceVersion : String
  markets : List (Market × MarketReport)
  privateDetailSha256 : Digest

/-- What is hashed as canonical JSON. -/
inductive Payload (Digest : Type) where
  | targeted (entries : List (String × ℕ))
  | detail (generationId : ℕ) (markets : List (Market × MarketDetail))
  | aggregate (aggregate : Aggregate Digest)

/-- The hash of canonical JSON, taken as injective, and the hash of the report the owner
accepted. -/
structure Receipts (Digest : Type) where
  sha256 : Payload Digest → Digest
  injective : Function.Injective sha256
  accepted : Digest

/-- A composition: what the after arm of a report reads, and what an order would write. -/
structure Proposal where
  cycles : Market → ℕ
  targeted : Dict String ℕ
  sourceVersion : String

def sortedEntries (targeted : Dict String ℕ) : List (String × ℕ) := stableSort Prod.fst targeted.entries

/-- One targeted cycle of a composition: its record, unless the market has the symbol. -/
def addTargeted (market : Market) (source : Source) (results : List Prediction) (entry : String × ℕ) :
    Process (List Prediction) :=
  if entry.1 ∈ results.map Prediction.symbol ∨ market ≠ .b3 then pure results
  else do
    match ← Program.read fun store : Store => store.predictionRecord entry.2 entry.1 source with
    | none => pure results
    | some record => pure (results ++ [record])

/-- The records a composition serves of a market in one source: the universe cycle's, then
those of the targeted cycles of other symbols. -/
def generationRecords (cycles : Market → ℕ) (targeted : Dict String ℕ) (market : Market) (source : Source) :
    Process (List Prediction) := do
  let results ← Program.read fun store : Store => store.predictionsForCycle (cycles market) source
  (sortedEntries targeted).foldlM (addTargeted market source) results

/-- The row a consumer would be served for a record, read from the record's own cycle. -/
def reportView (generation : Generation) (market : Market) (record : Prediction) :
    Process (Option ServedRow) := do
  let cycle ← Program.read fun store : Store => store.analysisSnapshotById record.cycleId
  pure (cycle.bind fun cycle => (displayRow cycle record.symbol).bind fun row =>
    servedRow row record generation record.cycleId record.scope market)

def recordOf (records : List Prediction) (symbol : String) : Option Prediction :=
  records.find? fun record => record.symbol = symbol

def compareSymbol (generation : Generation) (market : Market) (blend internal : List Prediction)
    (found : List Pair × List String) (symbol : String) : Process (List Pair × List String) :=
  match recordOf blend symbol, recordOf internal symbol with
  | some before, some after => do
      let shownBefore ← reportView generation market before
      let shownAfter ← reportView generation market after
      pure (found.1 ++ [⟨symbol, before, after, shownBefore, shownAfter⟩], found.2)
  | _, _ => pure (found.1, found.2 ++ [symbol])

/-- The reads of one market, and what they say of each symbol of the blend. -/
def compareMarket (generation : Generation) (proposal : Proposal) (market : Market) : Process Comparison := do
  let blend ← generationRecords generation.cycles generation.targeted market .blend
  let internal ← generationRecords proposal.cycles proposal.targeted market .internal
  let found ← (stableSort id (blend.map Prediction.symbol)).foldlM
    (compareSymbol generation market blend internal) ([], [])
  pure ⟨found.1, found.2, (stableSort id (internal.map Prediction.symbol)).filter
    fun symbol => symbol ∉ blend.map Prediction.symbol⟩

section Hash
variable {Digest : Type} (receipts : Receipts Digest)

/-- The report of a comparison; `reportSha256` hashes it. -/
def aggregateOf (generation : Generation) (proposal : Proposal) (comparisons : List (Market × Comparison)) :
    Aggregate Digest :=
  { generationId := generation.id
    generationSource := generation.source
    cycles := markets.map fun market => (market, generation.cycles market)
    targetedCycles := generation.targeted.size
    afterCycles := markets.map fun market => (market, proposal.cycles market)
    afterTargetedCount := proposal.targeted.size
    afterTargetedSha256 := receipts.sha256 (.targeted (sortedEntries proposal.targeted))
    afterSourceVersion := proposal.sourceVersion
    sessionDates := markets.map fun market => (market, generation.sessionDates market)
    sourceVersion := generation.sourceVersion
    markets := comparisons.map fun entry => (entry.1, marketReport entry.2)
    privateDetailSha256 := receipts.sha256
      (.detail generation.id (comparisons.map fun entry => (entry.1, marketDetail entry.2))) }

def reportSha256 (aggregate : Aggregate Digest) : Digest := receipts.sha256 (.aggregate aggregate)

def addMarket (generation : Generation) (proposal : Proposal) (found : List (Market × Comparison))
    (market : Market) : Process (List (Market × Comparison)) := do
  let comparison ← compareMarket generation proposal market
  pure (found ++ [(market, comparison)])

/-- The report on a generation and a proposal, every read a step of its own. -/
def beforeAfterReport (generation : Generation) (proposal : Proposal) : Process (Aggregate Digest) := do
  let comparisons ← markets.foldlM (addMarket generation proposal) []
  pure (aggregateOf receipts generation proposal comparisons)

end Hash
end C3po.Official
