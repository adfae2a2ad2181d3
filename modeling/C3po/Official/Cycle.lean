import Mathlib.Data.List.Dedup
import Mathlib.Data.Prod.Lex
import C3po.Library.Interleaving
import C3po.Prices.Vintages

/-! Producer cycles and the prediction records made of their rows.

A cycle is one published snapshot: the universe of a market or one targeted security.
Its rows become immutable records, one for each official source. An instant is UTC
microseconds, a session the ordinal of its day; a number is what `_number` reads of its
field, a text what `_text_or_none` reads. What the calendar says of an instant is a
fixed function; whether it can be reached is asked at each use.
-/

set_option autoImplicit false

namespace C3po.Official
open C3po.Prices (isSpace normalise)

inductive Market where
  | b3 | nasdaq | nyse
  deriving DecidableEq, Repr

def Market.name : Market → String
  | .b3 => "B3"
  | .nasdaq => "NASDAQ"
  | .nyse => "NYSE"

def markets : List Market := [.b3, .nasdaq, .nyse]

inductive Source where
  | blend | internal
  deriving DecidableEq, Repr

def officialSources : List Source := [.blend, .internal]

inductive AnalysisType where
  | universe | targeted | other
  deriving DecidableEq, Repr

inductive Scope where
  | universe | targeted
  deriving DecidableEq, Repr

/-- A row of a cycle. A validation status may be absent, null or a text. -/
structure Row where
  symbol : String
  price : Option ℚ
  ourTp : Option ℚ
  buyIn : Option ℚ
  internalTp : Option ℚ
  internalBuyIn : Option ℚ
  score : Option ℚ
  status : Option String
  expectedTotalReturnPercent : Option ℚ
  tpValidationStatus : Option (Option String)
  internalScore : Option ℚ
  internalStatus : Option String
  internalExpectedTotalReturnPercent : Option ℚ
  internalTpValidationStatus : Option (Option String)
  upsidePercent : Option ℚ
  priceVsBuyInPercent : Option ℚ
  publicConsensusTp : Option ℚ
  consensusWeightPercent : Option ℚ
  valuationConfidence : Option ℚ
  deriving DecidableEq, Repr

/-- A published snapshot. `rows` is the table of a universe, `row` the one of a targeted
security; a re-run names its original and declares the original's instant. -/
structure Cycle where
  id : ℕ
  analysisType : AnalysisType
  entityKey : String
  publishedAt : Int
  rerunOf : Option String
  declaredInstant : Option Int
  methodologyVersion : Option String
  methodologyVersionId : String
  universeSize : Option ℚ
  rows : List Row
  row : Option Row
  deriving DecidableEq, Repr

def positive (number : Option ℚ) : Option ℚ := number.filter fun value => 0 < value

def removesuffix (text suffix : String) : String :=
  if suffix.toList.isSuffixOf text.toList then
    String.ofList (text.toList.take (text.toList.length - suffix.toList.length))
  else text

def universeKey (market : Market) : String := market.name ++ "_UNIVERSE"

def marketOfEntity (analysisType : AnalysisType) (entityKey : String) : Option Market :=
  match analysisType with
  | .universe => markets.find? fun market => market.name = removesuffix entityKey "_UNIVERSE"
  | .targeted => some .b3
  | .other => none

/-- The internal view of a row, as served. -/
structure View where
  score : ℚ
  status : String
  expectedTotalReturnPercent : ℚ
  tpValidationStatus : Option (Option String)
  deriving DecidableEq, Repr

def internalView (row : Row) : Option View :=
  match row.internalScore, row.internalExpectedTotalReturnPercent, row.internalStatus with
  | some score, some expected, some status =>
      some ⟨score, status, expected, row.internalTpValidationStatus⟩
  | _, _, _ => none

def usable (row : Row) (source : Source) : Bool :=
  normalise row.symbol ≠ "" && (positive row.price).isSome && (positive row.ourTp).isSome &&
    (positive row.buyIn).isSome && (positive row.internalTp).isSome &&
    (source ≠ .internal || ((positive row.internalBuyIn).isSome && (internalView row).isSome))

namespace Cycle
variable (cycle : Cycle)

def market : Option Market := marketOfEntity cycle.analysisType cycle.entityKey

def scope : Scope := if cycle.analysisType = .universe then .universe else .targeted

def cycleRows : List Row := if cycle.analysisType = .universe then cycle.rows else cycle.row.toList

/-- The instant of the prediction, the one of its publication, and the original of a re-run. -/
def clocks : Option (Int × Int × Option String) :=
  match cycle.rerunOf with
  | none => some (cycle.publishedAt, cycle.publishedAt, none)
  | some original =>
      match cycle.declaredInstant with
      | none => none
      | some instant =>
          if instant ≤ cycle.publishedAt then some (instant, cycle.publishedAt, some original) else none

def sourceVersion : String :=
  match cycle.methodologyVersion with
  | some version => version
  | none => if cycle.methodologyVersionId = "" then "unknown" else cycle.methodologyVersionId

end Cycle

/-- The immutable record of one row under one source. -/
structure Prediction where
  source : Source
  sourceVersion : String
  market : Market
  symbol : String
  scope : Scope
  sessionDate : Int
  cycleId : ℕ
  predictionInstant : Int
  publishedAt : Int
  tp : ℚ
  buyIn : ℚ
  internalTp : Option ℚ
  consensusTp : Option ℚ
  consensusWeightPercent : Option ℚ
  price : Option ℚ
  valuationConfidence : Option ℚ
  status : Option String
  tpValidationStatus : Option String
  rerunOf : Option String
  deriving DecidableEq, Repr

/-- What the unique index holds once. -/
def Prediction.key (record : Prediction) : Source × String × Market × String × ℕ :=
  (record.source, record.sourceVersion, record.market, record.symbol, record.cycleId)

/-- The target and the entry price a source reads of a row. -/
def rowNumbers (source : Source) (row : Row) : Option (ℚ × ℚ) :=
  match source with
  | .blend => do pure (← positive row.ourTp, ← positive row.buyIn)
  | .internal => do pure (← positive row.internalTp, ← positive row.internalBuyIn)

/-- The record of a row, none when the row carries no usable target of the source. The
clocks are those of the cycle and the session is the one of the prediction. -/
def predictionFromRow (cycle : Cycle) (market : Market) (clocks : Int × Int × Option String) (session : Int)
    (source : Source) (row : Row) : Option Prediction :=
  if normalise row.symbol = "" then none
  else (rowNumbers source row).map fun numbers =>
    { source
      sourceVersion := cycle.sourceVersion
      market
      symbol := normalise row.symbol
      scope := cycle.scope
      sessionDate := session
      cycleId := cycle.id
      predictionInstant := clocks.1
      publishedAt := clocks.2.1
      tp := numbers.1
      buyIn := numbers.2
      internalTp := positive row.internalTp
      consensusTp := positive row.publicConsensusTp
      consensusWeightPercent := if source = .internal then some 0 else row.consensusWeightPercent
      price := positive row.price
      valuationConfidence := row.valuationConfidence
      status := if source = .internal then row.internalStatus else row.status
      tpValidationStatus := if source = .internal then
          (row.internalTpValidationStatus.getD (row.tpValidationStatus.getD none))
        else row.tpValidationStatus.getD none
      rerunOf := clocks.2.2 }

/-- The records of a cycle, both sources, in the order they are inserted. -/
def cyclePredictions (cycle : Cycle) (market : Market) (clocks : Int × Int × Option String)
    (session : Int) : List Prediction :=
  officialSources.flatMap fun source =>
    cycle.cycleRows.filterMap (predictionFromRow cycle market clocks session source)

/-- What the validator says of a cycle for a source. -/
structure Validation where
  cycleId : ℕ
  source : Source
  rows : ℕ
  universeSize : Option ℚ
  coverage : Option ℚ
  invalidRows : List String
  invalidCount : ℕ
  unrecordedCount : ℕ
  sessionDate : Option Int
  calendarUnavailable : Bool
  valid : Bool
  predictionInstant : Option Int
  deriving DecidableEq, Repr

/-- The validator, given the symbols the cycle has records of and what the calendar
answers for the instant of the prediction. -/
def cycleValidation (cycle : Cycle) (recorded : List String) (source : Source)
    (session : Option Int) : Validation :=
  let rows := cycle.cycleRows
  let invalid := rows.filter fun row => !usable row source
  let unrecorded := rows.filter fun row => usable row source && normalise row.symbol ∉ recorded
  let asked := cycle.market.isSome && cycle.clocks.isSome
  let sessionDate := if asked then session else none
  { cycleId := cycle.id
    source
    rows := rows.length
    universeSize := cycle.universeSize
    coverage := (cycle.universeSize.filter (· ≠ 0)).map fun size => rows.length / size
    invalidRows := (invalid.map fun row => if row.symbol = "" then "?" else row.symbol).take 20
    invalidCount := invalid.length
    unrecordedCount := unrecorded.length
    sessionDate
    calendarUnavailable := asked && session.isNone
    valid := !rows.isEmpty && invalid.isEmpty && unrecorded.isEmpty && (cycle.market.isNone || sessionDate.isSome)
    predictionInstant := cycle.clocks.map (·.1) }

section Normalise

theorem lower_iff (character : Char) : ('a'.val ≤ character.val ∧ character.val ≤ 'z'.val) ↔
    (97 ≤ character.toNat ∧ character.toNat ≤ 122) := by
  rw [UInt32.le_iff_toNat_le, UInt32.le_iff_toNat_le]
  exact Iff.rfl

theorem toUpper_cases (character : Char) :
    (97 ≤ character.toNat ∧ character.toNat ≤ 122 ∧ character.toUpper.toNat = character.toNat - 32) ∨
      (¬ (97 ≤ character.toNat ∧ character.toNat ≤ 122) ∧ character.toUpper = character) := by
  unfold Char.toUpper
  split
  · rename_i lower
    have bounds := (lower_iff character).mp lower
    refine .inl ⟨bounds.1, bounds.2, ?_⟩
    -- upper case is 32 below, written in 32 bits
    change (character.val + ('A'.val - 'a'.val)).toNat = _
    rw [UInt32.toNat_add]
    change (character.toNat + 4294967264) % 2 ^ 32 = _
    omega
  · rename_i other
    exact .inr ⟨fun bounds => other ((lower_iff character).mpr bounds), rfl⟩

theorem toUpper_toUpper (character : Char) : character.toUpper.toUpper = character.toUpper := by
  rcases toUpper_cases character with ⟨low, high, upper⟩ | ⟨_, same⟩
  · rcases toUpper_cases character.toUpper with ⟨again, _⟩ | ⟨_, same⟩
    · omega
    · exact same
  · rw [same, same]

theorem isSpace_toUpper (character : Char) : isSpace character.toUpper = isSpace character := by
  rcases toUpper_cases character with ⟨low, high, upper⟩ | ⟨_, same⟩
  · unfold isSpace
    rw [upper, decide_eq_decide]
    simp only [List.mem_cons, List.not_mem_nil, or_false]
    omega
  · rw [same]

theorem dropWhile_of_isPrefix {space : Char → Bool} {kept whole : List Char} (front : kept <+: whole)
    (clean : whole.dropWhile space = whole) : kept.dropWhile space = kept := by
  cases kept with
  | nil => rfl
  | cons first rest =>
    obtain ⟨tail, rfl⟩ := front
    rw [List.dropWhile_eq_self_iff] at clean ⊢
    exact fun _ => clean (by simp)

@[simp] theorem normalise_normalise (symbol : String) : normalise (normalise symbol) = normalise symbol := by
  unfold normalise
  set kept := (symbol.toList.dropWhile isSpace).rdropWhile isSpace with kept_eq
  have spaces : isSpace ∘ Char.toUpper = isSpace := funext isSpace_toUpper
  have uppers : Char.toUpper ∘ Char.toUpper = Char.toUpper := funext toUpper_toUpper
  have front : kept.dropWhile isSpace = kept :=
    dropWhile_of_isPrefix (List.rdropWhile_prefix ..) (List.dropWhile_idempotent ..)
  have back : kept.rdropWhile isSpace = kept := List.rdropWhile_idempotent ..
  have upper : (kept.map Char.toUpper).rdropWhile isSpace = kept.map Char.toUpper := by
    rw [List.rdropWhile, ← List.map_reverse, List.dropWhile_map, spaces, ← List.map_reverse,
      ← List.rdropWhile, back]
  rw [String.toList_ofList, List.dropWhile_map, spaces, front, upper, List.map_map, uppers]

end Normalise

end C3po.Official

/-! The store of the official selection: cycles, prediction records and generations.

All three tables are append-only. An id is the number of rows before it, in the place
of the random one the source draws; a targeted map is kept under clean symbols.
-/

namespace C3po.Official
open C3po.Library
open C3po.Prices (normalise)

/-- What a generation says of how it came to be. `explicit` marks an order of the mesa. -/
structure Receipt where
  explicit : Bool := false
  reason : String := ""
  freeze : Option Int := none
  endedFreeze : Option (ℕ × Int) := none
  sourceSwitch : Option (Source × Source) := none
  changedMarkets : List Market := []
  carriedMarkets : List Market := []
  heldByExplicitOrder : List Market := []
  explicitOrder : Option ℕ := none
  targetedAdmission : Option (String × ℕ) := none
  targetedRecovered : Dict String ℕ := .empty
  targetedRefused : Dict String ℕ := .empty
  repairedChain : Option (ℕ × ℕ) := none
  attempt : Option ℕ := none

structure Generation where
  id : ℕ
  source : Source
  sourceVersion : String
  cycles : Market → ℕ
  targeted : Dict String ℕ
  sessionDates : Market → Option Int
  activatedAt : Int
  previous : Option ℕ
  receipt : Receipt

structure Store where
  snapshots : List Cycle
  predictions : List Prediction
  generations : List Generation

def Store.empty : Store := ⟨[], [], []⟩

/-- What a process reads outside the store: the wall clock, and whether the exchange
calendar can be reached. -/
structure Reading where
  clock : Int
  calendar : Bool

abbrev Process (A : Type) := Program Store Reading A

/-- What the calendars say: the last completed session of a market at an instant, and the
first midnight after an instant in the zone of the nightly cycle. -/
structure Calendars where
  sessions : Market → Int → Option Int
  midnight : Int → Int

namespace Store
variable (store : Store)

def latestAnalysisSnapshot (analysisType : AnalysisType) (entityKey : String) : Option Cycle :=
  latest Cycle.publishedAt
    (store.snapshots.filter fun cycle => cycle.analysisType = analysisType ∧ cycle.entityKey = entityKey)

def analysisSnapshotById (cycleId : ℕ) : Option Cycle :=
  store.snapshots.find? fun cycle => cycle.id = cycleId

def predictionsForCycle (cycleId : ℕ) (source : Source) : List Prediction :=
  store.predictions.filter fun record => record.cycleId = cycleId ∧ record.source = source

def predictionRecord (cycleId : ℕ) (symbol : String) (source : Source) : Option Prediction :=
  (store.predictionsForCycle cycleId source).find? fun record => record.symbol = symbol

def recordedSymbols (cycleId : ℕ) (source : Source) : List String :=
  (store.predictionsForCycle cycleId source).map Prediction.symbol

/-- The recency of a record; of two equal ones the later inserted is the newer. -/
def predictionOrder (record : Prediction) : Int ×ₗ Int := toLex (record.predictionInstant, record.publishedAt)

def targetedPredictions (source : Source) : List Prediction :=
  store.predictions.filter fun record =>
    record.market = .b3 ∧ record.source = source ∧ record.scope = .targeted

def latestTargetedPrediction (source : Source) (symbol : String) : Option Prediction :=
  latest predictionOrder ((store.targetedPredictions source).filter fun record => record.symbol = symbol).reverse

/-- The newest targeted record of every symbol, by symbol. -/
def latestTargetedPredictions (source : Source) : List (String × Prediction) :=
  (stableSort id ((store.targetedPredictions source).map Prediction.symbol).dedup).filterMap fun symbol =>
    (store.latestTargetedPrediction source symbol).map fun record => (symbol, record)

/-- The newest of some generations: by activation, then by insertion. -/
def newest (generations : List Generation) : Option Generation :=
  latest Generation.activatedAt generations.reverse

/-- The head every reader takes. -/
def latestSelection : Option Generation := newest store.generations

def selectionAt (instant : Int) : Option Generation :=
  newest (store.generations.filter fun generation => generation.activatedAt ≤ instant)

def latestExplicitSelection : Option Generation :=
  newest (store.generations.filter fun generation => generation.receipt.explicit)

def successor (generationId : ℕ) : Option Generation :=
  store.generations.find? fun generation => generation.previous = some generationId

/-- The unique predecessor and the unique root: whether the write is refused. -/
def conflict (generation : Generation) : Bool :=
  store.generations.any fun other => other.previous = generation.previous

def stored (generation : Generation) : Generation := { generation with id := store.generations.length }

def insertSelection (generation : Generation) : Store :=
  if store.conflict generation then store
  else { store with generations := store.generations ++ [store.stored generation] }

/-- One row; a record under a stored key is ignored. -/
def insertPrediction (record : Prediction) : Store :=
  if store.predictions.any fun other => other.key = record.key then store
  else { store with predictions := store.predictions ++ [record] }

def insertPredictions (records : List Prediction) : Store := records.foldl insertPrediction store

def published (cycle : Cycle) : Cycle := { cycle with id := store.snapshots.length }

def saveSnapshot (cycle : Cycle) : Store :=
  { store with snapshots := store.snapshots ++ [store.published cycle] }

end Store

theorem newest_snoc {generations : List Generation} {last : Generation}
    (above : ∀ generation ∈ generations, generation.activatedAt ≤ last.activatedAt) :
    Store.newest (generations ++ [last]) = some last := by
  unfold Store.newest
  exact latest_reverse_snoc above

end C3po.Official
