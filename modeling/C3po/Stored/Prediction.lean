import C3po.Stored.Json
import C3po.Universe.Service

/-! The prediction record with every field it is hashed with, as the emitter makes it of a row. -/

set_option autoImplicit false

namespace C3po.Stored
open C3po.Official (positive)
open C3po.Prices (normalise)
open C3po.Universe (strip)

/-- What the emitter and the readers ask of the language and of the calendars: the finite number a
text is read as, how a value that is no text is written, the ISO form of an instant in UTC, the
JSON a text is, the canonical hash, and the last completed session of a market. -/
structure Setting (Digest : Type) where
  float : String → Option ℚ
  str : Json Digest → String
  iso : Int → String
  loads : String → Option (Json Digest)
  canonicalSha256 : Json Digest → Digest
  sessionDateOf : String → Int → Option String

def predictionSchema : String := "VALUATION_PREDICTION_V2"
def legacyPredictionSchema : String := "VALUATION_PREDICTION_V1"
def sourceInternal : String := "official_internal_v1"
def recordableSources : List String := ["official_blend_v1", sourceInternal, "v3_2_shadow"]
def consensusHorizon : String := "12m"

def currencyOf (market : String) : String := if market = "B3" then "BRL" else "USD"

namespace Json
variable {Digest : Type}

def truthy : Json Digest → Bool
  | .null => false
  | .bool value => value
  | .integer value => value ≠ 0
  | .number value => value ≠ 0
  | .text value => value ≠ ""
  | .digest _ => true
  | .array size _ => size ≠ 0
  | .object keys _ => keys ≠ ∅

def orElse (first second : Json Digest) : Json Digest := if first.truthy then first else second

def ofNumber (value : Option ℚ) : Json Digest := value.elim .null .number
def ofInteger (value : Option Int) : Json Digest := value.elim .null .integer
def ofText (value : Option String) : Json Digest := value.elim .null .text

end Json

/-- The hashed fields of a record besides its schema and its publication. -/
structure Fields (Digest : Type) where
  source : String
  sourceVersion : String
  market : String
  symbol : String
  scope : String
  sessionDate : String
  cycleId : String
  predictionInstant : Int
  tp : ℚ
  buyIn : ℚ
  internalTp : Option ℚ
  bearTp : Option ℚ
  bullTp : Option ℚ
  consensusTp : Option ℚ
  consensusSource : Option String
  analystCount : Option Int
  consensusWeightPercent : Option ℚ
  price : Option ℚ
  currency : String
  decomposition : Json Digest

/-- A record, in memory or of a row. No schema means that the row carries none, and no publication
that its clock is absent or null. -/
structure Record (Digest : Type) extends Fields Digest where
  schema : Option String
  publishedAt : Option Int
  id : String
  rowSha256 : Digest

/-- What a record is asked to be besides its row. -/
structure Origin (Digest : Type) where
  market : String
  scope : String
  cycleId : String
  sourceVersion : String
  predictionInstant : Int
  sourceManifestSha256 : Option String := none
  publishedAt : Option Int := none
  rerunOf : Option String := none
  source : String := "official_blend_v1"
  extraProvenance : Option (Json Digest) := none

inductive Refusal where
  | unknownSource (source : String)
  | publishedBefore (publishedAt predictionInstant : Int)
  deriving DecidableEq, Repr

section Emitter
variable {Digest : Type} (setting : Setting Digest)

def number : Json Digest → Option ℚ
  | .number value => some value
  | .integer value => some value
  | .bool value => some (if value then 1 else 0)
  | .text value => setting.float value
  | _ => none

def written : Json Digest → String
  | .text value => value
  | other => setting.str other

def textOrNone (value : Json Digest) : Option String :=
  match value with
  | .null => none
  | other =>
      let text := strip (written setting other)
      if text = "" then none else some text

def analystCount (row : Json Digest) : Option Int :=
  (number setting (row.get "analyst_count")).map fun count => if 0 ≤ count then count.floor else count.ceil

/-- The consensus of reference, hashed by itself. -/
def consensusBlock (row : Json Digest) (market : String) : Json Digest :=
  let tp := positive (number setting (row.get "public_consensus_tp"))
  let asOf := textOrNone setting (row.get "consensus_as_of")
  let payload : List (String × Json Digest) :=
    [("tp", .ofNumber tp),
     ("source", .ofText (textOrNone setting (row.get "consensus_origin_source"))),
     ("analyst_count", .ofInteger (analystCount setting row)),
     ("as_of", .ofText asOf),
     ("published_at", .ofText ((textOrNone setting (row.get "consensus_published_at")).or asOf)),
     ("horizon", .ofText ((textOrNone setting (row.get "consensus_horizon")).or (tp.map fun _ => consensusHorizon))),
     ("currency", .ofText ((textOrNone setting (row.get "consensus_currency")).or (tp.map fun _ => currencyOf market))),
     ("gap_percent", .ofNumber (number setting (row.get "consensus_gap_percent")))]
  .entries (payload ++ [("payload_sha256", .digest (setting.canonicalSha256 (.entries payload)))])

def numbers (mapping : Json Digest) : Json Digest :=
  if mapping.isObject then mapping.mapFields fun value => .ofNumber (number setting value) else .entries []

/-- The fixed provenance of a record, and the keys that are added to it. -/
def provenance (row : Json Digest) (origin : Origin Digest) : Json Digest :=
  let fixed : Json Digest := .entries
    [("source_name", ((row.get "source_name").orElse (row.get "history_source")).orElse .null),
     ("fundamentals_as_of", (row.get "fundamentals_as_of").orElse .null),
     ("as_of", .ofText (textOrNone setting (row.get "as_of"))),
     ("source_manifest_sha256", .ofText origin.sourceManifestSha256),
     ("rerun_of", .ofText (origin.rerunOf.filter (· ≠ "")))]
  match origin.extraProvenance with
  | some extra => if extra.truthy then fixed.merge extra else fixed
  | none => fixed

/-- The producer's own field of the internal record where it emits one. -/
def internalField (internal : Bool) (row : Json Digest) (key : String) : Json Digest :=
  if internal then (row.get? ("internal_" ++ key)).getD (row.get key) else row.get key

def decompositionOf (row : Json Digest) (origin : Origin Digest) (weight bearTp bullTp : Option ℚ) : Json Digest :=
  let internal : Bool := origin.source = sourceInternal
  let models := if internal ∧ (row.get "internal_buy_in_models").isObject then row.get "internal_buy_in_models" else row.get "buy_in_models"
  .entries
    [("methods", numbers setting (row.get "methods")),
     ("buy_in_models", numbers setting models),
     ("weights", .entries
       [("calibration_factor", .ofNumber (number setting (row.get "calibration_factor"))),
        ("convergence_weight", .ofNumber (number setting (internalField internal row "convergence_weight"))),
        ("consensus_weight_percent", .ofNumber weight)]),
     ("bands", .entries [("bear_tp", .ofNumber bearTp), ("bull_tp", .ofNumber bullTp)]),
     ("consensus", consensusBlock setting row origin.market),
     ("valuation_profile", row.get "valuation_profile"),
     ("risk_score", .ofNumber (number setting (row.get "risk_score"))),
     ("valuation_confidence", .ofNumber (number setting (row.get "valuation_confidence"))),
     ("method_dispersion_percent", .ofNumber (number setting (row.get "method_dispersion_percent"))),
     ("signal_quality", row.get "signal_quality"),
     ("status", if internal then row.get "internal_status" else row.get "status"),
     ("tp_validation_status", internalField internal row "tp_validation_status"),
     ("provenance", provenance setting row origin)]

/-- All that is hashed of a record under a schema, with its publication where the schema has one. -/
def Fields.core (record : Fields Digest) (schema : String) (publishedAt : Option Int) : Json Digest :=
  .entries
    ([("schema", .text schema), ("source", .text record.source), ("source_version", .text record.sourceVersion), ("market", .text record.market),
      ("symbol", .text record.symbol), ("scope", .text record.scope), ("session_date", .text record.sessionDate),
      ("cycle_id", .text record.cycleId), ("prediction_instant", .text (setting.iso record.predictionInstant))] ++
     (publishedAt.map fun instant => ("published_at", Json.text (setting.iso instant))).toList ++
     [("tp", .number record.tp), ("buy_in", .number record.buyIn), ("internal_tp", .ofNumber record.internalTp),
      ("bear_tp", .ofNumber record.bearTp), ("bull_tp", .ofNumber record.bullTp), ("consensus_tp", .ofNumber record.consensusTp),
      ("consensus_source", .ofText record.consensusSource), ("analyst_count", .ofInteger record.analystCount),
      ("consensus_weight_percent", .ofNumber record.consensusWeightPercent), ("price", .ofNumber record.price),
      ("currency", .text record.currency), ("decomposition", record.decomposition)])

def Fields.hashed (fields : Fields Digest) (schema : String) (publishedAt : Option Int) (id : String) : Record Digest :=
  { fields with
    schema := some schema
    publishedAt, id
    rowSha256 := setting.canonicalSha256 (fields.core setting schema publishedAt) }

/-- The record of one row, none when the row carries no usable target of the source or the session
is unknown. -/
def predictionFromRow (row : Json Digest) (origin : Origin Digest) (id : String) : Except Refusal (Option (Record Digest)) :=
  if origin.source ∉ recordableSources then .error (.unknownSource origin.source)
  else
    let internal : Bool := origin.source = sourceInternal
    let symbol := normalise (written setting ((row.get "symbol").orElse (.text "")))
    let tp := positive (number setting (row.get (if internal then "internal_tp" else "our_tp")))
    let buyIn := positive (number setting (row.get (if internal then "internal_buy_in" else "buy_in")))
    match tp, buyIn with
    | some tp, some buyIn =>
        if symbol = "" then .ok none
        else
          let available := origin.publishedAt.getD origin.predictionInstant
          if available < origin.predictionInstant then .error (.publishedBefore available origin.predictionInstant)
          else .ok ((setting.sessionDateOf origin.market origin.predictionInstant).map fun session =>
            let bearTp := positive (number setting (row.get (if internal then "internal_bear_tp" else "bear_tp")))
            let bullTp := positive (number setting (row.get (if internal then "internal_bull_tp" else "bull_tp")))
            let weight := if internal then some 0 else number setting (row.get "consensus_weight_percent")
            let decomposition := decompositionOf setting row origin weight bearTp bullTp
            Fields.hashed setting
              { source := origin.source
                sourceVersion := origin.sourceVersion
                market := origin.market
                symbol
                scope := origin.scope
                sessionDate := session
                cycleId := origin.cycleId
                predictionInstant := origin.predictionInstant
                tp, buyIn
                internalTp := positive (number setting (row.get "internal_tp"))
                bearTp, bullTp
                consensusTp := positive (number setting (row.get "public_consensus_tp"))
                consensusSource := textOrNone setting (row.get "consensus_origin_source")
                analystCount := analystCount setting row
                consensusWeightPercent := weight
                price := positive (number setting (row.get "price"))
                currency := currencyOf origin.market
                decomposition } predictionSchema (some available) id)
    | _, _ => .ok none

end Emitter

end C3po.Stored

/-! The columns a record is written to, and the readers of a stored row: the one of the database and
the one of the memory double. Each column gives back the value written.
-/

namespace C3po.Stored

variable {Digest : Type}

/-- A row of `valuation_predictions`: no schema, and no bands but those of the decomposition. -/
structure Columns (Digest : Type) where
  id : String
  source : String
  sourceVersion : String
  market : String
  symbol : String
  scope : String
  sessionDate : String
  cycleId : String
  predictionInstant : Int
  publishedAt : Option Int
  tp : ℚ
  buyIn : ℚ
  internalTp : Option ℚ
  consensusTp : Option ℚ
  consensusSource : Option String
  analystCount : Option Int
  consensusWeightPercent : Option ℚ
  price : Option ℚ
  currency : String
  decomposition : Json Digest
  rowSha256 : Digest

def columnsOf (record : Record Digest) : Columns Digest where
  id := record.id
  source := record.source
  sourceVersion := record.sourceVersion
  market := record.market
  symbol := record.symbol
  scope := record.scope
  sessionDate := record.sessionDate
  cycleId := record.cycleId
  predictionInstant := record.predictionInstant
  publishedAt := record.publishedAt
  tp := record.tp
  buyIn := record.buyIn
  internalTp := record.internalTp
  consensusTp := record.consensusTp
  consensusSource := record.consensusSource
  analystCount := record.analystCount
  consensusWeightPercent := record.consensusWeightPercent
  price := record.price
  currency := record.currency
  decomposition := record.decomposition
  rowSha256 := record.rowSha256

/-- What the table holds once. -/
def Columns.key (columns : Columns Digest) : String × String × String × String × String :=
  (columns.source, columns.sourceVersion, columns.market, columns.symbol, columns.cycleId)

/-- The checks of the table. -/
def Columns.admitted (columns : Columns Digest) : Bool :=
  columns.market ∈ ["B3", "NASDAQ", "NYSE"] ∧ columns.scope ∈ ["universe", "targeted"] ∧
    columns.publishedAt.any (columns.predictionInstant ≤ ·) ∧ 0 < columns.tp ∧ 0 < columns.buyIn

/-- Appended under a fresh key, ignored under a held one, refused by a check. -/
def insertPrediction (table : List (Columns Digest)) (record : Record Digest) : Option (List (Columns Digest)) :=
  if (columnsOf record).admitted then
    some (if table.any fun held => held.key = (columnsOf record).key then table else table ++ [columnsOf record])
  else none

/-- A decomposition that is no mapping, or a band that is no finite number. -/
inductive Unreadable where
  | decomposition
  | band (key : String)
  deriving DecidableEq, Repr

section Reader
variable (setting : Setting Digest)

def bandOf (bands : Json Digest) (key : String) : Except Unreadable (Option ℚ) :=
  match bands.get key with
  | .null => .ok none
  | other =>
      match number setting other with
      | some value => .ok (some value)
      | none => .error (.band key)

/-- The hashed fields of a row, its bands taken from its decomposition. -/
def readFields (columns : Columns Digest) : Except Unreadable (Fields Digest) := do
  let decomposition ← match columns.decomposition with
    | .object keys fields => pure (.object keys fields)
    | .text text =>
        match setting.loads text with
        | some (.object keys fields) => pure (.object keys fields)
        | _ => .error .decomposition
    | .digest _ => .error .decomposition
    | _ => pure (.entries [])
  let bands := if (decomposition.get "bands").isObject then decomposition.get "bands" else .entries []
  let bearTp ← bandOf setting bands "bear_tp"
  let bullTp ← bandOf setting bands "bull_tp"
  pure
    { source := columns.source
      sourceVersion := columns.sourceVersion
      market := columns.market
      symbol := columns.symbol
      scope := columns.scope
      sessionDate := columns.sessionDate
      cycleId := columns.cycleId
      predictionInstant := columns.predictionInstant
      tp := columns.tp
      buyIn := columns.buyIn
      internalTp := columns.internalTp
      bearTp, bullTp
      consensusTp := columns.consensusTp
      consensusSource := columns.consensusSource
      analystCount := columns.analystCount
      consensusWeightPercent := columns.consensusWeightPercent
      price := columns.price
      currency := columns.currency
      decomposition }

/-- The provenance that every record of today names its original in. -/
def fingerprinted (decomposition : Json Digest) : Bool :=
  (decomposition.get "provenance").isObject && ((decomposition.get "provenance").get? "rerun_of").isSome

def storedAsLegacy (record : Record Digest) : Bool :=
  if record.schema = some legacyPredictionSchema ∨ record.publishedAt = none then true
  else if record.schema = some predictionSchema then false
  else !fingerprinted record.decomposition

variable [DecidableEq Digest]

local instance lawfulRerun : LawfulBEq (Option String) := inferInstance

def storedPrediction (record : Record Digest) : Option (Record Digest) :=
  if record.schema ∉ [none, some predictionSchema, some legacyPredictionSchema] then none
  else if record.schema = some predictionSchema ∧ record.publishedAt = none then none
  else if !storedAsLegacy record then some { record with schema := some predictionSchema }
  else if setting.canonicalSha256 (record.core setting legacyPredictionSchema none) ≠ record.rowSha256 then none
  else some { record with schema := some legacyPredictionSchema, publishedAt := none }

/-- The reader of the database: the row has no schema of its own. -/
def predictionRecord (columns : Columns Digest) : Except Unreadable (Option (Record Digest)) := do
  let fields ← readFields setting columns
  pure (storedPrediction setting
    { fields with schema := none, publishedAt := columns.publishedAt, id := columns.id, rowSha256 := columns.rowSha256 })

end Reader

end C3po.Stored
