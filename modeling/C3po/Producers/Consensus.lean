import Mathlib.Data.Rat.Floor
import C3po.Library.StableSort

/-! The arithmetic of the producers, exact: numbers that may be missing, clamps, means, medians and
percentiles.
-/

set_option autoImplicit false

namespace C3po.Producers

/-- What the exact numbers leave open: the functions whose values are not rational. -/
structure Maths where
  sqrt : ℚ → ℚ

/-- A number that is there and not zero: what holds as a condition. -/
def truthy (value : Option ℚ) : Option ℚ := value.filter (· ≠ 0)

def orElse (first second : Option ℚ) : Option ℚ := (truthy first).or second

def positive (value : Option ℚ) : Option ℚ := value.filter (0 < ·)

def clamp (value low high : ℚ) : ℚ := max low (min high value)

def mean (values : List ℚ) : ℚ := values.sum / values.length

def sorted (values : List ℚ) : List ℚ := values.insertionSort (· ≤ ·)

/-- The middle of the values in order, or the mean of the two in the middle. -/
def statisticsMedian (values : List ℚ) : ℚ :=
  let ordered := sorted values
  let middle := ordered.length / 2
  if ordered.length % 2 = 1 then ordered.getD middle 0 else (ordered.getD (middle - 1) 0 + ordered.getD middle 0) / 2

def median (values : List ℚ) (fallback : ℚ) : ℚ :=
  let clean := values.filter (0 < ·)
  if clean = [] then fallback else statisticsMedian clean

/-- The value at a fraction of the positive values in order, between the two around it. -/
def percentile (values : List ℚ) (fraction : ℚ) : ℚ :=
  let clean := sorted (values.filter (0 < ·))
  if clean = [] then 0
  else
    let position := ((clean.length : ℚ) - 1) * clamp fraction 0 1
    let lower := ⌊position⌋
    let upper := ⌈position⌉
    if lower = upper then clean.getD lower.toNat 0
    else
      let weight := position - lower
      clean.getD lower.toNat 0 * (1 - weight) + clean.getD upper.toNat 0 * weight

/-- The integer part, toward zero. -/
def truncate (value : ℚ) : ℤ := if 0 ≤ value then ⌊value⌋ else ⌈value⌉

def quartile (values : List ℚ) (index : ℕ) : ℚ :=
  let data := sorted values
  let place := index * (data.length - 1)
  let position := place / 4
  let delta := place % 4
  (data.getD position 0 * (4 - delta) + data.getD (position + 1) 0 * delta) / 4

example : statisticsMedian [3, 1, 2] = 2 := by decide +kernel
example : percentile [1, 2, 3, 4] (3 / 4) = 13 / 4 := by decide +kernel

/-! The public consensus of the Brazilian names: the targets that two providers publish, reconciled
over the share classes of an issuer, and the targets an issuer publishes itself.
-/

open C3po.Library

inductive Provider where
  | brapi
  | eodhd
  deriving DecidableEq, Repr

def Provider.text : Provider → String
  | .brapi => "brapi"
  | .eodhd => "eodhd"

/-- What a provider answers of a name, and when the answer was received. -/
structure Answer where
  targetMeanPrice : Option ℚ
  numberOfAnalystOpinions : Option ℚ
  fetchedAt : Option Int
  deriving DecidableEq, Repr

/-- A share class as the reconciliation reads it: a row of the batch, or a reference. -/
structure ShareClass where
  symbol : String
  issuer : String
  price : ℚ
  answers : Provider → Answer

def Answer.analysts (answer : Answer) : ℤ := truncate (answer.numberOfAnalystOpinions.getD 0)

/-- A target that analysts stand behind, within sight of the price. -/
def validTarget (value : Option ℚ) (price : ℚ) (analysts : ℤ) : Option ℚ :=
  (positive value).filter fun target => 0 < analysts ∧ price * 0.20 ≤ target ∧ target ≤ price * 5

def ShareClass.target (share : ShareClass) (provider : Provider) : Option ℚ :=
  validTarget (share.answers provider).targetMeanPrice share.price (share.answers provider).analysts

/-- A target of one provider for one share class, in units of its price. -/
structure Observation where
  symbol : String
  source : Provider
  target : ℚ
  ratio : ℚ
  analysts : ℤ
  weight : ℚ
  fetchedAt : Option Int
  deriving DecidableEq, Repr

def observation (share : ShareClass) (source : Provider) : Option Observation :=
  let analysts := (share.answers source).analysts
  match positive (some share.price), positive (share.target source) with
  | some price, some target =>
      let ratio := target / price
      if 0 < analysts ∧ 0.50 ≤ ratio ∧ ratio ≤ 2.50 then
        some
          { symbol := share.symbol
            source, target, ratio, analysts
            weight := max analysts 1 * (if "11".toList <:+ share.symbol.toList then 1.15 else 1)
            fetchedAt := (share.answers source).fetchedAt }
      else none
  | _, _ => none

def ShareClass.observations (share : ShareClass) : List Observation := [Provider.brapi, .eodhd].filterMap (observation share)

/-- The first observation at which the weight passes the threshold, else the last. -/
def reaching (threshold cumulative : ℚ) : List Observation → Option Observation
  | [] => none
  | [last] => some last
  | first :: rest =>
      if threshold ≤ cumulative + first.weight then some first else reaching threshold (cumulative + first.weight) rest

def weightedMedianObservation (observations : List Observation) : Option Observation :=
  let ordered := stableSort Observation.ratio observations
  reaching ((ordered.map Observation.weight).sum / 2) 0 ordered

/-- What is selected of the observations of an issuer for one of its classes. -/
structure Selected where
  ratio : Option ℚ := none
  analysts : ℤ := 0
  symbol : Option String := none
  source : Option Provider := none
  fetchedAt : Option Int := none
  deriving DecidableEq, Repr

def Observation.selected (chosen : Observation) : Selected where
  ratio := some chosen.ratio
  analysts := chosen.analysts
  symbol := some chosen.symbol
  source := some chosen.source
  fetchedAt := chosen.fetchedAt

/-- The class's own centre, unless it is far from the issuer's and no better covered. -/
def select (symbol : String) (direct issuerObservations : List Observation) : Selected :=
  let canonical := weightedMedianObservation issuerObservations
  match weightedMedianObservation direct with
  | some center =>
      let own : Selected :=
        { center.selected with
          analysts := (direct.map Observation.analysts).foldl max 0
          symbol := some symbol }
      match canonical with
      | some canonical =>
          if 0.35 < |center.ratio - canonical.ratio| / canonical.ratio ∧ own.analysts ≤ canonical.analysts then canonical.selected else own
      | none => own
  | none =>
      match canonical with
      | some canonical => canonical.selected
      | none => {}

/-- When a consensus was published: the receipt of an answer, or a date of its own. -/
inductive Published where
  | received (instant : Int)
  | dated (day : String)
  deriving DecidableEq, Repr

structure Consensus where
  publicConsensusTp : Option ℚ := none
  analystCount : ℤ := 0
  originSymbol : Option String := none
  originSource : Option String := none
  publishedAt : Option Published := none
  sourceCount : ℕ := 0
  impliedUpsidePercent : Option ℚ := none
  asOf : Option String := none
  sourceUrl : Option String := none
  deriving DecidableEq, Repr

def consensusOf (share : ShareClass) (issuerObservations : List Observation) : Consensus :=
  let selected := select share.symbol share.observations issuerObservations
  { publicConsensusTp := (truthy selected.ratio).map (share.price * ·)
    analystCount := selected.analysts
    originSymbol := selected.symbol
    originSource := selected.source.map Provider.text
    publishedAt := if selected.source.isSome then selected.fetchedAt.map .received else none
    sourceCount := if selected.symbol.any (· ≠ "") then (issuerObservations.filter fun seen => some seen.symbol = selected.symbol).length else 0
    impliedUpsidePercent := (truthy selected.ratio).map fun ratio => (ratio - 1) * 100 }

def ShareClass.issuerOf (share : ShareClass) : String := if share.issuer = "" then share.symbol else share.issuer

/-- The observations of all the classes of an issuer, in the order of the batch. -/
def issuerObservations (shares : List ShareClass) (issuer : String) : List Observation :=
  (shares.filter fun share => share.issuerOf = issuer).flatMap ShareClass.observations

/-- The consensus of every row of the batch, over the rows and the references. -/
def reconcileIssuerConsensus (rows references : List ShareClass) : List Consensus :=
  rows.map fun row => consensusOf row (issuerObservations (rows ++ references) row.issuerOf)

/-- A target that the issuer publishes; its date may be unreadable. -/
structure OfficialConsensus where
  targetPrice : Option ℚ
  analystCount : Option ℚ
  asOf : String
  asOfDay : Option Int
  maxAgeDays : Option ℤ
  source : String
  sourceUrl : String
  deriving DecidableEq, Repr

def OfficialConsensus.limit (official : OfficialConsensus) : ℤ :=
  match official.maxAgeDays with
  | none | some 0 => 180
  | some days => days

/-- The issuer's own target takes the place of one that is no better covered, while it is fresh. -/
def applyOfficialConsensus (overrides : String → Option OfficialConsensus) (today : Int) (share : ShareClass) (consensus : Consensus) : Consensus :=
  match overrides share.symbol with
  | none => consensus
  | some official =>
      let analysts := truncate (official.analystCount.getD 0)
      match positive (some share.price), positive official.targetPrice, official.asOfDay with
      | some price, some target, some day =>
          if analysts ≤ 0 ∨ official.limit < today - day ∨ analysts < consensus.analystCount then consensus
          else
            { publicConsensusTp := some target
              analystCount := analysts
              originSymbol := some share.symbol
              originSource := some official.source
              publishedAt := some (.dated official.asOf)
              sourceCount := max consensus.sourceCount 1
              impliedUpsidePercent := some ((target / price - 1) * 100)
              asOf := some official.asOf
              sourceUrl := some official.sourceUrl }
      | _, _, _ => consensus

end C3po.Producers
