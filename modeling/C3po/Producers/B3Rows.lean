import C3po.Official.Serving
import C3po.Producers.B3

/-! The rows of the Brazilian screener: the risk and the quality of a row, what its tail makes of the
target and of the internal one, and the matrix that shows the served rows at the latest quotes.
-/

set_option autoImplicit false

namespace C3po.Producers.B3
open C3po.Library

/-- What the exact numbers leave open in a row besides the square root. -/
structure RowMaths extends Maths where
  log10 : ℚ → ℚ
  power : ℚ → ℚ → ℚ

/-- A row with the evidence that its risk and its validation read. -/
structure Listing extends Row where
  adtv90d : Option ℚ
  insiderNetSignal : Option ℚ
  pendingDisclosureRisk : Option ℚ
  dataSourceCount : ℤ
  sourceComparisonCount : ℤ
  fundamentalsAsOf : Option Int

section Risk
variable (maths : RowMaths) (row : Listing)

def macroRisk : Profile → ℚ
  | .financial => 52
  | .realEstate => 62
  | .utilities => 35
  | .cyclical => 65
  | .growth => 50
  | .qualityCompounder => 35
  | .general => 45

def matrixRiskScore : ℚ :=
  let betaScore := clamp ((row.beta.getD 1.15 - 0.60) / 1.40 * 100) 0 100
  let volatilityScore := clamp ((row.volatility90d.getD 0.35 - 0.12) / 0.48 * 100) 0 100
  let marketRisk := volatilityScore * 0.60 + betaScore * 0.40
  let balanceSheetScore :=
    if row.profile = .financial then clamp (55 - (row.roe.getD 0.08 - 0.12) * 180) 30 75
    else clamp ((row.debtToEquity.getD 2 - 0.50) / 2.50 * 100) 0 100
  let trendRisk := (row.earningsGrowth.map fun growth => clamp ((0.10 - growth) / 0.25 * 100) 0 100).getD 55
  let marginRisk := (row.profitMargin.map fun margin => clamp ((0.08 - margin) / 0.18 * 100) 0 100).getD 55
  let earningsRisk := trendRisk * 0.70 + marginRisk * 0.30
  let liquidityRisk := clamp ((7.8 - maths.log10 (max ((truthy row.adtv90d).getD 5000000) 1)) * 55) 0 100
  let governanceRisk := clamp (50 - row.insiderNetSignal.getD 0 * 20 + row.pendingDisclosureRisk.getD 0 * 12) 30 70
  clamp (marketRisk * 0.25 + balanceSheetScore * 0.25 + earningsRisk * 0.20 + liquidityRisk * 0.10 + governanceRisk * 0.10 +
    macroRisk row.profile * 0.10) 0 100

def fcfYield (row : Company) : ℚ := row.fcf.getD 0 / row.marketCap

def operatingQuality (row : Company) : ℚ :=
  clamp (50 + roeOf row * 90 + row.profitMargin.getD 0 * 45 + fcfYield row * 100 + growthOf row * 40 - riskPenalty row * 100) 0 100

end Risk

section Tail

def convergenceWeight (valuationConfidence methodDispersionPercent consensusWeightPercent : ℚ) : ℚ :=
  let confidence := clamp (valuationConfidence / 100) 0 1
  let agreement := clamp (1 - methodDispersionPercent / 100) 0 1
  let publicConfirmation := clamp (consensusWeightPercent / 100) 0 0.35 * 0.75
  clamp (0.15 + 0.35 * confidence * agreement + publicConfirmation) 0.15 0.65

def expected12mReturn (maths : RowMaths) (price targetPrice expectedDividend sustainableGrowth convergenceYears valuationConfidence
    methodDispersionPercent consensusWeightPercent : ℚ) : ℚ :=
  if price ≤ 0 ∨ targetPrice ≤ 0 then -100
  else
    let shareholderYield := expectedDividend / price
    let fundamentalCarry := sustainableGrowth + shareholderYield
    let annualizedValuationReversion := maths.power (targetPrice / price) (1 / max convergenceYears 1) - 1
    (fundamentalCarry + annualizedValuationReversion * convergenceWeight valuationConfidence methodDispersionPercent consensusWeightPercent) * 100

def powerScore (tpUpside riskScore operatingQuality valuationConfidence priceVsBuyIn : ℚ) : ℚ :=
  let returnScore := clamp tpUpside 0 100
  let entryScore := if priceVsBuyIn ≤ 0 then 100 else clamp (100 - priceVsBuyIn / 15 * 100) 0 100
  clamp (returnScore * 0.35 + (100 - riskScore) * 0.25 + operatingQuality * 0.15 + valuationConfidence * 0.15 + entryScore * 0.10) 0 100

def tpUpsideCutoffPercent (context : Macro) : ℚ := (clamp (context.selic.getD 0.145) 0.07 0.20 + 0.06) * 100

def screenStatus (tpUpside priceVsBuyIn valuationConfidence methodDispersion : ℚ) (tpValidationStatus : String) (tpUpsideCutoff : ℚ) : String :=
  if tpUpsideCutoff ≤ tpUpside ∧ priceVsBuyIn ≤ 15 ∧ 70 ≤ valuationConfidence ∧ methodDispersion ≤ 45 ∧ tpValidationStatus = "validated" then "full_match"
  else if max (tpUpsideCutoff - 5) 0 ≤ tpUpside ∧ priceVsBuyIn ≤ 25 ∧ 60 ≤ valuationConfidence then "near_buy"
  else "watchlist"

end Tail

section Validation

structure Validation where
  status : String
  score : ℚ
  reasons : List String
  consensusGapPercent : Option ℚ
  valuationMethodCount : ℕ
  internalMethodCount : ℕ
  deriving DecidableEq, Repr

def fundamentalsAgeDays (today : Int) (asOf : Option Int) : Option Int := asOf.map fun day => max (today - day) 0

def validateTargetPrice (today : Int) (row : Listing) (methods : List (Method × ℚ)) (internalTp : ℚ) (consensusTp : Option ℚ)
    (ourTp valuationConfidence methodDispersion : ℚ) : Validation :=
  let internalMethodCount := (methods.filter isInternal).length
  let valuationMethodCount := methods.length
  let analystCount := row.consensus.analystCount
  let consensusGap := if 0 < internalTp then (positive consensusTp).map fun consensus => |internalTp / consensus - 1| * 100 else none
  let tpUpside := if row.price = 0 then none else some ((ourTp / row.price - 1) * 100)
  let age := fundamentalsAgeDays today row.fundamentalsAsOf
  let modelScore := clamp (internalMethodCount / 4 * 100) 0 100
  let dispersionScore := clamp (100 - methodDispersion * 2) 0 100
  let sourceEvidenceScore := clamp (row.sourceComparisonCount / 5 * 100) 0 100
  let analystScore := clamp (analystCount / 8 * 100) 0 100
  let convergenceScore := clamp (100 - consensusGap.getD 100 * 2.5) 0 100
  let freshnessScore := (age.map fun age => clamp (100 - (max (age - 7) 0 : ℤ) / 173 * 100) 0 100).getD 0
  let validationScore := clamp (valuationConfidence * 0.20 + modelScore * 0.15 + dispersionScore * 0.15 + row.sourceAgreementPercent * 0.15 +
    sourceEvidenceScore * 0.10 + analystScore * 0.10 + convergenceScore * 0.10 + freshnessScore * 0.05) 0 100
  let reasons :=
    (if valuationMethodCount < 4 ∨ internalMethodCount < 3 then ["Fewer than three independent internal methods"] else []) ++
    (if valuationConfidence < 70 then ["Valuation confidence below minimum"] else []) ++
    (if 45 < methodDispersion then ["Valuation methods do not converge"] else []) ++
    (if row.dataSourceCount < 2 ∨ row.sourceComparisonCount < 3 then ["Insufficient independent source evidence"] else []) ++
    (if row.sourceAgreementPercent < 55 then ["Brapi and EODHD fundamentals diverge"] else []) ++
    (if consensusTp.isNone ∨ analystCount < 2 then ["Insufficient public analyst consensus"] else []) ++
    (if consensusGap.all (40 < ·) then ["Internal model is too far from public consensus"] else []) ++
    (if age.all (180 < ·) then ["Fundamentals are missing or stale"] else []) ++
    (if tpUpside.all (fun upside => ¬ (-60 ≤ upside ∧ upside ≤ 200)) then ["Target price is outside the plausibility range"] else []) ++
    (if validationScore < 65 then ["Composite TP validation score below minimum"] else [])
  { status := if reasons = [] then "validated" else "review_required"
    score := roundTo 2 validationScore
    reasons
    consensusGapPercent := consensusGap.map (roundTo 2)
    valuationMethodCount, internalMethodCount }

end Validation

section Rows

/-- A row of the screener: the columns that its record is made of, and those that only the row has. A
row that too few methods value has no entry price and none of the inputs of its return. -/
structure Listed where
  official : Official.Row
  issuer : String
  methods : List (Method × ℚ)
  internalUpsidePercent : Option ℚ
  internalPriceVsBuyInPercent : Option ℚ
  expectedDividend : Option ℚ
  sustainableGrowth : Option ℚ
  convergenceYears : Option ℚ
  riskScore : ℚ
  operatingQuality : Option ℚ
  valuationConfidence : ℚ
  methodDispersionPercent : ℚ
  validation : Validation
  internalValidation : Option Validation
  deriving DecidableEq, Repr

/-- What a row shows of a target at a price. -/
structure Numbers where
  upsidePercent : Option ℚ
  expectedTotalReturnPercent : Option ℚ
  priceVsBuyInPercent : Option ℚ
  score : Option ℚ
  deriving DecidableEq, Repr

def Listed.numbers (row : Listed) : Numbers where
  upsidePercent := row.official.upsidePercent
  expectedTotalReturnPercent := row.official.expectedTotalReturnPercent
  priceVsBuyInPercent := row.official.priceVsBuyInPercent
  score := row.official.score

/-- What the tail of a row takes besides the price, the target and its entry price. -/
structure TailInput where
  expectedDividend : ℚ
  sustainableGrowth : ℚ
  convergenceYears : ℚ
  riskScore : ℚ
  operatingQuality : ℚ
  valuationConfidence : ℚ
  methodDispersion : ℚ
  deriving DecidableEq, Repr

/-- What a target shows for at a price, with its entry price and the weight of the consensus in it. -/
structure Tail where
  upside : ℚ
  totalReturn : ℚ
  distance : ℚ
  score : ℚ
  deriving DecidableEq, Repr

def tail (maths : RowMaths) (input : TailInput) (price tp buyIn consensusWeightPercent : ℚ) : Tail :=
  let upside := (tp / price - 1) * 100
  let distance := if 0 < buyIn then (price / buyIn - 1) * 100 else 999
  { upside
    totalReturn := expected12mReturn maths price tp input.expectedDividend input.sustainableGrowth input.convergenceYears
      input.valuationConfidence input.methodDispersion consensusWeightPercent
    distance
    score := powerScore upside input.riskScore input.operatingQuality input.valuationConfidence distance }

def convergenceYears (valuationConfidence methodDispersion : ℚ) : ℚ := if 70 ≤ valuationConfidence ∧ methodDispersion ≤ 45 then 3 else 5

variable (maths : RowMaths) (factors : List (Option Profile × ℚ)) (context : Macro) (today : Int) (row : Listing)

/-- The row that fewer than three methods value. -/
def unvalued (methods : List (Method × ℚ)) : Listed :=
  { official :=
      { symbol := row.symbol, price := some row.price, ourTp := some 0, buyIn := none, internalTp := none, internalBuyIn := none, score := none
        status := some "watchlist", expectedTotalReturnPercent := some (-100), tpValidationStatus := some (some "review_required")
        internalScore := none, internalStatus := none, internalExpectedTotalReturnPercent := none, internalTpValidationStatus := none
        upsidePercent := some (-100), priceVsBuyInPercent := none, publicConsensusTp := row.consensus.publicConsensusTp
        consensusWeightPercent := none, valuationConfidence := some 0 }
    issuer := row.issuer, methods
    internalUpsidePercent := none, internalPriceVsBuyInPercent := none, expectedDividend := none, sustainableGrowth := none, convergenceYears := none
    riskScore := matrixRiskScore maths row, operatingQuality := none, valuationConfidence := 0, methodDispersionPercent := 100
    validation :=
      { status := "review_required", score := 0, reasons := ["Insufficient valuation methods"], consensusGapPercent := none
        valuationMethodCount := methods.length, internalMethodCount := (methods.filter isInternal).length }
    internalValidation := none }

def tailInput (valued : Valued) : TailInput where
  expectedDividend := expectedDividend row.toCompany
  sustainableGrowth := sustainableGrowth row.profile (growthOf row.toCompany)
  convergenceYears := convergenceYears valued.valuationConfidence valued.methodDispersion
  riskScore := matrixRiskScore maths row
  operatingQuality := operatingQuality row.toCompany
  valuationConfidence := valued.valuationConfidence
  methodDispersion := valued.methodDispersion

/-- The row of its values: the tail of the target, and by the same rules that of the internal one. -/
def listed (valued : Valued) : Listed :=
  let consensus := if 0 < row.consensus.analystCount then truthy row.consensus.publicConsensusTp else none
  let input := tailInput maths row valued
  let validation := validateTargetPrice today row valued.methods valued.internalTp consensus valued.ourTp valued.valuationConfidence valued.methodDispersion
  let blend := tail maths input row.price valued.ourTp valued.buyIn (valued.consensusWeight * 100)
  let internal := tail maths input row.price valued.internalTp valued.internalBuyIn 0
  let internalValidation :=
    if valued.internalTp = valued.ourTp then validation
    else
      validateTargetPrice today row valued.methods valued.internalTp consensus valued.internalTp valued.valuationConfidence valued.methodDispersion
  let cutoff := tpUpsideCutoffPercent context
  let status := screenStatus blend.upside blend.distance valued.valuationConfidence valued.methodDispersion validation.status cutoff
  let internalStatus :=
    screenStatus internal.upside internal.distance valued.valuationConfidence valued.methodDispersion internalValidation.status cutoff
  { official :=
      { symbol := row.symbol, price := some row.price, ourTp := some valued.ourTp, buyIn := some valued.buyIn
        internalTp := some valued.internalTp, internalBuyIn := some valued.internalBuyIn
        score := some blend.score, status := some status, expectedTotalReturnPercent := some blend.totalReturn
        tpValidationStatus := some (some validation.status)
        internalScore := some internal.score, internalStatus := some internalStatus
        internalExpectedTotalReturnPercent := some internal.totalReturn
        internalTpValidationStatus := some (some internalValidation.status)
        upsidePercent := some blend.upside, priceVsBuyInPercent := some blend.distance
        publicConsensusTp := row.consensus.publicConsensusTp, consensusWeightPercent := some (valued.consensusWeight * 100)
        valuationConfidence := some valued.valuationConfidence }
    issuer := row.issuer, methods := valued.methods
    internalUpsidePercent := some internal.upside, internalPriceVsBuyInPercent := some internal.distance
    expectedDividend := some input.expectedDividend, sustainableGrowth := some input.sustainableGrowth
    convergenceYears := some input.convergenceYears
    riskScore := input.riskScore, operatingQuality := some input.operatingQuality, valuationConfidence := valued.valuationConfidence
    methodDispersionPercent := valued.methodDispersion
    validation, internalValidation := some internalValidation }

/-- The row as it is emitted; none where no group has medians. -/
def listRow (medians : Benchmark → Option Metrics) : Option Listed :=
  (benchmark medians row.toCompany).map fun sector =>
    match valueRow maths.toMaths factors context medians row.toRow with
    | some valued => listed maths context today row valued
    | none => unvalued maths row (methodsOf row.toRow context sector)

end Rows

section Matrix

/-- A point of the matrix before it is placed. -/
structure RawItem where
  symbol : String
  price : ℚ
  expectedReturn : ℚ
  tpUpside : ℚ
  priceVsBuyIn : ℚ
  riskScore : ℚ
  powerScore : ℚ
  deriving DecidableEq, Repr

/-- A served row at its latest quote, or at its own price where it has none. -/
def rawItem (maths : RowMaths) (quotes : String → Option ℚ) (row : Listed) : Option RawItem :=
  (positive ((quotes row.official.symbol).or row.official.price)).map fun price =>
    let ourTp := row.official.ourTp.getD 0
    let tpUpside := (ourTp / price - 1) * 100
    let priceVsBuyIn := (price / row.official.buyIn.getD 0 - 1) * 100
    { symbol := row.official.symbol
      price
      expectedReturn := expected12mReturn maths price ourTp (row.expectedDividend.getD 0) (row.sustainableGrowth.getD 0) (row.convergenceYears.getD 5)
        row.valuationConfidence row.methodDispersionPercent (row.official.consensusWeightPercent.getD 0)
      tpUpside, priceVsBuyIn
      riskScore := row.riskScore
      powerScore := powerScore tpUpside row.riskScore (row.operatingQuality.getD 50) row.valuationConfidence priceVsBuyIn }

end Matrix

end C3po.Producers.B3
