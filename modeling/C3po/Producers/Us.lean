import Mathlib.Data.List.Infix
import C3po.Library.OrderStatistics
import C3po.Official.Serving
import C3po.Producers.Consensus

/-! The producer of the United States: the five methods of a stock, the internal target that is
their mean and the target that blends it with the consensus, each with its entry price.
-/

set_option autoImplicit false

namespace C3po.Producers.Us
open C3po.Library

/-- What is asked of the language: the exact square root, and a text in lower case. -/
structure Setting extends Maths where
  lower : String → String

inductive Profile where
  | financial
  | utilities
  | cyclical
  | realEstate
  | technology
  | quality
  | general
  deriving DecidableEq, Repr

structure Balance where
  cashAndShortTermInvestments : Option ℚ
  cash : Option ℚ
  shortLongTermDebtTotal : Option ℚ
  netDebt : Option ℚ
  deriving DecidableEq, Repr

structure Trend where
  period : String
  epsTrendCurrent : Option ℚ
  epsTrend30daysAgo : Option ℚ
  deriving DecidableEq, Repr

/-- The registered estimates of a primary listing abroad; the registration may be unreadable. -/
structure ForeignListingPolicy where
  internalMethodTargets : Option (List (String × Option ℚ))
  buyIn : Option ℚ
  registeredOn : Option Int
  deriving DecidableEq, Repr

/-- The fundamentals of a stock besides the consensus. -/
structure Fundamentals where
  sector : Option String
  industry : Option String
  trailingPE : Option ℚ
  enterpriseToEbitda : Option ℚ
  earningsGrowthAnnual : Option ℚ
  revenueGrowthAnnual : Option ℚ
  profitMargins : Option ℚ
  operatingMargins : Option ℚ
  returnOnEquity : Option ℚ
  beta : Option ℚ
  forwardEps : Option ℚ
  trailingEps : Option ℚ
  bookValue : Option ℚ
  sharesOutstanding : Option ℚ
  ebitda : Option ℚ
  totalDebt : Option ℚ
  totalCash : Option ℚ
  freeCashflow : Option ℚ
  quarterlyEbitda : List (Option ℚ)
  quarterlyFreeCashFlow : List (Option ℚ)
  quarterlyBalance : List Balance
  surprisePercent : List (Option ℚ)
  earningsTrendQuarterly : List Trend
  foreignListingPolicy : Option ForeignListingPolicy
  deriving DecidableEq, Repr

structure AnalystRatings where
  targetPrice : Option ℚ := none
  strongBuy : ℤ := 0
  buy : ℤ := 0
  hold : ℤ := 0
  sell : ℤ := 0
  strongSell : ℤ := 0
  deriving DecidableEq, Repr

structure FmpSummary where
  lastMonthCount : ℤ
  lastMonthAvg : Option ℚ
  lastQuarterCount : ℤ
  lastQuarterAvg : Option ℚ
  deriving DecidableEq, Repr

/-- What the providers publish of the consensus, and when their answers were received. -/
structure Published where
  targetMeanPrice : Option ℚ := none
  analystRatings : AnalystRatings := {}
  numberOfAnalystOpinions : ℤ := 0
  fmpConsensus : Option ℚ := none
  fmpSummary : Option FmpSummary := none
  fmpFetchedAt : Option Int := none
  eodhdFetchedAt : Option Int := none
  deriving DecidableEq, Repr

structure InsiderActivity where
  totalCount : ℤ
  buyCount : ℤ
  sellCount : ℤ
  deriving DecidableEq, Repr

structure InstitutionalPositions where
  newPositions : ℚ
  increasedPositions : ℚ
  reducedPositions : ℚ
  closedPositions : ℚ
  deriving DecidableEq, Repr

structure NewsSentiment where
  bullishPercent : Option ℚ
  bearishPercent : Option ℚ
  articlesLastWeek : ℚ
  deriving DecidableEq, Repr

/-- A stock of the batch besides its consensus. -/
structure Stock where
  symbol : String
  price : Option ℚ
  fundamentals : Fundamentals
  insiderActivity : Option InsiderActivity
  newsSentiment : Option NewsSentiment
  institutionalPositions : Option InstitutionalPositions
  recentGrades : List String
  deriving DecidableEq, Repr

section Readings

/-- A ratio, given as a fraction or in percent. -/
def ratio (value : Option ℚ) : Option ℚ := value.map fun number => if 2 < |number| then number / 100 else number

def boundedTp (value : Option ℚ) (price : ℚ) : Option ℚ :=
  (positive value).filter fun candidate => price * 0.25 ≤ candidate ∧ candidate ≤ price * 4

def sumRows (values : List (Option ℚ)) (limit : ℕ) : Option ℚ :=
  let clean := (values.take limit).reduceOption
  if clean = [] then none else some clean.sum

def weightedValue (values : List (Option ℚ × ℚ)) (fallback : ℚ) : ℚ :=
  let usable := values.filterMap fun entry => (positive entry.1).map fun value => (value, entry.2)
  let total := (usable.map Prod.snd).sum
  if usable = [] ∨ total ≤ 0 then fallback else (usable.map fun entry => entry.1 * entry.2).sum / total

/-- A count of net moves, in full where enough of them were seen. -/
def netSignal (net total full : ℚ) : ℚ := if total ≤ 0 then 0 else net / total * min 1 (total / full)

def insiderNetSignal (activity : Option InsiderActivity) : ℚ :=
  match activity with
  | none => 0
  | some activity => netSignal (activity.buyCount - activity.sellCount) activity.totalCount 4

def institutionalConvictionSignal (positions : Option InstitutionalPositions) : ℚ :=
  match positions with
  | none => 0
  | some positions =>
      let bullish := positions.newPositions + positions.increasedPositions
      let bearish := positions.reducedPositions + positions.closedPositions
      netSignal (bullish - bearish) (bullish + bearish) 50

def gradesMomentumSignal (actions : List String) : ℚ :=
  let upgrades : ℚ := (actions.filter (· = "upgrade")).length
  let downgrades : ℚ := (actions.filter (· = "downgrade")).length
  netSignal (upgrades - downgrades) (upgrades + downgrades) 5

def sentimentConfidenceAdjustment (sentiment : Option NewsSentiment) : ℚ :=
  match sentiment with
  | none => 0
  | some sentiment =>
      match sentiment.bullishPercent, sentiment.bearishPercent with
      | some bullish, some bearish => max (-5) (min 5 ((bullish - bearish) / 100 * 5 * min 1 (sentiment.articlesLastWeek / 5)))
      | _, _ => 0

def forwardTrend (rows : List Trend) : Option Trend := (rows.find? fun row => row.period = "0q" ∨ row.period = "+1q").or rows.head?

def epsRevision (trend : Option Trend) : ℚ :=
  match trend.bind Trend.epsTrendCurrent, truthy (trend.bind Trend.epsTrend30daysAgo) with
  | some current, some prior => clamp (current / prior - 1) (-0.25) 0.25
  | _, _ => 0

end Readings

section Peers
variable (setting : Setting)

def containsAny (text : String) (terms : List String) : Bool := terms.any fun term => term.toList <:+: text.toList

def valuationProfile (sector industry : String) : Profile :=
  let text := setting.lower (sector ++ " " ++ industry)
  if containsAny text ["bank", "insurance", "banco", "segur"] then .financial
  else if containsAny text ["utility", "utilities", "water", "energia elétrica", "saneamento"] then .utilities
  else if containsAny text ["real estate", "reit", "property", "imobili"] then .realEstate
  else if containsAny text ["technology", "software", "semiconductor", "internet", "tecnologia"] then .technology
  else if containsAny text ["energy", "materials", "mining", "steel", "oil", "commodity", "petróleo", "mineração"] then .cyclical
  else if containsAny text ["health", "consumer defensive", "industrial", "saúde"] then .quality
  else .general

def named (text : Option String) : Option String := text.filter (· ≠ "")

/-- The profile of a stock, by its sector and industry or what stands for them. -/
def profileOf (missing : String) (fundamentals : Fundamentals) : Profile :=
  let sector := ((named fundamentals.sector).or (named fundamentals.industry)).getD missing
  valuationProfile setting sector ((named fundamentals.industry).getD sector)

structure PeerMedians where
  pe : Option ℚ
  evEbitda : Option ℚ
  deriving DecidableEq, Repr

/-- The median of a sample of four and more that is not too dispersed. -/
def peerMedian (samples : List ℚ) : Option ℚ :=
  if samples.length < 4 then none
  else
    let low := quartile samples 1
    let high := quartile samples 3
    let dispersion := if high + low = 0 then 0 else (high - low) / (high + low)
    if 0.40 < dispersion then none else some (statisticsMedian samples)

def usPeerMedians (batch : List Fundamentals) (profile : Profile) : PeerMedians :=
  let bucket := batch.filter fun fundamentals => profileOf setting "" fundamentals = profile
  { pe := peerMedian (bucket.filterMap fun fundamentals => fundamentals.trailingPE.filter fun pe => 3 ≤ pe ∧ pe ≤ 80)
    evEbitda := peerMedian (bucket.filterMap fun fundamentals => fundamentals.enterpriseToEbitda.filter fun multiple => 2 ≤ multiple ∧ multiple ≤ 40) }

def fairPeBaseFallback : Profile → ℚ
  | .financial => 9
  | .utilities => 12
  | .cyclical => 10
  | .realEstate => 11
  | .technology => 21
  | .quality => 18
  | .general => 15

def fairEvEbitdaBaseFallback : Profile → ℚ
  | .financial => 8
  | .utilities => 9
  | .cyclical => 7
  | .realEstate => 10
  | .technology => 17
  | .quality => 13
  | .general => 10

end Peers

section Consensus

structure Resolved where
  target : Option ℚ
  analystCount : Option ℤ
  source : String
  deriving DecidableEq, Repr

/-- The freshest target that enough analysts stand behind. -/
def resolveUsConsensus (published : Published) (eodhdConsensus : Option ℚ) (eodhdAnalystCount : Option ℤ) : Resolved :=
  let month := published.fmpSummary.bind fun summary => if 3 ≤ summary.lastMonthCount then truthy summary.lastMonthAvg else none
  let quarter := published.fmpSummary.bind fun summary => if 3 ≤ summary.lastQuarterCount then truthy summary.lastQuarterAvg else none
  match month, quarter, truthy published.fmpConsensus with
  | some month, _, _ => { target := some month, analystCount := published.fmpSummary.map FmpSummary.lastMonthCount, source := "fmp_last_month" }
  | none, some quarter, _ => { target := some quarter, analystCount := published.fmpSummary.map FmpSummary.lastQuarterCount, source := "fmp_last_quarter" }
  | none, none, some consensus => { target := some consensus, analystCount := eodhdAnalystCount, source := "fmp_all_time" }
  | none, none, none => { target := eodhdConsensus, analystCount := eodhdAnalystCount, source := "eodhd" }

def resolvedConsensus (published : Published) (price : ℚ) : Resolved :=
  let ratings := published.analystRatings
  let eodhd := boundedTp (orElse published.targetMeanPrice ratings.targetPrice) price
  let rated := ratings.strongBuy + ratings.buy + ratings.hold + (ratings.sell + ratings.strongSell)
  let count := max published.numberOfAnalystOpinions rated
  let resolved := resolveUsConsensus published eodhd (if count = 0 then none else some count)
  { resolved with target := boundedTp resolved.target price }

def usConsensusWeight (consensus : Option ℚ) (analystCount : Option ℤ) : ℚ :=
  match truthy consensus, analystCount with
  | some _, some count => if count ≤ 0 then 0 else clamp (0.20 + clamp (count / 10) 0 1 * (0.35 - 0.20)) 0.20 0.35
  | _, _ => 0

end Consensus

section Engine

def officialBlendV1 (internalTp : ℚ) (consensus : Option ℚ) (weight : ℚ) : ℚ :=
  match consensus with
  | none => internalTp
  | some target => if weight ≤ 0 then internalTp else internalTp * (1 - weight) + target * weight

def officialBuyInV1 (values : List ℚ) (entryDiscount tp : ℚ) : ℚ := min (mean (values.map fun value => value / (1 + entryDiscount))) (tp * 0.90)

def officialEntryDiscountV1 (riskScore confidence : ℚ) : ℚ := 0.12 + riskScore / 100 * 0.11 + (100 - confidence) / 100 * 0.06

def foreignBridgeTpV1 (values : List ℚ) : ℚ := mean values

end Engine

section Analysis
variable (setting : Setting) (riskFreeRate : Option ℚ) (peers : Profile → PeerMedians) (stock : Stock) (price : ℚ)

structure Reading where
  profile : Profile
  earningsGrowth : Option ℚ
  revenueGrowth : Option ℚ
  margin : Option ℚ
  operatingMargin : Option ℚ
  roe : Option ℚ
  beta : Option ℚ
  normalizedEps : Option ℚ
  bookValue : Option ℚ
  shares : Option ℚ
  ttmEbitda : Option ℚ
  freeCashflow : Option ℚ
  totalCash : ℚ
  totalDebt : ℚ
  growth : ℚ

def reading (fundamentals : Fundamentals) : Reading :=
  let earningsGrowth := ratio fundamentals.earningsGrowthAnnual
  let revenueGrowth := ratio fundamentals.revenueGrowthAnnual
  let totalCash := (positive fundamentals.totalCash).getD 0
  let totalDebt := (positive fundamentals.totalDebt).getD 0
  let latest := fundamentals.quarterlyBalance.head?
  { profile := profileOf setting "Setor não informado" fundamentals
    earningsGrowth, revenueGrowth
    margin := ratio fundamentals.profitMargins
    operatingMargin := ratio fundamentals.operatingMargins
    roe := ratio fundamentals.returnOnEquity
    beta := positive fundamentals.beta
    normalizedEps := (positive fundamentals.forwardEps).or (positive fundamentals.trailingEps)
    bookValue := positive fundamentals.bookValue
    shares := positive fundamentals.sharesOutstanding
    ttmEbitda := orElse (sumRows fundamentals.quarterlyEbitda 4) (positive fundamentals.ebitda)
    freeCashflow := (sumRows fundamentals.quarterlyFreeCashFlow 4).or fundamentals.freeCashflow
    totalCash := ((truthy (latest.bind Balance.cashAndShortTermInvestments)).or (truthy (latest.bind Balance.cash))).getD totalCash
    totalDebt := ((truthy (latest.bind Balance.shortLongTermDebtTotal)).or (truthy (latest.bind Balance.netDebt))).getD totalDebt
    growth := clamp (mean [revenueGrowth.getD 0, earningsGrowth.getD 0]) (-0.08) 0.22 }

def dcfValue (read : Reading) : Option ℚ :=
  match positive read.freeCashflow, read.shares with
  | some cashflow, some shares =>
      let discount := clamp (riskFreeRate.getD 0.042 + read.beta.getD 1 * 0.055) 0.06 0.16
      let growth := clamp read.growth 0.01 0.09
      let years := [1, 2, 3, 4, 5].foldl (fun (state : ℚ × ℚ) (year : ℕ) =>
        let next := state.1 * (1 + growth * (1 - ((year : ℚ) - 1) * 0.08))
        (next, state.2 + next / (1 + discount) ^ year)) (cashflow / shares, 0)
      let terminal := years.1 * (1 + 0.03) / max (discount - 0.03) 0.035
      boundedTp (some (years.2 + terminal / (1 + discount) ^ 5)) price
  | _, _ => read.normalizedEps.bind fun eps => boundedTp (some (eps * 17)) price

/-- The values that the methods weigh. -/
structure Estimates where
  earnings : Option ℚ
  enterprise : Option ℚ
  book : Option ℚ
  dcf : Option ℚ

def estimates (read : Reading) : Estimates :=
  let peer := peers read.profile
  let fairPe := clamp ((truthy peer.pe).getD (fairPeBaseFallback read.profile) + max read.growth (-0.05) * 35 + max (read.roe.getD 0 - 0.12) (-0.08) * 16) 6 34
  let fairEv := clamp ((truthy peer.evEbitda).getD (fairEvEbitdaBaseFallback read.profile) + max read.growth (-0.05) * 20 +
    (orElse read.operatingMargin read.margin).getD 0 * 8) 4.5 24
  let fairPb := clamp (0.8 + max (read.roe.getD 0 - 0.08) 0 * 10 + max read.growth 0 * 2) 0.7 6
  { earnings := boundedTp (some (read.normalizedEps.getD 0 * fairPe)) price
    enterprise :=
      match truthy read.ttmEbitda, read.shares with
      | some ebitda, some shares =>
          if read.profile = .financial then none else boundedTp (some ((ebitda * fairEv - read.totalDebt + read.totalCash) / shares)) price
      | _, _ => none
    book := boundedTp (some (read.bookValue.getD 0 * fairPb)) price
    dcf := if read.profile = .financial then none else dcfValue riskFreeRate price read }

def riskScore (read : Reading) : ℚ :=
  let debtToEbitda := (truthy read.ttmEbitda).bind fun ebitda => if 0 ≤ read.totalDebt then some (read.totalDebt / ebitda) else none
  clamp (32 + (read.beta.map fun beta => clamp ((beta - 0.85) * 24) (-8) 25).getD 0 +
    (debtToEbitda.map fun leverage => clamp ((leverage - 1.5) * 7) (-8) 24).getD 0 +
    (read.earningsGrowth.map fun growth => if growth < 0 then min 16 (|growth| * 38) else 0).getD 0 +
    (read.freeCashflow.map fun cashflow => if cashflow < 0 then 9 else 0).getD 0 -
    insiderNetSignal stock.insiderActivity * 8 - institutionalConvictionSignal stock.institutionalPositions * 8 -
    gradesMomentumSignal stock.recentGrades * 6) 15 90

def standardMethodNames : List String :=
  ["Múltiplos de Lucro + EV/EBITDA", "Fluxo de Caixa Descontado", "Blend Ajustado ao Risco", "Momentum de Lucro", "Qualidade & Fluxo de Caixa"]

def financialMethodNames : List String :=
  ["Múltiplos de Lucro (P/L)", "Lucro Projetado (P/L)", "Blend de Risco (P/L + P/B)", "Momentum de Lucro Bancário", "Valor Patrimonial & Qualidade"]

/-- The five methods before they are bounded. -/
def rawMethods (read : Reading) : List (String × ℚ) :=
  let values := estimates riskFreeRate peers price read
  let anchor := weightedValue [(values.earnings, 0.40), (values.enterprise, 0.30), (values.dcf, 0.20), (values.book, 0.10)] price
  let risk := riskScore stock read
  let riskAdjustment := clamp ((risk - 40) / 500) (-0.04) 0.10
  let qualityAdjustment := clamp ((truthy read.roe).getD 0.12 * 0.20 + (truthy read.margin).getD 0.08 * 0.15 + max read.growth (-0.05) * 0.20) (-0.04) 0.12
  let surprise := (ratio (stock.fundamentals.surprisePercent.head?.join)).getD 0
  let revision := epsRevision (forwardTrend stock.fundamentals.earningsTrendQuarterly)
  List.zip (if read.profile = .financial then financialMethodNames else standardMethodNames)
    [weightedValue [(values.earnings, 0.42), (values.enterprise, 0.33), (values.book, 0.10)] anchor,
     weightedValue [(values.dcf, 0.72), (values.earnings, 0.18)] anchor,
     weightedValue [(values.dcf, 0.28), (values.enterprise, 0.22), (values.earnings, 0.20), (values.book, 0.10)] anchor * (1 - riskAdjustment),
     weightedValue [(values.earnings, 0.65), (values.enterprise, 0.15)] anchor * clamp (1 + surprise * 0.12 + revision * 0.20) 0.90 1.12,
     weightedValue [(values.dcf, 0.30), (values.earnings, 0.25), (values.enterprise, 0.20)] anchor *
       clamp (1 + qualityAdjustment - riskAdjustment * 0.45) 0.90 1.14]

/-- Each method near the price and near the middle of the five. -/
def frameworkMethods (read : Reading) : List (String × ℚ) :=
  let raw := rawMethods riskFreeRate peers stock price read
  let center := statisticsMedian (raw.map Prod.snd)
  raw.map fun entry => (entry.1, clamp entry.2 (max (price * 0.40) (center * 0.68)) (min (price * 2.75) (center * 1.45)))

inductive Refusal where
  | price
  | registration
  | bridge
  deriving DecidableEq, Repr

/-- The registered methods of a primary listing abroad, with their entry price and the day they were
registered; none where the policy has no five of them. -/
def foreignBridge (policy : Option ForeignListingPolicy) : Except Refusal (Option (List (String × ℚ) × ℚ × Int)) :=
  match policy.bind ForeignListingPolicy.internalMethodTargets, policy.bind fun policy => positive policy.buyIn with
  | some targets, some buyIn =>
      if targets.length ≠ 5 then .ok none
      else
        match policy.bind ForeignListingPolicy.registeredOn with
        | none => .error .registration
        | some registered =>
            let values := targets.filterMap fun entry => (positive entry.2).map fun value => (entry.1, value)
            if values.length ≠ 5 then .error .bridge else .ok (some (values, buyIn, registered))
  | _, _ => .ok none

def dispersionOf (values : List ℚ) : ℚ :=
  if values.length < 2 then 0
  else
    let center := mean values
    let variance := mean (values.map fun value => (value - center) ^ 2)
    if center = 0 then 0 else setting.sqrt variance / center * 100

structure Analysis where
  profile : Profile
  methods : List (String × ℚ)
  consensus : Option ℚ
  consensusSource : String
  analystCount : Option ℤ
  consensusWeightDiagnostic : ℚ
  methodEstimateRegisteredOn : Option Int
  riskScore : ℚ
  confidence : ℚ
  dispersion : ℚ
  c3poTp : ℚ
  buyIn : ℚ
  deriving DecidableEq, Repr

def completeness (read : Reading) (consensus : Option ℚ) : ℚ :=
  ([consensus, read.normalizedEps, read.bookValue, read.shares, read.ttmEbitda, read.freeCashflow, read.roe, read.margin, read.revenueGrowth,
    read.beta].filter Option.isSome).length / 10

/-- The analysis of a stock in the role of its producer. -/
def analyze (published : Published) : Except Refusal Analysis :=
  match positive stock.price with
  | none => .error .price
  | some price => do
      let resolved := resolvedConsensus published price
      let read := reading setting stock.fundamentals
      let own := frameworkMethods riskFreeRate peers stock price read
      let weight := usConsensusWeight resolved.target resolved.analystCount
      let bridge ← foreignBridge stock.fundamentals.foreignListingPolicy
      let methods := (bridge.map fun bridge => bridge.1).getD own
      let values := methods.map Prod.snd
      let dispersion := dispersionOf setting values
      let risk := riskScore stock read
      let confidence := clamp (45 + completeness read resolved.target * 28 + min (resolved.analystCount.getD 0 : ℚ) 30 * 0.35 - dispersion * 0.35 +
        sentimentConfidenceAdjustment stock.newsSentiment) 45 94
      let entryDiscount := 0.12 + risk / 100 * 0.11 + (100 - confidence) / 100 * 0.06
      let tp := if bridge.isSome then foreignBridgeTpV1 values else officialBlendV1 (mean (own.map Prod.snd)) resolved.target weight
      pure
        { profile := read.profile
          methods
          consensus := resolved.target
          consensusSource := resolved.source
          analystCount := resolved.analystCount
          consensusWeightDiagnostic := weight
          methodEstimateRegisteredOn := bridge.map fun bridge => bridge.2.2
          riskScore := risk
          confidence, dispersion
          c3poTp := tp
          buyIn := (bridge.map fun bridge => bridge.2.1).getD (officialBuyInV1 values entryDiscount tp) }

end Analysis

structure Valued where
  methods : List (String × ℚ)
  internalTp : ℚ
  internalBuyIn : ℚ
  ourTp : ℚ
  buyIn : ℚ
  consensus : Option ℚ
  consensusWeight : ℚ
  analystCount : Option ℤ
  consensusSource : Option String
  consensusObservedAt : Option Int
  riskScore : ℚ
  confidence : ℚ
  dispersion : ℚ
  agreement : ℚ
  dataSources : ℕ
  validationScore : ℚ
  reasons : List String
  validated : Bool
  deriving DecidableEq, Repr

section Screen
variable (setting : Setting) (factors : List (Option Profile × ℚ)) (riskFreeRate : Option ℚ)

def calibrationFactor (profile : Profile) : ℚ :=
  clamp ((Dict.find (some profile) factors).getD ((Dict.find none factors).getD 1)) (1 - 0.05) (1 + 0.05)

def analyzeStock (peers : Profile → PeerMedians) (stock : Stock) (published : Published) : Except Refusal Valued := do
  let analysis ← analyze setting riskFreeRate peers stock published
  let methods := analysis.methods.filter fun entry => 0 < entry.2
  let values := methods.map Prod.snd
  let consensus := positive analysis.consensus
  let consensusSource := if analysis.consensusSource = "" then none else some analysis.consensusSource
  let factor := calibrationFactor factors analysis.profile
  let internalTp := mean values * factor
  let gap := consensus.map fun consensus => |internalTp / consensus - 1| * 100
  let agreement := clamp (100 - (truthy gap).getD 45 * 1.35) 25 100
  let analystCount := if analysis.analystCount = some 0 then none else analysis.analystCount
  let dataSources : ℕ := if consensus.isSome ∧ analystCount.any (2 ≤ ·) then 2 else 1
  let validationScore := clamp (analysis.confidence * 0.45 + agreement * 0.30 + min (methods.length : ℚ) 5 / 5 * 15 +
    min (analystCount.getD 0 : ℚ) 10 / 10 * 10) 0 100
  let reasons := (if analysis.confidence < 70 then ["confidence below 70"] else []) ++
    (if 45 < analysis.dispersion then ["method dispersion above 45%"] else []) ++
    (if dataSources < 2 then ["public consensus unavailable"] else [])
  pure
    { methods, internalTp
      internalBuyIn :=
        if analysis.methodEstimateRegisteredOn.isSome ∨ consensus = none then analysis.buyIn
        else officialBuyInV1 values (officialEntryDiscountV1 analysis.riskScore analysis.confidence) (mean values)
      ourTp := analysis.c3poTp * factor
      buyIn := analysis.buyIn
      consensus
      consensusWeight :=
        if consensus.isSome ∧ analysis.methodEstimateRegisteredOn = none then clamp analysis.consensusWeightDiagnostic 0 1 else 0
      analystCount, consensusSource
      consensusObservedAt := consensusSource.bind fun source => if "fmp".toList <+: source.toList then published.fmpFetchedAt else published.eodhdFetchedAt
      riskScore := analysis.riskScore
      confidence := analysis.confidence
      dispersion := analysis.dispersion
      agreement, dataSources, validationScore, reasons
      validated := reasons = [] ∧ 65 ≤ validationScore }

/-- A batch valued: the medians taken over every name of it, those that are not analysed included. -/
def valueBatch (others : List Fundamentals) (stocks : List (Stock × Published)) : List (Except Refusal Valued) :=
  let peers := usPeerMedians setting (stocks.map (fun entry => entry.1.fundamentals) ++ others)
  stocks.map fun entry => analyzeStock setting factors riskFreeRate peers entry.1 entry.2

end Screen

/-! The rows of the United States screener: what the tail of a row makes of its targets, the status the
build gives it, and the quotes that the matrix refreshes the served rows with.
-/

section Tail

def normalizedPercent (value : Option ℚ) : Option ℚ := value.map fun parsed => if |parsed| ≤ 1.5 then parsed * 100 else parsed

def powerScore (upside risk quality confidence entryDistance : ℚ) : ℚ :=
  clamp (clamp ((upside + 10) / 90 * 100) 0 100 * 0.35 + (100 - risk) * 0.25 + quality * 0.15 + confidence * 0.15 +
    clamp (100 - |entryDistance| * 5) 0 100 * 0.10) 0 100

inductive SecurityType where
  | stock
  | etf
  deriving DecidableEq, Repr

/-- What the tail of a row is given: the quote, the fundamentals it reads and the values of the analysis. -/
structure RowInput where
  symbol : String
  price : ℚ
  securityType : SecurityType
  dividendYield : Option ℚ
  returnOnEquity : Option ℚ
  profitMargins : Option ℚ
  qualityScore : ℚ
  ourTp : ℚ
  internalTp : ℚ
  buyIn : ℚ
  internalBuyIn : ℚ
  consensus : Option ℚ
  consensusWeightPercent : ℚ
  risk : ℚ
  confidence : ℚ
  dispersion : ℚ
  validated : Bool
  deriving DecidableEq, Repr

/-- A row of the screener: the columns that its record is made of, and those that only the row has. -/
structure Row where
  official : Official.Row
  internalUpsidePercent : ℚ
  internalPriceVsBuyInPercent : ℚ
  riskScore : ℚ
  operatingQuality : ℚ
  valuationConfidence : ℚ
  methodDispersionPercent : ℚ
  consensusGapPercent : Option ℚ
  validated : Bool
  deriving DecidableEq, Repr

/-- What a row shows of a target at a price. -/
structure Numbers where
  upsidePercent : Option ℚ
  expectedTotalReturnPercent : Option ℚ
  priceVsBuyInPercent : Option ℚ
  score : Option ℚ
  deriving DecidableEq, Repr

def Row.numbers (row : Row) : Numbers where
  upsidePercent := row.official.upsidePercent
  expectedTotalReturnPercent := row.official.expectedTotalReturnPercent
  priceVsBuyInPercent := row.official.priceVsBuyInPercent
  score := row.official.score

def operatingQuality (input : RowInput) : ℚ :=
  match input.securityType with
  | .stock => clamp (50 + (normalizedPercent input.returnOnEquity).getD 0 * 0.45 + (normalizedPercent input.profitMargins).getD 0 * 0.30) 20 95
  | .etf => input.qualityScore

/-- The row of an analysis; its status follows once the whole build is known. -/
def commonRow (input : RowInput) : Row :=
  let upside := (input.ourTp / input.price - 1) * 100
  let entryDistance := (input.price / input.buyIn - 1) * 100
  let dividendYield := (normalizedPercent input.dividendYield).getD 0
  let expectedReturn := upside + dividendYield
  let internalUpside := (input.internalTp / input.price - 1) * 100
  let internalEntryDistance := (input.price / input.internalBuyIn - 1) * 100
  let quality := operatingQuality input
  { official :=
      { symbol := input.symbol
        price := some input.price
        ourTp := some input.ourTp
        buyIn := some input.buyIn
        internalTp := some input.internalTp
        internalBuyIn := some input.internalBuyIn
        score := some (powerScore upside input.risk quality input.confidence entryDistance)
        status := none
        expectedTotalReturnPercent := some expectedReturn
        tpValidationStatus := none
        internalScore := some (powerScore internalUpside input.risk quality input.confidence internalEntryDistance)
        internalStatus := none
        internalExpectedTotalReturnPercent := some (internalUpside + dividendYield)
        internalTpValidationStatus := none
        upsidePercent := some upside
        priceVsBuyInPercent := some entryDistance
        publicConsensusTp := input.consensus
        consensusWeightPercent := some (if input.consensus.isNone then 0 else input.consensusWeightPercent)
        valuationConfidence := some input.confidence }
    internalUpsidePercent := internalUpside
    internalPriceVsBuyInPercent := internalEntryDistance
    riskScore := input.risk
    operatingQuality := quality
    valuationConfidence := input.confidence
    methodDispersionPercent := input.dispersion
    consensusGapPercent := (truthy input.consensus).map fun consensus => |input.internalTp / consensus - 1| * 100
    validated := input.validated }

end Tail

section Statuses

def riskCutoff (rows : List Row) : ℚ :=
  let risks := rows.filterMap fun row => positive (some row.riskScore)
  min 40 (if risks = [] then 40 else statisticsMedian risks)

def tpCutoff (riskFreeRate : ℚ) : ℚ := (riskFreeRate + 0.06) * 100

def screenStatus (validated : Bool) (upside risk entryDistance tpCutoff riskCutoff : ℚ) : String :=
  if validated ∧ tpCutoff ≤ upside ∧ risk < riskCutoff ∧ -10 ≤ entryDistance ∧ entryDistance ≤ 15 then "full_match"
  else if validated ∧ tpCutoff ≤ upside then "near_buy"
  else "watchlist"

/-- A row with the status of its target and of the internal one, against the cutoffs of the build. -/
def Row.withStatus (row : Row) (tpCutoff riskCutoff : ℚ) : Row :=
  { row with
    official := { row.official with
      status := some (screenStatus row.validated (row.official.upsidePercent.getD 0) row.riskScore (row.official.priceVsBuyInPercent.getD 0) tpCutoff riskCutoff)
      internalStatus := some (screenStatus row.validated row.internalUpsidePercent row.riskScore row.internalPriceVsBuyInPercent tpCutoff riskCutoff) } }

def assignStatuses (rows : List Row) (riskFreeRate : ℚ) : List Row :=
  rows.map fun row => row.withStatus (tpCutoff riskFreeRate) (riskCutoff rows)

theorem countP_lt_statisticsMedian (values : List ℚ) : 2 * values.countP (· < statisticsMedian values) ≤ values.length := by
  rcases values.eq_nil_or_concat with rfl | ⟨front, last, same⟩
  · exact le_rfl
  have some : 0 < values.length := by simp [same]
  have pairwise : (sorted values).Pairwise (· ≤ ·) := List.pairwise_insertionSort _ _
  have perm : (sorted values).Perm values := List.perm_insertionSort _ _
  rw [← perm.countP_eq, ← perm.length_eq]
  rw [← perm.length_eq] at some
  have bound : statisticsMedian values ≤ (sorted values).getD ((sorted values).length / 2) 0 := by
    unfold statisticsMedian
    dsimp only
    split
    · exact le_rfl
    · have order := List.pairwise_iff_getElem.mp pairwise ((sorted values).length / 2 - 1) ((sorted values).length / 2)
        (by omega) (by omega) (by omega)
      rw [List.getD_eq_getElem _ _ (by omega), List.getD_eq_getElem _ _ (by omega)]
      linarith
  have few := countP_lt_getD pairwise (by omega) bound
  omega

theorem riskCutoff_perm {rows others : List Row} (perm : rows.Perm others) : riskCutoff rows = riskCutoff others := by
  have same := perm.filterMap fun row => positive (some row.riskScore)
  unfold riskCutoff statisticsMedian sorted
  dsimp only
  rw [insertionSort_congr same]
  simp only [List.eq_nil_iff_length_eq_zero, same.length_eq]

theorem screenStatus_full {validated : Bool} {upside risk entryDistance tpCutoff riskCutoff : ℚ}
    (full : screenStatus validated upside risk entryDistance tpCutoff riskCutoff = "full_match") : risk < riskCutoff := by
  unfold screenStatus at full
  split at full
  · rename_i all
    exact all.2.2.1
  · split at full <;> exact absurd full (by decide)

/-- Of the rows of a build that have a risk, at most half are full matches, whichever of the two targets their status is of; and
the statuses of a build do not depend on the order of its rows. -/
theorem full_matches_at_most_half (rows : List Row) (riskFreeRate : ℚ) :
    2 * (assignStatuses rows riskFreeRate).countP (fun row => 0 < row.riskScore ∧
        (row.official.status = some "full_match" ∨ row.official.internalStatus = some "full_match")) ≤
      rows.countP (fun row => 0 < row.riskScore) ∧
    ∀ others, rows.Perm others → (assignStatuses rows riskFreeRate).Perm (assignStatuses others riskFreeRate) := by
  constructor
  · let risks := rows.filterMap fun row => positive (some row.riskScore)
    have scored : risks.length = rows.countP fun row => 0 < row.riskScore := by
      rw [List.length_filterMap_eq_countP]
      refine List.countP_congr fun row _ => ?_
      simp [positive, Option.isSome_filter]
    have below : (assignStatuses rows riskFreeRate).countP (fun row => 0 < row.riskScore ∧
        (row.official.status = some "full_match" ∨ row.official.internalStatus = some "full_match")) ≤ risks.countP (· < riskCutoff rows) := by
      rw [assignStatuses, List.countP_map, List.countP_filterMap]
      refine List.countP_mono_left fun row _ matched => ?_
      obtain ⟨scores, full⟩ := of_decide_eq_true matched
      have low : row.riskScore < riskCutoff rows := by
        rcases full with full | full
        · exact screenStatus_full (Option.some.inj full)
        · exact screenStatus_full (Option.some.inj full)
      have shown : positive (some row.riskScore) = some row.riskScore := Option.filter_some_pos (decide_eq_true scores)
      rw [shown]
      exact decide_eq_true low
    rw [← scored]
    refine (Nat.mul_le_mul_left 2 below).trans ?_
    by_cases none : risks = []
    · rw [none]
      exact le_rfl
    · have cutoff : riskCutoff rows ≤ statisticsMedian risks := by
        unfold riskCutoff
        dsimp only
        rw [if_neg none]
        exact min_le_right _ _
      have fewer : risks.countP (· < riskCutoff rows) ≤ risks.countP (· < statisticsMedian risks) :=
        List.countP_mono_left fun risk _ under => decide_eq_true ((of_decide_eq_true under).trans_le cutoff)
      exact (Nat.mul_le_mul_left 2 fewer).trans (countP_lt_statisticsMedian risks)
  · intro others perm
    unfold assignStatuses
    rw [riskCutoff_perm perm]
    exact perm.map _

end Statuses

section Refresh

def Row.refreshed (row : Row) (quote : ℚ) : Row :=
  let ourTp := row.official.ourTp.getD 0
  let buyIn := row.official.buyIn.getD 0
  let upside := (ourTp / quote - 1) * 100
  let distance := (quote / buyIn - 1) * 100
  { row with
    official := { row.official with
      price := some quote
      upsidePercent := some upside
      expectedTotalReturnPercent := some upside
      priceVsBuyInPercent := some distance
      score := some (powerScore upside row.riskScore row.operatingQuality row.valuationConfidence distance) } }

def refreshQuotes (quotes : String → Option ℚ) (rows : List Row) : List Row :=
  rows.map fun row => match quotes row.official.symbol with
    | some quote => row.refreshed quote
    | none => row

end Refresh

end C3po.Producers.Us
