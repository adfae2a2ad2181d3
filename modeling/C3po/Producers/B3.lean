import C3po.Library.Dict
import C3po.Producers.Consensus

/-! The Brazilian producer: the methods that value a row, the internal target they make and the
target that blends it with the consensus, each with the entry price derived of it.
-/

set_option autoImplicit false

namespace C3po.Producers.B3
open C3po.Library

inductive Profile where
  | financial
  | realEstate
  | utilities
  | cyclical
  | growth
  | qualityCompounder
  | general
  deriving DecidableEq, Repr

inductive Method where
  | earnings
  | cycleEarnings
  | book
  | residual
  | dcf
  | enterprise
  | cycleEnterprise
  | dividend
  | consensus
  deriving DecidableEq, Repr

/-- What a row is valued by besides the consensus. -/
structure Company where
  symbol : String
  issuer : String
  profile : Profile
  sector : String
  peerGroup : String
  price : ℚ
  marketCap : ℚ
  pe : Option ℚ
  forwardPe : Option ℚ
  evEbitda : Option ℚ
  priceToBook : Option ℚ
  bookValue : Option ℚ
  beta : Option ℚ
  shares : Option ℚ
  eps : Option ℚ
  forwardEps : Option ℚ
  dividendYield : Option ℚ
  debtToEquity : Option ℚ
  roe : Option ℚ
  profitMargin : Option ℚ
  ebitdaMargin : Option ℚ
  revenueGrowth : Option ℚ
  earningsGrowth : Option ℚ
  revenueCagr5y : Option ℚ
  earningsCagr5y : Option ℚ
  fcf : Option ℚ
  operatingCashflow : Option ℚ
  ebitda : Option ℚ
  revenue : Option ℚ
  cash : ℚ
  debt : ℚ
  cycleProfitMargin : Option ℚ
  cycleEbitdaMargin : Option ℚ
  cycleFcfMargin : Option ℚ
  cycleImpliedPe : Option ℚ
  cycleImpliedEvEbitda : Option ℚ
  volatility90d : Option ℚ
  support60d : Option ℚ
  median20d : Option ℚ
  low20d : Option ℚ
  lastClose : Option ℚ
  completeness : ℚ
  sourceAgreementPercent : ℚ
  quoteQuality : ℚ
  deriving DecidableEq, Repr

/-- A row: the company, what the providers answer of its consensus, and the consensus reconciled. -/
structure Row extends Company where
  answers : Provider → Answer
  consensus : Consensus := {}

/-- The multiples of a group of rows. -/
structure Metrics where
  pe : ℚ
  forwardPe : ℚ
  evEbitda : ℚ
  cyclePe : ℚ
  cycleEvEbitda : ℚ
  priceToBook : ℚ
  roe : ℚ
  growth : ℚ
  profitMargin : ℚ
  ebitdaMargin : ℚ
  deriving DecidableEq, Repr

inductive Benchmark where
  | peer (group : String)
  | sector (name : String)
  | profile (profile : Profile)
  deriving DecidableEq, Repr

section Medians

def present (field : Company → Option ℚ) (rows : List Company) : List ℚ := rows.filterMap fun row => truthy (field row)

def above (field : Company → Option ℚ) (rows : List Company) : List ℚ := rows.filterMap fun row => positive (field row)

def metrics (rows : List Company) : Metrics where
  pe := median (present Company.pe rows) 12
  forwardPe := median (present Company.forwardPe rows) 10
  evEbitda := median (present Company.evEbitda rows) 8
  cyclePe := median (present Company.cycleImpliedPe rows) 7
  cycleEvEbitda := median (present Company.cycleImpliedEvEbitda rows) 5
  priceToBook := median (present Company.priceToBook rows) 1.8
  roe := median (above Company.roe rows) 0.15
  growth := median (above Company.earningsGrowth rows) 0.05
  profitMargin := median (above Company.profitMargin rows) 0.08
  ebitdaMargin := median (above Company.ebitdaMargin rows) 0.15

/-- The medians of every profile, and of the sectors and peer groups of four rows and more. -/
def sectorMedians (rows : List Company) : Benchmark → Option Metrics
  | .profile profile =>
      let group := rows.filter fun row => row.profile = profile
      if group = [] then none else some (metrics group)
  | .sector name =>
      let group := rows.filter fun row => row.sector = name
      if 4 ≤ group.length then some (metrics group) else none
  | .peer name =>
      let group := rows.filter fun row => row.peerGroup = name
      if 4 ≤ group.length then some (metrics group) else none

def benchmark (medians : Benchmark → Option Metrics) (row : Company) : Option Metrics :=
  (medians (.peer row.peerGroup)).or ((medians (.sector row.sector)).or (medians (.profile row.profile)))

end Medians

structure Macro where
  selic : Option ℚ
  ipca12m : Option ℚ
  deriving DecidableEq, Repr

section Rates
variable (row : Company) (context : Macro)

def currentGrowth : ℚ := mean [row.revenueGrowth.getD 0, row.earningsGrowth.getD 0]

def growthOf : ℚ :=
  let durable := [row.revenueCagr5y, row.earningsCagr5y].reduceOption
  if row.profile = .qualityCompounder ∧ durable ≠ [] then clamp (mean durable * 0.65 + currentGrowth row * 0.35) (-0.03) 0.16
  else clamp (currentGrowth row) (-0.08) 0.16

def roeOf : ℚ := row.roe.getD 0

def betaOf : ℚ := (truthy row.beta).getD 1.15

def riskPenalty : ℚ :=
  let missing : ℚ := 0.025 * ([row.beta, row.roe, row.earningsGrowth].filter Option.isNone).length
  let leverage : ℚ := if row.profile = .financial then 0 else max 0 (row.debtToEquity.getD 2 - 1.5) * 0.025
  clamp (max 0 (betaOf row - 1) * 0.07 + leverage + missing) 0 0.28

def riskFree : ℚ := clamp (context.selic.getD 0.145) 0.07 0.20

def costEquity : ℚ := clamp (riskFree context + betaOf row * 0.055 + riskPenalty row * 0.20) 0.13 0.29

def wacc : ℚ := clamp (riskFree context + betaOf row * 0.040 + riskPenalty row * 0.18) 0.12 0.26

def terminalGrowth : ℚ := clamp (clamp (context.ipca12m.getD 0.045) 0.025 0.09 + 0.005) 0.035 0.065

end Rates

section Methods
variable (row : Company) (context : Macro) (sector : Metrics)

def targetPeBounds : Profile → ℚ × ℚ
  | .financial => (6, 14)
  | .realEstate => (5, 13)
  | .utilities => (7, 16)
  | .cyclical => (5, 13)
  | .growth => (12, 30)
  | .qualityCompounder => (18, 34)
  | .general => (7, 20)

def cyclicalTargetMultiples : ℚ × ℚ :=
  let basePe := ((positive (some sector.cyclePe)).or ((positive (some sector.forwardPe)).or (positive (some sector.pe)))).getD 7
  let baseEv := ((positive (some sector.cycleEvEbitda)).or (positive (some sector.evEbitda))).getD 5
  (clamp (basePe * (1 + growthOf row * 0.30 + (roeOf row - sector.roe) * 0.35 - riskPenalty row * 0.20)) 4 11,
   clamp (baseEv * (1 + growthOf row * 0.30 - riskPenalty row * 0.30)) 3 10)

def targetPe : ℚ :=
  let bounds := targetPeBounds row.profile
  match row.profile with
  | .qualityCompounder => clamp (18 + roeOf row * 35 + max 0 (growthOf row) * 35 - riskFree context * 25) bounds.1 bounds.2
  | .cyclical => (cyclicalTargetMultiples row sector).1
  | _ => clamp (sector.pe * (1 + growthOf row * 0.8 + (roeOf row - sector.roe) * 0.7)) bounds.1 bounds.2

/-- The earnings per share, no higher than the cash that backs them. -/
def normalizedEps : Option ℚ :=
  match truthy (orElse row.forwardEps row.eps), truthy row.operatingCashflow, truthy row.shares with
  | some eps, some cashflow, some shares => if row.profile = .financial then some eps else some (min eps (cashflow * 0.85 / shares))
  | eps, _, _ => eps

/-- One year of a forecast: the cash projected, and its value today added to what came before. -/
def projected (growth rate : ℚ) (fade : ℕ → ℚ) (year : ℕ) (cash value : ℚ) : ℚ × ℚ :=
  let next := cash * (1 + growth * fade year)
  (next, value + next / (1 + rate) ^ year)

/-- Five years of a forecast. -/
def forecast (growth rate : ℚ) (fade : ℕ → ℚ) (cash : ℚ) : ℚ × ℚ :=
  [1, 2, 3, 4, 5].foldl (fun (state : ℚ × ℚ) year => projected growth rate fade year state.1 state.2) (cash, 0)

def dcfValue (fcf : Option ℚ) : Option ℚ :=
  let growth := growthOf row
  let rate := wacc row context
  let terminalRate := terminalGrowth context
  match truthy fcf, truthy row.shares with
  | some fcf, some shares =>
      if rate ≤ terminalRate then none
      else
        let normalizers := fcf :: ((truthy row.operatingCashflow).map (· * 0.75)).toList ++ ((truthy row.ebitda).map (· * 0.60)).toList
        let chosen := if row.profile = .qualityCompounder then statisticsMedian normalizers else normalizers.foldl min fcf
        let normalized := if row.profile = .cyclical then chosen * 0.82 else chosen
        let forecastGrowth := clamp growth (-0.03) (if row.profile = .growth then 0.14 else 0.11)
        let years := forecast forecastGrowth rate (fun year => 1 - ((year : ℚ) - 1) / 8) normalized
        let terminal := years.1 * (1 + terminalRate) / (rate - terminalRate)
        let enterprise := years.2 + terminal / (1 + rate) ^ 5
        positive (some ((enterprise + row.cash - row.debt) / shares))
  | _, _ => none

def cycleEarnings : Option ℚ :=
  match row.profile, truthy row.shares, truthy row.revenue with
  | .cyclical, some shares, some revenue =>
      let margin := (truthy row.cycleProfitMargin).getD (clamp sector.profitMargin 0.035 0.14)
      (positive (some (revenue * margin / shares))).map (· * targetPe row context sector)
  | _, _, _ => none

def targetEv : ℚ :=
  match row.profile with
  | .qualityCompounder =>
      clamp (12 + row.profitMargin.getD 0 * 20 + max 0 (growthOf row) * 30 + max 0 (roeOf row - 0.20) * 15 - riskFree context * 15) 12 26
  | .cyclical => (cyclicalTargetMultiples row sector).2
  | _ => clamp (sector.evEbitda * (1 + growthOf row * 0.7 - riskPenalty row * 0.5)) 3 18

def enterpriseValues : List (Method × ℚ) :=
  match truthy row.shares, truthy row.ebitda with
  | some shares, some ebitda =>
      let value (earnings : ℚ) : Option ℚ := positive (some ((earnings * targetEv row context sector + row.cash - row.debt) / shares))
      let spot := if row.profile = .cyclical then none else value ebitda
      let cycle :=
        match row.profile, truthy row.revenue with
        | .cyclical, some revenue => value (revenue * (truthy row.cycleEbitdaMargin).getD (clamp sector.ebitdaMargin 0.08 0.24))
        | _, _ => none
      (spot.map fun value => (Method.enterprise, value)).toList ++ (cycle.map fun value => (Method.cycleEnterprise, value)).toList
  | _, _ => []

def bookValues : List (Method × ℚ) :=
  match truthy row.bookValue with
  | none => []
  | some book =>
      if row.profile = .financial ∨ row.profile = .realEstate then
        let justified := clamp (0.65 + max 0 (roeOf row - 0.08) * 6 + max 0 (growthOf row) * 1.2) 0.55 2.8
        [(.book, book * justified), (.residual, book + book * max (-0.03) (roeOf row - costEquity row context) * 4.5)]
      else
        let target :=
          if row.profile = .qualityCompounder then
            clamp (2 + max 0 (roeOf row - costEquity row context) * 25 + max 0 (growthOf row) * 12) 2 12
          else clamp (sector.priceToBook * (1 + (roeOf row - sector.roe) * 1.5)) 0.45 6
        [(.book, book * target)]

/-- The free cash flow that is discounted: of a cyclical, that of the middle of the cycle. -/
def dcfCash : Option ℚ :=
  match row.profile, truthy row.cycleFcfMargin, truthy row.revenue with
  | .cyclical, some margin, some revenue => some (revenue * margin)
  | _, _, _ => row.fcf

def dividendValue : Option ℚ :=
  match truthy row.dividendYield with
  | none => none
  | some dividendYield =>
      if row.profile = .qualityCompounder ∨ row.profile = .cyclical ∨ dividendYield < 0.03 ∨ 0.20 < dividendYield then none
      else
        let share : ℚ := if row.profile = .financial ∨ row.profile = .utilities then 0.42 else 0.55
        some (row.price * dividendYield / clamp (costEquity row context * share) 0.055 0.12)

/-- The methods of a row, in the order they are valued, the consensus among them. -/
def methodsOf (row : Row) (context : Macro) (sector : Metrics) : List (Method × ℚ) :=
  let company := row.toCompany
  let earnings := if company.profile = .cyclical then none else (truthy (normalizedEps company)).map (· * targetPe company context sector)
  let assets :=
    if company.profile = .financial ∨ company.profile = .realEstate then bookValues company context sector
    else
      ((truthy (dcfValue company context (dcfCash company))).map fun value => (Method.dcf, value)).toList ++
        enterpriseValues company context sector ++ bookValues company context sector
  (earnings.map fun value => (Method.earnings, value)).toList ++
    ((cycleEarnings company context sector).map fun value => (Method.cycleEarnings, value)).toList ++
    assets ++
    ((dividendValue company context).map fun value => (Method.dividend, value)).toList ++
    (if 0 < row.consensus.analystCount then (truthy row.consensus.publicConsensusTp).map fun target => (Method.consensus, target) else none).toList

end Methods

section Blend

def isInternal (entry : Method × ℚ) : Bool := entry.1 ≠ .consensus

def methodWeights : Profile → List (Method × ℚ)
  | .financial => [(.dcf, 0.05), (.earnings, 0.20), (.book, 0.15), (.residual, 0.30), (.dividend, 0.20)]
  | .realEstate => [(.dcf, 0.05), (.earnings, 0.20), (.book, 0.30), (.residual, 0.20), (.dividend, 0.15)]
  | .utilities => [(.dcf, 0.30), (.enterprise, 0.15), (.earnings, 0.15), (.dividend, 0.25), (.book, 0.05)]
  | .cyclical => [(.dcf, 0.15), (.cycleEnterprise, 0.40), (.cycleEarnings, 0.35), (.book, 0.10)]
  | .growth => [(.dcf, 0.35), (.enterprise, 0.20), (.earnings, 0.25), (.book, 0.05), (.dividend, 0.05)]
  | .qualityCompounder => [(.dcf, 0.15), (.enterprise, 0.30), (.earnings, 0.35), (.book, 0.10)]
  | .general => [(.dcf, 0.30), (.enterprise, 0.20), (.earnings, 0.25), (.book, 0.10), (.dividend, 0.05)]

/-- Every method near the centre of the internal ones. -/
def normalizedMethods (profile : Profile) (methods : List (Method × ℚ)) : List (Method × ℚ) :=
  let internal := (methods.filter isInternal).map Prod.snd
  let center := statisticsMedian (if internal = [] then methods.map Prod.snd else internal)
  let bounds : ℚ × ℚ := if profile = .qualityCompounder then (0.35, 2.50) else (0.55, 1.80)
  methods.map fun entry => (entry.1, clamp entry.2 (center * bounds.1) (center * bounds.2))

def methodDispersion (profile : Profile) (methods : List (Method × ℚ)) : ℚ :=
  let internal := (methods.filter isInternal).map Prod.snd
  let center := statisticsMedian (if internal = [] then methods.map Prod.snd else internal)
  let normalized := normalizedMethods profile methods
  let values := (normalized.filter isInternal).map Prod.snd
  let chosen := if values = [] then normalized.map Prod.snd else values
  if 0 < center then (percentile chosen 0.75 - percentile chosen 0.25) / statisticsMedian chosen * 100 else 100

def weightedInternal (profile : Profile) (normalized : List (Method × ℚ)) : ℚ :=
  let internal := normalized.filter isInternal
  let weights := methodWeights profile
  let weight (method : Method) : ℚ := (Dict.find method weights).getD 0
  let available := (internal.map fun entry => weight entry.1).sum
  if available ≤ 0 then (internal.map Prod.snd).sum / internal.length
  else (internal.map fun entry => entry.2 * weight entry.1).sum / available

def consensusWeight (symbol : String) (consensus : Consensus) : ℚ :=
  match truthy consensus.publicConsensusTp with
  | none => 0
  | some _ =>
      if consensus.analystCount ≤ 0 then 0
      else
        let breadth := clamp (consensus.analystCount / 10) 0 1
        let confirmation : ℚ := if 2 ≤ consensus.sourceCount then 0.05 else 0
        let weight := 0.20 + breadth * 0.10 + confirmation
        clamp (if consensus.originSymbol = some symbol then weight else min weight 0.30) 0.20 0.35

def calibrationFactor (factors : List (Option Profile × ℚ)) (profile : Profile) : ℚ :=
  clamp ((Dict.find (some profile) factors).getD ((Dict.find none factors).getD 1)) (1 - 0.05) (1 + 0.05)

def valuationConfidence (row : Row) (methods : List (Method × ℚ)) : ℚ :=
  let agreement := clamp (100 - methodDispersion row.profile methods * 2) 0 100
  let coverage := clamp (methods.length / 5 * 100) 0 100
  let breadth := clamp (row.consensus.analystCount / 10 * 100) 0 100
  clamp (row.completeness * 100 * 0.25 + coverage * 0.20 + agreement * 0.20 + breadth * 0.15 + row.sourceAgreementPercent * 0.15 +
    row.quoteQuality * 0.05) 0 100

end Blend

section Entry

def expectedDividend (row : Company) : ℚ :=
  match truthy row.dividendYield with
  | some dividendYield => if 0 < dividendYield ∧ dividendYield ≤ 0.20 then row.price * dividendYield else 0
  | none => 0

def entryReturnHurdlePercent (context : Macro) : ℚ := (riskFree context + 0.02) * 100

def sustainableGrowth (profile : Profile) (growth : ℚ) : ℚ :=
  match profile with
  | .cyclical => clamp growth (-0.01) 0.04
  | .financial | .utilities | .realEstate => clamp growth 0 0.07
  | .qualityCompounder => clamp growth 0.04 0.10
  | _ => clamp growth (-0.02) 0.09

/-- The price that the chart would enter at, no lower than a quarter's drawdown. -/
def technicalEntry (maths : Maths) (row : Company) : ℚ :=
  let volatility := (truthy row.volatility90d).getD 0.35
  let swing := clamp (volatility * maths.sqrt (10 / 252)) 0.025 0.12
  let raw := median [row.support60d.getD 0, row.median20d.getD 0 * (1 - swing * 0.50), row.low20d.getD 0 * (1 + swing * 0.25)] (row.price * (1 - swing))
  let drawdown := clamp (volatility * maths.sqrt (63 / 252)) 0.10 0.30
  max raw ((truthy row.lastClose).getD row.price * (1 - drawdown))

/-- The entry price of a target: the lower of the return hurdle's and the chart's. -/
def entryFromTp (maths : Maths) (row : Company) (context : Macro) (tp : ℚ) : ℚ :=
  let forward := tp * (1 + sustainableGrowth row.profile (growthOf row))
  let hurdle := (forward + expectedDividend row) / (1 + entryReturnHurdlePercent context / 100)
  min hurdle (technicalEntry maths row)

end Entry

/-- A row valued: by three methods and more, a target and an entry price of the internal methods
and of the blend; by fewer, none. -/
structure Valued where
  methods : List (Method × ℚ)
  internalTp : ℚ
  internalBuyIn : ℚ
  calibrationFactor : ℚ
  consensusWeight : ℚ
  ourTp : ℚ
  buyIn : ℚ
  valuationConfidence : ℚ
  methodDispersion : ℚ
  deriving DecidableEq, Repr

def Valued.internalMethods (valued : Valued) : List (Method × ℚ) := valued.methods.filter isInternal

section Value
variable (maths : Maths) (factors : List (Option Profile × ℚ)) (context : Macro)

def valueRow (medians : Benchmark → Option Metrics) (row : Row) : Option Valued :=
  (benchmark medians row.toCompany).bind fun sector =>
    let methods := methodsOf row context sector
    if methods.length < 3 then none
    else
      let normalized := normalizedMethods row.profile methods
      let factor := calibrationFactor factors row.profile
      let internalTp := weightedInternal row.profile normalized * factor
      let consensus := if 0 < row.consensus.analystCount then truthy row.consensus.publicConsensusTp else none
      let weight := if consensus.isSome then consensusWeight row.symbol row.consensus else 0
      let ourTp := internalTp * (1 - weight) + consensus.getD 0 * weight
      some
        { methods := normalized
          internalTp
          internalBuyIn := entryFromTp maths row.toCompany context internalTp
          calibrationFactor := factor
          consensusWeight := weight
          ourTp
          buyIn := entryFromTp maths row.toCompany context ourTp
          valuationConfidence := valuationConfidence row methods
          methodDispersion := methodDispersion row.profile methods }

def Row.share (row : Row) : ShareClass := { symbol := row.symbol, issuer := row.issuer, price := row.price, answers := row.answers }

/-- The rows with their consensus, the issuers' own targets applied. -/
def reconciled (overrides : String → Option OfficialConsensus) (today : Int) (rows : List Row) (references : List ShareClass) : List Row :=
  List.zipWith (fun row consensus => { row with consensus := applyOfficialConsensus overrides today row.share consensus }) rows
    (reconcileIssuerConsensus (rows.map Row.share) references)

/-- A batch valued: its consensus reconciled, its medians taken, each row valued. -/
def valueBatch (overrides : String → Option OfficialConsensus) (today : Int) (rows : List Row) (references : List ShareClass) : List (Option Valued) :=
  let prepared := reconciled overrides today rows references
  let medians := sectorMedians (prepared.map Row.toCompany)
  prepared.map (valueRow maths factors context medians)

end Value

/-! The internal targets of the Brazilian producer see no consensus. -/

section Methods
variable {context : Macro} {sector : Metrics}

def internalMethodsOf (company : Company) (context : Macro) (sector : Metrics) : List (Method × ℚ) :=
  methodsOf { company with answers := fun _ => ⟨none, none, none⟩ } context sector

theorem methodsOf_eq (row : Row) (context : Macro) (sector : Metrics) : ∃ consensus : Option ℚ,
    methodsOf row context sector = internalMethodsOf row.toCompany context sector ++ (consensus.map fun target => (Method.consensus, target)).toList := by
  refine ⟨if 0 < row.consensus.analystCount then truthy row.consensus.publicConsensusTp else none, ?_⟩
  change methodsOf row context sector = (_ ++ []) ++ _
  rw [List.append_nil]
  unfold methodsOf
  split <;> rfl

theorem bookValues_internal {company : Company} : ∀ entry ∈ bookValues company context sector, isInternal entry = true := by
  intro entry mem
  unfold bookValues at mem
  split at mem
  · cases mem
  · split at mem <;> simp at mem
    · rcases mem with rfl | rfl <;> rfl
    · rcases mem with rfl
      rfl

theorem enterpriseValues_internal {company : Company} : ∀ entry ∈ enterpriseValues company context sector, isInternal entry = true := by
  intro entry mem
  unfold enterpriseValues at mem
  split at mem
  · simp only [List.mem_append, Option.mem_toList, Option.map_eq_some_iff] at mem
    obtain ⟨_, _, rfl⟩ | ⟨_, _, rfl⟩ := mem <;> rfl
  · cases mem

theorem internalMethodsOf_internal {company : Company} : ∀ entry ∈ internalMethodsOf company context sector, isInternal entry = true := by
  intro entry mem
  change entry ∈ _ ++ [] at mem
  rw [List.append_nil] at mem
  simp only [List.mem_append, Option.mem_toList, Option.map_eq_some_iff] at mem
  obtain ((⟨_, _, rfl⟩ | ⟨_, _, rfl⟩) | assets) | ⟨_, _, rfl⟩ := mem
  · rfl
  · rfl
  · split at assets
    · exact bookValues_internal entry assets
    · simp only [List.mem_append, Option.mem_toList, Option.map_eq_some_iff] at assets
      obtain (⟨_, _, rfl⟩ | enterprise) | book := assets
      · rfl
      · exact enterpriseValues_internal entry enterprise
      · exact bookValues_internal entry book
  · rfl

theorem filter_methodsOf (row : Row) : (methodsOf row context sector).filter isInternal = internalMethodsOf row.toCompany context sector := by
  obtain ⟨consensus, methods⟩ := methodsOf_eq row context sector
  rw [methods, List.filter_append, List.filter_eq_self.mpr internalMethodsOf_internal]
  cases consensus <;> simp [isInternal]

theorem internal_ne_nil {row : Row} (three : ¬ (methodsOf row context sector).length < 3) : internalMethodsOf row.toCompany context sector ≠ [] := by
  obtain ⟨consensus, methods⟩ := methodsOf_eq row context sector
  intro none
  rw [methods, none] at three
  cases consensus <;> simp at three

theorem filter_normalizedMethods {profile : Profile} {methods : List (Method × ℚ)} (internal : methods.filter isInternal ≠ []) :
    (normalizedMethods profile methods).filter isInternal = normalizedMethods profile (methods.filter isInternal) := by
  unfold normalizedMethods
  dsimp only
  rw [List.filter_filter, List.filter_map]
  simp only [Bool.and_self, List.map_eq_nil_iff, if_neg internal]
  rfl

end Methods

section Value
variable {maths : Maths} {factors : List (Option Profile × ℚ)} {context : Macro} {medians : Benchmark → Option Metrics}

/-- The internal target of a company, without a consensus. -/
def internalTp (factors : List (Option Profile × ℚ)) (company : Company) (internal : List (Method × ℚ)) : ℚ :=
  weightedInternal company.profile (normalizedMethods company.profile internal) * calibrationFactor factors company.profile

theorem weightedInternal_filter (profile : Profile) (normalized : List (Method × ℚ)) :
    weightedInternal profile (normalized.filter isInternal) = weightedInternal profile normalized := by
  unfold weightedInternal
  rw [List.filter_filter]
  simp only [Bool.and_self]

theorem valueRow_internal {row : Row} {valued : Valued} (done : valueRow maths factors context medians row = some valued) :
    ∃ sector, benchmark medians row.toCompany = some sector ∧
      valued.internalMethods = normalizedMethods row.profile (internalMethodsOf row.toCompany context sector) ∧
      valued.internalTp = internalTp factors row.toCompany (internalMethodsOf row.toCompany context sector) ∧
      valued.internalBuyIn =
        entryFromTp maths row.toCompany context (internalTp factors row.toCompany (internalMethodsOf row.toCompany context sector)) := by
  obtain ⟨sector, benchmarked, done⟩ := Option.bind_eq_some_iff.mp done
  refine ⟨sector, benchmarked, ?_⟩
  dsimp only at done
  split at done
  · cases done
  rename_i three
  cases done
  have methods : (methodsOf row context sector).filter isInternal = internalMethodsOf row.toCompany context sector := filter_methodsOf row
  have internal : (normalizedMethods row.profile (methodsOf row context sector)).filter isInternal =
      normalizedMethods row.profile (internalMethodsOf row.toCompany context sector) := by
    rw [filter_normalizedMethods (methods ▸ internal_ne_nil three), methods]
  have target : weightedInternal row.profile (normalizedMethods row.profile (methodsOf row context sector)) =
      weightedInternal row.profile (normalizedMethods row.profile (internalMethodsOf row.toCompany context sector)) := by
    rw [← weightedInternal_filter, internal]
  refine ⟨internal, ?_, ?_⟩
  · unfold internalTp
    rw [← target]
  · unfold internalTp
    rw [← target]

end Value

section Batch
variable {maths : Maths} {factors : List (Option Profile × ℚ)} {context : Macro}

theorem reconciled_company (overrides : String → Option OfficialConsensus) (today : Int) (rows : List Row) (references : List ShareClass) :
    (reconciled overrides today rows references).map Row.toCompany = rows.map Row.toCompany := by
  have each : ∀ (rows : List Row) (consensus : List Consensus), consensus.length = rows.length →
      (List.zipWith (fun row consensus => { row with consensus := applyOfficialConsensus overrides today row.share consensus }) rows consensus).map
        Row.toCompany = rows.map Row.toCompany := by
    intro rows
    induction rows with
    | nil => intro consensus _; rfl
    | cons row rest ih =>
      intro consensus length
      cases consensus with
      | nil => cases length
      | cons first consensus => simpa using ih consensus (Nat.succ.inj length)
  exact each rows _ (by simp [reconcileIssuerConsensus])

/-- What two runs agree on of a name that both value. -/
def SameInternal (first second : Option Valued) : Prop :=
  ∀ valued other, first = some valued → second = some other →
    valued.internalMethods = other.internalMethods ∧ valued.internalTp = other.internalTp ∧ valued.internalBuyIn = other.internalBuyIn

theorem valueRow_same {medians : Benchmark → Option Metrics} {row other : Row} (same : row.toCompany = other.toCompany) :
    SameInternal (valueRow maths factors context medians row) (valueRow maths factors context medians other) := by
  intro valued valued' done done'
  obtain ⟨sector, benchmarked, methods, target, entry⟩ := valueRow_internal done
  obtain ⟨sector', benchmarked', methods', target', entry'⟩ := valueRow_internal done'
  rw [same] at benchmarked methods target entry
  cases benchmarked.symm.trans benchmarked'
  exact ⟨methods.trans methods'.symm, target.trans target'.symm, entry.trans entry'.symm⟩

theorem valueBatch_same (overrides overrides' : String → Option OfficialConsensus) (today today' : Int) {rows rows' : List Row}
    (references references' : List ShareClass) (same : rows.map Row.toCompany = rows'.map Row.toCompany) :
    List.Forall₂ SameInternal (valueBatch maths factors context overrides today rows references)
      (valueBatch maths factors context overrides' today' rows' references') := by
  have companies := (reconciled_company overrides today rows references).trans
    (same.trans (reconciled_company overrides' today' rows' references').symm)
  have pairs : ∀ (medians : Benchmark → Option Metrics) (rows rows' : List Row), rows.map Row.toCompany = rows'.map Row.toCompany →
      List.Forall₂ SameInternal (rows.map (valueRow maths factors context medians)) (rows'.map (valueRow maths factors context medians)) := by
    intro medians rows
    induction rows with
    | nil =>
      intro rows' same
      cases rows' with
      | nil => exact .nil
      | cons => cases same
    | cons row rest ih =>
      intro rows' same
      cases rows' with
      | nil => cases same
      | cons other rest' =>
        rw [List.map_cons, List.map_cons, List.cons.injEq] at same
        exact .cons (valueRow_same same.1) (ih rest' same.2)
  unfold valueBatch
  dsimp only
  rw [companies]
  exact pairs _ _ _ companies

end Batch

end C3po.Producers.B3
