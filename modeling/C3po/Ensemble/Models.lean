import Mathlib.Data.String.Basic
import C3po.Ensemble.Aggregation
import C3po.Library.Dict
import C3po.Library.StableSort

/-! The inputs of an ensemble's models: a company's official facts, its price and the premises.

An instant is of UTC, none where it has no zone, and a number is none where it is none or
is not finite. A reason is the text of its error.
-/

set_option autoImplicit false

namespace C3po.Ensemble
open C3po.Library

/-- What the standard library and the zones make of a value. -/
structure Environment where
  log : ℚ → ℚ
  exp : ℚ → ℚ
  strip : String → String
  /-- The day of an instant in a zone. -/
  localDate : String → Int → Int

abbrev Evaluated := Except String

def utc (instant : Option Int) : Evaluated Int :=
  match instant with
  | none => .error "instant_without_timezone"
  | some instant => .ok instant

def numberOf (value : Option ℚ) (name : String) : Evaluated ℚ :=
  match value with
  | none => .error ("invalid_number:" ++ name)
  | some value => .ok value

structure Evidence where
  source : String
  documentId : String
  availableAt : Option Int
  payloadSha256 : String
  deriving DecidableEq, Repr

structure OfficialFact where
  value : Option ℚ
  unit : String
  /-- None where it is not a plain date. -/
  periodEnd : Option Int
  evidence : Evidence
  deriving DecidableEq, Repr

structure Price where
  value : Option ℚ
  currency : String
  sessionDate : Option Int
  basisId : String
  evidence : Evidence
  deriving DecidableEq, Repr

structure CompanyInputs where
  symbol : String
  market : String
  currency : String
  asOf : Option Int
  basisId : String
  price : Price
  facts : Dict String OfficialFact
  sector : String
  sectorEvidence : Option Evidence
  /-- None while it is not attested. -/
  financialCompany : Option Bool
  issuerId : String
  deriving DecidableEq

structure Premises where
  policyId : String
  scalars : Dict String (Option ℚ)
  annualGrowthPath : List (Option ℚ)
  minimumPeers : ℕ
  deriving DecidableEq

def isSha256 (text : String) : Bool :=
  text.toList.length = 64 ∧ text.toList.all fun letter => letter ∈ "0123456789abcdef".toList

section Facts
variable (env : Environment)

def Evidence.check (evidence : Evidence) (asOf : Option Int) (allowed : List String) : Evaluated Unit := do
  if evidence.source ∉ allowed then throw ("source_not_allowed:" ++ evidence.source)
  if env.strip evidence.documentId = "" ∨ ¬isSha256 evidence.payloadSha256 then throw "missing_document_or_hash"
  let available ← utc evidence.availableAt
  let cut ← utc asOf
  if cut < available then throw "available_after_T"

def officialSources (market : String) : List String := if market ≠ "B3" then ["SEC"] else ["CVM"]

namespace CompanyInputs

def economicDate (company : CompanyInputs) : Evaluated Int := do
  let cut ← utc company.asOf
  return env.localDate (if company.market = "B3" then "America/Sao_Paulo" else "America/New_York") cut

/-- No day, or one after the company's. -/
def isAfter (day : Option Int) (today : Int) : Bool := day.elim true fun day => today < day

def validate (company : CompanyInputs) : Evaluated Unit := do
  let cut ← utc company.asOf
  if company.market ∉ ["NASDAQ", "NYSE", "B3"] ∨
      [company.symbol, company.basisId, company.issuerId].any (fun text => env.strip text = "") then
    throw "invalid_company_identity"
  if company.currency ≠ (if company.market = "B3" then "BRL" else "USD") then throw "market_currency_mismatch"
  company.price.evidence.check env (some cut) ["PRICE"]
  if company.price.currency ≠ company.currency ∨ company.price.basisId ≠ company.basisId then
    throw "price_currency_or_share_basis_mismatch"
  let today ← company.economicDate env
  if isAfter company.price.sessionDate today then throw "invalid_or_future_price"
  let price ← numberOf company.price.value "price"
  if price ≤ 0 then throw "invalid_or_future_price"

/-- A fact's value, once its evidence, unit and period are accepted. -/
def accepted (company : CompanyInputs) (fact : OfficialFact) (name : String) (positive nonnegative : Bool) : Evaluated ℚ := do
  fact.evidence.check env company.asOf (officialSources company.market)
  if fact.unit ≠ (if name = "shares" then "shares" else company.currency) then throw "unit_mismatch"
  let today ← company.economicDate env
  if isAfter fact.periodEnd today then throw "period_after_T"
  let value ← numberOf fact.value name
  if positive ∧ value ≤ 0 then throw "not_positive"
  if nonnegative ∧ value < 0 then throw "negative"
  return value

def get (company : CompanyInputs) (name : String) (positive nonnegative : Bool) : Evaluated ℚ :=
  match company.facts.get? name with
  | none => .error ("missing_fact:" ++ name)
  | some fact => match company.accepted env fact name positive nonnegative with
      | .error reason => .error (name ++ ":" ++ reason)
      | .ok value => .ok value

def any (company : CompanyInputs) (name : String) : Evaluated ℚ := company.get env name false false
def positive (company : CompanyInputs) (name : String) : Evaluated ℚ := company.get env name true false
def nonnegative (company : CompanyInputs) (name : String) : Evaluated ℚ := company.get env name false true

def sectorAtT (company : CompanyInputs) : Evaluated String :=
  match company.sectorEvidence with
  | none => .error "sector_unattested"
  | some evidence =>
      if company.sector = "" then .error "sector_unattested"
      else match evidence.check env company.asOf (officialSources company.market) with
        | .error reason => .error reason
        | .ok _ => .ok company.sector

end CompanyInputs

namespace Premises

def get (premises : Premises) (name : String) : Evaluated ℚ :=
  if env.strip premises.policyId = "" then .error "premise_policy_missing"
  else match premises.scalars.get? name with
    | none => .error ("missing_premise:" ++ name)
    | some value => numberOf value name

def positive (premises : Premises) (name : String) : Evaluated ℚ := do
  let value ← premises.get env name
  if value ≤ 0 then throw ("premise_not_positive:" ++ name)
  return value

/-- Whether a receipt can be made of the premises; what is in it nothing here reads. -/
def receipt (premises : Premises) : Evaluated Unit := do
  if env.strip premises.policyId = "" then throw "premise_policy_missing"
  if premises.minimumPeers < 3 then throw "minimum_peers_below_three"
  (stableSort Prod.fst premises.scalars.entries).forM fun scalar => (numberOf scalar.2 scalar.1).map fun _ => ()
  let growth ← premises.annualGrowthPath.mapM fun growth => numberOf growth "growth"
  if growth.any fun growth => growth ≤ -1 then throw "growth_not_above_minus_one"

end Premises
end Facts

/-! The sixteen models of an ensemble: what each makes of a company, the premises and its peers.

Arithmetic is exact; the logarithm and the exponential are of the environment.
-/

inductive Model where
  | dcfFcff
  | dcfFcfe
  | ddmGordon
  | ddmMultistage
  | residualIncome
  | earningsPower
  | capitalizedOperatingCashFlow
  | pe
  | evEbitda
  | evEbit
  | evSales
  | priceBook
  | priceOperatingCashFlow
  | sectorRegression
  | ncav
  | tangibleBook
  deriving DecidableEq, Repr

namespace Model

def text : Model → String
  | dcfFcff => "dcf_fcff"
  | dcfFcfe => "dcf_fcfe"
  | ddmGordon => "ddm_gordon"
  | ddmMultistage => "ddm_multistage"
  | residualIncome => "residual_income"
  | earningsPower => "earnings_power"
  | capitalizedOperatingCashFlow => "capitalized_operating_cash_flow"
  | pe => "pe"
  | evEbitda => "ev_ebitda"
  | evEbit => "ev_ebit"
  | evSales => "ev_sales"
  | priceBook => "price_book"
  | priceOperatingCashFlow => "price_operating_cash_flow"
  | sectorRegression => "sector_regression"
  | ncav => "ncav"
  | tangibleBook => "tangible_book"

/-- In the order of their values. -/
def ids : List Model :=
  [dcfFcff, dcfFcfe, ddmGordon, ddmMultistage, residualIncome, earningsPower, capitalizedOperatingCashFlow, pe, evEbitda,
    evEbit, evSales, priceBook, priceOperatingCashFlow, sectorRegression, ncav, tangibleBook]

def ofPeers : Model → Bool
  | pe | evEbitda | evEbit | evSales | priceBook | priceOperatingCashFlow | sectorRegression => true
  | _ => false

/-- The multiples whose name begins with `ev_`. -/
def isEnterpriseMultiple : Model → Bool
  | evEbitda | evEbit | evSales => true
  | _ => false

end Model

section Kernels
variable (env : Environment)

def tax (premises : Premises) : Evaluated ℚ := do
  let tax ← premises.get env "tax_rate"
  if ¬(0 ≤ tax ∧ tax ≤ 1) then throw "tax_rate_out_of_range"
  return tax

def netDebt (company : CompanyInputs) : Evaluated ℚ := do
  return (← company.nonnegative env "debt") - (← company.nonnegative env "cash")

def enterpriseAllowed (company : CompanyInputs) : Evaluated Unit :=
  match company.financialCompany with
  | none => .error "financial_classification_unattested"
  | some true => .error "enterprise_model_not_applicable_to_financial_company"
  | some false => .ok ()

/-- The cash flow of a year and what all of them are worth, after one more year of growth. -/
def discountYear (rate : ℚ) (state : ℚ × ℚ) (year : Option ℚ × ℕ) : Evaluated (ℚ × ℚ) := do
  let growth ← numberOf year.1 "growth"
  if growth ≤ -1 then throw "growth_not_above_minus_one"
  let current := state.1 * (1 + growth)
  return (current, state.2 + current / (1 + rate) ^ year.2)

def discount (cashFlow rate : ℚ) (premises : Premises) (multistage : Bool) : Evaluated ℚ := do
  let growth ← premises.get env "terminal_growth"
  if growth ≤ -1 ∨ rate ≤ growth ∨ rate ≤ 0 then throw "discount_rate_not_above_terminal_growth"
  let path := if multistage then premises.annualGrowthPath else []
  if multistage ∧ path = [] then throw "missing_explicit_growth_path"
  let (current, present) ← (path.zipIdx 1).foldlM (discountYear rate) (cashFlow, 0)
  let terminal := current * (1 + growth) / (rate - growth)
  return present + terminal / (1 + rate) ^ path.length

def fcff (company : CompanyInputs) (premises : Premises) : Evaluated ℚ := do
  enterpriseAllowed company
  let cash := (← company.any env "operating_income_ttm") * (1 - (← tax env premises)) +
    (← company.nonnegative env "d_and_a_ttm") - (← company.nonnegative env "capex_ttm") -
    (← company.any env "change_working_capital_ttm")
  let value ← discount env cash (← premises.positive env "wacc") premises true
  return (value - (← netDebt env company)) / (← company.positive env "shares")

def fcfe (company : CompanyInputs) (premises : Premises) : Evaluated ℚ := do
  let cash := (← company.any env "operating_cash_flow_ttm") - (← company.nonnegative env "capex_ttm") +
    (← company.any env "net_borrowing_ttm")
  let value ← discount env cash (← premises.positive env "cost_of_equity") premises true
  return value / (← company.positive env "shares")

def ddm (company : CompanyInputs) (premises : Premises) (multistage : Bool) : Evaluated ℚ := do
  let dividends := (← company.positive env "dividends_ttm") / (← company.positive env "shares")
  discount env dividends (← premises.positive env "cost_of_equity") premises multistage

def residualIncome (company : CompanyInputs) (premises : Premises) : Evaluated ℚ := do
  let beginning ← company.positive env "book_equity_beginning"
  let ke ← premises.positive env "cost_of_equity"
  let residual := (← company.any env "net_income_ttm") - ke * beginning
  let value ← discount env residual ke premises false
  return (beginning + value) / (← company.positive env "shares")

def earningsPower (company : CompanyInputs) (premises : Premises) : Evaluated ℚ := do
  enterpriseAllowed company
  let sustainable := (← company.any env "normalized_operating_income") * (1 - (← tax env premises)) +
    (← company.nonnegative env "d_and_a_ttm") - (← company.nonnegative env "maintenance_capex")
  let enterprise := sustainable / (← premises.positive env "wacc")
  return (enterprise - (← netDebt env company)) / (← company.positive env "shares")

def capitalizedOcf (company : CompanyInputs) (premises : Premises) : Evaluated ℚ := do
  return (← company.positive env "operating_cash_flow_ttm") / (← premises.positive env "cost_of_equity") /
    (← company.positive env "shares")

def ncav (company : CompanyInputs) : Evaluated ℚ := do
  return ((← company.nonnegative env "current_assets") - (← company.nonnegative env "total_liabilities")) /
    (← company.positive env "shares")

def tangibleBook (company : CompanyInputs) : Evaluated ℚ := do
  return ((← company.any env "book_equity") - (← company.nonnegative env "goodwill") -
    (← company.nonnegative env "intangible_assets_excluding_goodwill")) / (← company.positive env "shares")

end Kernels

section Multiples
variable (env : Environment)

def denominatorOf (company : CompanyInputs) (model : Model) : Evaluated ℚ :=
  match model with
  | .pe => company.positive env "net_income_ttm"
  | .priceBook => company.positive env "book_equity"
  | .priceOperatingCashFlow => company.positive env "operating_cash_flow_ttm"
  | .evSales | .sectorRegression => company.positive env "revenue_ttm"
  | .evEbitda => do
      let denominator := (← company.any env "operating_income_ttm") + (← company.nonnegative env "d_and_a_ttm")
      if denominator ≤ 0 then throw "ebitda_not_positive"
      return denominator
  | _ => company.positive env "operating_income_ttm"

def ofEquity : Model → Bool
  | .pe | .priceBook | .priceOperatingCashFlow => true
  | _ => false

/-- A market value, of the equity or of the enterprise, and the denominator of the same basis. -/
def metric (company : CompanyInputs) (model : Model) : Evaluated (ℚ × ℚ) := do
  let equity := company.price.value.getD 0 * (← company.positive env "shares")
  if ofEquity model then return (equity, ← denominatorOf env company model)
  enterpriseAllowed company
  let enterprise := equity + (← netDebt env company)
  if enterprise ≤ 0 then throw "enterprise_value_not_positive"
  return (enterprise, ← denominatorOf env company model)

def duplicate : String := "duplicate_peer_identity"

def attempt (company : CompanyInputs) (sector : String) (selected : Dict String CompanyInputs) (peer : CompanyInputs) :
    Evaluated (Dict String CompanyInputs) := do
  peer.validate env
  if peer.currency ≠ company.currency then return selected
  let instant ← utc peer.asOf
  let cut ← utc company.asOf
  if instant ≠ cut then return selected
  let own ← peer.sectorAtT env
  if own ≠ sector then return selected
  if peer.financialCompany ≠ company.financialCompany then return selected
  if selected.contains peer.issuerId then throw duplicate
  return selected.insert peer.issuerId peer

/-- A peer that is refused is skipped, unless it is another of its issuer. -/
def consider (company : CompanyInputs) (sector : String) (selected : Dict String CompanyInputs) (peer : CompanyInputs) :
    Evaluated (Dict String CompanyInputs) :=
  if peer.issuerId = company.issuerId then .ok selected
  else match attempt env company sector selected peer with
    | .ok selected => .ok selected
    | .error reason => if reason = duplicate then .error reason else .ok selected

def peersOf (company : CompanyInputs) (peers : List CompanyInputs) (premises : Premises) : Evaluated (List CompanyInputs) := do
  let sector ← company.sectorAtT env
  let selected ← peers.foldlM (consider env company sector) Dict.empty
  if selected.size < premises.minimumPeers then throw "eligible_sector_peers_below_minimum"
  return (stableSort Prod.fst selected.entries).map Prod.snd

/-- What the peers come to, of those that come to anything. -/
def ofEach {A : Type} (peers : List CompanyInputs) (call : CompanyInputs → Evaluated A) : List A :=
  peers.filterMap fun peer => (call peer).toOption

def multiple (company : CompanyInputs) (premises : Premises) (peers : List CompanyInputs) (model : Model) : Evaluated ℚ := do
  let (_, denominator) ← metric env company model
  let ratios := ofEach (← peersOf env company peers premises) fun peer =>
    (metric env peer model).map fun (value, metric) => value / metric
  if ratios.length < premises.minimumPeers then throw "eligible_multiple_peers_below_minimum"
  let fair := medianOf (ratios.insertionSort (· ≤ ·)) * denominator
  let fair ← if model.isEnterpriseMultiple then do return fair - (← netDebt env company) else pure fair
  return fair / (← company.positive env "shares")

/-- A peer's margin, and the logarithm of its enterprise value to its sales. -/
def regressed (peer : CompanyInputs) : Evaluated (ℚ × ℚ) := do
  let (ev, revenue) ← metric env peer .sectorRegression
  return ((← peer.any env "operating_income_ttm") / revenue, env.log (ev / revenue))

def sectorRegression (company : CompanyInputs) (premises : Premises) (peers : List CompanyInputs) : Evaluated ℚ := do
  let (_, sales) ← metric env company .sectorRegression
  let targetMargin := (← company.any env "operating_income_ttm") / sales
  let pairs := ofEach (← peersOf env company peers premises) (regressed env)
  if pairs.length < max 3 premises.minimumPeers then throw "eligible_regression_peers_below_minimum"
  let xs := pairs.map Prod.fst
  let xbar := xs.sum / xs.length
  let ybar := (pairs.map Prod.snd).sum / pairs.length
  let denominator := (xs.map fun x => (x - xbar) ^ 2).sum
  if denominator ≤ 1 / 10 ^ 20 then throw "sector_regression_singular"
  if ¬(xs.min?.any (· ≤ targetMargin) ∧ xs.max?.any (targetMargin ≤ ·)) then throw "sector_regression_extrapolation"
  let slope := (pairs.map fun pair => (pair.1 - xbar) * (pair.2 - ybar)).sum / denominator
  let predicted := env.exp (ybar + slope * (targetMargin - xbar))
  return (predicted * sales - (← netDebt env company)) / (← company.positive env "shares")

end Multiples

section Evaluation
variable (env : Environment)

def kernel (company : CompanyInputs) (premises : Premises) (peers : List CompanyInputs) : Model → Evaluated ℚ
  | .dcfFcff => fcff env company premises
  | .dcfFcfe => fcfe env company premises
  | .ddmGordon => ddm env company premises false
  | .ddmMultistage => ddm env company premises true
  | .residualIncome => residualIncome env company premises
  | .earningsPower => earningsPower env company premises
  | .capitalizedOperatingCashFlow => capitalizedOcf env company premises
  | .sectorRegression => sectorRegression env company premises peers
  | .ncav => ncav env company
  | .tangibleBook => tangibleBook env company
  | model => multiple env company premises peers model

def modelValue (model : Model) (value : Evaluated ℚ) : ModelValue :=
  match value with
  | .error reason => ⟨model.text, none, .notEvaluable, some reason⟩
  | .ok value =>
      if value ≤ 0 then ⟨model.text, none, .notEvaluable, some "model_value_not_positive"⟩
      else ⟨model.text, some value, .evaluated, none⟩

def evaluateModels (company : CompanyInputs) (premises : Premises) (peers : List CompanyInputs) : Evaluated (List ModelValue) := do
  company.validate env
  premises.receipt env
  return Model.ids.map fun model => modelValue model (kernel env company premises peers model)

end Evaluation
end C3po.Ensemble
