import Mathlib.Algebra.Order.Ring.Rat
import C3po.Library.Calendar
import C3po.Library.Dict
import C3po.Library.StableSort

/-! Official rows over the provider's, field by field, and where each served figure comes from.

Of a dictionary what is there is kept under its key; a value that is no number is there without
one. A row without a valid date is in no statement.
-/

set_option autoImplicit false

namespace C3po.Overlays.Fieldwise

open Library Library.Calendar

abbrev Day := ℤ

/-- A value that is there: its number, if it is one. -/
abbrev Cell := Option ℚ

abbrev Cells := String → Option Cell

def number (cells : Cells) (column : String) : Option ℚ := (cells column).join

def nothing : Cells := fun _ => none

structure QuarterRow where
  date : Option Day
  cells : Cells

abbrev Dated := Day × Cells

structure Fundamentals where
  financialsAsOf : Option Day
  updatedAt : Option Day
  quarterlyIncome : List QuarterRow
  quarterlyCashFlow : List QuarterRow
  quarterlyBalance : List QuarterRow
  annualCashFlow : List QuarterRow
  /-- `Financials.Cash_Flow.yearly`. -/
  yearlyCashFlow : List QuarterRow
  figures : Cells

structure OfficialOverlay where
  asOf : Option Day
  sourceName : Option String
  sourceUrl : Option String
  quarterlyIncome : List QuarterRow
  quarterlyCashFlow : List QuarterRow
  quarterlyBalance : List QuarterRow
  sharesOutstanding : Option Cell

section Rows

def dated (rows : List QuarterRow) : List Dated := rows.filterMap fun row => row.date.map (·, row.cells)

/-- What a row says over what is there. -/
def overwrite (current row : Cells) : Cells := fun key => (row key).or (current key)

def mergeRowsFieldwise (base official : List QuarterRow) : List Dated :=
  stableSort (fun row => -row.1) ((dated base ++ dated official).foldl (fun merged row =>
    merged.insert row.1 (overwrite ((merged.get? row.1).getD nothing) row.2)) Dict.empty).entries

def monthIndex (day : Day) : ℤ := (civil day).1 * 12 + (civil day).2.1

/-- The four newest rows' days, if they are consecutive quarters. -/
def ttmWindow (rows : List Dated) : Option (List Day) :=
  match rows.take 4 with
  | [first, second, third, fourth] =>
      if monthIndex first.1 - monthIndex second.1 = 3 ∧ monthIndex second.1 - monthIndex third.1 = 3 ∧
          monthIndex third.1 - monthIndex fourth.1 = 3 then some [first.1, second.1, third.1, fourth.1] else none
  | _ => none

def completeTtm (rows : List Dated) (field : String) (magnitude : Bool) : Option ℚ :=
  if (ttmWindow rows).isNone then none
  else
    let clean := (rows.take 4).filterMap fun row => number row.2 field
    if clean.length < 4 then none else some (if magnitude then (clean.map abs).sum else clean.sum)

/-- The size rises inside each year and drops back at the first quarter of the next. -/
def looksCumulative (window : List Dated) (column : String) : Bool :=
  let points := stableSort Prod.fst (window.map fun row => (row.1, number row.2 column))
  let steps := points.zip points.tail
  let sizes := steps.filterMap fun step => match step.1.2, step.2.2 with
    | some first, some second => some (decide ((civil step.1.1).1 = (civil step.2.1).1), |first|, |second|)
    | _, _ => none
  let rises := sizes.filter fun step => step.1
  let resets := sizes.filter fun step => !step.1
  sizes.length = steps.length && !rises.isEmpty && rises.all (fun step => step.2.1 < step.2.2) && resets.all fun step => step.2.2 < step.2.1

end Rows

section Provider
variable (fundamentals : Fundamentals)

def providerAnnualCashFlow (column : String) (year : ℤ) : Option ℚ :=
  ((fundamentals.annualCashFlow ++ fundamentals.yearlyCashFlow).find? fun row =>
    row.date.any fun day => (civil day).1 = year && (civil day).2.1 = 12).bind fun row => number row.cells column

inductive GuardStatus where
  | complete
  | incomplete
  | cumulative
  | annualMissing
  | annualMismatch
  deriving DecidableEq

/-- `CASH_FLOW_GUARD_STATUSES`. -/
def GuardStatus.untrusted : GuardStatus → Bool
  | .cumulative | .annualMissing | .annualMismatch => true
  | .complete | .incomplete => false

def annualAgreement : ℚ := 1 / 20

def providerCashFlowTtm (column : String) : Option ℚ × GuardStatus :=
  let rows := mergeRowsFieldwise fundamentals.quarterlyCashFlow []
  match completeTtm rows column false with
  | none => (none, if 3 ≤ rows.length ∧ looksCumulative (rows.take 4) column then .cumulative else .incomplete)
  | some value =>
      if looksCumulative (rows.take 4) column then (none, .cumulative)
      else if rows.head?.any fun newest => (civil newest.1).2.1 = 12 then
        match rows.head?.bind fun newest => providerAnnualCashFlow fundamentals column (civil newest.1).1 with
        | none => (none, .annualMissing)
        | some annual => if |value - annual| > annualAgreement * |annual| then (none, .annualMismatch) else (some value, .complete)
      else (some value, .complete)

end Provider

inductive Source where
  | official
  | provider
  | mixed
  | absent
  deriving DecidableEq

inductive CashFlowKey where
  | operatingCashflow
  | freeCashflow
  deriving DecidableEq

def CashFlowKey.name : CashFlowKey → String
  | .operatingCashflow => "operatingCashflow"
  | .freeCashflow => "freeCashflow"

def CashFlowKey.column : CashFlowKey → String
  | .operatingCashflow => "totalCashFromOperatingActivities"
  | .freeCashflow => "freeCashFlow"

section Overlaid
variable (fundamentals : Fundamentals) (overlay : Option OfficialOverlay)

/-- `_applied_period`. -/
def appliedPeriod : Option Day :=
  overlay.bind fun overlay => overlay.asOf.filter fun official => fundamentals.financialsAsOf.all (· ≤ official)

def officialAt (rows : List QuarterRow) (period : Day) : Cells :=
  (((dated rows).reverse.find? fun row => row.1 = period).map Prod.snd).getD nothing

def carried (merged : List Dated) (official : List QuarterRow) (column : String) : ℕ :=
  ((merged.take 4).filter fun row => (officialAt official row.1 column).isSome).length

def sourceOf (count : ℕ) : Source := if count = 4 then .official else if count = 0 then .provider else .mixed

def applying : Option OfficialOverlay := overlay.filter fun _ => (appliedPeriod fundamentals overlay).isSome

/-- The provider's trailing year, where no window serves. -/
def providerCashFlow (column : String) : Option ℚ × Source × Option GuardStatus :=
  match providerCashFlowTtm fundamentals column with
  | (some value, _) => (some value, .provider, none)
  | (none, status) => (none, .absent, if status.untrusted then some status else none)

/-- `resolve_cash_flow`: the figure served, where it comes from and the guard that dropped it. -/
def resolveCashFlow (key : CashFlowKey) : Option ℚ × Source × Option GuardStatus :=
  match applying fundamentals overlay with
  | none => providerCashFlow fundamentals key.column
  | some overlay =>
      let merged := mergeRowsFieldwise fundamentals.quarterlyCashFlow overlay.quarterlyCashFlow
      match completeTtm merged key.column false with
      | none => providerCashFlow fundamentals key.column
      | some value =>
          let count := carried merged overlay.quarterlyCashFlow key.column
          let status := (providerCashFlowTtm fundamentals key.column).2
          if count = 4 then (some value, .official, none)
          else if status.untrusted then (none, .absent, some status)
          else (some value, sourceOf count, none)

def sharesScaleLimit : ℚ := 100

/-- The official share count, unless it is of another scale than the provider's. -/
def officialShares (overlay : OfficialOverlay) : Option ℚ :=
  let official := overlay.sharesOutstanding.join.filter (· ≠ 0)
  let provider := (number fundamentals.figures "sharesOutstanding").filter (· ≠ 0)
  official.filter fun official => provider.all fun provider =>
    1 / sharesScaleLimit < official / provider && official / provider < sharesScaleLimit

/-- `a or b`. -/
def orElse (first second : Option ℚ) : Option ℚ := (first.filter (· ≠ 0)).or second

def setIfNumber (key : String) (value : Option ℚ) (figures : Cells) : Cells :=
  match value with
  | none => figures
  | some value => Function.update figures key (some (some value))

def replace (key : String) (value : Option ℚ) (figures : Cells) : Cells := Function.update figures key (value.map some)

/-- `_yoy_growth`, which fails on a day the year before does not have. -/
def yoyGrowth (rows : List Dated) (field : String) : Option (Option ℚ) :=
  match rows with
  | [] => some none
  | latest :: _ =>
      match number latest.2 field with
      | none => some none
      | some value =>
          let (year, month, date) := civil latest.1
          if (month = 2 ∧ date = 29) ∨ year = 1 then none
          else
            let prior := (rows.find? fun row => row.1 = ofCivil (year - 1) month date).bind fun row => number row.2 field
            some ((prior.filter (· ≠ 0)).map fun prior => value / prior - 1)

/-- What an applied overlay says of itself. -/
structure OfficialFundamentals where
  asOf : Day
  sourceName : Option String
  sourceUrl : Option String
  ttmQuarters : Option (List Day)

structure Served where
  financialsAsOf : Option Day
  updatedAt : Option Day
  quarterlyIncome : List QuarterRow
  quarterlyCashFlow : List QuarterRow
  quarterlyBalance : List QuarterRow
  figures : Cells
  officialFundamentals : Option OfficialFundamentals
  capexTtm : Option ℚ

def rowsOf (rows : List Dated) : List QuarterRow := rows.map fun row => ⟨some row.1, row.2⟩

def positive (value : Option ℚ) : Option ℚ := value.filter (0 < ·)

def ratio (numerator denominator : Option ℚ) : Option ℚ := denominator.bind fun denominator => numerator.map (· / denominator)

def ratios (revenue netIncome ebitda operatingIncome totalCash totalDebt totalEquity shares marketCap : Option ℚ) (figures : Cells) : Cells :=
  let capitalised := marketCap.filter (· ≠ 0)
  let enterpriseValue := capitalised.map fun marketCap => marketCap + totalDebt.getD 0 - totalCash.getD 0
  figures |> setIfNumber "profitMargins" (ratio netIncome (positive revenue))
    |> setIfNumber "operatingMargins" (ratio operatingIncome (positive revenue))
    |> setIfNumber "ebitdaMargins" (ratio ebitda (positive revenue))
    |> setIfNumber "returnOnEquity" (ratio netIncome (positive totalEquity))
    |> setIfNumber "debtToEquity" (ratio totalDebt (positive totalEquity))
    |> setIfNumber "trailingEps" (ratio netIncome (positive shares))
    |> setIfNumber "bookValue" (ratio totalEquity (positive shares))
    |> setIfNumber "trailingPE" (ratio capitalised (positive netIncome))
    |> setIfNumber "priceToBook" (ratio capitalised (positive totalEquity))
    |> setIfNumber "enterpriseToEbitda" (ratio enterpriseValue (positive ebitda))

/-- `apply_official_statements` of an overlay that applies. -/
def overlaid (overlay : OfficialOverlay) (period : Day) : Option Served :=
  let income := mergeRowsFieldwise fundamentals.quarterlyIncome overlay.quarterlyIncome
  let cashFlow := mergeRowsFieldwise fundamentals.quarterlyCashFlow overlay.quarterlyCashFlow
  let balance := mergeRowsFieldwise fundamentals.quarterlyBalance overlay.quarterlyBalance
  let latest := (balance.head?.map Prod.snd).getD nothing
  let revenue := completeTtm income "totalRevenue" false
  let netIncome := completeTtm income "netIncome" false
  let ebitda := completeTtm income "ebitda" false
  let operatingIncome := completeTtm income "operatingIncome" false
  let totalCash := number latest "cashAndShortTermInvestments"
  let totalDebt := number latest "shortLongTermDebtTotal"
  let totalEquity := orElse (number latest "totalStockholderEquity") (number latest "totalEquity")
  let shares := orElse (officialShares fundamentals overlay) (number fundamentals.figures "sharesOutstanding")
  let cash := fun key => (resolveCashFlow fundamentals (some overlay) key).1
  do
    let revenueGrowth ← yoyGrowth income "totalRevenue"
    let earningsGrowth ← yoyGrowth income "netIncome"
    some
      { financialsAsOf := some period
        updatedAt := some (fundamentals.updatedAt.elim period (max period))
        quarterlyIncome := rowsOf income
        quarterlyCashFlow := rowsOf cashFlow
        quarterlyBalance := rowsOf balance
        figures := fundamentals.figures |> setIfNumber "totalRevenue" revenue |> setIfNumber "ebitda" ebitda
          |> replace "operatingCashflow" (cash .operatingCashflow) |> replace "freeCashflow" (cash .freeCashflow)
          |> setIfNumber "totalCash" totalCash |> setIfNumber "totalDebt" totalDebt |> setIfNumber "totalEquity" totalEquity
          |> setIfNumber "sharesOutstanding" shares
          |> ratios revenue netIncome ebitda operatingIncome totalCash totalDebt totalEquity shares (number fundamentals.figures "marketCap")
          |> setIfNumber "revenueGrowthAnnual" revenueGrowth |> setIfNumber "earningsGrowthAnnual" earningsGrowth
        officialFundamentals := some ⟨period, overlay.sourceName, overlay.sourceUrl, ttmWindow income⟩
        capexTtm := completeTtm cashFlow "capitalExpenditures" true }

/-- `apply_official_statements`; without an overlay that applies the provider stays, but never its
quarter of a cash flow as a year. -/
def applyOfficialStatements : Option Served :=
  match appliedPeriod fundamentals overlay, overlay with
  | some period, some overlay => overlaid fundamentals overlay period
  | _, _ => some
      { financialsAsOf := fundamentals.financialsAsOf
        updatedAt := fundamentals.updatedAt
        quarterlyIncome := fundamentals.quarterlyIncome
        quarterlyCashFlow := fundamentals.quarterlyCashFlow
        quarterlyBalance := fundamentals.quarterlyBalance
        figures := fundamentals.figures |> replace "operatingCashflow" (providerCashFlowTtm fundamentals CashFlowKey.operatingCashflow.column).1
          |> replace "freeCashflow" (providerCashFlowTtm fundamentals CashFlowKey.freeCashflow.column).1
        officialFundamentals := none
        capexTtm := none }

end Overlaid

section Report

/-- `SOURCE_FIELDS`. -/
inductive SourceField where
  | totalRevenue
  | netIncome
  | ebitda
  | operatingCashflow
  | freeCashflow
  | capexTtm
  | totalCash
  | totalDebt
  | totalEquity
  | sharesOutstanding
  deriving DecidableEq

def SourceField.name : SourceField → String
  | .totalRevenue => "totalRevenue"
  | .netIncome => "netIncome"
  | .ebitda => "ebitda"
  | .operatingCashflow => "operatingCashflow"
  | .freeCashflow => "freeCashflow"
  | .capexTtm => "capexTtm"
  | .totalCash => "totalCash"
  | .totalDebt => "totalDebt"
  | .totalEquity => "totalEquity"
  | .sharesOutstanding => "sharesOutstanding"

variable (fundamentals : Fundamentals) (overlay : Option OfficialOverlay)

/-- The provider's own, if it has one. -/
def fallback (field : SourceField) : Source :=
  let provided := match field with
    | .capexTtm => false
    | .netIncome => fundamentals.quarterlyIncome.any fun row => (number row.cells "netIncome").isSome
    | field => (number fundamentals.figures field.name).isSome
  if provided then .provider else .absent

def ttmSource (base official : List QuarterRow) (column : String) (magnitude : Bool) (field : SourceField) : Source :=
  let merged := mergeRowsFieldwise base official
  if (completeTtm merged column magnitude).isNone then fallback fundamentals field else sourceOf (carried merged official column)

/-- The source of a balance figure: the first column with a number other than zero, else the last. -/
def balanceSource (base official : List QuarterRow) (columns : List String) (field : SourceField) : Source :=
  let latest := (mergeRowsFieldwise base official).head?
  let cells := (latest.map Prod.snd).getD nothing
  let chosen := (columns.find? fun column => ((number cells column).filter (· ≠ 0)).isSome).getD (columns.getLastD "")
  if (number cells chosen).isNone then fallback fundamentals field
  else if latest.any fun row => (officialAt official row.1 chosen).isSome then .official else .provider

/-- `fieldwise_sources`. -/
def fieldwiseSources (field : SourceField) : Source :=
  match field, applying fundamentals overlay with
  | .operatingCashflow, _ => (resolveCashFlow fundamentals overlay .operatingCashflow).2.1
  | .freeCashflow, _ => (resolveCashFlow fundamentals overlay .freeCashflow).2.1
  | field, none => fallback fundamentals field
  | .totalRevenue, some overlay =>
      ttmSource fundamentals fundamentals.quarterlyIncome overlay.quarterlyIncome "totalRevenue" false .totalRevenue
  | .netIncome, some overlay => ttmSource fundamentals fundamentals.quarterlyIncome overlay.quarterlyIncome "netIncome" false .netIncome
  | .ebitda, some overlay => ttmSource fundamentals fundamentals.quarterlyIncome overlay.quarterlyIncome "ebitda" false .ebitda
  | .capexTtm, some overlay =>
      ttmSource fundamentals fundamentals.quarterlyCashFlow overlay.quarterlyCashFlow "capitalExpenditures" true .capexTtm
  | .totalCash, some overlay =>
      balanceSource fundamentals fundamentals.quarterlyBalance overlay.quarterlyBalance ["cashAndShortTermInvestments"] .totalCash
  | .totalDebt, some overlay =>
      balanceSource fundamentals fundamentals.quarterlyBalance overlay.quarterlyBalance ["shortLongTermDebtTotal"] .totalDebt
  | .totalEquity, some overlay =>
      balanceSource fundamentals fundamentals.quarterlyBalance overlay.quarterlyBalance ["totalStockholderEquity", "totalEquity"] .totalEquity
  | .sharesOutstanding, some overlay =>
      if (officialShares fundamentals overlay).isSome then .official else fallback fundamentals .sharesOutstanding

end Report

end C3po.Overlays.Fieldwise
