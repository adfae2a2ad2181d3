import Mathlib.Algebra.Order.Ring.Rat
import Mathlib.Data.Prod.Lex
import Mathlib.Data.String.Basic
import Mathlib.Data.Fintype.Pi
import C3po.Library.Calendar
import C3po.Library.Dict
import C3po.Library.StableSort
import C3po.Library.Traced

/-! Quarterly statements extracted from scanned packages, and the documents listed for each
period.

A figure carries the document versions it was read from, as the run that read them stamped
them with a receipt; no code reads them. Rows whose period is no date are left out.
-/

set_option autoImplicit false

namespace C3po.Overlays

open Library Library.Calendar

/-- An ordinal of the calendar. -/
abbrev Day := ℤ

inductive Scope where
  | con
  | ind
  deriving DecidableEq

inductive Group where
  | income
  | valueAdded
  | cashFlow
  | assets
  | liabilities
  deriving DecidableEq

/-- The groups of `FLOW_GROUPS`. -/
def Group.flow : Group → Bool
  | .income | .valueAdded | .cashFlow => true
  | .assets | .liabilities => false

inductive Field where
  | totalRevenue
  | grossProfit
  | operatingIncome
  | incomeBeforeTax
  | incomeTaxExpense
  | consolidatedNetIncome
  | netIncome
  | depreciationAndAmortization
  | ebitda
  | totalCashFromOperatingActivities
  | capitalExpenditures
  | freeCashFlow
  | totalAssets
  | cash
  | shortTermInvestments
  | cashAndShortTermInvestments
  | currentDebt
  | longTermDebt
  | shortLongTermDebtTotal
  | totalEquity
  | nonControllingInterest
  | totalStockholderEquity
  deriving DecidableEq

def Field.all : List Field :=
  [.totalRevenue, .grossProfit, .operatingIncome, .incomeBeforeTax, .incomeTaxExpense, .consolidatedNetIncome, .netIncome,
    .depreciationAndAmortization, .ebitda, .totalCashFromOperatingActivities, .capitalExpenditures, .freeCashFlow, .totalAssets, .cash,
    .shortTermInvestments, .cashAndShortTermInvestments, .currentDebt, .longTermDebt, .shortLongTermDebtTotal, .totalEquity,
    .nonControllingInterest, .totalStockholderEquity]

instance : Fintype Field := ⟨⟨Field.all, by decide⟩, fun field => by cases field <;> decide⟩

structure Document where
  document : String
  referenceDate : Day
  version : ℤ
  deriving DecidableEq

def Document.order (document : Document) : String ×ₗ ℤ ×ₗ ℤ := toLex (document.document, toLex (document.referenceDate, document.version))

/-- A document version with its receipt day, if the run's index knows it. -/
structure Item where
  identity : Document
  receivedOn : Option Day
  deriving DecidableEq

abbrev Figure := Traced ℚ Item

abbrev Values := Record Field ℚ Item

/-- A row of a statement: a period and what it holds. -/
structure Row where
  date : Day
  values : Values
  deriving DecidableEq

structure Key where
  taxId : String
  scope : Scope
  group : Group
  start : Option Day
  finish : Day
  deriving DecidableEq

/-- The best document of a span: its own filing before a comparative, then the highest
version. -/
structure Candidate where
  rank : ℕ ×ₗ ℤ ×ₗ Day
  values : Field → Option ℚ
  document : Document
  sourceUrl : String

structure ShareCapital where
  ordinary : Option ℚ
  preferred : Option ℚ
  total : ℚ
  deriving DecidableEq

structure CvmPackageScan where
  documentType : String
  candidates : Dict Key Candidate
  capital : Dict (String × Day) (ℤ × ShareCapital)
  documents : Dict (String × Day × ℤ) (Option Day)

structure Issuer where
  taxId : String
  regulatorId : String
  companyName : String
  symbols : List String

section Gathering
variable (scans : List CvmPackageScan)

def gatherCandidates : Dict Key Candidate :=
  scans.foldl (fun candidates scan => scan.candidates.entries.foldl (fun candidates entry =>
    match candidates.get? entry.1 with
    | none => candidates.insert entry.1 entry.2
    | some prior => if prior.rank < entry.2.rank then candidates.insert entry.1 entry.2 else candidates) candidates) Dict.empty

/-- The capital of each period, with the type of the package it was read from. -/
def gatherCapital : Dict (String × Day) (ℤ × ShareCapital × String) :=
  scans.foldl (fun capital scan => scan.capital.entries.foldl (fun capital entry =>
    match capital.get? entry.1 with
    | none => capital.insert entry.1 (entry.2.1, entry.2.2, scan.documentType)
    | some prior =>
        if prior.1 ≤ entry.2.1 then capital.insert entry.1 (entry.2.1, entry.2.2, scan.documentType) else capital) capital) Dict.empty

def gatherDocuments : Dict (String × Day × ℤ) (Option Day) :=
  scans.foldl (fun documents scan => scan.documents.entries.foldl (fun documents entry => documents.insert entry.1 entry.2) documents)
    Dict.empty

end Gathering

/-- `stamped`. -/
def stamped (documents : Dict (String × Day × ℤ) (Option Day)) (taxId : String) (document : Document) : Item :=
  ⟨document, (documents.get? (taxId, document.referenceDate, document.version)).join⟩

/-- What the best document of a span holds, stamped. -/
structure Span where
  start : Option Day
  finish : Day
  values : Values
  item : Item
  sourceUrl : String

/-- The spans of a statement group. -/
def spansOf (documents : Dict (String × Day × ℤ) (Option Day)) (entries : List (Key × Candidate)) (taxId : String) (scope : Scope)
    (group : Group) : List Span :=
  (entries.filter fun entry => entry.1.scope = scope && entry.1.group = group).map fun entry =>
    let item := stamped documents taxId entry.2.document
    ⟨entry.1.start, entry.1.finish, fun field => (entry.2.values field).map fun value => ⟨value, [item]⟩, item, entry.2.sourceUrl⟩

section Quarters

def quarterEnd (year month : ℤ) : Day := ofCivil year month (if month = 6 ∨ month = 9 then 30 else 31)

def isQuarterEnd (day : Day) : Bool :=
  let (_, month, date) := civil day
  (month = 3 || month = 12) && date = 31 || (month = 6 || month = 9) && date = 30

def yearStart (day : Day) : Day := ofCivil (civil day).1 1 1

/-- The end of the quarter before, in the same year. -/
def priorQuarter (day : Day) : Option Day :=
  let (year, month, _) := civil day
  if 3 < month then some (quarterEnd year (month - 3)) else none

def valuesAt (spans : List Span) (start finish : Day) : Option Values :=
  (spans.find? fun span => span.start = some start && span.finish = finish).map Span.values

/-- One quarter: the year to date less the year to the quarter before, and a three-month row
for what the difference cannot give. -/
def quarterlyFlow (spans : List Span) (finish : Day) : Values :=
  let cumulative := match valuesAt spans (yearStart finish) finish with
    | none => Record.empty
    | some ytd => match priorQuarter finish with
      | none => ytd
      | some prior => match valuesAt spans (yearStart finish) prior with
        | none => Record.empty
        | some earlier => ytd.meet (· - ·) earlier
  let (year, month, _) := civil finish
  match valuesAt spans (ofCivil year (month - 2) 1) finish with
  | none => cumulative
  | some standalone => cumulative.fill standalone

/-- `_quarterly_flows`. -/
def quarterlyFlows (spans : List Span) : List (Day × Values) :=
  let ends := stableSort id ((spans.map Span.finish).filter isQuarterEnd).dedup
  (ends.map fun finish => (finish, quarterlyFlow spans finish)).filter fun quarter => quarter.2.any

end Quarters

section Rows

def incomeRow (period : Day) (income valueAdded : Values) : Row :=
  let amortization := valueAdded .depreciationAndAmortization
  ⟨period, fun
    | .consolidatedNetIncome => none
    | .netIncome => (income .netIncome).or (income .consolidatedNetIncome)
    | .depreciationAndAmortization => amortization.or (income .depreciationAndAmortization)
    | .ebitda => match income .operatingIncome, amortization with
      | some operating, some amortization => some (operating.combine (· + ·) amortization)
      | _, _ => income .ebitda
    | field => income field⟩

/-- A net inflow is no capital expenditure. -/
def cashFlowRow (period : Day) (values : Values) : Option Row :=
  let capex := (values .capitalExpenditures).filter fun capex => capex.value ≤ 0
  let row : Row := ⟨period, fun
    | .capitalExpenditures => capex
    | .freeCashFlow => match values .totalCashFromOperatingActivities, capex with
      | some operating, some capex => some (operating.combine (· + ·) capex)
      | _, _ => values .freeCashFlow
    | field => values field⟩
  if row.values.any then some row else none

/-- A sum in which one side may be missing. -/
def orZero (first second : Option Figure) : Option Figure :=
  match first, second with
  | some first, some second => some (first.combine (· + ·) second)
  | first, second => first.or second

def balanceRow (period : Day) (values : Values) (scope : Scope) : Row :=
  ⟨period, fun
    | .totalAssets => values .totalAssets
    | .cash => values .cash
    | .cashAndShortTermInvestments => (values .cash).bind fun cash => orZero (some cash) (values .shortTermInvestments)
    | .shortLongTermDebtTotal => orZero (values .currentDebt) (values .longTermDebt)
    | .totalEquity => values .totalEquity
    | .totalStockholderEquity => match values .totalEquity, values .nonControllingInterest with
      | some equity, some minority => some (equity.combine (· - ·) minority)
      | some equity, none => if scope = .ind then some equity else none
      | none, _ => none
    | _ => none⟩

/-- What enters the enterprise value: cash and debt of one balance sheet, all of it there. -/
def evBalance (values : Values) : Option (ℚ × ℚ) := do
  let cash ← values .cash
  let shortTerm ← values .shortTermInvestments
  let currentDebt ← values .currentDebt
  let longTermDebt ← values .longTermDebt
  some (cash.value + shortTerm.value, currentDebt.value + longTermDebt.value)

/-- The balance sheet of a period: its assets and liabilities, the last one read first. -/
def pointAt (spans : List Span) (finish : Day) : Values :=
  (spans.filter fun span => span.finish = finish).foldl (fun point span => span.values.fill point) Record.empty

def statementHistoryQuarters : ℕ := 8

def recent (rows : List Row) (latestPeriod : Day) : List Row :=
  (stableSort (fun row => -row.date) (rows.filter fun row => row.date ≤ latestPeriod)).take statementHistoryQuarters

end Rows

/-- The document behind a period, and every one a figure of it was read from. -/
structure PeriodDocument where
  item : Item
  sourceUrl : String
  contributing : List Item
  deriving DecidableEq

section Documents

/-- The year to the quarter before, which a flow of the period was differenced against. -/
def differenced (group : Group) (finish : Day) (span : Span) : Bool :=
  group.flow && (priorQuarter finish).any fun prior => span.start = some (yearStart finish) && span.finish = prior

/-- Every version a figure of the period was read from, once. -/
def contributing (spans : Group → List Span) (finish : Day) : List Item :=
  stableSort (fun item => item.identity.order) ([.income, .valueAdded, .cashFlow, .assets, .liabilities].flatMap fun group =>
    ((spans group).filter fun span => span.finish = finish || differenced group finish span).map Span.item).dedup

/-- The document of a period: of the income statement, cumulative first, else of the cash
flow, else of the balance sheet. -/
def chosen (spans : Group → List Span) (finish : Day) : Option Span :=
  [.income, .cashFlow, .assets, .liabilities].findSome? fun group =>
    let here := (spans group).filter fun span => span.finish = finish
    (here.find? fun span => span.start.all fun start => start = yearStart finish).or here.head?

/-- `_period_documents`. -/
def periodDocuments (spans : Group → List Span) : List (Day × PeriodDocument) :=
  let ends := (([.income, .cashFlow, .assets, .liabilities].flatMap fun group => (spans group).map Span.finish).filter isQuarterEnd).dedup
  (stableSort id ends).filterMap fun finish => (chosen spans finish).map fun span =>
    (finish, ⟨span.item, span.sourceUrl, contributing spans finish⟩)

end Documents

/-- The share capital of a period. -/
structure Composition where
  asOf : Day
  capital : ShareCapital
  deriving DecidableEq

/-- `official_metrics`, its documents apart. -/
structure Metrics where
  regulatorId : String
  companyName : String
  taxId : String
  scope : Scope
  composition : Option Composition
  evBalance : Option (Day × ℚ × ℚ)
  deriving DecidableEq

structure Payload where
  symbol : String
  asOf : Option Day
  /-- The receipt day whose end is `published_at`. -/
  publishedOn : Option Day
  sourceName : String
  sourceUrl : Option String
  quarterlyIncome : List Row
  quarterlyCashFlow : List Row
  quarterlyBalance : List Row
  sharesOutstanding : Option Figure
  metrics : Metrics
  periodDocuments : List (Day × PeriodDocument)
  deriving DecidableEq

section Payloads
variable (documents : Dict (String × Day × ℤ) (Option Day)) (capital : Dict (String × Day) (ℤ × ShareCapital × String))

def sourceName : Scope → String
  | .con => "CVM Dados Abertos - ITR/DFP consolidado"
  | .ind => "CVM Dados Abertos - ITR/DFP individual"

/-- The newest share capital by the latest period, and the version it was read from. -/
def shareCapital (taxId : String) (latestPeriod : Day) : Option (Composition × Item) :=
  let periods := (capital.keys.filter fun key => key.1 = taxId && key.2 ≤ latestPeriod).map Prod.snd
  periods.max?.bind fun period => (capital.get? (taxId, period)).map fun (version, entry, documentType) =>
    (⟨period, entry⟩, stamped documents taxId ⟨documentType, period, version⟩)

def shareCount (composition : Composition × Item) : Option Figure :=
  if 0 < composition.1.capital.total then some ⟨composition.1.capital.total, [composition.2]⟩ else none

def documentAt (listed : List (Day × PeriodDocument)) (period : Day) : Option PeriodDocument :=
  (listed.find? fun entry => entry.1 = period).map Prod.snd

def issuerPayloads (issuer : Issuer) (entries : List (Key × Candidate)) : List Payload :=
  let scope := if entries.any fun entry => entry.1.scope = .con then .con else .ind
  let spans := spansOf documents entries issuer.taxId scope
  let income := quarterlyFlows (spans .income)
  let valueAdded := quarterlyFlows (spans .valueAdded)
  let cash := quarterlyFlows (spans .cashFlow)
  let points := spans .assets ++ spans .liabilities
  let balances := ((points.map Span.finish).filter isQuarterEnd).dedup
  match (income.map Prod.fst ++ cash.map Prod.fst ++ balances).max? with
  | none => []
  | some latestPeriod =>
      let listed := periodDocuments spans
      let latest := documentAt listed latestPeriod
      let shares := shareCapital documents capital issuer.taxId latestPeriod
      let valueAddedAt := fun period => ((valueAdded.find? fun quarter => quarter.1 = period).map Prod.snd).getD Record.empty
      issuer.symbols.map fun symbol =>
        { symbol := symbol
          asOf := some latestPeriod
          publishedOn := latest.bind fun document => document.item.receivedOn
          sourceName := sourceName scope
          sourceUrl := latest.map PeriodDocument.sourceUrl
          quarterlyIncome := recent (income.map fun quarter => incomeRow quarter.1 quarter.2 (valueAddedAt quarter.1)) latestPeriod
          quarterlyCashFlow := recent (cash.filterMap fun quarter => cashFlowRow quarter.1 quarter.2) latestPeriod
          quarterlyBalance := recent ((balances.map fun period => balanceRow period (pointAt points period) scope).filter
            fun row => row.values.any) latestPeriod
          sharesOutstanding := shares.bind shareCount
          metrics :=
            { regulatorId := issuer.regulatorId
              companyName := issuer.companyName
              taxId := issuer.taxId
              scope := scope
              composition := shares.map Prod.fst
              evBalance := if latestPeriod ∈ balances then (evBalance (pointAt points latestPeriod)).map (latestPeriod, ·) else none }
          periodDocuments := listed }

end Payloads

/-- `extract_cvm_official_statements`; the symbols of an issuer are given in capitals. -/
def extractCvmOfficialStatements (scans : List CvmPackageScan) (issuers : List Issuer) : List Payload :=
  let candidates := gatherCandidates scans
  issuers.flatMap fun issuer =>
    let entries := candidates.entries.filter fun entry => entry.1.taxId = issuer.taxId
    if issuer.symbols = [] || entries.isEmpty then [] else issuerPayloads (gatherDocuments scans) (gatherCapital scans) issuer entries

end C3po.Overlays
