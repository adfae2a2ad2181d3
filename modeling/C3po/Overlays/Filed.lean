import C3po.Library.Latest
import C3po.Overlays.Extraction

/-! The rows of the open-data archives, as the two readers take them.

An archive is given by the rows of its files; a file that is missing has none. Texts are folded
(capitals, no accents) and dates are read as days; a row without a reference date is left out.
-/

set_option autoImplicit false

namespace C3po.Overlays

open Library Library.Calendar

/-- What a row holds of each field. -/
abbrev Amounts := Field → Option ℚ

/-- `ORDEM_EXERC`. -/
inductive Exercise where
  | ultimo
  | penultimo
  | other
  deriving DecidableEq

/-- `ESCALA_MOEDA`. -/
inductive Escala where
  | mil
  | milhao
  | unidade
  deriving DecidableEq

structure FiledRow where
  taxId : String
  refer : Day
  version : ℤ
  exercise : Exercise
  start : Option Day
  finish : Option Day
  code : String
  text : String
  number : Option ℚ
  scale : Escala
  /-- The amount is in reais, or says nothing. -/
  inReais : Bool

def scaledValue (row : FiledRow) : Option ℚ :=
  row.number.map (· * match row.scale with
    | .mil => 1000
    | .milhao => 1000000
    | .unidade => 1)

/-- A row of the capital composition: what was issued and what the issuer holds of it. -/
structure CapitalRow where
  taxId : String
  refer : Day
  version : ℤ
  ordinary : Option ℚ × Option ℚ
  preferred : Option ℚ × Option ℚ
  total : Option ℚ × Option ℚ

def netShareCount (counts : Option ℚ × Option ℚ) : Option ℚ := counts.1.map fun issued => max (issued - counts.2.getD 0) 0

section Reading
variable (issuers : List String)

def dreAccounts : String → Option Field
  | "3.01" => some .totalRevenue
  | "3.03" => some .grossProfit
  | "3.05" => some .operatingIncome
  | "3.07" => some .incomeBeforeTax
  | "3.08" => some .incomeTaxExpense
  | "3.11" => some .consolidatedNetIncome
  | "3.11.01" => some .netIncome
  | _ => none

def bpaAccounts : String → Option Field
  | "1" => some .totalAssets
  | "1.01.01" => some .cash
  | "1.01.02" => some .shortTermInvestments
  | _ => none

def bppAccounts : String → Option Field
  | "2.01.04" => some .currentDebt
  | "2.02.01" => some .longTermDebt
  | "2.03" => some .totalStockholderEquity
  | _ => none

/-- Which rows of a file are read: its accounts, the period by the end of the exercise or the
reference date, the comparative too, and the cumulative rows alone. -/
structure Reading where
  accounts : String → Option Field
  byExercise : Bool
  includePriorComparative : Bool
  requireYearToDate : Bool

def isYearToDateRow (start : Option Day) (finish : Day) : Bool := start = some (yearStart finish) && yearStart finish ≤ finish

def Reading.period (reading : Reading) (row : FiledRow) : Day := if reading.byExercise then row.finish.getD row.refer else row.refer

/-- What a row says of a field of a period, if it is read. -/
def Reading.take (reading : Reading) (row : FiledRow) : Option ((String × Day × Field) × ℤ × ℚ) :=
  if row.taxId ∉ issuers then none
  else if row.exercise ≠ .ultimo ∧ ¬(reading.includePriorComparative ∧ row.exercise = .penultimo) then none
  else if reading.requireYearToDate ∧ ¬isYearToDateRow row.start (reading.period row) then none
  else do
    let field ← reading.accounts row.code
    let value ← scaledValue row
    some ((row.taxId, reading.period row, field), row.version, value)

/-- `_read_statement`: of a field of a period, the highest version, the last of equal ones. -/
def readStatement (reading : Reading) (rows : List FiledRow) : Dict (String × Day × Field) (ℤ × ℚ) :=
  rows.foldl (fun selected row => match reading.take issuers row with
    | none => selected
    | some (key, entry) => match selected.get? key with
      | none => selected.insert key entry
      | some prior => if prior.1 ≤ entry.1 then selected.insert key entry else selected) Dict.empty

def readShareCapital (rows : List CapitalRow) : Dict (String × Day) (ℤ × ShareCapital) :=
  rows.foldl (fun selected row => match netShareCount row.total with
    | none => selected
    | some total =>
        let entry := (row.version, (⟨netShareCount row.ordinary, netShareCount row.preferred, total⟩ : ShareCapital))
        if row.taxId ∉ issuers then selected
        else match selected.get? (row.taxId, row.refer) with
          | none => selected.insert (row.taxId, row.refer) entry
          | some prior => if prior.1 ≤ row.version then selected.insert (row.taxId, row.refer) entry else selected) Dict.empty

end Reading

section Itr

/-- The periods an issuer has, and what they hold. -/
def periodsOf (selected : Dict (String × Day × Field) (ℤ × ℚ)) (taxId : String) : List Day :=
  stableSort id (((selected.keys.filter fun key => key.1 = taxId).map fun key => key.2.1).dedup)

def amountsAt (selected : Dict (String × Day × Field) (ℤ × ℚ)) (taxId : String) (period : Day) : Amounts := fun field =>
  (selected.get? (taxId, period, field)).map Prod.snd

def quarterRow (current previous : Amounts) : Amounts :=
  let quarter : Amounts := fun field => (current field).map (· - (previous field).getD 0)
  fun
  | .netIncome => (quarter .netIncome).or (quarter .consolidatedNetIncome)
  | .consolidatedNetIncome => none
  | field => quarter field

/-- The cumulative of the last period, if it is of the same year. -/
def previousAmounts (amounts : Day → Amounts) (last : Option Day) (period : Day) : Amounts := fun field =>
  (last.filter fun last => (civil last).1 = (civil period).1).bind fun last => amounts last field

/-- Each cumulative less the one before it. -/
def quarterized (amounts : Day → Amounts) : Option Day → List Day → List (Day × Amounts)
  | _, [] => []
  | last, period :: later =>
      (period, quarterRow (amounts period) (previousAmounts amounts last period)) :: quarterized amounts (some period) later

/-- `_quarterize_income`. -/
def quarterizeIncome (amounts : Day → Amounts) (periods : List Day) : List (Day × Amounts) :=
  stableSort (fun row => -row.1) (quarterized amounts none periods)

structure ItrArchive where
  dre : List FiledRow
  bpa : List FiledRow
  bpp : List FiledRow
  capital : List CapitalRow

def dreReading : Reading := ⟨dreAccounts, true, true, true⟩
def bpaReading : Reading := ⟨bpaAccounts, false, false, false⟩
def bppReading : Reading := ⟨bppAccounts, false, false, false⟩

structure ItrPayload where
  symbol : String
  asOf : Day
  publishedAt : ℤ
  sourceUrl : String
  quarterlyIncome : List (Day × Amounts)
  quarterlyBalance : Option (Day × Amounts)
  regulatorId : String
  companyName : String
  taxId : String
  composition : Option Composition
  companyEvBalance : Option (Day × ℚ × ℚ)
  sharesOutstanding : Option ℚ

/-- The balance sheet of the period, the liabilities read last. -/
def itrBalance (assets liabilities : Amounts) : Amounts :=
  let balance : Amounts := fun field => (liabilities field).or (assets field)
  fun
  | .shortTermInvestments | .currentDebt | .longTermDebt => none
  | .cashAndShortTermInvestments => (balance .cash).map (· + (balance .shortTermInvestments).getD 0)
  | .shortLongTermDebtTotal =>
      if (balance .currentDebt).isSome ∨ (balance .longTermDebt).isSome then
        some ((balance .currentDebt).getD 0 + (balance .longTermDebt).getD 0)
      else none
  | field => balance field

def itrEvBalance (assets liabilities : Amounts) : Option (ℚ × ℚ) := do
  let balance : Amounts := fun field => (liabilities field).or (assets field)
  let cash ← balance .cash
  let shortTerm ← balance .shortTermInvestments
  let currentDebt ← balance .currentDebt
  let longTermDebt ← balance .longTermDebt
  some (cash + shortTerm, currentDebt + longTermDebt)

def itrPayloads (archive : ItrArchive) (taxIds : List String) (sourceUrl : String) (now : ℤ) (issuer : Issuer) (published : Option ℤ) :
    List ItrPayload :=
  let dre := readStatement taxIds dreReading archive.dre
  let bpa := readStatement taxIds bpaReading archive.bpa
  let bpp := readStatement taxIds bppReading archive.bpp
  let shares := readShareCapital taxIds archive.capital
  let taxId := issuer.taxId
  let capital := (shares.keys.filter fun key => key.1 = taxId).map Prod.snd
  match (periodsOf dre taxId ++ periodsOf bpa taxId ++ periodsOf bpp taxId ++ capital).max? with
  | none => []
  | some latestPeriod =>
      let assets := amountsAt bpa taxId latestPeriod
      let liabilities := amountsAt bpp taxId latestPeriod
      let balance := itrBalance assets liabilities
      let composition := (shares.get? (taxId, latestPeriod)).map Prod.snd
      issuer.symbols.map fun symbol =>
        { symbol := symbol
          asOf := latestPeriod
          publishedAt := published.getD now
          sourceUrl := sourceUrl
          quarterlyIncome := quarterizeIncome (amountsAt dre taxId) (periodsOf dre taxId)
          quarterlyBalance := if ∃ field, (balance field).isSome then some (latestPeriod, balance) else none
          regulatorId := issuer.regulatorId
          companyName := issuer.companyName
          taxId := taxId
          composition := composition.map fun entry => ⟨latestPeriod, entry⟩
          companyEvBalance := (itrEvBalance assets liabilities).map (latestPeriod, ·)
          sharesOutstanding := (composition.map ShareCapital.total).filter (0 < ·) }

/-- `extract_itr_official_fundamentals`; each issuer comes with when it published, if known. -/
def extractItrOfficialFundamentals (archive : ItrArchive) (issuers : List (Issuer × Option ℤ)) (sourceUrl : String) (now : ℤ) : List ItrPayload :=
  issuers.flatMap fun issuer => itrPayloads archive (issuers.map fun issuer => issuer.1.taxId) sourceUrl now issuer.1 issuer.2

end Itr

section Concepts

/-- `_level`. -/
def level (code : String) : ℕ := code.toList.count '.'

def begins (text : String) (heads : List String) : Bool := heads.any fun head => head.toList.isPrefixOf text.toList

def ends (text tail : String) : Bool := tail.toList.isSuffixOf text.toList

def mentions (text word : String) : Bool := text.toList.tails.any fun rest => word.toList.isPrefixOf rest

/-- What answers to a field: by its code and its text. -/
structure Concept where
  field : Field
  matched : String → String → Bool
  /-- Every account adds up. -/
  additive : Bool := false
  /-- The size of the amount. -/
  magnitude : Bool := false

def isCapexLine (code text : String) : Bool :=
  begins code ["6.02."] && level code = 2 &&
    !(["VENDA", "ALIENA", "RECEBIMENTO", "BAIXA", "RESGATE"].any (mentions text)) &&
    ["IMOBILIZADO", "INTANGIVE", "ATIVO FIXO"].any (mentions text) &&
    begins text ["AQUISI", "ADIC", "COMPRA", "INVESTIMENTO", "IMOBILIZADO", "INTANGIVE", "PAGAMENTO"]

def incomeConcepts : List Concept :=
  [{ field := .totalRevenue, matched := fun code text => level code = 1 && begins text ["RECEITA DE VENDA", "RECEITAS DE VENDA"] },
    { field := .grossProfit, matched := fun code text => level code = 1 && text = "RESULTADO BRUTO" },
    { field := .operatingIncome,
      matched := fun code text => level code = 1 && mentions text "ANTES DO RESULTADO FINANCEIRO E DOS TRIBUTOS" },
    { field := .incomeBeforeTax,
      matched := fun code text => level code = 1 && begins text ["RESULTADO ANTES DOS TRIBUTOS SOBRE O LUCRO"] },
    { field := .incomeTaxExpense,
      matched := fun code text => level code = 1 && begins text ["IMPOSTO DE RENDA E CONTRIBUICAO SOCIAL"] },
    { field := .consolidatedNetIncome,
      matched := fun code text =>
        level code = 1 && begins text ["LUCRO/PREJUIZO", "LUCRO OU PREJUIZO LIQUIDO"] && ends text "PERIODO" },
    { field := .netIncome, matched := fun code text => level code = 2 && begins text ["ATRIBUIDO"] && mentions text "CONTROLADORA" }]

def valueAddedConcepts : List Concept :=
  [{ field := .depreciationAndAmortization,
     matched := fun code text => begins code ["7."] && level code = 2 && begins text ["DEPRECIACAO"],
     magnitude := true }]

def cashFlowConcepts : List Concept :=
  [{ field := .totalCashFromOperatingActivities,
     matched := fun code text => code = "6.01" && begins text ["CAIXA LIQUIDO"] && mentions text "OPERACION" },
    { field := .capitalExpenditures, matched := isCapexLine, additive := true }]

def assetConcepts : List Concept :=
  [{ field := .totalAssets, matched := fun code text => code = "1" && begins text ["ATIVO TOTAL"] },
    { field := .cash, matched := fun code text => (code = "1.01" || code = "1.01.01") && begins text ["CAIXA E EQUIVALENTES DE CAIXA"] },
    { field := .shortTermInvestments, matched := fun code text => code = "1.01.02" && begins text ["APLICACOES FINANCEIRAS"] }]

def liabilityConcepts : List Concept :=
  [{ field := .currentDebt, matched := fun code text => code = "2.01.04" && begins text ["EMPRESTIMOS E FINANCIAMENTOS"] },
    { field := .longTermDebt, matched := fun code text => code = "2.02.01" && begins text ["EMPRESTIMOS E FINANCIAMENTOS"] },
    { field := .totalEquity, matched := fun code text => level code = 1 && begins text ["PATRIMONIO LIQUIDO"] },
    { field := .nonControllingInterest,
      matched := fun code text => level code = 2 && begins text ["PARTICIPACAO DOS ACIONISTAS NAO CONTROLADORES"] }]

inductive StatementFile where
  | dre
  | dva
  | dfcMi
  | dfcMd
  | bpa
  | bpp
  deriving DecidableEq

/-- `STATEMENT_FILES`, in the order they are read. -/
def statementFiles : List (StatementFile × Group × List Concept) :=
  [(.dre, .income, incomeConcepts), (.dva, .valueAdded, valueAddedConcepts), (.dfcMi, .cashFlow, cashFlowConcepts),
    (.dfcMd, .cashFlow, cashFlowConcepts), (.bpa, .assets, assetConcepts), (.bpp, .liabilities, liabilityConcepts)]

end Concepts

section Scanning

/-- A document of an issuer and a span it reports on. -/
structure HitKey where
  taxId : String
  refer : Day
  version : ℤ
  start : Option Day
  finish : Day
  deriving DecidableEq

/-- The accounts that answer to the concepts of a file, by document and span; of one account the
last row. -/
def hits (issuers skip : List String) (concepts : List Concept) (flow : Bool) (rows : List FiledRow) : Dict HitKey (Dict (Field × String) ℚ) :=
  rows.foldl (fun hits row =>
    if row.taxId ∉ issuers ∨ row.taxId ∈ skip ∨ ¬row.inReais then hits
    else match row.finish, scaledValue row with
      | some finish, some value =>
          let key : HitKey := ⟨row.taxId, row.refer, row.version, if flow then row.start else none, finish⟩
          (concepts.filter fun concept => concept.matched row.code row.text).foldl (fun hits concept =>
            hits.insert key ((hits.getD key Dict.empty).insert (concept.field, row.code) (if concept.magnitude then |value| else value))) hits
      | _, _ => hits) Dict.empty

/-- `_resolve_concepts`: two accounts that answer one concept are no answer, unless they add up. -/
def resolveConcepts (concepts : List Concept) (fields : Dict (Field × String) ℚ) : Amounts := fun field =>
  match concepts.find? fun concept => concept.field = field with
  | none => none
  | some concept =>
      match (fields.entries.filter fun entry => entry.1.1 = field).map Prod.snd with
      | [] => none
      | [value] => some value
      | value :: others => if concept.additive then some (value + others.sum) else none

structure IndexRow where
  taxId : String
  refer : Day
  version : ℤ
  received : Option Day

structure CvmPackage where
  documentType : String
  sourceUrl : String
  index : List IndexRow
  statements : StatementFile → Scope → List FiledRow
  capital : List CapitalRow

/-- What a document says of a span, ranked: its own filing first, then the highest version. -/
def candidateOf (package : CvmPackage) (key : HitKey) (values : Amounts) : Candidate :=
  ⟨toLex (if key.refer = key.finish then 1 else 0, toLex (key.version, key.refer)), values, ⟨package.documentType, key.refer, key.version⟩,
    package.sourceUrl⟩

/-- What the documents of a statement file say, span by span. -/
def scanStatement (package : CvmPackage) (issuers skip : List String) (scope : Scope) (file : StatementFile × Group × List Concept) :
    List (Key × Candidate) :=
  (hits issuers skip file.2.2 file.2.1.flow (package.statements file.1 scope)).entries.filterMap fun hit =>
    let values := resolveConcepts file.2.2 hit.2
    if ∃ field, (values field).isSome then
      some (⟨hit.1.taxId, scope, file.2.1, hit.1.start, hit.1.finish⟩, candidateOf package hit.1 values)
    else none

/-- Issuers with consolidated statements are not read from the individual ones. -/
def consolidatedIn (package : CvmPackage) (issuers : List String) : List String :=
  statementFiles.flatMap fun file => ((package.statements file.1 .con).map FiledRow.taxId).filter (· ∈ issuers)

/-- Everything the documents of a package say. -/
def filings (package : CvmPackage) (issuers : List String) : List (Key × Candidate) :=
  (statementFiles.flatMap (scanStatement package issuers [] .con)) ++
    statementFiles.flatMap (scanStatement package issuers (consolidatedIn package issuers) .ind)

/-- `scan_cvm_package`. -/
def scanCvmPackage (issuers : List String) (package : CvmPackage) : CvmPackageScan where
  documentType := package.documentType
  candidates := newest Candidate.rank (filings package issuers)
  capital := readShareCapital issuers package.capital
  documents := package.index.foldl (fun documents row =>
    if row.taxId ∈ issuers then documents.insert (row.taxId, row.refer, row.version) row.received else documents) Dict.empty

end Scanning

end C3po.Overlays
