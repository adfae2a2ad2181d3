import C3po.Library.StableSort
import Mathlib.Data.Prod.Lex
import Mathlib.Algebra.Order.Ring.Rat
import Mathlib.Data.String.Basic
import Mathlib.Data.List.Dedup
import Mathlib.Data.List.Induction

/-! The companyfacts of one issuer as the rows of its documents.

Dates are day numbers, and the fields of a fact are what their parsers made of them.
-/

set_option autoImplicit false

namespace C3po.Statements
open C3po.Library

def statementForms : List String :=
  ["10-Q", "10-K", "10-Q/A", "10-K/A", "10-QT", "10-KT", "10-QT/A", "10-KT/A"]

/-- The concepts of the ladder with the unit each is read in, field by field. -/
def conceptUnits : List (String × String) :=
  [("us-gaap:Revenues", "USD"),
    ("us-gaap:RevenueFromContractWithCustomerExcludingAssessedTax", "USD"),
    ("us-gaap:RevenueFromContractWithCustomerIncludingAssessedTax", "USD"),
    ("us-gaap:SalesRevenueNet", "USD"),
    ("us-gaap:RevenuesNetOfInterestExpense", "USD"),
    ("us-gaap:NetIncomeLoss", "USD"),
    ("us-gaap:ProfitLoss", "USD"),
    ("us-gaap:NetIncomeLossAvailableToCommonStockholdersBasic", "USD"),
    ("us-gaap:EarningsPerShareDiluted", "USD/shares"),
    ("us-gaap:EarningsPerShareBasicAndDiluted", "USD/shares"),
    ("us-gaap:OperatingIncomeLoss", "USD"),
    ("us-gaap:DepreciationDepletionAndAmortization", "USD"),
    ("us-gaap:DepreciationAndAmortization", "USD"),
    ("us-gaap:DepreciationAmortizationAndAccretionNet", "USD"),
    ("us-gaap:Depreciation", "USD"),
    ("us-gaap:NetCashProvidedByUsedInOperatingActivities", "USD"),
    ("us-gaap:NetCashProvidedByUsedInOperatingActivitiesContinuingOperations", "USD"),
    ("us-gaap:PaymentsToAcquirePropertyPlantAndEquipment", "USD"),
    ("us-gaap:PaymentsToAcquireProductiveAssets", "USD"),
    ("us-gaap:CashAndCashEquivalentsAtCarryingValue", "USD"),
    ("us-gaap:CashCashEquivalentsRestrictedCashAndRestrictedCashEquivalents", "USD"),
    ("us-gaap:Cash", "USD"),
    ("us-gaap:LongTermDebtNoncurrent", "USD"),
    ("us-gaap:LongTermDebtAndCapitalLeaseObligations", "USD"),
    ("us-gaap:LongTermDebt", "USD"),
    ("us-gaap:DebtCurrent", "USD"),
    ("us-gaap:LongTermDebtCurrent", "USD"),
    ("us-gaap:LongTermDebtAndCapitalLeaseObligationsCurrent", "USD"),
    ("us-gaap:ShortTermBorrowings", "USD"),
    ("us-gaap:CommercialPaper", "USD"),
    ("us-gaap:StockholdersEquity", "USD"),
    ("us-gaap:StockholdersEquityIncludingPortionAttributableToNoncontrollingInterest", "USD"),
    ("dei:EntityCommonStockSharesOutstanding", "shares")]

/-- One value for each share class, with one cover date. -/
def classSummedConcepts : List String := ["dei:EntityCommonStockSharesOutstanding"]

/-- A reported fact; `none` is a field that does not parse, or is missing where it is needed.
A start may be missing. -/
structure FactItem where
  form : String
  accession : String
  value : Option ℚ
  start : Option (Option ℤ)
  finish : Option ℤ
  filed : Option ℤ
  fiscalYear : Option ℤ
  fiscalPeriod : Option String
  deriving DecidableEq

/-- What a payload lists for a concept in its unit; `none` is an entry that is no fact. -/
abbrev Payload := String → List (Option FactItem)

/-- The fact that a document reports: concept, unit and period. -/
structure Identity where
  concept : String
  unit : String
  start : Option ℤ
  finish : ℤ
  deriving DecidableEq

structure Key where
  accession : String
  identity : Identity
  deriving DecidableEq

/-- A fact that is kept. -/
structure Entry where
  key : Key
  form : String
  filed : ℤ
  fiscalYear : Option ℤ
  fiscalPeriod : Option String
  value : ℚ
  deriving DecidableEq

/-- A fact of a statement that parses. -/
def FactItem.entry (item : FactItem) (concept unit : String) : Option Entry := do
  if item.form ∉ statementForms || item.accession == "" then none
  else
    let value ← item.value
    let finish ← item.finish
    let start ← item.start
    let filed ← item.filed
    if start.any (finish < ·) then none
    else some ⟨⟨item.accession, ⟨concept, unit, start, finish⟩⟩, item.form, filed, item.fiscalYear, item.fiscalPeriod, value⟩

/-- The facts of a payload, concept by concept. -/
def entries (payload : Payload) : List Entry :=
  conceptUnits.flatMap fun (concept, unit) => (payload concept).filterMap fun item => do
    (← item).entry concept unit

/-- The facts of one document with one identity; the first gives the document's fields. -/
structure Group where
  first : Entry
  values : List ℚ
  deriving DecidableEq

def Group.key (group : Group) : Key := group.first.key

/-- `grouped.setdefault`, and the value joins the set. -/
def addEntry (groups : List Group) (entry : Entry) : List Group :=
  if groups.any (·.key == entry.key) then
    groups.map fun group => if group.key = entry.key then { group with values := group.values.insert entry.value } else group
  else groups ++ [⟨entry, [entry.value]⟩]

def grouped (entries : List Entry) : List Group := entries.foldl addEntry []

/-- A row of a document, still without its acceptance. -/
structure Row where
  key : Key
  form : String
  fiscalYear : Option ℤ
  fiscalPeriod : Option String
  value : ℚ
  filed : ℤ
  deriving DecidableEq

/-- Different values conflict, but for a concept that is summed over its classes. -/
def Group.row (group : Group) : Option Row :=
  if 1 < group.values.length && group.key.identity.concept ∉ classSummedConcepts then none
  else some ⟨group.key, group.first.form, group.first.fiscalYear,
    group.first.fiscalPeriod.filter (· ≠ ""), group.values.sum, group.first.filed⟩

def Row.order (row : Row) : ℤ ×ₗ String ×ₗ String ×ₗ ℤ :=
  toLex (row.filed, toLex (row.key.accession, toLex (row.key.identity.concept, row.key.identity.finish)))

/-- `companyfacts_vintages`, for periods that end on or after a day. -/
def companyfactsVintages (payload : Payload) (since : ℤ) : List Row :=
  stableSort Row.order
    ((grouped ((entries payload).filter fun entry => since ≤ entry.key.identity.finish)).filterMap Group.row)

/-- An entry that is listed stays listed. -/
def Payload.Grows (old new : Payload) : Prop := ∀ concept, ∀ item ∈ old concept, item ∈ new concept

def Carries (payload : Payload) (key : Key) : Prop := ∃ entry ∈ entries payload, entry.key = key

/-- The values of a fact in a document are one, or are summed. -/
def Agreed (payload : Payload) (key : Key) : Prop :=
  key.identity.concept ∈ classSummedConcepts ∨
    ∀ first ∈ entries payload, ∀ second ∈ entries payload, first.key = key → second.key = key → first.value = second.value

theorem entries_grow {old new : Payload} (grows : old.Grows new) {entry : Entry} (here : entry ∈ entries old) :
    entry ∈ entries new := by
  obtain ⟨pair, listed, inside⟩ := List.mem_flatMap.mp here
  obtain ⟨item, there, made⟩ := List.mem_filterMap.mp inside
  exact List.mem_flatMap.mpr ⟨pair, listed, List.mem_filterMap.mpr ⟨item, grows _ item there, made⟩⟩

theorem Carries.grow {old new : Payload} {key : Key} (carries : Carries old key) (grows : old.Grows new) : Carries new key := by
  obtain ⟨entry, here, same⟩ := carries
  exact ⟨entry, entries_grow grows here, same⟩

theorem Agreed.before {old new : Payload} {key : Key} (agreed : Agreed new key) (grows : old.Grows new) : Agreed old key := by
  obtain summed | alike := agreed
  · exact .inl summed
  · right
    intro first here second there
    exact alike first (entries_grow grows here) second (entries_grow grows there)

structure Groups (entries : List Entry) (groups : List Group) : Prop where
  first : ∀ group ∈ groups, group.first ∈ entries
  values : ∀ group ∈ groups, ∀ value, value ∈ group.values ↔ ∃ entry ∈ entries, entry.key = group.key ∧ entry.value = value
  nodup : ∀ group ∈ groups, group.values.Nodup
  every : ∀ entry ∈ entries, ∃ group ∈ groups, group.key = entry.key

theorem Groups.add {entries : List Entry} {groups : List Group} (holds : Groups entries groups) (entry : Entry) :
    Groups (entries ++ [entry]) (addEntry groups entry) := by
  unfold addEntry
  split
  · next known =>
    obtain ⟨old, oldHere, oldKey⟩ := List.any_eq_true.mp known
    constructor
    · intro group here
      obtain ⟨before, there, rfl⟩ := List.mem_map.mp here
      apply List.mem_append_left
      split <;> exact holds.first before there
    · intro group here value
      obtain ⟨before, there, rfl⟩ := List.mem_map.mp here
      have known := holds.values before there value
      by_cases same : before.key = entry.key
      · rw [if_pos same]
        simp only [List.mem_append, List.mem_singleton, List.mem_insert_iff, Group.key] at known same ⊢
        rw [known]
        constructor
        · rintro (rfl | ⟨found, inside, alike, reached⟩)
          · exact ⟨entry, .inr rfl, same.symm, rfl⟩
          · exact ⟨found, .inl inside, alike, reached⟩
        · rintro ⟨found, inside | rfl, alike, reached⟩
          · exact .inr ⟨found, inside, alike, reached⟩
          · exact .inl reached.symm
      · rw [if_neg same, known]
        constructor
        · rintro ⟨found, inside, alike, reached⟩
          exact ⟨found, List.mem_append_left _ inside, alike, reached⟩
        · rintro ⟨found, inside, alike, reached⟩
          obtain older | new := List.mem_append.mp inside
          · exact ⟨found, older, alike, reached⟩
          · rw [List.mem_singleton.mp new] at alike
            exact absurd alike.symm same
    · intro group here
      obtain ⟨before, there, rfl⟩ := List.mem_map.mp here
      split
      · exact (holds.nodup before there).insert
      · exact holds.nodup before there
    · have stays : ∀ group ∈ groups, ∃ after ∈ groups.map fun group =>
          if group.key = entry.key then { group with values := group.values.insert entry.value } else group,
          after.key = group.key := by
        intro group here
        refine ⟨_, List.mem_map_of_mem here, ?_⟩
        split <;> rfl
      intro found inside
      obtain older | new := List.mem_append.mp inside
      · obtain ⟨group, here, same⟩ := holds.every found older
        obtain ⟨after, there, kept⟩ := stays group here
        exact ⟨after, there, kept.trans same⟩
      · obtain ⟨after, there, kept⟩ := stays old oldHere
        rw [List.mem_singleton.mp new]
        exact ⟨after, there, kept.trans (eq_of_beq oldKey)⟩
  · next unknown =>
    have absent : ∀ group ∈ groups, group.key ≠ entry.key := by
      intro group here same
      exact unknown (List.any_eq_true.mpr ⟨group, here, beq_iff_eq.mpr same⟩)
    constructor
    · intro group here
      obtain before | new := List.mem_append.mp here
      · exact List.mem_append_left _ (holds.first group before)
      · rw [List.mem_singleton.mp new]
        simp
    · intro group here value
      obtain before | new := List.mem_append.mp here
      · rw [holds.values group before value]
        constructor
        · rintro ⟨found, inside, alike, reached⟩
          exact ⟨found, List.mem_append_left _ inside, alike, reached⟩
        · rintro ⟨found, inside, alike, reached⟩
          obtain older | last := List.mem_append.mp inside
          · exact ⟨found, older, alike, reached⟩
          · rw [List.mem_singleton.mp last] at alike
            exact absurd alike.symm (absent group before)
      · rw [List.mem_singleton.mp new]
        simp only [Group.key, List.mem_singleton, List.mem_append]
        constructor
        · rintro rfl
          exact ⟨entry, .inr rfl, rfl, rfl⟩
        · rintro ⟨found, older | rfl, alike, reached⟩
          · obtain ⟨group, there, same⟩ := holds.every found older
            exact absurd (same.trans alike) (absent group there)
          · exact reached.symm
    · intro group here
      obtain before | new := List.mem_append.mp here
      · exact holds.nodup group before
      · rw [List.mem_singleton.mp new]
        exact List.nodup_singleton _
    · intro found inside
      obtain older | new := List.mem_append.mp inside
      · obtain ⟨group, here, same⟩ := holds.every found older
        exact ⟨group, List.mem_append_left _ here, same⟩
      · exact ⟨⟨entry, [entry.value]⟩, by simp, by rw [List.mem_singleton.mp new]; rfl⟩

theorem grouped_holds (entries : List Entry) : Groups entries (grouped entries) := by
  induction entries using List.reverseRecOn with
  | nil => constructor <;> exact fun _ here => nomatch here
  | append_singleton entries entry ih =>
    have step : grouped (entries ++ [entry]) = addEntry (grouped entries) entry := List.foldl_concat ..
    rw [step]
    exact ih.add entry

section Published
variable {payload : Payload} {since : ℤ}

/-- The facts whose period is not before the lookback. -/
def recent (payload : Payload) (since : ℤ) : List Entry := (entries payload).filter fun entry => since ≤ entry.key.identity.finish

theorem mem_recent {entry : Entry} :
    entry ∈ recent payload since ↔ entry ∈ entries payload ∧ since ≤ entry.key.identity.finish := by
  simp [recent]

theorem mem_vintages {row : Row} :
    row ∈ companyfactsVintages payload since ↔ ∃ group ∈ grouped (recent payload since), group.row = some row := by
  rw [companyfactsVintages, mem_stableSort, List.mem_filterMap]
  rfl

theorem Group.row_key {group : Group} {row : Row} (made : group.row = some row) :
    row.key = group.key ∧ row.filed = group.first.filed := by
  unfold Group.row at made
  split at made
  · cases made
  · cases made
    exact ⟨rfl, rfl⟩

theorem vintage_entry {row : Row} (here : row ∈ companyfactsVintages payload since) :
    ∃ entry ∈ entries payload, entry.key = row.key ∧ entry.filed = row.filed := by
  obtain ⟨group, inside, made⟩ := mem_vintages.mp here
  obtain ⟨sameKey, sameDay⟩ := Group.row_key made
  exact ⟨group.first, (mem_recent.mp ((grouped_holds _).first group inside)).1, sameKey.symm, sameDay.symm⟩

theorem published_iff {key : Key} : (∃ row ∈ companyfactsVintages payload since, row.key = key) ↔
    Carries payload key ∧ Agreed payload key ∧ since ≤ key.identity.finish := by
  have holds := grouped_holds (recent payload since)
  constructor
  · rintro ⟨row, here, rfl⟩
    obtain ⟨group, inside, made⟩ := mem_vintages.mp here
    obtain ⟨sameKey, -⟩ := Group.row_key made
    obtain ⟨listed, within⟩ := mem_recent.mp (holds.first group inside)
    rw [sameKey]
    refine ⟨⟨group.first, listed, rfl⟩, ?_, within⟩
    by_cases summed : group.key.identity.concept ∈ classSummedConcepts
    · exact .inl summed
    · right
      intro first here second there firstKey secondKey
      have short : group.values.length ≤ 1 := by
        unfold Group.row at made
        by_contra long
        simp [summed, not_le.mp long] at made
      have known : ∀ entry ∈ entries payload, entry.key = group.key → entry.value ∈ group.values := by
        intro entry here same
        have recently : entry ∈ recent payload since := mem_recent.mpr ⟨here, by rw [same]; exact within⟩
        exact (holds.values group inside _).mpr ⟨entry, recently, same, rfl⟩
      have firstIn := known first here firstKey
      have secondIn := known second there secondKey
      cases values : group.values with
      | nil => simp [values] at firstIn
      | cons value rest =>
        obtain rfl : rest = [] := by
          rw [values, List.length_cons] at short
          exact List.length_eq_zero_iff.mp (by omega)
        rw [values, List.mem_singleton] at firstIn secondIn
        rw [firstIn, secondIn]
  · rintro ⟨⟨entry, here, rfl⟩, agreed, within⟩
    obtain ⟨group, inside, same⟩ := holds.every entry (mem_recent.mpr ⟨here, within⟩)
    have kept : ¬ (1 < group.values.length && group.key.identity.concept ∉ classSummedConcepts) = true := by
      intro dropped
      simp only [Bool.and_eq_true, decide_eq_true_eq] at dropped
      obtain ⟨long, single⟩ := dropped
      obtain summed | alike := agreed
      · exact single (same ▸ summed)
      · have equal : ∀ first ∈ group.values, ∀ second ∈ group.values, first = second := by
          intro first firstIn second secondIn
          obtain ⟨one, oneIn, oneKey, rfl⟩ := (holds.values group inside first).mp firstIn
          obtain ⟨two, twoIn, twoKey, rfl⟩ := (holds.values group inside second).mp secondIn
          exact alike one (mem_recent.mp oneIn).1 two (mem_recent.mp twoIn).1 (oneKey.trans same) (twoKey.trans same)
        have nodup := holds.nodup group inside
        match values : group.values with
        | [] | [_] => simp [values] at long
        | first :: second :: rest =>
          rw [values] at nodup equal
          have differs := (List.nodup_cons.mp nodup).1
          exact differs (by rw [equal first (by simp) second (by simp)]; simp)
    refine ⟨_, mem_vintages.mpr ⟨group, inside, if_neg kept⟩, same⟩

end Published

end C3po.Statements
