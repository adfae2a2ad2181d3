import Mathlib.Data.List.MinMax
import C3po.Library.Retained
import C3po.Overlays.Extraction

/-! Statements merged into the stored ones, and the overlay the receipt guard admits. -/

set_option autoImplicit false

namespace C3po.Overlays

open Library

/-- What is compared and stored: everything but the sources. -/
def Payload.bare (payload : Payload) : Payload :=
  let rows := List.map fun row : Row => { row with values := row.values.bare }
  { payload with
    quarterlyIncome := rows payload.quarterlyIncome
    quarterlyCashFlow := rows payload.quarterlyCashFlow
    quarterlyBalance := rows payload.quarterlyBalance
    sharesOutstanding := payload.sharesOutstanding.map Traced.bare }

section Merging

def historyQuarters : ℕ := 8

/-- A period is replaced whole, never blended. -/
def mergeRows (base incoming : List Row) : List Row := retain Row.date historyQuarters (base ++ incoming)

/-- The document of a period after the merge: the new one, whose receipt stays known if it is
the same version. -/
def mergeDocument (base incoming : List (Day × PeriodDocument)) (period : Day) : Option PeriodDocument :=
  match documentAt incoming period with
  | none => documentAt base period
  | some document =>
      match documentAt base period with
      | none => some document
      | some prior =>
          if prior.item.identity = document.item.identity && document.item.receivedOn.isNone then
            some { document with item := { document.item with receivedOn := prior.item.receivedOn } }
          else some document

/-- `_same_as_of_document`. -/
def sameAsOfDocument (base incoming : Payload) : Bool :=
  match incoming.asOf with
  | none => false
  | some period => base.asOf = some period &&
      match documentAt base.periodDocuments period, documentAt incoming.periodDocuments period with
      | some first, some second => first.item.identity = second.item.identity
      | _, _ => false

def merged (base incoming : Payload) : Payload :=
  let income := mergeRows base.quarterlyIncome incoming.quarterlyIncome
  let cash := mergeRows base.quarterlyCashFlow incoming.quarterlyCashFlow
  let balance := mergeRows base.quarterlyBalance incoming.quarterlyBalance
  let kept := stableSort id ((income ++ cash ++ balance).map Row.date).dedup
  { incoming with
    publishedOn := if sameAsOfDocument base incoming then incoming.publishedOn.or base.publishedOn else incoming.publishedOn
    sourceUrl := if sameAsOfDocument base incoming then incoming.sourceUrl.or base.sourceUrl else incoming.sourceUrl
    quarterlyIncome := income
    quarterlyCashFlow := cash
    quarterlyBalance := balance
    sharesOutstanding := incoming.sharesOutstanding.or base.sharesOutstanding
    periodDocuments := kept.filterMap fun period =>
      (mergeDocument base.periodDocuments incoming.periodDocuments period).map (period, ·) }

/-- `_merge_statement_payloads`: a run never moves back, and the first payload is merged with
nothing. -/
def mergeStatementPayloads (base : Option Payload) (incoming : Payload) : Payload :=
  match base with
  | none => merged { incoming with
      asOf := none, publishedOn := none, sourceUrl := none, quarterlyIncome := [], quarterlyCashFlow := [], quarterlyBalance := [],
      sharesOutstanding := none, periodDocuments := [] } incoming
  | some base =>
      match base.asOf, incoming.asOf with
      | some before, some period => if period < before then base else merged base incoming
      | _, _ => merged base incoming

end Merging

structure Snapshot where
  symbol : String
  publishedAt : ℤ
  outputs : Payload

section Store
variable (snapshots : List Snapshot)

/-- The latest of the snapshots, the first of those of one instant. -/
def latestOf : Option Snapshot := @List.argmax _ _ Int.instLinearOrder.toPreorder _ Snapshot.publishedAt snapshots

def latestSnapshot (symbol : String) : Option Snapshot := latestOf (snapshots.filter fun snapshot => snapshot.symbol = symbol)

def latestSnapshotBefore (symbol : String) (before : ℤ) : Option Snapshot :=
  latestOf (snapshots.filter fun snapshot => snapshot.symbol = symbol && snapshot.publishedAt < before)

def save (instant : ℤ) (incoming : Payload) : List Snapshot :=
  if incoming.symbol = "" || incoming.asOf.isNone then snapshots
  else
    let prior := (latestSnapshot snapshots incoming.symbol).map Snapshot.outputs
    let next := mergeStatementPayloads prior incoming
    if prior.any fun prior => prior.bare = next.bare then snapshots else snapshots ++ [⟨incoming.symbol, instant, next⟩]

/-- `save_official_statements`, each payload at its own instant. -/
def saveOfficialStatements (payloads : List (ℤ × Payload)) : List Snapshot :=
  payloads.foldl (fun snapshots entry => save snapshots entry.1 entry.2) snapshots

end Store

/-- A legacy snapshot: when it was stored, its period and when it was published, read as an
instant or as the receipt day that ends then. -/
structure Legacy where
  storedAt : ℤ
  asOf : Option Day
  published : Option (ℤ ⊕ Day)

inductive Overlay where
  | statements (payload : Payload)
  | legacy (snapshot : Legacy)

section Guard
variable (snapshots : List Snapshot) (availableAt : Day → ℤ)

/-- `_statements_received_by`. -/
def statementsReceivedBy (snapshot : Snapshot) (instant : ℤ) : Bool :=
  snapshot.publishedAt ≤ instant && (snapshot.outputs.publishedOn.all fun day => availableAt day ≤ instant) &&
    snapshot.outputs.periodDocuments.all fun entry => (entry.2.item :: entry.2.contributing).all fun item =>
      item.receivedOn.all fun day => availableAt day ≤ instant

def legacyReceivedBy (legacy : Legacy) (instant : ℤ) : Bool :=
  legacy.storedAt ≤ instant && legacy.published.all fun published =>
    match published with
    | .inl published => published ≤ instant
    | .inr day => availableAt day ≤ instant

def receiptGuardLookback : ℕ := 3

/-- The newest earlier statements the guard admits, among the first few. -/
def earlierAdmitted (symbol : String) (instant : ℤ) : ℕ → ℤ → Option Payload
  | 0, _ => none
  | tries + 1, before =>
      match latestSnapshotBefore snapshots symbol before with
      | none => none
      | some earlier =>
          if statementsReceivedBy availableAt earlier instant then some earlier.outputs
          else earlierAdmitted symbol instant tries earlier.publishedAt

def admittedStatements (symbol : String) (instant : ℤ) : Option Payload :=
  match latestSnapshot snapshots symbol with
  | none => none
  | some snapshot =>
      if statementsReceivedBy availableAt snapshot instant then some snapshot.outputs
      else earlierAdmitted snapshots availableAt symbol instant receiptGuardLookback snapshot.publishedAt

/-- `official_overlays`, of one symbol. -/
def officialOverlay (legacy : Option Legacy) (symbol : String) (instant : ℤ) : Option Overlay :=
  let older := (legacy.filter fun legacy => legacyReceivedBy availableAt legacy instant && legacy.asOf.isSome).map Overlay.legacy
  match admittedStatements snapshots availableAt symbol instant with
  | some payload => if payload.asOf.isSome then some (.statements payload) else older
  | none => older

end Guard

/-! A fresh payload lists every document version its rows were read from. -/

theorem documentAt_tabulated (document : Day → Option PeriodDocument) (periods : List Day) (period : Day) :
    documentAt (periods.filterMap fun period => (document period).map (period, ·)) period =
      if period ∈ periods then document period else none := by
  induction periods with
  | nil => rfl
  | cons first rest ih =>
    unfold documentAt at ih ⊢
    by_cases same : first = period
    · subst same
      cases held : document first with
      | none =>
        rw [List.filterMap_cons_none (by rw [held]; rfl), ih]
        simp [held]
      | some found => simp [held]
    · have apart : period ≠ first := fun eq => same eq.symm
      rw [if_congr (by rw [List.mem_cons, or_iff_right apart]) rfl rfl, ← ih]
      cases held : document first with
      | none => rw [List.filterMap_cons_none (by rw [held]; rfl)]
      | some found => simp [held, same]

section Spans
variable {documents : Library.Dict (String × Day × ℤ) (Option Day)} {entries : List (Key × Candidate)} {taxId : String} {scope : Scope}

def Own (span : Span) : Prop := ∀ field figure, span.values field = some figure → figure.sources = [span.item]

theorem spansOf_own {group : Group} : ∀ span ∈ spansOf documents entries taxId scope group, Own span := by
  intro span member field figure held
  obtain ⟨entry, _, rfl⟩ := List.mem_map.mp member
  obtain ⟨value, _, rfl⟩ := Option.map_eq_some_iff.mp held
  rfl

variable {spans : Group → List Span} {group : Group} {finish : Day}

theorem mem_contributing {span : Span} (member : span ∈ spans group) (concerned : span.finish = finish ∨ differenced group finish span) :
    span.item ∈ contributing spans finish := by
  unfold contributing
  rw [mem_stableSort, List.mem_dedup, List.mem_flatMap]
  refine ⟨group, by cases group <;> decide, List.mem_map_of_mem (List.mem_filter.mpr ⟨member, ?_⟩)⟩
  simpa using concerned

theorem Own.within {span : Span} (own : Own span) {known : Item → Prop} (listed : known span.item) : span.values.Within known := by
  intro field figure held source member
  rw [own field figure held, List.mem_singleton] at member
  rw [member]
  exact listed

theorem mem_of_valuesAt {start : Day} {values : Values} {spans : List Span} (found : valuesAt spans start finish = some values) :
    ∃ span ∈ spans, span.start = some start ∧ span.finish = finish ∧ span.values = values := by
  obtain ⟨span, first, rfl⟩ := Option.map_eq_some_iff.mp found
  have fits := List.find?_some first
  simp only [Bool.and_eq_true, decide_eq_true_eq] at fits
  exact ⟨span, List.mem_of_find?_eq_some first, fits.1, fits.2, rfl⟩

/-- The figures of the year so far less those of the quarters before. -/
def cumulativeFlow (spans : List Span) (finish : Day) : Values :=
  match valuesAt spans (yearStart finish) finish with
  | none => Record.empty
  | some ytd => match priorQuarter finish with
    | none => ytd
    | some prior => match valuesAt spans (yearStart finish) prior with
      | none => Record.empty
      | some earlier => ytd.meet (· - ·) earlier

theorem quarterlyFlow_within (own : ∀ span ∈ spans group, Own span) (flow : group.flow) :
    (quarterlyFlow (spans group) finish).Within (· ∈ contributing spans finish) := by
  have here : ∀ {start : Day} {values : Values}, valuesAt (spans group) start finish = some values →
      values.Within (· ∈ contributing spans finish) := by
    intro start values found
    obtain ⟨span, member, _, ends, rfl⟩ := mem_of_valuesAt found
    exact (own span member).within (mem_contributing member (.inl ends))
  have earlier : ∀ {prior : Day} {values : Values}, priorQuarter finish = some prior →
      valuesAt (spans group) (yearStart finish) prior = some values → values.Within (· ∈ contributing spans finish) := by
    intro prior values before found
    obtain ⟨span, member, starts, ends, rfl⟩ := mem_of_valuesAt found
    refine (own span member).within (mem_contributing member (.inr ?_))
    simp only [differenced, flow, before, Option.any_some, starts, ends, decide_true, Bool.and_self]
  have cumulative : (cumulativeFlow (spans group) finish).Within (· ∈ contributing spans finish) := by
    unfold cumulativeFlow
    split
    · exact Record.within_empty
    · rename_i ytd found
      split
      · exact here found
      · rename_i prior before
        split
        · exact Record.within_empty
        · rename_i sooner there
          exact (here found).meet (earlier before there)
  unfold quarterlyFlow
  dsimp only
  split
  · exact cumulative
  · rename_i standalone found
    exact cumulative.fill (here found)

theorem mem_quarterlyFlows {spans : List Span} {quarter : Day × Values} (member : quarter ∈ quarterlyFlows spans) :
    isQuarterEnd quarter.1 ∧ (∃ span ∈ spans, span.finish = quarter.1) ∧ quarter.2 = quarterlyFlow spans quarter.1 := by
  obtain ⟨among, _⟩ := List.mem_filter.mp member
  obtain ⟨finish, ends, rfl⟩ := List.mem_map.mp among
  rw [mem_stableSort, List.mem_dedup, List.mem_filter] at ends
  obtain ⟨span, held, ends'⟩ := List.mem_map.mp ends.1
  exact ⟨ends.2, ⟨span, held, ends'⟩, rfl⟩

end Spans

section Rows
variable {known : Item → Prop} {values income valueAdded : Values} {period : Day}

theorem incomeRow_within (ours : income.Within known) (theirs : valueAdded.Within known) :
    (incomeRow period income valueAdded).values.Within known := by
  intro field figure held
  cases field
  case consolidatedNetIncome => cases held
  case netIncome =>
    rcases Option.or_eq_some_iff.mp held with net | ⟨_, consolidated⟩
    · exact ours .netIncome figure net
    · exact ours .consolidatedNetIncome figure consolidated
  case depreciationAndAmortization =>
    rcases Option.or_eq_some_iff.mp held with added | ⟨_, own⟩
    · exact theirs .depreciationAndAmortization figure added
    · exact ours .depreciationAndAmortization figure own
  case ebitda =>
    simp only [incomeRow] at held
    split at held
    · rename_i operating amortization here there
      cases held
      exact (ours _ operating here).combine (theirs _ amortization there)
    · exact ours .ebitda figure held
  all_goals exact ours _ figure held

theorem cashFlowRow_within (within : values.Within known) {row : Row} (made : cashFlowRow period values = some row) :
    row.date = period ∧ row.values.Within known := by
  obtain ⟨_, rfl⟩ : _ ∧ _ = row := by simpa only [Option.some_inj] using Option.ite_none_right_eq_some.mp made
  refine ⟨rfl, fun field figure held => ?_⟩
  have capex : ∀ figure, (values .capitalExpenditures).filter (fun capex => capex.value ≤ 0) = some figure → figure.Within known :=
    fun figure kept => within .capitalExpenditures figure (Option.filter_eq_some_iff.mp kept).1
  cases field
  case capitalExpenditures => exact capex figure held
  case freeCashFlow =>
    dsimp only at held
    split at held
    · rename_i operating spent here there
      cases held
      exact (within _ operating here).combine (capex spent there)
    · exact within .freeCashFlow figure held
  all_goals exact within _ figure held

theorem orZero_within {first second : Option Figure} (one : ∀ figure, first = some figure → figure.Within known)
    (two : ∀ figure, second = some figure → figure.Within known) : ∀ figure, orZero first second = some figure → figure.Within known := by
  intro figure held
  cases first with
  | none =>
    rw [show orZero none second = second by cases second <;> rfl] at held
    exact two figure held
  | some own =>
    cases second with
    | none =>
      cases held
      exact one _ rfl
    | some other =>
      cases held
      exact (one own rfl).combine (two other rfl)

theorem balanceRow_within (within : values.Within known) {scope : Scope} : (balanceRow period values scope).values.Within known := by
  intro field figure held
  cases field
  case totalAssets => exact within _ figure held
  case cash => exact within _ figure held
  case totalEquity => exact within _ figure held
  case cashAndShortTermInvestments =>
    obtain ⟨cash, here, sum⟩ := Option.bind_eq_some_iff.mp held
    refine orZero_within (fun figure same => ?_) (within .shortTermInvestments) figure sum
    cases same
    exact within .cash cash here
  case shortLongTermDebtTotal => exact orZero_within (within .currentDebt) (within .longTermDebt) figure held
  case totalStockholderEquity =>
    simp only [balanceRow] at held
    split at held
    · rename_i equity minority here there
      cases held
      exact (within _ equity here).combine (within _ minority there)
    · rename_i equity here there
      split at held
      · cases held
        exact within _ _ here
      · cases held
    · cases held
  all_goals cases held

variable {spans : List Span}

theorem pointAt_within (each : ∀ span ∈ spans, span.finish = period → span.values.Within known) : (pointAt spans period).Within known := by
  have folds : ∀ (list : List Span) (point : Values), (∀ span ∈ list, span.values.Within known) → point.Within known →
      (list.foldl (fun point span => span.values.fill point) point).Within known := by
    intro list
    induction list with
    | nil => exact fun _ _ within => within
    | cons span rest ih =>
      intro point all within
      exact ih _ (fun other member => all other (List.mem_cons_of_mem _ member)) ((all span (List.mem_cons_self)).fill within)
  refine folds _ _ (fun span member => ?_) Record.within_empty
  obtain ⟨among, ends⟩ := List.mem_filter.mp member
  exact each span among (by simpa using ends)

theorem mem_recent {rows : List Row} {latest : Day} {row : Row} (member : row ∈ recent rows latest) : row ∈ rows := by
  have among := List.mem_of_mem_take member
  rw [mem_stableSort] at among
  exact (List.mem_filter.mp among).1

end Rows

section Payloads

/-- What is said of a source by the documents listed for a period: they name it, if its receipt
is known. -/
def Named (document : PeriodDocument) (source : Item) : Prop := source.receivedOn.isSome → source ∈ document.contributing

def RowNamed (listed : List (Day × PeriodDocument)) (row : Row) : Prop :=
  ∃ document, documentAt listed row.date = some document ∧ row.values.Within (Named document)

def Payload.rows (payload : Payload) : List Row := payload.quarterlyIncome ++ payload.quarterlyCashFlow ++ payload.quarterlyBalance

variable {documents : Library.Dict (String × Day × ℤ) (Option Day)} {capital : Library.Dict (String × Day) (ℤ × ShareCapital × String)}

theorem chosen_isSome {spans : Group → List Span} {finish : Day} {group : Group} (apart : group ≠ .valueAdded) {span : Span}
    (member : span ∈ spans group) (ends : span.finish = finish) : (chosen spans finish).isSome := by
  unfold chosen
  rw [List.findSome?_isSome_iff]
  refine ⟨group, ?_, ?_⟩
  · cases group <;> first | exact absurd rfl apart | decide
  · have nonempty : (spans group).filter (fun span => span.finish = finish) ≠ [] :=
      List.ne_nil_of_mem (List.mem_filter.mpr ⟨member, by simpa using ends⟩)
    have first : ((spans group).filter fun span => span.finish = finish).head?.isSome := by
      rw [List.isSome_head?]
      simpa using nonempty
    rw [Option.isSome_or, first, Bool.or_true]

theorem documentAt_periodDocuments {spans : Group → List Span} {finish : Day} {group : Group} (apart : group ≠ .valueAdded) {span : Span}
    (member : span ∈ spans group) (ends : span.finish = finish) (quarter : isQuarterEnd finish) :
    ∃ document, documentAt (periodDocuments spans) finish = some document ∧ document.contributing = contributing spans finish := by
  obtain ⟨best, found⟩ := Option.isSome_iff_exists.mp (chosen_isSome apart member ends)
  refine ⟨⟨best.item, best.sourceUrl, contributing spans finish⟩, ?_, rfl⟩
  have table : periodDocuments spans = (stableSort id (([.income, .cashFlow, .assets, .liabilities].flatMap fun group =>
      (spans group).map Span.finish).filter isQuarterEnd).dedup).filterMap fun finish =>
      ((chosen spans finish).map fun span => (⟨span.item, span.sourceUrl, contributing spans finish⟩ : PeriodDocument)).map (finish, ·) := by
    unfold periodDocuments
    simp only [Option.map_map, Function.comp_def]
  rw [table, documentAt_tabulated, if_pos, found, Option.map_some]
  rw [mem_stableSort, List.mem_dedup, List.mem_filter, List.mem_flatMap]
  refine ⟨⟨group, ?_, List.mem_map.mpr ⟨span, member, ends⟩⟩, quarter⟩
  cases group <;> first | exact absurd rfl apart | decide

theorem RowNamed.of_within {spans : Group → List Span} {row : Row} (group : Group) (apart : group ≠ .valueAdded) {span : Span}
    (member : span ∈ spans group) (ends : span.finish = row.date) (quarter : isQuarterEnd row.date)
    (within : row.values.Within (· ∈ contributing spans row.date)) : RowNamed (periodDocuments spans) row := by
  obtain ⟨document, found, lists⟩ := documentAt_periodDocuments apart member ends quarter
  exact ⟨document, found, within.mono fun source read _ => lists ▸ read⟩

section Statements
variable {spans : Group → List Span} (own : ∀ group, ∀ span ∈ spans group, Own span)
include own

theorem incomeRow_named {quarter : Day × Values} (member : quarter ∈ quarterlyFlows (spans .income)) :
    RowNamed (periodDocuments spans) (incomeRow quarter.1 quarter.2
      ((((quarterlyFlows (spans .valueAdded)).find? fun other => other.1 = quarter.1).map Prod.snd).getD Record.empty)) := by
  obtain ⟨ends, ⟨span, among, finish⟩, values⟩ := mem_quarterlyFlows member
  refine .of_within .income nofun among finish ends (incomeRow_within ?_ ?_)
  · rw [values]
    exact quarterlyFlow_within (own .income) rfl
  · cases found : (quarterlyFlows (spans .valueAdded)).find? fun other => other.1 = quarter.1 with
    | none => exact Record.within_empty
    | some other =>
      have same : other.1 = quarter.1 := by simpa using List.find?_some found
      obtain ⟨_, _, added⟩ := mem_quarterlyFlows (List.mem_of_find?_eq_some found)
      show other.2.Within _
      rw [added, same]
      exact quarterlyFlow_within (own .valueAdded) rfl

theorem cashFlowRow_named {quarter : Day × Values} (member : quarter ∈ quarterlyFlows (spans .cashFlow)) {row : Row}
    (made : cashFlowRow quarter.1 quarter.2 = some row) : RowNamed (periodDocuments spans) row := by
  obtain ⟨ends, ⟨span, among, finish⟩, values⟩ := mem_quarterlyFlows member
  have read : quarter.2.Within (· ∈ contributing spans quarter.1) := by
    rw [values]
    exact quarterlyFlow_within (own .cashFlow) rfl
  obtain ⟨date, within⟩ := cashFlowRow_within read made
  rw [← date] at ends finish within
  exact .of_within .cashFlow nofun among finish ends within

theorem balanceRow_named {period : Day} (member : period ∈ (((spans .assets ++ spans .liabilities).map Span.finish).filter isQuarterEnd))
    (scope : Scope) : RowNamed (periodDocuments spans) (balanceRow period (pointAt (spans .assets ++ spans .liabilities) period) scope) := by
  obtain ⟨ended, quarter⟩ := List.mem_filter.mp member
  have within : (balanceRow period (pointAt (spans .assets ++ spans .liabilities) period) scope).values.Within
      (· ∈ contributing spans period) := by
    refine balanceRow_within (pointAt_within fun span among finish => ?_)
    rcases List.mem_append.mp among with asset | liability
    · exact (own .assets span asset).within (mem_contributing asset (.inl finish))
    · exact (own .liabilities span liability).within (mem_contributing liability (.inl finish))
  obtain ⟨span, among, finish⟩ := List.mem_map.mp ended
  rcases List.mem_append.mp among with asset | liability
  · exact .of_within .assets nofun asset finish quarter within
  · exact .of_within .liabilities nofun liability finish quarter within

end Statements

theorem issuerPayloads_named {issuer : Issuer} {entries : List (Key × Candidate)} :
    ∀ payload ∈ issuerPayloads documents capital issuer entries, ∀ row ∈ payload.rows, RowNamed payload.periodDocuments row := by
  intro payload member row held
  unfold issuerPayloads at member
  dsimp only at member
  split at member
  · cases member
  · obtain ⟨symbol, _, rfl⟩ := List.mem_map.mp member
    have own : ∀ group, ∀ span ∈ spansOf documents entries issuer.taxId
        (if (entries.any fun entry => entry.1.scope = .con) then .con else .ind) group, Own span := fun _ => spansOf_own
    rcases List.mem_append.mp held with flow | balance
    · rcases List.mem_append.mp flow with income | cash
      · obtain ⟨quarter, among, rfl⟩ := List.mem_map.mp (mem_recent income)
        exact incomeRow_named own among
      · obtain ⟨quarter, among, made⟩ := List.mem_filterMap.mp (mem_recent cash)
        exact cashFlowRow_named own among made
    · obtain ⟨among, _⟩ := List.mem_filter.mp (mem_recent balance)
      obtain ⟨period, ended, rfl⟩ := List.mem_map.mp among
      rw [List.mem_dedup] at ended
      exact balanceRow_named own ended _

theorem extract_named {scans : List CvmPackageScan} {issuers : List Issuer} :
    ∀ payload ∈ extractCvmOfficialStatements scans issuers, ∀ row ∈ payload.rows, RowNamed payload.periodDocuments row := by
  intro payload member
  obtain ⟨issuer, _, among⟩ := List.mem_flatMap.mp member
  dsimp only at among
  split at among
  · cases among
  · exact issuerPayloads_named payload among

end Payloads
end C3po.Overlays
