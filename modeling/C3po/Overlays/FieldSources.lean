import Mathlib.Data.List.Induction
import C3po.Overlays.Fieldwise

/-! Merged rows, period by period: which numbers they take from the official rows and which from
the provider's, and what stays the same when the numbers of one side change.
-/

set_option autoImplicit false

namespace C3po.Overlays.Fieldwise

open Library Library.Calendar

def OneEach (rows : List QuarterRow) : Prop := ((dated rows).map Prod.fst).Nodup

section Periods
variable {V : Type}

theorem keys_put {entries others : List (Day × V)} (period : Day) (value another : V) (same : entries.map Prod.fst = others.map Prod.fst) :
    (Dict.put period value entries).map Prod.fst = (Dict.put period another others).map Prod.fst := by
  induction entries generalizing others with
  | nil =>
    obtain rfl : others = [] := by simpa using same.symm
    rfl
  | cons entry rest ih =>
    cases others with
    | nil => cases same
    | cons other more =>
      obtain ⟨key, kept⟩ := entry
      obtain ⟨name, held⟩ := other
      rw [List.map_cons, List.map_cons, List.cons.injEq] at same
      obtain ⟨rfl, tail⟩ := same
      unfold Dict.put
      by_cases here : key = period
      · simp [here, tail]
      · simp [here, ih tail]

def merging (rows : List Dated) : Dict Day Cells :=
  rows.foldl (fun merged row => merged.insert row.1 (overwrite ((merged.get? row.1).getD nothing) row.2)) Dict.empty

theorem keys_merging {rows others : List Dated} (same : rows.map Prod.fst = others.map Prod.fst) : (merging rows).keys = (merging others).keys := by
  induction rows using List.reverseRecOn generalizing others with
  | nil =>
    obtain rfl : others = [] := by simpa using same.symm
    rfl
  | append_singleton rows row ih =>
    cases others using List.reverseRecOn with
    | nil => simp at same
    | append_singleton others other =>
      rw [List.map_append, List.map_append] at same
      obtain ⟨front, last⟩ := List.append_inj' same rfl
      have dates : row.1 = other.1 := by simpa using last
      have before := ih front
      unfold merging
      rw [List.foldl_append, List.foldl_append, ← merging, ← merging, List.foldl_cons, List.foldl_cons, List.foldl_nil, List.foldl_nil, dates]
      exact keys_put _ _ _ before

theorem periods_merged {base official others otherOfficial : List QuarterRow} (first : (dated base).map Prod.fst = (dated others).map Prod.fst)
    (second : (dated official).map Prod.fst = (dated otherOfficial).map Prod.fst) :
    (mergeRowsFieldwise base official).map Prod.fst = (mergeRowsFieldwise others otherOfficial).map Prod.fst := by
  have sorted : ∀ entries : List Dated, (stableSort (fun row => -row.1) entries).map Prod.fst = stableSort (fun day => -day) (entries.map Prod.fst) :=
    fun entries => (stableSort_map (fun day => -day) Prod.fst entries).symm
  unfold mergeRowsFieldwise
  rw [sorted, sorted]
  have keys : (merging (dated base ++ dated official)).keys = (merging (dated others ++ dated otherOfficial)).keys :=
    keys_merging (by rw [List.map_append, List.map_append, first, second])
  exact congrArg _ keys

end Periods

section Cells
variable {base official : List QuarterRow} {period : Day} {cells : Cells}

theorem rows_of_period (each : OneEach base) (period : Day) :
    ((dated base).filter (fun row => row.1 = period) = [] ∧ officialAt base period = nothing) ∨
    ∃ row, (dated base).filter (fun row => row.1 = period) = [row] ∧ officialAt base period = row.2 := by
  have same : (dated base).reverse.find? (fun row => row.1 = period) = ((dated base).filter fun row => row.1 = period).reverse.head? := by
    rw [← List.filter_reverse, List.head?_filter]
  unfold officialAt
  rw [same]
  have few : ((dated base).filter fun row => row.1 = period).length ≤ 1 := by
    have counted := List.nodup_iff_count_le_one.mp each period
    rw [List.count_eq_countP, List.countP_map, List.countP_eq_length_filter] at counted
    exact le_trans (le_of_eq (congrArg List.length (List.filter_congr fun row _ => rfl))) counted
  generalize (dated base).filter (fun row => row.1 = period) = found at few
  match found, few with
  | [], _ => exact .inl ⟨rfl, rfl⟩
  | [row], _ => exact .inr ⟨row, rfl, rfl⟩

theorem cells_of_merged (one : OneEach base) (other : OneEach official) (member : (period, cells) ∈ mergeRowsFieldwise base official) :
    cells = overwrite (officialAt base period) (officialAt official period) := by
  unfold mergeRowsFieldwise at member
  rw [mem_stableSort, Dict.mem_entries, Dict.get?_foldl Prod.fst fun row kept => overwrite (kept.getD nothing) row.2] at member
  rw [List.filter_append] at member
  have blank : ∀ row : Cells, overwrite nothing row = row := by
    intro row
    funext key
    unfold overwrite nothing
    exact Option.or_none
  have kept : ∀ row : Cells, overwrite row nothing = row := by
    intro row
    funext key
    rfl
  rcases rows_of_period one period with ⟨mine, own⟩ | ⟨row, mine, own⟩ <;>
    rcases rows_of_period other period with ⟨theirs, filed⟩ | ⟨filing, theirs, filed⟩ <;>
    rw [mine, theirs] at member <;> rw [own, filed]
  · cases member
  · cases member
    rfl
  · cases member
    exact (blank row.2).trans (kept row.2).symm
  · cases member
    show overwrite (overwrite nothing row.2) filing.2 = _
    rw [blank]

end Cells

section Merged
variable {base official : List QuarterRow}

theorem merged_eq (one : OneEach base) (other : OneEach official) : mergeRowsFieldwise base official =
    ((mergeRowsFieldwise base official).map Prod.fst).map fun period =>
      (period, overwrite (officialAt base period) (officialAt official period)) := by
  rw [List.map_map]
  conv_lhs => rw [← List.map_id (mergeRowsFieldwise base official)]
  refine List.map_congr_left fun row member => ?_
  exact Prod.ext rfl (cells_of_merged one other member)

end Merged

section Years
variable {rows others : List Dated} {column : String} {magnitude : Bool} {value : ℚ}

/-- Four rows of consecutive quarters that all carry a column, and its sum. -/
def IsYear (rows : List Dated) (column : String) (magnitude : Bool) (value : ℚ) : Prop :=
  ∃ first second third fourth, rows.take 4 = [first, second, third, fourth] ∧
    (monthIndex first.1 - monthIndex second.1 = 3 ∧ monthIndex second.1 - monthIndex third.1 = 3 ∧
      monthIndex third.1 - monthIndex fourth.1 = 3) ∧
    ∃ values : List ℚ, [first, second, third, fourth].map (fun row => number row.2 column) = values.map some ∧
      value = if magnitude then (values.map abs).sum else values.sum

theorem map_of_filterMap {A B : Type} {list : List A} {f : A → Option B} (all : list.length ≤ (list.filterMap f).length) :
    list.map f = (list.filterMap f).map some := by
  induction list with
  | nil => rfl
  | cons first rest ih =>
    cases found : f first with
    | none =>
      rw [List.filterMap_cons_none found, List.length_cons] at all
      have short := List.length_filterMap_le f rest
      omega
    | some value =>
      rw [List.filterMap_cons_some found, List.length_cons, List.length_cons] at all
      rw [List.map_cons, List.filterMap_cons_some found, List.map_cons, found, ih (by omega)]

theorem year_of_completeTtm (complete : completeTtm rows column magnitude = some value) : IsYear rows column magnitude value := by
  unfold completeTtm at complete
  split at complete
  · cases complete
  rename_i window
  dsimp only at complete
  split at complete
  · cases complete
  rename_i enough
  cases complete
  unfold ttmWindow at window
  split at window
  · rename_i first second third fourth newest
    split at window
    · rename_i consecutive
      rw [newest] at enough ⊢
      exact ⟨first, second, third, fourth, newest, consecutive, _, map_of_filterMap (not_lt.mp enough), rfl⟩
    · simp at window
  · simp at window

def quartersOf : List Day → Option (List Day)
  | [first, second, third, fourth] =>
      if monthIndex first - monthIndex second = 3 ∧ monthIndex second - monthIndex third = 3 ∧ monthIndex third - monthIndex fourth = 3 then
        some [first, second, third, fourth] else none
  | _ => none

theorem ttmWindow_congr (same : (rows.take 4).map Prod.fst = (others.take 4).map Prod.fst) : ttmWindow rows = ttmWindow others := by
  have byPeriods : ∀ rows : List Dated, ttmWindow rows = quartersOf ((rows.take 4).map Prod.fst) := by
    intro rows
    unfold ttmWindow
    rcases rows.take 4 with _ | ⟨_, _ | ⟨_, _ | ⟨_, _ | ⟨_, _ | _⟩⟩⟩⟩ <;> rfl
  rw [byPeriods, byPeriods, same]

theorem completeTtm_congr (same : (rows.take 4).map (fun row => (row.1, number row.2 column)) =
    (others.take 4).map fun row => (row.1, number row.2 column)) : completeTtm rows column magnitude = completeTtm others column magnitude := by
  have periods : (rows.take 4).map Prod.fst = (others.take 4).map Prod.fst := by
    have firsts := congrArg (List.map Prod.fst) same
    rwa [List.map_map, List.map_map] at firsts
  have numbers : ∀ rows : List Dated, (rows.take 4).filterMap (fun row => number row.2 column) =
      ((rows.take 4).map fun row => (row.1, number row.2 column)).filterMap Prod.snd := by
    intro rows
    rw [List.filterMap_map]
    rfl
  unfold completeTtm
  rw [ttmWindow_congr periods, numbers, numbers, same]

theorem completeTtm_isNone_congr (periods : (rows.take 4).map Prod.fst = (others.take 4).map Prod.fst)
    (there : (rows.take 4).map (fun row => (number row.2 column).isSome) = (others.take 4).map fun row => (number row.2 column).isSome) :
    (completeTtm rows column magnitude).isNone = (completeTtm others column magnitude).isNone := by
  have counted : ∀ rows : List Dated, ((rows.take 4).filterMap fun row => number row.2 column).length =
      ((rows.take 4).map fun row => (number row.2 column).isSome).countP id := by
    intro rows
    rw [List.length_filterMap_eq_countP, List.countP_map]
    rfl
  unfold completeTtm
  rw [ttmWindow_congr periods]
  dsimp only
  rw [counted, counted, there]
  split
  · rfl
  · split <;> rfl

end Years

/-! The reported source of a served figure is the true one: what is the CVM's does not change with
the provider's numbers, what is the provider's does not change with the CVM's.
-/

section Alike

/-- The same, or two numbers other than zero. -/
def AlikeCell (cell other : Option Cell) : Prop :=
  cell = other ∨ ∃ value another : ℚ, cell = some (some value) ∧ other = some (some another) ∧ value ≠ 0 ∧ another ≠ 0

def AlikeCells (cells others : Cells) : Prop := ∀ key, AlikeCell (cells key) (others key)

def AlikeRows (rows others : List QuarterRow) : Prop :=
  List.Forall₂ (fun row other => row.date = other.date ∧ AlikeCells row.cells other.cells) rows others

structure AlikeFundamentals (fundamentals others : Fundamentals) : Prop where
  financialsAsOf : fundamentals.financialsAsOf = others.financialsAsOf
  updatedAt : fundamentals.updatedAt = others.updatedAt
  income : AlikeRows fundamentals.quarterlyIncome others.quarterlyIncome
  cashFlow : AlikeRows fundamentals.quarterlyCashFlow others.quarterlyCashFlow
  balance : AlikeRows fundamentals.quarterlyBalance others.quarterlyBalance
  annual : AlikeRows fundamentals.annualCashFlow others.annualCashFlow
  yearly : AlikeRows fundamentals.yearlyCashFlow others.yearlyCashFlow
  figures : AlikeCells fundamentals.figures others.figures

structure AlikeOverlay (overlay other : OfficialOverlay) : Prop where
  asOf : overlay.asOf = other.asOf
  sourceName : overlay.sourceName = other.sourceName
  sourceUrl : overlay.sourceUrl = other.sourceUrl
  income : AlikeRows overlay.quarterlyIncome other.quarterlyIncome
  cashFlow : AlikeRows overlay.quarterlyCashFlow other.quarterlyCashFlow
  balance : AlikeRows overlay.quarterlyBalance other.quarterlyBalance
  shares : AlikeCell overlay.sharesOutstanding other.sharesOutstanding

variable {rows others : List QuarterRow} {cell other : Option Cell}

theorem AlikeCell.isSome (alike : AlikeCell cell other) : cell.isSome = other.isSome := by
  rcases alike with rfl | ⟨_, _, rfl, rfl, _, _⟩ <;> rfl

theorem AlikeCell.symm (alike : AlikeCell cell other) : AlikeCell other cell := by
  rcases alike with rfl | ⟨value, another, first, second, here, there⟩
  · exact .inl rfl
  · exact .inr ⟨another, value, second, first, there, here⟩

theorem AlikeCell.number (alike : AlikeCell cell other) : cell.join.isSome = other.join.isSome := by
  rcases alike with rfl | ⟨_, _, rfl, rfl, _, _⟩ <;> rfl

theorem AlikeCell.nonzero (alike : AlikeCell cell other) : (cell.join.filter (· ≠ 0)).isSome = (other.join.filter (· ≠ 0)).isSome := by
  rcases alike with rfl | ⟨value, another, rfl, rfl, first, second⟩
  · rfl
  · simp [first, second]

theorem AlikeCell.filled {under below : Option Cell} (alike : AlikeCell cell other) (underneath : AlikeCell under below) :
    AlikeCell (cell.or under) (other.or below) := by
  rcases alike with rfl | ⟨value, another, rfl, rfl, first, second⟩
  · cases cell
    · simpa using underneath
    · exact .inl rfl
  · exact .inr ⟨value, another, rfl, rfl, first, second⟩

theorem AlikeRows.dates (alike : AlikeRows rows others) : (dated rows).map Prod.fst = (dated others).map Prod.fst := by
  have days : ∀ rows : List QuarterRow, (dated rows).map Prod.fst = rows.filterMap QuarterRow.date := by
    intro rows
    unfold dated
    rw [List.map_filterMap]
    congr 1
    funext row
    cases row.date <;> rfl
  rw [days, days]
  induction alike with
  | nil => rfl
  | cons head _ ih => rw [List.filterMap_cons, List.filterMap_cons, head.1, ih]

theorem alike_officialAt (alike : AlikeRows rows others) (period : Day) : AlikeCells (officialAt rows period) (officialAt others period) := by
  have days : List.Forall₂ (fun row other : Dated => row.1 = other.1 ∧ AlikeCells row.2 other.2) (dated rows) (dated others) := by
    unfold dated
    induction alike with
    | nil => exact .nil
    | @cons row other rest more head _ ih =>
      rw [List.filterMap_cons, List.filterMap_cons, ← head.1]
      cases row.date with
      | none => exact ih
      | some day => exact .cons ⟨rfl, head.2⟩ ih
  have backwards := List.forall₂_reverse_iff.mpr days
  unfold officialAt
  generalize (dated rows).reverse = first at backwards
  generalize (dated others).reverse = second at backwards
  induction backwards with
  | nil => exact fun _ => .inl rfl
  | @cons row other rest more head _ ih =>
    rw [List.find?_cons, List.find?_cons, ← head.1]
    by_cases here : row.1 = period
    · rw [decide_eq_true here]
      exact head.2
    · rw [decide_eq_false here]
      exact ih

end Alike

section Windows
variable {base others official filed : List QuarterRow} {column : String} {magnitude : Bool}

def mergedAt (base official : List QuarterRow) (period : Day) : Cells := overwrite (officialAt base period) (officialAt official period)

theorem window_merged (one : OneEach base) (other : OneEach official) : (mergeRowsFieldwise base official).take 4 =
    (((mergeRowsFieldwise base official).map Prod.fst).take 4).map fun period => (period, mergedAt base official period) := by
  conv_lhs => rw [merged_eq one other]
  rw [List.map_take]
  rfl

theorem carried_eq (one : OneEach base) (other : OneEach official) : carried (mergeRowsFieldwise base official) official column =
    ((((mergeRowsFieldwise base official).map Prod.fst).take 4).filter fun period => (officialAt official period column).isSome).length := by
  unfold carried
  rw [window_merged one other, List.filter_map, List.length_map]
  rfl

theorem completeTtm_official (one : OneEach base) (another : OneEach others) (other : OneEach official) (alike : AlikeRows base others)
    (all : carried (mergeRowsFieldwise base official) official column = 4) :
    completeTtm (mergeRowsFieldwise base official) column magnitude = completeTtm (mergeRowsFieldwise others official) column magnitude := by
  have periods := periods_merged alike.dates (rfl : (dated official).map Prod.fst = _)
  apply completeTtm_congr
  rw [window_merged one other, window_merged another other, ← periods, List.map_map, List.map_map]
  refine List.map_congr_left fun period member => ?_
  rw [carried_eq one other] at all
  have few : (((mergeRowsFieldwise base official).map Prod.fst).take 4).length ≤ 4 := List.length_take_le _ _
  have every := List.length_filter_eq_length_iff.mp (le_antisymm (List.length_filter_le _ _) (few.trans all.ge)) period member
  obtain ⟨cell, there⟩ := Option.isSome_iff_exists.mp every
  refine Prod.ext rfl ?_
  show (overwrite _ _ column).join = (overwrite _ _ column).join
  unfold overwrite
  rw [there]
  rfl

theorem completeTtm_provider (one : OneEach base) (other : OneEach official) (another : OneEach filed) (alike : AlikeRows official filed)
    (nowhere : carried (mergeRowsFieldwise base official) official column = 0) :
    completeTtm (mergeRowsFieldwise base official) column magnitude = completeTtm (mergeRowsFieldwise base filed) column magnitude := by
  have periods := periods_merged (rfl : (dated base).map Prod.fst = _) alike.dates
  apply completeTtm_congr
  rw [window_merged one other, window_merged one another, ← periods, List.map_map, List.map_map]
  refine List.map_congr_left fun period member => ?_
  rw [carried_eq one other] at nowhere
  have never := List.filter_eq_nil_iff.mp (List.eq_nil_of_length_eq_zero nowhere) period member
  have absent : officialAt official period column = none := Option.not_isSome_iff_eq_none.mp never
  have also : officialAt filed period column = none := by
    rw [← Option.not_isSome_iff_eq_none, ← (alike_officialAt alike period column).isSome]
    exact never
  refine Prod.ext rfl ?_
  show (overwrite _ _ column).join = (overwrite _ _ column).join
  unfold overwrite
  rw [absent, also]

theorem alike_mergedAt (first : AlikeRows base others) (second : AlikeRows official filed) (period : Day) :
    AlikeCells (mergedAt base official period) (mergedAt others filed period) :=
  fun key => (alike_officialAt second period key).filled (alike_officialAt first period key)

theorem completeTtm_alike (one : OneEach base) (other : OneEach official) (another : OneEach others) (last : OneEach filed)
    (first : AlikeRows base others) (second : AlikeRows official filed) :
    (completeTtm (mergeRowsFieldwise base official) column magnitude).isNone =
      (completeTtm (mergeRowsFieldwise others filed) column magnitude).isNone := by
  have periods := periods_merged first.dates second.dates
  apply completeTtm_isNone_congr
  · rw [List.map_take, List.map_take, periods]
  · rw [window_merged one other, window_merged another last, ← periods, List.map_map, List.map_map]
    exact List.map_congr_left fun period _ => (alike_mergedAt first second period column).number

theorem carried_alike (one : OneEach base) (other : OneEach official) (another : OneEach others) (last : OneEach filed)
    (first : AlikeRows base others) (second : AlikeRows official filed) :
    carried (mergeRowsFieldwise base official) official column = carried (mergeRowsFieldwise others filed) filed column := by
  rw [carried_eq one other, carried_eq another last, periods_merged first.dates second.dates]
  exact congrArg List.length (List.filter_congr fun period _ => by rw [(alike_officialAt second period column).isSome])

theorem AlikeRows.symm (alike : AlikeRows base others) : AlikeRows others base :=
  List.Forall₂.flip (List.Forall₂.imp (fun _ _ both => ⟨both.1.symm, fun key => (both.2 key).symm⟩) alike)

theorem AlikeRows.refl (rows : List QuarterRow) : AlikeRows rows rows := List.forall₂_same.mpr fun _ _ => ⟨rfl, fun _ => .inl rfl⟩

theorem AlikeOverlay.symm {overlay other : OfficialOverlay} (alike : AlikeOverlay overlay other) : AlikeOverlay other overlay :=
  ⟨alike.asOf.symm, alike.sourceName.symm, alike.sourceUrl.symm, alike.income.symm, alike.cashFlow.symm, alike.balance.symm, alike.shares.symm⟩

theorem OneEach.alike (one : OneEach base) (alike : AlikeRows base others) : OneEach others := by
  unfold OneEach at one ⊢
  rw [← alike.dates]
  exact one

end Windows

section Figures
variable {fundamentals : Fundamentals} {overlay : Option OfficialOverlay} {served : Served} {figures : Cells}

def Served.figure (served : Served) : SourceField → Option ℚ
  | .capexTtm => served.capexTtm
  | field => number served.figures field.name

theorem number_setIfNumber (key wanted : String) (value : Option ℚ) (figures : Cells) :
    number (setIfNumber key value figures) wanted = if wanted = key then value.or (number figures wanted) else number figures wanted := by
  cases value with
  | none =>
    show number figures wanted = _
    split <;> rfl
  | some value =>
    show (Function.update figures key (some (some value)) wanted).join = _
    rw [Function.update_apply]
    split <;> rfl

theorem number_replace (key wanted : String) (value : Option ℚ) (figures : Cells) :
    number (replace key value figures) wanted = if wanted = key then value else number figures wanted := by
  show (Function.update figures key (value.map some) wanted).join = _
  rw [Function.update_apply]
  split
  · cases value <;> rfl
  · rfl

def latestCells (base official : List QuarterRow) : Cells := ((mergeRowsFieldwise base official).head?.map Prod.snd).getD nothing

def servedFigure (fundamentals : Fundamentals) (overlay : Option OfficialOverlay) (field : SourceField) : Option ℚ :=
  match field, applying fundamentals overlay with
  | .operatingCashflow, _ => (resolveCashFlow fundamentals overlay .operatingCashflow).1
  | .freeCashflow, _ => (resolveCashFlow fundamentals overlay .freeCashflow).1
  | .capexTtm, none => none
  | .capexTtm, some overlay =>
      completeTtm (mergeRowsFieldwise fundamentals.quarterlyCashFlow overlay.quarterlyCashFlow) "capitalExpenditures" true
  | .totalRevenue, some overlay =>
      (completeTtm (mergeRowsFieldwise fundamentals.quarterlyIncome overlay.quarterlyIncome) "totalRevenue" false).or
        (number fundamentals.figures "totalRevenue")
  | .ebitda, some overlay =>
      (completeTtm (mergeRowsFieldwise fundamentals.quarterlyIncome overlay.quarterlyIncome) "ebitda" false).or
        (number fundamentals.figures "ebitda")
  | .totalCash, some overlay =>
      (number (latestCells fundamentals.quarterlyBalance overlay.quarterlyBalance) "cashAndShortTermInvestments").or
        (number fundamentals.figures "totalCash")
  | .totalDebt, some overlay =>
      (number (latestCells fundamentals.quarterlyBalance overlay.quarterlyBalance) "shortLongTermDebtTotal").or
        (number fundamentals.figures "totalDebt")
  | .totalEquity, some overlay =>
      (orElse (number (latestCells fundamentals.quarterlyBalance overlay.quarterlyBalance) "totalStockholderEquity")
        (number (latestCells fundamentals.quarterlyBalance overlay.quarterlyBalance) "totalEquity")).or (number fundamentals.figures "totalEquity")
  | .sharesOutstanding, some overlay =>
      (orElse (officialShares fundamentals overlay) (number fundamentals.figures "sharesOutstanding")).or
        (number fundamentals.figures "sharesOutstanding")
  | field, _ => number fundamentals.figures field.name

theorem resolveCashFlow_of_idle (idle : applying fundamentals overlay = none) (key : CashFlowKey) :
    (resolveCashFlow fundamentals overlay key).1 = (providerCashFlowTtm fundamentals key.column).1 := by
  unfold resolveCashFlow providerCashFlow
  rw [idle]
  dsimp only
  split <;> rename_i found <;> rw [found]

theorem applying_some {official : OfficialOverlay} {period : Day} (applied : appliedPeriod fundamentals (some official) = some period) :
    applying fundamentals (some official) = some official := by
  unfold applying
  rw [applied]
  rfl

theorem figure_idle (idle : applying fundamentals overlay = none) {row : Served} (figures : row.figures = (fundamentals.figures
      |> replace "operatingCashflow" (providerCashFlowTtm fundamentals CashFlowKey.operatingCashflow.column).1
      |> replace "freeCashflow" (providerCashFlowTtm fundamentals CashFlowKey.freeCashflow.column).1)) (capex : row.capexTtm = none)
    (field : SourceField) : row.figure field = servedFigure fundamentals overlay field := by
  unfold servedFigure
  rw [idle]
  cases field <;>
    simp [Served.figure, SourceField.name, number_replace, resolveCashFlow_of_idle idle, figures, capex]

theorem figure_served (applies : applyOfficialStatements fundamentals overlay = some served) (field : SourceField) :
    served.figure field = servedFigure fundamentals overlay field := by
  unfold applyOfficialStatements at applies
  cases overlay with
  | none =>
    cases applies
    exact figure_idle rfl rfl rfl field
  | some official =>
    cases applied : appliedPeriod fundamentals (some official) with
    | none =>
      rw [applied] at applies
      cases applies
      refine figure_idle ?_ rfl rfl field
      unfold applying
      rw [applied]
      rfl
    | some period =>
      rw [applied] at applies
      dsimp only at applies
      have here := applying_some applied
      unfold overlaid at applies
      dsimp only at applies
      obtain ⟨revenueGrowth, _, applies⟩ := Option.bind_eq_some_iff.mp applies
      obtain ⟨earningsGrowth, _, applies⟩ := Option.bind_eq_some_iff.mp applies
      cases applies
      unfold servedFigure
      rw [here]
      cases field <;>
        simp [Served.figure, SourceField.name, number_setIfNumber, number_replace, ratios, latestCells]

end Figures

end C3po.Overlays.Fieldwise
