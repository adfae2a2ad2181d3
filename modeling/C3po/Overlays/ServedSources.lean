import C3po.Overlays.TrueSources

/-! The reported source of a served fundamental is the true one. -/

set_option autoImplicit false

namespace C3po.Overlays.Fieldwise

open Library Library.Calendar

section Growth
variable {base others official filed : List QuarterRow} {column : String}

/-- The year before has no such day. -/
def Leaps (day : Day) : Prop := ((civil day).2.1 = 2 ∧ (civil day).2.2 = 29) ∨ (civil day).1 = 1

instance (day : Day) : Decidable (Leaps day) := inferInstanceAs (Decidable (_ ∨ _))

theorem yoyGrowth_isSome (rows : List Dated) (column : String) :
    (yoyGrowth rows column).isSome = !rows.head?.any fun row => (number row.2 column).isSome && decide (Leaps row.1) := by
  unfold yoyGrowth
  cases rows with
  | nil => rfl
  | cons latest rest =>
    rw [List.head?_cons, Option.any_some]
    dsimp only
    cases number latest.2 column with
    | none => rfl
    | some value =>
      rw [Option.isSome_some, Bool.true_and]
      dsimp only
      by_cases leaps : Leaps latest.1
      · rw [decide_eq_true leaps]
        unfold Leaps at leaps
        rw [if_pos leaps]
        rfl
      · rw [decide_eq_false leaps]
        unfold Leaps at leaps
        rw [if_neg leaps]
        rfl

theorem yoyGrowth_alike (one : OneEach base) (other : OneEach official) (first : AlikeRows base others) (second : AlikeRows official filed) :
    (yoyGrowth (mergeRowsFieldwise base official) column).isSome = (yoyGrowth (mergeRowsFieldwise others filed) column).isSome := by
  rw [yoyGrowth_isSome, yoyGrowth_isSome, head_merged one other, head_merged (one.alike first) (other.alike second),
    ← periods_merged first.dates second.dates]
  cases ((mergeRowsFieldwise base official).map Prod.fst).head? with
  | none => rfl
  | some period =>
    have same : (number (mergedAt base official period) column).isSome = (number (mergedAt others filed period) column).isSome :=
      (alike_mergedAt first second period column).number
    show (!((number (mergedAt base official period) column).isSome && decide (Leaps period))) =
      !((number (mergedAt others filed period) column).isSome && decide (Leaps period))
    rw [same]

end Growth

section Serving
variable {fundamentals other : Fundamentals} {overlay again : Option OfficialOverlay} {field : SourceField}

theorem overlaid_isSome (fundamentals : Fundamentals) (official : OfficialOverlay) (period : Day) :
    (overlaid fundamentals official period).isSome =
      ((yoyGrowth (mergeRowsFieldwise fundamentals.quarterlyIncome official.quarterlyIncome) "totalRevenue").isSome &&
        (yoyGrowth (mergeRowsFieldwise fundamentals.quarterlyIncome official.quarterlyIncome) "netIncome").isSome) := by
  unfold overlaid
  dsimp only
  cases yoyGrowth (mergeRowsFieldwise fundamentals.quarterlyIncome official.quarterlyIncome) "totalRevenue" with
  | none => rfl
  | some growth => cases yoyGrowth (mergeRowsFieldwise fundamentals.quarterlyIncome official.quarterlyIncome) "netIncome" <;> rfl

theorem appliedPeriod_alike (same : fundamentals.financialsAsOf = other.financialsAsOf) (alike : AlikeOverlays overlay again) :
    appliedPeriod fundamentals overlay = appliedPeriod other again := by
  unfold appliedPeriod
  cases alike with
  | none => rfl
  | some alike => rw [Option.bind_some, Option.bind_some, alike.asOf, same]

theorem served_alike (regular : Regular fundamentals overlay) (same : fundamentals.financialsAsOf = other.financialsAsOf)
    (income : AlikeRows fundamentals.quarterlyIncome other.quarterlyIncome) (alike : AlikeOverlays overlay again) :
    (applyOfficialStatements fundamentals overlay).isSome = (applyOfficialStatements other again).isSome := by
  unfold applyOfficialStatements
  rw [← appliedPeriod_alike same alike]
  cases alike with
  | none => cases appliedPeriod fundamentals none <;> rfl
  | @some official _ alike =>
    cases appliedPeriod fundamentals (some official) with
    | none => rfl
    | some period =>
      dsimp only
      have one := regular.income
      have own := regular.officialIncome official rfl
      rw [overlaid_isSome, overlaid_isSome, yoyGrowth_alike one own income alike.income, yoyGrowth_alike one own income alike.income]

theorem AlikeOverlays.refl : ∀ overlay : Option OfficialOverlay, AlikeOverlays overlay overlay
  | none => .none
  | some official => .some ⟨rfl, rfl, rfl, .refl _, .refl _, .refl _, .inl rfl⟩

theorem figure_congr (there : (applyOfficialStatements fundamentals overlay).isSome = (applyOfficialStatements other again).isSome)
    (same : servedFigure fundamentals overlay field = servedFigure other again field) :
    (applyOfficialStatements fundamentals overlay).map (Served.figure · field) =
      (applyOfficialStatements other again).map (Served.figure · field) := by
  cases first : applyOfficialStatements fundamentals overlay with
  | none =>
    rw [first] at there
    rw [Option.isSome_eq_false_iff.mp there.symm |> Option.isNone_iff_eq_none.mp]
  | some served =>
    rw [first] at there
    obtain ⟨more, second⟩ := Option.isSome_iff_exists.mp there.symm
    rw [second, Option.map_some, Option.map_some, figure_served first, figure_served second, same]

theorem year_of_served {value : ℚ} (served : servedFigure fundamentals overlay field = some value) :
    ((field = .totalRevenue ∨ field = .ebitda) → number fundamentals.figures field.name = some value ∨
      ∃ official, applying fundamentals overlay = some official ∧
        IsYear (mergeRowsFieldwise fundamentals.quarterlyIncome official.quarterlyIncome) field.name false value) ∧
    ∀ key : CashFlowKey, field.name = key.name → ∃ official,
      (official = [] ∨ ∃ applied, overlay = some applied ∧ official = applied.quarterlyCashFlow) ∧
        IsYear (mergeRowsFieldwise fundamentals.quarterlyCashFlow official) key.column false value := by
  constructor
  · intro yearly
    cases applies : applying fundamentals overlay with
    | none =>
      unfold servedFigure at served
      rw [applies] at served
      rcases yearly with rfl | rfl <;> exact .inl served
    | some official =>
      unfold servedFigure at served
      rw [applies] at served
      have chosen : ∀ (sum own : Option ℚ), sum.or own = some value → sum = some value ∨ own = some value := by
        intro sum own picked
        cases sum with
        | none => exact .inr picked
        | some sum => exact .inl picked
      rcases yearly with rfl | rfl
      · rcases chosen _ _ served with summed | own
        · exact .inr ⟨official, rfl, year_of_completeTtm summed⟩
        · exact .inl own
      · rcases chosen _ _ served with summed | own
        · exact .inr ⟨official, rfl, year_of_completeTtm summed⟩
        · exact .inl own
  · intro key same
    cases key with
    | operatingCashflow =>
      obtain rfl : field = .operatingCashflow := by
        cases field <;> first | rfl | exact absurd same (by decide)
      exact resolveCashFlow_year served
    | freeCashflow =>
      obtain rfl : field = .freeCashflow := by
        cases field <;> first | rfl | exact absurd same (by decide)
      exact resolveCashFlow_year served

/-- Of every field that is served: what is reported as official does not change with the provider's
numbers, nor what is the provider's with the official ones; absent is what is not served; and a
trailing year is the sum over four consecutive quarters, always so for a cash flow. -/
theorem fieldwise_sources_true (fundamentals : Fundamentals) (overlay : Option OfficialOverlay) (regular : Regular fundamentals overlay)
    (field : SourceField) (top : field ≠ .netIncome) :
    (∀ other, AlikeFundamentals fundamentals other → fieldwiseSources fundamentals overlay field = .official →
      fieldwiseSources other overlay field = .official →
        (applyOfficialStatements fundamentals overlay).map (Served.figure · field) =
          (applyOfficialStatements other overlay).map (Served.figure · field)) ∧
    (∀ again, AlikeOverlays overlay again → fieldwiseSources fundamentals overlay field = .provider →
      fieldwiseSources fundamentals again field = .provider →
        (applyOfficialStatements fundamentals overlay).map (Served.figure · field) =
          (applyOfficialStatements fundamentals again).map (Served.figure · field)) ∧
    ∀ served, applyOfficialStatements fundamentals overlay = some served →
      (fieldwiseSources fundamentals overlay field = .absent ↔ served.figure field = none) ∧
      ∀ value, served.figure field = some value →
        ((field = .totalRevenue ∨ field = .ebitda) → number fundamentals.figures field.name = some value ∨
          ∃ official, applying fundamentals overlay = some official ∧
            IsYear (mergeRowsFieldwise fundamentals.quarterlyIncome official.quarterlyIncome) field.name false value) ∧
        ∀ key : CashFlowKey, field.name = key.name → ∃ official,
          (official = [] ∨ ∃ applied, overlay = some applied ∧ official = applied.quarterlyCashFlow) ∧
            IsYear (mergeRowsFieldwise fundamentals.quarterlyCashFlow official) key.column false value := by
  refine ⟨fun other alike source also => ?_, fun again alike source also => ?_, fun served applies => ⟨?_, fun value found => ?_⟩⟩
  · exact figure_congr (served_alike regular alike.financialsAsOf alike.income (.refl overlay)) (official_stable regular alike top source also)
  · exact figure_congr (served_alike regular rfl (.refl _) alike) (provider_stable regular alike top source also)
  · rw [figure_served applies]
    exact absent_iff top
  · rw [figure_served applies] at found
    exact year_of_served found

end Serving

section Witness

private def row (day : Day) (value : ℚ) : QuarterRow := ⟨some day, fun key => if key = "totalRevenue" then some (some value) else none⟩

private def quarters (value : ℚ) : List QuarterRow :=
  [row (ofCivil 2024 12 31) value, row (ofCivil 2024 9 30) value, row (ofCivil 2024 6 30) value, row (ofCivil 2024 3 31) value]

private def given (value : ℚ) : Fundamentals := ⟨none, none, quarters value, [], [], [], [], nothing⟩

private def filing (value : ℚ) : OfficialOverlay := ⟨some (ofCivil 2024 12 31), none, none, quarters value, [], [], none⟩

private theorem quarters_oneEach (value : ℚ) : OneEach (quarters value) := by
  show [ofCivil 2024 12 31, ofCivil 2024 9 30, ofCivil 2024 6 30, ofCivil 2024 3 31].Nodup
  decide +kernel

private theorem none_oneEach : OneEach [] := List.nodup_nil

private theorem given_regular : Regular (given 1) (some (filing 5)) where
  income := quarters_oneEach 1
  cashFlow := none_oneEach
  balance := none_oneEach
  officialIncome := by rintro _ ⟨⟩; exact quarters_oneEach 5
  officialCashFlow := by rintro _ ⟨⟩; exact none_oneEach
  officialBalance := by rintro _ ⟨⟩; exact none_oneEach

private theorem given_alike : AlikeFundamentals (given 1) (given 2) where
  financialsAsOf := rfl
  updatedAt := rfl
  income := by
    have each : ∀ day : Day, (row day 1).date = (row day 2).date ∧ AlikeCells (row day 1).cells (row day 2).cells := by
      refine fun day => ⟨rfl, fun key => ?_⟩
      by_cases revenue : key = "totalRevenue"
      · exact .inr ⟨1, 2, if_pos revenue, if_pos revenue, by decide, by decide⟩
      · exact .inl ((if_neg revenue).trans (if_neg revenue).symm)
    exact .cons (each _) (.cons (each _) (.cons (each _) (.cons (each _) .nil)))
  cashFlow := .nil
  balance := .nil
  annual := .nil
  yearly := .nil
  figures := fun _ => .inl rfl

/-- Four filed quarters of revenue: their sum, whatever the provider gives. -/
theorem fieldwise_sources_true_filed :
    (applyOfficialStatements (given 1) (some (filing 5))).map (Served.figure · .totalRevenue) = some (some 20) ∧
    (applyOfficialStatements (given 1) (some (filing 5))).map (Served.figure · .totalRevenue) =
      (applyOfficialStatements (given 2) (some (filing 5))).map (Served.figure · .totalRevenue) :=
  ⟨by decide +kernel, (fieldwise_sources_true (given 1) (some (filing 5)) given_regular .totalRevenue (by decide)).1 (given 2) given_alike
    (by decide +kernel) (by decide +kernel)⟩

end Witness

end C3po.Overlays.Fieldwise
