import C3po.Overlays.FieldSources

/-! Each reported source, and what it says of the figure that is served. -/

set_option autoImplicit false

namespace C3po.Overlays.Fieldwise

open Library Library.Calendar

section Ttm
variable {fundamentals other : Fundamentals} {base others official filed : List QuarterRow} {column : String} {magnitude : Bool}
  {field : SourceField}

theorem sourceOf_official {count : ℕ} : sourceOf count = .official ↔ count = 4 := by
  unfold sourceOf
  split
  · simp [*]
  · split <;> simp [*]

theorem sourceOf_provider {count : ℕ} : sourceOf count = .provider ↔ count = 0 := by
  unfold sourceOf
  split
  · simp [*]
  · split <;> simp [*]

theorem sourceOf_absent (count : ℕ) : sourceOf count ≠ .absent := by
  unfold sourceOf
  split
  · decide
  · split <;> decide

theorem fallback_official : fallback fundamentals field ≠ .official := by
  have never : ∀ provided : Bool, (if provided then Source.provider else Source.absent) ≠ .official := by decide
  exact never _

theorem fallback_absent (top : field ≠ .netIncome) (own : field ≠ .capexTtm) :
    fallback fundamentals field = .absent ↔ number fundamentals.figures field.name = none := by
  unfold fallback
  cases field
  case netIncome => exact absurd rfl top
  case capexTtm => exact absurd rfl own
  all_goals
    dsimp only
    rw [← Option.not_isSome_iff_eq_none]
    split <;> simp [*]

theorem ttmSource_official (source : ttmSource fundamentals base official column magnitude field = .official) :
    (completeTtm (mergeRowsFieldwise base official) column magnitude).isSome ∧ carried (mergeRowsFieldwise base official) official column = 4 := by
  unfold ttmSource at source
  dsimp only at source
  split at source
  · exact absurd source fallback_official
  · rename_i there
    exact ⟨by simpa [Option.isSome_iff_ne_none] using there, sourceOf_official.mp source⟩

theorem ttmSource_provider (source : ttmSource fundamentals base official column magnitude field = .provider) :
    (completeTtm (mergeRowsFieldwise base official) column magnitude).isNone = true ∨
      carried (mergeRowsFieldwise base official) official column = 0 := by
  unfold ttmSource at source
  dsimp only at source
  split at source
  · rename_i there
    exact .inl there
  · exact .inr (sourceOf_provider.mp source)

theorem ttmSource_absent : ttmSource fundamentals base official column magnitude field = .absent ↔
    completeTtm (mergeRowsFieldwise base official) column magnitude = none ∧ fallback fundamentals field = .absent := by
  unfold ttmSource
  dsimp only
  split
  · rename_i there
    rw [Option.isNone_iff_eq_none] at there
    simp [there]
  · rename_i there
    rw [Option.isNone_iff_eq_none] at there
    exact ⟨fun source => absurd source (sourceOf_absent _), fun both => absurd both.1 there⟩

theorem ttm_provider (one : OneEach base) (other : OneEach official) (alike : AlikeRows official filed)
    (source : ttmSource fundamentals base official column magnitude field = .provider) (own : Option ℚ) :
    (completeTtm (mergeRowsFieldwise base official) column magnitude).or own =
      (completeTtm (mergeRowsFieldwise base filed) column magnitude).or own := by
  have same : (completeTtm (mergeRowsFieldwise base official) column magnitude).isNone = _ :=
    completeTtm_alike one other one (other.alike alike) (.refl base) alike
  rcases ttmSource_provider source with absent | nowhere
  · rw [Option.isNone_iff_eq_none.mp absent, Option.isNone_iff_eq_none.mp (same.symm.trans absent)]
  · rw [completeTtm_provider one other (other.alike alike) alike nowhere]

theorem ttm_official (one : OneEach base) (other : OneEach official) (alike : AlikeRows base others)
    (source : ttmSource fundamentals base official column magnitude field = .official) (own another : Option ℚ) :
    (completeTtm (mergeRowsFieldwise base official) column magnitude).or own =
      (completeTtm (mergeRowsFieldwise others official) column magnitude).or another := by
  obtain ⟨there, all⟩ := ttmSource_official source
  rw [← completeTtm_official one (one.alike alike) other alike all]
  obtain ⟨value, found⟩ := Option.isSome_iff_exists.mp there
  rw [found]
  rfl

end Ttm

section Balance
variable {fundamentals : Fundamentals} {base others official filed : List QuarterRow} {columns : List String} {field : SourceField}

def chosenColumn (cells : Cells) (columns : List String) : String :=
  (columns.find? fun column => ((number cells column).filter (· ≠ 0)).isSome).getD (columns.getLastD "")

theorem chosenColumn_congr {cells another : Cells} (alike : AlikeCells cells another) : chosenColumn cells columns = chosenColumn another columns := by
  unfold chosenColumn
  have same : (fun column => ((number cells column).filter (· ≠ 0)).isSome) = fun column => ((number another column).filter (· ≠ 0)).isSome :=
    funext fun column => (alike column).nonzero
  rw [same]

theorem number_chosen_one (cells : Cells) (column : String) : number cells (chosenColumn cells [column]) = number cells column := by
  unfold chosenColumn
  rw [List.find?_singleton]
  split <;> rfl

/-- The first column with a number other than zero, else the last: `a or b`. -/
theorem number_chosen_two (cells : Cells) (first second : String) :
    number cells (chosenColumn cells [first, second]) = orElse (number cells first) (number cells second) := by
  unfold chosenColumn orElse
  rw [List.find?_cons]
  cases found : (number cells first).filter (· ≠ 0) with
  | some value =>
    have own := (Option.filter_eq_some_iff.mp found).1
    simpa using own
  | none =>
    rw [List.find?_singleton]
    simp only [Option.isSome_none, Option.none_or]
    split <;> rfl

theorem head_merged (one : OneEach base) (other : OneEach official) : (mergeRowsFieldwise base official).head? =
    ((mergeRowsFieldwise base official).map Prod.fst).head?.map fun period => (period, mergedAt base official period) := by
  conv_lhs => rw [merged_eq one other]
  rw [List.head?_map]
  rfl

theorem latestCells_eq (one : OneEach base) (other : OneEach official) : latestCells base official =
    (((mergeRowsFieldwise base official).map Prod.fst).head?.map (mergedAt base official)).getD nothing := by
  unfold latestCells
  rw [head_merged one other, Option.map_map]
  rfl

theorem alike_latestCells (one : OneEach base) (other : OneEach official) (first : AlikeRows base others) (second : AlikeRows official filed) :
    AlikeCells (latestCells base official) (latestCells others filed) := by
  rw [latestCells_eq one other, latestCells_eq (one.alike first) (other.alike second), periods_merged first.dates second.dates]
  cases ((mergeRowsFieldwise others filed).map Prod.fst).head? with
  | none => exact fun _ => .inl rfl
  | some period => exact alike_mergedAt first second period

def latestOfficial (base official : List QuarterRow) (column : String) : Bool :=
  ((mergeRowsFieldwise base official).map Prod.fst).head?.any fun period => (officialAt official period column).isSome

theorem balanceSource_eq : balanceSource fundamentals base official columns field =
    if (number (latestCells base official) (chosenColumn (latestCells base official) columns)).isNone then fallback fundamentals field
    else if latestOfficial base official (chosenColumn (latestCells base official) columns) then .official else .provider := by
  unfold balanceSource latestOfficial
  rw [List.head?_map, Option.any_map]
  rfl

theorem balance_official (one : OneEach base) (other : OneEach official) (alike : AlikeRows base others)
    (source : balanceSource fundamentals base official columns field = .official) (own another : Option ℚ) :
    (number (latestCells base official) (chosenColumn (latestCells base official) columns)).or own =
      (number (latestCells others official) (chosenColumn (latestCells others official) columns)).or another := by
  have cells := alike_latestCells one other alike (.refl official)
  rw [balanceSource_eq] at source
  rw [← chosenColumn_congr cells]
  generalize chosenColumn (latestCells base official) columns = column at source ⊢
  split at source
  · exact absurd source fallback_official
  · rename_i there
    split at source
    · rename_i carries
      have same : number (latestCells base official) column = number (latestCells others official) column := by
        unfold latestOfficial at carries
        obtain ⟨period, first, carries⟩ := (Option.any_eq_true _ _).mp carries
        obtain ⟨cell, found⟩ := Option.isSome_iff_exists.mp carries
        rw [latestCells_eq one other, latestCells_eq (one.alike alike) other, ← periods_merged alike.dates (rfl : (dated official).map Prod.fst = _), first]
        show (overwrite _ _ column).join = (overwrite _ _ column).join
        unfold overwrite
        rw [found]
        rfl
      rw [← same]
      cases found : number (latestCells base official) column with
      | none =>
        rw [found] at there
        exact absurd rfl there
      | some value => rfl
    · cases source

theorem balance_provider (one : OneEach base) (other : OneEach official) (alike : AlikeRows official filed)
    (source : balanceSource fundamentals base official columns field = .provider) (own : Option ℚ) :
    (number (latestCells base official) (chosenColumn (latestCells base official) columns)).or own =
      (number (latestCells base filed) (chosenColumn (latestCells base filed) columns)).or own := by
  have cells := alike_latestCells one other (.refl base) alike
  rw [balanceSource_eq] at source
  rw [← chosenColumn_congr cells]
  generalize chosenColumn (latestCells base official) columns = column at source ⊢
  have there := (cells column).number
  split at source
  · rename_i absent
    have first : number (latestCells base official) column = none := Option.isNone_iff_eq_none.mp absent
    have second : number (latestCells base filed) column = none := by
      rw [← Option.not_isSome_iff_eq_none]
      show ¬(latestCells base filed column).join.isSome = true
      rw [← there]
      exact Option.not_isSome_iff_eq_none.mpr first
    rw [first, second]
  · split at source
    · cases source
    · rename_i carries
      have same : number (latestCells base official) column = number (latestCells base filed) column := by
        rw [latestCells_eq one other, latestCells_eq one (other.alike alike),
          ← periods_merged (rfl : (dated base).map Prod.fst = _) alike.dates]
        unfold latestOfficial at carries
        cases first : ((mergeRowsFieldwise base official).map Prod.fst).head? with
        | none => rfl
        | some period =>
          rw [first, Option.any_some] at carries
          have absent : officialAt official period column = none := Option.not_isSome_iff_eq_none.mp carries
          have also : officialAt filed period column = none := by
            rw [← Option.not_isSome_iff_eq_none, ← (alike_officialAt alike period column).isSome]
            exact carries
          show (overwrite _ _ column).join = (overwrite _ _ column).join
          unfold overwrite
          rw [absent, also]
      rw [same]

theorem balanceSource_absent : balanceSource fundamentals base official columns field = .absent ↔
    number (latestCells base official) (chosenColumn (latestCells base official) columns) = none ∧ fallback fundamentals field = .absent := by
  rw [balanceSource_eq]
  split
  · rename_i there
    rw [Option.isNone_iff_eq_none] at there
    simp [there]
  · rename_i there
    rw [Option.isNone_iff_eq_none] at there
    constructor
    · intro source
      split at source <;> cases source
    · exact fun both => absurd both.1 there

end Balance

section CashFlow
variable {fundamentals other : Fundamentals} {overlay again : Option OfficialOverlay} {key : CashFlowKey}

/-- The rows of a cash flow that serve: one each, on both sides. -/
structure Regular (fundamentals : Fundamentals) (overlay : Option OfficialOverlay) : Prop where
  income : OneEach fundamentals.quarterlyIncome
  cashFlow : OneEach fundamentals.quarterlyCashFlow
  balance : OneEach fundamentals.quarterlyBalance
  officialIncome : ∀ official, overlay = some official → OneEach official.quarterlyIncome
  officialCashFlow : ∀ official, overlay = some official → OneEach official.quarterlyCashFlow
  officialBalance : ∀ official, overlay = some official → OneEach official.quarterlyBalance

theorem overlay_of_applying {official : OfficialOverlay} (applies : applying fundamentals overlay = some official) : overlay = some official :=
  (Option.filter_eq_some_iff.mp applies).1

theorem appliedPeriod_congr (same : fundamentals.financialsAsOf = other.financialsAsOf) : applying fundamentals overlay = applying other overlay := by
  unfold applying appliedPeriod
  rw [same]

theorem applying_alike {official filed : OfficialOverlay} (alike : AlikeOverlay official filed)
    (applies : applying fundamentals (some official) = some official) : applying fundamentals (some filed) = some filed := by
  unfold applying at applies ⊢
  have there := (Option.filter_eq_some_iff.mp applies).2
  refine Option.filter_eq_some_iff.mpr ⟨rfl, ?_⟩
  unfold appliedPeriod at there ⊢
  rw [Option.bind_some] at there ⊢
  rw [← alike.asOf]
  exact there

theorem providerCashFlow_source (fundamentals : Fundamentals) (column : String) :
    (providerCashFlow fundamentals column).2.1 ≠ .official ∧
      ((providerCashFlow fundamentals column).2.1 = .absent ↔ (providerCashFlow fundamentals column).1 = none) := by
  unfold providerCashFlow
  split
  · exact ⟨by simp, by simp⟩
  · exact ⟨by simp, by simp⟩

theorem resolveCashFlow_cases (fundamentals : Fundamentals) (overlay : Option OfficialOverlay) (key : CashFlowKey) :
    ((∀ official, applying fundamentals overlay = some official →
        completeTtm (mergeRowsFieldwise fundamentals.quarterlyCashFlow official.quarterlyCashFlow) key.column false = none) ∧
      resolveCashFlow fundamentals overlay key = providerCashFlow fundamentals key.column) ∨
    ∃ official value, applying fundamentals overlay = some official ∧
      completeTtm (mergeRowsFieldwise fundamentals.quarterlyCashFlow official.quarterlyCashFlow) key.column false = some value ∧
      resolveCashFlow fundamentals overlay key =
        let count := carried (mergeRowsFieldwise fundamentals.quarterlyCashFlow official.quarterlyCashFlow) official.quarterlyCashFlow key.column
        let status := (providerCashFlowTtm fundamentals key.column).2
        if count = 4 then (some value, .official, none)
        else if status.untrusted then (none, .absent, some status)
        else (some value, sourceOf count, none) := by
  unfold resolveCashFlow
  split
  · rename_i idle
    exact .inl ⟨fun official applies => (nomatch idle.symm.trans applies), rfl⟩
  · rename_i official applies
    dsimp only
    split
    · rename_i absent
      refine .inl ⟨fun another also => ?_, rfl⟩
      cases applies.symm.trans also
      exact absent
    · rename_i value found
      exact .inr ⟨official, value, applies, found, rfl⟩

theorem resolveCashFlow_absent : (resolveCashFlow fundamentals overlay key).2.1 = .absent ↔ (resolveCashFlow fundamentals overlay key).1 = none := by
  rcases resolveCashFlow_cases fundamentals overlay key with ⟨_, same⟩ | ⟨official, value, _, _, same⟩
  · rw [same]
    exact (providerCashFlow_source fundamentals key.column).2
  · rw [same]
    dsimp only
    split
    · simp
    · split
      · simp
      · simp [sourceOf_absent]

theorem resolveCashFlow_official (regular : Regular fundamentals overlay) (alike : AlikeFundamentals fundamentals other)
    (source : (resolveCashFlow fundamentals overlay key).2.1 = .official) :
    (resolveCashFlow fundamentals overlay key).1 = (resolveCashFlow other overlay key).1 := by
  rcases resolveCashFlow_cases fundamentals overlay key with ⟨_, same⟩ | ⟨official, value, applies, found, same⟩
  · rw [same] at source
    exact absurd source (providerCashFlow_source fundamentals key.column).1
  · have own := regular.officialCashFlow official (overlay_of_applying applies)
    rw [same] at source ⊢
    dsimp only at source ⊢
    split at source
    · rename_i all
      rw [if_pos all]
      have there := @completeTtm_official _ _ _ key.column false regular.cashFlow (regular.cashFlow.alike alike.cashFlow) own alike.cashFlow all
      have count := @carried_alike _ _ _ _ key.column regular.cashFlow own (regular.cashFlow.alike alike.cashFlow) own alike.cashFlow (.refl _)
      unfold resolveCashFlow
      rw [← appliedPeriod_congr alike.financialsAsOf, applies]
      dsimp only
      rw [← there, found, ← count]
      dsimp only
      rw [if_pos all]
    · split at source
      · cases source
      · rename_i few _
        exact absurd (sourceOf_official.mp source) few

theorem resolveCashFlow_provider {official filed : OfficialOverlay} (regular : Regular fundamentals (some official))
    (alike : AlikeOverlay official filed) (source : (resolveCashFlow fundamentals (some official) key).2.1 = .provider) :
    (resolveCashFlow fundamentals (some official) key).1 = (resolveCashFlow fundamentals (some filed) key).1 := by
  have own := regular.officialCashFlow official rfl
  have theirs := own.alike alike.cashFlow
  have absences := @completeTtm_alike fundamentals.quarterlyCashFlow _ _ _ key.column false regular.cashFlow own regular.cashFlow theirs
    (.refl _) alike.cashFlow
  rcases resolveCashFlow_cases fundamentals (some official) key with ⟨absent, same⟩ | ⟨_, value, applies, found, same⟩
  · rw [same]
    rcases resolveCashFlow_cases fundamentals (some filed) key with ⟨_, also⟩ | ⟨_, value, applies, found, _⟩
    · rw [also]
    · cases overlay_of_applying applies
      have back : applying fundamentals (some official) = some official := by
        unfold applying at applies ⊢
        have there := (Option.filter_eq_some_iff.mp applies).2
        refine Option.filter_eq_some_iff.mpr ⟨rfl, ?_⟩
        unfold appliedPeriod at there ⊢
        rw [Option.bind_some] at there ⊢
        rw [alike.asOf]
        exact there
      rw [absent official back, found] at absences
      cases absences
  · cases overlay_of_applying applies
    rw [same] at source ⊢
    dsimp only at source ⊢
    split at source
    · cases source
    · rename_i few
      split at source
      · cases source
      · rename_i trusted
        have nowhere := sourceOf_provider.mp source
        have there := @completeTtm_provider _ _ _ key.column false regular.cashFlow own theirs alike.cashFlow nowhere
        have count := @carried_alike fundamentals.quarterlyCashFlow _ _ _ key.column regular.cashFlow own regular.cashFlow theirs (.refl _)
          alike.cashFlow
        rw [if_neg few, if_neg trusted]
        unfold resolveCashFlow
        rw [applying_alike alike applies]
        dsimp only
        rw [← there, found, ← count]
        dsimp only
        rw [if_neg few, if_neg trusted]

theorem resolveCashFlow_year {value : ℚ} (served : (resolveCashFlow fundamentals overlay key).1 = some value) :
    ∃ official, (official = [] ∨ ∃ applied, overlay = some applied ∧ official = applied.quarterlyCashFlow) ∧
      IsYear (mergeRowsFieldwise fundamentals.quarterlyCashFlow official) key.column false value := by
  rcases resolveCashFlow_cases fundamentals overlay key with ⟨_, same⟩ | ⟨official, sum, applies, found, same⟩
  · rw [same] at served
    refine ⟨[], .inl rfl, ?_⟩
    have own : (providerCashFlowTtm fundamentals key.column).1 = some value := by
      unfold providerCashFlow at served
      split at served <;> rename_i ttm <;> rw [ttm]
      · exact served
      · cases served
    apply year_of_completeTtm
    unfold providerCashFlowTtm at own
    dsimp only at own
    split at own
    · cases own
    · rename_i sum complete
      split at own
      · cases own
      · split at own
        · split at own
          · cases own
          · split at own
            · cases own
            · cases own
              exact complete
        · cases own
          exact complete
  · refine ⟨official.quarterlyCashFlow, .inr ⟨official, overlay_of_applying applies, rfl⟩, ?_⟩
    rw [same] at served
    dsimp only at served
    split at served
    · cases served
      exact year_of_completeTtm found
    · split at served
      · cases served
      · cases served
        exact year_of_completeTtm found

end CashFlow

section Reported
variable {fundamentals other : Fundamentals} {overlay again : Option OfficialOverlay} {field : SourceField}

def AlikeOverlays : Option OfficialOverlay → Option OfficialOverlay → Prop := Option.Rel AlikeOverlay

theorem shares_official {official : OfficialOverlay} (there : (officialShares fundamentals official).isSome) :
    officialShares fundamentals official = official.sharesOutstanding.join ∧ ∀ own, (orElse (officialShares fundamentals official) own) =
      official.sharesOutstanding.join := by
  obtain ⟨shares, found⟩ := Option.isSome_iff_exists.mp there
  have inner := (Option.filter_eq_some_iff.mp found).1
  obtain ⟨raw, nonzero⟩ := Option.filter_eq_some_iff.mp inner
  refine ⟨found.trans raw.symm, fun own => ?_⟩
  unfold orElse
  rw [found, raw, Option.filter_some, if_pos nonzero]
  rfl

theorem official_stable (regular : Regular fundamentals overlay) (alike : AlikeFundamentals fundamentals other) (top : field ≠ .netIncome)
    (source : fieldwiseSources fundamentals overlay field = .official) (also : fieldwiseSources other overlay field = .official) :
    servedFigure fundamentals overlay field = servedFigure other overlay field := by
  have same := @appliedPeriod_congr _ _ overlay alike.financialsAsOf
  unfold fieldwiseSources at source also
  unfold servedFigure
  rw [← same] at also ⊢
  cases applies : applying fundamentals overlay with
  | none =>
    rw [applies] at source
    cases field
    case operatingCashflow => exact resolveCashFlow_official regular alike source
    case freeCashflow => exact resolveCashFlow_official regular alike source
    all_goals exact absurd source fallback_official
  | some official =>
    rw [applies] at source also
    have given := overlay_of_applying applies
    cases field
    case netIncome => exact absurd rfl top
    case operatingCashflow => exact resolveCashFlow_official regular alike source
    case freeCashflow => exact resolveCashFlow_official regular alike source
    case totalRevenue => exact ttm_official regular.income (regular.officialIncome _ given) alike.income source _ _
    case ebitda => exact ttm_official regular.income (regular.officialIncome _ given) alike.income source _ _
    case capexTtm =>
      have equal := ttm_official regular.cashFlow (regular.officialCashFlow _ given) alike.cashFlow source none none
      rwa [Option.or_none, Option.or_none] at equal
    case totalCash =>
      have equal := balance_official regular.balance (regular.officialBalance _ given) alike.balance source
      simp only [number_chosen_one] at equal
      exact equal _ _
    case totalDebt =>
      have equal := balance_official regular.balance (regular.officialBalance _ given) alike.balance source
      simp only [number_chosen_one] at equal
      exact equal _ _
    case totalEquity =>
      have equal := balance_official regular.balance (regular.officialBalance _ given) alike.balance source
      simp only [number_chosen_two] at equal
      exact equal _ _
    case sharesOutstanding =>
      dsimp only at source also ⊢
      split at source
      · rename_i here
        split at also
        · rename_i there
          rw [(shares_official here).2, (shares_official there).2]
          obtain ⟨shares, found⟩ := Option.isSome_iff_exists.mp here
          rw [(shares_official here).1] at found
          rw [found]
          rfl
        · exact absurd also fallback_official
      · exact absurd source fallback_official

theorem shares_provider {official filed : OfficialOverlay}
    (source : (if (officialShares fundamentals official).isSome then Source.official else fallback fundamentals .sharesOutstanding) = .provider)
    (also : (if (officialShares fundamentals filed).isSome then Source.official else fallback fundamentals .sharesOutstanding) = .provider) :
    officialShares fundamentals official = officialShares fundamentals filed := by
  split at source
  · cases source
  · split at also
    · cases also
    · rename_i here there
      rw [Option.not_isSome_iff_eq_none.mp here, Option.not_isSome_iff_eq_none.mp there]

theorem idle_alike {official filed : OfficialOverlay} (alike : AlikeOverlay official filed)
    (idle : applying fundamentals (some official) = none) : applying fundamentals (some filed) = none := by
  cases applies : applying fundamentals (some filed) with
  | none => rfl
  | some applied =>
    cases overlay_of_applying applies
    rw [applying_alike alike.symm applies] at idle
    cases idle

theorem provider_stable (regular : Regular fundamentals overlay) (alike : AlikeOverlays overlay again) (top : field ≠ .netIncome)
    (source : fieldwiseSources fundamentals overlay field = .provider) (also : fieldwiseSources fundamentals again field = .provider) :
    servedFigure fundamentals overlay field = servedFigure fundamentals again field := by
  cases alike with
  | none => rfl
  | @some official filed alike =>
    unfold fieldwiseSources at source also
    unfold servedFigure
    cases applies : applying fundamentals (some official) with
    | none =>
      rw [idle_alike alike applies]
      rw [applies] at source
      cases field
      case operatingCashflow => exact resolveCashFlow_provider regular alike source
      case freeCashflow => exact resolveCashFlow_provider regular alike source
      all_goals rfl
    | some applied =>
      cases overlay_of_applying applies
      rw [applying_alike alike applies] at also ⊢
      rw [applies] at source
      have income := regular.officialIncome official rfl
      have cashFlow := regular.officialCashFlow official rfl
      have balance := regular.officialBalance official rfl
      cases field
      case netIncome => exact absurd rfl top
      case operatingCashflow => exact resolveCashFlow_provider regular alike source
      case freeCashflow => exact resolveCashFlow_provider regular alike source
      case totalRevenue => exact ttm_provider regular.income income alike.income source _
      case ebitda => exact ttm_provider regular.income income alike.income source _
      case capexTtm =>
        have equal := ttm_provider regular.cashFlow cashFlow alike.cashFlow source none
        rwa [Option.or_none, Option.or_none] at equal
      case totalCash =>
        have equal := balance_provider regular.balance balance alike.balance source
        simp only [number_chosen_one] at equal
        exact equal _
      case totalDebt =>
        have equal := balance_provider regular.balance balance alike.balance source
        simp only [number_chosen_one] at equal
        exact equal _
      case totalEquity =>
        have equal := balance_provider regular.balance balance alike.balance source
        simp only [number_chosen_two] at equal
        exact equal _
      case sharesOutstanding =>
        dsimp only at source also ⊢
        rw [shares_provider source also]

theorem absent_iff (top : field ≠ .netIncome) :
    fieldwiseSources fundamentals overlay field = .absent ↔ servedFigure fundamentals overlay field = none := by
  unfold fieldwiseSources servedFigure
  cases applies : applying fundamentals overlay with
  | none =>
    cases field
    case netIncome => exact absurd rfl top
    case operatingCashflow => exact resolveCashFlow_absent
    case freeCashflow => exact resolveCashFlow_absent
    case capexTtm => exact ⟨fun _ => rfl, fun _ => rfl⟩
    all_goals exact fallback_absent top (fun never => nomatch never)
  | some official =>
    have filled : ∀ first own : Option ℚ, first.or own = none ↔ first = none ∧ own = none := fun _ _ => Option.or_eq_none_iff
    cases field
    case netIncome => exact absurd rfl top
    case operatingCashflow => exact resolveCashFlow_absent
    case freeCashflow => exact resolveCashFlow_absent
    case capexTtm =>
      exact ttmSource_absent.trans ⟨fun both => both.1, fun absent => ⟨absent, rfl⟩⟩
    case totalRevenue =>
      rw [filled]
      exact ttmSource_absent.trans (and_congr_right fun _ => fallback_absent (by decide) (by decide))
    case ebitda =>
      rw [filled]
      exact ttmSource_absent.trans (and_congr_right fun _ => fallback_absent (by decide) (by decide))
    case totalCash =>
      rw [filled, ← number_chosen_one]
      exact balanceSource_absent.trans (and_congr_right fun _ => fallback_absent (by decide) (by decide))
    case totalDebt =>
      rw [filled, ← number_chosen_one]
      exact balanceSource_absent.trans (and_congr_right fun _ => fallback_absent (by decide) (by decide))
    case totalEquity =>
      rw [filled, ← number_chosen_two]
      exact balanceSource_absent.trans (and_congr_right fun _ => fallback_absent (by decide) (by decide))
    case sharesOutstanding =>
      dsimp only
      cases there : officialShares fundamentals official with
      | none =>
        have own : ∀ value : Option ℚ, (orElse none value).or value = value := fun value => by cases value <;> rfl
        rw [own]
        exact fallback_absent top (fun never => nomatch never)
      | some shares =>
        have present := Option.isSome_iff_exists.mpr ⟨_, there⟩
        obtain ⟨equal, served⟩ := shares_official present
        rw [← there, served, ← equal, there]
        simp

end Reported

end C3po.Overlays.Fieldwise
