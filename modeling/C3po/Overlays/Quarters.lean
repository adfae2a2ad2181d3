import C3po.Overlays.Filed
import C3po.Overlays.Listed

/-! Calendar quarters, and the sums of a flow that is fixed for each. -/

set_option autoImplicit false

namespace C3po.Overlays

open Library Library.Calendar

def quarterMonths : List ℤ := [3, 6, 9, 12]

/-- The first day of the three months that end. -/
def quarterStart (finish : Day) : Day := ofCivil (civil finish).1 ((civil finish).2.1 - 2) 1

/-- The flow from 1 January to a quarter end. -/
def yearToDate (flow : Day → ℚ) (finish : Day) : ℚ :=
  ((quarterMonths.filter (· ≤ (civil finish).2.1)).map fun month => flow (quarterEnd (civil finish).1 month)).sum

/-- The flow of the quarters of the year before one, after another or all of them. -/
def skipped (flow : Day → ℚ) (since : Option Day) (finish : Day) : ℚ :=
  ((quarterMonths.filter fun month => month < (civil finish).2.1 ∧ since.all fun earlier => (civil earlier).2.1 < month).map fun month =>
    flow (quarterEnd (civil finish).1 month)).sum

/-- The value of a span is the sum of the flow: the year to a quarter end, or three months. -/
def Sums (flow : Day → ℚ) (start : Option Day) (finish : Day) (value : ℚ) : Prop :=
  isQuarterEnd finish ∧
    (start = some (yearStart finish) ∧ value = yearToDate flow finish ∨ start = some (quarterStart finish) ∧ value = flow finish)

section Ends
variable {year month : ℤ} {finish earlier prior : Day}

theorem mem_quarterMonths : month ∈ quarterMonths ↔ month = 3 ∨ month = 6 ∨ month = 9 ∨ month = 12 := by
  unfold quarterMonths
  simp

def daysBefore (leap : Bool) (month : ℤ) : ℤ :=
  (if month = 3 then 89 else if month = 6 then 180 else if month = 9 then 272 else 364) + if leap then 1 else 0

theorem quarterEnd_eq (year : ℤ) (member : month ∈ quarterMonths) : quarterEnd year month = newYear year + daysBefore (leap year) month := by
  rcases mem_quarterMonths.mp member with rfl | rfl | rfl | rfl <;> unfold quarterEnd ofCivil monthLengths daysBefore <;>
    cases leap year <;> simp <;> ring

theorem civil_quarterEnd (member : month ∈ quarterMonths) :
    civil (quarterEnd year month) = (year, month, if month = 6 ∨ month = 9 then 30 else 31) := by
  have succ := newYear_succ year
  have day := quarterEnd_eq year member
  have own : yearOf (quarterEnd year month) = year := by
    rw [day]
    rcases mem_quarterMonths.mp member with rfl | rfl | rfl | rfl <;> unfold daysBefore <;>
      cases leaps : leap year <;> rw [leaps] at succ <;> refine yearOf_eq ?_ ?_ <;> simp at succ ⊢ <;> omega
  unfold civil
  dsimp only
  rw [own, day, add_sub_cancel_left]
  rcases mem_quarterMonths.mp member with rfl | rfl | rfl | rfl <;> unfold daysBefore monthLengths <;> cases leap year <;> rfl

theorem quarterEnd_civil (ended : isQuarterEnd finish) :
    (civil finish).2.1 ∈ quarterMonths ∧ finish = quarterEnd (civil finish).1 (civil finish).2.1 := by
  have own := ofCivil_civil finish
  unfold isQuarterEnd at ended
  generalize civil finish = parts at own ended ⊢
  obtain ⟨year, month, date⟩ := parts
  simp only [Bool.or_eq_true, Bool.and_eq_true, decide_eq_true_eq] at ended
  unfold quarterEnd quarterMonths
  rcases ended with ⟨rfl | rfl, rfl⟩ | ⟨rfl | rfl, rfl⟩ <;> exact ⟨by simp, own.symm⟩

theorem isQuarterEnd_quarterEnd (member : month ∈ quarterMonths) : isQuarterEnd (quarterEnd year month) := by
  unfold isQuarterEnd
  rw [civil_quarterEnd member]
  rcases mem_quarterMonths.mp member with rfl | rfl | rfl | rfl <;> rfl

variable {flow : Day → ℚ}

theorem yearToDate_quarterEnd (flow : Day → ℚ) (member : month ∈ quarterMonths) :
    yearToDate flow (quarterEnd year month) = ((quarterMonths.filter (· ≤ month)).map fun earlier => flow (quarterEnd year earlier)).sum := by
  unfold yearToDate
  rw [civil_quarterEnd member]

theorem yearToDate_first (ended : isQuarterEnd finish) (march : (civil finish).2.1 = 3) : yearToDate flow finish = flow finish := by
  have own := (quarterEnd_civil ended).2
  rw [march] at own
  rw [own, yearToDate_quarterEnd flow (by decide)]
  simp [quarterMonths]

theorem yearToDate_prior (ended : isQuarterEnd finish) (before : priorQuarter finish = some prior) :
    isQuarterEnd prior ∧ yearStart prior = yearStart finish ∧ yearToDate flow finish = yearToDate flow prior + flow finish := by
  obtain ⟨member, own⟩ := quarterEnd_civil ended
  unfold priorQuarter at before
  dsimp only at before
  split at before
  · rename_i late
    cases before
    generalize (civil finish).1 = year at own ⊢
    generalize (civil finish).2.1 = month at own member late ⊢
    subst own
    have less : month - 3 ∈ quarterMonths := by
      rw [mem_quarterMonths] at member ⊢
      omega
    refine ⟨isQuarterEnd_quarterEnd less, ?_, ?_⟩
    · unfold yearStart
      rw [civil_quarterEnd less, civil_quarterEnd member]
    · rw [yearToDate_quarterEnd flow member, yearToDate_quarterEnd flow less]
      rcases mem_quarterMonths.mp member with rfl | rfl | rfl | rfl
      · rw [mem_quarterMonths] at less
        omega
      all_goals simp [quarterMonths, add_assoc]
  · cases before

theorem yearToDate_skipped (ended : isQuarterEnd finish) (since : Option Day)
    (inYear : ∀ earlier, since = some earlier → isQuarterEnd earlier ∧ (civil earlier).1 = (civil finish).1 ∧ earlier < finish) :
    yearToDate flow finish = (since.map (yearToDate flow)).getD 0 + skipped flow since finish + flow finish := by
  obtain ⟨member, own⟩ := quarterEnd_civil ended
  unfold skipped
  cases since with
  | none =>
    generalize (civil finish).1 = year at own ⊢
    generalize (civil finish).2.1 = month at own member ⊢
    subst own
    rw [yearToDate_quarterEnd flow member]
    rcases mem_quarterMonths.mp member with rfl | rfl | rfl | rfl <;> simp [quarterMonths, add_assoc]
  | some earlier =>
    obtain ⟨there, same, before⟩ := inYear earlier rfl
    clear inYear
    obtain ⟨first, sooner⟩ := quarterEnd_civil there
    rw [same] at sooner
    simp only [Option.all_some]
    generalize (civil finish).1 = year at own sooner ⊢
    generalize (civil finish).2.1 = month at own member ⊢
    obtain ⟨start, begins⟩ : ∃ start, (civil earlier).2.1 = start := ⟨_, rfl⟩
    simp only [begins] at first sooner ⊢
    clear begins same there
    subst own sooner
    rw [quarterEnd_eq year first, quarterEnd_eq year member] at before
    rw [Option.map_some, Option.getD_some, yearToDate_quarterEnd flow member, yearToDate_quarterEnd flow first]
    rcases mem_quarterMonths.mp member with rfl | rfl | rfl | rfl <;> rcases mem_quarterMonths.mp first with rfl | rfl | rfl | rfl <;>
      first
      | (unfold daysBefore at before; simp at before; done)
      | simp [quarterMonths, add_assoc]

theorem skipped_first (flow : Day → ℚ) (since : Option Day) (march : (civil finish).2.1 = 3) : skipped flow since finish = 0 := by
  have nothing : (quarterMonths.filter fun month =>
      month < (civil finish).2.1 ∧ since.all fun earlier => (civil earlier).2.1 < month) = [] := by
    rw [List.filter_eq_nil_iff]
    intro month member chosen
    rw [decide_eq_true_eq, march] at chosen
    have least := mem_quarterMonths.mp member
    omega
  unfold skipped
  rw [nothing]
  rfl

theorem first_of_priorQuarter (ended : isQuarterEnd finish) (first : priorQuarter finish = none) : (civil finish).2.1 = 3 := by
  unfold priorQuarter at first
  dsimp only at first
  rcases mem_quarterMonths.mp (quarterEnd_civil ended).1 with march | later | later | later
  · exact march
  all_goals
    rw [later, if_pos (by decide)] at first
    cases first

theorem first_of_start (ended : isQuarterEnd finish) (same : yearStart finish = quarterStart finish) : (civil finish).2.1 = 3 := by
  have member := (quarterEnd_civil ended).1
  unfold yearStart quarterStart at same
  generalize (civil finish).1 = year at same
  generalize (civil finish).2.1 = month at member same ⊢
  replace same : @Eq ℤ (ofCivil year 1 1) (ofCivil year (month - 2) 1) := same
  rcases mem_quarterMonths.mp member with rfl | rfl | rfl | rfl
  · rfl
  all_goals
    unfold ofCivil monthLengths at same
    cases leap year <;> simp at same <;> omega

end Ends

section Values
variable {flow : Day → ℚ} {finish : Day} {value : ℚ}

theorem Sums.cumulative (sums : Sums flow (some (yearStart finish)) finish value) : value = yearToDate flow finish := by
  obtain ⟨ended, ⟨_, year⟩ | ⟨start, quarter⟩⟩ := sums
  · exact year
  · rw [quarter, yearToDate_first ended (first_of_start ended (Option.some.inj start))]

theorem Sums.standalone (sums : Sums flow (some (quarterStart finish)) finish value) : value = flow finish := by
  obtain ⟨ended, ⟨start, year⟩ | ⟨_, quarter⟩⟩ := sums
  · rw [year, yearToDate_first ended (first_of_start ended (Option.some.inj start).symm)]
  · exact quarter

end Values

/-- The fixed flow of an issuer, by account and quarter. -/
abbrev IssuerFlow := Field → Day → ℚ

/-- The flow a field of a row stands for: two are sums of others. -/
def IssuerFlow.row (flow : IssuerFlow) : Field → Day → ℚ
  | .ebitda => fun finish => flow .operatingIncome finish + flow .depreciationAndAmortization finish
  | .freeCashFlow => fun finish => flow .totalCashFromOperatingActivities finish + flow .capitalExpenditures finish
  | field => flow field

section Complete
variable {flow : IssuerFlow} {spans : List Span} {finish : Day}

def Summed (flow : IssuerFlow) (spans : List Span) : Prop :=
  ∀ span ∈ spans, ∀ field figure, span.values field = some figure → Sums (flow.row field) span.start span.finish figure.value

/-- Every figure is the flow of one quarter. -/
def Carries (flow : IssuerFlow) (values : Values) (finish : Day) : Prop :=
  ∀ field figure, values field = some figure → figure.value = flow.row field finish

theorem sums_of_valuesAt (summed : Summed flow spans) {start : Day} {values : Values} (found : valuesAt spans start finish = some values)
    {field : Field} {figure : Figure} (held : values field = some figure) : Sums (flow.row field) (some start) finish figure.value := by
  obtain ⟨span, member, starts, ends, rfl⟩ := mem_of_valuesAt found
  rw [← starts, ← ends]
  exact summed span member field figure held

theorem quarterlyFlow_carries (summed : Summed flow spans) (ended : isQuarterEnd finish) : Carries flow (quarterlyFlow spans finish) finish := by
  have cumulative : Carries flow (cumulativeFlow spans finish) finish := by
    unfold cumulativeFlow
    split
    · exact fun _ _ held => by cases held
    · rename_i ytd found
      split
      · rename_i first
        have march := first_of_priorQuarter ended first
        intro field figure held
        rw [(sums_of_valuesAt summed found held).cumulative, yearToDate_first ended march]
      · rename_i prior before
        split
        · exact fun _ _ held => by cases held
        · rename_i earlier there
          intro field figure held
          obtain ⟨_, sameYear, total⟩ := @yearToDate_prior finish prior (flow.row field) ended before
          unfold Record.meet at held
          split at held
          · rename_i one two own other
            cases held
            have ytdSum := (sums_of_valuesAt summed found own).cumulative
            rw [← sameYear] at there
            have earlierSum := (sums_of_valuesAt summed there other).cumulative
            show one.value - two.value = _
            rw [ytdSum, earlierSum, total]
            ring
          · cases held
  unfold quarterlyFlow
  dsimp only
  split
  · exact cumulative
  · rename_i standalone found
    intro field figure held
    unfold Record.fill at held
    rcases Option.or_eq_some_iff.mp held with own | ⟨_, filled⟩
    · exact cumulative field figure own
    · exact (sums_of_valuesAt summed found filled).standalone

/-- The account a field of an income row is read from. -/
def standsFor (quarter : Field → Bool) (field : Field) : Field :=
  if field = .netIncome ∧ ¬quarter .netIncome then .consolidatedNetIncome else field

theorem incomeRow_carries {income valueAdded : Values} (own : Carries flow income finish) (theirs : Carries flow valueAdded finish)
    {field : Field} {figure : Figure} (held : (incomeRow finish income valueAdded).values field = some figure) :
    figure.value = flow.row (standsFor (fun field => (income field).isSome) field) finish := by
  have same : field ≠ .netIncome → standsFor (fun field => (income field).isSome) field = field :=
    fun other => if_neg fun both => other both.1
  cases field
  case consolidatedNetIncome => cases held
  case netIncome =>
    unfold standsFor
    dsimp only
    rcases Option.or_eq_some_iff.mp held with net | ⟨absent, consolidated⟩
    · rw [if_neg (by simp [net])]
      exact own _ figure net
    · rw [if_pos (by simp [absent])]
      exact own _ figure consolidated
  case depreciationAndAmortization =>
    rw [same (by decide)]
    rcases Option.or_eq_some_iff.mp held with added | ⟨_, read⟩
    · exact theirs _ figure added
    · exact own _ figure read
  case ebitda =>
    rw [same (by decide)]
    simp only [incomeRow] at held
    split at held
    · rename_i operating amortization here there
      cases held
      show operating.value + amortization.value = _
      rw [own _ operating here, theirs _ amortization there]
      rfl
    · exact own _ figure held
  all_goals
    rw [same (by decide)]
    exact own _ figure held

theorem cashFlowRow_carries {values : Values} (own : Carries flow values finish) {row : Row} (made : cashFlowRow finish values = some row) :
    row.date = finish ∧ Carries flow row.values finish := by
  obtain ⟨_, rfl⟩ : _ ∧ _ = row := by simpa only [Option.some_inj] using Option.ite_none_right_eq_some.mp made
  refine ⟨rfl, fun field figure held => ?_⟩
  have capex : ∀ figure, (values .capitalExpenditures).filter (fun capex => capex.value ≤ 0) = some figure →
      figure.value = flow.row .capitalExpenditures finish :=
    fun figure kept => own .capitalExpenditures figure (Option.filter_eq_some_iff.mp kept).1
  cases field
  case capitalExpenditures => exact capex figure held
  case freeCashFlow =>
    dsimp only at held
    split at held
    · rename_i operating spent here there
      cases held
      show operating.value + spent.value = _
      rw [own _ operating here, capex spent there]
      rfl
    · exact own _ figure held
  all_goals exact own _ figure held

end Complete

/-! The quarters of the ITR reader: the flow of the quarter and of those it skips. -/

section Read
variable {issuers : List String} {reading : Reading} {rows : List FiledRow} {taxId : String} {period : Day} {field : Field}

theorem readStatement_said {entry : ℤ × ℚ} (found : (readStatement issuers reading rows).get? (taxId, period, field) = some entry) :
    ∃ row ∈ rows, reading.take issuers row = some ((taxId, period, field), entry) := by
  induction rows using List.reverseRecOn with
  | nil => cases found
  | append_singleton rows row ih =>
    have earlier : (readStatement issuers reading rows).get? (taxId, period, field) = some entry →
        ∃ other ∈ rows ++ [row], reading.take issuers other = some ((taxId, period, field), entry) := by
      intro before
      obtain ⟨other, member, taken⟩ := ih before
      exact ⟨other, List.mem_append_left _ member, taken⟩
    unfold readStatement at found
    rw [List.foldl_append, List.foldl_cons, List.foldl_nil, ← readStatement] at found
    cases taken : reading.take issuers row with
    | none =>
      rw [taken] at found
      exact earlier found
    | some said =>
      obtain ⟨key, entry'⟩ := said
      rw [taken] at found
      dsimp only at found
      have own : ((readStatement issuers reading rows).insert key entry').get? (taxId, period, field) = some entry →
          ∃ other ∈ rows ++ [row], reading.take issuers other = some ((taxId, period, field), entry) := by
        intro inserted
        rw [Dict.get?_insert] at inserted
        split at inserted
        · rename_i same
          cases inserted
          exact ⟨row, List.mem_append_right _ (List.mem_singleton_self _), by rw [taken, same]⟩
        · exact earlier inserted
      split at found
      · exact own found
      · split at found
        · exact own found
        · exact earlier found

theorem periodsOf_ascending (selected : Dict (String × Day × Field) (ℤ × ℚ)) (taxId : String) : (periodsOf selected taxId).Pairwise (· < ·) := by
  have sorted := stableSort_sorted id (((selected.keys.filter fun key => key.1 = taxId).map fun key => key.2.1).dedup)
  have apart : (periodsOf selected taxId).Nodup := (stableSort_perm id _).nodup_iff.mpr (List.nodup_dedup _)
  exact (sorted.and apart).imp fun both => lt_of_le_of_ne both.1 both.2

end Read

section Differences
variable {amounts : Day → Amounts} {periods : List Day} {period : Day} {row : Amounts}

theorem mem_quarterized {last : Option Day} : (period, row) ∈ quarterized amounts last periods ↔
    ∃ front rest, periods = front ++ period :: rest ∧
      row = quarterRow (amounts period) (previousAmounts amounts (front.getLast?.or last) period) := by
  induction periods generalizing last with
  | nil => simp [quarterized]
  | cons first later ih =>
    unfold quarterized
    rw [List.mem_cons, ih]
    constructor
    · rintro (same | ⟨front, rest, rfl, rfl⟩)
      · cases same
        exact ⟨[], later, rfl, rfl⟩
      · refine ⟨first :: front, rest, rfl, ?_⟩
        rw [List.getLast?_cons]
        cases front.getLast? <;> rfl
    · rintro ⟨front, rest, split, rfl⟩
      cases front with
      | nil =>
        cases split
        exact .inl rfl
      | cons head front =>
        cases split
        refine .inr ⟨front, rest, rfl, ?_⟩
        rw [List.getLast?_cons]
        cases front.getLast? <;> rfl

theorem mem_quarterizeIncome : (period, row) ∈ quarterizeIncome amounts periods ↔
    ∃ front rest, periods = front ++ period :: rest ∧ row = quarterRow (amounts period) (previousAmounts amounts front.getLast? period) := by
  unfold quarterizeIncome
  rw [mem_stableSort, mem_quarterized]
  simp only [Option.or_none]

/-- The cumulative that a field of a period is differenced against. -/
def since (amounts : Day → Amounts) (front : List Day) (period : Day) (field : Field) : Option Day :=
  front.getLast?.filter fun last => (civil last).1 = (civil period).1 && (amounts last field).isSome

/-- Every cumulative is the year to date. -/
def Cumulative (flow : IssuerFlow) (amounts : Day → Amounts) : Prop :=
  ∀ period field value, amounts period field = some value → isQuarterEnd period ∧ value = yearToDate (flow.row field) period

variable {flow : IssuerFlow}

theorem difference_eq (cumulative : Cumulative flow amounts) {front : List Day} (before : ∀ earlier ∈ front, earlier < period) {field : Field}
    {value : ℚ} (held : amounts period field = some value) :
    value - (previousAmounts amounts front.getLast? period field).getD 0 =
      skipped (flow.row field) (since amounts front period field) period + flow.row field period := by
  obtain ⟨ended, own⟩ := cumulative period field value held
  have total := @yearToDate_skipped period (flow.row field) ended (since amounts front period field) fun earlier found => by
    obtain ⟨last, chosen⟩ := Option.filter_eq_some_iff.mp found
    rw [Bool.and_eq_true, decide_eq_true_eq] at chosen
    obtain ⟨sum, carried⟩ := Option.isSome_iff_exists.mp chosen.2
    exact ⟨(cumulative earlier field sum carried).1, chosen.1, before earlier (List.mem_of_getLast? last)⟩
  have base : (previousAmounts amounts front.getLast? period field).getD 0 =
      ((since amounts front period field).map (yearToDate (flow.row field))).getD 0 := by
    unfold previousAmounts since
    cases front.getLast? with
    | none => rfl
    | some last =>
      rw [Option.filter_some, Option.filter_some]
      by_cases same : (civil last).1 = (civil period).1
      · rw [if_pos (decide_eq_true same), Option.bind_some]
        cases carried : amounts last field with
        | none => simp [same]
        | some sum => simp [same, (cumulative last field sum carried).2]
      · simp [same]
  rw [own, base, total]
  ring

/-- The quarters between a cumulative and the one it is differenced against carry nothing. -/
def NothingSkipped (flow : IssuerFlow) (amounts : Day → Amounts) (periods : List Day) : Prop :=
  ∀ front period rest, periods = front ++ period :: rest → ∀ field, field ≠ .consolidatedNetIncome →
    let account := standsFor (fun field => (amounts period field).isSome) field
    (amounts period account).isSome → skipped (flow.row account) (since amounts front period account) period = 0

theorem quarterRow_account {current previous : Amounts} {field : Field} : quarterRow current previous field =
    if field = .consolidatedNetIncome then none
    else (current (standsFor (fun field => (current field).isSome) field)).map
      (· - (previous (standsFor (fun field => (current field).isSome) field)).getD 0) := by
  cases field
  case netIncome =>
    rw [if_neg (by decide)]
    unfold standsFor quarterRow
    dsimp only
    by_cases net : (current .netIncome).isSome = true
    · rw [if_neg (by simp [net])]
      obtain ⟨value, found⟩ := Option.isSome_iff_exists.mp net
      rw [found]
      rfl
    · rw [if_pos ⟨rfl, net⟩, Option.not_isSome_iff_eq_none.mp net]
      rfl
  all_goals
    unfold standsFor quarterRow
    simp

theorem quarterizeIncome_carries_iff (cumulative : Cumulative flow amounts) (ascending : periods.Pairwise (· < ·)) :
    (∀ row ∈ quarterizeIncome amounts periods, ∀ field value, row.2 field = some value →
      value = flow.row (standsFor (fun field => (amounts row.1 field).isSome) field) row.1) ↔ NothingSkipped flow amounts periods := by
  constructor
  · rintro carries front period rest rfl field served account held
    obtain ⟨value, found⟩ := Option.isSome_iff_exists.mp held
    have before : ∀ earlier ∈ front, earlier < period := fun earlier member =>
      (List.pairwise_append.mp ascending).2.2 earlier member period List.mem_cons_self
    have own := carries (period, _) (mem_quarterizeIncome.mpr ⟨front, rest, rfl, rfl⟩) field _
      (by dsimp only; rw [quarterRow_account, if_neg served, found]; rfl)
    have total := (difference_eq cumulative before found).symm.trans own
    exact add_eq_right.mp total
  · rintro nothing ⟨period, row⟩ member field value held
    obtain ⟨front, rest, rfl, rfl⟩ := mem_quarterizeIncome.mp member
    have before : ∀ earlier ∈ front, earlier < period := fun earlier member =>
      (List.pairwise_append.mp ascending).2.2 earlier member period List.mem_cons_self
    dsimp only at held ⊢
    rw [quarterRow_account] at held
    split at held
    · cases held
    · rename_i served
      obtain ⟨sum, found, rfl⟩ := Option.map_eq_some_iff.mp held
      rw [difference_eq cumulative before found, nothing front period rest rfl field served (by rw [found]; rfl), zero_add]

end Differences

end C3po.Overlays
