import C3po.Portfolio.PhantomProfit

/-! Profits of adjoining periods add up. -/

set_option autoImplicit false

namespace C3po.Portfolio
open C3po.Library

/-- The holdings without what is not held any more. -/
def live (holdings : Holdings) : Holdings :=
  ⟨holdings.entries.filter fun entry => entry.2.quantity ≠ 0, holdings.distinct.sublist (List.filter_sublist.map _)⟩

def IgnoresZero (valueAt : Holdings → Int → Except Refusal ℚ) : Prop := ∀ holdings day, valueAt (live holdings) day = valueAt holdings day

section Alike
variable {events : List Event} {day : Int}

/-- The recorded holdings are the informed ones without some that hold nothing. -/
structure Alike (empty : List String) (recorded informed : Holdings) : Prop where
  entries : recorded.entries = informed.entries.filter fun entry => decide (entry.1 ∉ empty)
  zero : ∀ entry ∈ informed.entries, entry.1 ∈ empty → entry.2 = {}

theorem Alike.live {empty : List String} {recorded informed : Holdings} (alike : Alike empty recorded informed) :
    live recorded = live informed := by
  have same : recorded.entries.filter (fun entry => entry.2.quantity ≠ 0) = informed.entries.filter fun entry => entry.2.quantity ≠ 0 := by
    rw [alike.entries, List.filter_filter]
    refine List.filter_congr fun entry member => ?_
    by_cases emptied : entry.1 ∈ empty
    · simp [alike.zero entry member emptied]
    · simp [emptied]
  unfold Portfolio.live
  simp only [same]

theorem Alike.getD {empty : List String} {recorded informed : Holdings} (alike : Alike empty recorded informed) {symbol : String}
    (held : symbol ∉ empty) : recorded.get? symbol = informed.get? symbol := by
  cases found : informed.get? symbol with
  | none =>
    have absent : symbol ∉ informed.keys := by rw [Dict.mem_keys, found]; nofun
    refine Dict.get?_of_not_mem fun member => absent ?_
    obtain ⟨entry, among, rfl⟩ := List.mem_map.mp member
    rw [alike.entries] at among
    exact List.mem_map_of_mem (List.mem_filter.mp among).1
  | some position =>
    refine Dict.mem_entries.mp ?_
    rw [alike.entries]
    exact List.mem_filter.mpr ⟨Dict.mem_entries.mpr found, by simpa using held⟩

theorem Alike.write {empty : List String} {recorded informed : Holdings} (alike : Alike empty recorded informed) {symbol : String}
    (held : symbol ∉ empty) (quantity : Option ℚ) : Alike empty (write recorded symbol quantity) (write informed symbol quantity) := by
  cases quantity with
  | none => exact alike
  | some quantity =>
    have same : recorded.getD symbol {} = informed.getD symbol {} := by
      unfold Dict.getD
      rw [alike.getD held]
    refine ⟨?_, fun entry member emptied => ?_⟩
    · show Dict.put symbol _ recorded.entries = (Dict.put symbol _ informed.entries).filter _
      rw [same, alike.entries]
      exact (Dict.filter_put (fun key => decide (key ∉ empty)) (by simpa using held) _ _).symm
    · have found : (informed.insert symbol { informed.getD symbol {} with quantity := quantity }).get? entry.1 = some entry.2 :=
        Dict.mem_entries.mp member
      have apart : entry.1 ≠ symbol := fun same => held (same ▸ emptied)
      rw [Dict.get?_insert, if_neg apart] at found
      exact alike.zero entry (Dict.mem_entries.mpr found) emptied

theorem Alike.informs {empty : List String} {recorded informed : Holdings} (alike : Alike empty recorded informed) {symbol : String}
    (held : symbol ∉ empty) {quantity : ℚ} (agrees : quantityOf recorded symbol = quantity) :
    Alike empty recorded (Portfolio.write informed symbol (some quantity)) ∨
      Alike (symbol :: empty) recorded (Portfolio.write informed symbol (some quantity)) := by
  cases found : informed.get? symbol with
  | some position =>
    left
    have same : position.quantity = quantity := by
      rw [← agrees]
      unfold quantityOf Dict.getD
      rw [alike.getD held, found]
      rfl
    have unchanged : Portfolio.write informed symbol (some quantity) = informed := by
      have position' : ({ informed.getD symbol {} with quantity := quantity } : Position) = position := by
        unfold Dict.getD
        rw [found, ← same]
        rfl
      show informed.insert symbol { informed.getD symbol {} with quantity := quantity } = informed
      rw [position']
      obtain ⟨entries, distinct⟩ := informed
      unfold Dict.insert
      congr 1
      exact Dict.put_same found
    rw [unchanged]
    exact alike
  | none =>
    right
    have absent : symbol ∉ informed.entries.map Prod.fst := by
      intro member
      have isSome := Dict.mem_keys.mp member
      rw [found] at isSome
      cases isSome
    have zero : quantity = 0 := by
      rw [← agrees]
      unfold quantityOf Dict.getD
      rw [alike.getD held, found]
      rfl
    have blank : ({ informed.getD symbol {} with quantity := quantity } : Position) = {} := by
      unfold Dict.getD
      rw [found, zero]
      rfl
    have appended : (Portfolio.write informed symbol (some quantity)).entries = informed.entries ++ [(symbol, ({} : Position))] := by
      show Dict.put symbol { informed.getD symbol {} with quantity := quantity } informed.entries = _
      rw [blank, Dict.put_absent absent]
    refine ⟨?_, fun entry member emptied => ?_⟩
    · rw [appended, List.filter_append, alike.entries]
      have dropped : [(symbol, ({} : Position))].filter (fun entry => decide (entry.1 ∉ symbol :: empty)) = [] := by simp
      rw [dropped, List.append_nil]
      refine List.filter_congr fun entry member => ?_
      have apart : entry.1 ≠ symbol := fun same => absent (same ▸ List.mem_map_of_mem member)
      simp [apart]
    · rw [appended, List.mem_append] at member
      rcases member with old | new
      · have apart : entry.1 ≠ symbol := fun same => absent (same ▸ List.mem_map_of_mem old)
        rcases List.mem_cons.mp emptied with own | before
        · exact absurd own apart
        · exact alike.zero entry old before
      · cases List.mem_singleton.mp new
        rfl

theorem alike_projections {entries : List (String × Event)} (distinct : (entries.map Prod.fst).Nodup) {recorded informed closing opening : Holdings}
    {empty : List String} (alike : Alike empty recorded informed) (fresh : ∀ entry ∈ entries, entry.1 ∉ empty)
    (closes : entries.foldlM (projectBack events day true) recorded = .ok closing)
    (opens : entries.foldlM (projectBack events day false) informed = .ok opening)
    (agrees : ∀ entry ∈ entries, day = cutoffOf entry.2.day → quantityOf closing entry.1 = quantityOf opening entry.1) :
    live closing = live opening := by
  induction entries generalizing recorded informed empty with
  | nil =>
    cases closes
    cases opens
    exact alike.live
  | cons entry rest ih =>
    obtain ⟨closed, closedOk, closes⟩ := foldlM_cons_ok closes
    obtain ⟨opened, openedOk, opens⟩ := foldlM_cons_ok opens
    obtain ⟨recordedQuantity, recordedOk, rfl⟩ := projectBack_ok closedOk
    obtain ⟨informedQuantity, informedOk, rfl⟩ := projectBack_ok openedOk
    rw [List.map_cons, List.nodup_cons] at distinct
    have held := fresh entry List.mem_cons_self
    have later : ∀ other ∈ rest, other.1 ≠ entry.1 := fun other member same => distinct.1 (same ▸ List.mem_map_of_mem member)
    have freshRest : ∀ other ∈ rest, other.1 ∉ empty := fun other member => fresh other (List.mem_cons_of_mem _ member)
    have agreesRest : ∀ other ∈ rest, day = cutoffOf other.2.day → quantityOf closing other.1 = quantityOf opening other.1 :=
      fun other member => agrees other (List.mem_cons_of_mem _ member)
    rcases projected_closing recordedOk informedOk with rfl | ⟨rfl, last⟩
    · exact ih distinct.2 (alike.write held recordedQuantity) freshRest closes opens agreesRest
    · cases informedQuantity with
      | none => exact ih distinct.2 alike freshRest closes opens agreesRest
      | some quantity =>
        have same : quantityOf recorded entry.1 = quantity := by
          have final := agrees entry List.mem_cons_self last
          rw [quantityOf_projections closes distinct.1, quantityOf_projections opens distinct.1, quantityOf_write, quantityOf_write] at final
          exact final
        rcases alike.informs held same with still | emptied
        · exact ih distinct.2 still freshRest closes opens agreesRest
        · refine ih distinct.2 emptied (fun other member among => ?_) closes opens agreesRest
          rcases List.mem_cons.mp among with own | before
          · exact later other member own
          · exact freshRest other member before

theorem later_mem {informed : List Event} {found : Option Event}
    (known : ∀ event, found = some event → event ∈ informed) {line : List Event} (among : ∀ event ∈ line, event ∈ informed) {snap : Event}
    (kept : line.foldl (fun found event => some (laterOf event found)) found = some snap) : snap ∈ informed := by
  induction line generalizing found with
  | nil => exact known snap kept
  | cons event rest ih =>
    refine ih (fun later laterOk => ?_) (fun other member => among other (List.mem_cons_of_mem _ member)) kept
    cases laterOk
    cases found with
    | none => exact among event List.mem_cons_self
    | some first =>
      unfold laterOf
      dsimp only
      split
      · exact among event List.mem_cons_self
      · exact known first rfl

theorem mem_laterSnapshots {entry : String × Event} (member : entry ∈ (laterSnapshots events day).entries) :
    entry.2 ∈ events ∧ entry.2.kind = .position := by
  have found : (laterSnapshots events day).get? entry.1 = some entry.2 := Dict.mem_entries.mp member
  rw [laterSnapshots_get?] at found
  have informed := later_mem (by simp) (fun _ among => among) found
  obtain ⟨inLine, chosen⟩ := List.mem_filter.mp informed
  exact ⟨(mem_timeline.mp inLine).1, (of_decide_eq_true chosen).1⟩

theorem live_closing_opening {closing opening : Holdings} (closes : holdingsAt events day true = .ok closing)
    (opens : holdingsAt events day false = .ok opening)
    (agrees : (∃ event ∈ events, event.kind = .position ∧ day = cutoffOf event.day) → AgreesAt events day) :
    live closing = live opening := by
  obtain ⟨replayed, replayedOk, closesLoop⟩ := bind_ok closes
  obtain ⟨replayed', replayedOk', opensLoop⟩ := bind_ok opens
  rw [replayedOk] at replayedOk'
  cases replayedOk'
  have start : Alike [] replayed replayed := ⟨by simp, fun _ _ member => nomatch member⟩
  refine alike_projections (laterSnapshots events day).distinct start (fun _ _ member => nomatch member) closesLoop opensLoop
    fun entry member last => ?_
  obtain ⟨among, informed⟩ := mem_laterSnapshots member
  obtain ⟨recorded, projected, recordedOk, projectedOk, same⟩ := agrees ⟨entry.2, among, informed, last⟩
  rw [closes] at recordedOk
  cases recordedOk
  rw [opens] at projectedOk
  cases projectedOk
  exact sameHeld_quantity same entry.1

end Alike

section Flows
variable (rateAt : String → Int → Except Refusal ℚ)

def dollarsOf (event : Event) : ℚ :=
  if flowOf event event.total event.fees = 0 then 0
  else match rateAt event.market event.day with
    | .error _ => 0
    | .ok fx => flowOf event event.total event.fees / fx

theorem divide_ok {dividend divisor quotient : ℚ} (ok : divide dividend divisor = .ok quotient) :
    quotient = dividend / divisor := by
  unfold divide at ok
  split at ok
  · cases ok
  · cases ok
    rfl

variable {rateAt}

theorem addFlow_dollars {last days : Int} {sums after : ℚ × ℚ} {event : Event} (ok : addFlow rateAt last days sums event = .ok after) :
    after.1 = sums.1 + dollarsOf rateAt event := by
  unfold addFlow at ok
  obtain ⟨total, totalOk, ok⟩ := bind_ok ok
  obtain ⟨fees, feesOk, ok⟩ := bind_ok ok
  obtain ⟨rfl, _⟩ := amount_ok totalOk
  obtain ⟨rfl, _⟩ := amount_ok feesOk
  unfold dollarsOf
  by_cases none : flowOf event event.total event.fees = 0
  · rw [if_pos none] at ok ⊢
    cases ok
    exact (add_zero _).symm
  · rw [if_neg none] at ok ⊢
    obtain ⟨fx, fxOk, ok⟩ := bind_ok ok
    obtain ⟨dollars, dollarsOk, ok⟩ := bind_ok ok
    obtain ⟨weight, _, ok⟩ := bind_ok ok
    cases ok
    simp only [fxOk, ← divide_ok dollarsOk]

theorem addFlow_sum {last days : Int} {selected : List Event} {sums after : ℚ × ℚ}
    (ok : selected.foldlM (addFlow rateAt last days) sums = .ok after) :
    after.1 = sums.1 + (selected.map (dollarsOf rateAt)).sum := by
  induction selected generalizing sums with
  | nil =>
    cases ok
    exact (add_zero _).symm
  | cons event rest ih =>
    obtain ⟨next, nextOk, restOk⟩ := foldlM_cons_ok ok
    rw [ih restOk, addFlow_dollars nextOk, List.map_cons, List.sum_cons, add_assoc]

theorem flows_adjoin (events : List Event) {first middle last : Int} (early : first ≤ middle) (late : middle < last) (share : Event → ℚ) :
    ((events.filter fun event => first ≤ event.day ∧ event.day ≤ last).map share).sum =
      ((events.filter fun event => first ≤ event.day ∧ event.day ≤ middle).map share).sum +
        ((events.filter fun event => middle + 1 ≤ event.day ∧ event.day ≤ last).map share).sum := by
  induction events with
  | nil => exact (add_zero _).symm
  | cons event rest ih =>
    rcases lt_or_ge event.day first with before | inside
    · have none : ¬ first ≤ event.day := not_le.mpr before
      have none' : ¬ middle + 1 ≤ event.day := by omega
      simp only [List.filter_cons, none, none', false_and, decide_false, Bool.false_eq_true, if_false]
      exact ih
    · rcases le_or_gt event.day middle with begins | ends
      · have whole : event.day ≤ last := by omega
        have none : ¬ middle + 1 ≤ event.day := by omega
        simp only [List.filter_cons, inside, whole, begins, none, and_self, false_and, decide_true, decide_false, if_true, Bool.false_eq_true,
          if_false, List.map_cons, List.sum_cons]
        rw [ih, add_assoc]
      · have none : ¬ event.day ≤ middle := not_le.mpr ends
        by_cases whole : event.day ≤ last
        · have second : middle + 1 ≤ event.day := by omega
          simp only [List.filter_cons, inside, whole, none, second, and_self, and_false, decide_true, decide_false, if_true, Bool.false_eq_true,
            if_false, List.map_cons, List.sum_cons]
          rw [ih]
          ring
        · simpa [none, whole] using ih

end Flows

section Profit
variable {valueAt : Holdings → Int → Except Refusal ℚ} {rateAt : String → Int → Except Refusal ℚ} {events : List Event} {first last : Int}

structure Measured (valueAt : Holdings → Int → Except Refusal ℚ) (rateAt : String → Int → Except Refusal ℚ) (events : List Event)
    (first last : Int) (profit : ℚ) : Prop where
  agrees : ∀ cutoff ∈ cutoffs events (first - 1) last, AgreesAt events cutoff
  parts : ∃ opening closing openingValue closingValue,
    holdingsAt events (first - 1) = .ok opening ∧ holdingsAt events last true = .ok closing ∧
      valueAt opening (first - 1) = .ok openingValue ∧ valueAt closing last = .ok closingValue ∧
      profit = closingValue - openingValue -
        ((events.filter fun event => first ≤ event.day ∧ event.day ≤ last).map (dollarsOf rateAt)).sum

theorem measure_profit {opening closing : Holdings} {result : Result} {profit : ℚ}
    (ok : measure valueAt rateAt events { first := first, last := last } opening closing = .ok result) (found : result.profitUsd = some profit) :
    ∃ openingValue closingValue, valueAt opening (first - 1) = .ok openingValue ∧ valueAt closing last = .ok closingValue ∧
      profit = closingValue - openingValue -
        ((events.filter fun event => first ≤ event.day ∧ event.day ≤ last).map (dollarsOf rateAt)).sum := by
  unfold measure at ok
  obtain ⟨openingValue, openingOk, ok⟩ := bind_ok ok
  obtain ⟨closingValue, closingOk, ok⟩ := bind_ok ok
  obtain ⟨⟨flows, weighted⟩, flowsOk, ok⟩ := bind_ok ok
  cases ok
  cases found
  have summed := addFlow_sum flowsOk
  exact ⟨openingValue, closingValue, openingOk, closingOk, by rw [← zero_add (List.sum _), ← summed]⟩

theorem periodResult_profit {result : Result} {profit : ℚ} (ok : periodResult valueAt rateAt events first last = .ok result)
    (found : result.profitUsd = some profit) : Measured valueAt rateAt events first last profit := by
  unfold periodResult at ok
  dsimp only at ok
  split at ok
  · cases ok
    cases found
  · obtain ⟨restated, _, ok⟩ := bind_ok ok
    split at ok
    · cases ok
      cases found
    · split at ok
      · cases ok
        cases found
      · cases ok
        cases found
      · cases ok
      · cases ok
        cases found
      · rename_i bounded
        obtain ⟨agrees, openingOk, closingOk⟩ := bounds_measured.mp bounded
        split at ok
        · cases ok
        · cases ok
          cases found
        · rename_i measured
          cases ok
          obtain ⟨openingValue, closingValue, parts⟩ := measure_profit measured found
          exact ⟨agrees, _, _, openingValue, closingValue, openingOk, closingOk, parts⟩

theorem mem_cutoffs {before cutoff : Int} : cutoff ∈ cutoffs events before last ↔
    (∃ event ∈ events, event.kind = .position ∧ cutoff = cutoffOf event.day) ∧ before < cutoff ∧ cutoff < last := by
  unfold cutoffs
  rw [mem_stableSort, List.mem_filter, List.mem_dedup, List.mem_map]
  simp only [List.mem_filter, decide_eq_true_eq, and_assoc, @eq_comm _ (cutoffOf _)]

/-- The profits of two adjoining periods make up the profit of both. -/
theorem profits_add {begin middle finish : Int} (order : begin ≤ middle) (later : middle < finish) (ignores : IgnoresZero valueAt)
    {early late whole : Result} {earlyProfit lateProfit wholeProfit : ℚ}
    (earlyOk : periodResult valueAt rateAt events begin middle = .ok early) (earlyFound : early.profitUsd = some earlyProfit)
    (lateOk : periodResult valueAt rateAt events (middle + 1) finish = .ok late) (lateFound : late.profitUsd = some lateProfit)
    (wholeOk : periodResult valueAt rateAt events begin finish = .ok whole) (wholeFound : whole.profitUsd = some wholeProfit) :
    wholeProfit = earlyProfit + lateProfit := by
  obtain ⟨_, opening, closing, openingValue, closingValue, openingOk, closingOk, openingValued, closingValued, earlySum⟩ :=
    periodResult_profit earlyOk earlyFound
  obtain ⟨_, opening', closing', openingValue', closingValue', openingOk', closingOk', openingValued', closingValued', lateSum⟩ :=
    periodResult_profit lateOk lateFound
  obtain ⟨agrees, opening'', closing'', openingValue'', closingValue'', openingOk'', closingOk'', openingValued'', closingValued'', wholeSum⟩ :=
    periodResult_profit wholeOk wholeFound
  rw [openingOk] at openingOk''
  cases openingOk''
  rw [openingValued] at openingValued''
  cases openingValued''
  rw [closingOk'] at closingOk''
  cases closingOk''
  rw [closingValued'] at closingValued''
  cases closingValued''
  -- the day between closes the first period and opens the second
  rw [add_sub_cancel_right] at openingOk' openingValued'
  have same : live closing = live opening' := by
    refine live_closing_opening closingOk openingOk' fun informed => agrees middle ?_
    exact mem_cutoffs.mpr ⟨informed, by omega, later⟩
  have valued : closingValue = openingValue' := by
    have equal : valueAt closing middle = valueAt opening' middle := by rw [← ignores closing, ← ignores opening', same]
    rw [closingValued, openingValued'] at equal
    exact Except.ok.inj equal
  rw [wholeSum, earlySum, lateSum, flows_adjoin events order later, valued]
  ring

end Profit

theorem valueAt_ignoresZero (price : String → ℚ) : IgnoresZero (valueAt price) := by
  intro holdings day
  unfold valueAt live Dict.total
  dsimp only
  congr 1
  induction holdings.entries with
  | nil => rfl
  | cons entry rest ih =>
    by_cases none : entry.2.quantity = 0
    · simpa [none] using ih
    · simpa [none] using ih

/-- Ten shares bought in May, two in February, and the twelve informed in March. -/
def acrossYears : List Event :=
  [{ symbol := "AAPL", kind := .buy, quantity := 10, total := 100, day := 739400, sequence := 1 },
    { symbol := "AAPL", kind := .buy, quantity := 2, total := 20, day := 739650, sequence := 2 },
    { symbol := "AAPL", kind := .position, quantity := 12, total := 120, day := 739676, sequence := 3 }]

/-- The year ends between the two periods: both sides of the close hold ten shares. -/
theorem profits_add_acrossYears :
    (periodResult (valueAt fun _ => 12) unitRate acrossYears 739300 739616).map Result.profitUsd = .ok (some 20) ∧
      (periodResult (valueAt fun _ => 12) unitRate acrossYears 739617 739700).map Result.profitUsd = .ok (some 4) ∧ (24 : ℚ) = 20 + 4 := by
  have early : periodResult (valueAt fun _ => 12) unitRate acrossYears 739300 739616 =
      .ok { first := 739300, last := 739616, profitUsd := some 20, returnPercent := some (1585 / 54) } := by decide +kernel
  have late : periodResult (valueAt fun _ => 12) unitRate acrossYears 739617 739700 =
      .ok { first := 739617, last := 739700, profitUsd := some 4, returnPercent := some (840 / 277) } := by decide +kernel
  have whole : periodResult (valueAt fun _ => 12) unitRate acrossYears 739300 739700 =
      .ok { first := 739300, last := 739700, profitUsd := some 24, returnPercent := some (4812 / 155) } := by decide +kernel
  refine ⟨by rw [early]; rfl, by rw [late]; rfl, ?_⟩
  exact profits_add (by decide) (by decide) (valueAt_ignoresZero fun _ => 12) early rfl late rfl whole rfl

end C3po.Portfolio
