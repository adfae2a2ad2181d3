import Mathlib.Algebra.Order.BigOperators.Group.List
import Mathlib.Data.List.GetD
import Mathlib.Data.List.Sort

/-! Values in order: sorting is monotone value by value, and what lies strictly inside of a sorted
list stays within bounds that one value alone breaks.
-/

set_option autoImplicit false

namespace C3po.Library

section Middle
variable {α : Type} {values : List α}

theorem getD_mem_tail {default : α} {index : ℕ} (after : 0 < index) (inside : index < values.length) : values.getD index default ∈ values.tail := by
  cases values with
  | nil => cases inside
  | cons first rest =>
    cases index with
    | zero => cases after
    | succ index =>
      rw [List.getD_cons_succ, List.getD_eq_getElem _ _ (Nat.lt_of_succ_lt_succ inside)]
      exact List.getElem_mem _

theorem getD_mem_dropLast {default : α} {index : ℕ} (before : index + 1 < values.length) : values.getD index default ∈ values.dropLast := by
  have inside : index < values.dropLast.length := by
    rw [List.length_dropLast]
    omega
  rw [List.getD_eq_getElem _ _ (by omega), ← List.getElem_dropLast inside]
  exact List.getElem_mem _

end Middle

section OrderStatistics
variable {α : Type} [LinearOrder α] {values others : List α}

def Between (values : List α) (value : α) : Prop := (∃ low ∈ values, low ≤ value) ∧ ∃ high ∈ values, value ≤ high

theorem exists_least (some : values ≠ []) : ∃ low ∈ values, ∀ value ∈ values, low ≤ value := by
  induction values with
  | nil => exact absurd rfl some
  | cons first rest ih =>
    by_cases none : rest = []
    · subst none
      exact ⟨first, List.mem_singleton_self first, fun value member => (List.mem_singleton.mp member).ge⟩
    · obtain ⟨low, member, least⟩ := ih none
      rcases le_total first low with before | after
      · refine ⟨first, List.mem_cons_self, fun value inside => ?_⟩
        rcases List.mem_cons.mp inside with rfl | later
        · exact le_refl _
        · exact before.trans (least value later)
      · refine ⟨low, List.mem_cons_of_mem first member, fun value inside => ?_⟩
        rcases List.mem_cons.mp inside with rfl | later
        · exact after
        · exact least value later

theorem exists_greatest (some : values ≠ []) : ∃ high ∈ values, ∀ value ∈ values, value ≤ high :=
  @exists_least αᵒᵈ _ values some

theorem between_of_bounds {value : α} (some : values ≠ []) (above : ∀ low, (∀ other ∈ values, low ≤ other) → low ≤ value)
    (below : ∀ high, (∀ other ∈ values, other ≤ high) → value ≤ high) : Between values value := by
  obtain ⟨low, least, lowest⟩ := exists_least some
  obtain ⟨high, most, highest⟩ := exists_greatest some
  exact ⟨⟨low, least, above low lowest⟩, high, most, below high highest⟩

theorem forall₂_orderedInsert {first second : α} (le : first ≤ second) (pointwise : List.Forall₂ (· ≤ ·) values others)
    (sorted : values.Pairwise (· ≤ ·)) (sorted' : others.Pairwise (· ≤ ·)) :
    List.Forall₂ (· ≤ ·) (values.orderedInsert (· ≤ ·) first) (others.orderedInsert (· ≤ ·) second) := by
  induction pointwise generalizing first second with
  | nil => exact .cons le .nil
  | @cons low high rest rest' below pointwise ih =>
    obtain ⟨least, sorted⟩ := List.pairwise_cons.mp sorted
    obtain ⟨least', sorted'⟩ := List.pairwise_cons.mp sorted'
    have head {value : α} {rest : List α} (least : ∀ other ∈ rest, value ≤ other) : rest.orderedInsert (· ≤ ·) value = value :: rest := by
      cases rest with
      | nil => rfl
      | cons other rest => exact List.orderedInsert_cons_of_le _ _ (least other List.mem_cons_self)
    rw [List.orderedInsert_cons, List.orderedInsert_cons]
    split
    · rename_i before
      split
      · exact .cons le (.cons below pointwise)
      · -- the first value goes before its list, the second past the head of its own
        rename_i after
        refine .cons (before.trans below) ?_
        rw [← head least]
        exact ih (below.trans (not_le.mp after).le) sorted sorted'
    · rename_i after
      split
      · rename_i before
        refine .cons ((not_le.mp after).le.trans le) ?_
        rw [← head least']
        exact ih (le.trans before) sorted sorted'
      · exact .cons below (ih le sorted sorted')

theorem forall₂_insertionSort (pointwise : List.Forall₂ (· ≤ ·) values others) :
    List.Forall₂ (· ≤ ·) (values.insertionSort (· ≤ ·)) (others.insertionSort (· ≤ ·)) := by
  induction pointwise with
  | nil => exact .nil
  | cons le _ ih => exact forall₂_orderedInsert le ih (List.pairwise_insertionSort _ _) (List.pairwise_insertionSort _ _)

theorem insertionSort_congr (perm : values.Perm others) : values.insertionSort (· ≤ ·) = others.insertionSort (· ≤ ·) :=
  (((List.perm_insertionSort _ values).trans perm).trans (List.perm_insertionSort _ others).symm).eq_of_pairwise'
    (List.pairwise_insertionSort _ _) (List.pairwise_insertionSort _ _)

theorem forall₂_getD {default : α} (pointwise : List.Forall₂ (· ≤ ·) values others) (index : ℕ) :
    values.getD index default ≤ others.getD index default := by
  induction pointwise generalizing index with
  | nil => exact le_refl _
  | cons le _ ih =>
    cases index with
    | zero => exact le
    | succ index => exact ih index

theorem le_of_mem_tail {low value : α} (sorted : values.Pairwise (· ≤ ·)) (few : values.countP (· < low) ≤ 1) (member : value ∈ values.tail) :
    low ≤ value := by
  cases values with
  | nil => cases member
  | cons first rest =>
    by_contra breaks
    have value_lt := not_le.mp breaks
    have first_lt : first < low := ((List.pairwise_cons.mp sorted).1 value member).trans_lt value_lt
    rw [List.countP_cons, if_pos (decide_eq_true first_lt)] at few
    have : 0 < rest.countP (· < low) := List.countP_pos_iff.mpr ⟨value, member, decide_eq_true value_lt⟩
    omega

theorem le_of_mem_dropLast {high value : α} (sorted : values.Pairwise (· ≤ ·)) (few : values.countP (high < ·) ≤ 1)
    (member : value ∈ values.dropLast) : value ≤ high := by
  have some : values ≠ [] := by
    rintro rfl
    cases member
  rw [← List.dropLast_append_getLast some] at sorted few
  by_contra breaks
  have lt_value := not_le.mp breaks
  have lt_last : high < values.getLast some :=
    lt_value.trans_le ((List.pairwise_append.mp sorted).2.2 value member _ (List.mem_singleton_self _))
  rw [List.countP_append, List.countP_singleton, if_pos (decide_eq_true lt_last)] at few
  have : 0 < values.dropLast.countP (high < ·) := List.countP_pos_iff.mpr ⟨value, member, decide_eq_true lt_value⟩
  omega

theorem countP_lt_getD {default low : α} {index : ℕ} (sorted : values.Pairwise (· ≤ ·)) (inside : index < values.length)
    (below : low ≤ values.getD index default) : values.countP (· < low) ≤ index := by
  rw [List.getD_eq_getElem _ _ inside] at below
  have tail : (values.drop index).countP (· < low) = 0 := by
    rw [List.drop_eq_getElem_cons inside, List.countP_eq_zero]
    have pairwise := sorted.sublist (List.drop_sublist index values)
    rw [List.drop_eq_getElem_cons inside, List.pairwise_cons] at pairwise
    intro value member
    rw [decide_eq_true_eq, not_lt]
    rcases List.mem_cons.mp member with rfl | later
    · exact below
    · exact below.trans (pairwise.1 value later)
  have whole := congrArg (List.countP (· < low)) (List.take_append_drop index values)
  rw [List.countP_append, tail, Nat.add_zero] at whole
  rw [← whole]
  exact List.countP_le_length.trans (List.length_take_le index values)

end OrderStatistics

end C3po.Library
