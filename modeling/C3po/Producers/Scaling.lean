import C3po.Producers.B3
import C3po.Producers.Us

/-! Numbers in another unit: multiplied by a positive factor they keep their order, their signs and their
ratios, and every mean, median and bound of them is multiplied with them.
-/

set_option autoImplicit false

namespace C3po.Producers
open C3po.Library

/-- A number that may be missing, in another unit. -/
def times (factor : ℚ) (value : Option ℚ) : Option ℚ := value.map (factor * ·)

section Optional
variable {factor : ℚ} {value : Option ℚ}

@[simp] theorem times_none : times factor none = none := rfl
@[simp] theorem times_some (number : ℚ) : times factor (some number) = some (factor * number) := rfl
@[simp] theorem isSome_times : (times factor value).isSome = value.isSome := Option.isSome_map
@[simp] theorem isNone_times : (times factor value).isNone = value.isNone := Option.isNone_map
@[simp] theorem times_eq_none : times factor value = none ↔ value = none := Option.map_eq_none_iff

theorem times_or (other : Option ℚ) : times factor (value.or other) = (times factor value).or (times factor other) := Option.map_or

theorem getD_times (fallback : ℚ) : (times factor value).getD (factor * fallback) = factor * value.getD fallback := by
  cases value <;> rfl

theorem getD_times_zero : (times factor value).getD 0 = factor * value.getD 0 := by
  cases value with
  | none => exact (mul_zero factor).symm
  | some number => rfl

theorem times_map_mul (multiple : ℚ) : (times factor value).map (· * multiple) = times factor (value.map (· * multiple)) := by
  cases value with
  | none => rfl
  | some number => exact congrArg some (mul_assoc factor number multiple)

theorem positive_times (pos : 0 < factor) : positive (times factor value) = times factor (positive value) := by
  cases value with
  | none => rfl
  | some number => by_cases held : 0 < number <;> simp [positive, Option.filter, held, pos]

theorem truthy_times (pos : 0 < factor) : truthy (times factor value) = times factor (truthy value) := by
  cases value with
  | none => rfl
  | some number => by_cases held : number = 0 <;> simp [truthy, Option.filter, held, pos.ne']

theorem orElse_times (pos : 0 < factor) (other : Option ℚ) : orElse (times factor value) (times factor other) = times factor (orElse value other) := by
  unfold orElse
  rw [truthy_times pos, times_or]

end Optional

section Lists
variable {factor : ℚ}

theorem clamp_mul (pos : 0 < factor) (value low high : ℚ) : clamp (factor * value) (factor * low) (factor * high) = factor * clamp value low high := by
  unfold clamp
  rw [mul_max_of_nonneg _ _ pos.le, mul_min_of_nonneg _ _ pos.le]

theorem sum_map_mul (values : List ℚ) : (values.map (factor * ·)).sum = factor * values.sum := by
  induction values with
  | nil => exact (mul_zero factor).symm
  | cons value rest ih => rw [List.map_cons, List.sum_cons, List.sum_cons, ih, mul_add]

theorem mean_map_mul (values : List ℚ) : mean (values.map (factor * ·)) = factor * mean values := by
  unfold mean
  rw [sum_map_mul, List.length_map, mul_div_assoc]

theorem getD_map_mul (values : List ℚ) (index : ℕ) : (values.map (factor * ·)).getD index 0 = factor * values.getD index 0 := by
  rw [List.getD_eq_getElem?_getD, List.getD_eq_getElem?_getD, List.getElem?_map]
  exact getD_times_zero

theorem sorted_map_mul (pos : 0 < factor) (values : List ℚ) : sorted (values.map (factor * ·)) = (sorted values).map (factor * ·) :=
  (List.map_insertionSort (· ≤ ·) (· ≤ ·) (factor * ·) values fun _ _ _ _ => (mul_le_mul_iff_right₀ pos).symm).symm

theorem statisticsMedian_map_mul (pos : 0 < factor) (values : List ℚ) : statisticsMedian (values.map (factor * ·)) = factor * statisticsMedian values := by
  unfold statisticsMedian
  dsimp only
  rw [sorted_map_mul pos, List.length_map]
  split
  · exact getD_map_mul _ _
  · rw [getD_map_mul, getD_map_mul, ← mul_add, mul_div_assoc]

theorem filter_pos_map_mul (pos : 0 < factor) (values : List ℚ) :
    (values.map (factor * ·)).filter (0 < ·) = (values.filter (0 < ·)).map (factor * ·) := by
  rw [List.filter_map]
  congr 1
  refine List.filter_congr fun value _ => ?_
  simp [pos]

theorem median_map_mul (pos : 0 < factor) (values : List ℚ) (fallback : ℚ) :
    median (values.map (factor * ·)) (factor * fallback) = factor * median values fallback := by
  unfold median
  dsimp only
  rw [filter_pos_map_mul pos]
  simp only [List.map_eq_nil_iff]
  split
  · rfl
  · exact statisticsMedian_map_mul pos _

theorem percentile_map_mul (pos : 0 < factor) (values : List ℚ) (fraction : ℚ) :
    percentile (values.map (factor * ·)) fraction = factor * percentile values fraction := by
  unfold percentile
  dsimp only
  rw [filter_pos_map_mul pos, sorted_map_mul pos]
  simp only [List.map_eq_nil_iff, List.length_map]
  split
  · exact (mul_zero factor).symm
  · split
    · exact getD_map_mul _ _
    · rw [getD_map_mul, getD_map_mul]
      ring

end Lists

end C3po.Producers
