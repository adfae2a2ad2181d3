import Mathlib.Data.Rat.Floor

/-! Rounding to a number of decimals, halves to even. -/

set_option autoImplicit false

namespace C3po.Library

def halfEven (number : ℚ) : ℤ :=
  let floor := number.floor
  let rest := number - floor
  if rest < 1 / 2 then floor
  else if 1 / 2 < rest then floor + 1
  else if floor % 2 = 0 then floor else floor + 1

def roundTo (decimals : ℕ) (number : ℚ) : ℚ := halfEven (number * 10 ^ decimals) / 10 ^ decimals

def fixed (decimals : ℕ) (number : ℚ) : String :=
  let units := (halfEven (|number| * 10 ^ decimals)).toNat
  let part := toString (units % 10 ^ decimals)
  toString (units / 10 ^ decimals) ++ "." ++
    String.ofList (List.replicate (decimals - part.length) (Char.ofNat 48)) ++ part

def signed (decimals : ℕ) (number : ℚ) : String :=
  (if number < 0 then "-" else "+") ++ fixed decimals number

theorem halfEven_int (number : ℤ) : halfEven number = number := by
  have floor : (number : ℚ).floor = number := Rat.floor_intCast number
  unfold halfEven
  simp only [floor, sub_self]
  norm_num

@[simp] theorem roundTo_roundTo (decimals : ℕ) (number : ℚ) :
    roundTo decimals (roundTo decimals number) = roundTo decimals number := by
  have whole : roundTo decimals number * 10 ^ decimals = halfEven (number * 10 ^ decimals) := by
    unfold roundTo
    field_simp
  rw [roundTo, whole, halfEven_int]
  rfl

theorem halfEven_nonneg {number : ℚ} (nonneg : 0 ≤ number) : 0 ≤ halfEven number := by
  have floor : 0 ≤ number.floor := Rat.le_floor_iff.mpr (by simpa using nonneg)
  unfold halfEven
  simp only
  split_ifs <;> omega

/-- What is not positive rounds to nothing positive. -/
theorem halfEven_nonpos {number : ℚ} (nonpos : number ≤ 0) : halfEven number ≤ 0 := by
  have below : (number.floor : ℚ) ≤ number := Rat.le_floor_iff.mp le_rfl
  by_cases zero : number.floor < 0
  · unfold halfEven
    simp only
    split_ifs <;> omega
  · have floor : (0 : ℚ) ≤ number.floor := by exact_mod_cast not_lt.mp zero
    have same : number = ((0 : ℤ) : ℚ) := by
      push_cast
      linarith
    rw [same, halfEven_int]

theorem roundTo_nonneg {number : ℚ} (decimals : ℕ) (nonneg : 0 ≤ number) : 0 ≤ roundTo decimals number := by
  have whole : (0 : ℚ) ≤ halfEven (number * 10 ^ decimals) := by
    exact_mod_cast halfEven_nonneg (by positivity)
  unfold roundTo
  positivity

theorem pos_of_roundTo_pos {number : ℚ} {decimals : ℕ} (positive : 0 < roundTo decimals number) :
    0 < number := by
  by_contra nonpos
  have scaled : number * 10 ^ decimals ≤ 0 :=
    mul_nonpos_of_nonpos_of_nonneg (not_lt.mp nonpos) (by positivity)
  have whole : ((halfEven (number * 10 ^ decimals) : ℤ) : ℚ) ≤ 0 := by
    exact_mod_cast halfEven_nonpos scaled
  have rounded : roundTo decimals number ≤ 0 := div_nonpos_of_nonpos_of_nonneg whole (by positivity)
  exact absurd positive (not_lt.mpr rounded)

example : roundTo 2 (1 / 8) = 3 / 25 := by decide +kernel

/-! The last step of a ladder at or under a point, with one width of step or two. -/

variable {K : Type} [Field K] [LinearOrder K] [IsStrictOrderedRing K] [FloorRing K]

/-- The last of the points `base + k * step` that `x` reached. -/
def stepFloor (base step x : K) : K := base + step * ⌊(x - base) / step⌋

/-- Steps of one width under `wideFrom`, of another from there. -/
def bandFloor (base step wideFrom wideStep x : K) : K :=
  if x < wideFrom then stepFloor base step x else stepFloor wideFrom wideStep x

section OneWidth
variable {base step : K}

theorem stepFloor_le (positive : 0 < step) (x : K) : stepFloor base step x ≤ x := by
  have reached : step * ⌊(x - base) / step⌋ ≤ step * ((x - base) / step) :=
    mul_le_mul_of_nonneg_left (Int.floor_le _) positive.le
  rw [mul_div_cancel₀ _ positive.ne'] at reached
  unfold stepFloor
  linarith

theorem stepFloor_mono (positive : 0 < step) {x y : K} (le : x ≤ y) :
    stepFloor base step x ≤ stepFloor base step y := by
  unfold stepFloor
  have quotient : (x - base) / step ≤ (y - base) / step := by gcongr
  have whole : (⌊(x - base) / step⌋ : K) ≤ ⌊(y - base) / step⌋ :=
    Int.cast_le.mpr (Int.floor_mono quotient)
  gcongr

theorem base_le_stepFloor (positive : 0 < step) {x : K} (le : base ≤ x) : base ≤ stepFloor base step x := by
  have atBase : stepFloor base step base = base := by simp [stepFloor]
  calc base = stepFloor base step base := atBase.symm
    _ ≤ stepFloor base step x := stepFloor_mono positive le

end OneWidth

section TwoWidths
variable {base step wideFrom wideStep : K}

theorem bandFloor_le (narrow : 0 < step) (wide : 0 < wideStep) (x : K) :
    bandFloor base step wideFrom wideStep x ≤ x := by
  unfold bandFloor
  split
  · exact stepFloor_le narrow x
  · exact stepFloor_le wide x

theorem bandFloor_mono (narrow : 0 < step) (wide : 0 < wideStep) {x y : K} (le : x ≤ y) :
    bandFloor base step wideFrom wideStep x ≤ bandFloor base step wideFrom wideStep y := by
  unfold bandFloor
  by_cases under : y < wideFrom
  · rw [if_pos (le.trans_lt under), if_pos under]
    exact stepFloor_mono narrow le
  · rw [if_neg under]
    have past : wideFrom ≤ y := not_lt.mp under
    split
    · rename_i before
      calc stepFloor base step x ≤ x := stepFloor_le narrow x
        _ ≤ wideFrom := before.le
        _ ≤ stepFloor wideFrom wideStep y := base_le_stepFloor wide past
    · exact stepFloor_mono wide le

theorem base_le_bandFloor (narrow : 0 < step) (wide : 0 < wideStep) (bands : base ≤ wideFrom) {x : K}
    (le : base ≤ x) : base ≤ bandFloor base step wideFrom wideStep x := by
  unfold bandFloor
  split
  · exact base_le_stepFloor narrow le
  · rename_i past
    exact bands.trans (base_le_stepFloor wide (not_lt.mp past))

end TwoWidths
end C3po.Library
