import Mathlib.Algebra.Order.Ring.Int
import Mathlib.Tactic.Ring

/-! The proleptic Gregorian calendar over day ordinals, where 1 January of year 1 is day 1. -/

set_option autoImplicit false

namespace C3po.Library.Calendar

def leap (year : Int) : Bool := year % 4 = 0 && (year % 100 ≠ 0 || year % 400 = 0)

/-- The ordinal of 1 January. -/
def newYear (year : Int) : Int :=
  (year - 1) * 365 + (year - 1) / 4 - (year - 1) / 100 + (year - 1) / 400 + 1

/-- The year of a day: whole cycles of 400, 100, 4 and 1 years before it. -/
def yearOf (day : Int) : Int :=
  let cycle := day - 1
  let century := cycle % 146097
  let quad := century % 36524
  let single := quad % 1461
  let year := cycle / 146097 * 400 + century / 36524 * 100 + quad / 1461 * 4 + single / 365 + 1
  if single / 365 = 4 ∨ century / 36524 = 4 then year - 1 else year

def monthLengths (year : Int) : List Int :=
  [31, if leap year then 29 else 28, 31, 30, 31, 30, 31, 31, 30, 31, 30, 31]

def monthDay : List Int → Int → Int → Int × Int
  | [], month, passed => (month, passed + 1)
  | length :: later, month, passed =>
      if passed < length then (month, passed + 1) else monthDay later (month + 1) (passed - length)

/-- The year, the month and the day of the month. -/
def civil (day : Int) : Int × Int × Int :=
  let year := yearOf day
  (year, monthDay (monthLengths year) 1 (day - newYear year))

def digits (width : ℕ) (number : Int) : String :=
  let text := toString number.toNat
  String.ofList (List.replicate (width - text.length) (Char.ofNat 48)) ++ text

def isoformat (day : Int) : String :=
  let (year, month, date) := civil day
  digits 4 year ++ "-" ++ digits 2 month ++ "-" ++ digits 2 date

def ofCivil (year month day : Int) : Int :=
  newYear year + ((monthLengths year).take (month - 1).toNat).sum + day - 1

theorem newYear_cycles {cycles centuries quads years : Int} (fewCenturies : 0 ≤ centuries ∧ centuries ≤ 3)
    (fewQuads : 0 ≤ quads ∧ quads ≤ 24) (fewYears : 0 ≤ years ∧ years ≤ 3) :
    newYear (cycles * 400 + centuries * 100 + quads * 4 + years + 1) =
      cycles * 146097 + centuries * 36524 + quads * 1461 + years * 365 + 1 := by
  have leapYears : (cycles * 400 + centuries * 100 + quads * 4 + years) / 4 =
      cycles * 100 + centuries * 25 + quads := by omega
  have whole : (cycles * 400 + centuries * 100 + quads * 4 + years) / 100 =
      cycles * 4 + centuries := by omega
  have rounds : (cycles * 400 + centuries * 100 + quads * 4 + years) / 400 = cycles := by omega
  unfold newYear
  rw [add_sub_cancel_right, leapYears, whole, rounds]
  ring

theorem newYear_yearOf_le (day : Int) : newYear (yearOf day) ≤ day := by
  obtain ⟨cycles, cyclesEq⟩ : ∃ cycles, cycles = (day - 1) / 146097 := ⟨_, rfl⟩
  obtain ⟨century, centuryEq⟩ : ∃ century, century = (day - 1) % 146097 := ⟨_, rfl⟩
  obtain ⟨centuries, centuriesEq⟩ : ∃ centuries, centuries = century / 36524 := ⟨_, rfl⟩
  obtain ⟨quads, quadsEq⟩ : ∃ quads, quads = century % 36524 / 1461 := ⟨_, rfl⟩
  obtain ⟨years, yearsEq⟩ : ∃ years, years = century % 36524 % 1461 / 365 := ⟨_, rfl⟩
  unfold yearOf
  simp only [← cyclesEq, ← centuryEq, ← centuriesEq, ← quadsEq, ← yearsEq]
  split
  · -- the last day of a cycle of four or of four hundred years
    rename_i last
    rcases last with fourth | fourth
    · have split : cycles * 400 + centuries * 100 + quads * 4 + years + 1 - 1 =
          cycles * 400 + centuries * 100 + quads * 4 + 3 + 1 := by omega
      rw [split, newYear_cycles (by omega) (by omega) (by omega)]
      omega
    · have split : cycles * 400 + centuries * 100 + quads * 4 + years + 1 - 1 =
          cycles * 400 + 3 * 100 + 24 * 4 + 3 + 1 := by omega
      rw [split, newYear_cycles (by omega) (by omega) (by omega)]
      omega
  · rw [newYear_cycles (by omega) (by omega) (by omega)]
    omega

theorem lt_newYear_succ (day : Int) : day < newYear (yearOf day + 1) := by
  obtain ⟨cycles, cyclesEq⟩ : ∃ cycles, cycles = (day - 1) / 146097 := ⟨_, rfl⟩
  obtain ⟨century, centuryEq⟩ : ∃ century, century = (day - 1) % 146097 := ⟨_, rfl⟩
  obtain ⟨centuries, centuriesEq⟩ : ∃ centuries, centuries = century / 36524 := ⟨_, rfl⟩
  obtain ⟨quads, quadsEq⟩ : ∃ quads, quads = century % 36524 / 1461 := ⟨_, rfl⟩
  obtain ⟨years, yearsEq⟩ : ∃ years, years = century % 36524 % 1461 / 365 := ⟨_, rfl⟩
  unfold yearOf
  simp only [← cyclesEq, ← centuryEq, ← centuriesEq, ← quadsEq, ← yearsEq]
  have nextCycle : newYear (cycles * 400 + 400 + 1) = (cycles + 1) * 146097 + 1 := by
    have split : cycles * 400 + 400 + 1 = (cycles + 1) * 400 + 0 * 100 + 0 * 4 + 0 + 1 := by omega
    rw [split, newYear_cycles (by omega) (by omega) (by omega)]
    omega
  split
  · rename_i last
    rw [Int.sub_add_cancel]
    rcases last with fourth | fourth
    · have split : cycles * 400 + centuries * 100 + quads * 4 + years + 1 =
          cycles * 400 + centuries * 100 + (quads + 1) * 4 + 0 + 1 := by omega
      rw [split, newYear_cycles (by omega) (by omega) (by omega)]
      omega
    · have split : cycles * 400 + centuries * 100 + quads * 4 + years + 1 = cycles * 400 + 400 + 1 := by omega
      rw [split, nextCycle]
      omega
  · -- the next year is in the same four, the next four, the next century or the next cycle
    by_cases third : years < 3
    · have split : cycles * 400 + centuries * 100 + quads * 4 + years + 1 + 1 =
          cycles * 400 + centuries * 100 + quads * 4 + (years + 1) + 1 := by omega
      rw [split, newYear_cycles (by omega) (by omega) (by omega)]
      omega
    · by_cases lastFour : quads < 24
      · have split : cycles * 400 + centuries * 100 + quads * 4 + years + 1 + 1 =
            cycles * 400 + centuries * 100 + (quads + 1) * 4 + 0 + 1 := by omega
        rw [split, newYear_cycles (by omega) (by omega) (by omega)]
        omega
      · by_cases lastCentury : centuries < 3
        · have split : cycles * 400 + centuries * 100 + quads * 4 + years + 1 + 1 =
              cycles * 400 + (centuries + 1) * 100 + 0 * 4 + 0 + 1 := by omega
          rw [split, newYear_cycles (by omega) (by omega) (by omega)]
          omega
        · have split : cycles * 400 + centuries * 100 + quads * 4 + years + 1 + 1 = cycles * 400 + 400 + 1 := by omega
          rw [split, nextCycle]
          omega

example : civil 739890 = (2026, 10, 1) := by decide
example : ofCivil 2026 10 1 = 739890 := by decide
example : isoformat 739890 = "2026-10-01" := by decide +kernel

/-! A day and its year, month and date determine each other. -/

theorem newYear_mono {earlier later : Int} (order : earlier ≤ later) : newYear earlier ≤ newYear later := by
  unfold newYear
  omega

theorem yearOf_eq {year day : Int} (since : newYear year ≤ day) (before : day < newYear (year + 1)) : yearOf day = year := by
  have own := newYear_yearOf_le day
  have next := lt_newYear_succ day
  rcases lt_trichotomy (yearOf day) year with less | same | more
  · have past := newYear_mono (show yearOf day + 1 ≤ year by omega)
    omega
  · exact same
  · have past := newYear_mono (show year + 1 ≤ yearOf day by omega)
    omega

theorem newYear_succ (year : Int) : newYear (year + 1) = newYear year + (if leap year then 366 else 365) := by
  unfold newYear leap
  simp only [Bool.and_eq_true, Bool.or_eq_true, decide_eq_true_eq]
  split <;> omega

theorem passed_of_monthDay {lengths : List Int} {first passed : Int} :
    first ≤ (monthDay lengths first passed).1 ∧
      passed = (lengths.take ((monthDay lengths first passed).1 - first).toNat).sum + (monthDay lengths first passed).2 - 1 := by
  induction lengths generalizing first passed with
  | nil =>
    unfold monthDay
    simp
  | cons length later ih =>
    unfold monthDay
    split
    · simp
    · obtain ⟨after, days⟩ := @ih (first + 1) (passed - length)
      generalize monthDay later (first + 1) (passed - length) = result at after days ⊢
      obtain ⟨months, same⟩ : ∃ months, (result.1 - first).toNat = months + 1 ∧ (result.1 - (first + 1)).toNat = months :=
        ⟨(result.1 - (first + 1)).toNat, by omega, rfl⟩
      rw [same.1, List.take_succ_cons, List.sum_cons]
      rw [same.2] at days
      exact ⟨by omega, by omega⟩

theorem ofCivil_civil (day : Int) : ofCivil (civil day).1 (civil day).2.1 (civil day).2.2 = day := by
  have passed := (@passed_of_monthDay (monthLengths (yearOf day)) 1 (day - newYear (yearOf day))).2
  unfold ofCivil civil
  dsimp only
  omega

end C3po.Library.Calendar
