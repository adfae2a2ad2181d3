import Mathlib.Data.Rat.Sqrt
import C3po.Producers.B3Units
import C3po.Producers.Requotes
import C3po.Producers.UsUnits

/-! A split of the shares, or another currency, changes the units of what the producers publish and
nothing else.
-/

set_option autoImplicit false

namespace C3po.Producers
open C3po.Library

/-- Splitting every share in so many divides the targets and the entry prices by as many, and in the
United States multiplying all money multiplies them. -/
theorem split_changes_units :
    (∀ (setting : Us.Setting) (factors : List (Option Us.Profile × ℚ)) (riskFreeRate : Option ℚ) (peers : Us.Profile → Us.PeerMedians)
      (dividendYield : Option ℚ) (tpCutoff riskCutoff : ℚ) (stock : Us.Stock) (published : Us.Published) (split : ℚ),
      Us.Rooted setting.sqrt → 0 < split → Us.foreignBridge stock.fundamentals.foreignListingPolicy = .ok none →
      Us.screenStock setting factors riskFreeRate peers dividendYield tpCutoff riskCutoff (stock.rescaled (1 / split) 1) (published.rescaled (1 / split)) =
        (Us.screenStock setting factors riskFreeRate peers dividendYield tpCutoff riskCutoff stock published).map fun screened =>
          (screened.1.rescaled (1 / split), screened.2.rescaled (1 / split))) ∧
    (∀ (setting : Us.Setting) (factors : List (Option Us.Profile × ℚ)) (riskFreeRate : Option ℚ) (peers : Us.Profile → Us.PeerMedians)
      (dividendYield : Option ℚ) (tpCutoff riskCutoff : ℚ) (stock : Us.Stock) (published : Us.Published) (money : ℚ),
      Us.Rooted setting.sqrt → 0 < money → Us.foreignBridge stock.fundamentals.foreignListingPolicy = .ok none →
      Us.screenStock setting factors riskFreeRate peers dividendYield tpCutoff riskCutoff (stock.rescaled money money) (published.rescaled money) =
        (Us.screenStock setting factors riskFreeRate peers dividendYield tpCutoff riskCutoff stock published).map fun screened =>
          (screened.1.rescaled money, screened.2.rescaled money)) ∧
    (∀ (maths : B3.RowMaths) (factors : List (Option B3.Profile × ℚ)) (context : B3.Macro) (today : Int) (medians : B3.Benchmark → Option B3.Metrics)
      (listing : B3.Listing) (split : ℚ), 0 < split →
      B3.listRow maths factors context today (listing.rescaled (1 / split)) medians =
        (B3.listRow maths factors context today listing medians).map (B3.Listed.rescaled (1 / split))) := by
  refine ⟨?_, ?_, ?_⟩
  · intro setting factors riskFreeRate peers dividendYield tpCutoff riskCutoff stock published split rooted pos unbridged
    exact Us.screenStock_rescaled dividendYield tpCutoff riskCutoff rooted (one_div_pos.mpr pos) one_pos unbridged
  · intro setting factors riskFreeRate peers dividendYield tpCutoff riskCutoff stock published money rooted pos unbridged
    exact Us.screenStock_rescaled dividendYield tpCutoff riskCutoff rooted pos pos unbridged
  · intro maths factors context today medians listing split pos
    exact B3.listRow_rescaled (one_div_pos.mpr pos) listing

section Sample

def squareRoot (value : ℚ) : ℚ := if Rat.sqrt value * Rat.sqrt value = value then Rat.sqrt value else 0

theorem squareRoot_rooted : Us.Rooted squareRoot := by
  intro factor value pos
  unfold squareRoot
  by_cases square : ∃ root, root * root = value
  · obtain ⟨root, rfl⟩ := square
    have scaled : factor ^ 2 * (root * root) = factor * root * (factor * root) := by ring
    rw [scaled, if_pos ((Rat.exists_mul_self _).mp ⟨_, rfl⟩), if_pos ((Rat.exists_mul_self _).mp ⟨_, rfl⟩), Rat.sqrt_eq, Rat.sqrt_eq, abs_mul,
      abs_of_pos pos]
  · have scaled : ¬ ∃ root, root * root = factor ^ 2 * value := by
      rintro ⟨root, same⟩
      refine square ⟨root / factor, ?_⟩
      rw [div_mul_div_comm, same, ← pow_two, mul_div_cancel_left₀ _ (pow_pos pos 2).ne']
    rw [if_neg ((Rat.exists_mul_self _).not.mp square), if_neg ((Rat.exists_mul_self _).not.mp scaled), mul_zero]

def squaresSetting : Us.Setting := { sqrt := squareRoot, lower := fun text => text }

theorem split_changes_units_sample :
    (Us.screenStock squaresSetting [] none (fun _ => ⟨none, none⟩) none 10 40 (Us.bookOnly.rescaled (1 / 2) 1) (Us.Published.rescaled (1 / 2) {}) =
      (Us.screenStock squaresSetting [] none (fun _ => ⟨none, none⟩) none 10 40 Us.bookOnly {}).map fun screened =>
        (screened.1.rescaled (1 / 2), screened.2.rescaled (1 / 2))) ∧
    (Us.screenStock squaresSetting [] none (fun _ => ⟨none, none⟩) none 10 40 (Us.bookOnly.rescaled 5 5) (Us.Published.rescaled 5 {}) =
      (Us.screenStock squaresSetting [] none (fun _ => ⟨none, none⟩) none 10 40 Us.bookOnly {}).map fun screened =>
        (screened.1.rescaled 5, screened.2.rescaled 5)) ∧
    (B3.listRow sampleMaths [] ⟨none, none⟩ 0 (bankListing.rescaled (1 / 2)) bankMedians =
      (B3.listRow sampleMaths [] ⟨none, none⟩ 0 bankListing bankMedians).map (B3.Listed.rescaled (1 / 2))) :=
  ⟨split_changes_units.1 squaresSetting [] none _ none 10 40 Us.bookOnly {} 2 squareRoot_rooted (by norm_num) rfl,
    split_changes_units.2.1 squaresSetting [] none _ none 10 40 Us.bookOnly {} 5 squareRoot_rooted (by norm_num) rfl,
    split_changes_units.2.2 sampleMaths [] ⟨none, none⟩ 0 bankMedians bankListing 2 (by norm_num)⟩

end Sample

end C3po.Producers
