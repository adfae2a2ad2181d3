import C3po.Producers.Requotes
import C3po.Producers.UsUnits

/-! The margin of the entry price of the United States: the cap on it is taken of the target before the
calibration of the screener scales the target.
-/

set_option autoImplicit false

namespace C3po.Producers.Us
open C3po.Library

section Cap
variable {entry target factor : ℚ}

/-- A price capped at nine tenths of a target keeps to nine tenths of the scaled target just where the
scale does not lower it, or where the price is that far below by itself. -/
theorem capped_iff (pos : 0 < target) : min entry (target * 0.90) ≤ 0.90 * (target * factor) ↔ 1 ≤ factor ∨ entry ≤ 0.90 * factor * target := by
  have own : target * 0.90 ≤ 0.90 * (target * factor) ↔ 1 ≤ factor := by
    constructor
    · intro below
      by_contra lower
      have := mul_lt_mul_of_pos_left (not_le.mp lower) pos
      linarith
    · intro above
      have := mul_le_mul_of_nonneg_left above pos.le
      linarith
  have same : 0.90 * (target * factor) = 0.90 * factor * target := by ring
  rw [min_le_iff, own, same]
  exact or_comm

theorem calibrationFactor_pos (factors : List (Option Profile × ℚ)) (profile : Profile) : 0 < calibrationFactor factors profile :=
  lt_of_lt_of_le (by norm_num) le_clamp

theorem mean_map_div (values : List ℚ) (rate : ℚ) : mean (values.map fun value => value / rate) = mean values / rate := by
  have scaled : (values.map fun value => value / rate) = values.map (rate⁻¹ * ·) :=
    List.map_congr_left fun value _ => by rw [div_eq_inv_mul]
  rw [scaled, mean_map_mul, div_eq_inv_mul]

end Cap

section Blend
variable {internalTp : ℚ} {consensus : Option ℚ}

theorem usConsensusWeight_within (consensus : Option ℚ) (analystCount : Option ℤ) : Within 0 1 (usConsensusWeight consensus analystCount) := by
  unfold usConsensusWeight
  split
  · split
    · exact ⟨le_rfl, zero_le_one⟩
    · exact ⟨le_trans (by norm_num) le_clamp, (Within.clamp (by norm_num)).2.trans (by norm_num)⟩
  · exact ⟨le_rfl, zero_le_one⟩

theorem officialBlendV1_pos {weight : ℚ} (pos : 0 < internalTp) (published : ∀ target, consensus = some target → 0 < target)
    (within : Within 0 1 weight) : 0 < officialBlendV1 internalTp consensus weight := by
  unfold officialBlendV1
  split
  · exact pos
  · split
    · exact pos
    · rename_i target weighted
      have target := published _ rfl
      have share := mul_pos target (not_le.mp weighted)
      have rest := mul_nonneg pos.le (sub_nonneg.mpr within.2)
      linarith

end Blend

section Analysis
variable {setting : Setting} {factors : List (Option Profile × ℚ)} {riskFreeRate : Option ℚ} {peers : Profile → PeerMedians} {stock : Stock}
  {published : Published} {analysis : Analysis} {valued : Valued}

def Analysis.center (analysis : Analysis) : ℚ := mean (analysis.methods.map Prod.snd)

/-- The target that an analysis makes of its methods and of its consensus. -/
def Analysis.blend (analysis : Analysis) : ℚ := officialBlendV1 analysis.center analysis.consensus analysis.consensusWeightDiagnostic

def Analysis.hurdled (analysis : Analysis) : ℚ := analysis.center / (1 + officialEntryDiscountV1 analysis.riskScore analysis.confidence)

/-- The calibration lowers no target, or by less than the entry hurdle takes off. -/
def Margin (factor : ℚ) (analysis : Analysis) : Prop := 1 ≤ factor ∨ analysis.hurdled ≤ 0.90 * factor * min analysis.center analysis.blend

/-- An analysis without a bridge: its methods and its target are positive, and its entry price is capped. -/
structure Unbridged (analysis : Analysis) : Prop where
  methods : ∀ entry ∈ analysis.methods, 0 < entry.2
  center : 0 < analysis.center
  blend : 0 < analysis.blend
  registered : analysis.methodEstimateRegisteredOn = none
  consensus : positive analysis.consensus = analysis.consensus
  target : analysis.c3poTp = analysis.blend
  entry : analysis.buyIn = min analysis.hurdled (analysis.blend * 0.90)

theorem officialBuyInV1_eq (values : List ℚ) (entryDiscount tp : ℚ) :
    officialBuyInV1 values entryDiscount tp = min (mean values / (1 + entryDiscount)) (tp * 0.90) := by
  unfold officialBuyInV1
  rw [mean_map_div]

theorem frameworkMethods_ne_nil (price : ℚ) (read : Reading) : (frameworkMethods riskFreeRate peers stock price read).map Prod.snd ≠ [] := by
  unfold frameworkMethods
  intro none
  have raw : (rawMethods riskFreeRate peers stock price read).map Prod.snd ≠ [] := rawMethods_ne_nil
  apply raw
  exact List.map_eq_nil_iff.mpr (List.map_eq_nil_iff.mp (List.map_eq_nil_iff.mp none))

theorem analyze_unbridged (done : analyze setting riskFreeRate peers stock published = .ok analysis)
    (unbridged : foreignBridge stock.fundamentals.foreignListingPolicy = .ok none) : Unbridged analysis := by
  unfold analyze at done
  cases priced : positive stock.price with
  | none => simp only [priced] at done; cases done
  | some price =>
    simp only [priced, unbridged] at done
    cases done
    have each : ∀ entry ∈ frameworkMethods riskFreeRate peers stock price (reading setting stock.fundamentals), 0 < entry.2 :=
      frameworkMethods_pos _ (positive_eq_some priced).2
    have some : (frameworkMethods riskFreeRate peers stock price (reading setting stock.fundamentals)).map Prod.snd ≠ [] := frameworkMethods_ne_nil _ _
    have center := mean_pos some fun value here => by
        obtain ⟨entry, mem, rfl⟩ := List.mem_map.mp here
        exact each entry mem
    have consensus : positive (resolvedConsensus published price).target = _ := positive_resolvedConsensus published
    refine
      { methods := each, center, blend := ?_, registered := rfl, consensus, target := rfl
        entry := officialBuyInV1_eq _ _ _ }
    exact officialBlendV1_pos center (fun target found => (positive_eq_some (consensus.trans found)).2) (usConsensusWeight_within _ _)

/-- The value of a stock without a bridge: the calibration scales both targets and neither entry price. -/
theorem analyzeStock_unbridged (held : Unbridged analysis) (done : analyze setting riskFreeRate peers stock published = .ok analysis)
    (valuation : analyzeStock setting factors riskFreeRate peers stock published = .ok valued) :
    valued.ourTp = analysis.blend * calibrationFactor factors analysis.profile ∧
      valued.internalTp = analysis.center * calibrationFactor factors analysis.profile ∧
      valued.buyIn = min analysis.hurdled (analysis.blend * 0.90) ∧ valued.internalBuyIn = min analysis.hurdled (analysis.center * 0.90) := by
  unfold analyzeStock at valuation
  rw [done] at valuation
  cases valuation
  have every : analysis.methods.filter (fun entry => 0 < entry.2) = analysis.methods :=
    List.filter_eq_self.mpr fun entry mem => decide_eq_true (held.methods entry mem)
  dsimp only
  rw [every, held.target, held.entry, held.registered, held.consensus]
  refine ⟨rfl, rfl, rfl, ?_⟩
  split
  · rename_i alone
    have none : analysis.consensus = none := alone.resolve_left (by simp)
    have same : analysis.blend = analysis.center := by
      unfold Analysis.blend
      rw [none]
      rfl
    rw [same]
  · exact officialBuyInV1_eq _ _ _

/-- Both entry prices keep to nine tenths of their targets just where the margin covers the calibration. -/
theorem margin_iff (held : Unbridged analysis) (done : analyze setting riskFreeRate peers stock published = .ok analysis)
    (valuation : analyzeStock setting factors riskFreeRate peers stock published = .ok valued) :
    valued.buyIn ≤ 0.90 * valued.ourTp ∧ valued.internalBuyIn ≤ 0.90 * valued.internalTp ↔
      Margin (calibrationFactor factors analysis.profile) analysis := by
  obtain ⟨ourTp, internalTp, buyIn, internalBuyIn⟩ := analyzeStock_unbridged held done valuation
  have factor := calibrationFactor_pos factors analysis.profile
  rw [ourTp, internalTp, buyIn, internalBuyIn, capped_iff held.blend, capped_iff held.center, ← or_and_left, Margin,
    mul_min_of_nonneg _ _ (by positivity), le_min_iff, and_comm (a := analysis.hurdled ≤ _)]

end Analysis

section Serving
variable {setting : Setting} {factors : List (Option Profile × ℚ)} {riskFreeRate : Option ℚ} {peers : Profile → PeerMedians} {stock : Stock}
  {published : Published} {analysis : Analysis} {valued : Valued} {row : Row}

/-- The entry prices of a row keep to nine tenths of their targets, in the row, in its records and in the
rows that are served of it. -/
structure Capped (row : Official.Row) : Prop where
  own : ∀ tp buyIn, row.ourTp = some tp → row.buyIn = some buyIn → buyIn ≤ 0.90 * tp
  internal : ∀ tp buyIn, row.internalTp = some tp → row.internalBuyIn = some buyIn → buyIn ≤ 0.90 * tp
  recorded : ∀ cycle market clocks session source record,
    Official.predictionFromRow cycle market clocks session source row = some record → record.buyIn ≤ 0.90 * record.tp
  served : ∀ (service : Service) source shown tp buyIn,
    service.serve source row = some shown → shown.ourTp = some tp → shown.buyIn = some buyIn → buyIn ≤ 0.90 * tp

theorem predictionFromRow_numbers {cycle : Official.Cycle} {market : Official.Market} {clocks : Int × Int × Option String} {session : Int}
    {source : Official.Source} {row : Official.Row} {record : Official.Prediction}
    (made : Official.predictionFromRow cycle market clocks session source row = some record) :
    Official.rowNumbers source row = some (record.tp, record.buyIn) := by
  unfold Official.predictionFromRow at made
  split at made
  · cases made
  · obtain ⟨numbers, read, rfl⟩ := Option.map_eq_some_iff.mp made
    exact read

theorem capped_of_own {row : Official.Row} {price : ℚ} (priced : row.price = some price) (pos : 0 < price)
    (own : ∀ tp buyIn, row.ourTp = some tp → row.buyIn = some buyIn → buyIn ≤ 0.90 * tp)
    (internal : ∀ tp buyIn, row.internalTp = some tp → row.internalBuyIn = some buyIn → buyIn ≤ 0.90 * tp) : Capped row where
  own
  internal
  recorded := by
    intro cycle market clocks session source record made
    have read := predictionFromRow_numbers made
    cases source with
    | blend =>
      obtain ⟨target, -, entry, -⟩ := positive_of_bind read
      exact own _ _ target entry
    | internal =>
      obtain ⟨target, -, entry, -⟩ := positive_of_bind read
      exact internal _ _ target entry
  served := by
    intro service source shown tp buyIn served target entry
    obtain ⟨tp', buyIn', shows⟩ := service.serve_shows priced pos served
    cases target.symm.trans shows.target
    cases entry.symm.trans shows.entry
    have numbers := shows.numbers
    cases source with
    | blend => exact own _ _ numbers.1 numbers.2
    | internal => exact internal _ _ numbers.1 numbers.2

/-- A row that the screener emits without a bridge is capped in all that is served of it just where the margin
of its analysis covers the calibration. -/
theorem entry_margin (dividendYield : Option ℚ) (tpCutoff riskCutoff : ℚ)
    (done : analyze setting riskFreeRate peers stock published = .ok analysis)
    (unbridged : foreignBridge stock.fundamentals.foreignListingPolicy = .ok none)
    (screened : screenStock setting factors riskFreeRate peers dividendYield tpCutoff riskCutoff stock published = .ok (valued, row)) :
    Capped row.official ↔ Margin (calibrationFactor factors analysis.profile) analysis := by
  obtain ⟨price, bridge, priced, -⟩ := analyze_ok done
  obtain ⟨found, paid⟩ := positive_eq_some priced
  unfold screenStock at screened
  cases valuation : analyzeStock setting factors riskFreeRate peers stock published with
  | error refusal => rw [valuation] at screened; cases screened
  | ok value =>
    rw [valuation] at screened
    cases screened
    rw [← margin_iff (analyze_unbridged done unbridged) done valuation]
    constructor
    · intro capped
      exact ⟨capped.own _ _ rfl rfl, capped.internal _ _ rfl rfl⟩
    · rintro ⟨own, internal⟩
      refine @capped_of_own _ price ?_ paid ?_ ?_
      · show some (stock.price.getD 0) = some price
        rw [found, Option.getD_some]
      · intro tp buyIn target entry
        cases target
        cases entry
        exact own
      · intro tp buyIn target entry
        cases target
        cases entry
        exact internal

end Serving

section Sample

/-- A company of little risk. -/
def steady : Stock :=
  { software with fundamentals := { software.fundamentals with beta := some (2 / 5), sharesOutstanding := some 10, ebitda := some 60 } }

theorem entry_margin_steady : ∃ analysis valued row, analyze sampleSetting none (fun _ => ⟨none, none⟩) steady {} = .ok analysis ∧
    screenStock sampleSetting [] none (fun _ => ⟨none, none⟩) none 10 40 steady {} = .ok (valued, row) ∧ Capped row.official := by
  obtain ⟨analysis, done⟩ : ∃ analysis, analyze sampleSetting none (fun _ => ⟨none, none⟩) steady {} = .ok analysis := ⟨_, rfl⟩
  obtain ⟨screened, emitted⟩ : ∃ screened, screenStock sampleSetting [] none (fun _ => ⟨none, none⟩) none 10 40 steady {} = .ok screened :=
    ⟨_, rfl⟩
  refine ⟨analysis, screened.1, screened.2, done, emitted, ?_⟩
  have uncalibrated : 1 ≤ calibrationFactor [] analysis.profile := by
    have one : calibrationFactor [] analysis.profile = clamp 1 (1 - 0.05) (1 + 0.05) := rfl
    rw [one]
    decide +kernel
  exact (entry_margin none 10 40 done rfl emitted).mpr (.inl uncalibrated)

/-- The screener calibrates its targets down by the most it may, and the entry price is above nine tenths of them. -/
theorem entry_exceeds : ¬ ∀ (setting : Setting) (factors : List (Option Profile × ℚ)) (riskFreeRate : Option ℚ) (peers : Profile → PeerMedians)
    (dividendYield : Option ℚ) (tpCutoff riskCutoff : ℚ) (stock : Stock) (published : Published) (valued : Valued) (row : Row),
      foreignBridge stock.fundamentals.foreignListingPolicy = .ok none →
      screenStock setting factors riskFreeRate peers dividendYield tpCutoff riskCutoff stock published = .ok (valued, row) →
      Capped row.official := by
  intro claim
  obtain ⟨screened, emitted⟩ : ∃ screened,
      screenStock sampleSetting [(none, 19 / 20)] none (fun _ => ⟨none, none⟩) none 10 40 steady {} = .ok screened := ⟨_, rfl⟩
  have exceeds : ((screenStock sampleSetting [(none, 19 / 20)] none (fun _ => ⟨none, none⟩) none 10 40 steady {}).toOption.any fun screened =>
      screened.2.official.ourTp.any fun tp => screened.2.official.buyIn.any fun buyIn => 0.90 * tp < buyIn) = true := by decide +kernel
  rw [emitted] at exceeds
  obtain ⟨screened, same, exceeds⟩ := (Option.any_eq_true _ _).mp exceeds
  cases same
  obtain ⟨tp, target, entered⟩ := (Option.any_eq_true _ _).mp exceeds
  obtain ⟨buyIn, entry, above⟩ := (Option.any_eq_true _ _).mp entered
  have capped := claim _ _ _ _ _ _ _ steady {} screened.1 screened.2 rfl emitted
  exact absurd (capped.own tp buyIn target entry) (not_le.mpr (of_decide_eq_true above))

end Sample

end C3po.Producers.Us
