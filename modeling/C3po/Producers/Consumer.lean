import C3po.Producers.Independence
import C3po.Producers.Scaling

/-! The one pager in the role of a consumer: it shows the official target and entry price, five methods
rebuilt from the components of the official row, and three scenarios around the target.
-/

set_option autoImplicit false

namespace C3po.Producers.OnePager
open C3po.Library Us

section Report

/-- An official row as the report reads it; a component may be there without a value. -/
structure Valuation where
  ourTp : Option ℚ := none
  buyIn : Option ℚ := none
  internalTp : Option ℚ := none
  publicConsensusTp : Option ℚ := none
  analystCount : Option ℤ := none
  riskScore : Option ℚ := none
  operatingQuality : Option ℚ := none
  valuationConfidence : Option ℚ := none
  methodDispersionPercent : Option ℚ := none
  methods : List (String × Option ℚ) := []
  deriving DecidableEq, Repr

/-- What the analysis of a name has before its role is looked at: the quote, and what it reads of the
fundamentals of the name. -/
structure Framework where
  price : ℚ
  paid : 0 < price
  profile : Profile
  growth : ℚ
  riskScore : ℚ
  confidence : ℚ
  consensus : Option ℚ
  analystCount : Option ℤ

def Valuation.component (row : Valuation) (name : String) : Option ℚ := (Dict.find name row.methods).join

def truthyCount (count : Option ℤ) : Option ℤ := count.filter (· ≠ 0)

/-- The five methods that the components of a row give, before they are reconciled. -/
def sharedRaw (row : Valuation) (sharedTp : ℚ) (profile : Profile) : List (String × ℚ) :=
  let internalTp := (positive row.internalTp).getD sharedTp
  let earnings := positive (orElse (row.component "earnings") (row.component "cycle_earnings"))
  let enterprise := positive (orElse (row.component "enterprise") (row.component "cycle_enterprise"))
  let dcf := positive (orElse (row.component "dcf") (row.component "residual"))
  let book := positive (row.component "book")
  let dividend := positive (row.component "dividend")
  let publicConsensus := positive row.publicConsensusTp
  let riskScore := clamp ((truthy row.riskScore).getD 50) 0 100
  let qualityScore := clamp ((truthy row.operatingQuality).getD 50) 0 100
  List.zip (if profile = .financial then financialMethodNames else standardMethodNames)
    [weightedValue [(enterprise, 0.45), (earnings, 0.35), (book, 0.20)] internalTp,
     weightedValue [(dcf, 0.75), (enterprise, 0.25)] internalTp,
     weightedValue [(dcf, 0.30), (earnings, 0.25), (book, 0.15), (publicConsensus, 0.30)] internalTp * clamp (1 - (riskScore - 50) / 500) 0.88 1.08,
     weightedValue [(earnings, 0.70), (enterprise, 0.15), (publicConsensus, 0.15)] internalTp,
     weightedValue [(dcf, 0.25), (earnings, 0.20), (enterprise, 0.20), (dividend, 0.10), (publicConsensus, 0.25)] internalTp *
       clamp (1 + (qualityScore - 50) / 700) 0.92 1.08]

/-- The methods near the middle of the five, scaled to have the official target as their mean. -/
def sharedFrameworkMethods (row : Valuation) (sharedTp : ℚ) (profile : Profile) : List (String × ℚ) :=
  let raw := sharedRaw row sharedTp profile
  let center := statisticsMedian (raw.map Prod.snd)
  let reconciled := raw.map fun entry => (entry.1, clamp entry.2 (center * 0.70) (center * 1.30))
  let scale := sharedTp / mean (reconciled.map Prod.snd)
  reconciled.map fun entry => (entry.1, entry.2 * scale)

def rating (upside : ℚ) : String :=
  if 25 ≤ upside then "COMPRA" else if 10 ≤ upside then "ACUMULAR" else if -10 ≤ upside then "NEUTRO" else "REDUZIR"

structure Report where
  c3poTp : ℚ
  buyIn : ℚ
  methods : List (String × ℚ)
  consensusTp : Option ℚ
  consensusUpside : Option ℚ
  analystCount : Option ℤ
  riskScore : ℚ
  confidence : ℚ
  dispersion : ℚ
  upsidePercent : ℚ
  rating : String
  bear : ℚ
  base : ℚ
  bull : ℚ
  deriving DecidableEq, Repr

inductive Refusal where
  | analysis (refusal : Us.Refusal)
  | unofficial
  deriving DecidableEq, Repr

/-- The report of a name from its official row; without one there is none. -/
def consumerReport (setting : Setting) (framework : Framework) (row : Option Valuation) : Except Refusal Report :=
  match row, row.bind fun row => positive row.ourTp, row.bind fun row => positive row.buyIn with
  | some row, some c3poTp, some buyIn =>
      let methods := sharedFrameworkMethods row c3poTp framework.profile
      let values := methods.map Prod.snd
      let consensus := (boundedTp row.publicConsensusTp framework.price).or framework.consensus
      let riskScore := clamp ((truthy row.riskScore).getD framework.riskScore) 0 100
      let upside := (c3poTp / framework.price - 1) * 100
      .ok
        { c3poTp, buyIn, methods
          consensusTp := consensus
          consensusUpside := (truthy consensus).map fun consensus => (consensus / framework.price - 1) * 100
          analystCount := (truthyCount row.analystCount).or (truthyCount framework.analystCount)
          riskScore
          confidence := clamp ((truthy row.valuationConfidence).getD framework.confidence) 0 100
          dispersion := max 0 ((truthy row.methodDispersionPercent).getD (dispersionOf setting values))
          upsidePercent := upside
          rating := rating upside
          bear := max (values.min?.getD 0 * (1 - clamp (riskScore / 350) 0.06 0.22)) (framework.price * 0.35)
          base := c3poTp
          bull := values.max?.getD 0 * (1 + clamp (max framework.growth 0 * 0.40 + 0.05) 0.06 0.18) }
  | _, _, _ => .error .unofficial

def frameworkOf (setting : Setting) (riskFreeRate : Option ℚ) (peers : Profile → PeerMedians) (stock : Stock) (published : Us.Published) :
    Except Us.Refusal Framework :=
  match priced : positive stock.price with
  | none => .error .price
  | some price => (analyze setting riskFreeRate peers stock published).map fun analysis =>
      { price
        paid := (positive_eq_some priced).2
        profile := analysis.profile
        growth := (reading setting stock.fundamentals).growth
        riskScore := analysis.riskScore
        confidence := analysis.confidence
        consensus := analysis.consensus
        analystCount := analysis.analystCount }

end Report

section Methods
variable {row : Valuation} {sharedTp : ℚ} {profile : Profile}

theorem positive_pos {value : Option ℚ} {number : ℚ} (found : positive value = some number) : 0 < number := (positive_eq_some found).2

theorem getD_positive_pos {value : Option ℚ} {fallback : ℚ} (pos : 0 < fallback) : 0 < (positive value).getD fallback := by
  cases found : positive value with
  | none => exact pos
  | some number => exact positive_pos found

theorem clamp_pos {value low high : ℚ} (pos : 0 < low) : 0 < clamp value low high := pos.trans_le le_clamp

theorem sharedRaw_length : (sharedRaw row sharedTp profile).length = 5 := by
  unfold sharedRaw
  split <;> rfl

theorem sharedRaw_pos (pos : 0 < sharedTp) : ∀ entry ∈ sharedRaw row sharedTp profile, 0 < entry.2 := by
  have internal : 0 < (positive row.internalTp).getD sharedTp := getD_positive_pos pos
  intro entry here
  unfold sharedRaw at here
  have value := (List.of_mem_zip here).2
  simp only [List.mem_cons, List.not_mem_nil, or_false] at value
  obtain first | second | third | fourth | fifth := value
  · rw [first]
    exact weightedValue_pos (by norm_num) internal
  · rw [second]
    exact weightedValue_pos (by norm_num) internal
  · rw [third]
    exact mul_pos (weightedValue_pos (by norm_num) internal) (clamp_pos (by norm_num))
  · rw [fourth]
    exact weightedValue_pos (by norm_num) internal
  · rw [fifth]
    exact mul_pos (weightedValue_pos (by norm_num) internal) (clamp_pos (by norm_num))

theorem sharedFrameworkMethods_spec (pos : 0 < sharedTp) :
    (sharedFrameworkMethods row sharedTp profile).length = 5 ∧ mean ((sharedFrameworkMethods row sharedTp profile).map Prod.snd) = sharedTp ∧
      ∃ center, 0 < center ∧ ∀ entry ∈ sharedFrameworkMethods row sharedTp profile, Within (center * 0.70) (center * 1.30) entry.2 := by
  have five : (sharedRaw row sharedTp profile).length = 5 := sharedRaw_length
  have some : (sharedRaw row sharedTp profile).map Prod.snd ≠ [] := by
    rw [ne_eq, List.map_eq_nil_iff]
    exact List.length_pos_iff.mp (by omega)
  have middle := statisticsMedian_pos some (List.forall_mem_map.mpr (sharedRaw_pos pos))
  unfold sharedFrameworkMethods
  dsimp only
  generalize statisticsMedian ((sharedRaw row sharedTp profile).map Prod.snd) = center at middle ⊢
  have meet : center * 0.70 ≤ center * 1.30 := by linarith
  have reconciled : ∀ entry ∈ (sharedRaw row sharedTp profile).map fun entry => (entry.1, clamp entry.2 (center * 0.70) (center * 1.30)),
      Within (center * 0.70) (center * 1.30) entry.2 := List.forall_mem_map.mpr fun entry _ => Within.clamp meet
  have counted : ((sharedRaw row sharedTp profile).map fun entry => (entry.1, clamp entry.2 (center * 0.70) (center * 1.30))).length = 5 := by
    rw [List.length_map, five]
  generalize (sharedRaw row sharedTp profile).map (fun entry => (entry.1, clamp entry.2 (center * 0.70) (center * 1.30))) = methods at reconciled counted ⊢
  have positive : ∀ value ∈ methods.map Prod.snd, 0 < value :=
    List.forall_mem_map.mpr fun entry mem => (by linarith : (0 : ℚ) < center * 0.70).trans_le (reconciled entry mem).1
  have average := mean_pos (List.ne_nil_of_length_pos (by rw [List.length_map]; omega)) positive
  have scale := div_pos pos average
  refine ⟨by rw [List.length_map, counted], ?_, center * (sharedTp / mean (methods.map Prod.snd)), mul_pos middle scale, ?_⟩
  · have scaled : (methods.map fun entry => (entry.1, entry.2 * (sharedTp / mean (methods.map Prod.snd)))).map Prod.snd =
        (methods.map Prod.snd).map (sharedTp / mean (methods.map Prod.snd) * ·) := by
      rw [List.map_map, List.map_map]
      exact List.map_congr_left fun entry _ => mul_comm _ _
    rw [scaled, mean_map_mul, div_mul_cancel₀ _ average.ne']
  · refine List.forall_mem_map.mpr fun entry mem => ?_
    rw [mul_right_comm center _ 0.70, mul_right_comm center _ 1.30]
    exact (reconciled entry mem).mul_right scale.le

end Methods

section Scenarios
variable {setting : Setting} {framework : Framework} {row : Valuation} {report : Report}

/-- A report agrees with the official row: its target and entry price are those of the row, its methods
have the target as their mean and its scenarios stand around it. -/
structure Consistent (row : Valuation) (report : Report) : Prop where
  target : row.ourTp = some report.c3poTp
  entry : row.buyIn = some report.buyIn
  methods : report.methods.length = 5 ∧ ∀ entry ∈ report.methods, 0 < entry.2
  mean : mean (report.methods.map Prod.snd) = report.c3poTp
  spread : ∀ first ∈ report.methods, ∀ second ∈ report.methods, first.2 ≤ 1.30 / 0.70 * second.2
  base : report.base = report.c3poTp
  bear : report.bear ≤ report.base
  bull : report.base ≤ report.bull

/-- The ends of the scenarios: the lowest method less a part of it, but no less than a floor under the quote,
and the highest with a part of it added. -/
theorem scenario_ends {values : List ℚ} {tp floor cut gain : ℚ} (some : values ≠ []) (each : ∀ value ∈ values, 0 < value)
    (average : mean values = tp) (cutting : 0 ≤ cut) (gaining : 0 ≤ gain) :
    (max (values.min?.getD 0 * (1 - cut)) floor ≤ tp ↔ floor ≤ tp) ∧ tp ≤ values.max?.getD 0 * (1 + gain) := by
  obtain ⟨least, lowest⟩ := Option.isSome_iff_exists.mp (List.isSome_min?_of_ne_nil some)
  obtain ⟨most, highest⟩ := Option.isSome_iff_exists.mp (List.isSome_max?_of_ne_nil some)
  obtain ⟨leastHere, below⟩ := List.min?_eq_some_iff.mp lowest
  obtain ⟨mostHere, above⟩ := List.max?_eq_some_iff.mp highest
  obtain ⟨down, up⟩ := mean_within some fun value here => ⟨below value here, above value here⟩
  rw [average] at down up
  rw [lowest, highest, Option.getD_some, Option.getD_some, max_le_iff]
  constructor
  · have bear : least * (1 - cut) ≤ tp := by
      have := mul_nonneg (each least leastHere).le cutting
      linarith
    exact and_iff_right bear
  · have := mul_nonneg (each most mostHere).le gaining
    linarith

theorem consumerReport_ok (accepted : consumerReport setting framework (some row) = .ok report) :
    ∃ tp buyIn, row.ourTp = some tp ∧ 0 < tp ∧ row.buyIn = some buyIn ∧ report.c3poTp = tp ∧ report.buyIn = buyIn ∧ report.base = tp ∧
      report.methods = sharedFrameworkMethods row tp framework.profile ∧
      ∃ cut gain, 0 ≤ cut ∧ 0 ≤ gain ∧
        report.bear = max ((report.methods.map Prod.snd).min?.getD 0 * (1 - cut)) (framework.price * 0.35) ∧
        report.bull = (report.methods.map Prod.snd).max?.getD 0 * (1 + gain) := by
  unfold consumerReport at accepted
  simp only [Option.bind_some] at accepted
  cases target : positive row.ourTp with
  | none => rw [target] at accepted; cases accepted
  | some tp =>
    cases entry : positive row.buyIn with
    | none => rw [target, entry] at accepted; cases accepted
    | some buyIn =>
      rw [target, entry] at accepted
      cases accepted
      have named := positive_eq_some target
      exact ⟨tp, buyIn, named.1, named.2, (positive_eq_some entry).1, rfl, rfl, rfl, rfl, _, _, le_trans (by norm_num) le_clamp,
        le_trans (by norm_num) le_clamp, rfl, rfl⟩

/-- The report of an official row agrees with the row just where the floor of the first scenario is not above the target. -/
theorem report_consistent {tp : ℚ} (official : row.ourTp = some tp) (accepted : consumerReport setting framework (some row) = .ok report) :
    Consistent row report ↔ 0.35 * framework.price ≤ tp := by
  obtain ⟨tp', buyIn, target, pos, entry, shownTp, shownBuyIn, base, methods, cut, gain, cutting, gaining, bear, bull⟩ := consumerReport_ok accepted
  cases official.symm.trans target
  obtain ⟨five, average, center, middle, around⟩ := @sharedFrameworkMethods_spec row _ framework.profile pos
  rw [← methods] at five average around
  have low : ∀ entry ∈ report.methods, 0 < entry.2 := fun entry here => (by linarith : (0 : ℚ) < center * 0.70).trans_le (around entry here).1
  have ends := @scenario_ends _ _ (framework.price * 0.35) _ _ (List.ne_nil_of_length_pos (by rw [List.length_map]; omega))
    (List.forall_mem_map.mpr low) average cutting gaining
  rw [← bear, ← bull, ← base] at ends
  rw [mul_comm, ← base, ← ends.1]
  constructor
  · exact Consistent.bear
  · intro ordered
    refine
      { target := by rw [shownTp, target], entry := by rw [shownBuyIn, entry], methods := ⟨five, low⟩, mean := by rw [average, shownTp]
        spread := ?_, base := by rw [base, shownTp], bear := ordered, bull := ends.2 }
    intro first here second there
    have above := (around first here).2
    have below := (around second there).1
    linarith

end Scenarios

section Sample

/-- The official row of a name at two prices, without its components. -/
def bare (tp buyIn : ℚ) : Valuation := { ourTp := some tp, buyIn := some buyIn }

theorem software_framework : ∃ framework, frameworkOf sampleSetting none (fun _ => ⟨none, none⟩) software {} = .ok framework ∧ framework.price = 100 :=
  ⟨_, rfl, rfl⟩

theorem report_consistent_software : ∃ framework report, frameworkOf sampleSetting none (fun _ => ⟨none, none⟩) software {} = .ok framework ∧
    consumerReport sampleSetting framework (some (bare 130 110)) = .ok report ∧ Consistent (bare 130 110) report := by
  obtain ⟨framework, read, price⟩ := software_framework
  obtain ⟨report, accepted⟩ : ∃ report, consumerReport sampleSetting framework (some (bare 130 110)) = .ok report := ⟨_, rfl⟩
  refine ⟨framework, report, read, accepted, (report_consistent rfl accepted).mpr ?_⟩
  rw [price]
  norm_num

/-- A quote at a hundred dollars over a target of thirty: the first scenario is at thirty-five. -/
theorem bear_above_base : ¬ ∀ (setting : Setting) (riskFreeRate : Option ℚ) (peers : Profile → PeerMedians) (stock : Stock)
    (published : Us.Published) (framework : Framework) (row : Valuation) (report : Report),
      frameworkOf setting riskFreeRate peers stock published = .ok framework →
      consumerReport setting framework (some row) = .ok report → Consistent row report := by
  intro claim
  obtain ⟨framework, read, price⟩ := software_framework
  obtain ⟨report, accepted⟩ : ∃ report, consumerReport sampleSetting framework (some (bare 30 25)) = .ok report := ⟨_, rfl⟩
  have ordered := (claim _ _ _ _ _ framework _ report read accepted).bear
  obtain ⟨tp, buyIn, target, -, -, -, -, base, -, cut, gain, -, -, bear, -⟩ := consumerReport_ok accepted
  cases target
  rw [bear, base, price] at ordered
  have floor := (le_max_right _ _).trans ordered
  norm_num at floor

end Sample

end C3po.Producers.OnePager
