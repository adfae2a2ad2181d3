import C3po.Producers.B3Rows
import C3po.Producers.Scaling

/-! The Brazilian producer in other units: a row whose shares are split or grouped, and its targets and
entry prices multiplied with the figures per share.
-/

set_option autoImplicit false

namespace C3po.Producers.B3
open C3po.Library

section Units

/-- A company whose money a share is multiplied, and its shares divided by as much; its totals, its ratios
and its multiples stay. -/
def Company.rescaled (share : ℚ) (company : Company) : Company :=
  { company with
    price := share * company.price
    bookValue := times share company.bookValue
    shares := times share⁻¹ company.shares
    eps := times share company.eps
    forwardEps := times share company.forwardEps
    support60d := times share company.support60d
    median20d := times share company.median20d
    low20d := times share company.low20d
    lastClose := times share company.lastClose }

def Consensus.rescaled (share : ℚ) (consensus : Consensus) : Consensus :=
  { consensus with publicConsensusTp := times share consensus.publicConsensusTp }

def Row.rescaled (share : ℚ) (row : Row) : Row :=
  { toCompany := row.toCompany.rescaled share
    answers := fun provider => { row.answers provider with targetMeanPrice := times share (row.answers provider).targetMeanPrice }
    consensus := Consensus.rescaled share row.consensus }

def Listing.rescaled (share : ℚ) (listing : Listing) : Listing := { listing with toRow := listing.toRow.rescaled share }

def scaledMethods (share : ℚ) (methods : List (Method × ℚ)) : List (Method × ℚ) := methods.map fun entry => (entry.1, share * entry.2)

theorem scaledMethods_append (share : ℚ) (first second : List (Method × ℚ)) :
    scaledMethods share (first ++ second) = scaledMethods share first ++ scaledMethods share second := List.map_append

theorem snd_scaledMethods (share : ℚ) (methods : List (Method × ℚ)) :
    (scaledMethods share methods).map Prod.snd = (methods.map Prod.snd).map (share * ·) := by
  unfold scaledMethods
  rw [List.map_map, List.map_map]
  rfl

theorem scaledMethods_option (share : ℚ) (method : Method) (value : Option ℚ) :
    ((times share value).map fun value => (method, value)).toList = scaledMethods share (value.map fun value => (method, value)).toList := by
  cases value <;> rfl

theorem filter_scaledMethods (share : ℚ) (methods : List (Method × ℚ)) :
    (scaledMethods share methods).filter isInternal = scaledMethods share (methods.filter isInternal) := by
  unfold scaledMethods
  rw [List.filter_map]
  rfl

end Units

section Methods
variable {share : ℚ} {company : Company} {context : Macro} {sector : Metrics}

theorem per_share (amount shares : ℚ) : amount / (share⁻¹ * shares) = share * (amount / shares) := by
  rw [div_mul_eq_div_div, div_inv_eq_mul, mul_comm amount share, mul_div_assoc]

theorem positive_per_share (pos : 0 < share) (amount shares : ℚ) :
    positive (some (amount / (share⁻¹ * shares))) = times share (positive (some (amount / shares))) := by
  rw [per_share, ← positive_times pos, times_some]

theorem truthy_shares (pos : 0 < share) : truthy (company.rescaled share).shares = times share⁻¹ (truthy company.shares) :=
  truthy_times (inv_pos.mpr pos)

theorem normalizedEps_rescaled (pos : 0 < share) : normalizedEps (company.rescaled share) = times share (normalizedEps company) := by
  have eps : truthy (orElse (company.rescaled share).forwardEps (company.rescaled share).eps) = times share (truthy (orElse company.forwardEps company.eps)) := by
    unfold Company.rescaled
    rw [orElse_times pos, truthy_times pos]
  have cashflow : (company.rescaled share).operatingCashflow = company.operatingCashflow := rfl
  have profile : (company.rescaled share).profile = company.profile := rfl
  unfold normalizedEps
  rw [eps, truthy_shares pos, cashflow, profile]
  cases truthy (orElse company.forwardEps company.eps) with
  | none => rfl
  | some eps =>
    cases truthy company.operatingCashflow with
    | none => rfl
    | some cashflow =>
      cases truthy company.shares with
      | none => rfl
      | some shares =>
        simp only [times_some]
        split
        · rfl
        · rw [per_share, ← mul_min_of_nonneg _ _ pos.le]
          rfl

theorem dcfValue_rescaled (pos : 0 < share) (fcf : Option ℚ) : dcfValue (company.rescaled share) context fcf = times share (dcfValue company context fcf) := by
  unfold dcfValue
  rw [truthy_shares pos]
  cases truthy fcf with
  | none => rfl
  | some cash =>
    cases truthy company.shares with
    | none => rfl
    | some shares =>
      have rates : wacc (company.rescaled share) context = wacc company context := rfl
      rw [rates]
      simp only [times_some]
      split
      · rfl
      · exact positive_per_share pos _ _

theorem cycleEarnings_rescaled (pos : 0 < share) :
    cycleEarnings (company.rescaled share) context sector = times share (cycleEarnings company context sector) := by
  have profile : (company.rescaled share).profile = company.profile := rfl
  have revenue : (company.rescaled share).revenue = company.revenue := rfl
  unfold cycleEarnings
  rw [truthy_shares pos, profile, revenue]
  cases company.profile <;> try rfl
  cases truthy company.shares with
  | none => rfl
  | some shares =>
    cases truthy company.revenue with
    | none => rfl
    | some revenue =>
      simp only [times_some]
      rw [positive_per_share pos]
      exact times_map_mul _

theorem enterpriseValues_rescaled (pos : 0 < share) :
    enterpriseValues (company.rescaled share) context sector = scaledMethods share (enterpriseValues company context sector) := by
  have profile : (company.rescaled share).profile = company.profile := rfl
  have revenue : (company.rescaled share).revenue = company.revenue := rfl
  have ebitda : (company.rescaled share).ebitda = company.ebitda := rfl
  unfold enterpriseValues
  rw [truthy_shares pos, profile, revenue, ebitda]
  cases truthy company.shares with
  | none => rfl
  | some shares =>
    cases truthy company.ebitda with
    | none => rfl
    | some ebitda =>
      have value (earnings : ℚ) :
          positive (some ((earnings * targetEv (company.rescaled share) context sector + (company.rescaled share).cash - (company.rescaled share).debt) /
            (share⁻¹ * shares))) =
          times share (positive (some ((earnings * targetEv company context sector + company.cash - company.debt) / shares))) :=
        positive_per_share pos _ _
      simp only [times_some, value]
      rw [scaledMethods_append, ← scaledMethods_option, ← scaledMethods_option]
      congr 2
      · split <;> rfl
      · congr 1
        split <;> rfl

theorem bookValues_rescaled (pos : 0 < share) :
    bookValues (company.rescaled share) context sector = scaledMethods share (bookValues company context sector) := by
  have book : truthy (company.rescaled share).bookValue = times share (truthy company.bookValue) := truthy_times pos
  have profile : (company.rescaled share).profile = company.profile := rfl
  have roe : roeOf (company.rescaled share) = roeOf company := rfl
  have growth : growthOf (company.rescaled share) = growthOf company := rfl
  have cost : costEquity (company.rescaled share) context = costEquity company context := rfl
  unfold bookValues
  rw [book, profile, roe, growth, cost]
  cases truthy company.bookValue with
  | none => rfl
  | some book =>
    simp only [times_some, mul_assoc, ← mul_add]
    split <;> rfl

theorem dividendValue_rescaled : dividendValue (company.rescaled share) context = times share (dividendValue company context) := by
  have yielded : (company.rescaled share).dividendYield = company.dividendYield := rfl
  have profile : (company.rescaled share).profile = company.profile := rfl
  have cost : costEquity (company.rescaled share) context = costEquity company context := rfl
  have price : (company.rescaled share).price = share * company.price := rfl
  unfold dividendValue
  rw [yielded, profile, cost, price]
  cases truthy company.dividendYield with
  | none => rfl
  | some dividendYield =>
    simp only [mul_assoc, mul_div_assoc]
    split <;> rfl

theorem methodsOf_rescaled (pos : 0 < share) (row : Row) : methodsOf (row.rescaled share) context sector = scaledMethods share (methodsOf row context sector) := by
  have company : (row.rescaled share).toCompany = row.toCompany.rescaled share := rfl
  have profile : (row.toCompany.rescaled share).profile = row.profile := rfl
  have multiple : targetPe (row.toCompany.rescaled share) context sector = targetPe row.toCompany context sector := rfl
  have cash : dcfCash (row.toCompany.rescaled share) = dcfCash row.toCompany := rfl
  have consensus : truthy (row.rescaled share).consensus.publicConsensusTp = times share (truthy row.consensus.publicConsensusTp) := truthy_times pos
  have count : (row.rescaled share).consensus.analystCount = row.consensus.analystCount := rfl
  unfold methodsOf
  dsimp only
  rw [company, profile, multiple, cash, consensus, count, normalizedEps_rescaled pos, truthy_times pos, times_map_mul, cycleEarnings_rescaled pos,
    bookValues_rescaled pos, dcfValue_rescaled pos, truthy_times pos, enterpriseValues_rescaled pos, dividendValue_rescaled]
  have earnings (value : Option ℚ) :
      ((if row.profile = .cyclical then none else times share value).map fun value => (Method.earnings, value)).toList =
        scaledMethods share ((if row.profile = .cyclical then none else value).map fun value => (Method.earnings, value)).toList := by
    split
    · rfl
    · exact scaledMethods_option share .earnings value
  have published (value : Option ℚ) :
      (if 0 < row.consensus.analystCount then (times share value).map fun target => (Method.consensus, target) else none).toList =
        scaledMethods share (if 0 < row.consensus.analystCount then value.map fun target => (Method.consensus, target) else none).toList := by
    split
    · exact scaledMethods_option share .consensus value
    · rfl
  simp only [earnings, published, scaledMethods_append, scaledMethods_option, apply_ite (scaledMethods share)]

end Methods

section Blend
variable {share : ℚ}

theorem internal_scaledMethods (methods : List (Method × ℚ)) :
    ((scaledMethods share methods).filter isInternal).map Prod.snd = ((methods.filter isInternal).map Prod.snd).map (share * ·) := by
  rw [filter_scaledMethods, snd_scaledMethods]

theorem chosen_scaledMethods (methods : List (Method × ℚ)) :
    (if ((scaledMethods share methods).filter isInternal).map Prod.snd = [] then (scaledMethods share methods).map Prod.snd
      else ((scaledMethods share methods).filter isInternal).map Prod.snd) =
    (if (methods.filter isInternal).map Prod.snd = [] then methods.map Prod.snd else (methods.filter isInternal).map Prod.snd).map (share * ·) := by
  rw [internal_scaledMethods, snd_scaledMethods]
  simp only [List.map_eq_nil_iff]
  split <;> rfl

theorem normalizedMethods_rescaled (pos : 0 < share) (profile : Profile) (methods : List (Method × ℚ)) :
    normalizedMethods profile (scaledMethods share methods) = scaledMethods share (normalizedMethods profile methods) := by
  unfold normalizedMethods
  dsimp only
  rw [chosen_scaledMethods, statisticsMedian_map_mul pos]
  unfold scaledMethods
  rw [List.map_map, List.map_map]
  refine List.map_congr_left fun entry _ => ?_
  simp only [Function.comp_apply]
  rw [mul_assoc, mul_assoc, clamp_mul pos]

theorem methodDispersion_rescaled (pos : 0 < share) (profile : Profile) (methods : List (Method × ℚ)) :
    methodDispersion profile (scaledMethods share methods) = methodDispersion profile methods := by
  unfold methodDispersion
  dsimp only
  rw [normalizedMethods_rescaled pos, chosen_scaledMethods, chosen_scaledMethods, statisticsMedian_map_mul pos, statisticsMedian_map_mul pos,
    percentile_map_mul pos, percentile_map_mul pos, ← mul_sub, mul_div_mul_left _ _ pos.ne']
  simp only [mul_pos_iff_of_pos_left pos]

theorem weightedInternal_rescaled (profile : Profile) (methods : List (Method × ℚ)) :
    weightedInternal profile (scaledMethods share methods) = share * weightedInternal profile methods := by
  unfold weightedInternal
  dsimp only
  rw [filter_scaledMethods, snd_scaledMethods, sum_map_mul]
  generalize methods.filter isInternal = internal
  have names : (scaledMethods share internal).map (fun entry => (Dict.find entry.1 (methodWeights profile)).getD 0) =
      internal.map fun entry => (Dict.find entry.1 (methodWeights profile)).getD 0 := by
    unfold scaledMethods
    rw [List.map_map]
    rfl
  have products : (scaledMethods share internal).map (fun entry => entry.2 * (Dict.find entry.1 (methodWeights profile)).getD 0) =
      (internal.map fun entry => entry.2 * (Dict.find entry.1 (methodWeights profile)).getD 0).map (share * ·) := by
    unfold scaledMethods
    rw [List.map_map, List.map_map]
    exact List.map_congr_left fun entry _ => mul_assoc share entry.2 _
  have length : (scaledMethods share internal).length = internal.length := List.length_map _
  rw [names, products, sum_map_mul, length]
  split
  · exact mul_div_assoc _ _ _
  · exact mul_div_assoc _ _ _

end Blend

section Entry
variable {share : ℚ} {company : Company} {context : Macro}

theorem expectedDividend_rescaled : expectedDividend (company.rescaled share) = share * expectedDividend company := by
  have yielded : (company.rescaled share).dividendYield = company.dividendYield := rfl
  have price : (company.rescaled share).price = share * company.price := rfl
  unfold expectedDividend
  rw [yielded, price]
  cases truthy company.dividendYield with
  | none => exact (mul_zero share).symm
  | some dividendYield =>
    dsimp only
    split
    · exact mul_assoc _ _ _
    · exact (mul_zero share).symm

theorem technicalEntry_rescaled (maths : Maths) (pos : 0 < share) : technicalEntry maths (company.rescaled share) = share * technicalEntry maths company := by
  have volatility : (company.rescaled share).volatility90d = company.volatility90d := rfl
  have close : (truthy (company.rescaled share).lastClose).getD (share * company.price) = share * (truthy company.lastClose).getD company.price := by
    unfold Company.rescaled
    rw [truthy_times pos, getD_times]
  have levels (swing : ℚ) : [(times share company.support60d).getD 0, (times share company.median20d).getD 0 * (1 - swing * 0.50),
      (times share company.low20d).getD 0 * (1 + swing * 0.25)] =
      [company.support60d.getD 0, company.median20d.getD 0 * (1 - swing * 0.50), company.low20d.getD 0 * (1 + swing * 0.25)].map (share * ·) := by
    simp only [getD_times_zero, List.map_cons, List.map_nil, mul_assoc]
  have price : (company.rescaled share).price = share * company.price := rfl
  have support : (company.rescaled share).support60d = times share company.support60d := rfl
  have middle : (company.rescaled share).median20d = times share company.median20d := rfl
  have low : (company.rescaled share).low20d = times share company.low20d := rfl
  unfold technicalEntry
  dsimp only
  rw [volatility, price, support, middle, low, close, levels, mul_assoc, median_map_mul pos, mul_assoc, ← mul_max_of_nonneg _ _ pos.le]

theorem entryFromTp_rescaled (maths : Maths) (pos : 0 < share) (tp : ℚ) :
    entryFromTp maths (company.rescaled share) context (share * tp) = share * entryFromTp maths company context tp := by
  have growth : sustainableGrowth (company.rescaled share).profile (growthOf (company.rescaled share)) = sustainableGrowth company.profile (growthOf company) := rfl
  unfold entryFromTp
  dsimp only
  rw [growth, expectedDividend_rescaled, technicalEntry_rescaled maths pos, mul_assoc, ← mul_add, mul_div_assoc, ← mul_min_of_nonneg _ _ pos.le]

end Entry

section Value
variable {maths : RowMaths} {factors : List (Option Profile × ℚ)} {context : Macro} {medians : Benchmark → Option Metrics} {share : ℚ}

def Valued.rescaled (share : ℚ) (valued : Valued) : Valued :=
  { valued with
    methods := scaledMethods share valued.methods
    internalTp := share * valued.internalTp
    internalBuyIn := share * valued.internalBuyIn
    ourTp := share * valued.ourTp
    buyIn := share * valued.buyIn }

theorem consensusWeight_rescaled (pos : 0 < share) (symbol : String) (consensus : Consensus) :
    consensusWeight symbol (Consensus.rescaled share consensus) = consensusWeight symbol consensus := by
  unfold consensusWeight Consensus.rescaled
  dsimp only
  rw [truthy_times pos]
  cases truthy consensus.publicConsensusTp <;> rfl

theorem valueRow_rescaled (pos : 0 < share) (row : Row) :
    valueRow maths.toMaths factors context medians (row.rescaled share) = (valueRow maths.toMaths factors context medians row).map (Valued.rescaled share) := by
  have group : benchmark medians (row.rescaled share).toCompany = benchmark medians row.toCompany := rfl
  unfold valueRow
  rw [group]
  cases benchmark medians row.toCompany with
  | none => rfl
  | some sector =>
    have consensus : (if 0 < (row.rescaled share).consensus.analystCount then truthy (row.rescaled share).consensus.publicConsensusTp else none) =
        times share (if 0 < row.consensus.analystCount then truthy row.consensus.publicConsensusTp else none) := by
      have count : (row.rescaled share).consensus.analystCount = row.consensus.analystCount := rfl
      have target : truthy (row.rescaled share).consensus.publicConsensusTp = times share (truthy row.consensus.publicConsensusTp) := truthy_times pos
      rw [count, target]
      split <;> rfl
    have weight : consensusWeight (row.rescaled share).symbol (row.rescaled share).consensus = consensusWeight row.symbol row.consensus :=
      consensusWeight_rescaled pos row.symbol row.consensus
    have profile : (row.rescaled share).profile = row.profile := rfl
    have length (methods : List (Method × ℚ)) : (scaledMethods share methods).length = methods.length := List.length_map _
    have company : (row.rescaled share).toCompany = row.toCompany.rescaled share := rfl
    dsimp only [Option.bind_some]
    rw [methodsOf_rescaled pos, length, consensus, weight, profile, company, normalizedMethods_rescaled pos, weightedInternal_rescaled]
    simp only [isSome_times]
    have confidence (methods : List (Method × ℚ)) : valuationConfidence (row.rescaled share) (scaledMethods share methods) = valuationConfidence row methods := by
      unfold valuationConfidence
      rw [profile, methodDispersion_rescaled pos, length]
      rfl
    have blend (internalTp target weight : ℚ) :
        share * internalTp * (1 - weight) + share * target * weight = share * (internalTp * (1 - weight) + target * weight) := by ring
    rw [confidence, methodDispersion_rescaled pos, getD_times_zero, mul_assoc, blend, entryFromTp_rescaled _ pos, entryFromTp_rescaled _ pos]
    split <;> rfl

end Value

section Rows
variable {maths : RowMaths} {factors : List (Option Profile × ℚ)} {context : Macro} {today : Int} {medians : Benchmark → Option Metrics} {share : ℚ}

def TailInput.rescaled (share : ℚ) (input : TailInput) : TailInput := { input with expectedDividend := share * input.expectedDividend }

def Listed.rescaled (share : ℚ) (row : Listed) : Listed :=
  { row with
    official := { row.official with
      price := times share row.official.price
      ourTp := times share row.official.ourTp
      buyIn := times share row.official.buyIn
      internalTp := times share row.official.internalTp
      internalBuyIn := times share row.official.internalBuyIn
      publicConsensusTp := times share row.official.publicConsensusTp }
    methods := scaledMethods share row.methods
    expectedDividend := times share row.expectedDividend }

theorem tail_rescaled (pos : 0 < share) (input : TailInput) (price tp buyIn weight : ℚ) :
    tail maths (input.rescaled share) (share * price) (share * tp) (share * buyIn) weight = tail maths input price tp buyIn weight := by
  have ratio (first second : ℚ) : share * first / (share * second) = first / second := mul_div_mul_left _ _ pos.ne'
  have sign (value : ℚ) : share * value ≤ 0 ↔ value ≤ 0 := mul_nonpos_iff_pos_imp_nonpos.trans ⟨fun held => held.1 pos, fun held => ⟨fun _ => held, fun _ => pos.le⟩⟩
  unfold tail expected12mReturn TailInput.rescaled
  simp only [ratio, sign, mul_pos_iff_of_pos_left pos]

theorem validateTargetPrice_rescaled (pos : 0 < share) (row : Listing) (methods : List (Method × ℚ)) (internalTp : ℚ) (consensus : Option ℚ)
    (ourTp confidence dispersion : ℚ) :
    validateTargetPrice today (row.rescaled share) (scaledMethods share methods) (share * internalTp) (times share consensus) (share * ourTp) confidence
      dispersion = validateTargetPrice today row methods internalTp consensus ourTp confidence dispersion := by
  have length (methods : List (Method × ℚ)) : (scaledMethods share methods).length = methods.length := List.length_map _
  have gap : ((positive (times share consensus)).map fun consensus => |share * internalTp / consensus - 1| * 100) =
      (positive consensus).map fun consensus => |internalTp / consensus - 1| * 100 := by
    rw [positive_times pos]
    cases positive consensus with
    | none => rfl
    | some target => simp only [times_some, Option.map_some, mul_div_mul_left _ _ pos.ne']
  have price : (row.rescaled share).price = share * row.price := rfl
  have zero : share * row.price = 0 ↔ row.price = 0 := mul_eq_zero_iff_left pos.ne'
  unfold validateTargetPrice
  simp only [filter_scaledMethods, length, gap, price, zero, mul_div_mul_left _ _ pos.ne', mul_pos_iff_of_pos_left pos, isNone_times]
  rfl

theorem listed_rescaled (pos : 0 < share) (row : Listing) (valued : Valued) :
    listed maths context today (row.rescaled share) (valued.rescaled share) = (listed maths context today row valued).rescaled share := by
  have consensus : (if 0 < (row.rescaled share).consensus.analystCount then truthy (row.rescaled share).consensus.publicConsensusTp else none) =
      times share (if 0 < row.consensus.analystCount then truthy row.consensus.publicConsensusTp else none) := by
    have count : (row.rescaled share).consensus.analystCount = row.consensus.analystCount := rfl
    have target : truthy (row.rescaled share).consensus.publicConsensusTp = times share (truthy row.consensus.publicConsensusTp) := truthy_times pos
    rw [count, target]
    split <;> rfl
  have input : tailInput maths (row.rescaled share) (valued.rescaled share) = (tailInput maths row valued).rescaled share := by
    unfold tailInput TailInput.rescaled
    rw [TailInput.mk.injEq]
    exact ⟨expectedDividend_rescaled, rfl, rfl, rfl, rfl, rfl, rfl⟩
  have price : (row.rescaled share).price = share * row.price := rfl
  have same : share * valued.internalTp = share * valued.ourTp ↔ valued.internalTp = valued.ourTp := mul_right_inj' pos.ne'
  unfold listed
  rw [consensus, input, price]
  unfold Valued.rescaled
  simp only [tail_rescaled pos, validateTargetPrice_rescaled pos, same]
  rfl

theorem unvalued_rescaled (row : Listing) (methods : List (Method × ℚ)) :
    unvalued maths (row.rescaled share) (scaledMethods share methods) = (unvalued maths row methods).rescaled share := by
  have length (methods : List (Method × ℚ)) : (scaledMethods share methods).length = methods.length := List.length_map _
  unfold unvalued Listed.rescaled
  simp only [length, filter_scaledMethods, times_some, times_none, mul_zero]
  rfl

theorem listRow_rescaled (pos : 0 < share) (row : Listing) :
    listRow maths factors context today (row.rescaled share) medians = (listRow maths factors context today row medians).map (Listed.rescaled share) := by
  have group : benchmark medians (row.rescaled share).toCompany = benchmark medians row.toCompany := rfl
  have values : valueRow maths.toMaths factors context medians (row.rescaled share).toRow =
      (valueRow maths.toMaths factors context medians row.toRow).map (Valued.rescaled share) := valueRow_rescaled pos row.toRow
  unfold listRow
  rw [group, values, Option.map_map]
  refine Option.map_congr fun sector _ => ?_
  have methods : methodsOf (row.rescaled share).toRow context sector = scaledMethods share (methodsOf row.toRow context sector) :=
    methodsOf_rescaled pos row.toRow
  rw [methods]
  cases valueRow maths.toMaths factors context medians row.toRow with
  | none => exact unvalued_rescaled row _
  | some valued => exact listed_rescaled pos row valued

end Rows

end C3po.Producers.B3
