import Mathlib.Data.List.ReduceOption
import C3po.Producers.Independence
import C3po.Producers.Scaling

/-! The producer of the United States in other units: figures per share, totals and share counts multiplied
by factors that agree, and its targets and entry prices multiplied with the figures per share.
-/

set_option autoImplicit false

namespace C3po.Producers.Us
open C3po.Library

section Units

def Balance.rescaled (total : ℚ) (balance : Balance) : Balance where
  cashAndShortTermInvestments := times total balance.cashAndShortTermInvestments
  cash := times total balance.cash
  shortLongTermDebtTotal := times total balance.shortLongTermDebtTotal
  netDebt := times total balance.netDebt

def Trend.rescaled (share : ℚ) (trend : Trend) : Trend :=
  { trend with epsTrendCurrent := times share trend.epsTrendCurrent, epsTrend30daysAgo := times share trend.epsTrend30daysAgo }

/-- Fundamentals in other units: so many units a share, so many in total, and the share count by what
makes one of the other. -/
def Fundamentals.rescaled (share total : ℚ) (fundamentals : Fundamentals) : Fundamentals :=
  { fundamentals with
    forwardEps := times share fundamentals.forwardEps
    trailingEps := times share fundamentals.trailingEps
    bookValue := times share fundamentals.bookValue
    sharesOutstanding := times (total / share) fundamentals.sharesOutstanding
    ebitda := times total fundamentals.ebitda
    totalDebt := times total fundamentals.totalDebt
    totalCash := times total fundamentals.totalCash
    freeCashflow := times total fundamentals.freeCashflow
    quarterlyEbitda := fundamentals.quarterlyEbitda.map (times total)
    quarterlyFreeCashFlow := fundamentals.quarterlyFreeCashFlow.map (times total)
    quarterlyBalance := fundamentals.quarterlyBalance.map (Balance.rescaled total)
    earningsTrendQuarterly := fundamentals.earningsTrendQuarterly.map (Trend.rescaled share) }

def Stock.rescaled (share total : ℚ) (stock : Stock) : Stock :=
  { stock with price := times share stock.price, fundamentals := stock.fundamentals.rescaled share total }

def FmpSummary.rescaled (share : ℚ) (summary : FmpSummary) : FmpSummary :=
  { summary with lastMonthAvg := times share summary.lastMonthAvg, lastQuarterAvg := times share summary.lastQuarterAvg }

def Published.rescaled (share : ℚ) (published : Published) : Published :=
  { published with
    targetMeanPrice := times share published.targetMeanPrice
    analystRatings := { published.analystRatings with targetPrice := times share published.analystRatings.targetPrice }
    fmpConsensus := times share published.fmpConsensus
    fmpSummary := published.fmpSummary.map (FmpSummary.rescaled share) }

def Reading.rescaled (share total : ℚ) (read : Reading) : Reading :=
  { read with
    normalizedEps := times share read.normalizedEps
    bookValue := times share read.bookValue
    shares := times (total / share) read.shares
    ttmEbitda := times total read.ttmEbitda
    freeCashflow := times total read.freeCashflow
    totalCash := total * read.totalCash
    totalDebt := total * read.totalDebt }

def Estimates.rescaled (share : ℚ) (values : Estimates) : Estimates where
  earnings := times share values.earnings
  enterprise := times share values.enterprise
  book := times share values.book
  dcf := times share values.dcf

/-- Named values in another unit. -/
def scaledMethods (share : ℚ) (methods : List (String × ℚ)) : List (String × ℚ) := methods.map fun entry => (entry.1, share * entry.2)

theorem snd_scaledMethods (share : ℚ) (methods : List (String × ℚ)) :
    (scaledMethods share methods).map Prod.snd = (methods.map Prod.snd).map (share * ·) := by
  unfold scaledMethods
  rw [List.map_map, List.map_map]
  rfl

theorem scaledMethods_zip (share : ℚ) (names : List String) (values : List ℚ) :
    scaledMethods share (names.zip values) = names.zip (values.map (share * ·)) := (List.zip_map_right ..).symm

end Units

section Readings
variable {share total price : ℚ}

theorem boundedTp_times (pos : 0 < share) (value : Option ℚ) : boundedTp (times share value) (share * price) = times share (boundedTp value price) := by
  unfold boundedTp
  rw [positive_times pos]
  cases positive value with
  | none => rfl
  | some candidate =>
    have low : share * price * 0.25 ≤ share * candidate ↔ price * 0.25 ≤ candidate := by rw [mul_assoc, mul_le_mul_iff_right₀ pos]
    have high : share * candidate ≤ share * price * 4 ↔ candidate ≤ price * 4 := by rw [mul_assoc, mul_le_mul_iff_right₀ pos]
    by_cases held : price * 0.25 ≤ candidate ∧ candidate ≤ price * 4 <;> simp [Option.filter, low, high, held]

theorem sumRows_times (values : List (Option ℚ)) (limit : ℕ) : sumRows (values.map (times total)) limit = times total (sumRows values limit) := by
  have clean : ((values.map (times total)).take limit).reduceOption = ((values.take limit).reduceOption).map (total * ·) := by
    rw [← List.map_take]
    exact List.reduceOption_map
  unfold sumRows
  dsimp only
  rw [clean]
  simp only [List.map_eq_nil_iff, sum_map_mul]
  split <;> rfl

theorem weightedValue_times (pos : 0 < share) (values : List (Option ℚ × ℚ)) (fallback : ℚ) :
    weightedValue (values.map fun entry => (times share entry.1, entry.2)) (share * fallback) = share * weightedValue values fallback := by
  have usable : (values.map fun entry => (times share entry.1, entry.2)).filterMap
      (fun entry => (positive entry.1).map fun value => (value, entry.2)) =
      (values.filterMap fun entry => (positive entry.1).map fun value => (value, entry.2)).map fun entry => (share * entry.1, entry.2) := by
    rw [List.filterMap_map, List.map_filterMap]
    refine List.filterMap_congr fun entry _ => ?_
    simp only [Function.comp_apply, positive_times pos]
    cases positive entry.1 <;> rfl
  unfold weightedValue
  dsimp only
  rw [usable]
  generalize values.filterMap (fun entry => (positive entry.1).map fun value => (value, entry.2)) = entries
  have products : (entries.map fun entry => (share * entry.1, entry.2)).map (fun entry => entry.1 * entry.2) =
      (entries.map fun entry => entry.1 * entry.2).map (share * ·) := by
    rw [List.map_map, List.map_map]
    exact List.map_congr_left fun entry _ => mul_assoc share entry.1 entry.2
  have weights : (entries.map fun entry => (share * entry.1, entry.2)).map Prod.snd = entries.map Prod.snd := by
    rw [List.map_map]
    rfl
  rw [products, weights, sum_map_mul]
  simp only [List.map_eq_nil_iff]
  split
  · rfl
  · exact mul_div_assoc _ _ _

theorem reading_rescaled (setting : Setting) (shareOf : 0 < share) (totalOf : 0 < total) (fundamentals : Fundamentals) :
    reading setting (fundamentals.rescaled share total) = (reading setting fundamentals).rescaled share total := by
  have count : 0 < total / share := div_pos totalOf shareOf
  -- the first of two columns of the latest balance, or what the totals of the year give
  have latest (first second : Balance → Option ℚ) (firstSame : ∀ balance : Balance, first (balance.rescaled total) = times total (first balance))
      (secondSame : ∀ balance : Balance, second (balance.rescaled total) = times total (second balance)) (yearly : Option ℚ) :
      ((truthy ((fundamentals.rescaled share total).quarterlyBalance.head?.bind first)).or
        (truthy ((fundamentals.rescaled share total).quarterlyBalance.head?.bind second))).getD ((positive (times total yearly)).getD 0) =
      total * ((truthy (fundamentals.quarterlyBalance.head?.bind first)).or (truthy (fundamentals.quarterlyBalance.head?.bind second))).getD
        ((positive yearly).getD 0) := by
    have column (field : Balance → Option ℚ) (same : ∀ balance : Balance, field (balance.rescaled total) = times total (field balance)) :
        (fundamentals.rescaled share total).quarterlyBalance.head?.bind field = times total (fundamentals.quarterlyBalance.head?.bind field) := by
      unfold Fundamentals.rescaled
      dsimp only
      cases fundamentals.quarterlyBalance with
      | nil => rfl
      | cons balance rest => exact same balance
    rw [column first firstSame, column second secondSame, truthy_times totalOf, truthy_times totalOf, ← times_or, positive_times totalOf, getD_times_zero,
      getD_times]
  have eps : (positive (times share fundamentals.forwardEps)).or (positive (times share fundamentals.trailingEps)) =
      times share ((positive fundamentals.forwardEps).or (positive fundamentals.trailingEps)) := by
    rw [positive_times shareOf, positive_times shareOf, times_or]
  have ebitda : orElse (sumRows (fundamentals.quarterlyEbitda.map (times total)) 4) (positive (times total fundamentals.ebitda)) =
      times total (orElse (sumRows fundamentals.quarterlyEbitda 4) (positive fundamentals.ebitda)) := by
    rw [sumRows_times, positive_times totalOf, orElse_times totalOf]
  have cashflow : (sumRows (fundamentals.quarterlyFreeCashFlow.map (times total)) 4).or (times total fundamentals.freeCashflow) =
      times total ((sumRows fundamentals.quarterlyFreeCashFlow 4).or fundamentals.freeCashflow) := by
    rw [sumRows_times, times_or]
  unfold reading Reading.rescaled
  rw [Reading.mk.injEq]
  exact ⟨rfl, rfl, rfl, rfl, rfl, rfl, rfl, eps, positive_times shareOf, positive_times count, ebitda, cashflow,
    latest _ _ (fun _ => rfl) (fun _ => rfl) _, latest _ _ (fun _ => rfl) (fun _ => rfl) _, rfl⟩

end Readings

section Methods
variable {riskFreeRate : Option ℚ} {peers : Profile → PeerMedians} {share total price : ℚ} {stock : Stock} {read : Reading}

theorem forecast_mul (growth discount cash value : ℚ) (years : List ℕ) (factor : ℚ) :
    years.foldl (fun (state : ℚ × ℚ) (year : ℕ) =>
      (state.1 * (1 + growth * (1 - ((year : ℚ) - 1) * 0.08)),
        state.2 + state.1 * (1 + growth * (1 - ((year : ℚ) - 1) * 0.08)) / (1 + discount) ^ year)) (factor * cash, factor * value) =
    let state := years.foldl (fun (state : ℚ × ℚ) (year : ℕ) =>
      (state.1 * (1 + growth * (1 - ((year : ℚ) - 1) * 0.08)),
        state.2 + state.1 * (1 + growth * (1 - ((year : ℚ) - 1) * 0.08)) / (1 + discount) ^ year)) (cash, value)
    (factor * state.1, factor * state.2) := by
  induction years generalizing cash value with
  | nil => rfl
  | cons year rest ih =>
    rw [List.foldl_cons, List.foldl_cons, ← ih]
    congr 2
    · ring
    · ring

theorem per_share (totalOf : 0 < total) (amount shares : ℚ) :
    total * amount / (total / share * shares) = share * (amount / shares) := by
  rw [div_mul_eq_mul_div, div_div_eq_mul_div, mul_assoc, mul_div_mul_left _ _ totalOf.ne', mul_comm amount share, mul_div_assoc]

theorem dcfValue_rescaled (shareOf : 0 < share) (totalOf : 0 < total) :
    dcfValue riskFreeRate (share * price) (read.rescaled share total) = times share (dcfValue riskFreeRate price read) := by
  unfold dcfValue
  have cashflow : positive (read.rescaled share total).freeCashflow = times total (positive read.freeCashflow) := positive_times totalOf
  rw [cashflow]
  have multiple : (read.rescaled share total).normalizedEps.bind (fun eps => boundedTp (some (eps * 17)) (share * price)) =
      times share (read.normalizedEps.bind fun eps => boundedTp (some (eps * 17)) price) := by
    unfold Reading.rescaled
    cases read.normalizedEps with
    | none => rfl
    | some eps =>
      rw [times_some, Option.bind_some, Option.bind_some, ← boundedTp_times shareOf, times_some, mul_assoc]
  cases positive read.freeCashflow with
  | none => exact multiple
  | some cash =>
    unfold Reading.rescaled at multiple ⊢
    cases read.shares with
    | none => exact multiple
    | some shares =>
      simp only [times_some]
      rw [← boundedTp_times shareOf, times_some]
      congr 2
      generalize clamp (riskFreeRate.getD 0.042 + read.beta.getD 1 * 0.055) 0.06 0.16 = discount
      have forecast := forecast_mul (clamp read.growth 0.01 0.09) discount (cash / shares) 0 [1, 2, 3, 4, 5] share
      rw [mul_zero] at forecast
      rw [per_share totalOf, forecast]
      ring

theorem estimates_rescaled (shareOf : 0 < share) (totalOf : 0 < total) :
    estimates riskFreeRate peers (share * price) (read.rescaled share total) = (estimates riskFreeRate peers price read).rescaled share := by
  have multiple (value : Option ℚ) (factor : ℚ) :
      boundedTp (some ((times share value).getD 0 * factor)) (share * price) = times share (boundedTp (some (value.getD 0 * factor)) price) := by
    rw [getD_times_zero, mul_assoc, ← boundedTp_times shareOf, times_some]
  unfold estimates Estimates.rescaled
  dsimp only
  rw [Estimates.mk.injEq]
  refine ⟨multiple _ _, ?_, multiple _ _, ?_⟩
  · have ebitda : truthy (read.rescaled share total).ttmEbitda = times total (truthy read.ttmEbitda) := truthy_times totalOf
    rw [ebitda]
    unfold Reading.rescaled
    cases truthy read.ttmEbitda with
    | none => rfl
    | some ebitda =>
      cases read.shares with
      | none => rfl
      | some shares =>
        simp only [times_some]
        split
        · rfl
        · rw [← boundedTp_times shareOf, times_some]
          congr 2
          rw [← per_share totalOf]
          ring
  · have profile : (read.rescaled share total).profile = read.profile := rfl
    rw [profile]
    split
    · rfl
    · exact dcfValue_rescaled shareOf totalOf

theorem riskScore_rescaled (totalOf : 0 < total) : riskScore (stock.rescaled share total) (read.rescaled share total) = riskScore stock read := by
  have leverage : ((truthy (read.rescaled share total).ttmEbitda).bind fun ebitda =>
      if 0 ≤ (read.rescaled share total).totalDebt then some ((read.rescaled share total).totalDebt / ebitda) else none) =
      (truthy read.ttmEbitda).bind fun ebitda => if 0 ≤ read.totalDebt then some (read.totalDebt / ebitda) else none := by
    have ebitda : truthy (read.rescaled share total).ttmEbitda = times total (truthy read.ttmEbitda) := truthy_times totalOf
    rw [ebitda]
    cases truthy read.ttmEbitda with
    | none => rfl
    | some ebitda =>
      have sign : 0 ≤ total * read.totalDebt ↔ 0 ≤ read.totalDebt := mul_nonneg_iff_of_pos_left totalOf
      have ratio : total * read.totalDebt / (total * ebitda) = read.totalDebt / ebitda := mul_div_mul_left _ _ totalOf.ne'
      unfold Reading.rescaled
      simp only [times_some, Option.bind_some, sign, ratio]
  have outflow : ((read.rescaled share total).freeCashflow.map fun cashflow => if cashflow < 0 then (9 : ℚ) else 0) =
      read.freeCashflow.map fun cashflow => if cashflow < 0 then (9 : ℚ) else 0 := by
    unfold Reading.rescaled
    cases read.freeCashflow with
    | none => rfl
    | some cashflow =>
      have sign : total * cashflow < 0 ↔ cashflow < 0 := by rw [← mul_lt_mul_iff_right₀ totalOf (b := cashflow) (c := 0), mul_zero]
      simp only [times_some, Option.map_some, sign]
  unfold riskScore
  rw [leverage, outflow]
  rfl

theorem epsRevision_rescaled (shareOf : 0 < share) (trend : Option Trend) : epsRevision (trend.map (Trend.rescaled share)) = epsRevision trend := by
  cases trend with
  | none => rfl
  | some trend =>
    have prior : truthy (times share trend.epsTrend30daysAgo) = times share (truthy trend.epsTrend30daysAgo) := truthy_times shareOf
    unfold epsRevision Trend.rescaled
    simp only [Option.map_some, Option.bind_some, prior]
    cases trend.epsTrendCurrent with
    | none => rfl
    | some current =>
      cases truthy trend.epsTrend30daysAgo with
      | none => rfl
      | some before => simp only [times_some, mul_div_mul_left _ _ shareOf.ne']

theorem forwardTrend_rescaled (rows : List Trend) : forwardTrend (rows.map (Trend.rescaled share)) = (forwardTrend rows).map (Trend.rescaled share) := by
  unfold forwardTrend
  rw [List.find?_map, List.head?_map, Option.map_or]
  rfl

theorem rawMethods_rescaled (shareOf : 0 < share) (totalOf : 0 < total) :
    rawMethods riskFreeRate peers (stock.rescaled share total) (share * price) (read.rescaled share total) =
      scaledMethods share (rawMethods riskFreeRate peers stock price read) := by
  have revision : epsRevision (forwardTrend (stock.rescaled share total).fundamentals.earningsTrendQuarterly) =
      epsRevision (forwardTrend stock.fundamentals.earningsTrendQuarterly) := by
    unfold Stock.rescaled Fundamentals.rescaled
    dsimp only
    rw [forwardTrend_rescaled, epsRevision_rescaled shareOf]
  unfold rawMethods
  rw [estimates_rescaled shareOf totalOf, riskScore_rescaled totalOf, revision]
  generalize estimates riskFreeRate peers price read = values
  have names : (read.rescaled share total).profile = read.profile := rfl
  rw [scaledMethods_zip, names]
  dsimp only
  have weighted := weightedValue_times shareOf
  have anchor := weighted [(values.earnings, 0.40), (values.enterprise, 0.30), (values.dcf, 0.20), (values.book, 0.10)] price
  simp only [List.map_cons, List.map_nil] at anchor
  generalize weightedValue [(values.earnings, 0.40), (values.enterprise, 0.30), (values.dcf, 0.20), (values.book, 0.10)] price = middle at anchor
  unfold Estimates.rescaled
  rw [anchor]
  have first := weighted [(values.earnings, 0.42), (values.enterprise, 0.33), (values.book, 0.10)] middle
  have second := weighted [(values.dcf, 0.72), (values.earnings, 0.18)] middle
  have third := weighted [(values.dcf, 0.28), (values.enterprise, 0.22), (values.earnings, 0.20), (values.book, 0.10)] middle
  have fourth := weighted [(values.earnings, 0.65), (values.enterprise, 0.15)] middle
  have fifth := weighted [(values.dcf, 0.30), (values.earnings, 0.25), (values.enterprise, 0.20)] middle
  simp only [List.map_cons, List.map_nil] at first second third fourth fifth
  rw [first, second, third, fourth, fifth, mul_assoc, mul_assoc, mul_assoc]
  rfl

theorem frameworkMethods_rescaled (shareOf : 0 < share) (totalOf : 0 < total) :
    frameworkMethods riskFreeRate peers (stock.rescaled share total) (share * price) (read.rescaled share total) =
      scaledMethods share (frameworkMethods riskFreeRate peers stock price read) := by
  unfold frameworkMethods
  dsimp only
  rw [rawMethods_rescaled shareOf totalOf, snd_scaledMethods, statisticsMedian_map_mul shareOf]
  unfold scaledMethods
  rw [List.map_map, List.map_map]
  refine List.map_congr_left fun entry _ => ?_
  simp only [Function.comp_apply]
  rw [mul_assoc, mul_assoc, mul_assoc, mul_assoc, ← mul_max_of_nonneg _ _ shareOf.le, ← mul_min_of_nonneg _ _ shareOf.le, clamp_mul shareOf]

end Methods

section Consensus
variable {share price : ℚ}

def Resolved.rescaled (share : ℚ) (resolved : Resolved) : Resolved := { resolved with target := times share resolved.target }

theorem resolveUsConsensus_rescaled (pos : 0 < share) (published : Published) (eodhd : Option ℚ) (count : Option ℤ) :
    resolveUsConsensus (published.rescaled share) (times share eodhd) count = (resolveUsConsensus published eodhd count).rescaled share := by
  have window (analysts : FmpSummary → ℤ) (average : FmpSummary → Option ℚ) (sameCount : ∀ summary : FmpSummary, analysts (summary.rescaled share) = analysts summary)
      (sameAverage : ∀ summary : FmpSummary, average (summary.rescaled share) = times share (average summary)) :
      ((published.fmpSummary.map (FmpSummary.rescaled share)).bind fun summary => if 3 ≤ analysts summary then truthy (average summary) else none) =
        times share (published.fmpSummary.bind fun summary => if 3 ≤ analysts summary then truthy (average summary) else none) := by
    cases published.fmpSummary with
    | none => rfl
    | some summary =>
      rw [Option.map_some, Option.bind_some, Option.bind_some, sameCount, sameAverage, truthy_times pos]
      split <;> rfl
  unfold resolveUsConsensus Published.rescaled
  dsimp only
  rw [window FmpSummary.lastMonthCount FmpSummary.lastMonthAvg (fun _ => rfl) (fun _ => rfl),
    window FmpSummary.lastQuarterCount FmpSummary.lastQuarterAvg (fun _ => rfl) (fun _ => rfl), truthy_times pos, Option.map_map, Option.map_map]
  cases published.fmpSummary.bind fun summary => if 3 ≤ summary.lastMonthCount then truthy summary.lastMonthAvg else none with
  | some month => rfl
  | none =>
    cases published.fmpSummary.bind fun summary => if 3 ≤ summary.lastQuarterCount then truthy summary.lastQuarterAvg else none with
    | some quarter => rfl
    | none =>
      cases truthy published.fmpConsensus with
      | some consensus => rfl
      | none => rfl

theorem resolvedConsensus_rescaled (pos : 0 < share) (published : Published) :
    resolvedConsensus (published.rescaled share) (share * price) = (resolvedConsensus published price).rescaled share := by
  have eodhd : boundedTp (orElse (times share published.targetMeanPrice) (times share published.analystRatings.targetPrice)) (share * price) =
      times share (boundedTp (orElse published.targetMeanPrice published.analystRatings.targetPrice) price) := by
    rw [orElse_times pos, boundedTp_times pos]
  have resolved := resolveUsConsensus_rescaled pos published (boundedTp (orElse published.targetMeanPrice published.analystRatings.targetPrice) price)
  unfold resolvedConsensus
  dsimp only
  have sources : (published.rescaled share).targetMeanPrice = times share published.targetMeanPrice := rfl
  have ratings : (published.rescaled share).analystRatings.targetPrice = times share published.analystRatings.targetPrice := rfl
  rw [sources, ratings, eodhd, resolved]
  unfold Resolved.rescaled
  dsimp only
  rw [boundedTp_times pos]
  rfl

theorem usConsensusWeight_times (pos : 0 < share) (consensus : Option ℚ) (count : Option ℤ) :
    usConsensusWeight (times share consensus) count = usConsensusWeight consensus count := by
  unfold usConsensusWeight
  rw [truthy_times pos]
  cases truthy consensus with
  | none => rfl
  | some target => cases count <;> rfl

end Consensus

section Analysis
variable {setting : Setting} {riskFreeRate : Option ℚ} {peers : Profile → PeerMedians} {share total : ℚ} {stock : Stock} {published : Published}

def Analysis.rescaled (share : ℚ) (analysis : Analysis) : Analysis :=
  { analysis with
    methods := scaledMethods share analysis.methods
    consensus := times share analysis.consensus
    c3poTp := share * analysis.c3poTp
    buyIn := share * analysis.buyIn }

/-- The square root of a square times a number. -/
def Rooted (sqrt : ℚ → ℚ) : Prop := ∀ factor value, 0 < factor → sqrt (factor ^ 2 * value) = factor * sqrt value

theorem dispersionOf_map_mul (rooted : Rooted setting.sqrt) (pos : 0 < share) (values : List ℚ) :
    dispersionOf setting (values.map (share * ·)) = dispersionOf setting values := by
  have deviations : ((values.map (share * ·)).map fun value => (value - share * mean values) ^ 2) =
      (values.map fun value => (value - mean values) ^ 2).map (share ^ 2 * ·) := by
    rw [List.map_map, List.map_map]
    refine List.map_congr_left fun value _ => ?_
    simp only [Function.comp_apply]
    ring
  have zero : share * mean values = 0 ↔ mean values = 0 := mul_eq_zero_iff_left pos.ne'
  unfold dispersionOf
  dsimp only
  rw [List.length_map, mean_map_mul, deviations, mean_map_mul, rooted _ _ pos]
  simp only [zero, mul_div_mul_left _ _ pos.ne']

theorem completeness_rescaled (read : Reading) (consensus : Option ℚ) :
    completeness (read.rescaled share total) (times share consensus) = completeness read consensus := by
  unfold completeness Reading.rescaled
  simp only [← List.countP_eq_length_filter, List.countP_cons, isSome_times]

theorem officialBlendV1_rescaled (internalTp : ℚ) (consensus : Option ℚ) (weight : ℚ) :
    officialBlendV1 (share * internalTp) (times share consensus) weight = share * officialBlendV1 internalTp consensus weight := by
  cases consensus with
  | none => rfl
  | some target =>
    unfold officialBlendV1
    simp only [times_some]
    split
    · rfl
    · ring

theorem officialBuyInV1_rescaled (pos : 0 < share) (values : List ℚ) (entryDiscount tp : ℚ) :
    officialBuyInV1 (values.map (share * ·)) entryDiscount (share * tp) = share * officialBuyInV1 values entryDiscount tp := by
  have discounted : (values.map (share * ·)).map (fun value => value / (1 + entryDiscount)) =
      (values.map fun value => value / (1 + entryDiscount)).map (share * ·) := by
    rw [List.map_map, List.map_map]
    exact List.map_congr_left fun value _ => mul_div_assoc share value (1 + entryDiscount)
  unfold officialBuyInV1
  rw [discounted, mean_map_mul, mul_assoc, mul_min_of_nonneg _ _ pos.le]

theorem analyze_rescaled (rooted : Rooted setting.sqrt) (shareOf : 0 < share) (totalOf : 0 < total)
    (unbridged : foreignBridge stock.fundamentals.foreignListingPolicy = .ok none) :
    analyze setting riskFreeRate peers (stock.rescaled share total) (published.rescaled share) =
      (analyze setting riskFreeRate peers stock published).map (Analysis.rescaled share) := by
  have priced : positive (stock.rescaled share total).price = times share (positive stock.price) := positive_times shareOf
  have policy : foreignBridge (stock.rescaled share total).fundamentals.foreignListingPolicy = .ok none := unbridged
  unfold analyze
  rw [priced, policy, unbridged]
  cases positive stock.price with
  | none => rfl
  | some price =>
    have read : reading setting (stock.rescaled share total).fundamentals = (reading setting stock.fundamentals).rescaled share total :=
      reading_rescaled setting shareOf totalOf _
    have sentiment : (stock.rescaled share total).newsSentiment = stock.newsSentiment := rfl
    simp only [times_some]
    rw [read, resolvedConsensus_rescaled shareOf, frameworkMethods_rescaled shareOf totalOf, riskScore_rescaled totalOf, sentiment]
    generalize resolvedConsensus published price = resolved
    generalize frameworkMethods riskFreeRate peers stock price (reading setting stock.fundamentals) = own
    have target : (resolved.rescaled share).target = times share resolved.target := rfl
    have count : (resolved.rescaled share).analystCount = resolved.analystCount := rfl
    rw [target, count]
    refine congrArg Except.ok ?_
    simp only [Option.map_none, Option.getD_none, Option.isSome_none, Bool.false_eq_true, if_false]
    rw [usConsensusWeight_times shareOf, snd_scaledMethods, dispersionOf_map_mul rooted shareOf, completeness_rescaled, mean_map_mul,
      officialBlendV1_rescaled, officialBuyInV1_rescaled shareOf]
    rfl

end Analysis

section Values
variable {setting : Setting} {factors : List (Option Profile × ℚ)} {riskFreeRate : Option ℚ} {peers : Profile → PeerMedians} {share total : ℚ}
  {stock : Stock} {published : Published}

def Valued.rescaled (share : ℚ) (valued : Valued) : Valued :=
  { valued with
    methods := scaledMethods share valued.methods
    internalTp := share * valued.internalTp
    internalBuyIn := share * valued.internalBuyIn
    ourTp := share * valued.ourTp
    buyIn := share * valued.buyIn
    consensus := times share valued.consensus }

theorem filter_scaledMethods (pos : 0 < share) (methods : List (String × ℚ)) :
    (scaledMethods share methods).filter (fun entry => 0 < entry.2) = scaledMethods share (methods.filter fun entry => 0 < entry.2) := by
  unfold scaledMethods
  rw [List.filter_map]
  congr 1
  refine List.filter_congr fun entry _ => ?_
  simp [pos]

theorem gap_times (pos : 0 < share) (internalTp : ℚ) (consensus : Option ℚ) :
    ((times share consensus).map fun consensus => |share * internalTp / consensus - 1| * 100) = consensus.map fun consensus => |internalTp / consensus - 1| * 100 := by
  cases consensus with
  | none => rfl
  | some consensus => simp only [times_some, Option.map_some, mul_div_mul_left _ _ pos.ne']

theorem analyzeStock_rescaled (rooted : Rooted setting.sqrt) (shareOf : 0 < share) (totalOf : 0 < total)
    (unbridged : foreignBridge stock.fundamentals.foreignListingPolicy = .ok none) :
    analyzeStock setting factors riskFreeRate peers (stock.rescaled share total) (published.rescaled share) =
      (analyzeStock setting factors riskFreeRate peers stock published).map (Valued.rescaled share) := by
  unfold analyzeStock
  rw [analyze_rescaled rooted shareOf totalOf unbridged]
  cases analyze setting riskFreeRate peers stock published with
  | error refusal => rfl
  | ok analysis =>
    refine congrArg Except.ok ?_
    have methods : (analysis.rescaled share).methods.filter (fun entry => 0 < entry.2) =
        scaledMethods share (analysis.methods.filter fun entry => 0 < entry.2) := filter_scaledMethods shareOf _
    have consensus : positive (analysis.rescaled share).consensus = times share (positive analysis.consensus) := positive_times shareOf
    rw [methods, consensus]
    generalize analysis.methods.filter (fun entry => 0 < entry.2) = usable
    generalize positive analysis.consensus = target
    rw [snd_scaledMethods, mean_map_mul, mul_assoc, gap_times shareOf, officialBuyInV1_rescaled shareOf]
    have count : (scaledMethods share usable).length = usable.length := List.length_map _
    rw [count]
    unfold Valued.rescaled Analysis.rescaled
    simp only [isSome_times, times_eq_none, mul_ite, mul_assoc]
    rfl

def rowInput (stock : Stock) (dividendYield : Option ℚ) (valued : Valued) : RowInput where
  symbol := stock.symbol
  price := stock.price.getD 0
  securityType := .stock
  dividendYield
  returnOnEquity := stock.fundamentals.returnOnEquity
  profitMargins := stock.fundamentals.profitMargins
  qualityScore := 70
  ourTp := valued.ourTp
  internalTp := valued.internalTp
  buyIn := valued.buyIn
  internalBuyIn := valued.internalBuyIn
  consensus := valued.consensus
  consensusWeightPercent := valued.consensusWeight * 100
  risk := valued.riskScore
  confidence := valued.confidence
  dispersion := valued.dispersion
  validated := valued.validated

def Row.rescaled (share : ℚ) (row : Row) : Row :=
  { row with
    official := { row.official with
      price := times share row.official.price
      ourTp := times share row.official.ourTp
      buyIn := times share row.official.buyIn
      internalTp := times share row.official.internalTp
      internalBuyIn := times share row.official.internalBuyIn
      publicConsensusTp := times share row.official.publicConsensusTp } }

def RowInput.rescaled (share : ℚ) (input : RowInput) : RowInput :=
  { input with
    price := share * input.price
    ourTp := share * input.ourTp
    internalTp := share * input.internalTp
    buyIn := share * input.buyIn
    internalBuyIn := share * input.internalBuyIn
    consensus := times share input.consensus }

theorem commonRow_rescaled (pos : 0 < share) (input : RowInput) : commonRow (input.rescaled share) = (commonRow input).rescaled share := by
  have ratio (first second : ℚ) : share * first / (share * second) = first / second := mul_div_mul_left _ _ pos.ne'
  have quality : operatingQuality (input.rescaled share) = operatingQuality input := rfl
  unfold commonRow
  rw [quality]
  unfold RowInput.rescaled Row.rescaled
  simp only [ratio, truthy_times pos, gap_times pos, isNone_times, times_some]

/-- A stock of the screener: its values, and the row of them with its status. -/
def screenStock (setting : Setting) (factors : List (Option Profile × ℚ)) (riskFreeRate : Option ℚ) (peers : Profile → PeerMedians)
    (dividendYield : Option ℚ) (tpCutoff riskCutoff : ℚ) (stock : Stock) (published : Published) : Except Refusal (Valued × Row) :=
  (analyzeStock setting factors riskFreeRate peers stock published).map fun valued =>
    (valued, (commonRow (rowInput stock dividendYield valued)).withStatus tpCutoff riskCutoff)

theorem screenStock_rescaled (dividendYield : Option ℚ) (tpCutoff riskCutoff : ℚ) (rooted : Rooted setting.sqrt) (shareOf : 0 < share)
    (totalOf : 0 < total) (unbridged : foreignBridge stock.fundamentals.foreignListingPolicy = .ok none) :
    screenStock setting factors riskFreeRate peers dividendYield tpCutoff riskCutoff (stock.rescaled share total) (published.rescaled share) =
      (screenStock setting factors riskFreeRate peers dividendYield tpCutoff riskCutoff stock published).map fun screened =>
        (screened.1.rescaled share, screened.2.rescaled share) := by
  unfold screenStock
  rw [analyzeStock_rescaled rooted shareOf totalOf unbridged]
  cases analyzeStock setting factors riskFreeRate peers stock published with
  | error refusal => rfl
  | ok valued =>
    have input : rowInput (stock.rescaled share total) dividendYield (valued.rescaled share) = (rowInput stock dividendYield valued).rescaled share := by
      unfold rowInput RowInput.rescaled
      rw [RowInput.mk.injEq]
      exact ⟨rfl, getD_times_zero, rfl, rfl, rfl, rfl, rfl, rfl, rfl, rfl, rfl, rfl, rfl, rfl, rfl, rfl, rfl⟩
    refine congrArg Except.ok ?_
    dsimp only
    rw [input, commonRow_rescaled shareOf]
    rfl

end Values

end C3po.Producers.Us
