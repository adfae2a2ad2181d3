import C3po.Producers.B3
import C3po.Producers.Us

/-! Two runs over the same names, whatever is published of them, agree on the internal targets. -/

set_option autoImplicit false

namespace C3po.Producers
open C3po.Library

namespace Us

section Methods
variable {setting : Setting} {riskFreeRate : Option ℚ} {peers : Profile → PeerMedians} {stock : Stock} {price : ℚ}

theorem le_clamp {value low high : ℚ} : low ≤ clamp value low high := le_max_left _ _

theorem frameworkMethods_pos (read : Reading) (pos : 0 < price) : ∀ entry ∈ frameworkMethods riskFreeRate peers stock price read, 0 < entry.2 := by
  intro entry mem
  obtain ⟨raw, -, rfl⟩ := List.mem_map.mp mem
  calc (0 : ℚ) < price * 0.40 := by positivity
    _ ≤ _ := le_max_left _ _
    _ ≤ _ := le_clamp

theorem positive_eq_some {value : Option ℚ} {number : ℚ} (found : positive value = some number) : value = some number ∧ 0 < number := by
  obtain ⟨rfl, pos⟩ := Option.filter_eq_some_iff.mp found
  exact ⟨rfl, by simpa using pos⟩

theorem positive_boundedTp (value : Option ℚ) : positive (boundedTp value price) = boundedTp value price := by
  cases bounded : boundedTp value price with
  | none => rfl
  | some target =>
    obtain ⟨found, -⟩ := Option.filter_eq_some_iff.mp bounded
    exact Option.filter_eq_some_iff.mpr ⟨rfl, by simpa using (positive_eq_some found).2⟩

theorem positive_resolvedConsensus (published : Published) :
    positive (resolvedConsensus published price).target = (resolvedConsensus published price).target := positive_boundedTp _

end Methods

section Analysis
variable {setting : Setting} {riskFreeRate : Option ℚ} {peers : Profile → PeerMedians} {stock : Stock} {published : Published} {analysis : Analysis}

def ownMethods (setting : Setting) (riskFreeRate : Option ℚ) (peers : Profile → PeerMedians) (stock : Stock) (price : ℚ) : List (String × ℚ) :=
  frameworkMethods riskFreeRate peers stock price (reading setting stock.fundamentals)

abbrev Bridge := Option (List (String × ℚ) × ℚ × Int)

/-- The entry price of a stock from its own methods, or the registered one. -/
def ownBuyIn (bridge : Bridge) (own : List (String × ℚ)) (riskScore confidence : ℚ) : ℚ :=
  match bridge with
  | some bridge => bridge.2.1
  | none => officialBuyInV1 (own.map Prod.snd) (officialEntryDiscountV1 riskScore confidence) (mean (own.map Prod.snd))

theorem analyze_ok (done : analyze setting riskFreeRate peers stock published = .ok analysis) :
    ∃ price bridge, positive stock.price = some price ∧ foreignBridge stock.fundamentals.foreignListingPolicy = .ok bridge ∧
      analysis.profile = profileOf setting "Setor não informado" stock.fundamentals ∧
      analysis.methods = (bridge.map fun bridge => bridge.1).getD (ownMethods setting riskFreeRate peers stock price) ∧
      analysis.methodEstimateRegisteredOn = bridge.map (fun bridge => bridge.2.2) ∧
      analysis.riskScore = riskScore stock (reading setting stock.fundamentals) ∧
      positive analysis.consensus = analysis.consensus ∧
      (bridge.isSome ∨ analysis.consensus = none →
        analysis.buyIn = ownBuyIn bridge (ownMethods setting riskFreeRate peers stock price) analysis.riskScore analysis.confidence) := by
  unfold analyze at done
  cases priced : positive stock.price with
  | none => simp only [priced] at done; cases done
  | some price =>
    simp only [priced] at done
    cases bridged : foreignBridge stock.fundamentals.foreignListingPolicy with
    | error refusal => rw [bridged] at done; cases done
    | ok bridge =>
      rw [bridged] at done
      cases done
      refine ⟨price, bridge, rfl, rfl, rfl, rfl, rfl, rfl, positive_resolvedConsensus published, ?_⟩
      intro alone
      cases bridge with
      | some bridge => rfl
      | none =>
        -- without a bridge the blend is the only trace of the consensus, and there is none
        have unpublished : (resolvedConsensus published price).target = none := alone.resolve_left (by simp)
        simp only [unpublished]
        rfl

end Analysis

section Value
variable {setting : Setting} {factors : List (Option Profile × ℚ)} {riskFreeRate : Option ℚ} {peers : Profile → PeerMedians} {stock : Stock}
  {published : Published} {valued : Valued}

theorem analyzeStock_internal (done : analyzeStock setting factors riskFreeRate peers stock published = .ok valued) :
    ∃ price bridge, positive stock.price = some price ∧ foreignBridge stock.fundamentals.foreignListingPolicy = .ok bridge ∧
      valued.methods = ((bridge.map fun bridge => bridge.1).getD (ownMethods setting riskFreeRate peers stock price)).filter (fun entry => 0 < entry.2) ∧
      valued.internalTp =
        mean (valued.methods.map Prod.snd) * calibrationFactor factors (profileOf setting "Setor não informado" stock.fundamentals) ∧
      valued.internalBuyIn = ownBuyIn bridge (ownMethods setting riskFreeRate peers stock price)
        (riskScore stock (reading setting stock.fundamentals)) valued.confidence := by
  unfold analyzeStock at done
  cases analysed : analyze setting riskFreeRate peers stock published with
  | error refusal => rw [analysed] at done; cases done
  | ok analysis =>
    rw [analysed] at done
    cases done
    obtain ⟨price, bridge, priced, bridged, profile, methods, registered, risk, consensus, entry⟩ := analyze_ok analysed
    refine ⟨price, bridge, priced, bridged, by rw [← methods], by rw [← profile], ?_⟩
    rw [← risk]
    dsimp only
    rw [consensus]
    split
    · rename_i alone
      rw [registered, Option.isSome_map] at alone
      exact entry alone
    · rename_i published
      rw [registered, Option.isSome_map, not_or] at published
      cases bridge with
      | some bridge => exact absurd rfl published.1
      | none =>
        have own : analysis.methods.filter (fun entry => 0 < entry.2) = ownMethods setting riskFreeRate peers stock price := by
          rw [methods]
          exact List.filter_eq_self.mpr fun entry mem =>
            decide_eq_true (frameworkMethods_pos _ (positive_eq_some priced).2 entry mem)
        rw [own]
        rfl

/-- What two runs agree on of a stock that both value. -/
def SameInternal (first second : Except Refusal Valued) : Prop :=
  ∀ valued other, first = .ok valued → second = .ok other →
    valued.methods = other.methods ∧ valued.internalTp = other.internalTp ∧
      (valued.confidence = other.confidence → valued.internalBuyIn = other.internalBuyIn)

theorem analyzeStock_same (published published' : Published) :
    SameInternal (analyzeStock setting factors riskFreeRate peers stock published) (analyzeStock setting factors riskFreeRate peers stock published') := by
  intro valued other done done'
  obtain ⟨price, bridge, priced, bridged, methods, target, entry⟩ := analyzeStock_internal done
  obtain ⟨price', bridge', priced', bridged', methods', target', entry'⟩ := analyzeStock_internal done'
  cases priced.symm.trans priced'
  cases bridged.symm.trans bridged'
  have same := methods.trans methods'.symm
  refine ⟨same, ?_, ?_⟩
  · rw [target, target', same]
  · intro confidence
    rw [entry, entry', confidence]

theorem valueBatch_same (others : List Fundamentals) {stocks stocks' : List (Stock × Published)} (same : stocks.map Prod.fst = stocks'.map Prod.fst) :
    List.Forall₂ SameInternal (valueBatch setting factors riskFreeRate others stocks) (valueBatch setting factors riskFreeRate others stocks') := by
  have fundamentals : ∀ stocks : List (Stock × Published),
      stocks.map (fun entry => entry.1.fundamentals) = (stocks.map Prod.fst).map Stock.fundamentals := by
    intro stocks
    rw [List.map_map]
    rfl
  have pairs : ∀ (peers : Profile → PeerMedians) (stocks stocks' : List (Stock × Published)), stocks.map Prod.fst = stocks'.map Prod.fst →
      List.Forall₂ SameInternal (stocks.map fun entry => analyzeStock setting factors riskFreeRate peers entry.1 entry.2)
        (stocks'.map fun entry => analyzeStock setting factors riskFreeRate peers entry.1 entry.2) := by
    intro peers stocks
    induction stocks with
    | nil =>
      intro stocks' same
      cases stocks' with
      | nil => exact .nil
      | cons => cases same
    | cons first rest ih =>
      intro stocks' same
      cases stocks' with
      | nil => cases same
      | cons other rest' =>
        rw [List.map_cons, List.map_cons, List.cons.injEq] at same
        obtain ⟨stock, published⟩ := first
        obtain ⟨stock', published'⟩ := other
        obtain ⟨rfl, same⟩ := same
        exact .cons (analyzeStock_same published published') (ih rest' same)
  unfold valueBatch
  dsimp only
  rw [fundamentals stocks, same, ← fundamentals stocks']
  exact pairs _ _ _ same

end Value

end Us

/-- Two runs that differ only in what is published of the consensus give each name that both value the
same internal methods and internal target, and its internal entry price: in the United States, as long as
the confidences agree. -/
theorem internal_sees_no_consensus :
    (∀ (maths : Maths) (factors : List (Option B3.Profile × ℚ)) (context : B3.Macro) (overrides overrides' : String → Option OfficialConsensus)
      (today today' : Int) (rows rows' : List B3.Row) (references references' : List ShareClass),
      rows.map B3.Row.toCompany = rows'.map B3.Row.toCompany →
        List.Forall₂ B3.SameInternal (B3.valueBatch maths factors context overrides today rows references)
          (B3.valueBatch maths factors context overrides' today' rows' references')) ∧
    ∀ (setting : Us.Setting) (factors : List (Option Us.Profile × ℚ)) (riskFreeRate : Option ℚ) (others : List Us.Fundamentals)
      (stocks stocks' : List (Us.Stock × Us.Published)),
      stocks.map Prod.fst = stocks'.map Prod.fst →
        List.Forall₂ Us.SameInternal (Us.valueBatch setting factors riskFreeRate others stocks)
          (Us.valueBatch setting factors riskFreeRate others stocks') :=
  ⟨fun _ _ _ overrides overrides' today today' _ _ references references' same =>
      B3.valueBatch_same overrides overrides' today today' references references' same,
    fun _ _ _ others _ _ same => Us.valueBatch_same others same⟩

section Sample

/-- The square root to six decimals, by sixty steps of Newton. -/
def decimalSqrt (value : ℚ) : ℚ :=
  let scaled := ⌊value * 10 ^ 12⌋.toNat
  ((List.range 60).foldl (fun root _ => if root = 0 then 0 else (root + scaled / root) / 2) scaled : ℕ) / 10 ^ 6

/-- A bank, with nothing known of it that its three methods do not read. -/
def bank : B3.Company where
  symbol := "ITUB4"
  issuer := "ITUB"
  profile := .financial
  sector := "Financeiro"
  peerGroup := "bancos"
  price := 30
  marketCap := 300000000000
  pe := some 9
  forwardPe := some 8
  evEbitda := none
  priceToBook := some (8 / 5)
  bookValue := some 18
  beta := some 1
  shares := some 10000000000
  eps := some 3
  forwardEps := some (7 / 2)
  dividendYield := none
  debtToEquity := none
  roe := some (1 / 5)
  profitMargin := some (1 / 5)
  ebitdaMargin := none
  revenueGrowth := some (1 / 20)
  earningsGrowth := some (1 / 10)
  revenueCagr5y := none
  earningsCagr5y := none
  fcf := none
  operatingCashflow := none
  ebitda := none
  revenue := none
  cash := 0
  debt := 0
  cycleProfitMargin := none
  cycleEbitdaMargin := none
  cycleFcfMargin := none
  cycleImpliedPe := none
  cycleImpliedEvEbitda := none
  volatility90d := some (1 / 4)
  support60d := some 28
  median20d := some 30
  low20d := some 29
  lastClose := some 30
  completeness := 1
  sourceAgreementPercent := 90
  quoteQuality := 100

def bankRow (answer : Answer) : B3.Row := { bank with answers := fun _ => answer }

/-- A software company whose fundamentals are its earnings alone. -/
def software : Us.Stock where
  symbol := "SOFT"
  price := some 100
  fundamentals :=
    { sector := some "software"
      industry := none
      trailingPE := none
      enterpriseToEbitda := none
      earningsGrowthAnnual := some (1 / 10)
      revenueGrowthAnnual := some (1 / 10)
      profitMargins := some (1 / 5)
      operatingMargins := none
      returnOnEquity := some (1 / 5)
      beta := some 1
      forwardEps := some 5
      trailingEps := some 4
      bookValue := some 30
      sharesOutstanding := none
      ebitda := none
      totalDebt := none
      totalCash := none
      freeCashflow := none
      quarterlyEbitda := []
      quarterlyFreeCashFlow := []
      quarterlyBalance := []
      surprisePercent := []
      earningsTrendQuarterly := []
      foreignListingPolicy := none }
  insiderActivity := none
  newsSentiment := none
  institutionalPositions := none
  recentGrades := ["upgrade"]

def sampleSetting : Us.Setting := { sqrt := decimalSqrt, lower := fun text => text }

theorem internal_sees_no_consensus_sample :
    ((B3.valueBatch ⟨decimalSqrt⟩ [] ⟨none, none⟩ (fun _ => none) 0 [bankRow ⟨none, none, none⟩] []).map Option.isSome = [true] ∧
      (B3.valueBatch ⟨decimalSqrt⟩ [] ⟨none, none⟩ (fun _ => none) 0 [bankRow ⟨some 40, some 6, some 0⟩] []).map Option.isSome = [true] ∧
      List.Forall₂ B3.SameInternal (B3.valueBatch ⟨decimalSqrt⟩ [] ⟨none, none⟩ (fun _ => none) 0 [bankRow ⟨none, none, none⟩] [])
        (B3.valueBatch ⟨decimalSqrt⟩ [] ⟨none, none⟩ (fun _ => none) 0 [bankRow ⟨some 40, some 6, some 0⟩] [])) ∧
    (Us.valueBatch sampleSetting [] none [] [(software, {})]).map (fun valued => valued.toOption.isSome) = [true] ∧
    (Us.valueBatch sampleSetting [] none [] [(software, { targetMeanPrice := some 130, numberOfAnalystOpinions := 12 })]).map
      (fun valued => valued.toOption.isSome) = [true] ∧
    List.Forall₂ Us.SameInternal (Us.valueBatch sampleSetting [] none [] [(software, {})])
      (Us.valueBatch sampleSetting [] none [] [(software, { targetMeanPrice := some 130, numberOfAnalystOpinions := 12 })]) :=
  ⟨⟨by decide +kernel, by decide +kernel, internal_sees_no_consensus.1 _ _ _ _ _ _ _ _ _ _ _ rfl⟩, by decide +kernel, by decide +kernel,
    internal_sees_no_consensus.2 _ _ _ _ _ _ rfl⟩

end Sample

end C3po.Producers

/-! The bounds of the five methods of a stock: an interval around its price and one around the middle
of the methods before they are bounded, and when the two meet.
-/

namespace C3po.Producers.Us
open C3po.Library

section Means
variable {low high : ℚ}

def Within (low high value : ℚ) : Prop := low ≤ value ∧ value ≤ high

theorem Within.clamp {value : ℚ} (meet : low ≤ high) : Within low high (clamp value low high) :=
  ⟨le_max_left _ _, max_le meet (min_le_left _ _)⟩

theorem Within.mono {value low' high' : ℚ} (within : Within low high value) (below : low' ≤ low) (above : high ≤ high') : Within low' high' value :=
  ⟨below.trans within.1, within.2.trans above⟩

theorem Within.mul_right {value factor : ℚ} (within : Within low high value) (pos : 0 ≤ factor) :
    Within (low * factor) (high * factor) (value * factor) :=
  ⟨mul_le_mul_of_nonneg_right within.1 pos, mul_le_mul_of_nonneg_right within.2 pos⟩

theorem weighted_bounds {entries : List (ℚ × ℚ)} (each : ∀ entry ∈ entries, Within low high entry.1 ∧ 0 ≤ entry.2) :
    low * (entries.map Prod.snd).sum ≤ (entries.map fun entry => entry.1 * entry.2).sum ∧
      (entries.map fun entry => entry.1 * entry.2).sum ≤ high * (entries.map Prod.snd).sum := by
  induction entries with
  | nil => simp
  | cons entry rest ih =>
    obtain ⟨within, weight⟩ := each entry List.mem_cons_self
    obtain ⟨above, below⟩ := within.mul_right weight
    obtain ⟨restAbove, restBelow⟩ := ih fun entry mem => each entry (List.mem_cons_of_mem _ mem)
    simp only [List.map_cons, List.sum_cons, mul_add]
    exact ⟨add_le_add above restAbove, add_le_add below restBelow⟩

theorem weightedValue_within {values : List (Option ℚ × ℚ)} {fallback : ℚ} (each : ∀ entry ∈ values, ∀ value, entry.1 = some value → Within low high value)
    (weights : ∀ entry ∈ values, 0 ≤ entry.2) (alone : Within low high fallback) : Within low high (weightedValue values fallback) := by
  unfold weightedValue
  dsimp only
  split
  · exact alone
  · rename_i usable
    have total := not_le.mp (not_or.mp usable).2
    obtain ⟨above, below⟩ := @weighted_bounds low high (values.filterMap fun entry =>
        (positive entry.1).map fun value => (value, entry.2)) (by
      intro entry mem
      obtain ⟨source, member, found⟩ := List.mem_filterMap.mp mem
      obtain ⟨value, held, rfl⟩ := Option.map_eq_some_iff.mp found
      exact ⟨each source member value (positive_eq_some held).1, weights source member⟩)
    exact ⟨(le_div_iff₀ total).mpr above, (div_le_iff₀ total).mpr below⟩

theorem mean_within {values : List ℚ} (some : values ≠ []) (each : ∀ value ∈ values, Within low high value) : Within low high (mean values) := by
  have count : (0 : ℚ) < values.length := by exact_mod_cast List.length_pos_iff.mpr some
  have bounds : low * values.length ≤ values.sum ∧ values.sum ≤ high * values.length := by
    obtain ⟨above, below⟩ := @weighted_bounds low high (values.map fun value => (value, 1)) (by
      intro entry mem
      obtain ⟨value, member, rfl⟩ := List.mem_map.mp mem
      exact ⟨each value member, zero_le_one⟩)
    simpa [Function.comp_def] using And.intro above below
  exact ⟨(le_div_iff₀ count).mpr bounds.1, (div_le_iff₀ count).mpr bounds.2⟩

theorem statisticsMedian_within {values : List ℚ} (some : values ≠ []) (each : ∀ value ∈ values, Within low high value) :
    Within low high (statisticsMedian values) := by
  have length : (sorted values).length = values.length := List.length_insertionSort _ _
  have count : 0 < values.length := List.length_pos_iff.mpr some
  have middle : ∀ index < values.length, Within low high ((sorted values).getD index 0) := by
    intro index bound
    have bound : index < (sorted values).length := length ▸ bound
    rw [List.getD_eq_getElem?_getD, List.getElem?_eq_getElem bound, Option.getD_some]
    exact each _ ((List.mem_insertionSort _).mp (List.getElem_mem _))
  unfold statisticsMedian
  dsimp only
  rw [length]
  split
  · exact middle _ (by omega)
  · obtain ⟨above, below⟩ := middle (values.length / 2 - 1) (by omega)
    obtain ⟨above', below'⟩ := middle (values.length / 2) (by omega)
    exact ⟨by linarith, by linarith⟩

theorem exists_within {values : List ℚ} (each : ∀ value ∈ values, 0 < value) : ∃ low high, 0 < low ∧ ∀ value ∈ values, Within low high value := by
  induction values with
  | nil => exact ⟨1, 1, one_pos, fun value none => absurd none List.not_mem_nil⟩
  | cons value rest ih =>
    obtain ⟨low, high, pos, within⟩ := ih fun other here => each other (List.mem_cons_of_mem _ here)
    refine ⟨min value low, max value high, lt_min (each value List.mem_cons_self) pos, ?_⟩
    intro other here
    obtain same | below := List.mem_cons.mp here
    · rw [same]
      exact ⟨min_le_left _ _, le_max_left _ _⟩
    · exact (within other below).mono (min_le_right _ _) (le_max_right _ _)

theorem statisticsMedian_pos {values : List ℚ} (some : values ≠ []) (each : ∀ value ∈ values, 0 < value) : 0 < statisticsMedian values := by
  obtain ⟨low, high, pos, within⟩ := exists_within each
  exact pos.trans_le (statisticsMedian_within some within).1

theorem mean_pos {values : List ℚ} (some : values ≠ []) (each : ∀ value ∈ values, 0 < value) : 0 < mean values := by
  obtain ⟨low, high, pos, within⟩ := exists_within each
  exact pos.trans_le (mean_within some within).1

theorem weightedValue_pos {values : List (Option ℚ × ℚ)} {fallback : ℚ} (weights : ∀ entry ∈ values, 0 ≤ entry.2) (alone : 0 < fallback) :
    0 < weightedValue values fallback := by
  have usable : ∀ entry ∈ values.filterMap fun entry => (positive entry.1).map fun value => (value, entry.2), 0 < entry.1 ∧ 0 ≤ entry.2 := by
    intro entry mem
    obtain ⟨source, member, found⟩ := List.mem_filterMap.mp mem
    obtain ⟨value, held, rfl⟩ := Option.map_eq_some_iff.mp found
    exact ⟨(positive_eq_some held).2, weights source member⟩
  unfold weightedValue
  dsimp only
  split
  · exact alone
  · rename_i some
    have total := not_le.mp (not_or.mp some).2
    obtain ⟨low, high, pos, within⟩ := exists_within (List.forall_mem_map.mpr fun entry mem => (usable entry mem).1)
    have bounds := weighted_bounds fun entry mem => ⟨within _ (List.mem_map_of_mem mem), (usable entry mem).2⟩
    exact div_pos ((mul_pos pos total).trans_le bounds.1) total

end Means

section Methods
variable {riskFreeRate : Option ℚ} {peers : Profile → PeerMedians} {stock : Stock} {price low high : ℚ} {read : Reading}

theorem boundedTp_within {value : Option ℚ} {target : ℚ} (bounded : boundedTp value price = some target) : Within (price * 0.25) (price * 4) target := by
  obtain ⟨-, held⟩ := Option.filter_eq_some_iff.mp bounded
  simpa [Within] using held

/-- Every estimate that is there lies in an interval. -/
structure Estimates.Within (values : Estimates) (low high : ℚ) : Prop where
  earnings : ∀ value, values.earnings = some value → Us.Within low high value
  enterprise : ∀ value, values.enterprise = some value → Us.Within low high value
  book : ∀ value, values.book = some value → Us.Within low high value
  dcf : ∀ value, values.dcf = some value → Us.Within low high value

theorem dcfValue_within {value : ℚ} (found : dcfValue riskFreeRate price read = some value) : Within (price * 0.25) (price * 4) value := by
  unfold dcfValue at found
  split at found
  · exact boundedTp_within found
  · obtain ⟨eps, -, bounded⟩ := Option.bind_eq_some_iff.mp found
    exact boundedTp_within bounded

theorem estimates_within : (estimates riskFreeRate peers price read).Within (price * 0.25) (price * 4) where
  earnings _ found := boundedTp_within found
  enterprise value found := by
    unfold estimates at found
    dsimp only at found
    split at found
    · split at found
      · exact nomatch found
      · exact boundedTp_within found
    · exact nomatch found
  book _ found := boundedTp_within found
  dcf value found := by
    unfold estimates at found
    dsimp only at found
    split at found
    · exact nomatch found
    · exact dcfValue_within found

theorem Within.adjusted {value factor top : ℚ} (within : Within low high value) (above : 0 ≤ low) (factors : Within 0.90 top factor) :
    Within (low * 0.90) (high * top) (value * factor) :=
  ⟨mul_le_mul within.1 factors.1 (by norm_num) (above.trans within.1),
    mul_le_mul within.2 factors.2 (by linarith [factors.1]) (above.trans (within.1.trans within.2))⟩

theorem Estimates.Within.weighted {values : Estimates} {sources : List (Option ℚ × ℚ)} {fallback : ℚ} (held : values.Within low high)
    (alone : Us.Within low high fallback)
    (each : ∀ entry ∈ sources, entry.1 ∈ [values.earnings, values.enterprise, values.book, values.dcf] ∧ 0 ≤ entry.2) :
    Us.Within low high (weightedValue sources fallback) := by
  refine weightedValue_within ?_ (fun entry mem => (each entry mem).2) alone
  intro entry mem value found
  have member := (each entry mem).1
  simp only [List.mem_cons, List.not_mem_nil, or_false, found] at member
  obtain earnings | enterprise | book | dcf := member
  · exact held.earnings value earnings.symm
  · exact held.enterprise value enterprise.symm
  · exact held.book value book.symm
  · exact held.dcf value dcf.symm

/-- The five methods before they are bounded stay near the interval of the estimates: their adjustments
take off a tenth and add fourteen parts in a hundred at most. -/
theorem rawMethods_within (around : Within low high price) (pos : 0 ≤ low) (held : (estimates riskFreeRate peers price read).Within low high) :
    ∀ entry ∈ rawMethods riskFreeRate peers stock price read, Within (low * 0.90) (high * 1.14) entry.2 := by
  intro entry mem
  have member := (List.of_mem_zip (show (entry.1, entry.2) ∈ _ from mem)).2
  generalize estimates riskFreeRate peers price read = values at held member
  have anchored := @Estimates.Within.weighted _ _ _
    [(values.earnings, 0.40), (values.enterprise, 0.30), (values.dcf, 0.20), (values.book, 0.10)] _ held around (by norm_num)
  have plain : ∀ {value}, Within low high value → Within (low * 0.90) (high * 1.14) value := by
    intro value within
    have near := @Within.adjusted low high value 1 1.14 within pos ⟨by norm_num, by norm_num⟩
    rwa [mul_one] at near
  have bounded : ∀ {value factor : ℚ}, Within low high value → Within 0.90 1.14 factor → Within (low * 0.90) (high * 1.14) (value * factor) :=
    fun within factors => within.adjusted pos factors
  simp only [List.mem_cons, List.not_mem_nil, or_false] at member
  obtain first | second | third | fourth | fifth := member
  · rw [first]
    exact plain (held.weighted anchored (by norm_num))
  · rw [second]
    exact plain (held.weighted anchored (by norm_num))
  · rw [third]
    refine bounded (held.weighted anchored (by norm_num)) ?_
    obtain ⟨above, below⟩ := @Within.clamp (-0.04) 0.10 ((riskScore stock read - 40) / 500) (by norm_num)
    exact ⟨by linarith, by linarith⟩
  · rw [fourth]
    exact bounded (held.weighted anchored (by norm_num)) ((Within.clamp (by norm_num)).mono le_rfl (by norm_num))
  · rw [fifth]
    exact bounded (held.weighted anchored (by norm_num)) (Within.clamp (by norm_num))

theorem rawMethods_ne_nil : (rawMethods riskFreeRate peers stock price read).map Prod.snd ≠ [] := by
  unfold rawMethods
  split <;> exact nofun

def rawMedian (riskFreeRate : Option ℚ) (peers : Profile → PeerMedians) (stock : Stock) (price : ℚ) (read : Reading) : ℚ :=
  statisticsMedian ((rawMethods riskFreeRate peers stock price read).map Prod.snd)

/-- Methods and their mean, the framework target, near the price and near the middle of the raw methods. -/
structure Enveloped (price center : ℚ) (methods : List (String × ℚ)) : Prop where
  nearPrice : ∀ entry ∈ methods, Within (price * 0.40) (price * 2.75) entry.2
  nearCenter : ∀ entry ∈ methods, Within (center * 0.68) (center * 1.45) entry.2
  frameworkNearPrice : Within (price * 0.40) (price * 2.75) (mean (methods.map Prod.snd))
  frameworkNearCenter : Within (center * 0.68) (center * 1.45) (mean (methods.map Prod.snd))

/-- The interval around the price meets the one around the middle. -/
def Meeting (price center : ℚ) : Prop := price * 0.40 ≤ center * 1.45 ∧ center * 0.68 ≤ price * 2.75

theorem Enveloped.meets {center : ℚ} {methods : List (String × ℚ)} (held : Enveloped price center methods) : Meeting price center :=
  ⟨held.frameworkNearPrice.1.trans held.frameworkNearCenter.2, held.frameworkNearCenter.1.trans held.frameworkNearPrice.2⟩

theorem rawMedian_within (around : Within low high price) (pos : 0 ≤ low) (held : (estimates riskFreeRate peers price read).Within low high) :
    Within (low * 0.90) (high * 1.14) (rawMedian riskFreeRate peers stock price read) := by
  refine statisticsMedian_within rawMethods_ne_nil fun value mem => ?_
  obtain ⟨entry, member, rfl⟩ := List.mem_map.mp mem
  exact rawMethods_within around pos held entry member

theorem rawMedian_bounds (pos : 0 < price) : Within (price * 0.225) (price * 4.56) (rawMedian riskFreeRate peers stock price read) :=
  (@rawMedian_within _ _ _ _ (price * 0.25) (price * 4) _ ⟨by linarith, by linarith⟩ (by positivity) estimates_within).mono
    (by linarith) (by linarith)

theorem enveloped_iff (pos : 0 < price) : Enveloped price (rawMedian riskFreeRate peers stock price read)
    (frameworkMethods riskFreeRate peers stock price read) ↔ Meeting price (rawMedian riskFreeRate peers stock price read) := by
  have center : 0 < rawMedian riskFreeRate peers stock price read := (by positivity : 0 < price * 0.225).trans_le (rawMedian_bounds pos).1
  constructor
  · exact Enveloped.meets
  · rintro ⟨below, above⟩
    have meet : max (price * 0.40) (rawMedian riskFreeRate peers stock price read * 0.68) ≤
        min (price * 2.75) (rawMedian riskFreeRate peers stock price read * 1.45) :=
      max_le (le_min (by linarith) below) (le_min above (by linarith))
    have each : ∀ entry ∈ frameworkMethods riskFreeRate peers stock price read,
        Within (max (price * 0.40) (rawMedian riskFreeRate peers stock price read * 0.68))
          (min (price * 2.75) (rawMedian riskFreeRate peers stock price read * 1.45)) entry.2 := by
      intro entry mem
      obtain ⟨raw, -, rfl⟩ := List.mem_map.mp mem
      exact Within.clamp meet
    have framework := @mean_within _ _ ((frameworkMethods riskFreeRate peers stock price read).map Prod.snd)
      (by simpa [frameworkMethods] using rawMethods_ne_nil) (by
        intro value mem
        obtain ⟨entry, member, rfl⟩ := List.mem_map.mp mem
        exact each entry member)
    exact
      { nearPrice := fun entry mem => (each entry mem).mono (le_max_left _ _) (min_le_left _ _)
        nearCenter := fun entry mem => (each entry mem).mono (le_max_right _ _) (min_le_right _ _)
        frameworkNearPrice := framework.mono (le_max_left _ _) (min_le_left _ _)
        frameworkNearCenter := framework.mono (le_max_right _ _) (min_le_right _ _) }

end Methods

section Analysis
variable {setting : Setting} {riskFreeRate : Option ℚ} {peers : Profile → PeerMedians} {stock : Stock} {published : Published} {analysis : Analysis}
  {price : ℚ}

/-- The methods that are published without a bridge keep to both intervals just where these meet. -/
theorem framework_envelope (done : analyze setting riskFreeRate peers stock published = .ok analysis)
    (unbridged : foreignBridge stock.fundamentals.foreignListingPolicy = .ok none) (priced : positive stock.price = some price) :
    Enveloped price (rawMedian riskFreeRate peers stock price (reading setting stock.fundamentals)) analysis.methods ↔
      Meeting price (rawMedian riskFreeRate peers stock price (reading setting stock.fundamentals)) := by
  obtain ⟨paid, bridge, found, bridged, -, methods, -⟩ := analyze_ok done
  cases priced.symm.trans found
  cases unbridged.symm.trans bridged
  rw [methods]
  exact enveloped_iff (positive_eq_some priced).2

end Analysis

section Sample

/-- A company of which only a low book value is known. -/
def bookOnly : Stock :=
  { software with
    fundamentals := { software.fundamentals with
      earningsGrowthAnnual := none, revenueGrowthAnnual := none, profitMargins := none, returnOnEquity := none, beta := none, forwardEps := none,
      trailingEps := none, bookValue := some 31.25 }
    recentGrades := [] }

theorem framework_envelope_software : ∃ analysis, analyze sampleSetting none (fun _ => ⟨none, none⟩) software {} = .ok analysis ∧
    Enveloped 100 (rawMedian none (fun _ => ⟨none, none⟩) software 100 (reading sampleSetting software.fundamentals)) analysis.methods := by
  have done : ∃ analysis, analyze sampleSetting none (fun _ => ⟨none, none⟩) software {} = .ok analysis := ⟨_, rfl⟩
  obtain ⟨analysis, done⟩ := done
  exact ⟨analysis, done, (framework_envelope done rfl (by decide +kernel)).mpr (by unfold Meeting; decide +kernel)⟩

/-- The middle of the methods is a quarter of the price, and all five are set at two fifths of it. -/
theorem book_leaves_envelope : ¬ ∀ (setting : Setting) (riskFreeRate : Option ℚ) (peers : Profile → PeerMedians) (stock : Stock)
    (published : Published) (analysis : Analysis) (price : ℚ), analyze setting riskFreeRate peers stock published = .ok analysis →
      foreignBridge stock.fundamentals.foreignListingPolicy = .ok none → positive stock.price = some price →
      Enveloped price (rawMedian riskFreeRate peers stock price (reading setting stock.fundamentals)) analysis.methods := by
  intro claim
  have done : ∃ analysis, analyze sampleSetting none (fun _ => ⟨none, none⟩) bookOnly {} = .ok analysis := ⟨_, rfl⟩
  obtain ⟨analysis, done⟩ := done
  have held := claim sampleSetting none (fun _ => ⟨none, none⟩) bookOnly {} analysis 100 done rfl (by decide +kernel)
  have crossed : ¬ Meeting 100 (rawMedian none (fun _ => ⟨none, none⟩) bookOnly 100 (reading sampleSetting bookOnly.fundamentals)) := by
    unfold Meeting
    decide +kernel
  exact crossed held.meets

end Sample

end C3po.Producers.Us
