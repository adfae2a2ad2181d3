import Mathlib.Data.Prod.Lex
import C3po.Library.Leaders
import C3po.Producers.Requotes

/-! The candidates of the Brazilian screener and its matrix: two surfaces of one generation. The matrix shows the
most traded class of an issuer, and the ranking returns the one with the most upside.
-/

set_option autoImplicit false

namespace C3po.Producers.B3
open C3po.Library

section Surfaces

/-- A served row with what the two surfaces read of it besides. -/
structure Offer extends Listed where
  adtv90d : Option ℚ
  dataSourceCount : ℤ
  sourceComparisonCount : ℤ
  sourceAgreementPercent : ℚ
  fundamentalsAsOf : Option Int
  deriving DecidableEq, Repr

def signedPercentile (values : List ℚ) (fraction fallback : ℚ) : ℚ :=
  let clean := sorted values
  if clean = [] then fallback
  else
    let position := ((clean.length : ℚ) - 1) * clamp fraction 0 1
    let lower := ⌊position⌋
    let upper := ⌈position⌉
    if lower = upper then clean.getD lower.toNat 0
    else
      let weight := position - lower
      clean.getD lower.toNat 0 * (1 - weight) + clean.getD upper.toNat 0 * weight

def riskCutoff (rows : List Offer) : ℚ := min 40 (signedPercentile (rows.map fun row => row.riskScore) 0.50 50)

inductive Quadrant where
  | highReturnHighRisk
  | highReturnLowRisk
  | lowReturnHighRisk
  | lowReturnLowRisk
  deriving DecidableEq, Repr

def quadrant (expectedReturn riskScore returnCutoff riskCutoff : ℚ) : Quadrant :=
  if returnCutoff ≤ expectedReturn then (if riskCutoff ≤ riskScore then .highReturnHighRisk else .highReturnLowRisk)
  else if riskCutoff ≤ riskScore then .lowReturnHighRisk
  else .lowReturnLowRisk

def Offer.isValued (row : Offer) : Bool := (positive row.official.ourTp).isSome && (positive row.official.buyIn).isSome

def Offer.isValidated (row : Offer) : Bool := row.official.tpValidationStatus = some (some "validated")

def provisionalReasons (today : Int) (row : Offer) : List String :=
  let age := fundamentalsAgeDays today row.fundamentalsAsOf
  let upside := (positive row.official.price).bind fun price => (positive row.official.ourTp).map fun target => (target / price - 1) * 100
  (if row.isValued then [] else ["Target price or buy-in is unavailable"]) ++
  (if row.validation.internalMethodCount < 3 then ["Fewer than three internal valuation methods"] else []) ++
  (if row.valuationConfidence < 55 then ["Provisional confidence below minimum"] else []) ++
  (if 60 < (truthy (some row.methodDispersionPercent)).getD 100 then ["Provisional valuation methods do not converge"] else []) ++
  (if row.dataSourceCount < 2 then ["A second fundamental source is unavailable"] else []) ++
  (if row.sourceComparisonCount < 2 then ["Too few cross-source comparisons"] else []) ++
  (if row.sourceAgreementPercent < 45 then ["Cross-source agreement is too low"] else []) ++
  (if age.all (270 < ·) then ["Fundamentals are missing or older than 270 days"] else []) ++
  (if upside.all (fun upside => ¬ (-60 ≤ upside ∧ upside ≤ 200)) then ["Target price is outside the plausibility range"] else [])

def eligible (today : Int) (rows : List Offer) : List Offer :=
  rows.filter fun row => row.isValued && (row.isValidated || provisionalReasons today row = [])

def Offer.traded (row : Offer) : ℚ := row.adtv90d.getD 0

/-- The order of the matrix: the validated rows first, and the most traded ones of them. -/
def Offer.standing (row : Offer) : Bool ×ₗ ℚ := toLex (row.isValidated, row.traded)

/-- The order of the ranking. -/
def Offer.pull (row : Offer) : ℚ ×ₗ ℚ := toLex (row.official.upsidePercent.getD 0, row.official.score.getD 0)

def Offer.owner (row : Offer) : String := row.issuer

structure MatrixItem where
  point : RawItem
  quadrant : Quadrant
  deriving DecidableEq, Repr

def buildMatrix (maths : RowMaths) (context : Macro) (today : Int) (quotes : String → Option ℚ) (served : List Offer) : List MatrixItem :=
  let rows := leaders Offer.owner Offer.standing (eligible today served)
  let items := rows.filterMap fun row => (rawItem maths quotes row.toListed).map fun point =>
    { point, quadrant := quadrant point.tpUpside point.riskScore (tpUpsideCutoffPercent context) (riskCutoff rows) : MatrixItem }
  falling (fun item => item.point.tpUpside) items

/-- The full matches in the ranking's own zone. -/
def powerZone (context : Macro) (rows : List Offer) : List Offer :=
  let valuedIssuers := leaders Offer.owner Offer.traded (rows.filter fun row => row.isValued && row.isValidated)
  (rows.filter fun row => row.official.status = some "full_match").filter fun row =>
    quadrant (row.official.upsidePercent.getD 0) row.riskScore (tpUpsideCutoffPercent context) (riskCutoff valuedIssuers) = .highReturnLowRisk

/-- The candidates, in their order. -/
def rank (context : Macro) (rows : List Offer) : List Offer :=
  (falling Offer.pull (leaders Offer.owner Offer.pull (powerZone context rows))).take 10

end Surfaces

section Agreement
variable {maths : RowMaths} {context : Macro} {today : Int} {quotes : String → Option ℚ} {rows : List Offer} {row : Offer}

theorem quadrant_eq_iff {expectedReturn riskScore returnCutoff riskCutoff : ℚ} :
    quadrant expectedReturn riskScore returnCutoff riskCutoff = .highReturnLowRisk ↔ returnCutoff ≤ expectedReturn ∧ riskScore < riskCutoff := by
  unfold quadrant
  split <;> split <;> simp_all

/-- What every served row shows: its price, its target and the upside between them. -/
def Shown (row : Listed) : Prop :=
  ∃ price tp, 0 < price ∧ row.official.price = some price ∧ row.official.ourTp = some tp ∧
    row.official.upsidePercent = some ((tp / price - 1) * 100)

/-- The two surfaces of a generation agree: every candidate is in the matrix's zone. The candidates are one of an issuer
each, the ten with the most upside, in its order. -/
structure Agree (maths : RowMaths) (context : Macro) (today : Int) (quotes : String → Option ℚ) (rows : List Offer) : Prop where
  plotted : ∀ row ∈ rank context rows, ∃ item ∈ buildMatrix maths context today quotes rows,
    item.point.symbol = row.official.symbol ∧ item.quadrant = .highReturnLowRisk
  issuers : ((rank context rows).map Offer.owner).Nodup
  top : ∀ row, row ∈ rank context rows ↔ Placed Offer.owner Offer.pull 10 (powerZone context rows) row
  order : (rank context rows).Pairwise fun first second => second.pull ≤ first.pull

theorem rank_eq : rank context rows = (leaders Offer.owner Offer.pull (powerZone context rows)).take 10 := by
  unfold rank
  rw [leaders_falling]

theorem rawItem_own (shown : Shown row.toListed)
    (quoted : ∀ quote, quotes row.official.symbol = some quote → row.official.price = some quote) :
    ∃ point, rawItem maths quotes row.toListed = some point ∧ point.symbol = row.official.symbol ∧ point.riskScore = row.riskScore ∧
      point.tpUpside = row.official.upsidePercent.getD 0 := by
  obtain ⟨price, tp, pos, priced, target, upside⟩ := shown
  have paid : positive ((quotes row.official.symbol).or row.official.price) = some price := by
    have same : (quotes row.official.symbol).or row.official.price = some price := by
      cases live : quotes row.official.symbol with
      | none => exact priced
      | some quote => exact (quoted quote live).symm.trans priced
    rw [same]
    exact Option.filter_eq_some_iff.mpr ⟨rfl, decide_eq_true pos⟩
  refine ⟨_, by rw [rawItem, paid, Option.map_some], rfl, rfl, ?_⟩
  rw [upside, target]
  rfl

/-- A candidate is in the matrix's zone just where it leads the eligible rows of its issuer and its risk is below
the cutoff of these leaders. -/
theorem plotted_iff (distinct : (rows.map fun row => row.official.symbol).Nodup) (shown : ∀ row ∈ rows, Shown row.toListed)
    (quoted : ∀ row ∈ rows, ∀ quote, quotes row.official.symbol = some quote → row.official.price = some quote)
    (candidate : row ∈ powerZone context rows) :
    (∃ item ∈ buildMatrix maths context today quotes rows, item.point.symbol = row.official.symbol ∧ item.quadrant = .highReturnLowRisk) ↔
      row ∈ leaders Offer.owner Offer.standing (eligible today rows) ∧
        row.riskScore < riskCutoff (leaders Offer.owner Offer.standing (eligible today rows)) := by
  have served : ∀ other ∈ leaders Offer.owner Offer.standing (eligible today rows), other ∈ rows := fun other here =>
    (List.mem_filter.mp (leaders_subset _ _ here)).1
  obtain ⟨full, zone⟩ := List.mem_filter.mp candidate
  have here : row ∈ rows := (List.mem_filter.mp full).1
  have enough := (quadrant_eq_iff.mp (of_decide_eq_true zone)).1
  unfold buildMatrix
  constructor
  · rintro ⟨item, member, symbol, low⟩
    obtain ⟨other, chosen, found⟩ := List.mem_filterMap.mp ((mem_falling _).mp member)
    obtain ⟨point, made, rfl⟩ := Option.map_eq_some_iff.mp found
    obtain ⟨point', made', named, risk, -⟩ := @rawItem_own maths _ _ (shown other (served other chosen)) (quoted other (served other chosen))
    cases made.symm.trans made'
    cases List.inj_on_of_nodup_map distinct (served other chosen) here (named.symm.trans symbol)
    exact ⟨chosen, risk ▸ (quadrant_eq_iff.mp low).2⟩
  · rintro ⟨chosen, low⟩
    obtain ⟨point, made, named, risk, upside⟩ := @rawItem_own maths _ _ (shown row here) (quoted row here)
    refine ⟨_, (mem_falling _).mpr (List.mem_filterMap.mpr ⟨row, chosen, by rw [made, Option.map_some]⟩), named, ?_⟩
    exact quadrant_eq_iff.mpr ⟨upside ▸ enough, risk ▸ low⟩

/-- The surfaces agree just where every row so placed in the ranking's zone leads the eligible rows of its issuer, the
validated and most traded first, with a risk below the cutoff of the leaders. -/
theorem surfaces_agree (distinct : (rows.map fun row => row.official.symbol).Nodup) (shown : ∀ row ∈ rows, Shown row.toListed)
    (quoted : ∀ row ∈ rows, ∀ quote, quotes row.official.symbol = some quote → row.official.price = some quote) :
    Agree maths context today quotes rows ↔
      ∀ row, Placed Offer.owner Offer.pull 10 (powerZone context rows) row →
        Leads Offer.owner Offer.standing (eligible today rows) row ∧
          row.riskScore < riskCutoff (leaders Offer.owner Offer.standing (eligible today rows)) := by
  have nodup : rows.Nodup := List.Nodup.of_map _ distinct
  have zone : (powerZone context rows).Nodup := (nodup.filter _).filter _
  have top : ∀ row, row ∈ rank context rows ↔ Placed Offer.owner Offer.pull 10 (powerZone context rows) row := fun row => by
    rw [rank_eq, mem_take_leaders _ _ zone]
  have candidates : ∀ row ∈ rank context rows, row ∈ powerZone context rows := fun row here => by
    rw [rank_eq] at here
    exact leaders_subset _ _ (List.mem_of_mem_take here)
  constructor
  · intro agree row placed
    have here := (top row).mpr placed
    have plotted := (plotted_iff distinct shown quoted (candidates row here)).mp (agree.plotted row here)
    exact ⟨(mem_leaders _ _ (nodup.filter _)).mp plotted.1, plotted.2⟩
  · intro led
    refine { plotted := ?_, issuers := ?_, top, order := ?_ }
    · intro row here
      obtain ⟨leads, low⟩ := led row ((top row).mp here)
      exact (plotted_iff distinct shown quoted (candidates row here)).mpr ⟨(mem_leaders _ _ (nodup.filter _)).mpr leads, low⟩
    · rw [rank_eq, List.map_take]
      exact (groups_nodup _ _).sublist (List.take_sublist _ _)
    · exact (falling_sorted _ _).sublist (List.take_sublist _ _)

end Agreement

section Sample

/-- A class of an issuer at a price of ten. -/
def offer (symbol issuer : String) (tp traded risk : ℚ) : Offer where
  official :=
    { symbol, price := some 10, ourTp := some tp, buyIn := some 9, internalTp := some tp, internalBuyIn := some 9, score := some 60
      status := some "full_match", expectedTotalReturnPercent := none, tpValidationStatus := some (some "validated"), internalScore := none
      internalStatus := none, internalExpectedTotalReturnPercent := none, internalTpValidationStatus := none
      upsidePercent := some ((tp / 10 - 1) * 100), priceVsBuyInPercent := none, publicConsensusTp := none, consensusWeightPercent := none
      valuationConfidence := some 80 }
  issuer
  methods := []
  internalUpsidePercent := none
  internalPriceVsBuyInPercent := none
  expectedDividend := none
  sustainableGrowth := none
  convergenceYears := none
  riskScore := risk
  operatingQuality := none
  valuationConfidence := 80
  methodDispersionPercent := 20
  validation := { status := "validated", score := 80, reasons := [], consensusGapPercent := none, valuationMethodCount := 4, internalMethodCount := 3 }
  internalValidation := none
  adtv90d := some traded
  dataSourceCount := 2
  sourceComparisonCount := 3
  sourceAgreementPercent := 90
  fundamentalsAsOf := some 0

theorem offer_shown (symbol issuer : String) (tp traded risk : ℚ) : Shown (offer symbol issuer tp traded risk).toListed :=
  ⟨10, tp, by norm_num, rfl, rfl, rfl⟩

theorem surfaces_agree_vale : Agree sampleMaths ⟨none, none⟩ 0 (fun _ => none) [offer "PETR4" "PETR" 14 50 20, offer "VALE3" "VALE" 11 60 38] := by
  refine (surfaces_agree (by decide) ?_ ?_).mpr ?_
  · intro row here
    obtain rfl | rfl := List.mem_pair.mp here <;> exact offer_shown _ _ _ _ _
  · intro row _ quote none
    cases none
  · intro row placed
    have zone : powerZone ⟨none, none⟩ [offer "PETR4" "PETR" 14 50 20, offer "VALE3" "VALE" 11 60 38] = [offer "PETR4" "PETR" 14 50 20] := by
      decide +kernel
    obtain ⟨first, last, split, -⟩ := placed
    have here : row ∈ powerZone ⟨none, none⟩ [offer "PETR4" "PETR" 14 50 20, offer "VALE3" "VALE" 11 60 38] :=
      (mem_falling Offer.pull).mp (split ▸ List.mem_append_right _ List.mem_cons_self)
    rw [zone] at here
    rw [List.mem_singleton.mp here]
    exact ⟨(mem_leaders _ _ (by decide +kernel)).mp (by decide +kernel), by decide +kernel⟩

/-- The class with the most upside is the candidate, and the matrix shows the one that is traded more. -/
theorem candidate_unplotted : ¬ ∀ (maths : RowMaths) (context : Macro) (today : Int) (quotes : String → Option ℚ) (rows : List Offer),
    (rows.map fun row => row.official.symbol).Nodup → (∀ row ∈ rows, Shown row.toListed) →
    (∀ row ∈ rows, ∀ quote, quotes row.official.symbol = some quote → row.official.price = some quote) →
      Agree maths context today quotes rows := by
  intro claim
  have agree := claim sampleMaths ⟨none, none⟩ 0 (fun _ => none) [offer "PETR3" "PETR" 14 5 20, offer "PETR4" "PETR" 13 50 30] (by decide) (by
    intro row here
    obtain rfl | rfl := List.mem_pair.mp here <;> exact offer_shown _ _ _ _ _) fun row _ quote none => by cases none
  have candidate : offer "PETR3" "PETR" 14 5 20 ∈ rank ⟨none, none⟩ [offer "PETR3" "PETR" 14 5 20, offer "PETR4" "PETR" 13 50 30] := by
    decide +kernel
  have plotted : ∀ item ∈ buildMatrix sampleMaths ⟨none, none⟩ 0 (fun _ => none) [offer "PETR3" "PETR" 14 5 20, offer "PETR4" "PETR" 13 50 30],
      item.point.symbol = "PETR4" := by decide +kernel
  obtain ⟨item, member, symbol, -⟩ := agree.plotted _ candidate
  exact absurd ((plotted item member).symm.trans symbol) (by decide)

end Sample

end C3po.Producers.B3
