import C3po.Producers.B3Rows
import C3po.Producers.Independence

/-! The served rows at other prices: what the refresh of the United States and the matrix of Brazil make
of a row, against what its producer would have made of the price.
-/

set_option autoImplicit false

namespace C3po.Producers
open C3po.Library

section Serving

/-- The generation that serves a row, and the cycle that its record is of. -/
structure Service where
  cycle : Official.Cycle
  market : Official.Market
  clocks : Int × Int × Option String
  session : Int
  generation : Official.Generation
  scope : Official.Scope

def Service.serve (service : Service) (source : Official.Source) (row : Official.Row) : Option Official.Row :=
  (Official.predictionFromRow service.cycle service.market service.clocks service.session source row).bind fun record =>
    (Official.servedRow row record service.generation service.cycle.id service.scope service.market).map Official.ServedRow.row

structure Shows (source : Official.Source) (row shown : Official.Row) (price tp buyIn : ℚ) : Prop where
  numbers : match source with
    | .blend => row.ourTp = some tp ∧ row.buyIn = some buyIn
    | .internal => row.internalTp = some tp ∧ row.internalBuyIn = some buyIn
  tpPos : 0 < tp
  buyInPos : 0 < buyIn
  symbol : shown.symbol = row.symbol
  priced : shown.price = some price
  target : shown.ourTp = some tp
  entry : shown.buyIn = some buyIn
  upside : shown.upsidePercent = some ((tp / price - 1) * 100)
  distance : shown.priceVsBuyInPercent = some ((price / buyIn - 1) * 100)
  score : shown.score = match source with
    | .blend => row.score
    | .internal => row.internalScore
  totalReturn : shown.expectedTotalReturnPercent = match source with
    | .blend => row.expectedTotalReturnPercent
    | .internal => row.internalExpectedTotalReturnPercent
  weight : shown.consensusWeightPercent = match source with
    | .blend => row.consensusWeightPercent
    | .internal => some 0

theorem positive_of_bind {first second : Option ℚ} {numbers : ℚ × ℚ}
    (found : (do pure (← Official.positive first, ← Official.positive second) : Option (ℚ × ℚ)) = some numbers) :
    first = some numbers.1 ∧ 0 < numbers.1 ∧ second = some numbers.2 ∧ 0 < numbers.2 := by
  obtain ⟨tp, tpFound, rest⟩ := Option.bind_eq_some_iff.mp found
  obtain ⟨buyIn, buyInFound, same⟩ := Option.bind_eq_some_iff.mp rest
  cases same
  obtain ⟨first, tpPos⟩ := Option.filter_eq_some_iff.mp tpFound
  obtain ⟨second, buyInPos⟩ := Option.filter_eq_some_iff.mp buyInFound
  exact ⟨first, of_decide_eq_true tpPos, second, of_decide_eq_true buyInPos⟩

variable {service : Service} {source : Official.Source} {row shown : Official.Row} {price : ℚ}

theorem Service.serve_shows (priced : row.price = some price) (pos : 0 < price) (served : service.serve source row = some shown) :
    ∃ tp buyIn, Shows source row shown price tp buyIn := by
  obtain ⟨record, made, shownFrom⟩ := Option.bind_eq_some_iff.mp served
  obtain ⟨servedRow, found, rfl⟩ := Option.map_eq_some_iff.mp shownFrom
  have paid : Official.positive (some price) = some price := Option.filter_eq_some_iff.mpr ⟨rfl, decide_eq_true pos⟩
  unfold Official.predictionFromRow at made
  split at made
  · cases made
  · obtain ⟨numbers, read, rfl⟩ := Option.map_eq_some_iff.mp made
    unfold Official.servedRow Official.Row.withPrice at found
    simp only [priced, paid] at found
    cases source with
    | blend =>
      obtain ⟨ourTp, tpPos, buyIn, buyInPos⟩ := positive_of_bind read
      refine ⟨numbers.1, numbers.2, ?_⟩
      cases weight : row.consensusWeightPercent <;>
        · simp only [weight, reduceCtorEq, if_false, Option.map_some, Option.some.injEq] at found
          subst found
          exact
            { numbers := ⟨ourTp, buyIn⟩, tpPos, buyInPos, symbol := rfl, priced := rfl, target := rfl, entry := rfl, upside := rfl, distance := rfl
              score := rfl, totalReturn := rfl, weight := weight.symm }
    | internal =>
      obtain ⟨internalTp, tpPos, internalBuyIn, buyInPos⟩ := positive_of_bind read
      obtain ⟨viewed, view, rfl⟩ := Option.map_eq_some_iff.mp found
      obtain ⟨view, seen, rfl⟩ := Option.map_eq_some_iff.mp view
      unfold Official.internalView at seen
      split at seen
      · rename_i score expected status readScore readExpected readStatus
        cases seen
        exact ⟨numbers.1, numbers.2,
          { numbers := ⟨internalTp, internalBuyIn⟩, tpPos, buyInPos, symbol := rfl, priced := rfl, target := rfl, entry := rfl, upside := rfl, distance := rfl
            score := readScore.symm, totalReturn := readExpected.symm, weight := rfl }⟩
      · cases seen

end Serving

namespace Us
variable {service : Service} {source : Official.Source} {input : RowInput} {row : Row}

def Serves (service : Service) (source : Official.Source) (input : RowInput) (row : Row) : Prop :=
  0 < input.price ∧ ∃ tpCutoff riskCutoff shown,
    service.serve source ((commonRow input).withStatus tpCutoff riskCutoff).official = some shown ∧
      row = { (commonRow input).withStatus tpCutoff riskCutoff with official := shown }

/-- The row that the producer computes at another price from the target and the entry price that are served. -/
def computedAt (input : RowInput) (row : Row) (price : ℚ) : Row :=
  commonRow { input with price, ourTp := row.official.ourTp.getD 0, buyIn := row.official.buyIn.getD 0 }

theorem dividend_zero_iff (value : Option ℚ) : (normalizedPercent value).getD 0 = 0 ↔ value.getD 0 = 0 := by
  cases value with
  | none => rfl
  | some parsed =>
    simp only [normalizedPercent, Option.map_some, Option.getD_some]
    split
    · exact mul_eq_zero_iff_right (by norm_num)
    · rfl

theorem refreshed_numbers_iff (serves : Serves service source input row) (quote : ℚ) :
    (row.refreshed quote).numbers = (computedAt input row quote).numbers ↔ input.dividendYield.getD 0 = 0 := by
  obtain ⟨-, tpCutoff, riskCutoff, shown, -, rfl⟩ := serves
  rw [← dividend_zero_iff]
  unfold Row.numbers Row.refreshed computedAt commonRow
  rw [Numbers.mk.injEq]
  exact ⟨fun same => left_eq_add.mp (Option.some.inj same.2.1), fun none => ⟨rfl, congrArg some (left_eq_add.mpr none), rfl, rfl⟩⟩

theorem served_numbers (serves : Serves service source input row) : row.numbers = (computedAt input row input.price).numbers := by
  obtain ⟨pos, tpCutoff, riskCutoff, shown, served, rfl⟩ := serves
  obtain ⟨tp, buyIn, shows⟩ := service.serve_shows rfl pos served
  unfold Row.numbers computedAt commonRow
  simp only [shows.upside, shows.distance, shows.score, shows.totalReturn, shows.target, shows.entry]
  cases source with
  | blend =>
    obtain ⟨target, entry⟩ := shows.numbers
    cases target
    cases entry
    rfl
  | internal =>
    obtain ⟨target, entry⟩ := shows.numbers
    cases target
    cases entry
    rfl

end Us

namespace B3
variable {maths : RowMaths} {factors : List (Option Profile × ℚ)} {context : Macro} {today : Int} {medians : Benchmark → Option Metrics}
  {listing : Listing} {service : Service} {source : Official.Source} {row : Listed}

/-- A row of the screener as it is served under a source. -/
def Serves (maths : RowMaths) (factors : List (Option Profile × ℚ)) (context : Macro) (today : Int) (medians : Benchmark → Option Metrics)
    (listing : Listing) (service : Service) (source : Official.Source) (row : Listed) : Prop :=
  0 < listing.price ∧ ∃ emitted shown, listRow maths factors context today listing medians = some emitted ∧
    service.serve source emitted.official = some shown ∧ row = { emitted with official := shown }

def Tail.numbers (tail : Tail) : Numbers where
  upsidePercent := some tail.upside
  expectedTotalReturnPercent := some tail.totalReturn
  priceVsBuyInPercent := some tail.distance
  score := some tail.score

def RawItem.numbers (item : RawItem) : Numbers where
  upsidePercent := some item.tpUpside
  expectedTotalReturnPercent := some item.expectedReturn
  priceVsBuyInPercent := some item.priceVsBuyIn
  score := some item.powerScore

def weightUnder (source : Official.Source) (valued : Valued) : ℚ :=
  match source with
  | .blend => valued.consensusWeight * 100
  | .internal => 0

/-- The numbers that the producer computes at another price from the target and the entry price that are served. -/
def computedAt (maths : RowMaths) (listing : Listing) (valued : Valued) (source : Official.Source) (row : Listed) (price : ℚ) : Numbers :=
  (tail maths (tailInput maths listing valued) price (row.official.ourTp.getD 0) (row.official.buyIn.getD 0) (weightUnder source valued)).numbers

theorem Serves.valued (serves : Serves maths factors context today medians listing service source row) :
    ∃ valued tp buyIn shown, valueRow maths.toMaths factors context medians listing.toRow = some valued ∧
      row = { listed maths context today listing valued with official := shown } ∧
      Shows source (listed maths context today listing valued).official shown listing.price tp buyIn := by
  obtain ⟨pos, emitted, shown, made, served, rfl⟩ := serves
  obtain ⟨sector, -, rfl⟩ := Option.map_eq_some_iff.mp made
  cases found : valueRow maths.toMaths factors context medians listing.toRow with
  | none =>
    rw [found] at served
    obtain ⟨tp, buyIn, shows⟩ := service.serve_shows rfl pos served
    have numbers := shows.numbers
    cases source with
    | blend => exact nomatch numbers.2
    | internal => exact nomatch numbers.1
  | some valued =>
    rw [found] at served
    obtain ⟨tp, buyIn, shows⟩ := service.serve_shows rfl pos served
    exact ⟨valued, tp, buyIn, shown, rfl, rfl, shows⟩

theorem rawItem_numbers (serves : Serves maths factors context today medians listing service source row) :
    ∃ valued, valueRow maths.toMaths factors context medians listing.toRow = some valued ∧
      row.numbers = computedAt maths listing valued source row listing.price ∧
      ∀ quotes quote, 0 < quote → quotes row.official.symbol = some quote → ∃ item, rawItem maths quotes row = some item ∧ item.price = quote ∧
        item.numbers = computedAt maths listing valued source row quote := by
  obtain ⟨valued, tp, buyIn, shown, found, rfl, shows⟩ := serves.valued
  refine ⟨valued, found, ?_, ?_⟩
  · unfold Listed.numbers computedAt Tail.numbers tail
    simp only [shows.upside, shows.distance, shows.score, shows.totalReturn, shows.target, shows.entry, Option.getD_some, shows.buyInPos, if_true]
    cases source with
    | blend =>
      obtain ⟨target, entry⟩ := shows.numbers
      cases target
      cases entry
      simp only [listed, tail, shows.buyInPos, if_true, weightUnder]
    | internal =>
      obtain ⟨target, entry⟩ := shows.numbers
      cases target
      cases entry
      simp only [listed, tail, shows.buyInPos, if_true, weightUnder]
  · intro quotes quote pos quoted
    have paid : positive ((quotes shown.symbol).or shown.price) = some quote := by
      rw [quoted, Option.some_or]
      exact Option.filter_eq_some_iff.mpr ⟨rfl, decide_eq_true pos⟩
    refine ⟨_, by rw [rawItem, paid, Option.map_some], rfl, ?_⟩
    unfold RawItem.numbers computedAt Tail.numbers tail
    simp only [shows.target, shows.entry, Option.getD_some, shows.buyInPos, if_true, shows.weight]
    cases source with
    | blend => rfl
    | internal => rfl

end B3

/-- The matrix of Brazil shows what the producer computes at a quote; the refresh of the United States
does so just where the row has no dividend yield. -/
theorem requote_agrees (service : Service) (source : Official.Source) :
    (∀ entries : List (Us.RowInput × Us.Row),
      (∀ entry ∈ entries, Us.Serves service source entry.1 entry.2) → ∀ quotes : String → Option ℚ,
      List.Forall₂ (fun entry refreshed => ∀ quote, 0 < quote → quotes entry.2.official.symbol = some quote →
          (refreshed.numbers = (Us.computedAt entry.1 entry.2 quote).numbers ↔ entry.1.dividendYield.getD 0 = 0) ∧
          (quote = entry.1.price → (refreshed.numbers = entry.2.numbers ↔ entry.1.dividendYield.getD 0 = 0)))
        entries (Us.refreshQuotes quotes (entries.map Prod.snd))) ∧
    (∀ (maths : B3.RowMaths) (factors : List (Option B3.Profile × ℚ)) (context : B3.Macro) (today : Int) (medians : B3.Benchmark → Option B3.Metrics)
      (listing : B3.Listing) (row : B3.Listed),
      B3.Serves maths factors context today medians listing service source row →
      ∃ valued, B3.valueRow maths.toMaths factors context medians listing.toRow = some valued ∧
        ∀ quotes quote, 0 < quote → quotes row.official.symbol = some quote → ∃ item, B3.rawItem maths quotes row = some item ∧ item.price = quote ∧
          item.numbers = B3.computedAt maths listing valued source row quote ∧ (quote = listing.price → item.numbers = row.numbers)) := by
  refine ⟨?_, ?_⟩
  · intro entries serves quotes
    unfold Us.refreshQuotes
    rw [List.forall₂_map_right_iff, List.forall₂_map_right_iff, List.forall₂_same]
    intro entry mem quote _ quoted
    rw [quoted]
    have agrees := Us.refreshed_numbers_iff (serves entry mem) quote
    refine ⟨agrees, ?_⟩
    rintro rfl
    rw [Us.served_numbers (serves entry mem)]
    exact agrees
  · intro maths factors context today medians listing row serves
    obtain ⟨valued, found, own, shown⟩ := B3.rawItem_numbers serves
    refine ⟨valued, found, fun quotes quote pos quoted => ?_⟩
    obtain ⟨item, made, price, numbers⟩ := shown quotes quote pos quoted
    refine ⟨item, made, price, numbers, ?_⟩
    rintro rfl
    exact numbers.trans own.symm

section Sample

def sampleService : Service where
  cycle :=
    { id := 1, analysisType := .universe, entityKey := "NYSE_UNIVERSE", publishedAt := 0, rerunOf := none, declaredInstant := none
      methodologyVersion := some "V1", methodologyVersionId := "", universeSize := some 1, rows := [], row := none }
  market := .nyse
  clocks := (0, 0, none)
  session := 0
  generation :=
    { id := 1, source := .blend, sourceVersion := "V1", cycles := fun _ => 1, targeted := .empty, sessionDates := fun _ => some 0, activatedAt := 0
      previous := none, receipt := {} }
  scope := .universe

/-- A stock at a hundred dollars with a dividend yield. -/
def payer (dividendYield : Option ℚ) : Us.RowInput where
  symbol := "KO"
  price := 100
  securityType := .stock
  dividendYield
  returnOnEquity := some (2 / 5)
  profitMargins := some (1 / 5)
  qualityScore := 70
  ourTp := 130
  internalTp := 125
  buyIn := 110
  internalBuyIn := 105
  consensus := some 140
  consensusWeightPercent := 30
  risk := 30
  confidence := 80
  dispersion := 10
  validated := true

theorem payer_served (dividendYield : Option ℚ) : ∃ row, Us.Serves sampleService .blend (payer dividendYield) row := by
  have served : (sampleService.serve .blend ((Us.commonRow (payer dividendYield)).withStatus 10 40).official).isSome = true := by
    have named : ¬ Prices.normalise "KO" = "" := by decide
    have tp : Official.positive (some 130) = some 130 := by decide +kernel
    have buyIn : Official.positive (some 110) = some 110 := by decide +kernel
    simp [Service.serve, Official.predictionFromRow, Us.commonRow, Us.Row.withStatus, payer, named, Official.rowNumbers, tp, buyIn, Official.servedRow]
  obtain ⟨shown, served⟩ := Option.isSome_iff_exists.mp served
  exact ⟨_, by norm_num [payer], 10, 40, shown, served, rfl⟩

/-- At its own price a row with a dividend of two per cent expects two points less. -/
theorem dividend_lost : ¬ ∀ (service : Service) (source : Official.Source) (input : Us.RowInput) (row : Us.Row), Us.Serves service source input row →
    ∀ quote, 0 < quote → (row.refreshed quote).numbers = (Us.computedAt input row quote).numbers := by
  intro claim
  obtain ⟨row, serves⟩ := payer_served (some (1 / 50))
  have none := (Us.refreshed_numbers_iff serves 100).mp (claim _ _ _ row serves 100 (by norm_num))
  exact absurd none (by decide +kernel)

def bankListing : B3.Listing :=
  { bankRow ⟨none, none, none⟩ with
    adtv90d := some 100000000, insiderNetSignal := none, pendingDisclosureRisk := none, dataSourceCount := 2, sourceComparisonCount := 4
    fundamentalsAsOf := some 0 }

/-- The root that an exponent of one over a whole number takes, by forty halvings of an interval around it. -/
def decimalPower (base exponent : ℚ) : ℚ :=
  let degree := ⌊1 / exponent⌋.toNat
  ((List.range 40).foldl (fun (interval : ℚ × ℚ) _ =>
    let middle := (interval.1 + interval.2) / 2
    if middle ^ degree ≤ base then (middle, interval.2) else (interval.1, middle)) (0, max base 1)).1

def sampleMaths : B3.RowMaths := { sqrt := decimalSqrt, log10 := fun value => ((Nat.toDigits 10 ⌊value⌋.toNat).length : ℚ) - 1, power := decimalPower }

def bankMedians : B3.Benchmark → Option B3.Metrics := B3.sectorMedians [bank]

theorem bank_served : ∃ row, B3.Serves sampleMaths [] ⟨none, none⟩ 0 bankMedians bankListing sampleService .internal row := by
  have served : ((B3.listRow sampleMaths [] ⟨none, none⟩ 0 bankListing bankMedians).bind fun emitted =>
      sampleService.serve .internal emitted.official).isSome = true := by decide +kernel
  obtain ⟨shown, served⟩ := Option.isSome_iff_exists.mp served
  obtain ⟨emitted, made, served⟩ := Option.bind_eq_some_iff.mp served
  exact ⟨_, by norm_num [bankListing, bankRow, bank], emitted, shown, made, served, rfl⟩

theorem requote_agrees_sample : ∃ (row : Us.Row) (listed : B3.Listed),
    (row.refreshed 100).numbers = row.numbers ∧
    ∃ item, B3.rawItem sampleMaths (fun _ => some 30) listed = some item ∧ item.numbers = listed.numbers := by
  obtain ⟨row, serves⟩ := payer_served none
  obtain ⟨listed, listing⟩ := bank_served
  refine ⟨row, listed, ?_, ?_⟩
  · have refreshed := (requote_agrees sampleService .blend).1 [(payer none, row)] (by simpa using serves) (fun _ => some 100)
    cases refreshed with
    | cons here => exact ((here 100 (by norm_num) rfl).2 rfl).mpr rfl
  · obtain ⟨valued, -, shown⟩ := (requote_agrees sampleService .internal).2 sampleMaths [] ⟨none, none⟩ 0 bankMedians bankListing listed listing
    obtain ⟨item, made, -, -, own⟩ := shown (fun _ => some 30) 30 (by norm_num) rfl
    exact ⟨item, made, own rfl⟩

end Sample

end C3po.Producers
