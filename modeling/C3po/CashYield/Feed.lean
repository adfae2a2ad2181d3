import Mathlib.Order.ConditionallyCompleteLattice.Basic
import Mathlib.Algebra.BigOperators.Group.Finset.Basic
import Mathlib.Data.Int.ConditionallyCompleteOrder
import Mathlib.Data.Int.Interval
import C3po.Library.Calendar
import C3po.Library.Number

/-! The factor that accrues interest on cash: a year's rate, a day of it at a time, each year divided
by its own days. Days are ordinals and rates are exact.
-/

set_option autoImplicit false

namespace C3po.CashYield
open C3po.Library Calendar

inductive Invalid where
  | interval
  | yearOutOfRange
  deriving DecidableEq, Repr

/-- 1 January of a year that a date can have. -/
def dateOfYear (year : Int) : Except Invalid Int := if 1 ≤ year ∧ year ≤ 9999 then .ok (newYear year) else .error .yearOutOfRange

def daysOfYear (year : Int) : ℚ := if leap year then 366 else 365

theorem cursor_lt {cursor stop next : Int} (inside : cursor < stop) (dated : dateOfYear (yearOf cursor + 1) = .ok next) :
    cursor < min stop next := by
  unfold dateOfYear at dated
  split at dated
  · cases dated
    exact lt_min inside (lt_newYear_succ cursor)
  · cases dated

/-- The interval from a cursor on, added to a factor year by year. -/
def accrue (annualRate : ℚ) (stop cursor : Int) (factor : ℚ) : Except Invalid ℚ :=
  if inside : cursor < stop then
    match dated : dateOfYear (yearOf cursor + 1) with
    | .error invalid => .error invalid
    | .ok nextYear =>
        let segmentEnd := min stop nextYear
        have := cursor_lt inside dated
        let days := segmentEnd - cursor
        accrue annualRate stop segmentEnd (factor + annualRate * days / daysOfYear (yearOf cursor))
  else .ok factor
termination_by (stop - cursor).toNat
decreasing_by omega

def couponEquivalentFactor (annualRate : ℚ) (start stop : Int) : Except Invalid ℚ :=
  if annualRate < 0 ∨ stop ≤ start then .error .interval else accrue annualRate stop start 0

def dayRate (annualRate : ℚ) (day : Int) : ℚ := annualRate / daysOfYear (yearOf day)

section Years

theorem newYear_mono {year other : Int} (le : year ≤ other) : newYear year ≤ newYear other := by
  unfold newYear
  omega

theorem yearOf_eq {day year : Int} (begun : newYear year ≤ day) (before : day < newYear (year + 1)) : yearOf day = year := by
  have own := newYear_yearOf_le day
  have next := lt_newYear_succ day
  apply le_antisymm
  · by_contra later
    have := newYear_mono (show year + 1 ≤ yearOf day by omega)
    omega
  · by_contra earlier
    have := newYear_mono (show yearOf day + 1 ≤ year by omega)
    omega

theorem sum_segment (annualRate : ℚ) {cursor segmentEnd : Int} (inside : cursor ≤ segmentEnd) (within : segmentEnd ≤ newYear (yearOf cursor + 1)) :
    ∑ day ∈ Finset.Ico cursor segmentEnd, dayRate annualRate day =
      annualRate * (segmentEnd - cursor : Int) / daysOfYear (yearOf cursor) := by
  have alike : ∀ day ∈ Finset.Ico cursor segmentEnd, dayRate annualRate day = annualRate / daysOfYear (yearOf cursor) := by
    intro day member
    obtain ⟨after, before⟩ := Finset.mem_Ico.mp member
    have same : yearOf day = yearOf cursor :=
      yearOf_eq ((newYear_yearOf_le cursor).trans after) (before.trans_le within)
    unfold dayRate
    rw [same]
  rw [Finset.sum_congr rfl alike, Finset.sum_const, Int.card_Ico, nsmul_eq_mul]
  have count : (((segmentEnd - cursor).toNat : ℕ) : ℚ) = ((segmentEnd - cursor : Int) : ℚ) := by
    rw [← Int.cast_natCast, Int.toNat_of_nonneg (by omega)]
  rw [count]
  ring

theorem sum_adjoin (annualRate : ℚ) {first middle last : Int} (early : first ≤ middle) (late : middle ≤ last) :
    ∑ day ∈ Finset.Ico first middle, dayRate annualRate day + ∑ day ∈ Finset.Ico middle last, dayRate annualRate day =
      ∑ day ∈ Finset.Ico first last, dayRate annualRate day := by
  rw [← Finset.sum_union (Finset.Ico_disjoint_Ico_consecutive first middle last), Finset.Ico_union_Ico_eq_Ico early late]

end Years

section Accrual
variable {annualRate : ℚ}

theorem dateOfYear_ok {year : Int} (begun : 1 ≤ year) (upTo : year ≤ 9999) : dateOfYear year = .ok (newYear year) := if_pos ⟨begun, upTo⟩

theorem accrue_ok {stop cursor : Int} (factor : ℚ) (dated : 1 ≤ cursor) (before : cursor ≤ stop) (last : stop ≤ newYear 9999) :
    accrue annualRate stop cursor factor = .ok (factor + ∑ day ∈ Finset.Ico cursor stop, dayRate annualRate day) := by
  induction steps : (stop - cursor).toNat using Nat.strong_induction_on generalizing cursor factor with
  | _ steps ih =>
    by_cases inside : cursor < stop
    · have begun := newYear_yearOf_le cursor
      have next := lt_newYear_succ cursor
      have first : 1 ≤ yearOf cursor + 1 := by
        by_contra none
        have := newYear_mono (show yearOf cursor + 1 ≤ 1 by omega)
        have : newYear 1 = 1 := by decide
        omega
      have upTo : yearOf cursor + 1 ≤ 9999 := by
        by_contra none
        have := newYear_mono (show 9999 ≤ yearOf cursor by omega)
        omega
      have moved : cursor < min stop (newYear (yearOf cursor + 1)) := lt_min inside next
      have rest := ih _ (by omega) (factor + annualRate * (min stop (newYear (yearOf cursor + 1)) - cursor : Int) / daysOfYear (yearOf cursor))
        (dated.trans moved.le) (min_le_left _ _) rfl
      rw [accrue, dif_pos inside]
      have known := dateOfYear_ok first upTo
      split
      · rename_i refused
        rw [known] at refused
        cases refused
      · rename_i nextYear found
        cases known.symm.trans found
        rw [rest, add_assoc, ← sum_segment annualRate moved.le (min_le_right _ _), sum_adjoin annualRate moved.le (min_le_left _ _)]
    · have ends : cursor = stop := le_antisymm before (not_lt.mp inside)
      rw [accrue, dif_neg inside, ends, Finset.Ico_self, Finset.sum_empty, add_zero]

theorem accrue_error {stop cursor : Int} (factor : ℚ) (before : cursor < stop) (late : newYear 9999 < stop) :
    ∃ invalid, accrue annualRate stop cursor factor = .error invalid := by
  induction steps : (stop - cursor).toNat using Nat.strong_induction_on generalizing cursor factor with
  | _ steps ih =>
    rw [accrue, dif_pos before]
    split
    · exact ⟨_, rfl⟩
    · rename_i nextYear found
      have moved := cursor_lt before found
      unfold dateOfYear at found
      split at found
      · rename_i range
        cases found
        have := newYear_mono range.2
        exact ih _ (by omega) _ (by omega) rfl
      · cases found

theorem couponEquivalentFactor_ok {start stop : Int} (nonneg : 0 ≤ annualRate) (dated : 1 ≤ start) (before : start < stop)
    (last : stop ≤ newYear 9999) :
    couponEquivalentFactor annualRate start stop = .ok (∑ day ∈ Finset.Ico start stop, dayRate annualRate day) := by
  unfold couponEquivalentFactor
  rw [if_neg (by rw [not_or, not_lt, not_le]; exact ⟨nonneg, before⟩), accrue_ok 0 dated before.le last, zero_add]

/-- The factor of an interval is the sum of those of its parts, and of what each of its days accrues. -/
def Additive (annualRate : ℚ) (first middle last : Int) : Prop :=
  ∃ early late, couponEquivalentFactor annualRate first middle = .ok early ∧ couponEquivalentFactor annualRate middle last = .ok late ∧
    couponEquivalentFactor annualRate first last = .ok (early + late) ∧
    early + late = ∑ day ∈ Finset.Ico first last, dayRate annualRate day

/-- The accrual is additive in time, over any number of years, exactly where it ends by 1 January 9999:
of a day after it, the year after its own is none that a date can have. -/
theorem factor_additive {first middle last : Int} (nonneg : 0 ≤ annualRate) (dated : 1 ≤ first) (early : first < middle) (late : middle < last) :
    Additive annualRate first middle last ↔ last ≤ newYear 9999 := by
  constructor
  · rintro ⟨before, after, -, -, whole, -⟩
    by_contra passed
    obtain ⟨invalid, refused⟩ := @accrue_error annualRate _ _ 0 (early.trans late) (not_le.mp passed)
    unfold couponEquivalentFactor at whole
    split at whole
    · cases whole
    · rw [refused] at whole
      cases whole
  · intro ends
    have adjoined := sum_adjoin annualRate early.le late.le
    refine ⟨_, _, couponEquivalentFactor_ok nonneg dated early (late.le.trans ends),
      couponEquivalentFactor_ok nonneg (dated.trans early.le) late ends, ?_, adjoined⟩
    rw [adjoined]
    exact couponEquivalentFactor_ok nonneg dated (early.trans late) ends

theorem factor_additive_leap : Additive (1 / 25) (ofCivil 2023 12 30) (ofCivil 2024 1 1) (ofCivil 2025 1 2) :=
  (factor_additive (by decide +kernel) (by decide) (by decide) (by decide)).mpr (by decide)

theorem factor_not_additive : ¬Additive (1 / 25) (ofCivil 9999 1 1) (ofCivil 9999 1 2) (ofCivil 9999 1 3) := by
  rintro ⟨before, after, first, -⟩
  have refused : couponEquivalentFactor (1 / 25) (ofCivil 9999 1 1) (ofCivil 9999 1 2) = .error .yearOutOfRange := by
    unfold couponEquivalentFactor
    rw [if_neg (by decide +kernel), accrue, dif_pos (by decide)]
    rfl
  rw [refused] at first
  cases first

end Accrual

/-! The Treasury's bill feed, and the rate it has for a day.

Instants are UTC microseconds from the midnight of ordinal 0, and a feed that is no XML
is none. What a text reads as a date or a number and what a record hashes to are of a
`Setting`.
-/

def dayMicros : Int := 86400000000

def dayOf (instant : Int) : Int := instant / dayMicros

/-- A day's observation is causal from the midnight that ends the day. -/
def availableAfterDay (day : Int) : Int := (day + 1) * dayMicros

/-- Days after which an observation not yet published is a stale feed. -/
def treasuryStaleAfter : Int := 4

/-- The children of an element by local name, their texts stripped, in document order. -/
abbrev Properties := List (String × String)

/-- The properties elements of a feed; none where it is no XML. -/
abbrev Feed := Option (List Properties)

/-- The constant fields of the package are left out. -/
structure RateBody where
  observationDate : Int
  annualRate : ℚ
  availableAt : Int
  fetchedAt : Int
  deriving DecidableEq, Repr

structure RatePackage extends RateBody where
  payloadSha256 : String
  deriving DecidableEq, Repr

/-- The ledger's entry; its random id and the constant fields are left out. -/
structure EntryBody where
  sessionDate : Int
  priorSessionDate : Int
  baseCashUsd : ℚ
  annualCouponEquivalentRate : ℚ
  calendarDays : Int
  dailyFactor : ℚ
  interestIncomeUsd : ℚ
  sourceAvailableAt : Int
  sourceFetchedAt : Int
  sourcePayloadSha256 : String
  backfilledAt : Option Int
  deriving DecidableEq, Repr

structure Entry extends EntryBody where
  entrySha256 : String
  deriving DecidableEq, Repr

structure Setting where
  fromisoformat : String → Option Int
  float : String → Option Number
  sealRate : RateBody → String
  sealEntry : EntryBody → String

inductive PendingReason where
  | priorSnapshotMissing
  | notYetPublished
  | notYetCausal
  | observationAbsent
  deriving DecidableEq, Repr

def PendingReason.text : PendingReason → String
  | .priorSnapshotMissing => "prior_final_session_snapshot_missing"
  | .notYetPublished => "treasury_observation_not_yet_published"
  | .notYetCausal => "treasury_observation_not_yet_causal"
  | .observationAbsent => "treasury_observation_absent_for_source_date"

inductive Fault where
  | invalidXml
  | rowLacksRate
  | negativeRate
  | noDatedRows
  | stale (observation : Int)
  | expectedOne (observation : Int) (found : ℕ)
  deriving DecidableEq, Repr

def expectedOneText (observation : Int) (found : ℕ) : String :=
  "Expected one Treasury observation for " ++ isoformat observation ++ ", found " ++ toString found

def Fault.text : Fault → String
  | invalidXml => "Treasury bill feed returned invalid XML"
  | rowLacksRate => "Treasury row lacks 13-week Coupon Equivalent"
  | negativeRate => "Treasury 13-week Coupon Equivalent is negative"
  | noDatedRows => "Treasury feed has no dated rows"
  | stale observation => "Treasury feed is stale: " ++ expectedOneText observation 0
  | expectedOne observation found => expectedOneText observation found

/-- Why a feed gives no rate; `unencodable` is the canonical JSON of a number that is not finite,
an error of neither kind that the run handles. -/
inductive Refusal where
  | pending (reason : PendingReason) (detail : String)
  | fault (fault : Fault)
  | unencodable
  deriving DecidableEq, Repr

section Parse
variable (setting : Setting)

/-- A later child of one name replaces an earlier one. -/
def Properties.get? (properties : Properties) (name : String) : Option String := properties.reverse.lookup name

def Properties.date (properties : Properties) : Option Int :=
  setting.fromisoformat (String.ofList (((properties.get? "INDEX_DATE").getD "").toList.take 10))

/-- What the rows of a feed come to for a day. -/
structure Scan where
  rates : List Number := []
  publishedLater : Bool := false
  datedRows : ℕ := 0
  deriving DecidableEq, Repr

/-- A row of another day is only dated; a row of the day must have its rate. -/
def scanRow (observation : Int) (scan : Scan) (properties : Properties) : Except Fault Scan :=
  match properties.date setting with
  | none => .ok scan
  | some rowDate =>
      let scan := { scan with datedRows := scan.datedRows + 1 }
      if rowDate ≠ observation then
        .ok { scan with publishedLater := scan.publishedLater || observation < rowDate }
      else
        match (properties.get? "ROUND_B1_YIELD_13WK_2").bind setting.float with
        | none => .error .rowLacksRate
        | some number =>
            let rate := number.dividedBy 100
            if rate.negative then .error .negativeRate else .ok { scan with rates := scan.rates ++ [rate] }

def scanFeed (observation : Int) (feed : Feed) : Except Fault Scan :=
  match feed with
  | none => .error .invalidXml
  | some rows => rows.foldlM (scanRow setting observation) {}

def parseTreasuryBillXml (feed : Feed) (observation fetchedAt : Int) : Except Refusal RatePackage :=
  match scanFeed setting observation feed with
  | .error fault => .error (.fault fault)
  | .ok scan =>
      let fetchedDay := dayOf fetchedAt
      let old := observation < fetchedDay - treasuryStaleAfter
      let detail := expectedOneText observation scan.rates.length
      if scan.datedRows = 0 ∧ ¬((civil observation).2.1 = 1 ∧ ¬old) then .error (.fault .noDatedRows)
      else match scan.rates with
        | [] =>
            if ¬scan.publishedLater ∧ old then .error (.fault (.stale observation))
            else if scan.publishedLater then .error (.pending .observationAbsent detail)
            else .error (.pending .notYetPublished detail)
        | [rate] =>
            if fetchedAt < availableAfterDay observation then
              .error (.pending .notYetCausal "Treasury observation is not yet causally available")
            else match rate.finite? with
              | none => .error .unencodable
              | some annualRate =>
                  let body : RateBody := ⟨observation, annualRate, availableAfterDay observation, fetchedAt⟩
                  .ok { toRateBody := body, payloadSha256 := setting.sealRate body }
        | rates => .error (.fault (.expectedOne observation rates.length))

end Parse
end C3po.CashYield
