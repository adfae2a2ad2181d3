import Mathlib.Tactic.Linarith
import Mathlib.Tactic.Ring
import C3po.Library.StableSort

/-! One symbol's regular session on the stream: the tape of its trades.

The tape keeps the VWAP accumulators, the opening print, the last trade, and the
close and VWAP of the last completed minute. Prices, sizes and epoch seconds are
exact rationals; a minute counts from midnight in New York.
-/

set_option autoImplicit false

namespace C3po.Live
open C3po.Library

structure Tape where
  pv : ℚ := 0
  volume : ℚ := 0
  opening : Option ℚ := none
  openingAt : Option ℚ := none
  lastPrice : Option ℚ := none
  lastAt : Option ℚ := none
  minute : Int := -1
  closedMinute : Int := -1
  closedPrice : Option ℚ := none
  closedAt : Option ℚ := none
  closedPv : ℚ := 0
  closedVolume : ℚ := 0
  deriving DecidableEq, Repr

/-- One regular-session trade as the stream hands it to the tape. -/
structure Trade where
  price : ℚ
  size : ℚ
  minute : Int
  stamp : ℚ
  deriving DecidableEq, Repr

namespace Tape

def vwap (tape : Tape) : Option ℚ :=
  if 0 < tape.volume then some (tape.pv / tape.volume) else none

def closedVwap (tape : Tape) : Option ℚ :=
  if 0 < tape.closedVolume then some (tape.closedPv / tape.closedVolume) else none

/-- The earliest print opens, not the first to arrive. -/
def openWith (tape : Tape) (price stamp : ℚ) : Tape :=
  match tape.opening, tape.openingAt with
  | none, _ => { tape with opening := some price, openingAt := some stamp }
  | some _, some earliest =>
      if stamp < earliest then { tape with opening := some price, openingAt := some stamp } else tape
  | some _, none => tape

def late (tape : Tape) (stamp : ℚ) : Bool :=
  match tape.lastAt with
  | none => false
  | some last => stamp < last

/-- The minute in course becomes the completed one. -/
def close (tape : Tape) : Tape :=
  { tape with
    closedMinute := tape.minute, closedPrice := tape.lastPrice, closedAt := tape.lastAt
    closedPv := tape.pv, closedVolume := tape.volume }

def advance (tape : Tape) (price : ℚ) (minute : Int) (stamp : ℚ) : Tape :=
  { tape with minute := max tape.minute minute, lastPrice := some price, lastAt := some stamp }

/-- The first trade of a new minute closes the previous one. -/
def inOrder (tape : Tape) (price : ℚ) (minute : Int) (stamp : ℚ) : Tape :=
  (if 0 ≤ tape.minute ∧ tape.minute < minute then tape.close else tape).advance price minute stamp

/-- Pairs compare by the minute first; a missing closing instant is before every instant. -/
def closesAfter (tape : Tape) (minute : Int) (stamp : ℚ) : Bool :=
  tape.closedMinute < minute ||
    (tape.closedMinute = minute && tape.closedAt.all fun closed => closed ≤ stamp)

def countClosed (tape : Tape) (price size : ℚ) : Tape :=
  if 0 < size then
    { tape with closedPv := tape.closedPv + price * size, closedVolume := tape.closedVolume + size }
  else tape

def closeLate (tape : Tape) (price : ℚ) (minute : Int) (stamp : ℚ) : Tape :=
  if tape.closesAfter minute stamp then
    { tape with closedMinute := minute, closedPrice := some price, closedAt := some stamp }
  else tape

def lateCompleted (tape : Tape) (price size : ℚ) (minute : Int) (stamp : ℚ) : Tape :=
  (tape.countClosed price size).closeLate price minute stamp

def count (tape : Tape) (price size : ℚ) : Tape :=
  if 0 < size then { tape with pv := tape.pv + price * size, volume := tape.volume + size } else tape

/-- Everything a trade does after the opening print. -/
def move (tape : Tape) (price size : ℚ) (minute : Int) (stamp : ℚ) : Tape :=
  let moved :=
    if ¬ tape.late stamp then tape.inOrder price minute stamp
    else if minute < tape.minute then tape.lateCompleted price size minute stamp
    else tape
  moved.count price size

def add (tape : Tape) (price size : ℚ) (minute : Int) (stamp : ℚ) : Tape :=
  (tape.openWith price stamp).move price size minute stamp

def record (tape : Tape) (trade : Trade) : Tape :=
  tape.add trade.price trade.size trade.minute trade.stamp

end Tape

/-! The tape of a regular session does not depend on the order its trades arrive in.

Two trades out of stamp order may be exchanged: the late branch patches the
completed minute to what it would hold had the earlier trade come first. The
exchange holds on every tape whose last trade is one of the session's, and a fold
that exchanges is the fold over the stable sort by stamp.
-/

/-- Trades in regular hours, with a minute that never falls as the stamp grows. -/
structure RegularSession (trades : List Trade) : Prop where
  regular : ∀ trade ∈ trades, 0 ≤ trade.minute
  monotone : ∀ first ∈ trades, ∀ second ∈ trades,
    first.stamp ≤ second.stamp → first.minute ≤ second.minute

def Placed (trades : List Trade) (stamp : ℚ) (minute : Int) : Prop :=
  ∃ trade ∈ trades, trade.stamp = stamp ∧ trade.minute = minute

section
variable {trades : List Trade} {stamp : ℚ} {minute : Int} {trade : Trade}

theorem Placed.below (placed : Placed trades stamp minute) (session : RegularSession trades)
    (member : trade ∈ trades) (before : trade.stamp ≤ stamp) : trade.minute ≤ minute := by
  obtain ⟨other, otherIn, rfl, rfl⟩ := placed
  exact session.monotone trade member other otherIn before

theorem Placed.above (placed : Placed trades stamp minute) (session : RegularSession trades)
    (member : trade ∈ trades) (after : stamp ≤ trade.stamp) : minute ≤ trade.minute := by
  obtain ⟨other, otherIn, rfl, rfl⟩ := placed
  exact session.monotone other otherIn trade member after

end

namespace Tape

section
variable (tape : Tape) (price size other otherSize : ℚ) (minute otherMinute : Int) (stamp otherStamp : ℚ)

theorem openWith_swap (opened : tape.opening = none ↔ tape.openingAt = none)
    {stamp otherStamp : ℚ} (order : stamp < otherStamp) :
    (tape.openWith other otherStamp).openWith price stamp =
      (tape.openWith price stamp).openWith other otherStamp := by
  rcases tape with ⟨pv, volume, opening, openingAt, _, _, _, _, _, _, _, _⟩
  rcases opening with _ | opening <;> rcases openingAt with _ | openingAt <;> simp at opened
  · simp [openWith, order, order.le]
  · by_cases early : stamp < openingAt
    · by_cases late : otherStamp < openingAt <;> simp [openWith, early, late, order, order.le]
    · have late : ¬ otherStamp < openingAt := by linarith
      simp [openWith, early, late]

theorem openWith_eq : tape.openWith price stamp = { tape with
    opening := (tape.openWith price stamp).opening
    openingAt := (tape.openWith price stamp).openingAt } := by
  unfold openWith
  split
  · rfl
  · split <;> rfl
  · rfl

theorem move_opening (opening openingAt : Option ℚ) :
    ({ tape with opening := opening, openingAt := openingAt } : Tape).move price size minute stamp =
      { tape.move price size minute stamp with opening := opening, openingAt := openingAt } := by
  unfold move inOrder lateCompleted closeLate countClosed count late closesAfter
  simp only
  split_ifs <;> rfl

theorem count_swap : (tape.count price size).count other otherSize =
    (tape.count other otherSize).count price size := by
  unfold count
  split <;> split <;> simp [add_right_comm]

theorem countClosed_swap : (tape.countClosed price size).countClosed other otherSize =
    (tape.countClosed other otherSize).countClosed price size := by
  unfold countClosed
  split <;> split <;> simp [add_right_comm]

theorem count_advance : (tape.count other otherSize).advance price minute stamp =
    (tape.advance price minute stamp).count other otherSize := by
  unfold count; split <;> rfl

theorem count_countClosed : (tape.count other otherSize).countClosed price size =
    (tape.countClosed price size).count other otherSize := by
  unfold count countClosed; split <;> split <;> rfl

theorem count_closeLate : (tape.count other otherSize).closeLate price minute stamp =
    (tape.closeLate price minute stamp).count other otherSize := by
  unfold count closeLate closesAfter; split <;> split <;> rfl

theorem closeLate_countClosed :
    (tape.closeLate price minute stamp).countClosed other otherSize =
      (tape.countClosed other otherSize).closeLate price minute stamp := by
  unfold closeLate countClosed closesAfter; split <;> split <;> rfl

theorem advance_countClosed : (tape.advance price minute stamp).countClosed other otherSize =
    (tape.countClosed other otherSize).advance price minute stamp := by
  unfold countClosed; split <;> rfl

theorem advance_closeLate : (tape.advance price minute stamp).closeLate other otherMinute otherStamp =
    (tape.closeLate other otherMinute otherStamp).advance price minute stamp := by
  unfold closeLate closesAfter advance; split <;> rfl

theorem lateCompleted_close :
    (tape.lateCompleted price size minute stamp).close = tape.close := by
  unfold lateCompleted closeLate countClosed; split_ifs <;> rfl

theorem count_close : (tape.count price size).close =
    (tape.close.countClosed price size).count price size := by
  unfold count countClosed; split <;> rfl

theorem closesAfter_mono {minute otherMinute : Int} {stamp otherStamp : ℚ} (order : stamp < otherStamp)
    (minutes : minute ≤ otherMinute) (after : tape.closesAfter minute stamp = true) :
    tape.closesAfter otherMinute otherStamp = true := by
  simp only [closesAfter, Bool.or_eq_true, Bool.and_eq_true, decide_eq_true_eq] at after ⊢
  rcases after with earlier | ⟨same, placed⟩
  · exact Or.inl (by omega)
  · rcases minutes.lt_or_eq with less | equal
    · exact Or.inl (by omega)
    · refine Or.inr ⟨by omega, ?_⟩
      cases closedAt : tape.closedAt with
      | none => rfl
      | some closed =>
        have bound : closed ≤ stamp := by simpa [closedAt] using placed
        simpa using bound.trans order.le

theorem closeLate_swap {minute otherMinute : Int} {stamp otherStamp : ℚ} (order : stamp < otherStamp)
    (minutes : minute ≤ otherMinute) :
    (tape.closeLate other otherMinute otherStamp).closeLate price minute stamp =
      (tape.closeLate price minute stamp).closeLate other otherMinute otherStamp := by
  by_cases second : tape.closesAfter otherMinute otherStamp = true
  · have notFirst : ¬ otherMinute < minute := by omega
    have notBefore : ¬ otherStamp ≤ stamp := not_le.mpr order
    have reopened : minute < otherMinute ∨ minute = otherMinute := by omega
    by_cases first : tape.closesAfter minute stamp = true
    · simp [closeLate, first, second]
      simp [closesAfter, notFirst, notBefore, order.le, reopened]
    · simp [closeLate, first, second]
      simp [closesAfter, notFirst, notBefore]
  · have first : ¬ tape.closesAfter minute stamp = true :=
      fun after => second (closesAfter_mono tape order minutes after)
    simp [closeLate, first, second]

theorem closeLate_kept (kept : tape.closesAfter minute stamp = false) :
    tape.closeLate price minute stamp = tape := by
  simp [closeLate, kept]

theorem closeLate_taken (taken : tape.closesAfter minute stamp = true) :
    tape.closeLate price minute stamp =
      { tape with closedMinute := minute, closedPrice := some price, closedAt := some stamp } := by
  simp [closeLate, taken]

@[simp] theorem closesAfter_countClosed :
    (tape.countClosed price size).closesAfter minute stamp = tape.closesAfter minute stamp := by
  unfold countClosed; split <;> rfl

@[simp] theorem closesAfter_advance :
    (tape.advance price otherMinute otherStamp).closesAfter minute stamp =
      tape.closesAfter minute stamp := rfl

theorem closesAfter_close {last : ℚ} (known : tape.lastAt = some last) :
    tape.close.closesAfter minute stamp =
      (decide (tape.minute < minute) || (decide (tape.minute = minute) && decide (last ≤ stamp))) := by
  simp [closesAfter, close, known]

@[simp] theorem late_count : (tape.count price size).late stamp = tape.late stamp := by
  unfold count; split <;> rfl

@[simp] theorem minute_count : (tape.count price size).minute = tape.minute := by
  unfold count; split <;> rfl

@[simp] theorem late_lateCompleted :
    (tape.lateCompleted price size minute stamp).late otherStamp = tape.late otherStamp := by
  unfold lateCompleted closeLate countClosed; split_ifs <;> rfl

@[simp] theorem minute_lateCompleted :
    (tape.lateCompleted price size minute stamp).minute = tape.minute := by
  unfold lateCompleted closeLate countClosed; split_ifs <;> rfl

@[simp] theorem late_advance :
    (tape.advance price minute stamp).late otherStamp = decide (otherStamp < stamp) := rfl

@[simp] theorem minute_advance : (tape.advance price minute stamp).minute = max tape.minute minute := rfl

@[simp] theorem minute_close : tape.close.minute = tape.minute := rfl

theorem move_completed (isLate : tape.late stamp = true) (completed : minute < tape.minute) :
    tape.move price size minute stamp =
      (tape.lateCompleted price size minute stamp).count price size := by
  simp [move, isLate, completed]

theorem move_current (isLate : tape.late stamp = true) (current : ¬ minute < tape.minute) :
    tape.move price size minute stamp = tape.count price size := by
  simp [move, isLate, current]

theorem move_new (onTime : tape.late stamp = false) (started : 0 ≤ tape.minute)
    (new : tape.minute < minute) :
    tape.move price size minute stamp =
      (tape.close.advance price minute stamp).count price size := by
  simp [move, inOrder, onTime, started, new]

theorem move_same (onTime : tape.late stamp = false)
    (same : ¬(0 ≤ tape.minute ∧ tape.minute < minute)) :
    tape.move price size minute stamp = (tape.advance price minute stamp).count price size := by
  simp only [move, inOrder, onTime, same]
  rfl

end

/-- A trade's move, and the two ways it patches the tape. -/
def moveTrade (tape : Tape) (trade : Trade) : Tape :=
  tape.move trade.price trade.size trade.minute trade.stamp

variable {trades : List Trade} {tape : Tape} {early late : Trade}

theorem move_swap_late (order : early.stamp < late.stamp) (minutes : early.minute ≤ late.minute)
    (isLate : tape.late late.stamp = true) (earlyLate : tape.late early.stamp = true) :
    (tape.moveTrade late).moveTrade early = (tape.moveTrade early).moveTrade late := by
  unfold moveTrade
  by_cases lateDone : late.minute < tape.minute
  · have earlyDone : early.minute < tape.minute := by omega
    rw [tape.move_completed _ _ _ _ isLate lateDone, tape.move_completed _ _ _ _ earlyLate earlyDone,
      move_completed _ _ _ _ _ (by simpa using earlyLate) (by simpa using earlyDone),
      move_completed _ _ _ _ _ (by simpa using isLate) (by simpa using lateDone)]
    simp only [lateCompleted, count_countClosed, count_closeLate, closeLate_countClosed]
    rw [countClosed_swap, closeLate_swap _ _ _ order minutes, count_swap]
  · rw [tape.move_current _ _ _ _ isLate lateDone]
    by_cases earlyDone : early.minute < tape.minute
    · rw [tape.move_completed _ _ _ _ earlyLate earlyDone,
        move_completed _ _ _ _ _ (by simpa using earlyLate) (by simpa using earlyDone),
        move_current _ _ _ _ _ (by simpa using isLate) (by simpa using lateDone)]
      simp only [lateCompleted, count_countClosed, count_closeLate]
      rw [count_swap]
    · rw [tape.move_current _ _ _ _ earlyLate earlyDone,
        move_current _ _ _ _ _ (by simpa using earlyLate) (by simpa using earlyDone),
        move_current _ _ _ _ _ (by simpa using isLate) (by simpa using lateDone), count_swap]

theorem move_swap_between (order : early.stamp < late.stamp)
    (onTime : tape.late late.stamp = false) (earlyLate : tape.late early.stamp = true)
    (started : 0 ≤ tape.minute) (below : early.minute ≤ tape.minute)
    (above : tape.minute ≤ late.minute) {last : ℚ} (known : tape.lastAt = some last)
    (before : early.stamp < last) :
    (tape.moveTrade late).moveTrade early = (tape.moveTrade early).moveTrade late := by
  unfold moveTrade
  by_cases new : tape.minute < late.minute
  · have kept : tape.close.closesAfter early.minute early.stamp = false := by
      simp [tape.closesAfter_close _ _ known, below, before]
    rw [tape.move_new _ _ _ _ onTime started new,
      move_completed _ _ _ _ _ (by simpa using order) (by simp; omega)]
    simp only [lateCompleted, count_countClosed, count_closeLate]
    rw [closeLate_kept _ _ _ _ (by simpa using kept)]
    by_cases earlyDone : early.minute < tape.minute
    · rw [tape.move_completed _ _ _ _ earlyLate earlyDone,
        move_new _ _ _ _ _ (by simpa using onTime) (by simpa using started) (by simpa using new),
        count_close, lateCompleted_close, count_advance, advance_countClosed, count_swap]
    · rw [tape.move_current _ _ _ _ earlyLate earlyDone,
        move_new _ _ _ _ _ (by simpa using onTime) (by simpa using started) (by simpa using new),
        count_close, count_advance, advance_countClosed, count_swap]
  · have notNew : ¬(0 ≤ tape.minute ∧ tape.minute < late.minute) := fun h => new h.2
    rw [tape.move_same _ _ _ _ onTime notNew]
    by_cases earlyDone : early.minute < tape.minute
    · rw [tape.move_completed _ _ _ _ earlyLate earlyDone,
        move_completed _ _ _ _ _ (by simpa using order) (by simp; omega),
        move_same _ _ _ _ _ (by simpa using onTime) (by simpa using notNew)]
      simp only [lateCompleted, count_countClosed, count_closeLate, count_advance,
        advance_countClosed, advance_closeLate]
      rw [count_swap]
    · rw [tape.move_current _ _ _ _ earlyLate earlyDone,
        move_current _ _ _ _ _ (by simpa using order) (by simp; omega),
        move_same _ _ _ _ _ (by simpa using onTime) (by simpa using notNew), count_advance, count_swap]

theorem move_swap_onTime (order : early.stamp < late.stamp) (minutes : early.minute ≤ late.minute)
    (started : 0 ≤ tape.minute) (above : tape.minute ≤ early.minute) {last : ℚ}
    (known : tape.lastAt = some last) (after : last ≤ early.stamp) :
    (tape.moveTrade late).moveTrade early = (tape.moveTrade early).moveTrade late := by
  have onTime : tape.late late.stamp = false := by simp [Tape.late, known, after.trans order.le]
  have earlyOnTime : tape.late early.stamp = false := by simp [Tape.late, known, after]
  unfold moveTrade
  by_cases apart : early.minute < late.minute
  · have taken : tape.close.closesAfter early.minute early.stamp = true := by
      simp [tape.closesAfter_close _ _ known, after, above.lt_or_eq]
    rw [tape.move_new _ _ _ _ onTime started (by omega),
      move_completed _ _ _ _ _ (by simpa using order) (by simp; omega)]
    simp only [lateCompleted, count_countClosed, count_closeLate]
    rw [closeLate_taken _ _ _ _ (by simpa using taken)]
    by_cases new : tape.minute < early.minute
    · rw [tape.move_new _ _ _ _ earlyOnTime started new,
        move_new _ _ _ _ _ (by simpa using order.le) (by simp; omega) (by simp; omega)]
      unfold count countClosed close advance
      split_ifs <;> simp [add_right_comm] <;> omega
    · rw [tape.move_same _ _ _ _ earlyOnTime (by tauto),
        move_new _ _ _ _ _ (by simpa using order.le) (by simp; omega) (by simp; omega)]
      unfold count countClosed close advance
      split_ifs <;> simp [add_right_comm] <;> omega
  · have same : early.minute = late.minute := by omega
    by_cases new : tape.minute < early.minute
    · rw [tape.move_new _ _ _ _ onTime started (by omega), tape.move_new _ _ _ _ earlyOnTime started new,
        move_current _ _ _ _ _ (by simpa using order) (by simp; omega),
        move_same _ _ _ _ _ (by simpa using order.le) (by simp; omega), count_advance, count_swap]
      simp [advance, same]
    · rw [tape.move_same _ _ _ _ onTime (by omega), tape.move_same _ _ _ _ earlyOnTime (by tauto),
        move_current _ _ _ _ _ (by simpa using order) (by simp; omega),
        move_same _ _ _ _ _ (by simpa using order.le) (by simp; omega), count_advance, count_swap]
      simp [advance, same]

theorem move_swap_fresh (order : early.stamp < late.stamp) (minutes : early.minute ≤ late.minute)
    (regular : 0 ≤ early.minute) (fresh : tape.lastAt = none) (unstarted : tape.minute = -1)
    (unclosed : tape.closedMinute = -1) (samePv : tape.closedPv = tape.pv)
    (sameVolume : tape.closedVolume = tape.volume) :
    (tape.moveTrade late).moveTrade early = (tape.moveTrade early).moveTrade late := by
  have onTime : tape.late late.stamp = false := by simp [Tape.late, fresh]
  have earlyOnTime : tape.late early.stamp = false := by simp [Tape.late, fresh]
  unfold moveTrade
  rw [tape.move_same _ _ _ _ onTime (by omega), tape.move_same _ _ _ _ earlyOnTime (by omega)]
  by_cases apart : early.minute < late.minute
  · have taken : tape.closesAfter early.minute early.stamp = true := by
      simp [closesAfter, unclosed]; omega
    rw [move_completed _ _ _ _ _ (by simpa using order) (by simp; omega),
      move_new _ _ _ _ _ (by simpa using order.le) (by simp; omega) (by simp; omega)]
    simp only [lateCompleted, count_countClosed, count_closeLate]
    rw [closeLate_taken _ _ _ _ (by simpa using taken)]
    unfold count countClosed close advance
    split_ifs <;> simp [add_right_comm, samePv, sameVolume] <;> omega
  · have same : early.minute = late.minute := by omega
    rw [move_current _ _ _ _ _ (by simpa using order) (by simp; omega),
      move_same _ _ _ _ _ (by simpa using order.le) (by simp; omega), count_advance, count_swap]
    simp [advance, same]

end Tape

/-- What every tape of a session satisfies: its last trade is one of the session's,
and before any trade the accumulators of the completed minute are the running ones. -/
structure Tape.Consistent (trades : List Trade) (tape : Tape) : Prop where
  opened : tape.opening = none ↔ tape.openingAt = none
  fresh : tape.lastAt = none → tape.minute = -1 ∧ tape.closedMinute = -1 ∧
    tape.closedPv = tape.pv ∧ tape.closedVolume = tape.volume
  last : ∀ stamp, tape.lastAt = some stamp → Placed trades stamp tape.minute

variable {trades : List Trade}

theorem Tape.moveTrade_swap (session : RegularSession trades) {tape : Tape}
    (consistent : tape.Consistent trades) {early late : Trade} (earlyIn : early ∈ trades)
    (lateIn : late ∈ trades) (order : early.stamp < late.stamp) :
    (tape.moveTrade late).moveTrade early = (tape.moveTrade early).moveTrade late := by
  have minutes := session.monotone early earlyIn late lateIn order.le
  cases known : tape.lastAt with
  | none =>
    obtain ⟨unstarted, unclosed, samePv, sameVolume⟩ := consistent.fresh known
    exact move_swap_fresh order minutes (session.regular early earlyIn) known unstarted unclosed
      samePv sameVolume
  | some last =>
    have placed := consistent.last last known
    have started : 0 ≤ tape.minute := by
      obtain ⟨other, otherIn, _, minute⟩ := placed
      exact minute ▸ session.regular other otherIn
    rcases lt_or_ge late.stamp last with lateBefore | lateAfter
    · exact move_swap_late order minutes (by simp [Tape.late, known, lateBefore])
        (by simp [Tape.late, known, order.trans lateBefore])
    · rcases lt_or_ge early.stamp last with earlyBefore | earlyAfter
      · exact move_swap_between order (by simp [Tape.late, known, lateAfter])
          (by simp [Tape.late, known, earlyBefore]) started
          (placed.below session earlyIn earlyBefore.le) (placed.above session lateIn lateAfter) known
          earlyBefore
      · exact move_swap_onTime order minutes started (placed.above session earlyIn earlyAfter) known
          earlyAfter

namespace Tape

variable {tape : Tape} {trade : Trade}

theorem openWith_opened (opened : tape.opening = none ↔ tape.openingAt = none) (price stamp : ℚ) :
    (tape.openWith price stamp).opening = none ↔ (tape.openWith price stamp).openingAt = none := by
  unfold openWith
  split
  · simp
  · split <;> simp_all
  · simpa using opened

theorem moveTrade_lastAt (tape : Tape) (trade : Trade) :
    (tape.moveTrade trade).lastAt =
      if tape.late trade.stamp then tape.lastAt else some trade.stamp := by
  unfold moveTrade move inOrder lateCompleted closeLate countClosed count advance close
  split_ifs <;> simp_all

theorem moveTrade_minute (tape : Tape) (trade : Trade) :
    (tape.moveTrade trade).minute =
      if tape.late trade.stamp then tape.minute else max tape.minute trade.minute := by
  unfold moveTrade move inOrder lateCompleted closeLate countClosed count advance close
  split_ifs <;> simp_all

@[simp] theorem moveTrade_opening (tape : Tape) (trade : Trade) :
    (tape.moveTrade trade).opening = tape.opening := by
  unfold moveTrade move inOrder lateCompleted closeLate countClosed count advance close
  split_ifs <;> rfl

@[simp] theorem moveTrade_openingAt (tape : Tape) (trade : Trade) :
    (tape.moveTrade trade).openingAt = tape.openingAt := by
  unfold moveTrade move inOrder lateCompleted closeLate countClosed count advance close
  split_ifs <;> rfl

theorem openWith_moveTrade (tape : Tape) (trade : Trade) (price stamp : ℚ) :
    (tape.moveTrade trade).openWith price stamp = (tape.openWith price stamp).moveTrade trade := by
  have moved : ∀ opening openingAt : Option ℚ,
      ({ tape with opening := opening, openingAt := openingAt } : Tape).moveTrade trade =
        { tape.moveTrade trade with opening := opening, openingAt := openingAt } :=
    fun opening openingAt => tape.move_opening _ _ _ _ opening openingAt
  unfold openWith
  rw [moveTrade_opening, moveTrade_openingAt]
  split
  · exact (moved _ _).symm
  · split
    · exact (moved _ _).symm
    · rfl
  · rfl

theorem record_eq (tape : Tape) (trade : Trade) :
    tape.record trade = (tape.openWith trade.price trade.stamp).moveTrade trade := rfl

@[simp] theorem openWith_minute (tape : Tape) (price stamp : ℚ) :
    (tape.openWith price stamp).minute = tape.minute := by
  rw [openWith_eq]

theorem Consistent.openWith (consistent : tape.Consistent trades) (price stamp : ℚ) :
    (tape.openWith price stamp).Consistent trades where
  opened := openWith_opened consistent.opened price stamp
  fresh := by
    rw [openWith_eq]
    exact consistent.fresh
  last := by
    rw [openWith_eq]
    exact consistent.last

theorem Consistent.moveTrade (session : RegularSession trades) (consistent : tape.Consistent trades)
    (member : trade ∈ trades) : (tape.moveTrade trade).Consistent trades where
  opened := by simpa using consistent.opened
  fresh := by
    rw [moveTrade_lastAt]
    intro unmoved
    exact absurd unmoved (by cases known : tape.lastAt <;> simp [Tape.late, known]; split <;> simp)
  last := by
    rw [moveTrade_lastAt, moveTrade_minute]
    intro stamp known
    cases before : tape.lastAt with
    | none =>
      have started : max tape.minute trade.minute = trade.minute := by
        have := (consistent.fresh before).1
        have := session.regular trade member
        omega
      simp only [Tape.late, before] at known ⊢
      exact ⟨trade, member, by simpa using known, by simpa using started.symm⟩
    | some last =>
      have placed := consistent.last last before
      by_cases isLate : tape.late trade.stamp = true
      · simp only [isLate, if_true, before] at known ⊢
        exact Option.some.inj known ▸ placed
      · have after : last ≤ trade.stamp := by simpa [Tape.late, before] using isLate
        have above := placed.above session member after
        simp only [isLate] at known ⊢
        exact ⟨trade, member, by simpa using known, by simp [above]⟩

theorem Consistent.record (session : RegularSession trades) (consistent : tape.Consistent trades)
    (member : trade ∈ trades) : (tape.record trade).Consistent trades :=
  (consistent.openWith trade.price trade.stamp).moveTrade session member

theorem Consistent.empty : ({} : Tape).Consistent trades where
  opened := by simp
  fresh := fun _ => ⟨rfl, rfl, rfl, rfl⟩
  last := fun _ known => nomatch known

theorem record_swap (session : RegularSession trades) (consistent : tape.Consistent trades)
    {early late : Trade} (earlyIn : early ∈ trades) (lateIn : late ∈ trades)
    (order : early.stamp < late.stamp) :
    (tape.record late).record early = (tape.record early).record late := by
  have opened : ((tape.openWith early.price early.stamp).openWith late.price late.stamp).Consistent
      trades := (consistent.openWith _ _).openWith _ _
  simp only [record_eq]
  rw [openWith_moveTrade, openWith_moveTrade, openWith_swap tape _ _ consistent.opened order]
  exact moveTrade_swap session opened earlyIn lateIn order

/-- Whatever order the trades arrive in, the tape is the one they build in stamp order. -/
theorem arrival_order (trades : List Trade) (session : RegularSession trades) :
    trades.foldl record {} = (stableSort Trade.stamp trades).foldl record {} :=
  (foldl_stableSort Trade.stamp record (Consistent trades) (· ∈ trades)
    (fun _ _ consistent member => consistent.record session member)
    (fun _ _ _ consistent earlyIn lateIn order => record_swap session consistent earlyIn lateIn order)
    trades (fun _ member => member) {} Consistent.empty).symm

/-- Three minutes, one of them skipped, the second trade arriving last. -/
theorem arrival_order_late :
    let trades := [⟨10, 2, 571, 100⟩, ⟨12, 1, 573, 220⟩, ⟨11, 3, 571, 110⟩]
    trades.foldl record {} = (stableSort Trade.stamp trades).foldl record {} :=
  arrival_order _ ⟨by simp, by simp; norm_num⟩

end Tape
end C3po.Live
