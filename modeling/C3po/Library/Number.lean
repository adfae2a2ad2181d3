import Mathlib.Algebra.Order.Ring.Rat

/-! A floating-point number whose finite values are exact. -/

set_option autoImplicit false

namespace C3po.Library

inductive Number where
  | finite (value : ℚ)
  | infinite (negative : Bool)
  | nan
  deriving DecidableEq, Repr

namespace Number

def finite? : Number → Option ℚ
  | finite value => some value
  | infinite _ | nan => none

/-- A nan compares false with everything. -/
def negative : Number → Bool
  | finite value => value < 0
  | infinite below => below
  | nan => false

def dividedBy (number : Number) (divisor : ℚ) : Number :=
  match number with
  | finite value => finite (value / divisor)
  | infinite below => infinite below
  | nan => nan

end Number
end C3po.Library
