/-!
# Binary numbers of fifty-three bits

Rates, delays and patience are numbers of fifty-three significant bits and a limited
exponent. Such a number is kept as the integer its bits make and the power of two they are
scaled by, in one normal form: the integer has exactly fifty-three bits unless the exponent
is the least one. So two numbers of one sign are equal exactly if they are equal as records.

Everything else is rounded into this form from an exact quotient of natural numbers, to the
nearest number, ties to the one whose last bit is zero. A quotient that rounds beyond the
greatest exponent has no such number. A zero keeps its sign.
-/

namespace ChipEight

/-- The number `significand * 2 ^ exponent` with a sign. -/
structure Binary64 where
  /-- Whether the sign is a minus. -/
  negative : Bool := false
  /-- The significant bits as an integer. -/
  significand : Nat
  /-- The power of two they are scaled by. -/
  exponent : Int
deriving DecidableEq, Repr

namespace Binary64

/-- The least exponent. -/
def minExponent : Int := -1074

/-- The greatest exponent. -/
def maxExponent : Int := 971

/-- Zero with a sign. -/
def zero (negative : Bool) : Binary64 := { negative, significand := 0, exponent := minExponent }

instance : Inhabited Binary64 := ⟨zero false⟩

/-- One. -/
def one : Binary64 := { significand := 0x10000000000000, exponent := -52 }

/-- The integer nearest to `n / d`, the even one of two that are equally near. -/
def nearest (n d : Nat) : Nat :=
  let q := n / d
  let r := n % d
  if 2 * r < d then q
  else if d < 2 * r then q + 1
  else q + q % 2

/-- The power of two by which `n / d` is divided to have fifty-three bits before the point,
or the least exponent. The bit lengths of `n` and `d` give it up to one; comparing decides
which. -/
def scale (n d : Nat) : Int :=
  let e := (n.log2 : Int) - d.log2 - 53
  max minExponent (if n <<< (-e).toNat < (d <<< e.toNat) <<< 53 then e else e + 1)

/-- The number nearest to `n / d`, which has no other sign than the given one. Rounding up
may give one bit more; then the bits are all zero but the first. -/
def ofRatio? (negative : Bool) (n d : Nat) : Option Binary64 :=
  if n = 0 then some (zero negative)
  else
    let e := scale n d
    let m := nearest (n <<< (-e).toNat) (d <<< e.toNat)
    let x : Binary64 :=
      if m = 0x20000000000000 then { negative, significand := 0x10000000000000, exponent := e + 1 }
      else { negative, significand := m, exponent := e }
    if x.exponent ≤ maxExponent then some x else none

/-- The number nearest to the quotient of an integer by a natural number. -/
def ofQuotient? (n : Int) (d : Nat) : Option Binary64 := ofRatio? (n < 0) n.natAbs d

/-- The number nearest to `digits * 10 ^ power`. Numbers far outside the range of the format
are told by the count of their digits. -/
def ofDecimal? (negative : Bool) (digits : Nat) (power : Int) : Option Binary64 :=
  if digits = 0 then some (zero negative)
  else
    let magnitude : Int := (Nat.toDigits 10 digits).length + power
    if 310 < magnitude then none
    else if magnitude < -330 then some (zero negative)
    else ofRatio? negative (digits * Nat.pow 10 power.toNat) (Nat.pow 10 (-power).toNat)

/-- The magnitude as a fraction: its numerator. -/
def numerator (x : Binary64) : Nat := x.significand <<< x.exponent.toNat

/-- The magnitude as a fraction: its denominator. -/
def denominator (x : Binary64) : Nat := 1 <<< (-x.exponent).toNat

/-- An integer with the sign of the number. -/
def signed (x : Binary64) (n : Nat) : Int := if x.negative then -(n : Int) else n

/-- The number cut towards zero. -/
def truncate (x : Binary64) : Int := x.signed (x.numerator / x.denominator)

/-- The integer the number is equal to, if it is one that fits in sixty-four bits. Either
limit of sixty-four bits is itself left out. -/
def toInt? (x : Binary64) : Option Int :=
  if x.numerator % x.denominator = 0 ∧ x.numerator / x.denominator < 0x8000000000000000 then
    some x.truncate
  else none

/-- The number is zero, of either sign. -/
def isZero (x : Binary64) : Bool := x.significand = 0

/-- The number is greater than zero. -/
def isPositive (x : Binary64) : Bool := !x.negative && !x.isZero

/-- The number is at least zero; so is a zero with a minus. -/
def isNonnegative (x : Binary64) : Bool := !x.negative || x.isZero

/-- The number is at most `n`. -/
def atMost (x : Binary64) (n : Nat) : Bool := x.negative || x.numerator ≤ n * x.denominator

@[simp] theorem ofRatio?_zero (negative : Bool) (d : Nat) :
    ofRatio? negative 0 d = some (zero negative) := rfl

example : ofDecimal? false 1 0 = some one := by decide +kernel

example : ofDecimal? false 5 (-324) = some { significand := 1, exponent := minExponent } := by
  decide +kernel

end Binary64

end ChipEight
