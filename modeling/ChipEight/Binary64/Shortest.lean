import ChipEight.Binary64

/-!
# Shortest decimal text

A binary number is shown by the fewest decimal digits that round back to it, and of several
such digit strings by the one nearest to it. For each count of digits there are only two
candidates, the decimal numbers next to the binary one from below and from above: if any
decimal number of that many digits rounds back, one of these two does. So the first count at
which one of them does is the least.

Digits are written out while the point falls at most three zeros before the first digit and
at most sixteen digits after it. Beyond that one digit stands before the point, and a power
of ten with a sign and two digits or more follows. A number written out has a digit on both
sides of its point.
-/

namespace ChipEight.Binary64

/-- The count of digits before the decimal point; below one it is the number of zeros behind
the point, negated. The number must not be zero. -/
def decimalPoint (x : Binary64) : Int :=
  ((Nat.toDigits 10 (x.numerator * Nat.pow 10 330 / x.denominator)).length : Int) - 330

/-- The multiples of `10 ^ power` next to the magnitude, below and above, as multiples. The
nearer one comes first, and of two equally near ones the even one. -/
def neighbours (x : Binary64) (power : Int) : List Nat :=
  let n := x.numerator * Nat.pow 10 (-power).toNat
  let d := x.denominator * Nat.pow 10 power.toNat
  let below := n / d
  if nearest n d = below then [below, below + 1] else [below + 1, below]

/-- The decimal number rounds to `x`. -/
def readsBack (x : Binary64) (digits : Nat) (power : Int) : Bool :=
  ofDecimal? x.negative digits power = some x

/-- The digits, as an integer, and the power of ten they are scaled by. Seventeen digits are
always enough; the exact value stands in for a search that finds nothing. -/
def shortest (x : Binary64) : Nat × Int :=
  let found := (List.range 17).findSome? fun k =>
    let power := x.decimalPoint - (k + 1 : Nat)
    ((x.neighbours power).find? (x.readsBack · power)).map (·, power)
  found.getD (x.numerator * Nat.pow 5 (-x.exponent).toNat, min 0 x.exponent)

/-- The digits without the zeros at their end. -/
def dropTrailingZeros (digits : List Char) : List Char :=
  (digits.reverse.dropWhile (· = '0')).reverse

/-- The digits `ds` with the point after the first `point` of them, where a point before
the first digit or after the last is reached over zeros. One digit at least stands on
each side. -/
def positional (ds : List Char) (point : Int) : List Char :=
  if point ≤ 0 then
    '0' :: '.' :: List.replicate point.natAbs '0' ++ ds
  else
    let whole := ds.take point.toNat
    let fraction := ds.drop point.toNat
    whole ++ List.replicate (point.toNat - whole.length) '0' ++
      '.' :: (if fraction.isEmpty then ['0'] else fraction)

/-- The digits `ds` with a point after the first and a power of ten of two digits or more. -/
def scientific (ds : List Char) (power : Int) : List Char :=
  let fraction := ds.drop 1
  let sign := if power < 0 then '-' else '+'
  let exponent := Nat.toDigits 10 power.natAbs
  ds.take 1 ++ (if fraction.isEmpty then [] else '.' :: fraction) ++
    'e' :: sign :: List.replicate (2 - exponent.length) '0' ++ exponent

/-- The magnitude in decimal. -/
def magnitudeText (x : Binary64) : List Char :=
  if x.isZero then ['0', '.', '0']
  else
    let (digits, power) := x.shortest
    let all := Nat.toDigits 10 digits
    let point : Int := all.length + power
    let ds := dropTrailingZeros all
    if -4 < point ∧ point ≤ 16 then positional ds point else scientific ds (point - 1)

/-- The number in decimal. -/
def text (x : Binary64) : String :=
  String.ofList (if x.negative then '-' :: x.magnitudeText else x.magnitudeText)

example : one.text = "1.0" := by decide +kernel

example : (ofDecimal? false 1 (-2)).map text = some "0.01" := by decide +kernel

example : (ofDecimal? true 1 16).map text = some "-1e+16" := by decide +kernel

end ChipEight.Binary64
