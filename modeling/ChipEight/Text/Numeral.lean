import ChipEight.Number

/-!
# Numerals

Hosts may give a number as text. The readers here say which texts are numerals.

An integer is read in steps, each of which a text must survive. The blanks around it and a
plus sign before a digit are dropped. Then the zeros it begins with, behind a minus sign if
there is one, are dropped together with underscores among them; the minus sign may also come
only after the zeros. A point followed by one zero or more is dropped, and so are underscores
that stand alone inside what is left. What remains must be a decimal integer in its normal
form, of a limited length.

A binary number is read from digits with a point and a power of ten, after the blanks around
it have been dropped, or else after its underscores have. The two cannot be mixed.
-/

namespace ChipEight.Numeral

/-- The white space of the Unicode character database. -/
def isBlank (c : Char) : Bool :=
  let n := c.toNat
  (9 ≤ n && n ≤ 13) || n = 0x20 || n = 0x85 || n = 0xA0 || n = 0x1680 ||
    (0x2000 ≤ n && n ≤ 0x200A) || n = 0x2028 || n = 0x2029 || n = 0x202F || n = 0x205F ||
    n = 0x3000

/-- The characters without the blanks around them. -/
def trimmed (cs : List Char) : List Char :=
  ((cs.dropWhile isBlank).reverse.dropWhile isBlank).reverse

/-- The number that a list of digits spells. -/
def natOfDigits (ds : List Char) : Nat :=
  ds.foldl (fun n c => 10 * n + (c.toNat - '0'.toNat)) 0

/-- Two underscores stand side by side. -/
def hasDoubleUnderscore : List Char → Bool
  | '_' :: '_' :: _ => true
  | _ :: rest => hasDoubleUnderscore rest
  | [] => false

/-- The characters without their underscores, none of which may stand at either end or
beside another. -/
def withoutUnderscores? (cs : List Char) : Option (List Char) :=
  if cs.head? = some '_' ∨ cs.getLast? = some '_' ∨ hasDoubleUnderscore cs then none
  else some (cs.filter (· ≠ '_'))

/-! ## Integers -/

/-- Drops a plus sign that stands before a digit. -/
def dropPlus : List Char → List Char
  | '+' :: c :: rest => if c.isDigit then c :: rest else '+' :: c :: rest
  | cs => cs

/-- What follows a zero: further zeros and underscores are dropped, up to where the number
proper begins. If a point or the end comes first, the last character dropped is put back. -/
def afterZero? (last : Char) : List Char → Option (List Char)
  | [] => some [last]
  | c :: rest =>
    if c = '0' ∨ c = '_' then afterZero? c rest
    else if c = '.' then some (last :: c :: rest)
    else if c = '-' ∨ c.isDigit then some (c :: rest)
    else none

/-- Drops the zeros at the front. Nothing but a digit or a minus sign may begin a numeral. -/
def dropZeros? : List Char → Option (List Char)
  | [] => none
  | c :: rest =>
    if c = '0' then afterZero? c rest
    else if c = '-' ∨ c.isDigit then some (c :: rest)
    else none

/-- Drops the zeros at the front or behind a minus sign at the front. -/
def dropSignedZeros? : List Char → Option (List Char)
  | '-' :: rest => (dropZeros? rest).map ('-' :: ·)
  | cs => dropZeros? cs

/-- Drops a point with the zeros behind it, of which there must be one at least. -/
def dropZeroFraction (cs : List Char) : List Char :=
  let fraction := (cs.dropWhile (· ≠ '.')).drop 1
  if !fraction.isEmpty && fraction.all (· = '0') then cs.takeWhile (· ≠ '.') else cs

/-- The greatest count of digits of an integer given as text. -/
def maxDigits : Nat := 4300

/-- A natural number in normal form: zero, or digits of which the first is not zero. -/
def plainNat? (ds : List Char) : Option Nat :=
  if ds = ['0'] then some 0
  else if ds.head?.any (· ≠ '0') && ds.all Char.isDigit && ds.length ≤ maxDigits then
    some (natOfDigits ds)
  else none

/-- An integer in normal form; zero may have a minus sign. -/
def plainInt? : List Char → Option Int
  | '-' :: ds => (plainNat? ds).map fun n => -(n : Int)
  | ds => (plainNat? ds).map fun n => (n : Int)

/-- The integer that a text spells. -/
def intOfText? (text : String) : Option Int := do
  let cs ← dropSignedZeros? (dropPlus (trimmed text.toList))
  plainInt? (← withoutUnderscores? (dropZeroFraction cs))

/-! ## Binary numbers -/

/-- Splits a sign off the front; `true` stands for a minus. -/
def splitSign : List Char → Bool × List Char
  | '-' :: rest => (true, rest)
  | '+' :: rest => (false, rest)
  | cs => (false, cs)

/-- The power of ten that follows a number, mark included; no text means power zero. -/
def powerOfChars? : List Char → Option Int
  | [] => some 0
  | _ :: rest =>
    let (down, ds) := splitSign rest
    if ds.isEmpty || !ds.all Char.isDigit then none
    else if down then some (-(natOfDigits ds : Int)) else some (natOfDigits ds)

/-- The mark before a power of ten. -/
def isPowerMark (c : Char) : Bool := c = 'e' || c = 'E'

/-- A decimal number: `digits * 10 ^ power` with a sign. -/
structure Decimal where
  /-- Whether the sign is a minus. -/
  negative : Bool
  /-- The digits as an integer. -/
  digits : Nat
  /-- The power of ten they are scaled by. -/
  power : Int

/-- The decimal number that the characters spell: a sign, digits with a point before, among
or after them, and a power of ten. -/
def decimalOfChars? (cs : List Char) : Option Decimal := do
  let (negative, body) := splitSign cs
  let digits := body.takeWhile (!isPowerMark ·)
  let power ← powerOfChars? (body.dropWhile (!isPowerMark ·))
  let whole := digits.takeWhile (· ≠ '.')
  let fraction := (digits.dropWhile (· ≠ '.')).drop 1
  guard (!(whole ++ fraction).isEmpty && (whole ++ fraction).all Char.isDigit)
  return {
    negative
    digits := natOfDigits (whole ++ fraction)
    power := power - fraction.length }

/-- The binary number nearest to a decimal one. -/
def Decimal.toBinary64? (d : Decimal) : Option Binary64 :=
  Binary64.ofDecimal? d.negative d.digits d.power

/-- The binary number nearest to a decimal one, or the infinity of its sign. -/
def Decimal.toNumber (d : Decimal) : Number :=
  match d.toBinary64? with
  | some x => .binary x
  | none => .infinite d.negative

/-- The binary number that a text spells. -/
def binaryOfText? (text : String) : Option Binary64 := do
  let plain := decimalOfChars? (trimmed text.toList)
  let d ← plain <|> (withoutUnderscores? text.toList).bind decimalOfChars?
  d.toBinary64?

example : intOfText? " +0_16.0 " = some 16 := by decide +kernel

example : intOfText? "-0__7" = some (-7) := by decide +kernel

example : intOfText? "5__0" = none := by decide +kernel

end ChipEight.Numeral
