/-!
# Hexadecimal text

Addresses and instruction words appear in messages as hexadecimal numerals of a least
width, and programs travel as one pair of digits per byte. Writing a byte list produces
lower case without blanks; reading accepts either case and any ASCII blanks before,
between and after the pairs, never inside one. So a byte list has many accepted spellings.
-/

namespace ChipEight.Hex

/-- The digits of `n` in lower case, most significant first; zero has one digit. -/
def digits (n : Nat) : List Char := Nat.toDigits 16 n

/-- The numeral of `n` after `mark`, filled with zeros to at least `width` characters. The
sign and the mark count towards the width, so a negative number shows fewer zeros. -/
def numeral (mark : String) (width : Nat) (n : Int) : String :=
  let sign := if n < 0 then "-" else ""
  let shown := digits n.natAbs
  let zeros := List.replicate (width - sign.length - mark.length - shown.length) '0'
  sign ++ mark ++ String.ofList (zeros ++ shown)

/-- An address as messages show it: marked, and at least three digits if not negative. -/
def address (n : Int) : String := numeral "0x" 5 n

/-- Upper case digits, filled with zeros to at least `width` characters. -/
def upper (width : Nat) (n : Int) : String := (numeral "" width n).map Char.toUpper

/-- The value of a hexadecimal digit of either case. -/
def digit? (c : Char) : Option Nat :=
  if '0' ≤ c ∧ c ≤ '9' then some (c.toNat - '0'.toNat)
  else if 'a' ≤ c ∧ c ≤ 'f' then some (c.toNat - 'a'.toNat + 10)
  else if 'A' ≤ c ∧ c ≤ 'F' then some (c.toNat - 'A'.toNat + 10)
  else none

/-- The ASCII blanks: space, tab, line feed, vertical tab, form feed, carriage return. -/
def isBlank (c : Char) : Bool :=
  c = ' ' || ('\t' ≤ c && c ≤ '\x0d')

/-- The two digits of a byte in lower case. -/
def ofByte (b : UInt8) : List Char :=
  [Nat.digitChar (b.toNat / 16), Nat.digitChar (b.toNat % 16)]

/-- Two lower case digits for each byte. -/
def ofBytes (bytes : List UInt8) : String :=
  String.ofList (bytes.flatMap ofByte)

/-- Reads digit pairs, skipping blanks that stand outside a pair. -/
def bytesOfChars? : List Char → Option (List UInt8)
  | [] => some []
  | [c] => if isBlank c then some [] else none
  | c :: d :: rest =>
    if isBlank c then bytesOfChars? (d :: rest)
    else do
      let high ← digit? c
      let low ← digit? d
      let tail ← bytesOfChars? rest
      return UInt8.ofNat (16 * high + low) :: tail

/-- The bytes a text spells, or `none` if it is no spelling of a byte list. -/
def toBytes? (text : String) : Option (List UInt8) := bytesOfChars? text.toList

end ChipEight.Hex
