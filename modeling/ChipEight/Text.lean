/-!
# Texts

A text that comes from a host is a sequence of sixteen-bit units. A character of the first
65536 is one unit. Any other is a pair of units, a first half and a second half, from two
ranges that no character of one unit lies in. Nothing keeps a host from sending a half on its
own, so there are texts that are no sequence of characters.

What the library itself says is a sequence of characters, and `Text.ofString` is the text of
one. The way back, `Text.toString`, shows a half on its own as the replacement character.
-/

namespace ChipEight

/-- A sequence of sixteen-bit units. -/
structure Text where
  units : List UInt16
deriving DecidableEq, Repr

namespace Text

/-- The least number of a first half. -/
def firstHalf : Nat := 0xD800

/-- The least number of a second half. -/
def secondHalf : Nat := 0xDC00

/-- The least number beyond the halves. -/
def beyondHalves : Nat := 0xE000

/-- The units of a character. -/
def unitsOf (c : Char) : List UInt16 :=
  if c.toNat < 0x10000 then [UInt16.ofNat c.toNat]
  else
    let n := c.toNat - 0x10000
    [UInt16.ofNat (firstHalf + n / 0x400), UInt16.ofNat (secondHalf + n % 0x400)]

/-- The text of a sequence of characters. -/
def ofString (s : String) : Text := ⟨s.toList.flatMap unitsOf⟩

instance : Coe String Text := ⟨ofString⟩

/-- The unit is a first half. -/
def isFirstHalf (u : UInt16) : Bool := firstHalf ≤ u.toNat && u.toNat < secondHalf

/-- The unit is a second half. -/
def isSecondHalf (u : UInt16) : Bool := secondHalf ≤ u.toNat && u.toNat < beyondHalves

/-- The character of a unit that is not part of a pair. -/
def charOf (u : UInt16) : Char :=
  if isFirstHalf u || isSecondHalf u then '\ufffd' else Char.ofNat u.toNat

/-- The character of a pair. -/
def charOfPair (first second : UInt16) : Char :=
  Char.ofNat (0x10000 + 0x400 * (first.toNat - firstHalf) + (second.toNat - secondHalf))

/-- The characters of a sequence of units, pairs first. -/
def chars : List UInt16 → List Char
  | [] => []
  | [u] => [charOf u]
  | u :: v :: rest =>
    if isFirstHalf u && isSecondHalf v then charOfPair u v :: chars rest
    else charOf u :: chars (v :: rest)

/-- The characters of a text. -/
def toString (t : Text) : String := String.ofList (chars t.units)

/-- A character is no half, and its number is below the limit of characters. -/
theorem toNat_char (c : Char) :
    c.toNat < firstHalf ∨ beyondHalves ≤ c.toNat ∧ c.toNat < 0x110000 := by
  have valid : c.toNat.isValidChar := c.valid
  simp only [Nat.isValidChar, firstHalf, beyondHalves] at *
  omega

/-- The units of a character stand for that character, whatever follows them. -/
theorem chars_unitsOf_append (c : Char) (rest : List UInt16) :
    chars (unitsOf c ++ rest) = c :: chars rest := by
  have range := toNat_char c
  simp only [firstHalf, beyondHalves] at range
  unfold unitsOf
  split
  · next small =>
    have width : (UInt16.ofNat c.toNat).toNat = c.toNat := by simp; omega
    have first : isFirstHalf (UInt16.ofNat c.toNat) = false := by
      simp [isFirstHalf, width, firstHalf, secondHalf]; omega
    have second : isSecondHalf (UInt16.ofNat c.toNat) = false := by
      simp [isSecondHalf, width, secondHalf, beyondHalves]; omega
    have char : charOf (UInt16.ofNat c.toNat) = c := by
      simp only [charOf, first, second, width, Bool.or_self, Bool.false_eq_true, if_false]
      exact Char.ofNat_toNat c
    cases rest <;> simp [chars, first, char]
  · next large =>
    generalize eq : c.toNat - 0x10000 = n
    have high : (UInt16.ofNat (firstHalf + n / 0x400)).toNat = firstHalf + n / 0x400 := by
      simp [firstHalf]; omega
    have low : (UInt16.ofNat (secondHalf + n % 0x400)).toNat = secondHalf + n % 0x400 := by
      simp [secondHalf]; omega
    have first : isFirstHalf (UInt16.ofNat (firstHalf + n / 0x400)) = true := by
      simp only [isFirstHalf, high, Bool.and_eq_true, decide_eq_true_eq]
      simp only [firstHalf, secondHalf]; omega
    have second : isSecondHalf (UInt16.ofNat (secondHalf + n % 0x400)) = true := by
      simp only [isSecondHalf, low, Bool.and_eq_true, decide_eq_true_eq]
      simp only [secondHalf, beyondHalves]; omega
    have pair : charOfPair (UInt16.ofNat (firstHalf + n / 0x400))
        (UInt16.ofNat (secondHalf + n % 0x400)) = c := by
      have number : 0x10000 + 0x400 * (n / 0x400) + n % 0x400 = c.toNat := by omega
      simp only [charOfPair, high, low, Nat.add_sub_cancel_left, number]
      exact Char.ofNat_toNat c
    simp only [List.cons_append, List.nil_append, chars, first, second, Bool.and_self, if_true,
      pair]

theorem chars_flatMap_unitsOf (cs : List Char) : chars (cs.flatMap unitsOf) = cs := by
  induction cs with
  | nil => rfl
  | cons c cs ih => rw [List.flatMap_cons, chars_unitsOf_append, ih]

/-- A sequence of characters comes back from its text. -/
@[simp] theorem toString_ofString (s : String) : (ofString s).toString = s := by
  simp [toString, ofString, chars_flatMap_unitsOf]

end Text

end ChipEight
