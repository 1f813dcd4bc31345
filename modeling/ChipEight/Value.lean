import ChipEight.Text
import ChipEight.Text.Numeral

/-!
# Structured values

Hosts exchange structured values with the console: what they are told about its state, and
what a request carries. A value is null, a truth value, a number, a text, a list or a record
of named fields.

What a request means is read with some tolerance, because the same number may be written in
several ways. An integer may be given as a binary number without a fraction, as a text or as
a truth value; a truth value as zero or one or as one of a few words. The readers here
answer `none` where a value cannot be taken for what is asked.
-/

namespace ChipEight

/-- A structured value. -/
inductive Value where
  /-- Nothing. -/
  | null
  /-- A truth value. -/
  | bool (b : Bool)
  /-- A number. -/
  | num (n : Number)
  /-- A text. -/
  | str (t : Text)
  /-- A list. -/
  | list (items : List Value)
  /-- Named fields. -/
  | record (fields : List (String × Value))

namespace Value

instance : Inhabited Value := ⟨null⟩

/-- An integer as a value. -/
def int (n : Int) : Value := .num (.whole n)

/-- A value, or null where there is none. -/
def ofOption : Option Value → Value
  | some value => value
  | none => null

/-- The integer that a truth value stands for. -/
def intOfBool (b : Bool) : Int := if b then 1 else 0

/-- The truth value that an integer stands for. -/
def boolOfInt? (n : Int) : Option Bool :=
  if n = 0 then some false else if n = 1 then some true else none

/-- The words for true. -/
def trueWords : List String := ["1", "t", "true", "y", "yes", "on"]

/-- The words for false. -/
def falseWords : List String := ["0", "f", "false", "n", "no", "off"]

/-- The truth value that a word stands for, in any letter case. -/
def boolOfText? (text : String) : Option Bool :=
  let word := text.map Char.toLower
  if word ∈ trueWords then some true else if word ∈ falseWords then some false else none

/-- Reads an integer. -/
def toInt? : Value → Option Int
  | num n => n.toInt?
  | bool b => some (intOfBool b)
  | str t => Numeral.intOfText? t.toString
  | _ => none

/-- Reads a truth value. -/
def toBool? : Value → Option Bool
  | bool b => some b
  | num n => n.toInt?.bind boolOfInt?
  | str t => boolOfText? t.toString
  | _ => none

/-- Reads a binary number. -/
def toBinary64? : Value → Option Binary64
  | num n => n.toBinary64?
  | bool b => (Number.whole (intOfBool b)).toBinary64?
  | str t => Numeral.binaryOfText? t.toString
  | _ => none

/-- Reads a text. -/
def toText? : Value → Option Text
  | str t => some t
  | _ => none

/-- Reads a record. -/
def toRecord? : Value → Option (List (String × Value))
  | record fields => some fields
  | _ => none

mutual

/-- No number in the value is infinite or undefined. -/
def isFinite : Value → Bool
  | null => true
  | bool _ => true
  | num n => n.isFinite
  | str _ => true
  | list items => areFinite items
  | record fields => areFiniteFields fields

/-- No number in the values is infinite or undefined. -/
def areFinite : List Value → Bool
  | [] => true
  | value :: rest => value.isFinite && areFinite rest

/-- No number in the fields is infinite or undefined. -/
def areFiniteFields : List (String × Value) → Bool
  | [] => true
  | (_, value) :: rest => value.isFinite && areFiniteFields rest

end

end Value

end ChipEight
