import ChipEight.Text.Hex
import ChipEight.Value

/-!
# JSON text

Structured values travel as JSON. Writing produces one line without blanks and without any
character outside ASCII; reading accepts every JSON text, with blanks between the tokens.

Numbers without a point and a power of ten are read as integers and all others as binary
numbers, so that the two kinds of number come through as they were written. Infinite and
undefined numbers are read and written as words, which JSON proper does not have. The units
of a text come through one by one, so that a half of a character may stand on its own.
-/

namespace ChipEight.Json

/-! ## Reading -/

/-- The blanks between tokens. -/
def isBlank (c : Char) : Bool := c = ' ' || c = '\t' || c = '\n' || c = '\x0d'

/-- The text from its first token on. -/
def skipBlanks (cs : List Char) : List Char := cs.dropWhile isBlank

/-- The number that four hexadecimal digits spell. -/
def hexUnit? (a b c d : Char) : Option Nat := do
  return 4096 * (← Hex.digit? a) + 256 * (← Hex.digit? b) + 16 * (← Hex.digit? c) +
    (← Hex.digit? d)

/-- The unit that a backslash and one character stand for. -/
def escaped? : Char → Option UInt16
  | '"' => some 0x22
  | '\\' => some 0x5C
  | '/' => some 0x2F
  | 'b' => some 0x08
  | 'f' => some 0x0C
  | 'n' => some 0x0A
  | 'r' => some 0x0D
  | 't' => some 0x09
  | _ => none

/-- Reads units behind an opening quote, with what follows the closing quote. The units read
already come latest first. -/
def readUnits (seen : List UInt16) : List Char → Option (List UInt16 × List Char)
  | [] => none
  | '"' :: rest => some (seen.reverse, rest)
  | '\\' :: 'u' :: a :: b :: c :: d :: rest =>
    match hexUnit? a b c d with
    | some unit => readUnits (UInt16.ofNat unit :: seen) rest
    | none => none
  | '\\' :: c :: rest =>
    match escaped? c with
    | some unit => readUnits (unit :: seen) rest
    | none => none
  | c :: rest => readUnits ((Text.unitsOf c).reverse ++ seen) rest

/-- Reads a text behind its opening quote. -/
def readText (cs : List Char) : Option (Text × List Char) :=
  (readUnits [] cs).map fun (units, rest) => (⟨units⟩, rest)

/-- The characters of which numbers are made. -/
def isNumberChar (c : Char) : Bool :=
  c.isDigit || c = '-' || c = '+' || c = '.' || c = 'e' || c = 'E'

/-- The number that characters spell. -/
def numberOfChars? (cs : List Char) : Option Number :=
  let (negative, ds) := Numeral.splitSign cs
  if ds.isEmpty then none
  else if ds.all Char.isDigit then
    let n : Int := Numeral.natOfDigits ds
    some (.whole (if negative then -n else n))
  else (Numeral.decimalOfChars? cs).map Numeral.Decimal.toNumber

/-- What follows a word, if the characters begin with it. -/
def dropWord? (word : String) (cs : List Char) : Option (List Char) :=
  if cs.take word.length = word.toList then some (cs.drop word.length) else none

/-- The words that stand for values. -/
def words : List (String × Value) :=
  [("null", .null), ("true", .bool true), ("false", .bool false),
    ("NaN", .num .undefined), ("Infinity", .num (.infinite false)),
    ("-Infinity", .num (.infinite true))]

/-- Reads a word, with what follows it. -/
def readWord (cs : List Char) : Option (Value × List Char) :=
  words.findSome? fun (word, value) => (dropWord? word cs).map (value, ·)

/-- Reads a number or a word. -/
def readAtom (cs : List Char) : Option (Value × List Char) :=
  readWord cs <|> (numberOfChars? (cs.takeWhile isNumberChar)).map fun n =>
    (.num n, cs.dropWhile isNumberChar)

mutual

/-- Reads a value, with what follows it. The first argument bounds the depth of the reading,
for which the length of the text is enough. -/
def readValue : Nat → List Char → Option (Value × List Char)
  | 0, _ => none
  | depth + 1, cs =>
    match skipBlanks cs with
    | '"' :: rest => (readText rest).map fun (s, rest) => (.str s, rest)
    | '[' :: rest =>
      match skipBlanks rest with
      | ']' :: rest => some (.list [], rest)
      | rest => (readItems depth [] rest).map fun (items, rest) => (.list items, rest)
    | '{' :: rest =>
      match skipBlanks rest with
      | '}' :: rest => some (.record [], rest)
      | rest => (readFields depth [] rest).map fun (fields, rest) => (.record fields, rest)
    | rest => readAtom rest

/-- Reads the items of a list up to its closing bracket. The items read already come latest
first. -/
def readItems : Nat → List Value → List Char → Option (List Value × List Char)
  | 0, _, _ => none
  | depth + 1, seen, cs =>
    match readValue depth cs with
    | none => none
    | some (item, rest) =>
      match skipBlanks rest with
      | ',' :: rest => readItems depth (item :: seen) rest
      | ']' :: rest => some ((item :: seen).reverse, rest)
      | _ => none

/-- Reads the fields of a record up to its closing brace. The fields read already come
latest first. -/
def readFields :
    Nat → List (String × Value) → List Char → Option (List (String × Value) × List Char)
  | 0, _, _ => none
  | depth + 1, seen, cs =>
    match skipBlanks cs with
    | '"' :: rest =>
      match readText rest with
      | none => none
      | some (name, rest) =>
        match skipBlanks rest with
        | ':' :: rest =>
          match readValue depth rest with
          | none => none
          | some (value, rest) =>
            let seen := (name.toString, value) :: seen
            match skipBlanks rest with
            | ',' :: rest => readFields depth seen rest
            | '}' :: rest => some (seen.reverse, rest)
            | _ => none
        | _ => none
    | _ => none

end

/-- The value that a text spells. -/
def read? (text : String) : Option Value :=
  let cs := text.toList
  match readValue (cs.length + 1) cs with
  | some (value, rest) => if (skipBlanks rest).isEmpty then some value else none
  | none => none

/-! ## Writing -/

/-- A unit inside a text: as it is if it is a character of ASCII, else as an escape. -/
def unitText (unit : UInt16) : List Char :=
  let n := unit.toNat
  if n = 0x22 then ['\\', '"']
  else if n = 0x5C then ['\\', '\\']
  else if 0x20 ≤ n ∧ n < 0x7F then [Char.ofNat n]
  else
    let ds := Hex.digits n
    '\\' :: 'u' :: List.replicate (4 - ds.length) '0' ++ ds

/-- A text with its quotes. -/
def quoted (t : Text) : List Char := '"' :: t.units.flatMap unitText ++ ['"']

/-- A number, or a word if it is none. -/
def numberText : Number → String
  | .infinite negative => if negative then "-Infinity" else "Infinity"
  | .undefined => "NaN"
  | n => n.text

mutual

/-- A value as a list of characters. -/
def chars : Value → List Char
  | .null => "null".toList
  | .bool b => (if b then "true" else "false").toList
  | .num n => (numberText n).toList
  | .str s => quoted s
  | .list items => '[' :: charsOfItems items
  | .record fields => '\x7b' :: charsOfFields fields

/-- The items of a list, up to the closing bracket. -/
def charsOfItems : List Value → List Char
  | [] => [']']
  | [item] => chars item ++ [']']
  | item :: next :: rest => chars item ++ ',' :: charsOfItems (next :: rest)

/-- The fields of a record, up to the closing brace. -/
def charsOfFields : List (String × Value) → List Char
  | [] => ['\x7d']
  | [(name, value)] => quoted name ++ ':' :: chars value ++ ['\x7d']
  | (name, value) :: next :: rest =>
    quoted name ++ ':' :: chars value ++ ',' :: charsOfFields (next :: rest)

end

/-- A value as JSON. -/
def write (value : Value) : String := String.ofList (chars value)

example : (read? " [1, 2.50, true]").map write = some "[1,2.5,true]" := by decide +kernel

example : (read? "\"\\ud83d\\ude00\"").map write = some "\"\\ud83d\\ude00\"" := by
  decide +kernel

end ChipEight.Json
