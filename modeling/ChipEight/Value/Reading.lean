import ChipEight.Value

/-!
# Readings

Reading a structured value ends in what was asked for, or in the values that could not be
taken for it. A reading that is made of several does not stop at the first that fails: the
values refused by all of them are collected, in order, so that a host can be told of each.
Where a field is missing, the record without it is what is refused.
-/

namespace ChipEight

/-- What came of reading a value. -/
inductive Reading (α : Type) where
  /-- The value was taken for this. -/
  | found (a : α)
  /-- These values could not be taken for what was asked. -/
  | refused (values : List Value)

namespace Reading

variable {α β : Type}

/-- Applies a function to what was found. -/
def map (f : α → β) : Reading α → Reading β
  | found a => found (f a)
  | refused values => refused values

/-- Applies what one reading found to what another found. -/
def app : Reading (α → β) → Reading α → Reading β
  | found f, found a => found (f a)
  | found _, refused values => refused values
  | refused values, found _ => refused values
  | refused values, refused more => refused (values ++ more)

instance : Functor Reading where
  map f r := r.map f

instance : Applicative Reading where
  pure := found
  seq f r := f.app (r ())

/-- Takes a value for what `read` makes of it. -/
def of (read : Value → Option α) (value : Value) : Reading α :=
  match read value with
  | some a => found a
  | none => refused [value]

/-- What was found, if something was. -/
def found? : Reading α → Option α
  | found a => some a
  | refused _ => none

/-- Reads null as nothing and anything else with `read`. -/
def orNull (read : Value → Reading α) : Value → Reading (Option α)
  | .null => found none
  | value => (read value).map some

/-- Reads all of several values. -/
def all (read : Value → Reading α) : List Value → Reading (List α)
  | [] => found []
  | value :: rest => ((read value).map List.cons).app (all read rest)

/-- Reads a list item by item. -/
def list (read : Value → Reading α) : Value → Reading (List α)
  | .list items => all read items
  | value => refused [value]

/-- Reads a record by its fields. -/
def record (read : List (String × Value) → Reading α) : Value → Reading α
  | .record fields => read fields
  | value => refused [value]

/-- Reads a field that may be missing, in which case it has the value `default`. -/
def fieldD (name : String) (default : α) (read : Value → Reading α)
    (fields : List (String × Value)) : Reading α :=
  match fields.lookup name with
  | some value => read value
  | none => found default

/-- Reads a field that may not be missing. -/
def field (name : String) (read : Value → Reading α) (fields : List (String × Value)) :
    Reading α :=
  match fields.lookup name with
  | some value => read value
  | none => refused [.record fields]

end Reading

end ChipEight
