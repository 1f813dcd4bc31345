/-!
# Indices

Positions in a row are numbered from zero at the front. A negative index counts back from
the end, so that -1 names the last position. Indices come as integers of any size; one that
does not fit in sixty-four bits is refused for that before any row is looked at. Counts of
things to be stored are held to the same width.

Most rows of the machine have sixteen places: registers, keys, and the nibbles that name
them.
-/

namespace ChipEight.Index

instance neZero_sixteen : @NeZero Nat Zero.ofOfNat0 16 := ⟨Nat.succ_ne_zero 15⟩

/-- Why an index names no position. -/
inductive Refusal where
  /-- It lies beyond either end of the row. -/
  | outOfRange
  /-- It does not fit in sixty-four bits. -/
  | tooWide
deriving DecidableEq, Repr

/-- The number fits in sixty-four bits with a sign. -/
def fits (n : Int) : Bool := -0x8000000000000000 ≤ n && n < 0x8000000000000000

/-- The position that an index names in a row of the given length. -/
def resolve (length : Nat) (index : Int) : Except Refusal (Fin length) :=
  if !fits index then .error .tooWide
  else if h : 0 ≤ index ∧ index < length then .ok ⟨index.toNat, by omega⟩
  else if h : -(length : Int) ≤ index ∧ index < 0 then
    .ok ⟨(index + length).toNat, by omega⟩
  else .error .outOfRange

/-- A number below the length names the position of that number. -/
theorem resolve_natCast {length k : Nat} (h : k < length) (fit : length ≤ 0x8000000000000000) :
    resolve length k = .ok ⟨k, h⟩ := by
  have wide : fits (k : Int) = true := by simp [fits]; omega
  have inside : 0 ≤ (k : Int) ∧ (k : Int) < length := by omega
  simp [resolve, wide, inside]

example : resolve 16 (-1) = .ok 15 := rfl

example : resolve 16 16 = .error .outOfRange := rfl

end ChipEight.Index
