import ChipEight.Display.Mode
import ChipEight.Index

/-!
# The surface

A surface is a grid of pixels in one of the two modes, each lit or unlit. Sprites are drawn
by flipping pixels. A sprite is a list of bytes, one for each row of eight pixels with the
leftmost in the highest bit, and both axes wrap around, so any place is a legal place.

Drawing is split in two: `Sprite.offsets` lists the pixels that a sprite covers, and
`Surface.flipAll` flips the pixels of a list one after the other. A pixel that occurs twice
in the list is flipped twice, and the second flip meets what the first one left. All of the
wrapping is in the first part and all of the state in the second.
-/

namespace ChipEight

/-- A grid of pixels, numbered row by row from the top left. -/
structure Surface where
  mode : Mode
  /-- Whether each pixel is lit. -/
  cells : Array Bool
  /-- There is one cell for each pixel of the mode. -/
  size_cells : cells.size = mode.area

/-- The pixels of `row` that a row of a sprite lights, as the columns 0 to 7. -/
def Sprite.columns (bits : UInt8) : List Nat :=
  (List.range 8).filter fun column => bits.toNat.testBit (7 - column)

/-- The pixel at `column` and `row`, both wrapped into the grid. -/
def Mode.offset (mode : Mode) (column row : Int) : Nat :=
  (row % mode.height).toNat * mode.width + (column % mode.width).toNat

/-- The pixels covered by a sprite whose top left corner is at `x` and `y`, in the order in
which they are flipped. -/
def Sprite.offsets (mode : Mode) (x y : Int) (sprite : List UInt8) : List Nat :=
  sprite.zipIdx.flatMap fun (bits, row) =>
    (Sprite.columns bits).map fun column : Nat => mode.offset (x + column) (y + row)

theorem Mode.offset_lt_area (mode : Mode) (column row : Int) :
    mode.offset column row < mode.area := by
  have hw : (0 : Int) < mode.width := Int.natCast_pos.mpr mode.width_pos
  have hh : (0 : Int) < mode.height := Int.natCast_pos.mpr mode.height_pos
  have hc : (column % mode.width).toNat < mode.width := by
    have := Int.emod_lt_of_pos column hw
    have := Int.emod_nonneg column (Int.ne_of_gt hw)
    omega
  have hr : (row % mode.height).toNat + 1 ≤ mode.height := by
    have := Int.emod_lt_of_pos row hh
    have := Int.emod_nonneg row (Int.ne_of_gt hh)
    omega
  calc mode.offset column row
      < (row % mode.height).toNat * mode.width + mode.width := Nat.add_lt_add_left hc _
    _ = ((row % mode.height).toNat + 1) * mode.width := by rw [Nat.add_mul, Nat.one_mul]
    _ ≤ mode.height * mode.width := Nat.mul_le_mul_right _ hr
    _ = mode.area := Nat.mul_comm _ _

namespace Surface

/-- The surface of a mode with no pixel lit. -/
def blank (mode : Mode) : Surface where
  mode := mode
  cells := Array.replicate mode.area false
  size_cells := Array.size_replicate

/-- Whether the pixel with this number is lit. No pixel outside the grid is. -/
def lit (s : Surface) (p : Nat) : Bool := s.cells.getD p false

def flip (s : Surface) (p : Nat) : Surface where
  mode := s.mode
  cells := s.cells.modify p not
  size_cells := by rw [Array.size_modify, s.size_cells]

/-- Flips the pixels of a list in order. The second component tells whether one of them was
lit when its turn came. -/
def flipAll (s : Surface) (offsets : List Nat) : Surface × Bool :=
  offsets.foldl (fun (s, collided) p =>
    let collided := s.lit p || collided
    (s.flip p, collided)) (s, false)

/-- Draws a sprite; the second component tells whether a lit pixel was turned off. -/
def draw (s : Surface) (x y : Int) (sprite : List UInt8) : Surface × Bool :=
  s.flipAll (Sprite.offsets s.mode x y sprite)

/-- The pixel that column `x` of row `y` names. The two are combined into one number before
it is taken as an index, so a column beyond the width names a pixel of a later row. -/
def pixel (s : Surface) (x y : Int) : Except Index.Refusal Bool :=
  match Index.resolve s.mode.area (y * s.mode.width + x) with
  | .ok p => .ok (s.lit p)
  | .error refusal => .error refusal

/-- The pixels of row `y` from left to right. -/
def row (s : Surface) (y : Nat) : List Bool :=
  (List.range s.mode.width).map fun x => s.lit (y * s.mode.width + x)

/-- The rows from top to bottom. -/
def rows (s : Surface) : List (List Bool) := (List.range s.mode.height).map s.row

/-- The numbers of the lit pixels, ascending. -/
def litOffsets (s : Surface) : List Nat := (List.range s.mode.area).filter s.lit

@[simp] theorem mode_blank (mode : Mode) : (blank mode).mode = mode := rfl

@[simp] theorem mode_flip (s : Surface) (p : Nat) : (s.flip p).mode = s.mode := rfl

@[simp] theorem lit_blank (mode : Mode) (p : Nat) : (blank mode).lit p = false := by
  simp only [lit, blank, Array.getD_eq_getD_getElem?, Array.getElem?_replicate]
  split <;> rfl

/-- Flipping a pixel of the grid changes that pixel and no other. -/
theorem lit_flip (s : Surface) {p : Nat} (h : p < s.mode.area) (q : Nat) :
    (s.flip p).lit q = if q = p then !s.lit q else s.lit q := by
  have hp : p < s.cells.size := s.size_cells ▸ h
  simp only [lit, flip, Array.getD_eq_getD_getElem?, Array.getElem?_modify]
  split
  · next e => subst e; simp [hp]
  · next e => simp [Ne.symm e]

/-- Columns and rows within the mode name the pixel at that place. -/
theorem pixel_eq (s : Surface) {x y : Nat} (column : x < s.mode.width) (row : y < s.mode.height) :
    s.pixel x y = .ok (s.lit (y * s.mode.width + x)) := by
  have inside : y * s.mode.width + x < s.mode.area := by
    calc y * s.mode.width + x
        < y * s.mode.width + s.mode.width := Nat.add_lt_add_left column _
      _ = (y + 1) * s.mode.width := (Nat.succ_mul _ _).symm
      _ ≤ s.mode.height * s.mode.width := Nat.mul_le_mul_right _ row
      _ = s.mode.area := Nat.mul_comm _ _
  have small : s.mode.area ≤ 0x8000000000000000 := by cases s.mode <;> decide
  have index : (y : Int) * s.mode.width + x = ((y * s.mode.width + x : Nat) : Int) := by
    rw [Int.natCast_add, Int.natCast_mul]
  rw [pixel, index, Index.resolve_natCast inside small]

end Surface

end ChipEight
