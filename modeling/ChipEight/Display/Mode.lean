/-!
# Display modes

The display has two resolutions. A mode fixes the width, the height and with them the
number of pixels; pixels are numbered row by row from the top left corner.
-/

namespace ChipEight

/-- The two resolutions of the display. -/
inductive Mode where
  /-- 64 by 32 pixels. -/
  | small
  /-- 128 by 64 pixels. -/
  | big
deriving DecidableEq, Repr

namespace Mode

def width : Mode → Nat
  | small => 64
  | big => 128

def height : Mode → Nat
  | small => 32
  | big => 64

def area (mode : Mode) : Nat := mode.width * mode.height

/-- The name a host shows for the mode. -/
def name : Mode → String
  | small => "small"
  | big => "big"

theorem width_pos (mode : Mode) : 0 < mode.width := by cases mode <;> decide

theorem height_pos (mode : Mode) : 0 < mode.height := by cases mode <;> decide

end Mode

end ChipEight
