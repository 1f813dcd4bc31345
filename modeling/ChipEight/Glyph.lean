/-!
# Glyphs

The lowest bytes of the memory hold sprites for the sixteen hexadecimal digits, five rows
of eight pixels each, of which the left four show the digit. Programs draw them but cannot
write them.
-/

namespace ChipEight.Glyph

/-- Rows of one glyph. -/
def rows : Nat := 5

/-- The sprites of the digits 0 to F, one after the other. -/
def table : List UInt8 :=
  [0xF0, 0x90, 0x90, 0x90, 0xF0,
   0x20, 0x60, 0x20, 0x20, 0x70,
   0xF0, 0x10, 0xF0, 0x80, 0xF0,
   0xF0, 0x10, 0xF0, 0x10, 0xF0,
   0x90, 0x90, 0xF0, 0x10, 0x10,
   0xF0, 0x80, 0xF0, 0x10, 0xF0,
   0xF0, 0x80, 0xF0, 0x90, 0xF0,
   0xF0, 0x10, 0x20, 0x40, 0x40,
   0xF0, 0x90, 0xF0, 0x90, 0xF0,
   0xF0, 0x90, 0xF0, 0x10, 0xF0,
   0xF0, 0x90, 0xF0, 0x90, 0x90,
   0xE0, 0x90, 0xE0, 0x90, 0xE0,
   0xF0, 0x80, 0x80, 0x80, 0xF0,
   0xE0, 0x90, 0x90, 0x90, 0xE0,
   0xF0, 0x80, 0xF0, 0x80, 0xF0,
   0xF0, 0x80, 0xF0, 0x80, 0x80]

@[simp] theorem length_table : table.length = 80 := rfl

/-- Where the sprite of a digit begins. Only the low nibble of `digit` counts. -/
def address (digit : Int) : Nat := (digit % 16).toNat * rows

end ChipEight.Glyph
