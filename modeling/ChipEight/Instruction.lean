import ChipEight.Diagnostic
import ChipEight.Display.Mode

/-!
# Instructions

`Word.decode` reads every word: as an instruction with its operands, or as a word to be
skipped, with the reason. Decoding needs neither the address of the word nor any state, and
what an instruction does is said elsewhere.

Tests and register operations are types of their own. The six conditional instructions
differ only in their test, and the nine of the register family only in how they combine two
bytes.
-/

namespace ChipEight

/-- A test on which the next instruction is skipped. -/
inductive Condition where
  | isByte (x : Fin 16) (kk : UInt8)
  | isNotByte (x : Fin 16) (kk : UInt8)
  | isEqual (x y : Fin 16)
  | isNotEqual (x y : Fin 16)
  | keyHeld (x : Fin 16)
  | keyReleased (x : Fin 16)
deriving DecidableEq, Repr

/-- A way to combine the bytes of two registers. -/
inductive Operation where
  | copy
  | or
  | and
  | xor
  /-- The sum, flagging a carry. -/
  | add
  /-- The difference, flagging a first byte that is the greater one. -/
  | subtract
  /-- The first byte shifted right, flagging the bit that falls off. -/
  | shiftRight
  /-- The difference under the convention in force, see `Operation.apply`. -/
  | subtractOther
  /-- The first byte shifted left, flagging the bit that falls off. -/
  | shiftLeft
deriving DecidableEq, Repr

/-- What a word says. -/
inductive Instruction where
  /-- Blank the display. -/
  | clear
  | ret
  /-- Blank the display in a given mode. -/
  | selectMode (mode : Mode)
  | jump (target : Nat)
  | call (target : Nat)
  | skipIf (condition : Condition)
  | set (x : Fin 16) (kk : UInt8)
  /-- Add a byte to a register, without touching the flag. -/
  | addByte (x : Fin 16) (kk : UInt8)
  | combine (operation : Operation) (x y : Fin 16)
  | setIndex (target : Nat)
  /-- Set a register to a random byte under a mask. -/
  | random (x : Fin 16) (kk : UInt8)
  /-- Draw a sprite of some rows from memory at the place two registers name. -/
  | draw (x y : Fin 16) (rows : Nat)
  | readDelay (x : Fin 16)
  | awaitKey (x : Fin 16)
  | setDelay (x : Fin 16)
  | setSound (x : Fin 16)
  | addIndex (x : Fin 16)
  /-- Point the address register at the glyph of a digit. -/
  | pointGlyph (x : Fin 16)
  /-- Write the decimal digits of a register to memory. -/
  | storeDigits (x : Fin 16)
  /-- Write the registers up to one to memory. -/
  | store (x : Fin 16)
  /-- Read the registers up to one from memory. -/
  | restore (x : Fin 16)
  /-- No instruction: skip the word. -/
  | skipWord (kind : Diagnostic.Kind)
deriving DecidableEq, Repr

namespace Word

/-- The instructions of family 0, which have nothing but a byte to tell them apart. Those
that scroll belong to a larger machine. -/
def decodeSystem (w : Word) : Instruction :=
  if w.x ≠ 0 then .skipWord .unknown
  else if w.y = 0xC then .skipWord .unsupported
  else match w.kk with
    | 0xE0 => .clear
    | 0xEE => .ret
    | 0xFB => .skipWord .unsupported
    | 0xFC => .skipWord .unsupported
    | 0xFE => .selectMode .small
    | 0xFF => .selectMode .big
    | _ => .skipWord .unknown

/-- The operation that the last nibble of a word of family 8 selects. -/
def operation? (w : Word) : Option Operation :=
  match w.n with
  | 0x0 => some .copy
  | 0x1 => some .or
  | 0x2 => some .and
  | 0x3 => some .xor
  | 0x4 => some .add
  | 0x5 => some .subtract
  | 0x6 => some .shiftRight
  | 0x7 => some .subtractOther
  | 0xE => some .shiftLeft
  | _ => none

/-- The instructions of family E. -/
def decodeKeys (w : Word) : Instruction :=
  match w.kk with
  | 0x9E => .skipIf (.keyHeld w.x)
  | 0xA1 => .skipIf (.keyReleased w.x)
  | _ => .skipWord .unknown

/-- The instructions of family F. -/
def decodeMisc (w : Word) : Instruction :=
  match w.kk with
  | 0x07 => .readDelay w.x
  | 0x0A => .awaitKey w.x
  | 0x15 => .setDelay w.x
  | 0x18 => .setSound w.x
  | 0x1E => .addIndex w.x
  | 0x29 => .pointGlyph w.x
  | 0x30 => .pointGlyph w.x
  | 0x33 => .storeDigits w.x
  | 0x55 => .store w.x
  | 0x65 => .restore w.x
  | _ => .skipWord .unknown

def decode (w : Word) : Instruction :=
  match w.family with
  | 0x0 => w.decodeSystem
  | 0x1 => .jump w.nnn
  | 0x2 => .call w.nnn
  | 0x3 => .skipIf (.isByte w.x w.kk)
  | 0x4 => .skipIf (.isNotByte w.x w.kk)
  | 0x5 => if w.n = 0 then .skipIf (.isEqual w.x w.y) else .skipWord .unknown
  | 0x6 => .set w.x w.kk
  | 0x7 => .addByte w.x w.kk
  | 0x8 =>
    match w.operation? with
    | some operation => .combine operation w.x w.y
    | none => .skipWord .unknown
  | 0x9 => if w.n = 0 then .skipIf (.isNotEqual w.x w.y) else .skipWord .unknown
  | 0xA => .setIndex w.nnn
  | 0xC => .random w.x w.kk
  | 0xD => .draw w.x w.y w.n
  | 0xE => w.decodeKeys
  | 0xF => w.decodeMisc
  | _ => .skipWord .unknown

end Word

end ChipEight
