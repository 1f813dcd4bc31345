import ChipEight.Instruction

/-!
# Register operations

An operation of the register family is a function of two bytes to a result and, for most of
them, a flag. It is kept apart from the registers: both operands are read before anything
is written, and when the flag register is itself the target the result is written last.
-/

namespace ChipEight.Operation

/-- The result of an operation on the bytes of two registers and the flag it raises, where
it has one.

`subtractOther` comes in two conventions. Reversed, it is `subtract` with its operands
exchanged. Otherwise it keeps the operand order of `subtract` and flags a first byte that is
the lesser one, which is what programs for this machine rely on. -/
def apply (reversed : Bool) (a b : UInt8) : Operation → UInt8 × Option Bool
  | copy => (b, none)
  | or => (a ||| b, none)
  | and => (a &&& b, none)
  | xor => (a ^^^ b, none)
  | add => (a + b, some (decide (255 < a.toNat + b.toNat)))
  | subtract => (a - b, some (decide (b < a)))
  | shiftRight => (a >>> 1, some (decide (a.toNat % 2 = 1)))
  | subtractOther =>
    if reversed then (b - a, some (decide (a < b))) else (a - b, some (decide (a < b)))
  | shiftLeft => (a <<< 1, some (decide (128 ≤ a.toNat)))

end ChipEight.Operation
