import ChipEight.Index

/-!
# The keypad

Sixteen keys, each held or released. The host sets them; a program tests one by its low
nibble or waits for any, and then gets the lowest that is held.
-/

namespace ChipEight

/-- Which of the sixteen keys are held. -/
structure Keypad where
  held : Vector Bool 16 := Vector.replicate 16 false
deriving DecidableEq, Repr

namespace Keypad

/-- A key number outside the keypad. -/
structure OutOfRange where
  key : Int
deriving DecidableEq, Repr

/-- The message of a key number outside the keypad. -/
def OutOfRange.message (e : OutOfRange) : String := "Key out of range: " ++ toString e.key

/-- Records that a key is held or released. -/
def set (k : Keypad) (key : Int) (pressed : Bool) : Except OutOfRange Keypad :=
  if h : 0 ≤ key ∧ key < 16 then
    .ok { held := k.held.set key.toNat pressed (by omega) }
  else .error ⟨key⟩

/-- Whether the key that is the low nibble of `key` is held. -/
def isHeld (k : Keypad) (key : Int) : Bool := k.held[Fin.ofNat 16 (key % 16).toNat]

/-- The lowest key that is held. -/
def lowest? (k : Keypad) : Option (Fin 16) := k.held.findFinIdx? id

/-- How a wait for a key stands. -/
inductive Wait where
  /-- A key is held, and the wait is over. -/
  | pressed (key : Fin 16)
  /-- The wait was called off. -/
  | cancelled
  /-- The wait goes on. -/
  | pending
deriving DecidableEq, Repr

/-- Waits for a key. A held key ends the wait even when it has been called off as well. -/
def wait (k : Keypad) (cancelled : Bool) : Wait :=
  match k.lowest? with
  | some key => .pressed key
  | none => if cancelled then .cancelled else .pending

def released : Keypad := {}

/-- Setting a key is seen at that key and at no other. -/
theorem isHeld_set {k next : Keypad} {key : Int} {pressed : Bool}
    (h : k.set key pressed = .ok next) (other : Int) :
    next.isHeld other = if other % 16 = key then pressed else k.isHeld other := by
  unfold set at h
  split at h
  · next range =>
    cases h
    have index : (other % 16).toNat % 16 = (other % 16).toNat := by omega
    simp only [isHeld, Fin.getElem_fin, Fin.ofNat, index, Vector.getElem_set]
    by_cases e : other % 16 = key
    · simp [e]
    · rw [if_neg e, if_neg (by omega)]
  · cases h

@[simp] theorem isHeld_released (key : Int) : released.isHeld key = false := by
  simp [isHeld, released]

end Keypad

end ChipEight
