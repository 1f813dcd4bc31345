import ChipEight.Display.Surface
import ChipEight.Event

/-!
# The display

A display is a surface and the listeners that are told when its mode changes. A change of
mode leaves a blank surface. Selecting a mode blanks the surface in any case, but only a
mode that was not the current one counts as a change: it is told once to each entry in the
list of listeners, in order of registration.
-/

namespace ChipEight

/-- A surface with listeners for its mode. -/
structure Display where
  surface : Surface := Surface.blank .small
  /-- The names of the listeners, in order of registration. -/
  listeners : List Text := []

/-- What an instruction asks of the display, once its operands are read. -/
inductive Display.Request where
  | clear
  | selectMode (mode : Mode)
  | draw (column row : UInt8) (sprite : List UInt8)
deriving DecidableEq, Repr

namespace Display

def mode (d : Display) : Mode := d.surface.mode

/-- Adds a listener at the end. One that is registered already is told once more. -/
def addListener (d : Display) (name : Text) : Display :=
  { d with listeners := d.listeners ++ [name] }

/-- Removes the first entry of a listener, if there is one. -/
def removeListener? (d : Display) (name : Text) : Option Display :=
  if name ∈ d.listeners then some { d with listeners := d.listeners.erase name } else none

/-- What is told when the mode changes. -/
def modeEvents (d : Display) (mode : Mode) : List Event :=
  .modeChanged mode :: d.listeners.map fun name => .listenerTold name mode

/-- Changes the mode; the answer tells whether it was another one before. -/
def setMode (d : Display) (mode : Mode) : Effect Display Bool :=
  if mode = d.mode then { state := d, result := false }
  else
    { state := { d with surface := Surface.blank mode }
      result := true
      events := d.modeEvents mode }

def clear (d : Display) : Display := { d with surface := Surface.blank d.mode }

/-- Changes the mode and turns all pixels off, also when the mode stays. -/
def selectMode (d : Display) (mode : Mode) : Effect Display Unit :=
  let changed := d.setMode mode
  { state := if changed.result then changed.state else d.clear
    result := ()
    events := changed.events }

/-- Brings the display back to a blank small surface. -/
def reset (d : Display) : Effect Display Unit := d.selectMode .small

/-- Draws a sprite; the answer tells whether a lit pixel was turned off. -/
def draw (d : Display) (x y : Int) (sprite : List UInt8) : Display × Bool :=
  let (surface, collided) := d.surface.draw x y sprite
  ({ d with surface }, collided)

@[simp] theorem mode_clear (d : Display) : d.clear.mode = d.mode := rfl

@[simp] theorem listeners_clear (d : Display) : d.clear.listeners = d.listeners := rfl

/-- Selecting a mode leaves a blank surface of that mode, whatever was shown before. -/
@[simp] theorem surface_selectMode (d : Display) (mode : Mode) :
    (d.selectMode mode).state.surface = Surface.blank mode := by
  simp only [selectMode, setMode]
  split
  · next h => simp [clear, h]
  · next h => simp

@[simp] theorem listeners_selectMode (d : Display) (mode : Mode) :
    (d.selectMode mode).state.listeners = d.listeners := by
  simp only [selectMode, setMode]
  split <;> simp

end Display

end ChipEight
