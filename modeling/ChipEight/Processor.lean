import ChipEight.Memory

/-!
# The processor

Sixteen byte registers, the address register, the program counter and the call stack. The
last register doubles as the flag. Writes to the byte registers and to the address register
wrap; the program counter and the stacked return addresses are whatever was put there, and
it is the instruction fetch that refuses a counter outside the memory.

Only the live entries of the call stack are kept, the latest first. The depth of the stack
is their number.
-/

namespace ChipEight

/-- The registers an instruction works on. -/
structure Processor where
  /-- The byte registers. -/
  v : Vector UInt8 16 := Vector.replicate 16 0
  /-- The address register. -/
  i : UInt16 := 0
  pc : Int := Memory.base
  /-- The return addresses of the open calls, latest first. -/
  calls : List Int := []
deriving DecidableEq, Repr

namespace Processor

/-- The number of calls that may be open at once. -/
def maxCalls : Nat := 16

/-- The register that instructions use as a flag. -/
def flag : Fin 16 := 15

/-- The register that a number names as an index. -/
def register (index : Int) : Except Index.Refusal (Fin 16) := Index.resolve 16 index

def set (p : Processor) (x : Fin 16) (value : UInt8) : Processor :=
  { p with v := p.v.set x value }

/-- Writes the flag register, one for `true`. -/
def setFlag (p : Processor) (raised : Bool) : Processor :=
  p.set flag (if raised then 1 else 0)

/-- Writes the address register, keeping sixteen bits. -/
def setIndex (p : Processor) (value : Int) : Processor := { p with i := UInt16.ofInt value }

def goto (p : Processor) (pc : Int) : Processor := { p with pc := pc }

/-- Moves the program counter past one instruction word, within sixteen bits. -/
def advance (p : Processor) : Processor := { p with pc := (p.pc + 2) % 65536 }

/-- Opens a call that returns to `target`. -/
def push (p : Processor) (target : Int) : Except Fault Processor :=
  if maxCalls ≤ p.calls.length then .error ⟨.callStackFull p.calls.length, p.pc, none⟩
  else .ok { p with calls := target :: p.calls }

/-- Closes the latest call and gives its return address. -/
def pop (p : Processor) : Except Fault (Int × Processor) :=
  match p.calls with
  | [] => .error ⟨.callStackEmpty, p.pc, none⟩
  | target :: rest => .ok (target, { p with calls := rest })

/-- Writes the first registers from a list; registers beyond its end keep their value. -/
def setLow (p : Processor) (values : List UInt8) : Processor :=
  { p with v := Vector.ofFn fun x => values.getD x p.v[x] }

/-- The registers from the first to `x`. -/
def low (p : Processor) (x : Fin 16) : List UInt8 := p.v.toList.take (x + 1)

/-- The return addresses of the open calls, oldest first. -/
def stack (p : Processor) : List Int := p.calls.reverse

@[simp] theorem v_set (p : Processor) (x : Fin 16) (value : UInt8) :
    (p.set x value).v = p.v.set x value := rfl

@[simp] theorem i_set (p : Processor) (x : Fin 16) (value : UInt8) :
    (p.set x value).i = p.i := rfl

@[simp] theorem pc_set (p : Processor) (x : Fin 16) (value : UInt8) :
    (p.set x value).pc = p.pc := rfl

@[simp] theorem calls_set (p : Processor) (x : Fin 16) (value : UInt8) :
    (p.set x value).calls = p.calls := rfl

@[simp] theorem pc_advance (p : Processor) : p.advance.pc = (p.pc + 2) % 65536 := rfl

@[simp] theorem goto_goto (p : Processor) (a b : Int) : (p.goto a).goto b = p.goto b := rfl

end Processor

end ChipEight
