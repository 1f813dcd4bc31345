import ChipEight.Number
import ChipEight.Text
import ChipEight.Text.Hex
import ChipEight.Word

/-!
# Faults

A fault is a cause, the address it is charged to and, once the instruction is known, its
word. The parts of the machine raise faults with the address they see: memory names the
address it refused, the call stack the program counter. When the fault stops an instruction
the machine charges it to that instruction instead (`Fault.chargedTo`), so that one fault
can be told with two addresses, depending on who asked.

Causes fall into kinds, and kinds into wider kinds up to `Fault.Kind.general`. The kind
names and the messages are what a host shows.
-/

namespace ChipEight

namespace Fault

/-- Why an operation could not be done. -/
inductive Cause where
  /-- A memory address outside the memory. -/
  | addressOutOfRange (addr : Int)
  /-- A write into the glyph table. -/
  | glyphTableWrite (addr : Int)
  /-- A program counter with no instruction word behind it. -/
  | counterOutOfRange (pc : Int)
  | callStackFull (depth : Nat)
  | callStackEmpty
  /-- A program longer than the room above the load address. -/
  | programTooLarge (length : Nat) (room : Int)
  /-- An operation that needs a program before one was loaded. -/
  | nothingLoaded
  /-- An engine that did not end within the seconds it was given. -/
  | engineStuck (patience : Number)
deriving DecidableEq, Repr

/-- The classes a host tells faults apart by. -/
inductive Kind where
  | general
  | load
  | programTooLarge
  | notLoaded
  | runtime
  | memoryAccess
  | stackOverflow
  | stackUnderflow
  | engineTimeout
deriving DecidableEq, Repr

/-- The name a host shows for a kind. -/
def Kind.name : Kind → String
  | .general => "Chip8Error"
  | .load => "LoadError"
  | .programTooLarge => "ProgramTooLarge"
  | .notLoaded => "NotLoaded"
  | .runtime => "Chip8RuntimeError"
  | .memoryAccess => "MemoryAccessError"
  | .stackOverflow => "StackOverflow"
  | .stackUnderflow => "StackUnderflow"
  | .engineTimeout => "EngineTimeout"

/-- All kinds, wider ones before narrower ones. -/
def Kind.all : List Kind :=
  [.general, .load, .programTooLarge, .notLoaded, .runtime, .memoryAccess, .stackOverflow,
    .stackUnderflow, .engineTimeout]

/-- The kind with a given name. -/
def Kind.ofName? (name : String) : Option Kind := Kind.all.find? (·.name = name)

/-- A kind followed by the wider kinds it belongs to, ending with `general`. -/
def Kind.lineage : Kind → List Kind
  | .general => [.general]
  | .load => [.load, .general]
  | .programTooLarge => [.programTooLarge, .load, .general]
  | .notLoaded => [.notLoaded, .general]
  | .runtime => [.runtime, .general]
  | .memoryAccess => [.memoryAccess, .runtime, .general]
  | .stackOverflow => [.stackOverflow, .runtime, .general]
  | .stackUnderflow => [.stackUnderflow, .runtime, .general]
  | .engineTimeout => [.engineTimeout, .general]

/-- The kind a cause is reported as. -/
def Cause.kind : Cause → Kind
  | .addressOutOfRange _ => .memoryAccess
  | .glyphTableWrite _ => .memoryAccess
  | .counterOutOfRange _ => .memoryAccess
  | .callStackFull _ => .stackOverflow
  | .callStackEmpty => .stackUnderflow
  | .programTooLarge _ _ => .programTooLarge
  | .nothingLoaded => .notLoaded
  | .engineStuck _ => .engineTimeout

def Cause.message : Cause → String
  | .addressOutOfRange addr => "Memory address out of range: " ++ Hex.address addr
  | .glyphTableWrite addr => "Write to read-only glyph table: " ++ Hex.address addr
  | .counterOutOfRange pc => "Program counter out of range: " ++ Hex.address pc
  | .callStackFull depth => "Call stack overflow at depth " ++ toString depth
  | .callStackEmpty => "Return with empty call stack"
  | .programTooLarge length room =>
    "Program is " ++ toString length ++ " bytes, only " ++ toString room ++ " available"
  | .nothingLoaded => "No program loaded"
  | .engineStuck patience => "Engine did not stop within " ++ patience.text ++ "s"

end Fault

/-- A cause with the address it is charged to. -/
structure Fault where
  /-- What went wrong. -/
  cause : Fault.Cause
  addr : Int
  /-- The word of the instruction that failed, where one is known. -/
  word : Option Word := none
deriving DecidableEq, Repr

namespace Fault

/-- The same cause, charged to the instruction that ran into it. -/
def chargedTo (f : Fault) (op : Fetched) : Fault :=
  { f with addr := op.addr, word := some op.word }

@[simp] theorem cause_chargedTo (f : Fault) (op : Fetched) :
    (f.chargedTo op).cause = f.cause := rfl

@[simp] theorem addr_chargedTo (f : Fault) (op : Fetched) :
    (f.chargedTo op).addr = op.addr := rfl

@[simp] theorem word_chargedTo (f : Fault) (op : Fetched) :
    (f.chargedTo op).word = some op.word := rfl

/-- A fault as a host sees it: any text and any numbers may stand in one. -/
structure Report where
  kind : Kind
  message : Text
  addr : Int := 0
  /-- The number of the instruction that failed, if one is known. -/
  opcode : Option Int := none
deriving DecidableEq, Repr

/-- What a host is told about a fault. -/
def report (f : Fault) : Report where
  kind := f.cause.kind
  message := f.cause.message
  addr := f.addr
  opcode := f.word.map fun w => (w.toNat : Int)

end Fault

end ChipEight
