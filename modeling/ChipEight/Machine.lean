import ChipEight.Display
import ChipEight.Keypad
import ChipEight.Operation
import ChipEight.Processor
import ChipEight.Random.Source
import ChipEight.Timers

/-!
# The machine

The machine is everything an instruction may read or change. `Machine.execute` carries out
one word at an address, and answers with the address control goes to, nothing if execution
falls through to the next word, or the fault that stopped it. `Machine.step` fetches the
word, moves the program counter past it and then executes it.

A fault leaves behind what was done before it was met. Most instructions ask every guard
first and so leave nothing; only the two that write several bytes can be stopped half way.

A wait for a key never blocks here. Without a key it sends control back to its own address,
so that the same wait is met again on the next step; whoever drives the machine decides
whether to take that step before a key is held.
-/

namespace ChipEight

/-- The state that instructions work on. -/
structure Machine where
  /-- Registers and call stack. -/
  processor : Processor := {}
  timers : Timers := {}
  memory : Memory := Memory.blank Memory.fullSize
  display : Display := {}
  keypad : Keypad := {}
  /-- Where random bytes come from. -/
  random : RandomSource
  /-- Notes about words that were skipped. -/
  diagnostics : DiagnosticLog := {}
  /-- The convention in force for `Operation.subtractOther`. -/
  reversed : Bool := false
  /-- Whether the doubtful operand order has been told. -/
  orderTold : Bool := false

namespace Machine

/-- The byte in a register. -/
def v (m : Machine) (x : Fin 16) : UInt8 := m.processor.v.get x

def pc (m : Machine) : Int := m.processor.pc

/-- The address register as an address. -/
def index (m : Machine) : Int := m.processor.i.toNat

def set (m : Machine) (x : Fin 16) (value : UInt8) : Machine :=
  { m with processor := m.processor.set x value }

def setFlag (m : Machine) (raised : Bool) : Machine :=
  { m with processor := m.processor.setFlag raised }

def goto (m : Machine) (pc : Int) : Machine := { m with processor := m.processor.goto pc }

def setIndex (m : Machine) (value : Int) : Machine :=
  { m with processor := m.processor.setIndex value }

/-- What executing a word leaves behind. The answer is the address control goes to, if it
does not fall through. -/
abbrev Outcome := Effect Machine (Except Fault (Option Int))

/-- Execution falls through to the next word. -/
def fallThrough (m : Machine) (events : List Event := []) : Outcome :=
  { state := m, result := .ok none, events }

/-- Control goes to an address. -/
def redirect (m : Machine) (target : Int) (events : List Event := []) : Outcome :=
  { state := m, result := .ok (some target), events }

/-- Execution is stopped. -/
def stopped (m : Machine) (fault : Fault) : Outcome :=
  { state := m, result := .error fault }

/-- Whether a condition holds. -/
def holds (m : Machine) : Condition → Bool
  | .isByte x kk => m.v x = kk
  | .isNotByte x kk => m.v x ≠ kk
  | .isEqual x y => m.v x = m.v y
  | .isNotEqual x y => m.v x ≠ m.v y
  | .keyHeld x => m.keypad.isHeld (m.v x).toNat
  | .keyReleased x => !m.keypad.isHeld (m.v x).toNat

/-- Notes a word and falls through. -/
def skipWord (m : Machine) (op : Fetched) (kind : Diagnostic.Kind) : Outcome :=
  let d : Diagnostic := { kind, addr := op.addr, word := op.word }
  { m with diagnostics := m.diagnostics.push d }.fallThrough [.wordSkipped d]

/-- Combines two registers. The flag is written before the result. The first use of the
doubtful operand order is told, once for the lifetime of the machine. -/
def combine (m : Machine) (op : Fetched) (operation : Operation) (x y : Fin 16) : Outcome :=
  let doubtful := operation = .subtractOther && !m.reversed && !m.orderTold
  let (result, flag) := operation.apply m.reversed (m.v x) (m.v y)
  let flagged := match flag with
    | some raised => m.setFlag raised
    | none => m
  { flagged.set x result with orderTold := m.orderTold || doubtful }.fallThrough
    (if doubtful then [.operandOrderDoubtful op.addr] else [])

/-- Does what is asked of the display. A sprite that turns a lit pixel off raises the flag. -/
def present (m : Machine) : Display.Request → Outcome
  | .clear => { m with display := m.display.clear }.fallThrough [.screenCleared]
  | .selectMode mode =>
    let selected := m.display.selectMode mode
    { m with display := selected.state }.fallThrough selected.events
  | .draw column row sprite =>
    let (display, collided) := m.display.draw column.toNat row.toNat sprite
    ({ m with display }.setFlag collided).fallThrough [.spriteDrawn sprite.length column row]

/-- Draws a sprite. The whole sprite is read before the first pixel is flipped. -/
def draw (m : Machine) (x y : Fin 16) (rows : Nat) : Outcome :=
  match m.memory.readBlock m.index rows with
  | .error fault => m.stopped fault
  | .ok sprite => m.present (.draw (m.v x) (m.v y) sprite)

/-- Writes bytes from the address register on, up to the first that memory refuses. -/
def writeBlock (m : Machine) (values : List UInt8) : Outcome :=
  let (memory, fault) := m.memory.writeAll m.index values
  match fault with
  | some fault => { m with memory }.stopped fault
  | none => { m with memory }.fallThrough

/-- The decimal digits of a byte, hundreds first. -/
def decimalDigits (value : UInt8) : List UInt8 := [value / 100, value / 10 % 10, value % 10]

/-- Answers a wait for a key: with the lowest key held, or by going back to the wait. -/
def awaitKey (m : Machine) (op : Fetched) (x : Fin 16) : Outcome :=
  match m.keypad.lowest? with
  | some key => (m.set x (UInt8.ofNat key)).fallThrough [.keyAwaited]
  | none => m.redirect op.addr [.keyAwaited]

/-- Carries out a word. The program counter is taken to be past the word already, and only
the caller moves it where the answer says. -/
def execute (m : Machine) (op : Fetched) : Outcome :=
  match op.word.decode with
  | .clear => m.present .clear
  | .ret =>
    match m.processor.pop with
    | .error fault => m.stopped fault
    | .ok (target, processor) => { m with processor }.redirect target
  | .selectMode mode => m.present (.selectMode mode)
  | .jump target => m.redirect target [.jumped target]
  | .call target =>
    match m.processor.push m.pc with
    | .error fault => m.stopped fault
    | .ok processor => { m with processor }.redirect target
  | .skipIf condition => if m.holds condition then m.redirect (m.pc + 2) else m.fallThrough
  | .set x kk => (m.set x kk).fallThrough
  | .addByte x kk => (m.set x (m.v x + kk)).fallThrough
  | .combine operation x y => m.combine op operation x y
  | .setIndex target => (m.setIndex target).fallThrough
  | .random x kk =>
    let (byte, random) := m.random.next
    ({ m with random }.set x (byte &&& kk)).fallThrough
  | .draw x y rows => m.draw x y rows
  | .readDelay x => (m.set x (UInt8.ofNat m.timers.delay)).fallThrough
  | .awaitKey x => m.awaitKey op x
  | .setDelay x => { m with timers := m.timers.setDelay (m.v x).toNat }.fallThrough
  | .setSound x => { m with timers := m.timers.setSound (m.v x).toNat }.fallThrough
  | .addIndex x => (m.setIndex (m.index + (m.v x).toNat)).fallThrough
  | .pointGlyph x => (m.setIndex (Glyph.address (m.v x).toNat)).fallThrough
  | .storeDigits x => m.writeBlock (decimalDigits (m.v x))
  | .store x => m.writeBlock (m.processor.low x)
  | .restore x =>
    match m.memory.readBlock m.index (x + 1 : Nat) with
    | .error fault => m.stopped fault
    | .ok values => { m with processor := m.processor.setLow values }.fallThrough
  | .skipWord kind => m.skipWord op kind

/-- What a word asks of the display. A sprite that cannot be read is refused before the display
is reached. -/
def request? (m : Machine) (op : Fetched) : Option Display.Request :=
  match op.word.decode with
  | .clear => some .clear
  | .selectMode mode => some (.selectMode mode)
  | .draw x y rows =>
    match m.memory.readBlock m.index rows with
    | .ok sprite => some (.draw (m.v x) (m.v y) sprite)
    | .error _ => none
  | _ => none

/-- A word that asks something of the display does nothing else. -/
theorem execute_of_request? {m : Machine} {op : Fetched} {request : Display.Request}
    (h : m.request? op = some request) : m.execute op = m.present request := by
  unfold request? at h
  split at h
  · next decoded => cases h; simp only [execute, decoded]
  · next mode decoded => cases h; simp only [execute, decoded]
  · next x y rows decoded =>
    split at h
    · next sprite read => cases h; simp only [execute, decoded, draw, read]
    · cases h
  · cases h

/-- The word at the program counter. -/
def fetch (m : Machine) : Except Fault Fetched :=
  match m.memory.fetch m.pc with
  | .error fault => .error fault
  | .ok word => .ok { addr := m.pc, word }

/-- Moves the program counter past the current word. -/
def advance (m : Machine) : Machine := { m with processor := m.processor.advance }

/-- Moves the program counter where an executed word says. The answer is the word itself; a
fault is charged to it. -/
def conclude (op : Fetched) (done : Outcome) : Effect Machine (Except Fault Fetched) :=
  match done.result with
  | .ok none => { state := done.state, result := .ok op, events := done.events }
  | .ok (some target) =>
    { state := done.state.goto target, result := .ok op, events := done.events }
  | .error fault =>
    { state := done.state, result := .error (fault.chargedTo op), events := done.events }

/-- Executes a fetched word, and moves the program counter where it says. -/
def complete (m : Machine) (op : Fetched) : Effect Machine (Except Fault Fetched) :=
  conclude op (m.execute op)

/-- One instruction: fetch, advance, complete. A fetch that fails changes nothing and is
charged to the program counter. -/
def step (m : Machine) : Effect Machine (Except Fault Fetched) :=
  match m.fetch with
  | .error fault => { state := m, result := .error fault }
  | .ok op => m.advance.complete op

end Machine

end ChipEight
