import ChipEight.Diagnostic
import ChipEight.Display.Mode
import ChipEight.Fault

/-!
# Events

What a part of the machine does is its new state; what it tells the outside is a list of
events beside that state. Hosts listen to events: they sound the beep, resize their window,
count and write a journal. No event is ever read back by the machine, so leaving out or
adding a listener cannot change what a program computes.

`Effect` is the shape in which every operation that can tell something answers.
-/

namespace ChipEight

/-- Something the outside is told. -/
inductive Event where
  | screenCleared
  /-- Control was sent to an address. -/
  | jumped (target : Nat)
  | keyAwaited
  | spriteDrawn (rows : Nat) (x y : UInt8)
  /-- The subtraction with doubtful operand order was used, at this address. -/
  | operandOrderDoubtful (addr : Int)
  | wordSkipped (d : Diagnostic)
  | modeChanged (mode : Mode)
  /-- A listener of the display was told the new mode. -/
  | listenerTold (listener : Text) (mode : Mode)
  /-- The sound timer ran out. -/
  | beeped
  /-- A program of this many bytes was loaded. -/
  | programLoaded (length : Nat)
  | engineStarted
  /-- The engine is about to begin again. -/
  | engineRestarting
  /-- The engine ended, having executed this many instructions since the load. -/
  | engineStopped (executed : Nat)
  /-- The engine ended by a fault. -/
  | engineHalted (fault : Fault)
deriving DecidableEq, Repr

namespace Event

/-- How much a journal entry matters. -/
inductive Level where
  | debug
  | info
  | warning
  | error
deriving DecidableEq, Repr

/-- Levels in order of weight. -/
def Level.weight : Level → Nat
  | .debug => 0
  | .info => 1
  | .warning => 2
  | .error => 3

/-- The part of the machine an entry is about. -/
inductive Topic where
  | instructions
  | display
  | timers
  | engine
deriving DecidableEq, Repr

/-- A line of the journal. -/
structure Entry where
  level : Level
  topic : Topic
  text : String
deriving DecidableEq, Repr

/-- An address in a journal text. -/
def shownAddress (addr : Int) : String := "0x" ++ Hex.upper 3 addr

/-- An instruction word in a journal text. -/
def shownWord (w : Word) : String := "0x" ++ Hex.upper 4 w.toNat

/-- The line an event leaves in the journal. Telling a listener leaves none: the mode change
that caused it has its own. -/
def entry? : Event → Option Entry
  | .screenCleared => some ⟨.debug, .instructions, "Cleared screen"⟩
  | .jumped target => some ⟨.debug, .instructions, "Jump to " ++ shownAddress target⟩
  | .keyAwaited => some ⟨.debug, .instructions, "Waiting for key input"⟩
  | .spriteDrawn rows x y =>
    some ⟨.debug, .instructions,
      "Drawing " ++ toString rows ++ " rows at " ++ toString x.toNat ++ ":" ++ toString y.toNat⟩
  | .operandOrderDoubtful addr =>
    some ⟨.warning, .instructions, "SUBN at " ++ shownAddress addr ++
      " uses Vx - Vy operand order; set reverse_subn for Vy - Vx"⟩
  | .wordSkipped d =>
    match d.kind with
    | .unknown =>
      some ⟨.warning, .instructions,
        "Unknown opcode: " ++ shownWord d.word ++ " at " ++ shownAddress d.addr⟩
    | .unsupported =>
      some ⟨.info, .instructions,
        "Unsupported opcode: " ++ shownWord d.word ++ " at " ++ shownAddress d.addr⟩
  | .modeChanged .small => some ⟨.debug, .display, "Display mode changed to SMALL"⟩
  | .modeChanged .big => some ⟨.debug, .display, "Display mode changed to BIG"⟩
  | .listenerTold _ _ => none
  | .beeped => some ⟨.debug, .timers, "Beep"⟩
  | .programLoaded length =>
    some ⟨.info, .engine, "Loaded " ++ toString length ++ " byte program"⟩
  | .engineStarted => some ⟨.info, .engine, "Engine started"⟩
  | .engineRestarting => some ⟨.info, .engine, "Engine restarting"⟩
  | .engineStopped executed =>
    some ⟨.info, .engine, "Engine stopped after " ++ toString executed ++ " instructions"⟩
  | .engineHalted fault =>
    let word := match fault.word with
      | some w => shownWord w
      | none => "-"
    some ⟨.error, .engine, "Engine halted: " ++ fault.cause.message ++
      " (opcode " ++ word ++ " at " ++ shownAddress fault.addr ++ ")"⟩

/-- The journal lines of at least a given level, in order. -/
def journal (least : Level) (events : List Event) : List Entry :=
  (events.filterMap entry?).filter fun e => least.weight ≤ e.level.weight

end Event

/-- What an operation leaves behind: the new state, its answer, and what it told. An answer
that is a failure still comes with a state, because a failing operation may have done part
of its work. -/
structure Effect (σ α : Type) where
  /-- The state afterwards. -/
  state : σ
  /-- The answer. -/
  result : α
  /-- What was told, in order. -/
  events : List Event := []

end ChipEight
