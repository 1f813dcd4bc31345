import ChipEight.Machine
import ChipEight.SpeedMeter

/-!
# The console

A console is a machine with what a host needs around it: a clock that turns host time into
timer ticks, a meter for the speed of execution, the count of executed instructions and the
record of the fault that ended the last run. It has no thread and no notion of running; the
engine adds those.

Loading a program and restarting both end in `Console.reset`, which brings everything that
a program can change back to where a new console starts. Three things outlive it: the
random source, the note that the doubtful operand order has been told, and the debug mode.
-/

namespace ChipEight

/-- A tenth, as near as a binary number comes to it. -/
def Options.tenth : Binary64 := { significand := 7205759403792794, exponent := -56 }

example : Binary64.ofDecimal? false 1 (-1) = some Options.tenth := by decide +kernel

/-- A thousandth, as near as a binary number comes to it. -/
def Options.thousandth : Binary64 := { significand := 4611686018427388, exponent := -62 }

example : Binary64.ofDecimal? false 1 (-3) = some Options.thousandth := by decide +kernel

/-- The choices a console is built with. -/
structure Options where
  /-- Whether the engine pauses before each instruction from the start. -/
  debugMode : Bool := false
  /-- How long such a pause lasts, in seconds. -/
  debugDelay : Number := .binary Options.tenth
  /-- How long a wait for a key lasts before it looks for one again, in seconds. -/
  keyPoll : Number := .binary Options.thousandth
  /-- How long the engine is given to end, in seconds. -/
  stopTimeout : Number := .binary .one
  seed : Option Int := none
  /-- The convention for `Operation.subtractOther`. -/
  reversed : Bool := false
  /-- How many notes about skipped words are kept; `none` keeps all. -/
  diagnosticLimit : Option Nat := some 256
deriving Repr

/-- A machine with its clock, its meter and its records. -/
structure Console where
  /-- The choices it was built with. -/
  options : Options
  /-- Whether the engine pauses before each instruction. -/
  debugMode : Bool
  /-- What instructions work on. -/
  machine : Machine
  /-- Turns host time into ticks. -/
  clock : TickClock := {}
  /-- Measures the speed of execution. -/
  meter : SpeedMeter := {}
  /-- Instructions executed since the last load or restart. -/
  executed : Nat := 0
  /-- The fault that ended the last run, if one did. -/
  fault : Option Fault := none
  loaded : Bool := false

namespace Console

/-- A new console. Without a seed the random source is the one of seed zero. -/
def ofOptions (options : Options) : Console where
  options := options
  debugMode := options.debugMode
  machine :=
    { random := RandomSource.ofSeed (options.seed.getD 0)
      diagnostics := { limit := options.diagnosticLimit }
      reversed := options.reversed }

/-- The machine as a program finds it: the image of the program in memory, everything else
blank. A program that was loaded always has room again; memory that never held one keeps
its content. -/
def resetMachine (m : Machine) : Effect Machine Unit :=
  let display := m.display.reset
  { state :=
      { m with
        processor := {}
        timers := {}
        memory := match m.memory.reload with
          | .ok memory => memory
          | .error _ => m.memory
        display := display.state
        keypad := Keypad.released
        diagnostics := m.diagnostics.clear }
    result := ()
    events := display.events }

/-- Brings the console to the state in which the loaded program starts. -/
def reset (c : Console) : Effect Console Unit :=
  let machine := resetMachine c.machine
  { state :=
      { c with
        machine := machine.state
        clock := c.clock.reset
        meter := {}
        executed := 0
        fault := none }
    result := ()
    events := machine.events }

/-- Loads a program and resets the console. A program that does not fit changes nothing. -/
def load (c : Console) (program : List UInt8) : Effect Console (Except Fault Unit) :=
  match c.machine.memory.load program with
  | .error fault => { state := c, result := .error fault }
  | .ok memory =>
    let fresh := { c with machine := { c.machine with memory }, loaded := true }.reset
    { state := fresh.state
      result := .ok ()
      events := fresh.events ++ [.programLoaded program.length] }

/-- Takes over what a completed instruction left behind, and counts it unless it failed. -/
def afterInstruction (c : Console) (done : Effect Machine (Except Fault Fetched)) :
    Effect Console (Except Fault Fetched) :=
  { state :=
      { c with
        machine := done.state
        executed := match done.result with
          | .ok _ => c.executed + 1
          | .error _ => c.executed }
    result := done.result
    events := done.events }

/-- Executes a word that has been fetched and passed already. -/
def complete (c : Console) (op : Fetched) : Effect Console (Except Fault Fetched) :=
  c.afterInstruction (c.machine.complete op)

/-- Does what a fetched word asks of the display. -/
def present (c : Console) (op : Fetched) (request : Display.Request) :
    Effect Console (Except Fault Fetched) :=
  c.afterInstruction (Machine.conclude op (c.machine.present request))

def step (c : Console) : Effect Console (Except Fault Fetched) :=
  c.afterInstruction c.machine.step

/-- Why host time did not pass for all parts of a console. -/
inductive UpdateFailure where
  /-- The clock cannot count it, and nothing was done. -/
  | refused (refusal : TickClock.Refusal)
  /-- It has passed for the timers, but the rate due is beyond what can be reported. -/
  | unreportable
deriving DecidableEq, Repr

/-- Lets host time pass: over the timers, and if that was possible over the meter. -/
def update (c : Console) (elapsed : Int) : Effect Console (Except UpdateFailure Unit) :=
  let passage := c.clock.pass c.machine.timers elapsed
  let timed :=
    { c with clock := passage.clock, machine := { c.machine with timers := passage.timers } }
  match passage.ticks with
  | .error refusal => { state := timed, result := .error (.refused refusal) }
  | .ok _ =>
    let (meter, reported) := c.meter.update elapsed c.executed
    { state := { timed with meter }
      result := if reported then .ok () else .error .unreportable
      events := if passage.beeped then [.beeped] else [] }

def setKey (c : Console) (key : Int) (pressed : Bool) : Except Keypad.OutOfRange Console :=
  match c.machine.keypad.set key pressed with
  | .error e => .error e
  | .ok keypad => .ok { c with machine := { c.machine with keypad } }

/-- Records that keys are held, up to the first one that is out of range. -/
def holdKeys (c : Console) : List Int → Except Keypad.OutOfRange Console
  | [] => .ok c
  | key :: rest =>
    match c.setKey key true with
    | .error e => .error e
    | .ok c => c.holdKeys rest

def setDebugMode (c : Console) (enabled : Bool) : Console := { c with debugMode := enabled }

end Console

end ChipEight
