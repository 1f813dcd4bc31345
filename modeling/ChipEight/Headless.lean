import ChipEight.Console

/-!
# Headless runs

A headless run loads a program into a new console and steps it with a fixed set of keys
held: up to a number of steps, until a fault, or until the program parks. A program is
parked when an instruction leaves the program counter on its own address. With nobody to
press a key that is true of a wait without a key as well as of a jump to itself.
-/

namespace ChipEight

/-- What a headless run has come to. -/
structure HeadlessRun where
  /-- The console as the run left it. -/
  console : Console
  /-- The number of instructions that succeeded. -/
  steps : Nat := 0
  /-- Whether the run ended before its limit. -/
  halted : Bool := false
  /-- The fault that ended it. -/
  fault : Option Fault := none
  /-- What was told on the way. -/
  events : Array Event := #[]

namespace HeadlessRun

/-- Continues a run for at most the given number of steps. -/
def advance (run : HeadlessRun) : Nat → HeadlessRun
  | 0 => run
  | limit + 1 =>
    let done := run.console.step
    let events := run.events ++ done.events
    match done.result with
    | .error fault =>
      { run with console := done.state, halted := true, fault := some fault, events }
    | .ok op =>
      let run := { run with console := done.state, steps := run.steps + 1, events }
      if done.state.machine.pc = op.addr then { run with halted := true }
      else run.advance limit

/-- Runs a program with keys held. A program that does not fit ends the run before the keys
are looked at. -/
def ofProgram (program : List UInt8) (options : Options) (keys : List Int) (limit : Int) :
    Except Keypad.OutOfRange HeadlessRun :=
  let loaded := (Console.ofOptions options).load program
  match loaded.result with
  | .error fault => .ok { console := loaded.state, halted := true, fault := some fault }
  | .ok () =>
    match loaded.state.holdKeys keys with
    | .error e => .error e
    | .ok console =>
      .ok (({ console, events := loaded.events.toArray } : HeadlessRun).advance limit.toNat)

end HeadlessRun

end ChipEight
