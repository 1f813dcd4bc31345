import ChipEight.Console

/-!
# The engine

The engine runs a console on a thread of its own, while the host loads, starts, stops,
presses keys and lets time pass. Here the thread is a value. `Engine.turn` is everything it
does between two moments at which the host could notice a difference: one instruction, or
one step of its lifecycle. A thread that has nothing to do until the host acts is at rest:
it has ended, it waits for a key, it pauses in debug mode, or it is held up at the display.

Host operations change the engine and leave the thread where it is. `Engine.settle` then
lets it take turns until it rests. Programs that never rest exist, so settling is given a
number of turns; an engine that does rest is not changed by further turns. That a pause has
lasted its time is no turn, since it depends on a clock: it is `Engine.wake`.

The host may hold the display, for instance while it renders. An instruction that asks
something of the display then stops short: the program counter is past it already, its
operands are read, nothing else of it has happened, and it is completed once the display is
free. A request to stop is seen between two instructions and by a wait for a key, never in
the middle of an instruction.

A host that insists on the end of a thread waits for it only so long. How many turns the
thread takes meanwhile is a matter of clocks, so `Engine.stopAndWait` is told their number.
The host meets a fault when the time is over. A time that cannot be measured is an error
whenever there is a thread to wait for, even one that has ended, unless its end has been
seen before; a thread that is alive is then given up on, and from then on the host goes on
as if it had ended.
-/

namespace ChipEight

/-- What the thread of an engine is doing. -/
inductive Engine.Activity where
  /-- There is no thread, or it has ended. -/
  | ended
  /-- Between two instructions. -/
  | ready
  /-- In the pause before an instruction. -/
  | paused
  /-- In a wait for a key, past the instruction that waits. -/
  | awaitingKey (op : Fetched)
  /-- Held up at the display, past the instruction that asks something of it. -/
  | atDisplay (op : Fetched) (request : Display.Request)
deriving DecidableEq, Repr

/-- The lifecycle of an engine as the host sees it. -/
inductive Engine.Phase where
  | stopped
  | running
  /-- A stop has been requested and not yet been seen. -/
  | stopping
deriving DecidableEq, Repr

/-- The word a host shows for a phase. -/
def Engine.Phase.name : Engine.Phase → String
  | .stopped => "stopped"
  | .running => "running"
  | .stopping => "stopping"

/-- A console with a thread that runs it. -/
structure Engine where
  /-- What is run. -/
  console : Console
  /-- The lifecycle as the host sees it. -/
  phase : Engine.Phase := .stopped
  /-- Whether a stop is requested. -/
  cancelled : Bool := false
  activity : Engine.Activity := .ended
  /-- Whether the loaded program has been started. -/
  hasRun : Bool := false
  /-- Whether the host holds the display. -/
  displayHeld : Bool := false
  /-- Whether the host has given up on the thread. -/
  abandoned : Bool := false
  /-- Whether the host has looked and found the last thread ended, or there was none. -/
  endSeen : Bool := true
  /-- Everything that was told, in order. -/
  journal : Array Event := #[]

namespace Engine

/-- A new engine, with nothing loaded. -/
def ofOptions (options : Options) : Engine := { console := Console.ofOptions options }

/-- Adds to the journal. -/
def tell (e : Engine) (events : List Event) : Engine := { e with journal := e.journal ++ events }

/-! ## The thread -/

def finish (e : Engine) : Engine :=
  { e with phase := .stopped, activity := .ended }.tell [.engineStopped e.console.executed]

/-- The thread ends by a fault, which the console records. -/
def halt (e : Engine) (fault : Fault) : Engine :=
  ({ e with console := { e.console with fault := some fault } }.tell
    [.engineHalted fault]).finish

/-- Takes over what a completed instruction left behind. A fault ends the thread. -/
def conclude (e : Engine) (done : Effect Console (Except Fault Fetched)) : Engine :=
  let e := { e with console := done.state, activity := .ready }.tell done.events
  match done.result with
  | .ok _ => e
  | .error fault => e.halt fault

def complete (e : Engine) (op : Fetched) : Engine := e.conclude (e.console.complete op)

/-- Completes a fetched instruction that was held up at the display. What it asks there was
settled before. -/
def present (e : Engine) (op : Fetched) (request : Display.Request) : Engine :=
  e.conclude (e.console.present op request)

@[simp] theorem activity_finish (e : Engine) : e.finish.activity = .ended := rfl

@[simp] theorem activity_halt (e : Engine) (fault : Fault) : (e.halt fault).activity = .ended :=
  rfl

@[simp] theorem cancelled_conclude (e : Engine) (done : Effect Console (Except Fault Fetched)) :
    (e.conclude done).cancelled = e.cancelled := by
  simp only [conclude]
  split <;> rfl

/-- Completing an instruction leaves the thread between two instructions, or ends it. -/
theorem activity_conclude (e : Engine) (done : Effect Console (Except Fault Fetched)) :
    (e.conclude done).activity = .ready ∨ (e.conclude done).activity = .ended := by
  simp only [conclude]
  split
  · exact .inl rfl
  · exact .inr rfl

/-- An instruction that was held up does what it would have done at once. -/
theorem present_eq_complete {e : Engine} {op : Fetched} {request : Display.Request}
    (h : e.console.machine.request? op = some request) : e.present op request = e.complete op := by
  simp only [present, complete, Console.present, Console.complete, Machine.complete,
    Machine.execute_of_request? h]

/-- A word that waits for a key. -/
def waitsForKey (op : Fetched) : Bool :=
  match op.word.decode with
  | .awaitKey _ => true
  | _ => false

def keyHeld (e : Engine) : Bool := e.console.machine.keypad.lowest?.isSome

/-- What a word asks of the display while the host holds it. -/
def heldUp? (e : Engine) (op : Fetched) : Option Display.Request :=
  if e.displayHeld then e.console.machine.request? op else none

/-- Begins the next instruction: it is fetched and passed, and completed unless it has to
wait. -/
def beginInstruction (e : Engine) : Engine :=
  match e.console.machine.fetch with
  | .error fault => e.halt fault
  | .ok op =>
    let passed := { e with console := { e.console with machine := e.console.machine.advance } }
    if waitsForKey op && !passed.keyHeld then { passed with activity := .awaitingKey op }
    else
      match passed.heldUp? op with
      | some request => { passed with activity := .atDisplay op request }
      | none => passed.complete op

/-- The pause before the next instruction, of which there is none unless in debug mode. -/
def pause (e : Engine) : Number.Wait :=
  if e.console.debugMode then e.console.options.debugDelay.wait else .nothing

/-- What the thread does between two instructions: it ends if it was asked to, else pauses
or begins the next one. A pause outlasts whatever the host does except a stop; one of a
length that cannot be measured ends the thread. -/
def proceed (e : Engine) : Engine :=
  if e.cancelled then e.finish
  else
    match e.pause with
    | .ends => { e with activity := .paused }
    | .tooLong => e.finish
    | .nothing => e.beginInstruction
    | .undefined => e.beginInstruction

/-- A wait for a key ends the thread if the time until it looks again cannot be measured. -/
def breaksOff (e : Engine) : Bool := e.console.options.keyPoll.wait = .tooLong

/-- What the thread does next. An engine at rest stays as it is. -/
def turn (e : Engine) : Engine :=
  match e.activity with
  | .ended => e
  | .ready => e.proceed
  | .paused => if e.cancelled then e.finish else e
  | .awaitingKey op =>
    if e.keyHeld || e.cancelled then e.complete op
    else if e.breaksOff then (e.tell [.keyAwaited]).finish
    else e
  | .atDisplay op request => if e.displayHeld then e else e.present op request

/-- The pause before an instruction has lasted its time, and the instruction begins. -/
def wake (e : Engine) : Engine :=
  if e.activity = .paused ∧ e.cancelled = false then e.beginInstruction else e

/-- The thread has nothing to do until the host acts. -/
def atRest (e : Engine) : Bool :=
  match e.activity with
  | .ended => true
  | .ready => false
  | .paused => !e.cancelled
  | .awaitingKey _ => !e.keyHeld && !e.cancelled && !e.breaksOff
  | .atDisplay _ _ => e.displayHeld

/-- Lets the thread take turns until it rests, at most the given number of them. -/
def settle (e : Engine) : Nat → Engine
  | 0 => e
  | turns + 1 => if e.atRest then e else e.turn.settle turns

theorem turn_of_atRest {e : Engine} (h : e.atRest = true) : e.turn = e := by
  unfold atRest at h
  unfold turn
  split at h <;> simp_all

theorem settle_of_atRest {e : Engine} (h : e.atRest = true) (turns : Nat) :
    e.settle turns = e := by
  cases turns with
  | zero => rfl
  | succ turns => simp [settle, h]

/-- Settling may be interrupted at any turn and resumed. -/
theorem settle_add (e : Engine) (m n : Nat) : e.settle (m + n) = (e.settle m).settle n := by
  induction m generalizing e with
  | zero => simp [settle]
  | succ m ih =>
    rw [Nat.succ_add, settle, settle]
    split
    · next h => rw [settle_of_atRest h]
    · exact ih e.turn

/-- Once an engine has come to rest, further turns make no difference. -/
theorem settle_of_le {e : Engine} {m n : Nat} (h : (e.settle m).atRest = true) (hmn : m ≤ n) :
    e.settle n = e.settle m := by
  obtain ⟨k, rfl⟩ := Nat.le.dest hmn
  rw [settle_add, settle_of_atRest h]

/-! ## Host operations -/

/-- Whether the host finds no thread alive: it has ended, or never began, or was given up
on. -/
def join (e : Engine) : Bool := e.abandoned || e.activity = .ended

/-- The host looks whether the thread has ended, and remembers it if so. -/
def observe (e : Engine) : Engine := { e with endSeen := e.endSeen || e.activity = .ended }

/-- Whether there is no thread to wait for: its end has been seen, or it was given up on. -/
def dismissed (e : Engine) : Bool := e.abandoned || e.endSeen && e.activity = .ended

def requestStop (e : Engine) : Engine :=
  { e with
    cancelled := true
    phase := if e.phase = .running then .stopping else e.phase }

/-- Asks the thread to end and lets it. A thread that has been asked to end takes at most two
turns: one to complete an instruction it is in the middle of, and one to end. -/
def stop (e : Engine) : Engine := e.requestStop.settle 2

@[simp] theorem cancelled_requestStop (e : Engine) : e.requestStop.cancelled = true := rfl

@[simp] theorem activity_requestStop (e : Engine) : e.requestStop.activity = e.activity := rfl

/-- A thread that was asked to end while it completes an instruction ends right after it. -/
theorem atRest_settle_conclude {e : Engine} (h : e.cancelled = true)
    (done : Effect Console (Except Fault Fetched)) :
    ((e.conclude done).settle 1).atRest = true := by
  rcases activity_conclude e done with ready | ended
  · simp [settle, turn, proceed, ready, h, atRest]
  · have idle : (e.conclude done).atRest = true := by simp [atRest, ended]
    rw [settle_of_atRest idle, idle]

/-- Two turns are enough for any thread to see a request to stop. -/
theorem atRest_stop (e : Engine) : e.stop.atRest = true := by
  have asked := cancelled_requestStop e
  unfold stop
  generalize e.requestStop = e at asked
  by_cases idle : e.atRest = true
  · rw [settle_of_atRest idle, idle]
  · rw [settle, if_neg idle]
    cases doing : e.activity with
    | ended => simp [atRest, doing] at idle
    | ready => simp [settle, turn, proceed, doing, asked, atRest]
    | paused => simp [settle, turn, doing, asked, atRest]
    | awaitingKey op =>
      have turn_eq : e.turn = e.complete op := by simp [turn, doing, asked]
      rw [turn_eq]
      exact atRest_settle_conclude asked _
    | atDisplay op request =>
      have free : e.displayHeld = false := by simpa [atRest, doing] using idle
      have turn_eq : e.turn = e.present op request := by simp [turn, doing, free]
      rw [turn_eq]
      exact atRest_settle_conclude asked _

/-- The fault of a thread that did not end. -/
def stuckFault (e : Engine) : Fault :=
  { cause := .engineStuck e.console.options.stopTimeout, addr := e.console.machine.pc }

/-- Why a thread could not be waited for, or what was to follow its end not be done. -/
inductive Failure where
  | fault (fault : Fault)
  /-- No clock measures the time to wait. -/
  | unmeasurable (patience : Number)
deriving DecidableEq, Repr

/-- Gives up on the thread. It is no longer waited for, though it still ends when it can. -/
def abandon (e : Engine) : Engine := { e with abandoned := true }

/-- How many of the given turns the thread takes while the host waits: none if the host does
not wait at all. -/
def turnsAwaited (e : Engine) (turns : Nat) : Nat :=
  if e.console.options.stopTimeout.wait = .ends then turns else 0

/-- Asks the thread to end and insists on it. While the host waits the thread takes at most
the given number of turns. -/
def stopAndWait (e : Engine) (turns : Nat := 2) : Engine × Except Failure Unit :=
  let patience := e.console.options.stopTimeout
  if e.dismissed then (e.stop, .ok ())
  else if patience.isMeasurable then
    let later := e.requestStop.settle (e.turnsAwaited turns)
    -- The host has seen the end now. With this patience it never asks whether it has.
    if later.activity = .ended then (later, .ok ()) else (later, .error (.fault later.stuckFault))
  else
    (if e.activity = .ended then e.stop else e.stop.abandon, .error (.unmeasurable patience))

/-- Ends the thread and loads a program. Where either is refused the other is not done. -/
def load (e : Engine) (program : List UInt8) (turns : Nat := 2) : Engine × Except Failure Unit :=
  match e.stopAndWait turns with
  | (stopped, .error failure) => (stopped, .error failure)
  | (stopped, .ok ()) =>
    let loaded := stopped.console.load program
    match loaded.result with
    | .error fault => (stopped, .error (.fault fault))
    | .ok () =>
      ({ stopped with console := loaded.state, hasRun := false }.tell loaded.events, .ok ())

/-- Starts a thread on the loaded program. The answer is `false` if one is active. -/
def start (e : Engine) : Engine × Except Fault Bool :=
  if !e.console.loaded then (e, .error { cause := .nothingLoaded, addr := 0 })
  else if e.phase ≠ .stopped || !e.join then (e, .ok false)
  else
    let started :=
      { e with
        cancelled := false, phase := .running, activity := .ready, abandoned := false
        endSeen := false, hasRun := true }
    (started.tell [.engineStarted], .ok true)

/-- Ends the thread, resets the console and starts again. The answer is `false`, and nothing
is done, if the loaded program has not been started yet. -/
def restart (e : Engine) (turns : Nat := 2) : Engine × Except Failure Bool :=
  if !e.hasRun then (e, .ok false)
  else
    match e.stopAndWait turns with
    | (stopped, .error failure) => (stopped, .error failure)
    | (stopped, .ok ()) =>
      let fresh := stopped.console.reset
      let told := fresh.events ++ [Event.engineRestarting]
      let (started, answer) := ({ stopped with console := fresh.state }.tell told).start
      (started, answer.mapError .fault)

def setKey (e : Engine) (key : Int) (pressed : Bool) : Engine × Except Keypad.OutOfRange Unit :=
  match e.console.setKey key pressed with
  | .error refusal => (e, .error refusal)
  | .ok console => ({ e with console }, .ok ())

def update (e : Engine) (elapsed : Int) : Engine × Except Console.UpdateFailure Unit :=
  let done := e.console.update elapsed
  ({ e with console := done.state }.tell done.events, done.result)

/-- Turns the pauses before instructions on or off. A pause that has begun goes on. -/
def setDebugMode (e : Engine) (enabled : Bool) : Engine :=
  { e with console := e.console.setDebugMode enabled }

def holdDisplay (e : Engine) : Engine := { e with displayHeld := true }

def releaseDisplay (e : Engine) : Engine := { e with displayHeld := false }

/-- Registers a listener for changes of the display mode. -/
def addListener (e : Engine) (name : Text) : Engine :=
  let machine := e.console.machine
  { e with
    console :=
      { e.console with machine := { machine with display := machine.display.addListener name } } }

/-- The number of beeps so far. -/
def beeps (e : Engine) : Nat := e.journal.count .beeped

/-- The modes a listener has been told so far, in order. -/
def modesTold (e : Engine) (listener : Text) : List Mode :=
  e.journal.toList.filterMap fun
    | .listenerTold name mode => if name = listener then some mode else none
    | _ => none

end Engine

end ChipEight
