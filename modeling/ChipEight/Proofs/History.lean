import ChipEight.Engine

/-!
# Histories

A history is a list of operations, carried out one after the other on one engine. The host
loads, starts, stops, restarts, holds the display and lets it go, presses keys and lets time
pass, and between any two of these the thread may take as many turns as it likes: a turn is
an operation like the others, and so is the end of a pause. What is proved for every history
therefore holds for every order in which host and thread may meet, and for every pace of the
clocks.

A host may also execute instructions itself while no thread does. Such an instruction waits
for a key just as a thread would, so that it comes to nothing for as long as no key is held
and nothing has called the wait off. If the wait cannot be measured it breaks off, and the
host is past the instruction.
-/

namespace ChipEight

instance decidableEq_except {ε α : Type} [DecidableEq ε] [DecidableEq α] :
    DecidableEq (Except ε α)
  | .ok a, .ok b => decidable_of_iff (a = b) (by rw [Except.ok.injEq])
  | .error e, .error f => decidable_of_iff (e = f) (by rw [Except.error.injEq])
  | .ok _, .error _ => isFalse (fun e => by cases e)
  | .error _, .ok _ => isFalse (fun e => by cases e)

namespace Console

/-- What a host does with a console. -/
inductive Action where
  | step
  | update (elapsed : Int)
  | setKey (key : Int) (pressed : Bool)
deriving DecidableEq, Repr

/-- What a host is answered. -/
inductive Answer where
  | stepped (result : Except Fault Fetched)
  /-- An instruction waited for a key, for a time that cannot be measured. -/
  | brokenOff
  | updated (result : Except UpdateFailure Unit)
  | keySet (result : Except Keypad.OutOfRange Unit)
deriving DecidableEq

/-- Does what the host asks of a console. -/
def act (c : Console) : Action → Effect Console Answer
  | .step =>
    let done := c.step
    { state := done.state, result := .stepped done.result, events := done.events }
  | .update elapsed =>
    let done := c.update elapsed
    { state := done.state, result := .updated done.result, events := done.events }
  | .setKey key pressed =>
    match c.setKey key pressed with
    | .error refusal => { state := c, result := .keySet (.error refusal) }
    | .ok next => { state := next, result := .keySet (.ok ()) }

end Console

namespace Engine

/-- An instruction executed now would wait for a key. -/
def waits (e : Engine) : Bool :=
  match e.console.machine.fetch with
  | .ok op => waitsForKey op && !e.keyHeld && !e.cancelled
  | .error _ => false

/-- The next word is passed, and nothing else of it is done. -/
def pass (e : Engine) : Engine :=
  { e with console := { e.console with machine := e.console.machine.advance } }

/-- The actions that have to wait: an instruction, while the thread is alive or a key is
missing. -/
def withholds (e : Engine) : Console.Action → Bool
  | .step => e.activity ≠ .ended || e.waits && !e.breaksOff
  | _ => false

/-- The actions that break off in a wait for a key. -/
def breaksOffAt (e : Engine) : Console.Action → Bool
  | .step => e.waits && e.breaksOff
  | _ => false

/-- Does what the host asks of the console. An action that has to wait is not answered. -/
def act (e : Engine) (action : Console.Action) : Engine × Option Console.Answer :=
  if e.withholds action then (e, none)
  else if e.breaksOffAt action then (e.pass.tell [.keyAwaited], some .brokenOff)
  else
    let done := e.console.act action
    ({ e with console := done.state }.tell done.events, some done.result)

/-- Acts in order, with the answers in the same order. -/
def acts (e : Engine) : List Console.Action → Engine × List (Option Console.Answer)
  | [] => (e, [])
  | action :: rest =>
    let done := e.act action
    let last := done.1.acts rest
    (last.1, done.2 :: last.2)

/-- The host executes an instruction only while there is no thread. -/
theorem activity_of_not_withholds {e : Engine} (free : ¬ e.withholds .step = true) :
    e.activity = .ended := by
  simp only [withholds, Bool.or_eq_true, decide_eq_true_eq] at free
  exact Decidable.not_not.mp fun alive => free (.inl alive)

theorem waits_of_breaksOffAt {e : Engine} (broken : e.breaksOffAt .step = true) :
    e.waits = true := (Bool.and_eq_true_iff.mp broken).1

theorem fetch_of_waits {e : Engine} (waits : e.waits = true) :
    ∃ op, e.console.machine.fetch = .ok op ∧ waitsForKey op = true := by
  rw [Engine.waits] at waits
  split at waits
  · next op fetched =>
    simp only [Bool.and_eq_true] at waits
    exact ⟨op, fetched, waits.1.1⟩
  · cases waits

/-- What the host asks of the console is done by the console, or breaks off in a wait for a key, or
is not done. -/
theorem of_act {e : Engine} {P : Engine → Prop} {action : Console.Action} (kept : P e)
    (broken : e.activity = .ended → e.waits = true → P (e.pass.tell [.keyAwaited]))
    (done : e.withholds action = false → P (({ e with
      console := (e.console.act action).state } : Engine).tell (e.console.act action).events)) :
    P (e.act action).1 := by
  rw [Engine.act]
  split
  · exact kept
  · next free =>
    split
    · next breaks =>
      cases action with
      | step => exact broken (activity_of_not_withholds free) (waits_of_breaksOffAt breaks)
      | update | setKey => cases breaks
    · exact done (eq_false_of_ne_true free)

theorem act_update (e : Engine) (elapsed : Int) :
    e.act (.update elapsed) = ((e.update elapsed).1, some (.updated (e.update elapsed).2)) := rfl

theorem act_setKey (e : Engine) (key : Int) (pressed : Bool) :
    e.act (.setKey key pressed) =
      ((e.setKey key pressed).1, some (.keySet (e.setKey key pressed).2)) := by
  cases set : e.console.setKey key pressed with
  | error refusal => simp [act, withholds, breaksOffAt, Console.act, setKey, tell, set]
  | ok next => simp [act, withholds, breaksOffAt, Console.act, setKey, tell, set]

/-- A step in a history of operations on an engine. Where the host waits for the thread to
end, `turns` is how many turns it takes meanwhile. -/
inductive Operation where
  /-- Ends the thread and loads a program. -/
  | load (program : List UInt8) (turns : Nat := 2)
  | start
  | requestStop
  /-- Asks the thread to end and insists on it. -/
  | stopAndWait (turns : Nat := 2)
  /-- Ends the thread, resets the console and starts again. -/
  | restart (turns : Nat := 2)
  /-- Looks whether the thread has ended. -/
  | observe
  | act (action : Console.Action)
  /-- Turns the pauses before instructions on or off. -/
  | setDebugMode (enabled : Bool)
  | holdDisplay
  | releaseDisplay
  /-- Registers a listener for changes of the display mode. -/
  | addListener (name : Text)
  /-- The thread takes a turn. -/
  | turn
  /-- The pause of the thread is over. -/
  | wake

/-- What an operation makes of an engine. -/
def perform (e : Engine) : Operation → Engine
  | .load program turns => (e.load program turns).1
  | .start => e.start.1
  | .requestStop => e.requestStop
  | .stopAndWait turns => (e.stopAndWait turns).1
  | .restart turns => (e.restart turns).1
  | .observe => e.observe
  | .act action => (e.act action).1
  | .setDebugMode enabled => e.setDebugMode enabled
  | .holdDisplay => e.holdDisplay
  | .releaseDisplay => e.releaseDisplay
  | .addListener name => e.addListener name
  | .turn => e.turn
  | .wake => e.wake

/-- What a history makes of an engine. -/
def run (e : Engine) (history : List Operation) : Engine := history.foldl perform e

theorem run_cons (e : Engine) (operation : Operation) (history : List Operation) :
    e.run (operation :: history) = (e.perform operation).run history := rfl

/-- How many operations of a history come under a description of engine and operation. -/
def tally (e : Engine) (counts : Engine → Operation → Bool) : List Operation → Nat
  | [] => 0
  | operation :: rest => (counts e operation).toNat + (e.perform operation).tally counts rest

theorem run_append (e : Engine) (history later : List Operation) :
    e.run (history ++ later) = (e.run history).run later :=
  List.foldl_append

/-- What holds initially and survives every operation holds after every history. -/
theorem run_induction {P : Engine → Prop} (kept : ∀ e operation, P e → P (e.perform operation))
    {e : Engine} (initial : P e) (history : List Operation) : P (e.run history) := by
  induction history generalizing e with
  | nil => exact initial
  | cons operation history ih => exact ih (kept e operation initial)

/-- What holds before a thread takes its turns and survives each of them holds after them. -/
theorem of_settle {P : Engine → Prop}
    (kept : ∀ {next : Engine}, next.atRest = false → P next → P next.turn) {e : Engine} (h : P e)
    (turns : Nat) : P (e.settle turns) := by
  induction turns generalizing e with
  | zero => exact h
  | succ turns ih =>
    rw [settle]
    split
    · exact h
    · next busy => exact ih (kept (Bool.eq_false_iff.mpr busy) h)

/-- A quantity that grows by one with just the operations of a kind has grown by as many as there
were. -/
theorem grown_run {P : Engine → Prop} (kept : ∀ e operation, P e → P (e.perform operation))
    {quantity : Engine → Nat} {counts : Engine → Operation → Bool}
    (grows : ∀ e operation, P e →
      quantity (e.perform operation) = quantity e + (counts e operation).toNat)
    {e : Engine} (initial : P e) (history : List Operation) :
    quantity (e.run history) = quantity e + e.tally counts history := by
  induction history generalizing e with
  | nil => rfl
  | cons operation history ih =>
    rw [run_cons, ih (kept e operation initial), grows e operation initial, tally, Nat.add_assoc]

end Engine

end ChipEight
