import ChipEight.Proofs.Control
import ChipEight.Proofs.Erasure

/-!
# The turns of a thread

Between two instructions a thread that nothing holds back does what a step of its console does:
`Engine.beginInstruction_eq_conclude_step`. What may hold it back is a request to stop, a pause,
a wait for a key and a display that the host holds. A wait for a key that is called off goes
back to its own address and is counted, so that the thread ends as if it had stood before the
wait and one more instruction had been executed: `Engine.stop_of_awaitingKey`.
-/

namespace ChipEight

namespace Console

variable {c : Console} {op : Fetched} {fault : Fault}

theorem step_of_fetch_error (fetched : c.machine.fetch = .error fault) :
    c.step = { state := c, result := .error fault } := by
  rw [step, Machine.step, fetched]
  rfl

theorem step_of_fetch (fetched : c.machine.fetch = .ok op) :
    c.step = ({ c with machine := c.machine.advance } : Console).complete op := by
  rw [step, Machine.step, fetched]
  rfl

end Console

namespace Engine

variable {e : Engine} {op : Fetched} {done : Effect Console (Except Fault Fetched)}

@[simp] theorem tell_nil (e : Engine) : e.tell [] = e := by
  simp [tell]

theorem conclude_of_ok (succeeded : done.result = .ok op) :
    e.conclude done =
      ({ e with console := done.state, activity := .ready } : Engine).tell done.events := by
  simp only [conclude, succeeded]

theorem conclude_of_error {fault : Fault} (failed : done.result = .error fault) :
    e.conclude done =
      (({ e with console := done.state } : Engine).tell done.events).halt fault := by
  simp only [conclude, failed]
  rfl

/-! ## Beginning an instruction -/

theorem waitsForKey_iff : waitsForKey op = true ↔ ∃ x, op.word.decode = .awaitKey x := by
  rw [waitsForKey]
  split
  · next x decoded => exact iff_of_true rfl ⟨x, decoded⟩
  · next other =>
    refine iff_of_false Bool.false_ne_true ?_
    rintro ⟨x, decoded⟩
    exact other x decoded

theorem keyHeld_eq_false_iff : e.keyHeld = false ↔ e.console.machine.keypad.lowest? = none := by
  rw [keyHeld, Option.isSome_eq_false_iff, Option.isNone_iff_eq_none]

/-- The instruction at the program counter waits for a key exactly if it is a wait for a key, no
key is held, and nobody has asked the thread to end. -/
theorem waits_iff (memory : e.console.machine.memory.Intact) :
    e.waits = true ↔ e.console.machine.Fetches ∧
      (∃ x, e.console.machine.word.decode = .awaitKey x) ∧
        e.console.machine.keypad.lowest? = none ∧ e.cancelled = false := by
  by_cases fetches : e.console.machine.Fetches
  · simp only [waits, Machine.fetch_of_fetches memory fetches, Bool.and_eq_true, Bool.not_eq_true',
      waitsForKey_iff, keyHeld_eq_false_iff, fetches, true_and, and_assoc]
    rfl
  · simp only [waits, Machine.fetch_of_not_fetches memory fetches, fetches, false_and,
      Bool.false_eq_true]

theorem beginInstruction_of_fetch (fetched : e.console.machine.fetch = .ok op) :
    e.beginInstruction =
      if waitsForKey op && !e.keyHeld then { e.pass with activity := .awaitingKey op }
      else
        match e.pass.heldUp? op with
        | some request => { e.pass with activity := .atDisplay op request }
        | none => e.pass.complete op := by
  rw [beginInstruction, fetched]
  rfl

/-- Completing a word that has just been passed is a step of the console. -/
theorem complete_pass (fetched : e.console.machine.fetch = .ok op) :
    e.pass.complete op = e.conclude e.console.step := by
  rw [Console.step_of_fetch fetched]
  rfl

/-- A fetch that fails is a step of the console as well. -/
theorem beginInstruction_of_fetch_error {fault : Fault}
    (fetched : e.console.machine.fetch = .error fault) :
    e.beginInstruction = e.conclude e.console.step := by
  rw [beginInstruction, fetched, Console.step_of_fetch_error fetched, conclude_of_error rfl,
    tell_nil]

theorem request?_of_heldUp? {request : Display.Request} (heldUp : e.heldUp? op = some request) :
    e.console.machine.request? op = some request := by
  rw [heldUp?] at heldUp
  split at heldUp
  · exact heldUp
  · cases heldUp

theorem heldUp?_of_free (free : e.displayHeld = false) (op : Fetched) : e.heldUp? op = none := by
  rw [heldUp?, free]
  rfl

/-- An instruction that need not wait and finds the display free is done in one go, and ends the
thread if it fails. -/
theorem beginInstruction_eq_conclude_step (going : e.cancelled = false)
    (free : e.displayHeld = false) (awake : e.waits = false) :
    e.beginInstruction = e.conclude e.console.step := by
  cases fetched : e.console.machine.fetch with
  | error fault => exact beginInstruction_of_fetch_error fetched
  | ok op =>
    simp only [waits, fetched, going, Bool.not_false, Bool.and_true] at awake
    have unheld : e.pass.heldUp? op = none := heldUp?_of_free free op
    rw [beginInstruction_of_fetch fetched, awake, if_neg Bool.false_ne_true, unheld]
    exact complete_pass fetched

/-- An instruction that waits for a key has been passed when the wait begins. -/
theorem beginInstruction_of_waits (fetched : e.console.machine.fetch = .ok op)
    (waiting : e.waits = true) :
    e.beginInstruction = { e.pass with activity := .awaitingKey op } := by
  simp only [waits, fetched, Bool.and_eq_true] at waiting
  rw [beginInstruction_of_fetch fetched, if_pos (Bool.and_eq_true_iff.mpr waiting.1)]

/-- A thread that nobody has asked to end and that need not pause begins the next instruction. -/
theorem turn_of_ready (ready : e.activity = .ready) (going : e.cancelled = false)
    (unpaused : e.pause = .nothing) : e.turn = e.beginInstruction := by
  simp only [turn, ready, proceed, going, Bool.false_eq_true, if_false, unpaused]

/-! ## Calling off a wait for a key -/

/-- A console that went back to an instruction it had passed, and counted it. -/
def withdrawn (c : Console) (op : Fetched) : Console :=
  { c with machine := c.machine.goto op.addr, executed := c.executed + 1 }

/-- Without a key a wait is completed by going back to it. -/
theorem complete_of_awaitKey (waiting : waitsForKey op = true) (released : e.keyHeld = false) :
    e.complete op =
      ({ e with console := withdrawn e.console op, activity := .ready } : Engine).tell
        [.keyAwaited] := by
  obtain ⟨x, decoded⟩ := waitsForKey_iff.mp waiting
  have none := keyHeld_eq_false_iff.mp released
  have executed : e.console.machine.execute op =
      e.console.machine.redirect op.addr [.keyAwaited] := by
    simp only [Machine.execute, decoded, Machine.awaitKey, none]
  rw [complete, Console.complete, Machine.complete, executed]
  rfl

theorem settle_succ (busy : e.atRest = false) (turns : Nat) :
    e.settle (turns + 1) = e.turn.settle turns := by
  rw [settle, busy, if_neg Bool.false_ne_true]

theorem turn_of_ready_of_cancelled (ready : e.activity = .ready) (asked : e.cancelled = true) :
    e.turn = e.finish := by
  simp only [turn, ready, proceed, asked, if_true]

theorem atRest_of_ready (ready : e.activity = .ready) : e.atRest = false := by
  simp only [atRest, ready]

/-- A wait for a key that is called off ends the thread in front of the wait. -/
theorem stop_of_awaitingKey (doing : e.activity = .awaitingKey op)
    (waiting : waitsForKey op = true) (released : e.keyHeld = false) :
    e.stop =
      ({ e.requestStop with
        console := withdrawn e.console op
        phase := .stopped
        activity := .ended } : Engine).tell
          [.keyAwaited, .engineStopped (e.console.executed + 1)] := by
  have off : e.requestStop.turn = e.requestStop.complete op := by
    simp only [turn, activity_requestStop, doing, cancelled_requestStop, Bool.or_true, if_true]
  have busy : e.requestStop.atRest = false := by
    simp only [atRest, activity_requestStop, doing, cancelled_requestStop, Bool.not_true,
      Bool.and_false, Bool.false_and]
  have unheld : e.requestStop.keyHeld = false := released
  have back := complete_of_awaitKey waiting unheld
  rw [stop, settle_succ busy, off, back, settle_succ (atRest_of_ready rfl),
    turn_of_ready_of_cancelled rfl rfl, settle]
  simp [finish, tell, requestStop, withdrawn]

/-! ## What a thread does first -/

/-- In front of a wait for a key it begins the wait and rests in it. -/
theorem settle_of_waits (ready : e.activity = .ready) (going : e.cancelled = false)
    (unpaused : e.pause = .nothing) (polls : e.breaksOff = false)
    (fetched : e.console.machine.fetch = .ok op) (waits : e.waits = true) (turns : Nat) :
    e.settle (turns + 1) = { e.pass with activity := .awaitingKey op } := by
  have released : (!e.keyHeld && !e.cancelled && !e.breaksOff) = true := by
    simp only [Engine.waits, fetched, Bool.and_eq_true] at waits
    rw [waits.1.2, waits.2, polls]
    rfl
  have resting : ({ e.pass with activity := .awaitingKey op } : Engine).atRest = true := released
  rw [settle_succ (atRest_of_ready ready), turn_of_ready ready going unpaused,
    beginInstruction_of_waits fetched waits, settle_of_atRest resting]

/-- While a key is held it does not wait for one. -/
theorem settle_of_keyHeld (ready : e.activity = .ready) (going : e.cancelled = false)
    (unpaused : e.pause = .nothing) (fetched : e.console.machine.fetch = .ok op)
    (held : e.keyHeld = true) (free : e.displayHeld = false) (turns : Nat) :
    e.settle (turns + 1) = (e.pass.complete op).settle turns := by
  have unheld : e.pass.heldUp? op = none := heldUp?_of_free free op
  rw [settle_succ (atRest_of_ready ready), turn_of_ready ready going unpaused,
    beginInstruction_of_fetch fetched, held, Bool.not_true, Bool.and_false,
    if_neg Bool.false_ne_true, unheld]

/-- In debug mode it pauses. -/
theorem settle_of_pause (ready : e.activity = .ready) (going : e.cancelled = false)
    (pauses : e.pause = .ends) (turns : Nat) :
    e.settle (turns + 1) = { e with activity := .paused } := by
  have turned : e.turn = { e with activity := .paused } := by
    simp only [turn, ready, proceed, going, Bool.false_eq_true, if_false, pauses]
  have resting : ({ e with activity := .paused } : Engine).atRest = true := by
    simp only [atRest, going, Bool.not_false]
  rw [settle_succ (atRest_of_ready ready), turned, settle_of_atRest resting]

end Engine

end ChipEight
