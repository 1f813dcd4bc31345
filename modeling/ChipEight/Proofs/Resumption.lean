import ChipEight.Proofs.Ahead

/-!
# Stopping and starting again

A program that rests in a wait for a key, or in a pause of the debug mode, may be stopped and
started again without noticing. The wait is called off: it goes back to its own address and is
counted. A new thread finds it there and waits again, so that one more instruction has been counted
and nothing else is different. A pause is given up in front of the instruction it delays, and begins
anew in front of the same. So the two engines, stopped and started again or not, stay equal but for
the count whatever is done with both; and a key that is pressed in between ends the wait of the new
thread as it would have ended the one of the old. The main statement is
`Engine.stop_start_transparent`.
-/

namespace ChipEight

namespace Machine

variable {m : Machine} {op : Fetched}

/-- Back in front of a word that still stands there, the word is fetched again. -/
theorem fetch_goto (stands : m.memory.fetch op.addr = .ok op.word) :
    (m.goto op.addr).fetch = .ok op := by
  have read : (m.goto op.addr).memory.fetch (m.goto op.addr).pc = .ok op.word := stands
  rw [fetch, read]
  rfl

/-- Going back to a word and passing it again makes no difference. -/
theorem advance_goto {addr : Int} (low : 0x200 ≤ addr) (high : addr ≤ 0xFFE)
    (passed : m.pc = addr + 2) : (m.goto addr).advance = m := by
  have fetches : (m.goto addr).Fetches := ⟨low, high⟩
  have back : (m.goto addr).pc + 2 = m.pc := passed.symm
  rw [advance_of_fetches fetches, back]
  rfl

end Machine

attribute [ext] Engine

namespace Engine

variable {options : Options} {extra : Nat} {e f : Engine} {op : Fetched}

/-! ## Programs that rest -/

/-- A program that runs, and that nobody has asked to end. -/
structure Runs (e : Engine) : Prop where
  running : e.phase = .running
  going : e.cancelled = false
  kept : e.abandoned = false
  unseen : e.endSeen = false
  begun : e.hasRun = true
  loaded : e.console.loaded = true

theorem Coherent.runs (h : e.Coherent) (running : e.phase = .running) : e.Runs := by
  have alive : e.phase ≠ .stopped := by rw [running]; exact Phase.noConfusion
  obtain ⟨going, kept⟩ := h.running running
  exact ⟨running, going, kept, h.unseen alive, h.begun alive kept, h.loaded (.inl alive)⟩

/-- The program waits for a key in an instruction that still stands where it was fetched, at a
display that is free, and there are no pauses. -/
structure Awaits (e : Engine) (op : Fetched) : Prop extends e.Runs where
  doing : e.activity = .awaitingKey op
  waiting : waitsForKey op = true
  stands : e.console.machine.memory.fetch op.addr = .ok op.word
  low : 0x200 ≤ op.addr
  high : op.addr ≤ 0xFFE
  passed : e.console.machine.pc = op.addr + 2
  free : e.displayHeld = false
  polls : e.breaksOff = false
  unpaused : e.console.debugMode = false

/-- The program pauses, and would do so again. -/
structure Pauses (e : Engine) : Prop extends e.Runs where
  doing : e.activity = .paused
  debug : e.console.debugMode = true
  wait_eq : e.console.options.debugDelay.wait = .ends

/-- A wait for a key in which a thread rests does not break off. -/
theorem breaksOff_of_atRest (doing : e.activity = .awaitingKey op) (resting : e.atRest = true) :
    e.breaksOff = false := by
  rw [atRest, doing, Bool.and_eq_true, Bool.not_eq_true'] at resting
  exact resting.2

/-- The engine with other keys held. -/
def withKeys (e : Engine) (keypad : Keypad) : Engine :=
  { e with console := { e.console with machine := { e.console.machine with keypad } } }

theorem setKey_of_set {keypad : Keypad} {key : Int} {pressed : Bool}
    (set : e.console.machine.keypad.set key pressed = .ok keypad) :
    e.setKey key pressed = (e.withKeys keypad, .ok ()) := by
  simp only [setKey, Console.setKey, set]
  rfl

theorem setKey_of_refused {key : Int} {pressed : Bool} {refusal : Keypad.OutOfRange}
    (refused : e.console.machine.keypad.set key pressed = .error refusal) :
    e.setKey key pressed = (e, .error refusal) := by
  simp only [setKey, Console.setKey, refused]

/-- Whatever becomes of a key, only the keypad is another. -/
theorem setKey_eq (e : Engine) (key : Int) (pressed : Bool) :
    ∃ keypad, (e.setKey key pressed).1 = e.withKeys keypad := by
  cases set : e.console.machine.keypad.set key pressed with
  | error refusal => exact ⟨e.console.machine.keypad, by rw [setKey_of_refused set]; rfl⟩
  | ok keypad => exact ⟨keypad, by rw [setKey_of_set set]⟩

/-- An engine whose thread has ended starts from where it was. -/
theorem start_of_ended (loaded : e.console.loaded = true) (stopped : e.phase = .stopped)
    (ended : e.activity = .ended) : e.start = (e.begun, .ok true) := by
  have joined : e.join = true := by rw [join, decide_eq_true ended, Bool.or_true]
  exact start_eq_ok_true_iff.mpr ⟨⟨loaded, stopped, joined⟩, rfl⟩

/-! ## A wait that is called off -/

/-- The wait is called off, and the thread has ended. -/
def calledOff (e : Engine) (op : Fetched) : Engine :=
  ({ e with
    console := withdrawn e.console op
    phase := .stopped
    cancelled := true
    activity := .ended } : Engine).tell [.keyAwaited, .engineStopped (e.console.executed + 1)]

/-- What is told when a wait is called off and begun again. -/
def wayBack (e : Engine) : List Event :=
  [.keyAwaited, .engineStopped (e.console.executed + 1), .engineStarted]

/-- Keys may be pressed before or after. -/
theorem setKey_calledOff (e : Engine) (op : Fetched) (key : Int) (pressed : Bool) :
    (e.calledOff op).setKey key pressed =
      ((e.setKey key pressed).1.calledOff op, (e.setKey key pressed).2) := by
  have keypad : (e.calledOff op).console.machine.keypad = e.console.machine.keypad := rfl
  simp only [setKey, Console.setKey, keypad]
  cases e.console.machine.keypad.set key pressed <;> rfl

namespace Awaits

theorem atRest_iff (h : e.Awaits op) : e.atRest = true ↔ e.keyHeld = false := by
  simp [atRest, h.doing, h.going, h.polls]

theorem stop_eq (h : e.Awaits op) (released : e.keyHeld = false) : e.stop = e.calledOff op :=
  stop_of_awaitingKey h.doing h.waiting released

theorem withKeys (h : e.Awaits op) (keypad : Keypad) : (e.withKeys keypad).Awaits op :=
  { h with }

theorem setKey (h : e.Awaits op) (key : Int) (pressed : Bool) :
    (e.setKey key pressed).1.Awaits op := by
  obtain ⟨keypad, same⟩ := setKey_eq e key pressed
  rw [same]
  exact h.withKeys keypad

theorem start_calledOff (h : e.Awaits op) :
    (e.calledOff op).start = ((e.calledOff op).begun, .ok true) :=
  start_of_ended h.loaded rfl rfl

theorem fetch_calledOff (h : e.Awaits op) :
    (e.calledOff op).begun.console.machine.fetch = .ok op :=
  Machine.fetch_goto h.stands

/-- Past the wait again, a new thread is where the old one was. -/
theorem pass_calledOff (h : e.Awaits op) :
    (e.calledOff op).begun.pass =
      ({ e.credit 1 with activity := .ready } : Engine).tell e.wayBack := by
  have back : (e.console.machine.goto op.addr).advance = e.console.machine :=
    Machine.advance_goto h.low h.high h.passed
  have console : (e.calledOff op).begun.pass.console = (e.credit 1).console := by
    change ({ withdrawn e.console op with
      machine := (e.console.machine.goto op.addr).advance } : Console) = _
    rw [back]
    rfl
  refine Engine.ext console h.running.symm h.going.symm rfl h.begun.symm rfl h.kept.symm
    h.unseen.symm ?_
  simp [calledOff, Engine.begun, pass, tell, wayBack, credit]

/-- Nothing delays a new thread. -/
theorem pause_calledOff (h : e.Awaits op) : (e.calledOff op).begun.pause = .nothing := by
  have unpaused : (e.calledOff op).begun.console.debugMode = false := h.unpaused
  rw [pause, unpaused, if_neg Bool.false_ne_true]

/-- A new thread begins the wait again. -/
theorem settle_calledOff (h : e.Awaits op) (released : e.keyHeld = false) (turns : Nat) :
    (e.calledOff op).begun.settle (turns + 1) = (e.credit 1).tell e.wayBack := by
  have unheld : (e.calledOff op).begun.keyHeld = false := released
  have waits : (e.calledOff op).begun.waits = true := by
    simp only [Engine.waits, h.fetch_calledOff, h.waiting, unheld]
    rfl
  have polls : (e.calledOff op).begun.breaksOff = false := h.polls
  rw [settle_of_waits rfl rfl h.pause_calledOff polls h.fetch_calledOff waits, h.pass_calledOff]
  exact Engine.ext rfl rfl rfl h.doing.symm rfl rfl rfl rfl rfl

/-- A key that is held ends the wait of a new thread as it ends that of the old one. -/
theorem aheadBy_calledOff (h : e.Awaits op) (held : e.keyHeld = true) (turns : Nat) :
    (e.settle (turns + 1)).AheadBy 1 ((e.calledOff op).begun.settle (turns + 1)) := by
  have keyed : (e.calledOff op).begun.keyHeld = true := held
  have busy : e.atRest = false := by
    rw [← Bool.not_eq_true, h.atRest_iff, held]
    exact Bool.noConfusion
  have turned : e.turn = e.complete op := by
    simp only [turn, h.doing, held, Bool.true_or, if_true]
  rw [settle_succ busy, turned,
    settle_of_keyHeld rfl rfl h.pause_calledOff h.fetch_calledOff keyed h.free, h.pass_calledOff]
  -- completing the wait does not depend on what the thread was doing before
  have past : ({ e with activity := .ready } : Engine).AheadBy 1
      (({ e.credit 1 with activity := .ready } : Engine).tell e.wayBack) :=
    aheadBy_credit { e with activity := .ready } 1 rfl
  exact (past.complete op).settle turns

end Awaits

/-! ## A pause that is given up -/

namespace Pauses

theorem atRest_eq (h : e.Pauses) : e.atRest = true := by
  simp only [atRest, h.doing, h.going, Bool.not_false]

theorem setKey (h : e.Pauses) (key : Int) (pressed : Bool) : (e.setKey key pressed).1.Pauses := by
  obtain ⟨keypad, same⟩ := setKey_eq e key pressed
  rw [same]
  exact { h with }

theorem stop_eq (h : e.Pauses) : e.stop = e.requestStop.finish := by
  have busy : e.requestStop.atRest = false := by
    simp only [atRest, activity_requestStop, h.doing, cancelled_requestStop, Bool.not_true]
  have turned : e.requestStop.turn = e.requestStop.finish := by
    simp only [turn, activity_requestStop, h.doing, cancelled_requestStop, if_true]
  rw [stop, settle_succ busy, turned]
  exact settle_of_atRest rfl 1

theorem start_stop (h : e.Pauses) : e.stop.start = (e.stop.begun, .ok true) := by
  rw [h.stop_eq]
  exact start_of_ended h.loaded rfl rfl

/-- Keys may be pressed before or after. -/
theorem setKey_stop (h : e.Pauses) (key : Int) (pressed : Bool) :
    e.stop.setKey key pressed = ((e.setKey key pressed).1.stop, (e.setKey key pressed).2) := by
  rw [(h.setKey key pressed).stop_eq, h.stop_eq]
  have same : e.requestStop.finish.console = e.console := rfl
  simp only [Engine.setKey, same]
  cases set : e.console.setKey key pressed with
  | error => rfl
  | ok next =>
    rw [Console.setKey_eq set]
    rfl

/-- A new thread pauses again. -/
theorem settle_stop (h : e.Pauses) (turns : Nat) :
    e.stop.begun.settle (turns + 1) =
      (e.credit 0).tell [.engineStopped e.console.executed, .engineStarted] := by
  rw [h.stop_eq]
  have debug : e.requestStop.finish.begun.console.debugMode = true := h.debug
  have pauses : e.requestStop.finish.begun.pause = .ends := by
    rw [pause, debug, if_pos rfl]
    exact h.wait_eq
  rw [settle_of_pause rfl rfl pauses]
  refine Engine.ext rfl h.running.symm h.going.symm h.doing.symm h.begun.symm rfl h.kept.symm
    h.unseen.symm ?_
  simp [Engine.begun, finish, requestStop, tell, credit]

end Pauses

/-! ## Both together -/

/-- A program rests where it can be resumed, at the price of this many instructions counted
twice. -/
inductive Resumable (e : Engine) : Nat → Prop
  | inWait {op : Fetched} (doing : e.activity = .awaitingKey op)
      (unpaused : e.console.debugMode = false) : Resumable e 1
  | inPause (doing : e.activity = .paused) (debug : e.console.debugMode = true) : Resumable e 0

/-- What a program that is stopped and started again looks like beside one that is not. -/
structure Resumes (extra : Nat) (e : Engine) : Prop where
  stopped : e.stop.phase = .stopped
  started : e.stop.start.2 = .ok true
  settled : ∃ told, told.filter Event.isHeard = [] ∧
    ∀ turns, e.stop.start.1.settle (turns + 1) = (e.credit extra).tell told
  keyed : ∀ key, (e.stop.setKey key true).2 = (e.setKey key true).2 ∧
    ∀ turns, ((e.setKey key true).1.settle (turns + 1)).AheadBy extra
      ((e.stop.setKey key true).1.start.1.settle (turns + 1))

theorem Awaits.resumes (h : e.Awaits op) (resting : e.atRest = true) : Resumes 1 e := by
  have released := h.atRest_iff.mp resting
  refine ⟨?_, ?_, ⟨e.wayBack, rfl, fun turns => ?_⟩, fun key => ?_⟩
  · rw [h.stop_eq released]
    rfl
  · rw [h.stop_eq released, h.start_calledOff]
  · rw [h.stop_eq released, h.start_calledOff]
    exact h.settle_calledOff released turns
  · have later := h.setKey key true
    rw [h.stop_eq released, setKey_calledOff, later.start_calledOff]
    refine ⟨rfl, fun turns => ?_⟩
    cases held : (e.setKey key true).1.keyHeld with
    | true => exact later.aheadBy_calledOff held turns
    | false =>
      rw [later.settle_calledOff held, settle_of_atRest (later.atRest_iff.mpr held)]
      exact aheadBy_credit _ 1 rfl

theorem Pauses.resumes (h : e.Pauses) : Resumes 0 e := by
  refine ⟨?_, ?_, ⟨[.engineStopped e.console.executed, .engineStarted], rfl, fun turns => ?_⟩,
    fun key => ?_⟩
  · rw [h.stop_eq]
    rfl
  · rw [h.start_stop]
  · rw [h.start_stop]
    exact h.settle_stop turns
  · have later := h.setKey key true
    rw [h.setKey_stop, later.start_stop]
    refine ⟨rfl, fun turns => ?_⟩
    rw [later.settle_stop, settle_of_atRest later.atRest_eq]
    exact aheadBy_credit _ 0 rfl

/-- A program that rests, running and at a free display, resumes where it can be resumed. -/
theorem resumes_run (options : Options) (history : List Operation) {extra : Nat}
    (running : ((ofOptions options).run history).phase = .running)
    (resting : ((ofOptions options).run history).atRest = true)
    (free : ((ofOptions options).run history).displayHeld = false)
    (resumable : ((ofOptions options).run history).Resumable extra) :
    Resumes extra ((ofOptions options).run history) := by
  have formed := wellFormed_run options history
  have suspended := suspended_run options history
  have runs := (coherent_run options history).runs running
  cases resumable with
  | @inWait op doing unpaused =>
    obtain ⟨waiting, stands⟩ := suspended.awaited op doing
    obtain ⟨low, high, passed⟩ := formed.awaited op doing
    have polls := breaksOff_of_atRest doing resting
    have awaits : ((ofOptions options).run history).Awaits op :=
      { runs with doing, waiting, stands, low, high, passed, free, polls, unpaused }
    exact awaits.resumes resting
  | inPause doing debug =>
    have pauses : ((ofOptions options).run history).Pauses :=
      { runs with doing, debug, wait_eq := suspended.paused doing }
    exact pauses.resumes

/-- Stopping and starting again is transparent. A program that waits for a key at a free display
and without pauses is found, once stopped and started again, in the same state with one more
instruction counted; one that pauses, in the same state. Whatever is done afterwards with this
engine and with one that was not stopped, the two differ in nothing but the count, by the same
number until they are reset, and answer the same, as long as the rate of that count can be reported
when time passes. A key that is pressed while the thread is stopped has the effect that it would
have had on the thread that waits. -/
theorem stop_start_transparent (options : Options) (history : List Operation) (extra : Nat)
    (running : ((ofOptions options).run history).phase = .running)
    (resting : ((ofOptions options).run history).atRest = true)
    (free : ((ofOptions options).run history).displayHeld = false)
    (resumable : ((ofOptions options).run history).Resumable extra) :
    let e := (ofOptions options).run history
    let resumed := e.stop.start.1.settle 1
    ((options.stopTimeout.wait = .ends → e.stopAndWait = (e.stop, .ok ())) ∧
        e.stop.phase = .stopped ∧ e.stop.start.2 = .ok true) ∧
      (∃ told, told.filter Event.isHeard = [] ∧
        ∀ turns, e.stop.start.1.settle (turns + 1) = (e.credit extra).tell told) ∧
      (∀ later, ∃ more, ((∀ operation ∈ later, operation.resets = false) → more = extra) ∧
        (e.run later).AheadBy more (resumed.run later) ∧
        ((resumed.run later).beeps = (e.run later).beeps ∧
          ∀ listener, (resumed.run later).modesTold listener = (e.run later).modesTold listener) ∧
        ∀ request,
          (∀ elapsed, request = .update elapsed →
            (resumed.run later).console.executed < 2 ^ 1023) →
          ((resumed.run later).ask request).2 = ((e.run later).ask request).2) ∧
      ∀ key, (e.stop.setKey key true).2 = (e.setKey key true).2 ∧
        ∀ turns, ((e.setKey key true).1.settle (turns + 1)).AheadBy extra
          ((e.stop.setKey key true).1.start.1.settle (turns + 1)) := by
  intro e resumed
  have resumes : Resumes extra e := resumes_run options history running resting free resumable
  have unstuck : e.stuck = false := stuck_of_free free
  have formed : e.WellFormed options := wellFormed_run options history
  have formed' : resumed.WellFormed options := formed.stop.start.settle 1
  have waited (ends : options.stopTimeout.wait = .ends) : e.stopAndWait = (e.stop, .ok ()) := by
    rw [← formed.options_eq] at ends
    exact stopAndWait_of_not_stuck unstuck (.inr ⟨ends, Nat.le_refl 2⟩)
  obtain ⟨told, unheard, settled⟩ := resumes.settled
  refine ⟨⟨waited, resumes.stopped, resumes.started⟩, ⟨told, unheard, settled⟩, ?_, resumes.keyed⟩
  intro later
  have ahead : e.AheadBy extra resumed := by
    rw [show resumed = _ from settled 0]
    exact aheadBy_credit e extra unheard
  obtain ⟨more, kept, further⟩ := ahead.run later
  have formed := run_induction (fun _ operation h => h.perform operation) formed later
  have formed' := run_induction (fun _ operation h => h.perform operation) formed' later
  exact ⟨more, kept, further, ⟨further.beeps, further.modesTold⟩,
    further.ask formed.console formed'.console⟩

/-- A wait for a key is called off and begun again, and takes a key that is pressed meanwhile. -/
theorem resumed_wait_takes_key :
    let e := (ofOptions {}).run [.load [0xF0, 0x0A], .start, .turn]
    let keyed := (e.stop.setKey 5 true).1.start.1.settle 1
    e.phase = .running ∧ e.atRest = true ∧ e.activity = .awaitingKey ⟨0x200, .ofBytes 0xF0 0x0A⟩ ∧
      keyed.console.machine.v 0 = 5 ∧ keyed.console.executed = 2 := by
  intro e keyed
  have doing : e.activity = .awaitingKey ⟨0x200, .ofBytes 0xF0 0x0A⟩ := by decide +kernel
  have running : e.phase = .running := by decide +kernel
  have resting : e.atRest = true := by decide +kernel
  obtain ⟨-, -, -, pressed⟩ := stop_start_transparent {} [.load [0xF0, 0x0A], .start, .turn] 1
    running resting (by decide +kernel) (.inWait doing (by decide +kernel))
  have ahead := ((pressed 5).2 0).console
  refine ⟨running, resting, doing, ?_, ?_⟩
  · rw [ahead.machine]
    decide +kernel
  · rw [ahead.executed]
    decide +kernel

end Engine

end ChipEight
