import ChipEight.Proofs.Refusals
import ChipEight.Proofs.Resumption
import ChipEight.Proofs.SkippedWords
import ChipEight.Status

/-!
# Fatal faults

A step that fails ends the thread, and its fault stays on the console until a load or a restart
succeeds or another thread ends by a fault. Nothing else writes it: what waits for a key or is
held up at the display does not fail when it is completed, and a thread that was asked to end
begins nothing. So the fault that hosts are shown is the last of those that ended a thread since
the last load or restart (`Engine.fault_run`).

A thread that is started afterwards goes on from the console that the failed step left. A fetch
that failed fails once more, and any other instruction has been passed.
-/

namespace ChipEight

/-! ## Steps that fail -/

/-- A fault that is charged to no word is that of a fetch. -/
theorem Machine.fetch_of_step_error {m : Machine} {fault : Fault}
    (failed : m.step.result = .error fault) (unfetched : fault.word = none) :
    m.fetch = .error fault := by
  rw [step] at failed
  split at failed
  · next fetched =>
    cases failed
    exact fetched
  · next op fetched =>
    rw [complete, conclude] at failed
    split at failed <;> cases failed
    cases unfetched

namespace Console

variable {c : Console} {op : Fetched} {fault : Fault}

/-- The fault with which the next step fails, if it does. -/
def fails? (c : Console) : Option Fault :=
  match c.step.result with
  | .ok _ => none
  | .error fault => some fault

theorem fails?_eq_some_iff : c.fails? = some fault ↔ c.step.result = .error fault := by
  rw [fails?]
  split
  · next succeeded => simp [succeeded]
  · next failed => simp [failed]

theorem fails?_of_ok (succeeded : c.step.result = .ok op) : c.fails? = none := by
  rw [fails?, succeeded]

/-- A wait for a key succeeds, with a key and without one. -/
theorem complete_of_waitsForKey (c : Console) (waiting : Engine.waitsForKey op = true) :
    (c.complete op).result = .ok op := by
  obtain ⟨x, decoded⟩ := Engine.waitsForKey_iff.mp waiting
  obtain ⟨target, succeeded⟩ := c.machine.result_awaitKey op x
  have executed : (c.machine.execute op).result = .ok target := by
    simp only [Machine.execute, decoded, succeeded]
  show (c.machine.complete op).result = .ok op
  rw [Machine.complete_of_ok executed]

theorem fault_load {program : List UInt8} (loaded : (c.load program).result = .ok ()) :
    (c.load program).state.fault = none := by
  rw [load] at loaded ⊢
  split at loaded
  · cases loaded
  · rfl

end Console

namespace Engine

variable {e next : Engine} {op : Fetched} {fault : Fault} {options : Options}
  {operation : Operation}

/-! ## Threads that fail -/

/-- The fault that ends the thread with an operation, if one does: the thread begins an instruction,
and the step fails. -/
def fatal? (e : Engine) : Operation → Option Fault
  | .turn => if e.begins then e.console.fails? else none
  | .wake => if e.activity = .paused ∧ e.cancelled = false then e.console.fails? else none
  | _ => none

/-- The faults that ended a thread since the last load or restart in the course of a history, after
those before it. -/
def fatalsSince (e : Engine) (before : List Fault) : List Operation → List Fault
  | [] => before
  | operation :: rest =>
    (e.perform operation).fatalsSince
      (if e.resets operation then [] else before ++ (e.fatal? operation).toList) rest

theorem fatal?_turn_eq_some_iff :
    e.fatal? .turn = some fault ↔ e.begins = true ∧ e.console.step.result = .error fault := by
  rw [fatal?, ← Console.fails?_eq_some_iff]
  cases e.begins <;> simp

/-- A thread that begins an instruction neither pauses nor ends before it. -/
theorem turn_of_begins (h : e.begins = true) : e.turn = e.beginInstruction := by
  simp only [begins, Bool.and_eq_true, Bool.or_eq_true, decide_eq_true_eq, Bool.not_eq_true'] at h
  obtain ⟨⟨ready, going⟩, unpaused⟩ := h
  rw [turn, ready]
  show e.proceed = _
  rw [proceed, going, if_neg Bool.false_ne_true]
  rcases unpaused with same | same <;> rw [same]

theorem activity_of_begins (h : e.begins = true) : e.activity = .ready := by
  simp only [begins, Bool.and_eq_true, decide_eq_true_eq] at h
  exact h.1.1

theorem begins_of_ready (ready : e.activity = .ready) (going : e.cancelled = false)
    (unpaused : e.console.debugMode = false) : e.begins = true := by
  have pause : e.pause = .nothing := by rw [pause, unpaused, if_neg Bool.false_ne_true]
  simp only [begins, ready, going, pause, decide_true, Bool.not_false, Bool.and_self, Bool.true_or]

/-- What makes a thread wait does not fail. -/
theorem step_of_delayed (fetched : e.console.machine.fetch = .ok op)
    (delayed : waitsForKey op = true ∨ (e.pass.heldUp? op).isSome = true) :
    e.console.step.result = .ok op := by
  rw [Console.step_of_fetch fetched]
  rcases delayed with waiting | held
  · exact Console.complete_of_waitsForKey _ waiting
  · obtain ⟨request, heldUp⟩ := Option.isSome_iff_exists.mp held
    exact (complete_of_request? (request?_of_heldUp? heldUp)).1

/-- An instruction that fails is not delayed. -/
theorem beginInstruction_of_error (failed : e.console.step.result = .error fault) :
    e.beginInstruction = e.conclude e.console.step := by
  cases fetched : e.console.machine.fetch with
  | error refusal => exact beginInstruction_of_fetch_error fetched
  | ok op =>
    have undelayed : ¬ (waitsForKey op = true ∨ (e.pass.heldUp? op).isSome = true) := by
      intro delayed
      rw [step_of_delayed fetched delayed] at failed
      cases failed
    obtain ⟨awake, unheld⟩ := not_or.mp undelayed
    rw [beginInstruction_of_fetch fetched, Bool.eq_false_iff.mpr awake, Bool.false_and,
      if_neg Bool.false_ne_true, Option.not_isSome_iff_eq_none.mp unheld]
    exact complete_pass fetched

/-- A thread fails in an instruction that it begins, and it has been alive until then. -/
theorem begins_of_fatal? (fatal : e.fatal? operation = some fault) :
    e.activity ≠ .ended ∧ e.console.step.result = .error fault ∧
      e.perform operation = e.beginInstruction := by
  cases operation with
  | turn =>
    obtain ⟨beginning, failed⟩ := fatal?_turn_eq_some_iff.mp fatal
    refine ⟨?_, failed, turn_of_begins beginning⟩
    rw [activity_of_begins beginning]
    exact Activity.noConfusion
  | wake =>
    rw [fatal?] at fatal
    split at fatal
    · next pausing =>
      refine ⟨?_, Console.fails?_eq_some_iff.mp fatal, if_pos pausing⟩
      rw [pausing.1]
      exact Activity.noConfusion
    · cases fatal
  | _ => cases fatal

/-- A run that fails ends with what the failed step left and with its fault. -/
theorem perform_of_fatal? (fatal : e.fatal? operation = some fault) :
    e.perform operation = (({ e with console := e.console.step.state } : Engine).tell
      e.console.step.events).halt fault := by
  obtain ⟨-, failed, begun⟩ := begins_of_fatal? fatal
  rw [begun, beginInstruction_of_error failed, conclude_of_error failed]

theorem console_of_fatal? (fatal : e.fatal? operation = some fault) :
    (e.perform operation).console = { e.console.step.state with fault := some fault } :=
  congrArg Engine.console (perform_of_fatal? fatal)

/-- A fetch that failed would fail once more. -/
theorem fetch_of_fatal? (fatal : e.fatal? operation = some fault) (unfetched : fault.word = none) :
    (e.perform operation).console.machine.fetch = .error fault := by
  have failed := (begins_of_fatal? fatal).2.1
  have fetched : e.console.machine.fetch = .error fault :=
    Machine.fetch_of_step_error failed unfetched
  rw [console_of_fatal? fatal, Console.step_of_fetch_error fetched]
  exact fetched

/-- A word that was refused has been passed. -/
theorem pc_of_fatal? (formed : e.console.machine.WellFormed)
    (fatal : e.fatal? operation = some fault) {w : Word} (word : fault.word = some w) :
    (e.perform operation).console.machine.pc = fault.addr + 2 := by
  obtain ⟨-, charged, done⟩ := Machine.fails_of_error formed (begins_of_fatal? fatal).2.1
  rw [console_of_fatal? fatal, Console.step, Console.afterInstruction, done, word, charged]
  rfl

/-! ## The fault on the console -/

theorem fault_conclude_of_ok {done : Effect Console (Except Fault Fetched)}
    (succeeded : done.result = .ok op) : (e.conclude done).console.fault = done.state.fault := by
  rw [conclude_of_ok succeeded]
  rfl

theorem fault_beginInstruction (e : Engine) :
    e.beginInstruction.console.fault = e.console.fails?.or e.console.fault := by
  cases stepped : e.console.step.result with
  | error fault =>
    rw [beginInstruction_of_error stepped, conclude_of_error stepped,
      Console.fails?_eq_some_iff.mpr stepped]
    rfl
  | ok last =>
    rw [Console.fails?_of_ok stepped, Option.none_or]
    cases fetched : e.console.machine.fetch with
    | error refusal =>
      rw [Console.step_of_fetch_error fetched] at stepped
      cases stepped
    | ok op =>
      rw [beginInstruction_of_fetch fetched]
      split
      · rfl
      · split
        · rfl
        · rw [complete_pass fetched, fault_conclude_of_ok stepped]
          rfl

theorem fatal?_turn_of_not_begins (h : e.begins = false) : e.fatal? .turn = none := by
  rw [fatal?, h, if_neg Bool.false_ne_true]

/-- A turn records the fault that ends the thread, and no other turn records any. -/
theorem fault_turn (h : e.Suspended) :
    e.turn.console.fault = (e.fatal? .turn).or e.console.fault := by
  cases beginning : e.begins with
  | true =>
    rw [turn_of_begins beginning, fatal?, if_pos beginning]
    exact fault_beginInstruction e
  | false =>
    rw [fatal?_turn_of_not_begins beginning, Option.none_or]
    cases doing : e.activity with
    | ended => rw [turn, doing]
    | ready =>
      rw [turn, doing]
      show e.proceed.console.fault = _
      rw [proceed]
      split
      · rfl
      · next going =>
        rw [begins, doing, Bool.eq_false_iff.mpr going] at beginning
        split
        · rfl
        · rfl
        · next pause => rw [pause] at beginning; cases beginning
        · next pause => rw [pause] at beginning; cases beginning
    | paused =>
      rw [turn, doing]
      dsimp only
      split <;> rfl
    | awaitingKey op =>
      rw [turn, doing]
      dsimp only
      split
      · exact fault_conclude_of_ok (e.console.complete_of_waitsForKey (h.awaited op doing).1)
      · split <;> rfl
    | atDisplay op request =>
      rw [turn, doing]
      dsimp only
      split
      · rfl
      · have succeeded : (e.console.present op request).result = .ok op := by
          show (Machine.conclude op (e.console.machine.present request)).result = .ok op
          rw [Machine.conclude, Machine.result_present]
        exact fault_conclude_of_ok succeeded

theorem fault_wake (e : Engine) :
    e.wake.console.fault = (e.fatal? .wake).or e.console.fault := by
  rw [wake, fatal?]
  split
  · exact fault_beginInstruction e
  · rfl

theorem fault_settle (h : e.Suspended) (asked : e.cancelled = true) (turns : Nat) :
    (e.settle turns).console.fault = e.console.fault := by
  refine h.of_settle asked (P := fun next => next.console.fault = e.console.fault) ?_ rfl turns
  intro next suspended asked same
  rw [fault_turn suspended, fatal?_turn_of_not_begins (begins_of_cancelled asked), same,
    Option.none_or]

theorem fault_settle_requestStop (h : e.Suspended) (turns : Nat) :
    (e.requestStop.settle turns).console.fault = e.console.fault :=
  fault_settle (e := e.requestStop) (h.happens .requestStop) rfl turns

theorem fault_stopAndWait (h : e.Suspended) (turns : Nat) :
    (e.stopAndWait turns).1.console.fault = e.console.fault := by
  rcases stopAndWait_eq e turns with ⟨taken, same⟩ | same
  · rw [same]
    exact fault_settle_requestStop h taken
  · rw [same]
    exact fault_settle_requestStop h 2

theorem fault_start (e : Engine) : e.start.1.console.fault = e.console.fault :=
  of_start (P := fun next => next.console.fault = e.console.fault) rfl fun _ _ => rfl

theorem fault_load (h : e.Suspended) (program : List UInt8) (turns : Nat) :
    (e.load program turns).1.console.fault =
      if e.resets (.load program turns) then none else e.console.fault := by
  apply of_load_resets (P := fun resets next =>
    next.console.fault = if resets then none else e.console.fault) (fault_stopAndWait h turns)
  intro loaded
  exact Console.fault_load loaded

theorem fault_restart (h : e.Suspended) (turns : Nat) :
    (e.restart turns).1.console.fault =
      if e.resets (.restart turns) then none else e.console.fault := by
  apply of_restart_resets (P := fun resets next =>
    next.console.fault = if resets then none else e.console.fault) rfl (fault_stopAndWait h turns)
  rw [fault_start]
  rfl

/-- What an operation makes of the fault: a load or a restart takes it back, and a thread that ends
by another one takes its place. -/
theorem fault_perform (h : e.Suspended) (operation : Operation) :
    (e.perform operation).console.fault =
      if e.resets operation then none else (e.fatal? operation).or e.console.fault := by
  cases operation with
  | load program turns => exact fault_load h program turns
  | restart turns => exact fault_restart h turns
  | start => exact fault_start e
  | stopAndWait turns => exact fault_stopAndWait h turns
  | turn => exact fault_turn h
  | wake => exact fault_wake e
  | act action =>
    exact of_act (P := fun next => next.console.fault = e.console.fault) rfl (fun _ _ => rfl)
      fun _ => e.console.fault_act action
  | requestStop | observe | setDebugMode | holdDisplay | releaseDisplay | addListener => rfl

/-- From the last fault before it a history makes the last one with its own. -/
theorem fault_run (h : e.Suspended) {before : List Fault}
    (last : e.console.fault = before.getLast?) (history : List Operation) :
    (e.run history).console.fault = (e.fatalsSince before history).getLast? := by
  induction history generalizing e before with
  | nil => exact last
  | cons operation rest ih =>
    rw [run_cons, fatalsSince]
    apply ih (h.perform operation)
    rw [fault_perform h operation]
    split
    · rfl
    · rw [List.getLast?_append, last]
      cases e.fatal? operation <;> rfl

end Engine

/-! ## After a thread has failed -/

/-- The program stands where it stood. A host may have pressed keys, let time pass, turned the
pauses on or off and listened to the display. -/
def Console.Unmoved (c d : Console) : Prop :=
  d =
    { c with
      debugMode := d.debugMode
      clock := d.clock
      meter := d.meter
      machine :=
        { c.machine with
          timers := d.machine.timers
          keypad := d.machine.keypad
          display := { c.machine.display with listeners := d.machine.display.listeners } } }

namespace Console.Unmoved

variable {c d k : Console}

theorem refl (c : Console) : c.Unmoved c := rfl

theorem trans (h : c.Unmoved d) (h' : d.Unmoved k) : c.Unmoved k := by
  rw [Unmoved] at h' ⊢
  exact h'.trans (by rw [h])

theorem fetch_eq (h : c.Unmoved d) : d.machine.fetch = c.machine.fetch :=
  congrArg (fun c => c.machine.fetch) h

theorem pc_eq (h : c.Unmoved d) : d.machine.pc = c.machine.pc :=
  congrArg (fun c => c.machine.pc) h

theorem fault_eq (h : c.Unmoved d) : d.fault = c.fault :=
  congrArg (fun c => c.fault) h

theorem loaded_eq (h : c.Unmoved d) : d.loaded = c.loaded :=
  congrArg (fun c => c.loaded) h

theorem act {action : Action} (c : Console) (waits : action ≠ .step) :
    c.Unmoved (c.act action).state := by
  cases action with
  | step => exact absurd rfl waits
  | update elapsed =>
    simp only [Console.act, Console.update]
    split <;> rfl
  | setKey key pressed =>
    simp only [Console.act]
    split
    · rfl
    · next set =>
      rw [setKey_eq set]
      rfl

end Console.Unmoved

namespace Engine

variable {e next : Engine} {op : Fetched} {fault : Fault} {options : Options} {c : Console}
  {operation : Operation}

/-- The operation starts a thread, executes an instruction or resets the console. -/
def stirs (e : Engine) : Operation → Bool
  | .start => true
  | .act .step => true
  | operation => e.resets operation

/-- There is no thread, and the program stands where it stood on a console. -/
structure RestsAt (e : Engine) (c : Console) : Prop where
  ended : e.activity = .ended
  stopped : e.phase = .stopped
  unmoved : c.Unmoved e.console

theorem restsAt_of_fatal? (fatal : e.fatal? operation = some fault) :
    (e.perform operation).RestsAt (e.perform operation).console :=
  have halted := perform_of_fatal? fatal
  ⟨congrArg Engine.activity halted, congrArg Engine.phase halted, .refl _⟩

namespace RestsAt

theorem requestStop (h : e.RestsAt c) : e.requestStop.RestsAt c where
  ended := h.ended
  stopped := by
    rw [Engine.requestStop, h.stopped]
    rfl
  unmoved := h.unmoved

/-- A host that insists on the end of a thread that has ended finds it so, or cannot wait. -/
theorem stopAndWait (h : e.RestsAt c) (turns : Nat) : (e.stopAndWait turns).1.RestsAt c := by
  have asked := h.requestStop
  have settled (taken : Nat) : e.requestStop.settle taken = e.requestStop :=
    settle_of_atRest (atRest_of_ended asked.ended) taken
  rcases stopAndWait_eq e turns with ⟨taken, same⟩ | same
  · rw [same, settled]
    exact asked
  · rw [same, stop, settled]
    exact ⟨asked.ended, asked.stopped, asked.unmoved⟩

theorem setConsole (h : e.RestsAt c) {d : Console} (unmoved : e.console.Unmoved d)
    (events : List Event) : (({ e with console := d } : Engine).tell events).RestsAt c :=
  ⟨h.ended, h.stopped, h.unmoved.trans unmoved⟩

theorem perform (h : e.RestsAt c) (calm : e.stirs operation = false) :
    (e.perform operation).RestsAt c := by
  cases operation with
  | start => cases calm
  | requestStop => exact h.requestStop
  | stopAndWait turns => exact h.stopAndWait turns
  | load program turns =>
    refine of_load_resets (P := fun resets next => resets = false → next.RestsAt c)
      (fun _ => h.stopAndWait turns) (fun _ => Bool.noConfusion) calm
  | restart turns =>
    refine of_restart_resets (P := fun resets next => resets = false → next.RestsAt c)
      (fun _ => h) (fun _ => h.stopAndWait turns) Bool.noConfusion calm
  | act action =>
    have idle : action ≠ .step := by
      rintro rfl
      cases calm
    show (e.act action).1.RestsAt c
    rw [act]
    split
    · exact h
    · split
      · next breaks =>
        cases action with
        | step => exact absurd rfl idle
        | update | setKey => cases breaks
      · exact h.setConsole (.act e.console idle) _
  | setDebugMode => exact ⟨h.ended, h.stopped, h.unmoved.trans rfl⟩
  | observe | holdDisplay | releaseDisplay => exact ⟨h.ended, h.stopped, h.unmoved⟩
  | addListener name => exact ⟨h.ended, h.stopped, h.unmoved.trans rfl⟩
  | turn =>
    show e.turn.RestsAt c
    rw [turn, h.ended]
    exact h
  | wake =>
    show e.wake.RestsAt c
    rw [wake, h.ended, if_neg fun pausing => Activity.noConfusion pausing.1]
    exact h

theorem run (h : e.RestsAt c) {later : List Operation} (calm : e.tally stirs later = 0) :
    (e.run later).RestsAt c := by
  induction later generalizing e with
  | nil => exact h
  | cons operation rest ih =>
    rw [tally] at calm
    obtain ⟨first, others⟩ := Nat.add_eq_zero_iff.mp calm
    rw [run_cons]
    exact ih (h.perform (Bool.toNat_eq_zero.mp first)) others

theorem start (h : e.RestsAt c) (loaded : c.loaded = true) : e.start = (e.begun, .ok true) :=
  start_of_ended (h.unmoved.loaded_eq.trans loaded) h.stopped h.ended

/-- A fetch that failed fails once more, and nothing comes of it. -/
theorem fails_again (h : e.RestsAt c) (unpaused : e.console.debugMode = false)
    (fetched : c.machine.fetch = .error fault) (recorded : c.fault = some fault) :
    e.begun.fatal? .turn = some fault ∧ ∀ turns,
      (e.begun.settle (turns + 1)).phase = .stopped ∧
        (e.begun.settle (turns + 1)).console = e.console := by
  have step := Console.step_of_fetch_error (h.unmoved.fetch_eq.trans fetched)
  have fatal : e.begun.fatal? .turn = some fault :=
    fatal?_turn_eq_some_iff.mpr ⟨begins_of_ready rfl rfl unpaused, congrArg Effect.result step⟩
  have still : e.console.fault = some fault := h.unmoved.fault_eq.trans recorded
  have rests := restsAt_of_fatal? fatal
  have ended : e.begun.turn.atRest = true := atRest_of_ended rests.ended
  have console : e.begun.turn.console = { e.console.step.state with fault := some fault } :=
    console_of_fatal? fatal
  refine ⟨fatal, fun turns => ?_⟩
  rw [settle_succ (atRest_of_ready rfl), settle_of_atRest ended]
  refine ⟨rests.stopped, console.trans ?_⟩
  rw [step, ← still]

end RestsAt

/-! ## What leaves the fault alone -/

/-- What a host may ask of an engine at rest without a thread going on for it: the end of the
thread, a load or a restart that is refused, time, pauses, and keys that nothing waits for. -/
inductive Calm (e : Engine) : Operation → Prop
  | requestStop : e.Calm .requestStop
  | stopAndWait (turns : Nat) : e.Calm (.stopAndWait turns)
  | load {program : List UInt8} {turns : Nat} {failure : Failure}
      (refused : (e.load program turns).2 = .error failure) : e.Calm (.load program turns)
  | restart {turns : Nat} {failure : Failure} (refused : (e.restart turns).2 = .error failure) :
      e.Calm (.restart turns)
  | update (elapsed : Int) : e.Calm (.act (.update elapsed))
  | setDebugMode (enabled : Bool) : e.Calm (.setDebugMode enabled)
  | setKey {key : Int} {pressed : Bool} (unawaited : ∀ op, e.activity ≠ .awaitingKey op) :
      e.Calm (.act (.setKey key pressed))

/-- A load that is refused has done what insisting on the end of the thread does. -/
theorem load_of_error {program : List UInt8} {turns : Nat} {failure : Failure}
    (refused : (e.load program turns).2 = .error failure) :
    (e.load program turns).1 = (e.stopAndWait turns).1 := by
  rcases load_cases e program turns with ⟨_, -, same⟩ | ⟨ended, ⟨_, -, same⟩ | ⟨-, same⟩⟩
  · rw [same]
  · rw [same, ended]
  · rw [same] at refused
    cases refused

/-- So has a restart. -/
theorem restart_of_error (h : e.Coherent) {turns : Nat} {failure : Failure}
    (refused : (e.restart turns).2 = .error failure) :
    (e.restart turns).1 = (e.stopAndWait turns).1 := by
  rcases restart_cases e turns with ⟨-, same⟩ | ⟨begun, ⟨_, -, same⟩ | ⟨-, same⟩⟩
  · rw [same] at refused
    cases refused
  · rw [same]
  · have loaded : e.stop.renewed.console.loaded = true :=
      (kept_stop e).1.trans (h.loaded (.inr begun))
    rw [same] at refused
    rcases start_cases e.stop.renewed with ⟨unloaded, -⟩ | ⟨-, ⟨-, began⟩ | ⟨-, began⟩⟩
    · rw [loaded] at unloaded
      cases unloaded
    · rw [began] at refused
      cases refused
    · rw [began] at refused
      cases refused

theorem fault_settle_stopAndWait (h : e.Suspended) (waited turns : Nat) :
    ((e.stopAndWait waited).1.settle turns).console.fault = e.console.fault := by
  have asked : (e.stopAndWait waited).1.cancelled = true := by
    rcases stopAndWait_eq e waited with ⟨taken, same⟩ | same
    · rw [same]
      exact (Continues.settle e.requestStop taken).cancelled
    · rw [same]
      exact cancelled_stop e
  exact (fault_settle (h.perform (.stopAndWait waited)) asked turns).trans
    (fault_stopAndWait h waited)

/-- Whether a thread is at rest depends on the keys only while it waits for one. -/
theorem atRest_congr (e next : Engine) (activity : next.activity = e.activity)
    (cancelled : next.cancelled = e.cancelled) (held : next.displayHeld = e.displayHeld)
    (options : next.console.options = e.console.options)
    (keys : ∀ op, e.activity = .awaitingKey op → next.keyHeld = e.keyHeld) :
    next.atRest = e.atRest := by
  rw [atRest, atRest, activity, cancelled, held, breaksOff, breaksOff, options]
  split
  case h_4 op doing => rw [keys op doing]
  all_goals rfl

theorem fault_settle_of_calm (coherent : e.Coherent) (h : e.Suspended) (resting : e.atRest = true)
    (calm : e.Calm operation) (turns : Nat) :
    ((e.perform operation).settle turns).console.fault = e.console.fault := by
  cases calm with
  | requestStop => exact fault_settle (e := e.requestStop) (h.happens .requestStop) rfl turns
  | stopAndWait waited => exact fault_settle_stopAndWait h waited turns
  | load refused =>
    rw [perform, load_of_error refused]
    exact fault_settle_stopAndWait h _ turns
  | restart refused =>
    rw [perform, restart_of_error coherent refused]
    exact fault_settle_stopAndWait h _ turns
  | update elapsed =>
    have keys : (e.update elapsed).1.keyHeld = e.keyHeld := by
      show (e.console.update elapsed).state.machine.keypad.lowest?.isSome = _
      rw [Console.machine_update]
      rfl
    have still : (e.update elapsed).1.atRest = true := by
      have options := Console.options_update e.console elapsed
      rw [atRest_congr e (e.update elapsed).1 rfl rfl rfl options fun _ _ => keys, resting]
    rw [perform, act_update, settle_of_atRest still]
    exact e.console.fault_act (.update elapsed)
  | setDebugMode enabled =>
    have still : (e.setDebugMode enabled).atRest = true := resting
    rw [perform, settle_of_atRest still]
    rfl
  | @setKey key pressed unawaited =>
    obtain ⟨keypad, same⟩ := setKey_eq e key pressed
    have still : (e.withKeys keypad).atRest = true := by
      rw [atRest_congr e (e.withKeys keypad) rfl rfl rfl rfl
        fun op doing => absurd doing (unawaited op), resting]
    rw [perform, act_setKey, same, settle_of_atRest still]
    rfl

/-! ## Histories -/

/-- Fatal faults stick. The fault that hosts are shown is the last one that ended a thread since
the last load or restart. When it ends the thread, the console is the one that the failed step
left, and the instruction is not counted.

As long as nothing else is executed, a thread that is started afterwards goes on from there, with
the fault still shown: a fetch that failed fails with the same fault and changes nothing, and any
other instruction has been passed. No operation but a load, a restart or a move of the thread
changes the fault, and after those that leave a thread at rest, or ask it to end, its turns do not
either. -/
theorem fatal_faults_stick (options : Options) (history : List Operation) :
    let new := ofOptions options
    let e := new.run history
    let last := (new.fatalsSince [] history).getLast?
    (e.console.fault = last ∧
        ("error", Value.ofOption (last.map fun fault => fault.report.status)) ∈ e.statusFields) ∧
      (∀ move fault, e.fatal? move = some fault →
        let ended := e.perform move
        (ended.phase = .stopped ∧
            ended.console = { e.console.step.state with fault := some fault } ∧
            ended.console.executed = e.console.executed ∧ fault.addr = e.console.machine.pc) ∧
          ∀ later, ended.tally stirs later = 0 →
            let resting := ended.run later
            let started := resting.start.1
            (resting.phase = .stopped ∧ ended.console.Unmoved resting.console) ∧
              (resting.start.2 = .ok true ∧ started.console = resting.console ∧
                started.console.fault = some fault) ∧
              (resting.console.debugMode = false →
                (fault.word = none → started.fatal? .turn = some fault ∧
                  ∀ turns, let again := started.settle (turns + 1)
                    again.phase = .stopped ∧ again.console = started.console) ∧
                ∀ w, fault.word = some w →
                  started.console.machine.pc = fault.addr + 2 ∧
                    started.turn = started.beginInstruction)) ∧
      (∀ operation, operation ≠ .turn → operation ≠ .wake → e.resets operation = false →
        (e.perform operation).console.fault = e.console.fault) ∧
      (e.atRest = true → ∀ operation, e.Calm operation → ∀ turns,
        ((e.perform operation).settle turns).console.fault = e.console.fault) := by
  intro new e last
  have formed : e.console.machine.WellFormed := (wellFormed_run options history).console.machine
  have coherent : e.Coherent := coherent_run options history
  have suspended : e.Suspended := suspended_run options history
  have shown : e.console.fault = last := fault_run (suspended_run options []) rfl history
  refine ⟨⟨shown, ?_⟩, ?_, ?_,
    fun resting operation => fault_settle_of_calm coherent suspended resting⟩
  · rw [← shown]
    simp [statusFields, Console.statusFields]
  · intro move fault fatal ended
    obtain ⟨living, failed, -⟩ := begins_of_fatal? fatal
    have console : ended.console = { e.console.step.state with fault := some fault } :=
      console_of_fatal? fatal
    have stands : ended.RestsAt ended.console := restsAt_of_fatal? fatal
    have recorded : ended.console.fault = some fault := by rw [console]
    have loaded : ended.console.loaded = true := by
      rw [console]
      exact coherent.loaded (.inl fun stopped => living (coherent.ended_iff.mpr stopped))
    refine ⟨⟨stands.stopped, console, ?_, (Machine.fails_of_error formed failed).2.1⟩, ?_⟩
    · rw [console]
      exact Console.executed_of_error failed
    · intro later calm resting started
      have rests : resting.RestsAt ended.console := stands.run calm
      have began : resting.start = (resting.begun, .ok true) := rests.start loaded
      have begun : started = resting.begun := congrArg Prod.fst began
      rw [begun]
      refine ⟨⟨rests.stopped, rests.unmoved⟩, ⟨congrArg Prod.snd began, rfl, ?_⟩, ?_⟩
      · exact rests.unmoved.fault_eq.trans recorded
      · intro unpaused
        refine ⟨fun unfetched => ?_, fun w word => ⟨?_, ?_⟩⟩
        · exact rests.fails_again unpaused (fetch_of_fatal? fatal unfetched) recorded
        · exact rests.unmoved.pc_eq.trans (pc_of_fatal? formed fatal word)
        · exact turn_of_begins (begins_of_ready rfl rfl unpaused)
  · intro operation untaken asleep kept
    have performed := fault_perform suspended operation
    rw [kept, if_neg Bool.false_ne_true] at performed
    rw [performed]
    cases operation with
    | turn => exact absurd rfl untaken
    | wake => exact absurd rfl asleep
    | _ => rfl

/-- A program that jumps below the load address fails there, and once more after a start, with the
same fault; and a return without a call fails, and the start after it goes on behind it. -/
theorem fatal_faults_stick_at_start :
    let jumped := (ofOptions {}).run [.load [0x10, 0x00], .start, .turn]
    let returned := (ofOptions {}).run [.load [0x00, 0xEE], .start]
    let later : List Operation := [.requestStop, .act (.setKey 5 true), .act (.update 100)]
    let outside : Fault := { cause := .counterOutOfRange 0, addr := 0 }
    let empty : Fault :=
      { cause := .callStackEmpty, addr := 0x200, word := some (Word.ofBytes 0x00 0xEE) }
    (jumped.turn.phase = .stopped ∧
        ((jumped.turn.run later).start.1.settle 1).console.fault = some outside) ∧
      (returned.turn.console.fault = some empty ∧
        (returned.turn.run later).start.1.console.machine.pc = 0x202) ∧
      (returned.turn.requestStop.settle 2).console.fault = some empty := by
  let later : List Operation := [.requestStop, .act (.setKey 5 true), .act (.update 100)]
  let outside : Fault := { cause := .counterOutOfRange 0, addr := 0 }
  let w := Word.ofBytes 0x00 0xEE
  let empty : Fault := { cause := .callStackEmpty, addr := 0x200, word := some w }
  obtain ⟨-, outOfRange, -⟩ := fatal_faults_stick {} [.load [0x10, 0x00], .start, .turn]
  obtain ⟨-, underflow, -⟩ := fatal_faults_stick {} [.load [0x00, 0xEE], .start]
  obtain ⟨-, -, -, leaves⟩ := fatal_faults_stick {} [.load [0x00, 0xEE], .start, .turn]
  have taken : (ofOptions {}).run [.load [0x00, 0xEE], .start, .turn] =
      ((ofOptions {}).run [.load [0x00, 0xEE], .start]).turn := by
    simp only [run, List.foldl_cons, List.foldl_nil, perform]
  rw [taken] at leaves
  generalize eq : (ofOptions {}).run [.load [0x10, 0x00], .start, .turn] = jumped at outOfRange ⊢
  generalize eq' : (ofOptions {}).run [.load [0x00, 0xEE], .start] = returned at underflow leaves ⊢
  have fatal : jumped.fatal? .turn = some outside := by rw [← eq]; decide +kernel
  have calm : jumped.turn.tally stirs later = 0 := by rw [← eq]; decide +kernel
  have unpaused : (jumped.turn.run later).console.debugMode = false := by
    rw [← eq]
    decide +kernel
  have fatal' : returned.fatal? .turn = some empty := by rw [← eq']; decide +kernel
  have calm' : returned.turn.tally stirs later = 0 := by rw [← eq']; decide +kernel
  have unpaused' : (returned.turn.run later).console.debugMode = false := by
    rw [← eq']
    decide +kernel
  have resting : returned.turn.atRest = true := by rw [← eq']; decide +kernel
  obtain ⟨⟨stopped, -⟩, goesOn⟩ := outOfRange .turn outside fatal
  obtain ⟨-, ⟨-, -, recorded⟩, fails⟩ := goesOn later calm
  obtain ⟨-, again⟩ := (fails unpaused).1 rfl
  obtain ⟨⟨-, console, -⟩, goesOn'⟩ := underflow .turn empty fatal'
  obtain ⟨-, -, passes⟩ := goesOn' later calm'
  obtain ⟨behind, -⟩ := (passes unpaused').2 w rfl
  have sticks : returned.turn.console.fault = some empty := congrArg Console.fault console
  refine ⟨⟨stopped, ?_⟩, ⟨sticks, behind⟩, ?_⟩
  · exact (congrArg Console.fault (again 0).2).trans recorded
  · exact (leaves resting .requestStop .requestStop 2).trans sticks

end Engine

end ChipEight
