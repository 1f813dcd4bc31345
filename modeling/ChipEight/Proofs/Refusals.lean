import ChipEight.Proofs.HeldDisplay

/-!
# Refused requests

A load and a restart begin by ending the thread, and what follows can be refused, or the end of the
thread itself. A refused request has done what a stop does and nothing else: the program is the
same, nothing has been reset, and the engine can be started again as after the stop.

Where the thread did not end because it is held up at the display, it is in an instruction that
still asks what it asked when it was fetched (`Engine.Pending`): no operation of the host reaches it
there. So once the display is released that instruction is completed, and then the thread ends.
-/

namespace ChipEight

theorem Machine.request?_congr {m n : Machine} (processor : n.processor = m.processor)
    (memory : n.memory = m.memory) (op : Fetched) : n.request? op = m.request? op := by
  simp only [request?, index, v, processor, memory]

namespace Engine

variable {options : Options} {e next : Engine} {op : Fetched} {request : Display.Request}

/-! ## Instructions that are held up -/

/-- An instruction that is held up has been passed, and asks what it was found to ask. For a thread
that the host gave up on nothing is promised. -/
def Pending (e : Engine) : Prop :=
  ∀ op request, e.activity = .atDisplay op request → e.abandoned = false →
    e.console.machine.request? op = some request ∧ e.console.machine.pc = op.addr + 2

namespace Pending

/-- A thread that need not be waited for is not held up. -/
theorem of_join (joined : e.join = true) : e.Pending := by
  intro op request doing unabandoned
  rw [join, doing, unabandoned] at joined
  cases joined

theorem of_activity (away : ∀ op request, e.activity ≠ .atDisplay op request) : e.Pending :=
  fun op request doing => absurd doing (away op request)

/-- What is pending depends on the processor and the memory. -/
theorem setConsole (h : e.Pending) {c : Console}
    (processor : c.machine.processor = e.console.machine.processor)
    (memory : c.machine.memory = e.console.machine.memory) (events : List Event) :
    (({ e with console := c } : Engine).tell events).Pending := by
  intro op request doing unabandoned
  obtain ⟨asked, passed⟩ := h op request doing unabandoned
  exact ⟨(Machine.request?_congr processor memory op).trans asked,
    (congrArg Processor.pc processor).trans passed⟩

theorem beginInstruction (formed : e.WellFormed options) : e.beginInstruction.Pending := by
  intro op request doing _
  obtain ⟨-, fetched, asked, stopped⟩ := beginInstruction_of_atDisplay doing
  obtain ⟨fetches, rfl⟩ := Machine.fetches_of_fetch formed.console.machine.memory fetched
  rw [stopped]
  exact ⟨asked, Machine.pc_advance_of_fetches fetches⟩

theorem turn (h : e.Pending) (formed : e.WellFormed options) : e.turn.Pending := by
  intro op request doing unabandoned
  rcases activity_of_turn_atDisplay doing with ready | ⟨waiting, held⟩
  · have begun := turn_eq_beginInstruction_of_atDisplay ready doing
    rw [begun] at doing unabandoned ⊢
    exact beginInstruction formed op request doing unabandoned
  · -- it was there before the turn, and the host still holds the display
    have resting : e.atRest = true := by
      rw [atRest, waiting]
      exact held
    rw [turn_of_atRest resting] at doing unabandoned ⊢
    exact h op request doing unabandoned

theorem settle (h : e.Pending) (formed : e.WellFormed options) (turns : Nat) :
    (e.settle turns).Pending := by
  refine (of_settle (P := fun next => next.Pending ∧ next.WellFormed options) ?_ ⟨h, formed⟩
    turns).1
  rintro next - ⟨pending, formed⟩
  exact ⟨pending.turn formed, formed.turn⟩

theorem wake (h : e.Pending) (formed : e.WellFormed options) : e.wake.Pending := by
  rw [Engine.wake]
  split
  · exact beginInstruction formed
  · exact h

theorem stopAndWait (h : e.Pending) (formed : e.WellFormed options) (turns : Nat) :
    (e.stopAndWait turns).1.Pending := by
  rcases stopAndWait_eq e turns with ⟨taken, same⟩ | same
  · rw [same]
    have asked : e.requestStop.Pending := h
    exact asked.settle formed.requestStop taken
  · rw [same]
    exact of_join rfl

theorem load (h : e.Pending) (formed : e.WellFormed options) (program : List UInt8)
    (turns : Nat) : (e.load program turns).1.Pending := by
  apply of_load (h.stopAndWait formed turns)
  intro joined _
  exact of_join joined

theorem start (h : e.Pending) : e.start.1.Pending := by
  apply of_start h
  intro _ _
  exact of_activity fun _ _ => Activity.noConfusion

theorem restart (h : e.Pending) (formed : e.WellFormed options) (turns : Nat) :
    (e.restart turns).1.Pending := by
  apply of_restart h (h.stopAndWait formed turns)
  intro joined
  have renewed : e.stop.renewed.Pending := of_join joined
  exact renewed.start

theorem act (h : e.Pending) (action : Console.Action) : (e.act action).1.Pending := by
  have away {next : Engine} (ended : e.activity = .ended) (same : next.activity = e.activity) :
      next.Pending := by
    apply of_activity
    intro op request doing
    rw [same, ended] at doing
    cases doing
  refine of_act h (fun ended _ => away ended rfl) fun free => ?_
  cases action with
  | step => exact away (activity_of_not_withholds (Bool.eq_false_iff.mp free)) rfl
  | update elapsed =>
    refine h.setConsole (Console.processor_update e.console elapsed) ?_ _
    show (e.console.update elapsed).state.machine.memory = _
    rw [Console.machine_update]
  | setKey key pressed =>
    simp only [Console.act]
    split
    · exact h.setConsole rfl rfl _
    · next set =>
      refine h.setConsole ?_ ?_ _
      · rw [Console.setKey_eq set]
      · rw [Console.setKey_eq set]

theorem perform (h : e.Pending) (formed : e.WellFormed options) (operation : Operation) :
    (e.perform operation).Pending := by
  cases operation with
  | load program turns => exact h.load formed program turns
  | start => exact h.start
  | stopAndWait turns => exact h.stopAndWait formed turns
  | restart turns => exact h.restart formed turns
  | act action => exact h.act action
  | turn => exact h.turn formed
  | wake => exact h.wake formed
  | requestStop | observe | setDebugMode | holdDisplay | releaseDisplay | addListener => exact h

end Pending

/-- After every history an instruction that is held up is pending. -/
theorem pending_run (options : Options) (history : List Operation) :
    ((ofOptions options).run history).Pending := by
  have kept : ∀ (e : Engine) operation, e.WellFormed options ∧ e.Pending →
      (e.perform operation).WellFormed options ∧ (e.perform operation).Pending := by
    rintro e operation ⟨formed, pending⟩
    exact ⟨formed.perform operation, pending.perform formed operation⟩
  exact (run_induction kept ⟨wellFormed_ofOptions options, .of_join rfl⟩ history).2

/-! ## Programs that are too large -/

theorem load_result_error_iff {c : Console} (h : c.WellFormed) (program : List UInt8) :
    (∃ fault, (c.load program).result = .error fault) ↔ 3584 < program.length := by
  constructor
  · rintro ⟨fault, refused⟩
    apply Nat.lt_of_not_le
    intro fits
    rw [(Console.agreeOff_load h h rfl fits).1] at refused
    cases refused
  · intro large
    have beyond : ¬ (program.length : Int) ≤ c.machine.memory.room := by
      rw [Memory.room, h.machine.memory.size_eq, Memory.fullSize, Memory.base]
      omega
    simp only [Console.load, Memory.load, dif_neg beyond]
    exact ⟨_, rfl⟩

/-- The kinds of fault with which a host fails to end a thread. -/
theorem kind_of_stopAndWait {failure : Failure} (failed : e.stopAndWait.2 = .error failure) :
    (Answer.failed failure).kind? = some .engineTimeout ∨ (Answer.failed failure).kind? = none := by
  rcases stopAndWait_cases e 2 with ⟨-, same⟩ | ⟨-, -, -, same⟩ | ⟨-, -, same⟩
  · rw [same] at failed
    cases failed
  · rw [same] at failed
    cases failed
    exact .inl rfl
  · rw [same] at failed
    cases failed
    exact .inr rfl

/-- A load is refused for the program exactly if the thread was ended and the program has no room,
and has then done what the end of the thread did. -/
theorem load_tooLarge_iff (formed : e.WellFormed options) (program : List UInt8) :
    ((e.ask (.load program)).2.kind? = some .programTooLarge ↔
        3584 < program.length ∧ (e.ask (.stop true)).2 = .done) ∧
      ((e.ask (.load program)).2.kind? = some .programTooLarge →
        (e.ask (.load program)).1 = (e.ask (.stop true)).1) := by
  have large_iff := load_result_error_iff formed.stop.console program
  rcases load_cases e program 2 with ⟨failure, failed, same⟩ |
    ⟨ended, ⟨fault, refused, same⟩ | ⟨loaded, same⟩⟩
  · have unkind : (Answer.failed failure).kind? ≠ some .programTooLarge := by
      rcases kind_of_stopAndWait failed with timeout | other
      · rw [timeout]
        decide
      · rw [other]
        decide
    simp only [ask, same, failed, Answer.ofEnded]
    refine ⟨iff_of_false unkind ?_, fun kind => absurd kind unkind⟩
    rintro ⟨-, done⟩
    cases done
  · simp only [ask, same, ended, Answer.ofEnded]
    refine ⟨iff_of_true ?_ ⟨large_iff.mp ⟨fault, refused⟩, trivial⟩, fun _ => trivial⟩
    exact congrArg some (kind_of_load refused)
  · have small : ¬ 3584 < program.length := by
      intro large
      obtain ⟨fault, refused⟩ := large_iff.mpr large
      rw [loaded] at refused
      cases refused
    simp only [ask, same, Answer.ofEnded]
    refine ⟨iff_of_false (by decide) fun both => small both.1, ?_⟩
    intro kind
    cases kind

/-! ## Threads that did not end -/

/-- The host insisted on the end of a thread, and its time was over. Then it has not given up on the
thread, and what was done is to ask the thread to end. -/
theorem outlasts_of_timeout {failure : Failure} (failed : e.stopAndWait.2 = .error failure)
    (timeout : (Answer.failed failure).kind? = some .engineTimeout) :
    e.stopAndWait.1 = e.requestStop ∧ e.abandoned = false ∧ e.outlasts = true := by
  rcases stopAndWait_cases e 2 with ⟨-, same⟩ | ⟨waited, measured, -, -⟩ | ⟨-, -, same⟩
  · rw [same] at failed
    cases failed
  · have kept : e.abandoned = false := (Bool.or_eq_false_iff.mp waited).1
    have patient : e.Patient := ⟨kept, measured⟩
    have answered := patient.stopAndWait_eq
    cases outlasts : e.outlasts with
    | true =>
      rw [answered, outlasts, if_pos rfl]
      exact ⟨rfl, kept, rfl⟩
    | false =>
      rw [answered, outlasts, if_neg Bool.false_ne_true] at failed
      cases failed
  · rw [same] at failed
    cases failed
    cases timeout

/-- A load or a restart that is refused because the thread did not end has asked it to end. -/
theorem ask_of_timeout {request : Request}
    (insists : (∃ program, request = .load program) ∨ request = .restart)
    (timeout : (e.ask request).2.kind? = some .engineTimeout) :
    (e.ask request).1 = e.requestStop ∧ e.abandoned = false ∧ e.outlasts = true := by
  rcases insists with ⟨program, rfl⟩ | rfl
  · rcases load_cases e program 2 with ⟨failure, failed, same⟩ |
      ⟨-, ⟨fault, refused, same⟩ | ⟨-, same⟩⟩
    · simp only [ask, same, Answer.ofEnded] at timeout ⊢
      exact outlasts_of_timeout failed timeout
    · simp only [ask, same, Answer.ofEnded, Answer.kind?, kind_of_load refused] at timeout
      cases timeout
    · simp only [ask, same, Answer.ofEnded] at timeout
      cases timeout
  · rcases restart_cases e 2 with ⟨-, same⟩ | ⟨-, ⟨failure, failed, same⟩ | ⟨-, same⟩⟩
    · simp only [ask, same, Answer.ofSaid] at timeout
      cases timeout
    · simp only [ask, same, Answer.ofSaid] at timeout ⊢
      exact outlasts_of_timeout failed timeout
    · rcases start_cases e.stop.renewed with ⟨-, began⟩ | ⟨-, ⟨-, began⟩ | ⟨-, began⟩⟩
      · simp only [ask, same, began] at timeout
        cases timeout
      · simp only [ask, same, began] at timeout
        cases timeout
      · simp only [ask, same, began] at timeout
        cases timeout

/-- An instruction that asks something of the display succeeds once it gets there, and is
counted. -/
theorem complete_of_request? {c : Console} (asked : c.machine.request? op = some request) :
    (c.complete op).result = .ok op ∧ (c.complete op).state.executed = c.executed + 1 := by
  have done : (c.machine.complete op).result = .ok op := by
    have succeeded : (c.machine.execute op).result = .ok none := by
      rw [Machine.execute_of_request? asked, Machine.result_present]
    rw [Machine.complete_of_ok succeeded]
  refine ⟨done, ?_⟩
  rw [Console.complete, Console.afterInstruction, done]

/-- A thread that was asked to end while it was held up completes its instruction when the display
is released, and ends. -/
theorem settle_releaseDisplay_of_cancelled (cancelled : e.cancelled = true)
    (doing : e.activity = .atDisplay op request)
    (asked : e.console.machine.request? op = some request) (count : Nat) :
    e.releaseDisplay.settle (count + 2) = (e.releaseDisplay.complete op).finish := by
  have presented : e.releaseDisplay.turn = e.releaseDisplay.present op request := by
    have waiting : e.releaseDisplay.activity = .atDisplay op request := doing
    simp only [turn, waiting]
    rfl
  have completed : e.releaseDisplay.present op request = e.releaseDisplay.complete op :=
    present_eq_complete asked
  have busy : e.releaseDisplay.atRest = false := by
    have waiting : e.releaseDisplay.activity = .atDisplay op request := doing
    rw [atRest, waiting]
    rfl
  have succeeded : (e.releaseDisplay.console.complete op).result = .ok op :=
    (complete_of_request? asked).1
  have ready : (e.releaseDisplay.complete op).activity = .ready := by
    rw [complete, conclude_of_ok succeeded]
    rfl
  have still : (e.releaseDisplay.complete op).cancelled = true :=
    (cancelled_conclude _ _).trans cancelled
  rw [settle_succ busy, presented, completed, settle_succ (atRest_of_ready ready),
    turn_of_ready_of_cancelled ready still]
  exact settle_of_atRest rfl count

/-! ## Requests that are refused -/

/-- A request that is refused has done what a stop does, and nothing else.

A program that is too large is refused after the thread has ended. A load or a restart that could
not end the thread has asked it to, and nothing starts meanwhile. If the thread is held up, it goes
on when the display is released: it completes the instruction it was held up in and ends, with the
program that was loaded. A start without a program and a restart before the first start do nothing. -/
theorem refused_requests_stop (options : Options) (history : List Operation) :
    let e := (ofOptions options).run history
    (∀ program,
      ((e.ask (.load program)).2.kind? = some .programTooLarge ↔
          3584 < program.length ∧ (e.ask (.stop true)).2 = .done) ∧
        ((e.ask (.load program)).2.kind? = some .programTooLarge →
          (e.ask (.load program)).1 = (e.ask (.stop true)).1)) ∧
      (∀ request, (∃ program, request = .load program) ∨ request = .restart →
        (e.ask request).2.kind? = some .engineTimeout →
          let asked := (e.ask request).1
          asked = (e.ask (.stop false)).1 ∧ asked.ask .start = (asked, .said false) ∧
            (e.stuck = true → asked.atRest = true ∧
              ∃ op display, e.activity = .atDisplay op display ∧
              e.console.machine.pc = op.addr + 2 ∧
              e.console.machine.request? op = some display ∧
              ∀ count, let ended := asked.releaseDisplay.settle (count + 2)
                ended.activity = .ended ∧ ended.phase = .stopped ∧ ended.hasRun = e.hasRun ∧
                  ended.console = (e.console.complete op).state ∧
                  ended.console.executed = e.console.executed + 1 ∧
                  ended.console.loaded = true ∧
                  ended.console.machine.memory.program = e.console.machine.memory.program)) ∧
      (e.console.loaded = false →
        e.ask .start = (e, .failed (.fault { cause := .nothingLoaded, addr := 0 }))) ∧
      (e.hasRun = false → e.ask .restart = (e, .said false)) := by
  intro e
  have formed : e.WellFormed options := wellFormed_run options history
  have coherent : e.Coherent := coherent_run options history
  refine ⟨load_tooLarge_iff formed, ?_, ?_, ?_⟩
  · intro request insists timeout
    obtain ⟨stopped, unabandoned, outlasts⟩ := ask_of_timeout insists timeout
    have living : e.activity ≠ .ended := alive_eq_true_iff.mp (alive_of_outlasts outlasts)
    have alive : e.phase ≠ .stopped := fun stopped => living (formed.ended_iff.mpr stopped)
    have loaded : e.console.loaded = true := coherent.loaded (.inl alive)
    dsimp only
    rw [stopped]
    refine ⟨rfl, ?_, fun stuck => ⟨atRest_requestStop_of_stuck stuck, ?_⟩⟩
    · have active : e.requestStop.phase ≠ .stopped :=
        fun stopped => living (formed.requestStop.ended_iff.mpr stopped)
      have refused := coherent.requestStop.start_eq loaded
      rw [if_neg active] at refused
      simp only [ask, refused]
      rfl
    · obtain ⟨op, display, doing⟩ := atDisplay_of_stuck stuck
      obtain ⟨asks, passed⟩ := pending_run options history op display doing unabandoned
      refine ⟨op, display, doing, passed, asks, fun count => ?_⟩
      have settled := settle_releaseDisplay_of_cancelled (e := e.requestStop) rfl doing asks count
      obtain ⟨done, counted⟩ := complete_of_request? asks
      have kept := Continues.complete e.requestStop.releaseDisplay op
      have console : (e.requestStop.releaseDisplay.complete op).console =
          (e.console.complete op).state := by
        have succeeded : (e.requestStop.releaseDisplay.console.complete op).result = .ok op := done
        rw [complete, conclude_of_ok succeeded]
        rfl
      rw [settled]
      refine ⟨rfl, rfl, kept.hasRun, console, ?_, kept.loaded.trans loaded, ?_⟩
      · exact (congrArg Console.executed console).trans counted
      · exact congrArg Machine.Settings.program kept.settings
  · intro unloaded
    simp only [ask, start, unloaded]
    rfl
  · intro unstarted
    simp only [ask, restart, unstarted]
    rfl

/-- A restart that is refused while a program clears the held display, and a load that is refused
for its program: the first leaves a thread that ends after one more instruction, the second does
what a stop does. -/
theorem refused_requests_stop_at_display :
    let e := (ofOptions {}).run [.load [0x00, 0xE0, 0x12, 0x00], .holdDisplay, .start, .turn]
    let asked := (e.ask .restart).1
    (asked.ask .start = (asked, .said false) ∧
        (asked.releaseDisplay.settle 2).phase = .stopped ∧
        (asked.releaseDisplay.settle 2).console.executed = 1) ∧
      ((ofOptions {}).ask (.load (List.replicate 3585 0))).1 =
        ((ofOptions {}).ask (.stop true)).1 := by
  obtain ⟨-, timeouts, -⟩ := refused_requests_stop {}
    [.load [0x00, 0xE0, 0x12, 0x00], .holdDisplay, .start, .turn]
  obtain ⟨tooLarge, -⟩ := refused_requests_stop {} []
  generalize eq : (ofOptions {}).run
    [.load [0x00, 0xE0, 0x12, 0x00], .holdDisplay, .start, .turn] = e at timeouts
  have timeout : (e.ask .restart).2.kind? = some .engineTimeout := by
    rw [← eq]
    decide +kernel
  have fresh : e.console.executed = 0 := by
    rw [← eq]
    decide +kernel
  have stuck : e.stuck = true := by
    rw [← eq]
    decide +kernel
  obtain ⟨-, busy, heldUp⟩ := timeouts .restart (.inr rfl) timeout
  obtain ⟨-, op, display, -, -, -, settled⟩ := heldUp stuck
  obtain ⟨-, stopped, -, -, counted, -⟩ := settled 0
  rw [fresh] at counted
  refine ⟨⟨busy, stopped, counted⟩, ?_⟩
  obtain ⟨refused, kept⟩ := tooLarge (List.replicate 3585 0)
  refine kept (refused.mpr ⟨?_, by decide +kernel⟩)
  rw [List.length_replicate]
  decide

end Engine

end ChipEight
