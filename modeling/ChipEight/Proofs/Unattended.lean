import ChipEight.Proofs.HeadlessRuns
import ChipEight.Proofs.Turns

/-!
# Engines that nobody attends to

An engine that is loaded, given keys to hold, started and then left alone does what a headless
run of the same program with the same keys does. The two go their ways in different loops: a
headless run looks at the program counter after every instruction and ends when an instruction
stays in place, a thread goes on and ends only by a fault. What they have in common are the moves
of the console, and the induction is on these (`Engine.Unattended.settle_of_moves`).

They part where the run halts at a wait for a key. The run has called the wait off before it
began, so that the wait went back to its own address and was counted. The thread is still in it:
its program counter is past the wait and the wait is not counted yet, until a request to stop
calls it off as well. That takes a thread that can wait: if the time until it looks for a key again
cannot be measured, the wait ends the thread instead (`Engine.launch_breaks_off`).
-/

namespace ChipEight

namespace Console

variable {c d : Console}

/-- Keys that are held change the keypad alone. -/
theorem holdKeys_eq {keys : List Int} (held : c.holdKeys keys = .ok d) :
    d = { c with machine := { c.machine with keypad := d.machine.keypad } } := by
  induction keys generalizing c with
  | nil =>
    cases held
    rfl
  | cons key rest ih =>
    rw [holdKeys] at held
    split at held
    · cases held
    · next next set =>
      have first := setKey_eq set
      have last := ih held
      rw [first] at last
      exact last

end Console

namespace Engine

variable {e : Engine} {options : Options}

/-- An instruction that waits for a key stays in place when it is not waited for. -/
theorem step_of_waits (formed : e.console.WellFormed) (waiting : e.waits = true) :
    e.console.step.result = .ok e.console.machine.current ∧
      e.console.step.state = { e.console with executed := e.console.executed + 1 } := by
  have memory := formed.machine.memory
  obtain ⟨fetches, ⟨x, decoded⟩, released, -⟩ := (waits_iff memory).mp waiting
  have same := Machine.step_of_awaitKey memory fetches decoded released
  rw [Console.step, Console.afterInstruction, same]
  exact ⟨rfl, rfl⟩

theorem awake_of_away (formed : e.console.WellFormed) {op : Fetched}
    (done : e.console.step.result = .ok op) (away : e.console.step.state.machine.pc ≠ op.addr) :
    e.waits = false := by
  refine Bool.eq_false_iff.mpr fun waiting => away ?_
  obtain ⟨stayed, state⟩ := step_of_waits formed waiting
  rw [stayed] at done
  cases done
  rw [state]
  rfl

theorem awake_of_failure (formed : e.console.WellFormed) {fault : Fault}
    (failure : e.console.step.result = .error fault) : e.waits = false := by
  refine Bool.eq_false_iff.mpr fun waiting => ?_
  rw [(step_of_waits formed waiting).1] at failure
  cases failure

/-- A thread between two instructions that nothing but the program itself will hold back. -/
structure Unattended (e : Engine) : Prop where
  ready : e.activity = .ready
  running : e.phase = .running
  going : e.cancelled = false
  free : e.displayHeld = false
  unpaused : e.console.debugMode = false

namespace Unattended

theorem pause_eq (h : e.Unattended) : e.pause = .nothing := by
  rw [pause, h.unpaused, if_neg Bool.false_ne_true]

theorem turn_eq (h : e.Unattended) : e.turn = e.beginInstruction :=
  turn_of_ready h.ready h.going h.pause_eq

theorem atRest_eq_false (h : e.Unattended) : e.atRest = false := atRest_of_ready h.ready

theorem turn_of_awake (h : e.Unattended) (awake : e.waits = false) :
    e.turn = e.conclude e.console.step := by
  rw [h.turn_eq, beginInstruction_eq_conclude_step h.going h.free awake]

theorem turn_of_step (h : e.Unattended) (awake : e.waits = false) {op : Fetched}
    (done : e.console.step.result = .ok op) :
    e.turn.Unattended ∧ e.turn.console = e.console.step.state := by
  rw [h.turn_of_awake awake, conclude_of_ok done]
  exact ⟨⟨rfl, h.running, h.going, h.free, h.unpaused⟩, rfl⟩

/-- A thread that is left alone follows the moves of its console. -/
theorem settle_of_moves (h : e.Unattended) (formed : e.console.WellFormed) {n : Nat} {c : Console}
    (moves : e.console.Moves n c) : (e.settle n).Unattended ∧ (e.settle n).console = c := by
  generalize start : e.console = first at moves
  induction moves generalizing e with
  | refl => exact ⟨h, start⟩
  | cons done away rest ih =>
    subst start
    have awake := awake_of_away formed done away
    obtain ⟨next, console⟩ := h.turn_of_step awake done
    rw [settle_succ h.atRest_eq_false]
    exact ih next (by rw [console]; exact formed.step) console

/-- A fault ends the thread and is recorded. -/
theorem settle_of_failure (h : e.Unattended) (formed : e.console.WellFormed) {fault : Fault}
    (failure : e.console.step.result = .error fault) :
    (e.settle 1).activity = .ended ∧ (e.settle 1).phase = .stopped ∧
      (e.settle 1).console = { e.console.step.state with fault := some fault } := by
  have awake := awake_of_failure formed failure
  rw [settle_succ h.atRest_eq_false, h.turn_of_awake awake, conclude_of_error failure]
  exact ⟨rfl, rfl, rfl⟩

/-- A wait for a key is begun, and left only for a key or for a request to stop. -/
theorem settle_of_waits (h : e.Unattended) (formed : e.console.WellFormed)
    (polls : e.breaksOff = false) (waiting : e.waits = true) :
    e.settle 1 = { e.pass with activity := .awaitingKey e.console.machine.current } ∧
      (e.settle 1).atRest = true := by
  have memory := formed.machine.memory
  obtain ⟨fetches, -, released, -⟩ := (waits_iff memory).mp waiting
  have fetched := Machine.fetch_of_fetches memory fetches
  have unheld : e.keyHeld = false := keyHeld_eq_false_iff.mpr released
  have resting : (!e.keyHeld && !e.cancelled && !e.breaksOff) = true := by
    rw [unheld, h.going, polls]
    rfl
  rw [Engine.settle_of_waits h.ready h.going h.pause_eq polls fetched waiting 0]
  exact ⟨rfl, resting⟩

/-- If what stays in place is a wait for a key, then the thread has to wait. -/
theorem waits_of_stays (h : e.Unattended) (formed : e.console.WellFormed)
    (stays : e.console.Stays) {x : Fin 16}
    (decoded : e.console.step.state.machine.word.decode = .awaitKey x) : e.waits = true := by
  obtain ⟨op, done, back⟩ := stays
  obtain ⟨fetches, stays, -, -, same⟩ := Machine.stays_of_step formed.machine done back
  have word : e.console.step.state.machine.word = e.console.machine.word := same
  rw [word] at decoded
  exact (waits_iff formed.machine.memory).mpr
    ⟨fetches, ⟨x, decoded⟩, stays.released decoded, h.going⟩

/-- A request to stop brings the thread back to where it stood before the wait, with one more
instruction counted. -/
theorem stop_of_waits (h : e.Unattended) (formed : e.console.WellFormed)
    (polls : e.breaksOff = false) (waiting : e.waits = true) :
    (e.settle 1).stop.phase = .stopped ∧ (e.settle 1).stop.console = e.console.step.state := by
  obtain ⟨-, ⟨x, decoded⟩, released, -⟩ := (waits_iff formed.machine.memory).mp waiting
  have awaits : waitsForKey e.console.machine.current = true := waitsForKey_iff.mpr ⟨x, decoded⟩
  have unheld : ({ e.pass with activity := .awaitingKey e.console.machine.current } :
      Engine).keyHeld = false := keyHeld_eq_false_iff.mpr released
  rw [(h.settle_of_waits formed polls waiting).1, stop_of_awaitingKey rfl awaits unheld,
    (step_of_waits formed waiting).2]
  exact ⟨rfl, rfl⟩

end Unattended

/-! ## Leaving an engine alone -/

/-- A new engine in which a program has been loaded, keys are held and the thread is started. -/
def launch (options : Options) (program : List UInt8) (keys : List Int) : Engine :=
  (ofOptions options).run
    (.load program :: keys.map (fun key => .act (.setKey key true)) ++ [.start])

/-- Holding keys one by one is holding them all. -/
theorem run_setKeys {keys : List Int} {c : Console} (held : e.console.holdKeys keys = .ok c) :
    e.run (keys.map fun key => .act (.setKey key true)) = { e with console := c } := by
  induction keys generalizing e with
  | nil =>
    cases held
    rfl
  | cons key rest ih =>
    rw [Console.holdKeys] at held
    split at held
    · cases held
    · next next set =>
      have acted : e.perform (.act (.setKey key true)) = { e with console := next } := by
        rw [perform, act_setKey, setKey, set]
      rw [List.map_cons, run_cons, acted]
      exact ih held

/-- A new engine has no thread to end before a load. -/
theorem load_ofOptions {program : List UInt8}
    (loaded : ((Console.ofOptions options).load program).result = .ok ()) :
    ((ofOptions options).load program).1 =
      ({ (ofOptions options).requestStop with
        console := ((Console.ofOptions options).load program).state
        hasRun := false } : Engine).tell ((Console.ofOptions options).load program).events := by
  have idle : (ofOptions options).stop = (ofOptions options).requestStop := settle_of_atRest rfl 2
  have console : (ofOptions options).requestStop.console = Console.ofOptions options := rfl
  rw [load, stopAndWait_of_not_stuck rfl (.inl rfl), idle]
  simp only [console, loaded]

/-- A thread that is started on a new engine is left alone from its first instruction on. -/
theorem unattended_launch {program : List UInt8} {keys : List Int} {c : Console}
    (off : options.debugMode = false)
    (loaded : ((Console.ofOptions options).load program).result = .ok ())
    (held : ((Console.ofOptions options).load program).state.holdKeys keys = .ok c) :
    (launch options program keys).Unattended ∧ (launch options program keys).console = c := by
  obtain ⟨ready, debug⟩ := Console.loaded_load loaded
  have keyed := Console.holdKeys_eq held
  have begun : c.loaded = true := by rw [keyed]; exact ready
  have unpaused : c.debugMode = false := by rw [keyed]; exact debug.trans off
  have consoles : ((ofOptions options).load program).1.console =
      ((Console.ofOptions options).load program).state := by rw [load_ofOptions loaded]; rfl
  have pressed := run_setKeys (e := ((ofOptions options).load program).1) (consoles ▸ held)
  have launched : launch options program keys =
      ({ ((ofOptions options).load program).1 with console := c } : Engine).start.1 := by
    rw [← pressed, launch, run, List.foldl_append]
    rfl
  have started : ({ ((ofOptions options).load program).1 with console := c } : Engine).start =
      (_, .ok true) := start_eq_ok_true_iff.mpr ⟨⟨begun, ?_, ?_⟩, rfl⟩
  · rw [launched, started, load_ofOptions loaded]
    exact ⟨⟨rfl, rfl, rfl, rfl, unpaused⟩, rfl⟩
  · rw [load_ofOptions loaded]
    rfl
  · rw [load_ofOptions loaded]
    rfl

/-- A program that has room is loaded by a new engine. -/
theorem load_ofOptions_of_fits (options : Options) {program : List UInt8}
    (fits : program.length ≤ 3584) :
    ((Console.ofOptions options).load program).result = .ok () := by
  have formed := Console.wellFormed_ofOptions options
  exact (Console.agreeOff_load formed formed rfl fits).1

/-- An engine that is launched and left alone comes to where a headless run of the same program
comes to. If the run ends by a fault, the thread ends by the same fault, which is recorded, and
the consoles are equal. If the run is halted at a wait for a key, and the time until a thread looks
for a key again can be measured, the thread rests in that wait, past it and without having counted
it; a request to stop then makes the consoles equal. -/
theorem launch_follows_run (program : List UInt8) (options : Options) (keys : List Int)
    (limit : Int) (run : HeadlessRun) (off : options.debugMode = false)
    (fits : program.length ≤ 3584)
    (ran : HeadlessRun.ofProgram program options keys limit = .ok run) :
    let e := launch options program keys
    (∀ fault, run.fault = some fault → ∃ turns,
        (e.settle turns).activity = .ended ∧ (e.settle turns).phase = .stopped ∧
          (e.settle turns).console = { run.console with fault := some fault }) ∧
      (options.keyPoll.wait ≠ .tooLong → run.halted = true → run.fault = none →
        (∃ x, run.console.machine.word.decode = .awaitKey x) → ∃ turns,
          let last := e.settle turns
          (last.atRest = true ∧ last.phase = .running ∧
              last.activity = .awaitingKey run.console.machine.current) ∧
            (last.console.executed + 1 = run.console.executed ∧
              last.console = { run.console with
                machine := run.console.machine.goto (run.console.machine.pc + 2)
                executed := last.console.executed }) ∧
            last.stop.phase = .stopped ∧ last.stop.console = run.console) := by
  intro e
  have formed := Console.wellFormed_ofOptions options
  rcases HeadlessRun.ends_of_ofProgram ran with ⟨fault, -, refused⟩ | ⟨first, loaded, held, -, ends⟩
  · rw [load_ofOptions_of_fits options fits] at refused
    cases refused
  obtain ⟨alone, console⟩ := unattended_launch off loaded held
  have begun : e.console.WellFormed := by
    rw [console]
    exact (formed.load program).holdKeys held
  have kept : ∀ k, (e.settle k).console.options = options := fun k =>
    ((wellFormed_run options _).settle k).options_eq
  have follow : ∀ {k c}, first.console.Moves k c →
      (e.settle k).Unattended ∧ (e.settle k).console = c ∧ c.WellFormed := by
    intro k c moves
    rw [← console] at moves
    obtain ⟨next, reached⟩ := alone.settle_of_moves begun moves
    exact ⟨next, reached, begun.moves moves⟩
  cases ends with
  | exhausted _ _ going sound =>
    refine ⟨fun fault failed => ?_, fun _ halted => ?_⟩
    · rw [sound] at failed
      cases failed
    · rw [going] at halted
      cases halted
  | @failed k c fault _ moves failure reached _ _ failed =>
    obtain ⟨next, here, healthy⟩ := follow moves
    subst here
    obtain ⟨ended, stopped, last⟩ := next.settle_of_failure healthy failure
    refine ⟨fun other same => ⟨k + 1, ?_⟩, fun _ _ sound => ?_⟩
    · rw [failed] at same
      cases same
      rw [settle_add, reached]
      exact ⟨ended, stopped, last⟩
    · rw [failed] at sound
      cases sound
  | @stayed k c _ moves stays reached _ _ sound =>
    obtain ⟨next, here, healthy⟩ := follow moves
    subst here
    refine ⟨fun fault failed => ?_, ?_⟩
    · rw [sound] at failed
      cases failed
    · rintro measured - - ⟨x, decoded⟩
      rw [reached] at decoded ⊢
      have polls : (e.settle k).breaksOff = false := by
        rw [breaksOff, kept]
        exact decide_eq_false measured
      have waiting := next.waits_of_stays healthy stays decoded
      obtain ⟨begins, resting⟩ := next.settle_of_waits healthy polls waiting
      obtain ⟨stopped, back⟩ := next.stop_of_waits healthy polls waiting
      obtain ⟨fetches, -, -, -⟩ := (waits_iff healthy.machine.memory).mp waiting
      have passed := Machine.advance_of_fetches fetches
      rw [(step_of_waits healthy waiting).2] at back ⊢
      refine ⟨k + 1, ?_⟩
      rw [settle_add]
      refine ⟨⟨resting, ?_, ?_⟩, ⟨?_, ?_⟩, stopped, back⟩
      · rw [begins]
        exact next.running
      · rw [begins]
      · rw [begins]
        rfl
      · rw [begins, pass, passed]

/-- A program that sets a register and then waits for a key comes to rest behind the wait, with
one instruction counted. Called off, it stands in front of the wait with two. -/
theorem launch_rests_in_wait :
    ∃ turns, let last := (launch {} [0x6A, 0x07, 0xF0, 0x0A] []).settle turns
      last.atRest = true ∧ last.phase = .running ∧ last.console.machine.pc = 0x204 ∧
        last.console.executed = 1 ∧ last.stop.console.machine.pc = 0x202 ∧
          last.stop.console.executed = 2 := by
  have seen : (HeadlessRun.ofProgram [0x6A, 0x07, 0xF0, 0x0A] {} [] 10).map
      (fun run => (run.halted, run.fault, run.console.machine.word.decode, run.console.machine.pc,
        run.console.executed)) = .ok (true, none, .awaitKey 0, 0x202, 2) := by decide +kernel
  cases ran : HeadlessRun.ofProgram [0x6A, 0x07, 0xF0, 0x0A] {} [] 10 with
  | error refusal =>
    rw [ran] at seen
    cases seen
  | ok run =>
    rw [ran] at seen
    obtain ⟨halted, sound, decoded, pc, count⟩ : run.halted = true ∧ run.fault = none ∧
        run.console.machine.word.decode = .awaitKey 0 ∧ run.console.machine.pc = 0x202 ∧
          run.console.executed = 2 := by simpa [Except.map] using seen
    obtain ⟨turns, ⟨resting, running, -⟩, ⟨counted, console⟩, -, back⟩ :=
      (launch_follows_run [0x6A, 0x07, 0xF0, 0x0A] {} [] 10 run rfl (by decide) ran).2
        (by decide +kernel) halted sound ⟨0, decoded⟩
    refine ⟨turns, resting, running, ?_, by omega, ?_, ?_⟩
    · rw [console]
      change run.console.machine.pc + 2 = 0x204
      rw [pc]
      rfl
    · rw [back, pc]
    · rw [back, count]

/-- A wait for a key that cannot be measured ends the thread, although the run halts at it: the
engine never rests running, and the wait is passed without having been counted. -/
theorem launch_breaks_off :
    let options : Options := { keyPoll := .whole 9223372037 }
    let e := launch options [0xF0, 0x0A] []
    (∃ run, HeadlessRun.ofProgram [0xF0, 0x0A] options [] 10 = .ok run ∧ run.halted = true ∧
        run.fault = none ∧ ∃ x, run.console.machine.word.decode = .awaitKey x) ∧
      (∀ turns, ¬ ((e.settle turns).atRest = true ∧ (e.settle turns).phase = .running)) ∧
      (e.settle 2).phase = .stopped ∧ (e.settle 2).console.machine.pc = 0x202 ∧
        (e.settle 2).console.executed = 0 ∧ (e.settle 2).console.fault = none := by
  intro options e
  have seen : (HeadlessRun.ofProgram [0xF0, 0x0A] options [] 10).map
      (fun run => (run.halted, run.fault, run.console.machine.word.decode)) =
        .ok (true, none, .awaitKey 0) := by decide +kernel
  have early : (e.settle 0).atRest = false ∧ (e.settle 1).atRest = false := by decide +kernel
  have late : (e.settle 2).atRest = true ∧ (e.settle 2).phase = .stopped ∧
      (e.settle 2).console.machine.pc = 0x202 ∧ (e.settle 2).console.executed = 0 ∧
        (e.settle 2).console.fault = none := by decide +kernel
  refine ⟨?_, ?_, late.2⟩
  · cases ran : HeadlessRun.ofProgram [0xF0, 0x0A] options [] 10 with
    | error refusal =>
      rw [ran] at seen
      cases seen
    | ok run =>
      rw [ran] at seen
      obtain ⟨halted, sound, decoded⟩ : run.halted = true ∧ run.fault = none ∧
          run.console.machine.word.decode = .awaitKey 0 := by simpa [Except.map] using seen
      exact ⟨run, rfl, halted, sound, 0, decoded⟩
  · rintro turns ⟨resting, running⟩
    cases turns with
    | zero =>
      rw [early.1] at resting
      cases resting
    | succ turns =>
      cases turns with
      | zero =>
        rw [early.2] at resting
        cases resting
      | succ turns =>
        rw [settle_of_le late.1 (Nat.le_add_left 2 turns), late.2.1] at running
        cases running

end Engine

end ChipEight
