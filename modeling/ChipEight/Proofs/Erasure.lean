import ChipEight.Proofs.Agreement

/-!
# Loading and restarting erase history

A load brings back the state of a new engine with the same program, whatever was done with
the engine before, as long as its thread can be ended: only a thread that is held up at the
display cannot. Of all that a program computes with, the random source alone goes on where
it was. So two engines with different histories are not told apart by anything a host does
after it has loaded the same program into both.

A load begins by insisting on the end of the thread, and it is refused if the host does not
wait long enough. It does wait long enough if it has seen the thread end before, or if the
time to wait is positive and can be measured and the thread ends within it
(`Engine.InTime`).

A restart is a load of the program that was loaded last, as it was loaded, followed by a
start.
-/

namespace ChipEight

/-! ## Consoles -/

namespace Console

variable {c d : Console}

/-- Consoles that were built with the same options and hold the same image are reset to
consoles that agree. -/
theorem agreeOff_reset (h : c.WellFormed) (h' : d.WellFormed) (options : c.options = d.options)
    (memory : c.machine.memory = d.machine.memory) (loaded : c.loaded = d.loaded) :
    c.reset.state.AgreeOff (· = .random) d.reset.state where
  machine :=
    { processor := rfl
      memory := by simp only [reset, resetMachine, memory]
      surface := (Display.surface_selectMode _ _).trans (Display.surface_selectMode _ _).symm
      diagnostics := by
        have limit : c.machine.diagnostics.limit = d.machine.diagnostics.limit := by
          rw [h.limit_eq, h'.limit_eq, options]
        simp only [reset, resetMachine, DiagnosticLog.clear, limit]
      reversed := h.reversed_eq.trans ((congrArg Options.reversed options).trans
        h'.reversed_eq.symm)
      timers := fun _ => rfl
      keypad := fun _ => rfl
      random := fun hidden => absurd rfl hidden }
  options := options
  executed := rfl
  fault := rfl
  loaded := loaded
  clock := fun _ => by
    simp only [reset, TickClock.reset, h.clock.period, h'.clock.period]
  meter := fun _ => rfl

theorem fits_room (h : c.WellFormed) {program : List UInt8} (fits : program.length ≤ 3584) :
    (program.length : Int) ≤ c.machine.memory.room := by
  rw [Memory.room, h.machine.memory.size_eq, Memory.fullSize, Memory.base]
  omega

/-- A program that does not fit changes nothing. -/
theorem load_of_overlong (h : c.WellFormed) {program : List UInt8} (long : 3584 < program.length) :
    c.load program =
      { state := c
        result := .error ⟨.programTooLarge program.length 3584, Memory.base, none⟩ } := by
  have room : c.machine.memory.room = 3584 := by
    rw [Memory.room, h.machine.memory.size_eq]
    decide
  have overlong : ¬ (program.length : Int) ≤ c.machine.memory.room := by omega
  rw [load, Memory.load, dif_neg overlong, room]

/-- A program that fits is loaded, and what is loaded depends on the options alone. -/
theorem agreeOff_load (h : c.WellFormed) (h' : d.WellFormed) (options : c.options = d.options)
    {program : List UInt8} (fits : program.length ≤ 3584) :
    (c.load program).result = .ok () ∧
      (c.load program).state.AgreeOff (· = .random) (d.load program).state := by
  obtain ⟨memory, loaded⟩ := Memory.load_eq_ok (fits_room h fits)
  have size := h.machine.memory.size_eq
  have size' := h'.machine.memory.size_eq
  have loaded' := (Memory.load_congr (size'.trans size.symm) program).trans loaded
  let image (c : Console) : Console :=
    { c with machine := { c.machine with memory }, loaded := true }
  have formed : (image c).WellFormed :=
    { h with machine := h.machine.setMemory (Memory.intact_load size loaded) }
  have formed' : (image d).WellFormed :=
    { h' with machine := h'.machine.setMemory (Memory.intact_load size' loaded') }
  have agreed := agreeOff_reset formed formed' options rfl rfl
  simp only [load, loaded, loaded']
  exact ⟨trivial, agreed⟩

end Console

/-! ## Engines -/

namespace Engine

variable {options : Options} {e f : Engine}

/-- The thread is held up at a display that the host holds. -/
def stuck (e : Engine) : Bool :=
  match e.activity with
  | .atDisplay _ _ => e.displayHeld
  | _ => false

/-- A thread that was asked to end does not come to the display any more. -/
theorem activity_turn_of_cancelled (asked : e.cancelled = true) {op : Fetched}
    {request : Display.Request} (held : e.turn.activity = .atDisplay op request) :
    e.activity = .atDisplay op request := by
  cases doing : e.activity with
  | ended =>
    simp only [turn, doing] at held
    cases held
  | ready =>
    simp only [turn, doing, proceed, if_pos asked] at held
    cases held
  | paused =>
    simp only [turn, doing, if_pos asked] at held
    cases held
  | awaitingKey other =>
    simp only [turn, doing, asked, Bool.or_true, if_true] at held
    exact absurd held (activity_conclude_ne e _ Activity.noConfusion Activity.noConfusion)
  | atDisplay other asking =>
    simp only [turn, doing] at held
    split at held
    · rw [← held, doing]
    · exact absurd held (activity_conclude_ne e _ Activity.noConfusion Activity.noConfusion)

theorem activity_settle_of_cancelled (asked : e.cancelled = true) (turns : Nat) {op : Fetched}
    {request : Display.Request} (held : (e.settle turns).activity = .atDisplay op request) :
    e.activity = .atDisplay op request := by
  induction turns generalizing e with
  | zero => exact held
  | succ turns ih =>
    rw [settle] at held
    split at held
    · exact held
    · have still : e.turn.cancelled = true := (Continues.turn e).cancelled.trans asked
      exact activity_turn_of_cancelled asked (ih still held)

/-- A request to stop ends the thread of every engine that is not stuck. -/
theorem activity_stop_of_not_stuck (free : e.stuck = false) : e.stop.activity = .ended := by
  rcases activity_stop e with ended | ⟨held, op, request, doing⟩
  · exact ended
  · have earlier : e.activity = .atDisplay op request :=
      activity_settle_of_cancelled (cancelled_requestStop e) 2 doing
    have kept : e.displayHeld = true := (Continues.settle e.requestStop 2).displayHeld ▸ held
    rw [stuck, earlier] at free
    rw [kept] at free
    cases free

/-- The host waits long enough for a thread that ends when it is asked to. -/
def InTime (e : Engine) (turns : Nat) : Prop :=
  e.dismissed = true ∨ e.console.options.stopTimeout.wait = .ends ∧ 2 ≤ turns

theorem isMeasurable_of_ends {patience : Number} (ends : patience.wait = .ends) :
    patience.isMeasurable = true := by
  rw [Number.isMeasurable, ends]

/-- Within a time that passes the thread ends unless it is stuck. -/
theorem stopAndWait_of_not_stuck {turns : Nat} (free : e.stuck = false) (time : e.InTime turns) :
    e.stopAndWait turns = (e.stop, .ok ()) := by
  rw [stopAndWait]
  by_cases dismissed : e.dismissed = true
  · rw [if_pos dismissed]
  · obtain ⟨ends, enough⟩ := time.resolve_left dismissed
    have given : e.turnsAwaited turns = turns := if_pos ends
    have later : e.requestStop.settle turns = e.stop := settle_of_le e.atRest_stop enough
    simp only [if_neg dismissed, isMeasurable_of_ends ends, if_true, given, later,
      activity_stop_of_not_stuck free]

variable {turns : Nat}

theorem stopAndWait_of_ok (waited : (e.stopAndWait turns).2 = .ok ()) :
    e.stopAndWait turns = (e.stop, .ok ()) := by
  have same : e.stopAndWait turns = ((e.stopAndWait turns).1, .ok ()) := Prod.ext rfl waited
  rw [same, stopAndWait_eq_ok same]

/-- A load is carried out only if the thread has been waited for with success. -/
theorem stopAndWait_of_load {program : List UInt8} (loaded : (e.load program turns).2 = .ok ()) :
    e.stopAndWait turns = (e.stop, .ok ()) := by
  rw [load] at loaded
  split at loaded
  · cases loaded
  · next waited => exact stopAndWait_of_ok (congrArg Prod.snd waited)

/-- Where a load leaves an engine that is not stuck: ended, asked to end, and with a program
that has not been started. -/
theorem load_of_not_stuck (h : e.WellFormed options) (free : e.stuck = false)
    (waited : e.stopAndWait turns = (e.stop, .ok ())) {program : List UInt8}
    (loaded : (e.stop.console.load program).result = .ok ()) :
    (e.load program turns).2 = .ok () ∧
      (e.load program turns).1.console = (e.stop.console.load program).state ∧
      (e.load program turns).1.phase = .stopped ∧ (e.load program turns).1.cancelled = true ∧
      (e.load program turns).1.activity = .ended ∧ (e.load program turns).1.hasRun = false := by
  have ended := activity_stop_of_not_stuck free
  have phase := h.stop.ended_iff.mp ended
  have asked : e.stop.cancelled = true := (Continues.settle e.requestStop 2).cancelled
  simp only [load, waited, loaded]
  exact ⟨trivial, rfl, phase, asked, ended, rfl⟩

/-- A program that does not fit is refused when the thread has ended already. -/
theorem load_of_overlong (h : e.WellFormed options)
    (waited : e.stopAndWait turns = (e.stop, .ok ())) {program : List UInt8}
    (long : 3584 < program.length) :
    e.load program turns =
      (e.stop, .error (.fault ⟨.programTooLarge program.length 3584, Memory.base, none⟩)) := by
  simp only [load, waited, Console.load_of_overlong h.stop.console long]

/-- A program that fits is loaded into an engine that is not stuck and that ends in time. -/
theorem load_of_fits (h : e.WellFormed options) (free : e.stuck = false) (time : e.InTime turns)
    {program : List UInt8} (fits : program.length ≤ 3584) : (e.load program turns).2 = .ok () := by
  obtain ⟨loaded, -⟩ := Console.agreeOff_load h.stop.console h.stop.console rfl fits
  exact (load_of_not_stuck h free (stopAndWait_of_not_stuck free time) loaded).1

/-- A load that succeeds makes engines agree that were built with the same options. -/
theorem agreeOff_load (h : e.WellFormed options) (h' : f.WellFormed options)
    (free : e.stuck = false) (free' : f.stuck = false) {program : List UInt8} {turns' : Nat}
    (succeeded : (e.load program turns).2 = .ok ())
    (succeeded' : (f.load program turns').2 = .ok ()) (fits : program.length ≤ 3584) :
    (e.load program turns).1.AgreeOff (· = .random) (f.load program turns').1 := by
  have same : e.stop.console.options = f.stop.console.options :=
    h.stop.options_eq.trans h'.stop.options_eq.symm
  obtain ⟨loaded, agreed⟩ := Console.agreeOff_load h.stop.console h'.stop.console same fits
  obtain ⟨loaded', -⟩ := Console.agreeOff_load h'.stop.console h.stop.console same.symm fits
  obtain ⟨-, console, phase, cancelled, activity, hasRun⟩ :=
    load_of_not_stuck h free (stopAndWait_of_load succeeded) loaded
  obtain ⟨-, console', phase', cancelled', activity', hasRun'⟩ :=
    load_of_not_stuck h' free' (stopAndWait_of_load succeeded') loaded'
  exact
    { console := by rw [console, console']; exact agreed
      phase := phase.trans phase'.symm
      cancelled := cancelled.trans cancelled'.symm
      activity := activity.trans activity'.symm
      hasRun := hasRun.trans hasRun'.symm }

/-- A start succeeds if a program is loaded and nothing is running, and then leaves an engine
that is running from where it was. -/
theorem start_eq_ok_true_iff {started : Engine} :
    e.start = (started, .ok true) ↔
      (e.console.loaded = true ∧ e.phase = .stopped ∧ e.join = true) ∧
        started =
          ({ e with
            cancelled := false, phase := .running, activity := .ready, abandoned := false
            endSeen := false, hasRun := true } : Engine).tell [.engineStarted] := by
  rw [start]
  cases loaded : e.console.loaded with
  | false => simp
  | true =>
    by_cases phase : e.phase = .stopped
    · cases join : e.join with
      | false => simp [phase]
      | true => simp [phase, eq_comm]
    · simp [phase]

end Engine

end ChipEight
