import ChipEight.Proofs.ConsoleBounds
import ChipEight.Proofs.History

/-!
# The bounds of an engine

The engine adds a thread to the console, and with it the moments at which an instruction is
under way: the program counter is past its word already, and the word is completed later.
What a wait for a key completes later was fetched at an address that execution may reach,
which is all that the bounds of the console ask for. `Engine.WellFormed` carries this along,
with the agreement of thread and lifecycle, through every operation of a history.
-/

namespace ChipEight

namespace Engine

variable {options : Options} {e : Engine}

/-- What holds of an engine that was built with the given options. -/
structure WellFormed (options : Options) (e : Engine) : Prop where
  console : e.console.WellFormed
  options_eq : e.console.options = options
  ended_iff : e.activity = .ended ↔ e.phase = .stopped
  awaited : ∀ op, e.activity = .awaitingKey op →
    0x200 ≤ op.addr ∧ op.addr ≤ 0xFFE ∧ e.console.machine.pc = op.addr + 2

/-- The same thread with another console. -/
theorem WellFormed.setConsole (h : e.WellFormed options) {next : Engine}
    (console : next.console.WellFormed) (same : next.console.options = e.console.options)
    (phase : next.phase = e.phase) (activity : next.activity = e.activity)
    (pc : ∀ op, e.activity = .awaitingKey op →
      next.console.machine.pc = e.console.machine.pc) : next.WellFormed options where
  console := console
  options_eq := same.trans h.options_eq
  ended_iff := by rw [phase, activity]; exact h.ended_iff
  awaited := by
    intro op doing
    rw [activity] at doing
    rw [pc op doing]
    exact h.awaited op doing

/-- The thread ends, or is ready for the next instruction. -/
theorem WellFormed.settled (console : e.console.WellFormed)
    (same : e.console.options = options)
    (idle : e.activity = .ended ∧ e.phase = .stopped ∨
      e.activity = .ready ∧ e.phase ≠ .stopped) : e.WellFormed options where
  console := console
  options_eq := same
  ended_iff := by
    rcases idle with ⟨activity, phase⟩ | ⟨activity, phase⟩
    · exact iff_of_true activity phase
    · exact iff_of_false (by rw [activity]; exact Activity.noConfusion) phase
  awaited := by
    intro op doing
    rcases idle with ⟨activity, _⟩ | ⟨activity, _⟩
    · rw [activity] at doing
      cases doing
    · rw [activity] at doing
      cases doing

/-! ## The thread -/

/-- Completing an instruction does not suspend the thread. -/
theorem activity_conclude_ne (e : Engine) (done : Effect Console (Except Fault Fetched))
    {doing : Activity} (unready : doing ≠ .ready) (living : doing ≠ .ended) :
    (e.conclude done).activity ≠ doing := by
  rcases activity_conclude e done with ready | ended
  · rw [ready]
    exact unready.symm
  · rw [ended]
    exact living.symm

theorem wellFormed_finish (console : e.console.WellFormed) (same : e.console.options = options) :
    e.finish.WellFormed options :=
  .settled console same (.inl ⟨rfl, rfl⟩)

theorem wellFormed_halt (console : e.console.WellFormed) (same : e.console.options = options)
    (fault : Fault) : (e.halt fault).WellFormed options :=
  wellFormed_finish (console.setFault fault) same

/-- An instruction was completed on a thread that is alive. -/
theorem wellFormed_conclude (alive : e.phase ≠ .stopped)
    {done : Effect Console (Except Fault Fetched)} (console : done.state.WellFormed)
    (same : done.state.options = options) : (e.conclude done).WellFormed options := by
  rw [conclude]
  split
  · exact .settled console same (.inr ⟨rfl, alive⟩)
  · exact wellFormed_halt console same _

namespace WellFormed

theorem phase_ne (h : e.WellFormed options) {activity : Activity} (doing : e.activity = activity)
    (busy : activity ≠ .ended) : e.phase ≠ .stopped := by
  intro stopped
  rw [← doing] at busy
  exact busy (h.ended_iff.mpr stopped)

/-- A thread that is alive goes on to something that is not a wait for a key. -/
theorem doing (h : e.WellFormed options) (alive : e.phase ≠ .stopped) {activity : Activity}
    (busy : activity ≠ .ended) (other : ∀ op, activity ≠ .awaitingKey op) :
    ({ e with activity } : Engine).WellFormed options :=
  { h with
    ended_iff := iff_of_false busy alive
    awaited := fun op waits => absurd waits (other op) }

theorem complete (h : e.WellFormed options) {op : Fetched} (alive : e.phase ≠ .stopped)
    (low : 0x200 ≤ op.addr) (high : op.addr ≤ 0xFFE)
    (passed : e.console.machine.pc = op.addr + 2) : (e.complete op).WellFormed options :=
  wellFormed_conclude alive (h.console.complete low high passed) h.options_eq

theorem present (h : e.WellFormed options) (alive : e.phase ≠ .stopped) (op : Fetched)
    (request : Display.Request) : (e.present op request).WellFormed options :=
  wellFormed_conclude alive (h.console.present op request) h.options_eq

/-- A thread that is alive may begin the next instruction: the fetch fails, or the word is
passed and then waits for a key, is held up, or is completed. -/
theorem beginInstruction (h : e.WellFormed options) (alive : e.phase ≠ .stopped) :
    e.beginInstruction.WellFormed options := by
  by_cases fetches : e.console.machine.Fetches
  · have moved := Machine.pc_advance_of_fetches fetches
    have console : ({ e.console with machine := e.console.machine.advance } : Console).WellFormed :=
      h.console.setMachine (h.console.machine.advance fetches) rfl
    have passed : ({ e.pass with activity := .ready } : Engine).WellFormed options :=
      .settled console h.options_eq (.inr ⟨rfl, alive⟩)
    rw [Engine.beginInstruction, Machine.fetch_of_fetches h.console.machine.memory fetches]
    dsimp only
    split
    · refine { passed with ended_iff := ?_, awaited := ?_ }
      · exact iff_of_false Activity.noConfusion alive
      · intro op doing
        cases doing
        exact ⟨fetches.1, fetches.2, moved⟩
    · split
      · exact passed.doing alive Activity.noConfusion fun _ => Activity.noConfusion
      · exact passed.complete alive fetches.1 fetches.2 moved
  · rw [Engine.beginInstruction, Machine.fetch_of_not_fetches h.console.machine.memory fetches]
    exact wellFormed_halt h.console h.options_eq _

theorem proceed (h : e.WellFormed options) (ready : e.activity = .ready) :
    e.proceed.WellFormed options := by
  have alive : e.phase ≠ .stopped := h.phase_ne ready Activity.noConfusion
  rw [Engine.proceed]
  split
  · exact wellFormed_finish h.console h.options_eq
  · split
    · exact h.doing alive Activity.noConfusion fun _ => Activity.noConfusion
    · exact wellFormed_finish h.console h.options_eq
    · exact h.beginInstruction alive
    · exact h.beginInstruction alive

theorem turn (h : e.WellFormed options) : e.turn.WellFormed options := by
  cases doing : e.activity with
  | ended =>
    simp only [Engine.turn, doing]
    exact h
  | ready =>
    simp only [Engine.turn, doing]
    exact h.proceed doing
  | paused =>
    simp only [Engine.turn, doing]
    split
    · exact wellFormed_finish h.console h.options_eq
    · exact h
  | awaitingKey op =>
    have alive : e.phase ≠ .stopped := h.phase_ne doing Activity.noConfusion
    obtain ⟨low, high, passed⟩ := h.awaited op doing
    simp only [Engine.turn, doing]
    split
    · exact h.complete alive low high passed
    · split
      · exact wellFormed_finish h.console h.options_eq
      · exact h
  | atDisplay op request =>
    have alive : e.phase ≠ .stopped := h.phase_ne doing Activity.noConfusion
    simp only [Engine.turn, doing]
    split
    · exact h
    · exact h.present alive op request

theorem settle (h : e.WellFormed options) (turns : Nat) : (e.settle turns).WellFormed options :=
  of_settle (fun _ h => h.turn) h turns

theorem wake (h : e.WellFormed options) : e.wake.WellFormed options := by
  rw [Engine.wake]
  split
  · next pausing => exact h.beginInstruction (h.phase_ne pausing.1 Activity.noConfusion)
  · exact h

end WellFormed

/-! ## What the thread leaves to the host -/

/-- The second engine differs from the first by what a thread may have done: what the host
asked for and holds, and what the console was built and loaded with, are the same. -/
structure Continues (e next : Engine) : Prop where
  cancelled : next.cancelled = e.cancelled
  hasRun : next.hasRun = e.hasRun
  displayHeld : next.displayHeld = e.displayHeld
  abandoned : next.abandoned = e.abandoned
  endSeen : next.endSeen = e.endSeen
  loaded : next.console.loaded = e.console.loaded
  options : next.console.options = e.console.options
  settings : next.console.machine.settings = e.console.machine.settings

namespace Continues

variable {next last : Engine}

theorem refl (e : Engine) : e.Continues e := ⟨rfl, rfl, rfl, rfl, rfl, rfl, rfl, rfl⟩

theorem trans (h : e.Continues next) (h' : next.Continues last) : e.Continues last where
  cancelled := h'.cancelled.trans h.cancelled
  hasRun := h'.hasRun.trans h.hasRun
  displayHeld := h'.displayHeld.trans h.displayHeld
  abandoned := h'.abandoned.trans h.abandoned
  endSeen := h'.endSeen.trans h.endSeen
  loaded := h'.loaded.trans h.loaded
  options := h'.options.trans h.options
  settings := h'.settings.trans h.settings

theorem doing (e : Engine) (activity : Activity) : e.Continues { e with activity } :=
  ⟨rfl, rfl, rfl, rfl, rfl, rfl, rfl, rfl⟩

theorem finish (e : Engine) : e.Continues e.finish := ⟨rfl, rfl, rfl, rfl, rfl, rfl, rfl, rfl⟩

theorem halt (e : Engine) (fault : Fault) : e.Continues (e.halt fault) :=
  ⟨rfl, rfl, rfl, rfl, rfl, rfl, rfl, rfl⟩

theorem conclude (e : Engine) {done : Effect Console (Except Fault Fetched)}
    (loaded : done.state.loaded = e.console.loaded)
    (options : done.state.options = e.console.options)
    (settings : done.state.machine.settings = e.console.machine.settings) :
    e.Continues (e.conclude done) := by
  rw [Engine.conclude]
  split <;> exact ⟨rfl, rfl, rfl, rfl, rfl, loaded, options, settings⟩

theorem complete (e : Engine) (op : Fetched) : e.Continues (e.complete op) :=
  conclude e rfl rfl (e.console.machine.settings_complete op)

theorem present (e : Engine) (op : Fetched) (request : Display.Request) :
    e.Continues (e.present op request) :=
  conclude e rfl rfl ((Machine.settings_conclude op _).trans
    (e.console.machine.settings_present request))

theorem beginInstruction (e : Engine) : e.Continues e.beginInstruction := by
  rw [Engine.beginInstruction]
  split
  · exact halt e _
  · have passed : e.Continues e.pass := ⟨rfl, rfl, rfl, rfl, rfl, rfl, rfl, rfl⟩
    dsimp only
    split
    · exact passed.trans (doing _ _)
    · split
      · exact passed.trans (doing _ _)
      · exact passed.trans (complete _ _)

theorem proceed (e : Engine) : e.Continues e.proceed := by
  rw [Engine.proceed]
  split
  · exact finish e
  · split
    · exact doing e _
    · exact finish e
    · exact beginInstruction e
    · exact beginInstruction e

theorem turn (e : Engine) : e.Continues e.turn := by
  rw [Engine.turn]
  split
  · exact refl e
  · exact proceed e
  · split
    · exact finish e
    · exact refl e
  · split
    · exact complete e _
    · split
      · exact ⟨rfl, rfl, rfl, rfl, rfl, rfl, rfl, rfl⟩
      · exact refl e
  · split
    · exact refl e
    · exact present e _ _

theorem settle (e : Engine) (turns : Nat) : e.Continues (e.settle turns) :=
  of_settle (fun _ earlier => earlier.trans (turn _)) (refl e) turns

end Continues

/-- A thread that was asked to end has ended, or is held up at the display. -/
theorem activity_stop (e : Engine) :
    e.stop.activity = .ended ∨
      e.stop.displayHeld = true ∧ ∃ op request, e.stop.activity = .atDisplay op request := by
  have asked : e.stop.cancelled = true := (Continues.settle e.requestStop 2).cancelled
  have rest := e.atRest_stop
  cases doing : e.stop.activity with
  | ended => exact .inl rfl
  | ready => simp [atRest, doing] at rest
  | paused => simp [atRest, doing, asked] at rest
  | awaitingKey op => simp [atRest, doing, asked] at rest
  | atDisplay op request =>
    refine .inr ⟨?_, op, request, rfl⟩
    simpa [atRest, doing] using rest

/-! ## Host operations -/

namespace WellFormed

theorem requestStop (h : e.WellFormed options) : e.requestStop.WellFormed options := by
  refine { h with ended_iff := ?_ }
  rw [activity_requestStop, h.ended_iff, Engine.requestStop]
  dsimp only
  split
  · next running => rw [running]; exact iff_of_false Phase.noConfusion Phase.noConfusion
  · exact Iff.rfl

theorem stop (h : e.WellFormed options) : e.stop.WellFormed options := h.requestStop.settle 2

end WellFormed

/-- Insisting on the end of a thread leaves what asking for it and letting it take turns leaves,
except that the thread may be given up on. -/
theorem stopAndWait_eq (e : Engine) (turns : Nat) :
    (∃ taken, (e.stopAndWait turns).1 = e.requestStop.settle taken) ∨
      (e.stopAndWait turns).1 = e.stop.abandon := by
  rw [stopAndWait]
  split
  · exact .inl ⟨2, rfl⟩
  · split
    · dsimp only
      split <;> exact .inl ⟨_, rfl⟩
    · dsimp only
      split
      · exact .inl ⟨2, rfl⟩
      · exact .inr rfl

theorem WellFormed.stopAndWait (h : e.WellFormed options) (turns : Nat) :
    (e.stopAndWait turns).1.WellFormed options := by
  rcases stopAndWait_eq e turns with ⟨taken, same⟩ | same
  · rw [same]
    exact h.requestStop.settle taken
  · rw [same]
    exact { h.stop with }

/-- A thread that ends while it takes turns ends as it does when it is asked to. -/
theorem settle_requestStop {turns : Nat} (rest : (e.requestStop.settle turns).atRest = true) :
    e.requestStop.settle turns = e.stop := by
  rcases Nat.le_total turns 2 with short | long
  · exact (settle_of_le rest short).symm
  · exact settle_of_le e.atRest_stop long

theorem atRest_of_ended (ended : e.activity = .ended) : e.atRest = true := by
  rw [atRest, ended]

/-- Where insisting on the end of a thread succeeds it leaves what asking for it leaves. -/
theorem stopAndWait_eq_ok {turns : Nat} {stopped : Engine}
    (h : e.stopAndWait turns = (stopped, .ok ())) : stopped = e.stop := by
  rw [stopAndWait] at h
  split at h
  · cases h
    rfl
  · split at h
    · dsimp only at h
      split at h
      · next ended =>
        cases h
        exact settle_requestStop (atRest_of_ended ended)
      · cases h
    · cases h

/-- No wait for a key outlasts a request to stop. -/
theorem activity_stop_ne (e : Engine) (op : Fetched) : e.stop.activity ≠ .awaitingKey op := by
  intro waiting
  rcases activity_stop e with ended | ⟨_, op', request, held⟩
  · rw [ended] at waiting
    cases waiting
  · rw [held] at waiting
    cases waiting

namespace WellFormed

theorem load (h : e.WellFormed options) (program : List UInt8) (turns : Nat) :
    (e.load program turns).1.WellFormed options := by
  have formed := h.stopAndWait turns
  rw [Engine.load]
  split
  · next stopped failure eq =>
    rw [eq] at formed
    exact formed
  · next stopped eq =>
    rw [eq] at formed
    cases stopAndWait_eq_ok eq
    dsimp only
    split
    · exact formed
    · refine formed.setConsole (formed.console.load program) ?_ rfl rfl ?_
      · exact Console.options_load e.stop.console program
      · exact fun op doing => absurd doing (activity_stop_ne e op)

theorem start (h : e.WellFormed options) : e.start.1.WellFormed options := by
  rw [Engine.start]
  split
  · exact h
  · split
    · exact h
    · exact .settled h.console h.options_eq (.inr ⟨rfl, Phase.noConfusion⟩)

theorem restart (h : e.WellFormed options) (turns : Nat) :
    (e.restart turns).1.WellFormed options := by
  have formed := h.stopAndWait turns
  rw [Engine.restart]
  split
  · exact h
  · split
    · next stopped failure eq =>
      rw [eq] at formed
      exact formed
    · next stopped eq =>
      rw [eq] at formed
      cases stopAndWait_eq_ok eq
      have fresh : ({ e.stop with console := e.stop.console.reset.state }.tell
          (e.stop.console.reset.events ++ [Event.engineRestarting])).WellFormed options :=
        formed.setConsole formed.console.reset rfl rfl rfl
          fun op doing => absurd doing (activity_stop_ne e op)
      exact fresh.start

/-- A wait for a key is passed by the host itself only where the word can be fetched. -/
theorem brokenOff (h : e.WellFormed options) (ended : e.activity = .ended)
    (waits : e.waits = true) : (e.pass.tell [.keyAwaited]).WellFormed options := by
  have fetches : e.console.machine.Fetches := by
    by_contra beyond
    rw [Engine.waits, Machine.fetch_of_not_fetches h.console.machine.memory beyond] at waits
    cases waits
  refine h.setConsole (h.console.setMachine (h.console.machine.advance fetches) rfl) rfl rfl rfl ?_
  intro op doing
  rw [ended] at doing
  cases doing

/-- An instruction of the host itself is executed only while there is no thread. -/
theorem act (h : e.WellFormed options) (action : Console.Action) :
    (e.act action).1.WellFormed options := by
  refine of_act h h.brokenOff fun free => ?_
  cases action with
  | step =>
    refine h.setConsole h.console.step rfl rfl rfl fun op doing => ?_
    rw [activity_of_not_withholds (Bool.eq_false_iff.mp free)] at doing
    cases doing
  | update elapsed =>
    refine h.setConsole (h.console.update elapsed) ?_ rfl rfl fun _ _ => ?_
    · exact Console.options_update e.console elapsed
    · exact congrArg Processor.pc (Console.processor_update e.console elapsed)
  | setKey key pressed =>
    simp only [Console.act]
    split
    · exact h.setConsole h.console rfl rfl rfl fun _ _ => rfl
    · next next set =>
      have same := Console.setKey_eq set
      refine h.setConsole (h.console.setKey set) ?_ rfl rfl fun _ _ => ?_
      · rw [same]
        rfl
      · rw [same]
        rfl

theorem perform (h : e.WellFormed options) (operation : Operation) :
    (e.perform operation).WellFormed options := by
  cases operation with
  | load program turns => exact h.load program turns
  | start => exact h.start
  | requestStop => exact h.requestStop
  | stopAndWait turns => exact h.stopAndWait turns
  | restart turns => exact h.restart turns
  | observe => exact h.setConsole h.console rfl rfl rfl fun _ _ => rfl
  | act action => exact h.act action
  | setDebugMode enabled =>
    exact h.setConsole (h.console.setDebugMode enabled) rfl rfl rfl fun _ _ => rfl
  | holdDisplay => exact h.setConsole h.console rfl rfl rfl fun _ _ => rfl
  | releaseDisplay => exact h.setConsole h.console rfl rfl rfl fun _ _ => rfl
  | addListener name =>
    have formed := h.console.machine.congr (n := { e.console.machine with
      display := e.console.machine.display.addListener name }) rfl rfl rfl rfl rfl
    exact h.setConsole (h.console.setMachine formed rfl) rfl rfl rfl fun _ _ => rfl
  | turn => exact h.turn
  | wake => exact h.wake

end WellFormed

theorem wellFormed_ofOptions (options : Options) : (ofOptions options).WellFormed options :=
  .settled (Console.wellFormed_ofOptions options) rfl (.inl ⟨rfl, rfl⟩)

/-- An engine is well formed after every history. -/
theorem wellFormed_run (options : Options) (history : List Operation) :
    ((ofOptions options).run history).WellFormed options :=
  run_induction (fun _ operation h => h.perform operation) (wellFormed_ofOptions options) history

end Engine

/-! ## The ranges in numbers -/

/-- The ranges of everything a console consists of. The program counter stays so far from
sixteen bits that neither the bound on passing a word nor the lack of one on skipping the
next word is ever felt. A second adds up to a refresh of the rate as long as the rate can be
reported, which no count of less than a thousand bits prevents. -/
structure Console.Ranges (c : Console) : Prop where
  registers : c.machine.processor.v.toList.length = 16 ∧ ∀ x, (c.machine.v x).toNat ≤ 0xFF
  index : 0 ≤ c.machine.index ∧ c.machine.index ≤ 0xFFFF
  counter : 0 ≤ c.machine.pc ∧ c.machine.pc ≤ 0x1002
  passing : c.machine.advance.pc = c.machine.pc + 2
  skipping : (c.machine.advance.pc + 2) % 0x10000 = c.machine.advance.pc + 2
  depth : c.machine.processor.stack.length ≤ 16
  returns : ∀ target ∈ c.machine.processor.stack, 0x202 ≤ target ∧ target ≤ 0x1000
  timers : c.machine.timers.delay ≤ 0xFF ∧ c.machine.timers.sound ≤ 0xFF
  bytes : c.machine.memory.bytes.size = 4096 ∧
    ∀ addr, (c.machine.memory.byte addr).toNat ≤ 0xFF
  glyphs : c.machine.memory.bytes.toList.take 80 = Glyph.table
  pixels : c.machine.display.surface.cells.size =
    c.machine.display.mode.width * c.machine.display.mode.height
  pending : 0 ≤ c.clock.pending ∧ c.clock.pending ≤ 15
  elapsed : 0 ≤ c.meter.elapsed ∧ (c.executed < 2 ^ 1023 → c.meter.elapsed ≤ 999)
  counted : c.meter.lastCount ≤ c.executed
  rate : 0 ≤ c.meter.perSecond
  notes : ∀ limit, c.options.diagnosticLimit = some limit →
    c.machine.diagnostics.toList.length ≤ limit

theorem Console.WellFormed.ranges {c : Console} (h : c.WellFormed) : c.Ranges := by
  have low := h.machine.pc_nonneg
  have high := h.machine.pc_le
  have moved : c.machine.advance.pc = (c.machine.pc + 2) % 65536 := rfl
  have word := c.machine.processor.i.toNat_lt
  refine
    { registers := ⟨Vector.length_toList, fun x => Nat.le_of_lt_succ (c.machine.v x).toNat_lt⟩
      index := ⟨Int.natCast_nonneg _, ?_⟩
      counter := ⟨low, high⟩
      passing := by omega
      skipping := by omega
      depth := ?_
      returns := fun target mem => h.machine.returns target (List.mem_reverse.mp mem)
      timers := ⟨h.machine.delay_le, h.machine.sound_le⟩
      bytes := ⟨h.machine.memory.size_bytes, fun addr => ?_⟩
      glyphs := h.machine.memory.glyphs
      pixels := c.machine.display.surface.size_cells
      pending := ⟨h.clock.pending_nonneg, Int.le_of_lt_add_one h.clock.pending_lt⟩
      elapsed :=
        ⟨h.meter.elapsed_nonneg, fun small => Int.le_of_lt_add_one (h.meter.elapsed_lt small)⟩
      counted := h.meter.lastCount_le
      rate := h.meter.perSecond_nonneg
      notes := ?_ }
  · rw [Machine.index]
    omega
  · rw [Processor.stack, List.length_reverse]
    exact h.machine.depth_le
  · exact Nat.le_of_lt_succ (c.machine.memory.byte addr).toNat_lt
  · intro limit bounded
    rw [DiagnosticLog.toList, List.length_reverse]
    exact h.machine.noted limit (h.limit_eq.trans bounded)

/-- Every history of a new engine, successful or not at each operation, keeps the ranges. -/
theorem Engine.ranges_run (options : Options) (history : List Operation) :
    ((ofOptions options).run history).console.Ranges ∧
      ((ofOptions options).run history).console.options = options := by
  have formed := wellFormed_run options history
  exact ⟨formed.console.ranges, formed.options_eq⟩

end ChipEight
