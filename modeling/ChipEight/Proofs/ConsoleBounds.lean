import ChipEight.Console
import ChipEight.Proofs.MachineBounds
import ChipEight.Proofs.Rates

/-!
# The bounds of a console

A console adds to its machine what counts: milliseconds on their way to the next tick and to
the next report, instructions, and the rate reported last. `Console.WellFormed` says in
which ranges these stay. Loading and resetting establish the ranges from any machine whose
memory is intact; instructions, keys and the passing of time keep them.
-/

namespace ChipEight

/-! ## Rates -/

namespace Binary64

/-- Rounding a quotient that is not negative and cutting it leaves it not negative. -/
theorem truncate_nonneg {n : Int} {d : Nat} {x : Binary64} (nonneg : 0 ≤ n)
    (h : ofQuotient? n d = some x) : 0 ≤ x.truncate := by
  have sign : x.negative = false := by
    rw [negative_of_ofRatio? h]
    exact decide_eq_false (Int.not_lt.mpr nonneg)
  rw [truncate, signed, sign]
  exact Int.natCast_nonneg _

end Binary64

namespace SpeedMeter

variable {s : SpeedMeter}

theorem rate_nonneg {growth span rate : Int} (grown : 0 ≤ growth)
    (h : rate? growth span = some rate) : 0 ≤ rate := by
  rw [rate?, Option.map_eq_some_iff] at h
  obtain ⟨x, rounded, rfl⟩ := h
  exact Binary64.truncate_nonneg (by omega) rounded

/-- The ranges of a meter that is shown the counts of a console, of which the last one was
`count`. -/
structure WellFormed (s : SpeedMeter) (count : Nat) : Prop where
  elapsed_nonneg : 0 ≤ s.elapsed
  elapsed_lt : count < 2 ^ 1023 → s.elapsed < 1000
  lastCount_nonneg : 0 ≤ s.lastCount
  lastCount_le : s.lastCount ≤ count
  perSecond_nonneg : 0 ≤ s.perSecond

theorem wellFormed_new (count : Nat) : ({} : SpeedMeter).WellFormed count where
  elapsed_nonneg := Int.le_refl 0
  elapsed_lt := fun _ => by decide
  lastCount_nonneg := Int.le_refl 0
  lastCount_le := Int.natCast_nonneg count
  perSecond_nonneg := Int.le_refl 0

theorem WellFormed.mono {count more : Nat} (h : s.WellFormed count) (le : count ≤ more) :
    s.WellFormed more :=
  { h with
    elapsed_lt := fun small => h.elapsed_lt (Nat.lt_of_le_of_lt le small)
    lastCount_le := Int.le_trans h.lastCount_le (Int.ofNat_le.mpr le) }

/-- A count of fewer than a thousand bits never keeps a rate from being reported. -/
theorem WellFormed.reports {count : Nat} (h : s.WellFormed count) (small : count < 2 ^ 1023)
    (elapsed : Int) : (s.update elapsed count).2 = true := by
  have low : (count : Int) < 2 ^ 1023 := by exact_mod_cast small
  have grown : 0 ≤ (count : Int) - s.lastCount := Int.sub_nonneg_of_le h.lastCount_le
  have below : (count : Int) - s.lastCount < 2 ^ 1023 :=
    Int.lt_of_le_of_lt (Int.sub_le_self _ h.lastCount_nonneg) low
  refine Bool.not_eq_false _ |>.mp fun unreported => ?_
  obtain ⟨due, beyond⟩ := (update_fails_iff s ⟨elapsed, count⟩).mp unreported
  exact beyond (reportable_of_lt due grown below)

theorem WellFormed.update {count : Nat} (h : s.WellFormed count) {elapsed : Int}
    (forward : 0 ≤ elapsed) : (s.update elapsed count).1.WellFormed count := by
  have passed := h.elapsed_nonneg
  by_cases short : s.elapsed + elapsed < 1000
  · rw [update_of_lt count short]
    exact
      { h with
        elapsed_nonneg := Int.add_nonneg passed forward
        elapsed_lt := fun _ => short }
  · have grown : 0 ≤ (count : Int) - s.lastCount := Int.sub_nonneg_of_le h.lastCount_le
    have fresh : (0 : Int) < 1000 := by decide
    have counted : (0 : Int) ≤ count := Int.natCast_nonneg count
    simp only [SpeedMeter.update, if_neg short]
    cases reported : rate? (count - s.lastCount) (s.elapsed + elapsed) with
    | some rate =>
      exact ⟨Int.le_refl 0, fun _ => fresh, counted, Int.le_refl _, rate_nonneg grown reported⟩
    | none =>
      refine { h with elapsed_nonneg := Int.add_nonneg passed forward, elapsed_lt := ?_ }
      intro small
      have reports := h.reports small elapsed
      rw [SpeedMeter.update, if_neg short, reported] at reports
      cases reports

end SpeedMeter

/-! ## Ticks -/

namespace Timers

@[simp] theorem countDown_zero (t : Timers) : t.countDown 0 = t := by
  simp [countDown]

@[simp] theorem runsOut_zero (t : Timers) : t.runsOut 0 = false := by
  rw [runsOut, countDown_zero]
  cases t.sound <;> rfl

end Timers

namespace TickClock

variable {c : TickClock}

/-- Passing time is division with remainder. A clock that holds less than a period need not
be told apart from one at which a tick is due. -/
theorem pass_eq (nonneg : 0 ≤ c.pending) (lt : c.pending < c.period) (timers : Timers)
    {elapsed : Int} (forward : 0 ≤ elapsed) :
    c.pass timers elapsed =
      { clock := { c with pending := (c.pending + elapsed) % c.period }
        timers := timers.countDown ((c.pending + elapsed) / c.period)
        ticks := .ok ((c.pending + elapsed) / c.period)
        beeped := timers.runsOut ((c.pending + elapsed) / c.period) } := by
  have total : 0 ≤ c.pending + elapsed := Int.add_nonneg nonneg forward
  have period : 0 ≤ c.period := Int.le_of_lt (Int.lt_of_le_of_lt nonneg lt)
  rw [pass, if_neg (Int.not_lt.mpr forward)]
  dsimp only
  by_cases short : c.pending + elapsed < c.period
  · rw [if_pos short, Int.emod_eq_of_lt total short, Int.ediv_eq_zero_of_lt total short,
      Timers.countDown_zero, Timers.runsOut_zero]
  · have ticking : c.period ≠ 0 := by omega
    have remainder := Int.emod_def (c.pending + elapsed) c.period
    rw [if_neg short, if_neg ticking, Int.fdiv_eq_ediv_of_nonneg _ period, remainder, Int.mul_comm]

/-- The ranges of a clock with the period of the machine. -/
structure WellFormed (c : TickClock) : Prop where
  period : c.period = 16
  pending_nonneg : 0 ≤ c.pending
  pending_lt : c.pending < 16

namespace WellFormed

theorem reset (h : c.WellFormed) : c.reset.WellFormed :=
  { h with pending_nonneg := Int.le_refl 0, pending_lt := (by decide : (0 : Int) < 16) }

theorem pass_eq (h : c.WellFormed) (timers : Timers) {elapsed : Int} (forward : 0 ≤ elapsed) :
    c.pass timers elapsed =
      { clock := { c with pending := (c.pending + elapsed) % 16 }
        timers := timers.countDown ((c.pending + elapsed) / 16)
        ticks := .ok ((c.pending + elapsed) / 16)
        beeped := timers.runsOut ((c.pending + elapsed) / 16) } := by
  rw [TickClock.pass_eq h.pending_nonneg (h.period ▸ h.pending_lt) timers forward, h.period]

theorem pass (h : c.WellFormed) (timers : Timers) {elapsed : Int} (forward : 0 ≤ elapsed) :
    (c.pass timers elapsed).clock.WellFormed := by
  rw [h.pass_eq timers forward]
  refine ⟨h.period, ?_, ?_⟩
  · exact Int.emod_nonneg _ (by decide)
  · exact Int.emod_lt_of_pos _ (by decide)

/-- Time that passes never raises a timer. -/
theorem timers_pass_le (h : c.WellFormed) (timers : Timers) {elapsed : Int}
    (forward : 0 ≤ elapsed) :
    (c.pass timers elapsed).timers.delay ≤ timers.delay ∧
      (c.pass timers elapsed).timers.sound ≤ timers.sound := by
  have nonneg := h.pending_nonneg
  rw [h.pass_eq timers forward]
  simp only [Timers.delay_countDown, Timers.sound_countDown]
  omega

end WellFormed

end TickClock

/-! ## The console -/

namespace Console

variable {c : Console}

/-! What a console was built with stays as it is. -/

theorem options_load (c : Console) (program : List UInt8) :
    (c.load program).state.options = c.options := by
  rw [load]
  split <;> rfl

/-- A load that succeeds says so, and leaves the debug mode alone. -/
theorem loaded_load {program : List UInt8} (succeeded : (c.load program).result = .ok ()) :
    (c.load program).state.loaded = true ∧ (c.load program).state.debugMode = c.debugMode := by
  rw [load] at succeeded ⊢
  split
  · next refused =>
    rw [refused] at succeeded
    cases succeeded
  · exact ⟨rfl, rfl⟩

theorem options_update (c : Console) (elapsed : Int) :
    (c.update elapsed).state.options = c.options := by
  rw [update]
  split <;> rfl

/-- The passing of time changes nothing of a machine but its timers. -/
theorem machine_update (c : Console) (elapsed : Int) :
    (c.update elapsed).state.machine =
      { c.machine with timers := (c.update elapsed).state.machine.timers } := by
  rw [update]
  split <;> rfl

theorem timers_update (c : Console) (elapsed : Int) :
    (c.update elapsed).state.machine.timers = (c.clock.pass c.machine.timers elapsed).timers := by
  simp only [update]
  split <;> rfl

theorem processor_update (c : Console) (elapsed : Int) :
    (c.update elapsed).state.machine.processor = c.machine.processor := by
  rw [machine_update]

/-- A key that is set changes the keypad alone. -/
theorem setKey_eq {next : Console} {key : Int} {pressed : Bool}
    (set : c.setKey key pressed = .ok next) :
    next = { c with machine := { c.machine with keypad := next.machine.keypad } } := by
  rw [setKey] at set
  split at set
  · cases set
  · cases set
    rfl

/-- A step that succeeds is counted. -/
theorem executed_of_ok {op : Fetched} (done : c.step.result = .ok op) :
    c.step.state.executed = c.executed + 1 := by
  rw [step] at done ⊢
  have done : c.machine.step.result = .ok op := done
  rw [afterInstruction, done]

/-- A failed step is not counted. -/
theorem executed_of_error {fault : Fault} (failed : c.step.result = .error fault) :
    c.step.state.executed = c.executed := by
  rw [step] at failed ⊢
  have failed : c.machine.step.result = .error fault := failed
  rw [afterInstruction, failed]

/-- What holds of a console, whatever was done with it. -/
structure WellFormed (c : Console) : Prop where
  machine : c.machine.WellFormed
  limit_eq : c.machine.diagnostics.limit = c.options.diagnosticLimit
  reversed_eq : c.machine.reversed = c.options.reversed
  clock : c.clock.WellFormed
  meter : c.meter.WellFormed c.executed

theorem wellFormed_ofOptions (options : Options) : (ofOptions options).WellFormed where
  machine :=
    { pc_nonneg := (by decide : (0 : Int) ≤ Memory.base)
      pc_le := (by decide : (Memory.base : Int) ≤ 0x1002)
      depth_le := Nat.zero_le _
      returns := fun target mem => absurd mem List.not_mem_nil
      delay_le := Nat.zero_le _
      sound_le := Nat.zero_le _
      memory := Memory.intact_blank
      noted := fun limit _ => Nat.zero_le limit }
  limit_eq := rfl
  reversed_eq := rfl
  clock :=
    { period := rfl
      pending_nonneg := Int.le_refl 0
      pending_lt := (by decide : (0 : Int) < 16) }
  meter := SpeedMeter.wellFormed_new 0

/-- A reset makes a machine well formed as soon as its memory is intact. -/
theorem wellFormed_resetMachine {m : Machine} (memory : m.memory.Intact) :
    (resetMachine m).state.WellFormed where
  pc_nonneg := (by decide : (0 : Int) ≤ Memory.base)
  pc_le := (by decide : (Memory.base : Int) ≤ 0x1002)
  depth_le := Nat.zero_le _
  returns := fun target mem => absurd mem List.not_mem_nil
  delay_le := Nat.zero_le _
  sound_le := Nat.zero_le _
  memory := by
    obtain ⟨next, reloaded⟩ := Memory.load_eq_ok memory.fits
    simp only [resetMachine, Memory.reload, reloaded]
    exact Memory.intact_load memory.size_eq reloaded
  noted := fun limit _ => Nat.zero_le limit

namespace WellFormed

theorem reset (h : c.WellFormed) : c.reset.state.WellFormed where
  machine := wellFormed_resetMachine h.machine.memory
  limit_eq := h.limit_eq
  reversed_eq := h.reversed_eq
  clock := h.clock.reset
  meter := SpeedMeter.wellFormed_new 0

theorem load (h : c.WellFormed) (program : List UInt8) :
    (c.load program).state.WellFormed := by
  rw [Console.load]
  split
  · exact h
  · next memory loaded =>
    have intact := Memory.intact_load h.machine.memory.size_eq loaded
    exact reset { h with machine := h.machine.setMemory intact }

/-- The same console with another machine of the same settings. -/
theorem setMachine (h : c.WellFormed) {machine : Machine} (formed : machine.WellFormed)
    (same : machine.settings = c.machine.settings) :
    ({ c with machine } : Console).WellFormed :=
  { h with
    machine := formed
    limit_eq := (congrArg Machine.Settings.limit same).trans h.limit_eq
    reversed_eq := (congrArg Machine.Settings.reversed same).trans h.reversed_eq }

/-- An instruction that was completed is counted or not; the count never falls. -/
theorem afterInstruction (h : c.WellFormed) {done : Effect Machine (Except Fault Fetched)}
    (formed : done.state.WellFormed) (same : done.state.settings = c.machine.settings) :
    (c.afterInstruction done).state.WellFormed := by
  refine { h.setMachine formed same with meter := h.meter.mono ?_ }
  simp only [Console.afterInstruction]
  split
  · exact Nat.le_succ _
  · exact Nat.le_refl _

theorem step (h : c.WellFormed) : c.step.state.WellFormed :=
  h.afterInstruction h.machine.step c.machine.settings_step

/-- Completing a word that was fetched and passed earlier. -/
theorem complete (h : c.WellFormed) {op : Fetched} (low : 0x200 ≤ op.addr)
    (high : op.addr ≤ 0xFFE) (passed : c.machine.pc = op.addr + 2) :
    (c.complete op).state.WellFormed := by
  have done := Machine.admissible_execute h.machine low high passed
  exact h.afterInstruction (done.wellFormed_conclude op) (c.machine.settings_complete op)

/-- What is asked of the display may be done at any time. -/
theorem present (h : c.WellFormed) (op : Fetched) (request : Display.Request) :
    (c.present op request).state.WellFormed := by
  have done := Machine.admissible_present h.machine request
  exact h.afterInstruction (done.wellFormed_conclude op)
    ((Machine.settings_conclude op _).trans (c.machine.settings_present request))

theorem update (h : c.WellFormed) (elapsed : Int) : (c.update elapsed).state.WellFormed := by
  by_cases forward : 0 ≤ elapsed
  · have passed := h.clock.pass c.machine.timers forward
    obtain ⟨delay, sound⟩ := h.clock.timers_pass_le c.machine.timers forward
    have formed : ({ c.machine with
        timers := (c.clock.pass c.machine.timers elapsed).timers } : Machine).WellFormed :=
      { h.machine with
        delay_le := Nat.le_trans delay h.machine.delay_le
        sound_le := Nat.le_trans sound h.machine.sound_le }
    have timed := h.setMachine formed rfl
    rw [Console.update]
    split
    · exact { timed with clock := passed }
    · exact { timed with clock := passed, meter := h.meter.update forward }
  · have refused : c.clock.pass c.machine.timers elapsed =
        { clock := c.clock, timers := c.machine.timers, ticks := .error (.negative elapsed) } := by
      rw [TickClock.pass, if_pos (Int.not_le.mp forward)]
    simp only [Console.update, refused]
    exact h

theorem setKey (h : c.WellFormed) {next : Console} {key : Int} {pressed : Bool}
    (set : c.setKey key pressed = .ok next) : next.WellFormed := by
  rw [Console.setKey] at set
  split at set
  · cases set
  · cases set
    exact h.setMachine (h.machine.congr rfl rfl rfl rfl rfl) rfl

theorem setDebugMode (h : c.WellFormed) (enabled : Bool) : (c.setDebugMode enabled).WellFormed :=
  { h with }

theorem setFault (h : c.WellFormed) (fault : Fault) :
    ({ c with fault := some fault } : Console).WellFormed :=
  { h with }

end WellFormed

end Console

end ChipEight
