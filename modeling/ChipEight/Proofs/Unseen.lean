import ChipEight.Proofs.Calls
import ChipEight.Proofs.Refusals

/-!
# What a program cannot see

Time and keys reach a program only through the instructions that read them. Up to the first of
these, two runs of a program that are given different time, or different keys, go through the same
steps and show the same after each of them (`Console.AgreeOff.take_observations`). The sound timer
has no instruction that reads it, so what it holds shows nowhere at all, and what is told of its
running out is never read back (`Engine.time_and_keys_unseen`).
-/

namespace ChipEight

/-! ## Words that read -/

namespace Word

variable {w : Word}

/-- `Fx07`, which reads the delay timer. -/
def ReadsTime (w : Word) : Prop := w.family = 0xF ∧ w.kk = 0x07

/-- `Ex9E`, `ExA1` and `Fx0A`, which read the keypad. -/
def ReadsKeys (w : Word) : Prop :=
  w.family = 0xE ∧ (w.kk = 0x9E ∨ w.kk = 0xA1) ∨ w.family = 0xF ∧ w.kk = 0x0A

instance (w : Word) : Decidable w.ReadsTime := inferInstanceAs (Decidable (_ ∧ _))

instance (w : Word) : Decidable w.ReadsKeys := inferInstanceAs (Decidable (_ ∨ _))

theorem readsTime_of_reads (reading : w.decode.reads .timers = true) : w.ReadsTime := by
  have word := w.denotes_decode
  generalize w.decode = instruction at reading word
  cases word with
  | readDelay family low => exact ⟨family, low⟩
  | _ => cases reading

theorem readsKeys_of_reads (reading : w.decode.reads .keypad = true) : w.ReadsKeys := by
  have word := w.denotes_decode
  generalize w.decode = instruction at reading word
  cases word with
  | skipIfHeld family low => exact .inl ⟨family, .inl low⟩
  | skipIfReleased family low => exact .inl ⟨family, .inr low⟩
  | awaitKey family low => exact .inr ⟨family, low⟩
  | _ => cases reading

end Word

/-! ## Agreement is symmetric -/

section

variable {hidden : Part → Prop}

theorem Machine.AgreeOff.symm {m n : Machine} (h : m.AgreeOff hidden n) : n.AgreeOff hidden m where
  processor := h.processor.symm
  memory := h.memory.symm
  surface := h.surface.symm
  diagnostics := h.diagnostics.symm
  reversed := h.reversed.symm
  timers := fun seen => (h.timers seen).symm
  keypad := fun seen => (h.keypad seen).symm
  random := fun seen => (h.random seen).symm

theorem Console.AgreeOff.symm {c d : Console} (h : c.AgreeOff hidden d) : d.AgreeOff hidden c where
  machine := h.machine.symm
  options := h.options.symm
  executed := h.executed.symm
  fault := h.fault.symm
  loaded := h.loaded.symm
  clock := fun seen => (h.clock seen).symm
  meter := fun seen => (h.meter seen).symm

end

namespace Console

/-! ## Observing a run -/

/-- What a host can see after a step: its answer, and everything but timers, keys and the random
source. -/
structure Observation where
  result : Except Fault Fetched
  processor : Processor
  memory : Memory
  surface : Surface
  diagnostics : DiagnosticLog
  executed : Nat

def observe (done : Effect Console (Except Fault Fetched)) : Observation where
  result := done.result
  processor := done.state.machine.processor
  memory := done.state.machine.memory
  surface := done.state.machine.display.surface
  diagnostics := done.state.machine.diagnostics
  executed := done.state.executed

/-- What is seen after each step of a run. -/
def observations (c : Console) : List Action → List Observation
  | [] => []
  | .step :: rest => observe c.step :: c.step.state.observations rest
  | .update elapsed :: rest => (c.act (.update elapsed)).state.observations rest
  | .setKey key pressed :: rest => (c.act (.setKey key pressed)).state.observations rest

/-- The part that a host changes by itself with an action. -/
def Action.part? : Action → Option Part
  | .step => none
  | .update _ => some .timers
  | .setKey _ _ => some .keypad

theorem eq_step_of_part? {action : Action} (unchanged : action.part? = none) : action = .step := by
  cases action with
  | step => rfl
  | update | setKey => cases unchanged

variable {hidden : Part → Prop} {c d : Console}

theorem observations_of_part? {action : Action} {part : Part} (changed : action.part? = some part)
    (rest : List Action) :
    c.observations (action :: rest) = (c.act action).state.observations rest := by
  cases action with
  | step => cases changed
  | update | setKey => rfl

/-- Steps that do the same show the same, whatever is hidden. -/
theorem observe_eq {done done' : Effect Console (Except Fault Fetched)}
    (h : Effect.Alike (AgreeOff hidden) done done') : observe done = observe done' := by
  simp only [observe, h.result, h.state.machine.processor, h.state.machine.memory,
    h.state.machine.surface, h.state.machine.diagnostics, h.state.executed]

/-- Actions on hidden parts show nothing. -/
theorem observations_append {unseen : List Action}
    (out : ∀ action ∈ unseen, ∃ part, action.part? = some part ∧ hidden part)
    (rest : List Action) : c.observations (unseen ++ rest) = (c.after unseen).observations rest := by
  induction unseen generalizing c with
  | nil => rfl
  | cons action others ih =>
    obtain ⟨⟨part, changed, -⟩, later⟩ := List.forall_mem_cons.mp out
    rw [List.cons_append, observations_of_part? changed]
    exact ih later

namespace AgreeOff

/-- An action that changes a hidden part is not noticed. -/
theorem act_hidden (h : c.AgreeOff hidden d) {action : Action} {part : Part}
    (changed : action.part? = some part) (out : hidden part) :
    (c.act action).state.AgreeOff hidden d := by
  cases action with
  | step => cases changed
  | update elapsed =>
    cases changed
    have timed (timers : Timers) :
        ({ c.machine with timers } : Machine).AgreeOff hidden d.machine :=
      { h.machine with timers := fun seen => absurd out seen }
    simp only [Console.act, Console.update]
    split <;>
    · exact { h with
        machine := timed _
        clock := fun seen => absurd out seen
        meter := fun seen => absurd out seen }
  | setKey key pressed =>
    cases changed
    simp only [Console.act]
    split
    · exact h
    · next set =>
      rw [setKey_eq set]
      exact { h with machine := { h.machine with keypad := fun seen => absurd out seen } }

theorem after_hidden (h : c.AgreeOff hidden d) {unseen : List Action}
    (out : ∀ action ∈ unseen, ∃ part, action.part? = some part ∧ hidden part) :
    c.AgreeOff hidden (d.after unseen) := by
  induction unseen generalizing d with
  | nil => exact h
  | cons action rest ih =>
    obtain ⟨⟨part, changed, off⟩, later⟩ := List.forall_mem_cons.mp out
    exact ih (h.symm.act_hidden changed off).symm later

/-- An action that changes a part that is compared is noticed on both sides. -/
theorem act_shown (h : c.AgreeOff hidden d) {action : Action} {part : Part}
    (changed : action.part? = some part) (shown : ¬ hidden part) :
    (c.act action).state.AgreeOff hidden (d.act action).state := by
  cases action with
  | step => cases changed
  | update elapsed =>
    cases changed
    exact (h.update shown elapsed).state
  | setKey key pressed =>
    cases changed
    exact (h.setKey shown key pressed).state

/-- Two runs that differ in actions on hidden parts alone show the same, step by step, as long as
no instruction reads what is hidden. -/
theorem take_observations (h : c.AgreeOff hidden d) {seen : Action → Bool}
    (shown : ∀ action part, seen action = true → action.part? = some part → ¬ hidden part)
    (unseen : ∀ action, seen action = false → ∃ part, action.part? = some part ∧ hidden part)
    {actions actions' : List Action} (same : actions.filter seen = actions'.filter seen)
    {count : Nat}
    (unread : ∀ o ∈ (c.observations actions).take count, ∀ op, o.result = .ok op →
      ∀ part, op.word.decode.reads part = true → ¬ hidden part) :
    (c.observations actions).take count = (d.observations actions').take count := by
  have hides {others : List Action} (out : ∀ action ∈ others, ¬ seen action = true) :
      ∀ action ∈ others, ∃ part, action.part? = some part ∧ hidden part :=
    fun action mem => unseen action (Bool.eq_false_iff.mpr (out action mem))
  -- by induction on the first run; the second one first catches up with its hidden actions
  induction actions generalizing c d actions' count with
  | nil =>
    have out := hides (List.filter_eq_nil_iff.mp same.symm)
    have none : d.observations actions' = [] := by
      rw [← List.append_nil actions', observations_append out]
      rfl
    rw [none]
    rfl
  | cons action rest ih =>
    cases visible : seen action with
    | false =>
      obtain ⟨part, changes, out⟩ := unseen action visible
      rw [observations_of_part? changes] at unread ⊢
      rw [List.filter_cons_of_neg (by simp [visible])] at same
      exact ih (h.act_hidden changes out) same unread
    | true =>
      rw [List.filter_cons_of_pos visible] at same
      obtain ⟨before, rest', rfl, out, -, others⟩ := List.filter_eq_cons_iff.mp same.symm
      have agreed := h.after_hidden (hides out)
      rw [observations_append (hides out)]
      generalize d.after before = d at agreed
      cases changes : action.part? with
      | some part =>
        have off := shown action part visible changes
        rw [observations_of_part? changes] at unread ⊢
        rw [observations_of_part? changes]
        exact ih (agreed.act_shown changes off) others.symm unread
      | none =>
        obtain rfl := eq_step_of_part? changes
        cases count with
        | zero => rfl
        | succ count =>
          have first : ∀ op, c.step.result = .ok op →
              ∀ part, op.word.decode.reads part = true → ¬ hidden part :=
            unread _ (List.mem_cons_self ..)
          have alike := agreed.step first
          simp only [observations, List.take_succ_cons, observe_eq alike]
          congr 1
          apply ih alike.state others.symm
          intro o mem
          exact unread o (List.mem_cons_of_mem _ mem)

end AgreeOff

end Console

/-! ## The sound timer -/

namespace Machine

variable {m n : Machine} {done done' : Outcome}

/-- What relates two machines wherever control goes relates them after an instruction too. -/
theorem alike_conclude {related : Machine → Machine → Prop}
    (moved : ∀ {m n} target, related m n → related (m.goto target) (n.goto target))
    (h : Effect.Alike related done done') (op : Fetched) :
    Effect.Alike related (conclude op done) (conclude op done') := by
  rw [conclude, conclude, h.result]
  split
  · exact ⟨rfl, h.state⟩
  · exact ⟨rfl, moved _ h.state⟩
  · exact ⟨rfl, h.state⟩

/-- Two machines agree in everything but the sound timer. -/
structure AgreeOffSound (m n : Machine) : Prop where
  others : m.AgreeOff (· = .timers) n
  delay : m.timers.delay = n.timers.delay

namespace AgreeOffSound

theorem delay_execute (h : m.AgreeOffSound n) (op : Fetched) :
    (m.execute op).state.timers.delay = (n.execute op).state.timers.delay := by
  by_cases written : op.word.family = 0xF ∧ op.word.kk = 0x15
  · have decoded := Word.decode_eq_iff.mpr (.setDelay written.1 written.2)
    simp only [execute, decoded]
    show (Timers.setDelay _ _).delay = (Timers.setDelay _ _).delay
    rw [h.others.v]
    rfl
  · have unwritten (i : Nat) : ¬ op.word.Writes i .delay := by
      intro writes
      cases writes with
      | delay family low => exact written ⟨family, low⟩
    have kept : (m.execute op).state.timers.delay = m.timers.delay :=
      confined_execute m op .delay (unwritten _)
    have kept' : (n.execute op).state.timers.delay = n.timers.delay :=
      confined_execute n op .delay (unwritten _)
    rw [kept, kept', h.delay]

/-- No instruction reads the sound timer. -/
theorem execute (h : m.AgreeOffSound n) (op : Fetched) :
    Effect.Alike AgreeOffSound (m.execute op) (n.execute op) := by
  have delay := h.delay_execute op
  by_cases reading : op.word.decode.reads .timers = true
  · obtain ⟨family, low⟩ := Word.readsTime_of_reads reading
    have decoded := Word.decode_eq_iff.mpr (.readDelay family low)
    simp only [Machine.execute, decoded] at delay ⊢
    have received := h.others.set op.word.x (congrArg UInt8.ofNat h.delay)
    exact ⟨rfl, received, delay⟩
  · obtain ⟨result, others⟩ := h.others.execute op (by
      rintro part reads rfl
      exact reading reads)
    exact ⟨result, others, delay⟩

theorem step (h : m.AgreeOffSound n) : Effect.Alike AgreeOffSound m.step n.step := by
  rw [Machine.step, Machine.step, h.others.fetch]
  split
  · exact ⟨rfl, h⟩
  · next op _ =>
    have passed : m.advance.AgreeOffSound n.advance := ⟨h.others.advance, h.delay⟩
    exact alike_conclude (fun target same => ⟨same.others.goto target, same.delay⟩)
      (passed.execute op) op

end AgreeOffSound

end Machine

/-- How far the clock and the delay timer get does not depend on the sound timer. -/
theorem TickClock.pass_of_delay (clock : TickClock) {t u : Timers} (same : t.delay = u.delay)
    (elapsed : Int) :
    (clock.pass t elapsed).clock = (clock.pass u elapsed).clock ∧
      (clock.pass t elapsed).ticks = (clock.pass u elapsed).ticks ∧
      (clock.pass t elapsed).timers.delay = (clock.pass u elapsed).timers.delay := by
  simp only [pass]
  split
  · exact ⟨rfl, rfl, same⟩
  · split
    · exact ⟨rfl, rfl, same⟩
    · split
      · exact ⟨rfl, rfl, same⟩
      · refine ⟨rfl, rfl, ?_⟩
        rw [Timers.delay_countDown, Timers.delay_countDown, same]

namespace Console

variable {c d : Console}

theorem clock_update (c : Console) (elapsed : Int) :
    (c.update elapsed).state.clock = (c.clock.pass c.machine.timers elapsed).clock := by
  simp only [update]
  split <;> rfl

theorem meter_update (c : Console) (elapsed : Int) :
    (c.update elapsed).state.meter =
      match (c.clock.pass c.machine.timers elapsed).ticks with
      | .error _ => c.meter
      | .ok _ => (c.meter.update elapsed c.executed).1 := by
  simp only [update]
  cases (c.clock.pass c.machine.timers elapsed).ticks <;> rfl

/-- Two consoles agree in everything but the sound timer. -/
structure AgreeOffSound (c d : Console) : Prop where
  others : c.AgreeOff (· = .timers) d
  delay : c.machine.timers.delay = d.machine.timers.delay
  clock : c.clock = d.clock
  meter : c.meter = d.meter

namespace AgreeOffSound

theorem step (h : c.AgreeOffSound d) : Effect.Alike AgreeOffSound c.step d.step := by
  have machine : c.machine.AgreeOffSound d.machine := ⟨h.others.machine, h.delay⟩
  obtain ⟨result, state⟩ := machine.step
  have executed : c.step.state.executed = d.step.state.executed := by
    rw [Console.step, Console.step, afterInstruction, afterInstruction, result, h.others.executed]
  have others : c.step.state.AgreeOff (· = .timers) d.step.state :=
    { h.others with machine := state.others, executed }
  exact ⟨result, { h with others, delay := state.delay }⟩

/-- Time counts the delay timer down whether or not the sound is about to run out. -/
theorem update (h : c.AgreeOffSound d) (elapsed : Int) :
    (c.update elapsed).state.AgreeOffSound (d.update elapsed).state := by
  have changed : (Action.update elapsed).part? = some .timers := rfl
  obtain ⟨clock, ticks, delay⟩ := d.clock.pass_of_delay h.delay elapsed
  constructor
  case others =>
    have left := h.others.act_hidden changed rfl
    exact (left.symm.act_hidden changed rfl).symm
  case delay => rw [timers_update, timers_update, h.clock, delay]
  case clock => rw [clock_update, clock_update, h.clock, clock]
  case meter => rw [meter_update, meter_update, h.clock, ticks, h.meter, h.others.executed]

theorem setKey (h : c.AgreeOffSound d) (key : Int) (pressed : Bool) :
    (c.act (.setKey key pressed)).state.AgreeOffSound (d.act (.setKey key pressed)).state := by
  have others := (h.others.setKey Part.noConfusion key pressed).state
  have kept (c : Console) : (c.act (.setKey key pressed)).state.machine.timers = c.machine.timers ∧
      (c.act (.setKey key pressed)).state.clock = c.clock ∧
      (c.act (.setKey key pressed)).state.meter = c.meter := by
    simp only [Console.act]
    split
    · exact ⟨rfl, rfl, rfl⟩
    · next set =>
      rw [setKey_eq set]
      exact ⟨rfl, rfl, rfl⟩
  obtain ⟨timers, clock, meter⟩ := kept c
  obtain ⟨timers', clock', meter'⟩ := kept d
  refine ⟨others, ?_, ?_, ?_⟩
  · rw [timers, timers', h.delay]
  · rw [clock, clock', h.clock]
  · rw [meter, meter', h.meter]

theorem act (h : c.AgreeOffSound d) (action : Action) :
    (c.act action).state.AgreeOffSound (d.act action).state := by
  cases action with
  | step => exact h.step.state
  | update elapsed => exact h.update elapsed
  | setKey key pressed => exact h.setKey key pressed

/-- What the sound timer holds shows nowhere. -/
theorem observations (h : c.AgreeOffSound d) (actions : List Action) :
    c.observations actions = d.observations actions := by
  induction actions generalizing c d with
  | nil => rfl
  | cons action rest ih =>
    have later := ih (h.act action)
    cases action with
    | update | setKey => exact later
    | step =>
      have shown : observe c.step = observe d.step :=
        observe_eq ⟨h.step.result, h.step.state.others⟩
      show observe c.step :: _ = observe d.step :: _
      rw [shown]
      exact congrArg _ later

end AgreeOffSound

/-- The console with another value in the sound timer. -/
def sounding (c : Console) (sound : Nat) : Console :=
  { c with machine := { c.machine with timers := { c.machine.timers with sound } } }

theorem agreeOffSound_sounding (c : Console) (sound : Nat) :
    (c.sounding sound).AgreeOffSound c := by
  have same : c.machine.AgreeOff (· = .timers) c.machine := .refl c.machine
  have others : (c.sounding sound).AgreeOff (· = .timers) c :=
    { machine := { same with timers := absurd rfl }
      options := rfl
      executed := rfl
      fault := rfl
      loaded := rfl
      clock := fun _ => rfl
      meter := fun _ => rfl }
  exact { others, delay := rfl, clock := rfl, meter := rfl }

/-- The console with another random source. -/
def drawing (c : Console) (source : RandomSource) : Console :=
  { c with machine := { c.machine with random := source } }

/-- Consoles that differ in their random source alone agree once they are given the same one. -/
theorem AgreeOff.drawing (h : c.AgreeOff (· = .random) d) (source : RandomSource)
    (hidden : Part → Prop) : (c.drawing source).AgreeOff hidden (d.drawing source) :=
  { h with
    machine := { h.machine with
      timers := fun _ => h.machine.timers Part.noConfusion
      keypad := fun _ => h.machine.keypad Part.noConfusion
      random := fun _ => rfl }
    clock := fun _ => h.clock Part.noConfusion
    meter := fun _ => h.meter Part.noConfusion }

end Console

namespace Engine

/-- What was told before is not read back. -/
theorem act_told (e : Engine) (told : Array Event) (action : Console.Action) :
    ∃ told', ({ e with journal := told } : Engine).act action =
      ({ (e.act action).1 with journal := told' }, (e.act action).2) := by
  have withheld : ({ e with journal := told } : Engine).withholds action = e.withholds action := rfl
  have broken : ({ e with journal := told } : Engine).breaksOffAt action = e.breaksOffAt action :=
    rfl
  rw [act, act, withheld, broken]
  split
  · exact ⟨told, rfl⟩
  · split
    · exact ⟨_, rfl⟩
    · exact ⟨_, rfl⟩

theorem acts_told (e : Engine) (told : Array Event) (actions : List Console.Action) :
    (({ e with journal := told } : Engine).acts actions).2 = (e.acts actions).2 := by
  induction actions generalizing e told with
  | nil => rfl
  | cons action rest ih =>
    obtain ⟨told', acted⟩ := act_told e told action
    rw [acts, acts, acted]
    show (e.act action).2 :: _ = (e.act action).2 :: _
    rw [ih (e.act action).1 told']

/-- A load that succeeds has ended the thread, and then loads the console. -/
theorem console_of_load {e : Engine} {program : List UInt8} (loaded : (e.load program).2 = .ok ()) :
    (e.stop.console.load program).result = .ok () ∧
      (e.load program).1.console = (e.stop.console.load program).state := by
  rcases load_cases e program 2 with ⟨_, -, same⟩ | ⟨-, ⟨_, -, same⟩ | ⟨supplied, same⟩⟩
  · rw [same] at loaded
    cases loaded
  · rw [same] at loaded
    cases loaded
  · rw [same]
    exact ⟨supplied, rfl⟩

/-- Loading the same program into two engines makes their consoles agree. -/
theorem agreeOff_console_load {options : Options} {e f : Engine} (h : e.WellFormed options)
    (h' : f.WellFormed options) {program : List UInt8} (loaded : (e.load program).2 = .ok ())
    (loaded' : (f.load program).2 = .ok ()) :
    (e.load program).1.console.AgreeOff (· = .random) (f.load program).1.console := by
  obtain ⟨supplied, console⟩ := console_of_load loaded
  obtain ⟨-, console'⟩ := console_of_load loaded'
  have fits : program.length ≤ 3584 := by
    apply Nat.le_of_not_lt
    intro large
    obtain ⟨fault, refused⟩ := (load_result_error_iff h.stop.console program).mpr large
    rw [supplied] at refused
    cases refused
  have same : e.stop.console.options = f.stop.console.options :=
    h.stop.options_eq.trans h'.stop.options_eq.symm
  rw [console, console']
  exact (Console.agreeOff_load h.stop.console h'.stop.console same fits).2

/-- Two runs of a program from its load, with the same random source, show the same after each step:
as long as no instruction reads the delay timer, whatever time passes in the one and in the other,
and as long as none reads the keypad either, whatever keys are set too. The sound timer never
matters, and neither does what was told before, the beeps included. -/
theorem time_and_keys_unseen (options : Options) (history history' : List Operation)
    (program : List UInt8) (source : RandomSource)
    (loaded : (((ofOptions options).run history).load program).2 = .ok ())
    (loaded' : (((ofOptions options).run history').load program).2 = .ok ()) :
    let c := (((ofOptions options).run history).load program).1.console.drawing source
    let d := (((ofOptions options).run history').load program).1.console.drawing source
    (∀ (actions actions' : List Console.Action) (count : Nat),
      actions.filter (·.part? ≠ some .timers) = actions'.filter (·.part? ≠ some .timers) →
      (∀ o ∈ (c.observations actions).take count, ∀ op, o.result = .ok op →
        ¬ op.word.ReadsTime) →
      (c.observations actions).take count = (d.observations actions').take count) ∧
    (∀ (actions actions' : List Console.Action) (count : Nat),
      actions.count .step = actions'.count .step →
      (∀ o ∈ (c.observations actions).take count, ∀ op, o.result = .ok op →
        ¬ op.word.ReadsTime ∧ ¬ op.word.ReadsKeys) →
      (c.observations actions).take count = (d.observations actions').take count) ∧
    (∀ (console : Console) (sound : Nat) (actions : List Console.Action),
      (console.sounding sound).observations actions = console.observations actions) ∧
    ∀ (e : Engine) (told : Array Event) (actions : List Console.Action),
      (({ e with journal := told } : Engine).acts actions).2 = (e.acts actions).2 := by
  intro c d
  have agreed (hidden : Part → Prop) : c.AgreeOff hidden d :=
    (agreeOff_console_load (wellFormed_run options history) (wellFormed_run options history')
      loaded loaded').drawing source hidden
  refine ⟨?_, ?_, ?_, acts_told⟩
  · intro actions actions' count same unread
    apply (agreed (· = .timers)).take_observations _ _ same
    · rintro o mem op done part reading rfl
      exact unread o mem op done (Word.readsTime_of_reads reading)
    · rintro action part seen changes rfl
      exact of_decide_eq_true seen changes
    · intro action unseen
      exact ⟨.timers, Decidable.not_not.mp (of_decide_eq_false unseen), rfl⟩
  · intro actions actions' count same unread
    have steps : actions.filter (· == .step) = actions'.filter (· == .step) := by
      rw [List.filter_beq, List.filter_beq, same]
    apply (agreed (· ≠ .random)).take_observations _ _ steps
    · intro o mem op done part reading
      obtain ⟨time, keys⟩ := unread o mem op done
      cases part with
      | timers => exact absurd (Word.readsTime_of_reads reading) time
      | keypad => exact absurd (Word.readsKeys_of_reads reading) keys
      | random => exact fun hidden => hidden rfl
    · intro action part seen changes
      rw [eq_of_beq seen] at changes
      cases changes
    · intro action unseen
      cases action with
      | step => cases unseen
      | update elapsed => exact ⟨.timers, rfl, Part.noConfusion⟩
      | setKey key pressed => exact ⟨.keypad, rfl, Part.noConfusion⟩
  · intro console sound actions
    exact (console.agreeOffSound_sounding sound).observations actions

/-- A program that sets both timers and then jumps to itself shows the same whatever time passes
and whatever keys are set, also where another program ran before it. -/
theorem time_and_keys_unseen_by_loop :
    let program := [0x60, 0x05, 0xF0, 0x18, 0xF0, 0x15, 0x12, 0x06]
    let c := (((ofOptions {}).run []).load program).1.console.drawing (.scripted [])
    let d := (((ofOptions {}).run [.load [0xA2, 0x22], .act .step]).load program).1.console.drawing
      (.scripted [])
    (c.observations [.update 100, .step, .step, .step, .update 16, .step]).take 4 =
        (d.observations [.step, .step, .step, .step, .update 3]).take 4 ∧
      (c.observations [.update 100, .step, .step, .step, .update 16, .step]).take 4 =
        (d.observations [.step, .setKey 7 true, .step, .step, .setKey 99 true, .step]).take 4 := by
  intro program c d
  obtain ⟨time, keys, -⟩ := time_and_keys_unseen {} [] [.load [0xA2, 0x22], .act .step] program
    (.scripted []) (by decide +kernel) (by decide +kernel)
  have results : ((c.observations [.update 100, .step, .step, .step, .update 16, .step]).take
      4).map (·.result) =
        [.ok { addr := 0x200, word := Word.ofBytes 0x60 0x05 },
          .ok { addr := 0x202, word := Word.ofBytes 0xF0 0x18 },
          .ok { addr := 0x204, word := Word.ofBytes 0xF0 0x15 },
          .ok { addr := 0x206, word := Word.ofBytes 0x12 0x06 }] := by
    decide +kernel
  have unread : ∀ o ∈ (c.observations [.update 100, .step, .step, .step, .update 16, .step]).take 4,
      ∀ op, o.result = .ok op → ¬ op.word.ReadsTime ∧ ¬ op.word.ReadsKeys := by
    intro o mem op done
    have listed := List.mem_map_of_mem (f := (·.result)) mem
    rw [results, done] at listed
    simp only [List.mem_cons, List.not_mem_nil, or_false, Except.ok.injEq] at listed
    rcases listed with rfl | rfl | rfl | rfl <;> decide
  constructor
  · exact time _ _ 4 rfl fun o mem op done => (unread o mem op done).1
  · exact keys _ _ 4 rfl unread

end Engine

end ChipEight
