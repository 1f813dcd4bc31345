import ChipEight.Proofs.EngineBounds

/-!
# Agreement

Two machines may be compared without some of their parts: the timers, the keypad and the
random source. Few instructions read these, and an instruction that does not read a part
treats two machines that differ in it alike: it answers the same, and they differ in no
other part afterwards. `Machine.AgreeOff.step` says this of one instruction, and
`Engine.AgreeOff.acts` of everything a host does with two engines.

What is told to the outside is never compared. The listeners of the display and the note
that the doubtful operand order has been told decide nothing else, and agreement leaves
them out from the start.
-/

namespace ChipEight

/-- The parts of a machine that agreement may leave out. -/
inductive Part where
  | timers
  | keypad
  | random
deriving DecidableEq

/-- What an instruction does depends on this part. -/
def Instruction.reads : Instruction → Part → Bool
  | .readDelay _, .timers => true
  | .skipIf (.keyHeld _), .keypad => true
  | .skipIf (.keyReleased _), .keypad => true
  | .awaitKey _, .keypad => true
  | .random _ _, .random => true
  | _, _ => false

/-- Two effects answer the same and leave states that agree. -/
structure Effect.Alike {σ α : Type} (agree : σ → σ → Prop) (a b : Effect σ α) : Prop where
  result : a.result = b.result
  state : agree a.state b.state

namespace Machine

variable {hidden : Part → Prop} {m n : Machine}

/-- Two machines agree in everything but what is hidden and what is only told. -/
structure AgreeOff (hidden : Part → Prop) (m n : Machine) : Prop where
  processor : m.processor = n.processor
  memory : m.memory = n.memory
  surface : m.display.surface = n.display.surface
  diagnostics : m.diagnostics = n.diagnostics
  reversed : m.reversed = n.reversed
  timers : ¬ hidden .timers → m.timers = n.timers
  keypad : ¬ hidden .keypad → m.keypad = n.keypad
  random : ¬ hidden .random → m.random = n.random

namespace AgreeOff

theorem refl (m : Machine) : m.AgreeOff hidden m where
  processor := rfl
  memory := rfl
  surface := rfl
  diagnostics := rfl
  reversed := rfl
  timers := fun _ => rfl
  keypad := fun _ => rfl
  random := fun _ => rfl

theorem goto (h : m.AgreeOff hidden n) (target : Int) :
    (m.goto target).AgreeOff hidden (n.goto target) :=
  { h with processor := congrArg (Processor.goto · target) h.processor }

theorem advance (h : m.AgreeOff hidden n) : m.advance.AgreeOff hidden n.advance :=
  { h with processor := congrArg Processor.advance h.processor }

theorem fetch (h : m.AgreeOff hidden n) : m.fetch = n.fetch := by
  rw [Machine.fetch, Machine.fetch, pc, pc, h.processor, h.memory]

theorem fallThrough (h : m.AgreeOff hidden n) (told told' : List Event) :
    Effect.Alike (AgreeOff hidden) (m.fallThrough told) (n.fallThrough told') :=
  ⟨rfl, h⟩

theorem redirect (h : m.AgreeOff hidden n) (target : Int) (told told' : List Event) :
    Effect.Alike (AgreeOff hidden) (m.redirect target told) (n.redirect target told') :=
  ⟨rfl, h⟩

theorem stopped (h : m.AgreeOff hidden n) (fault : Fault) :
    Effect.Alike (AgreeOff hidden) (m.stopped fault) (n.stopped fault) :=
  ⟨rfl, h⟩

theorem present (h : m.AgreeOff hidden n) (request : Display.Request) :
    Effect.Alike (AgreeOff hidden) (m.present request) (n.present request) := by
  have mode : m.display.mode = n.display.mode := congrArg Surface.mode h.surface
  cases request with
  | clear =>
    refine ⟨rfl, { h with surface := ?_ }⟩
    exact congrArg Surface.blank mode
  | selectMode mode =>
    refine ⟨rfl, { h with surface := ?_ }⟩
    exact (m.display.surface_selectMode mode).trans (n.display.surface_selectMode mode).symm
  | draw column row sprite =>
    have drawn : m.display.surface.draw column.toNat row.toNat sprite =
        n.display.surface.draw column.toNat row.toNat sprite := by rw [h.surface]
    refine ⟨rfl, { h with surface := congrArg Prod.fst drawn, processor := ?_ }⟩
    have collided := congrArg Prod.snd drawn
    have flagged : m.processor.setFlag (m.display.surface.draw column.toNat row.toNat sprite).2 =
        n.processor.setFlag (n.display.surface.draw column.toNat row.toNat sprite).2 := by
      rw [h.processor, collided]
    exact flagged

/-- A new processor, the same for both. -/
theorem setProcessor (h : m.AgreeOff hidden n) {p q : Processor} (same : p = q) :
    ({ m with processor := p } : Machine).AgreeOff hidden { n with processor := q } :=
  { h with processor := same }

/-- New timers, the same for both if timers are compared. -/
theorem setTimers (h : m.AgreeOff hidden n) {t u : Timers} (same : ¬ hidden .timers → t = u) :
    ({ m with timers := t } : Machine).AgreeOff hidden { n with timers := u } :=
  { h with timers := same }

theorem setDiagnostics (h : m.AgreeOff hidden n) {a b : DiagnosticLog} (same : a = b) :
    ({ m with diagnostics := a } : Machine).AgreeOff hidden { n with diagnostics := b } :=
  { h with diagnostics := same }

theorem set (h : m.AgreeOff hidden n) (x : Fin 16) {a b : UInt8} (same : a = b) :
    (m.set x a).AgreeOff hidden (n.set x b) :=
  h.setProcessor (by rw [h.processor, same])

theorem v (h : m.AgreeOff hidden n) (x : Fin 16) : m.v x = n.v x := by
  rw [Machine.v, h.processor, Machine.v]

theorem index (h : m.AgreeOff hidden n) : m.index = n.index := by
  rw [Machine.index, h.processor, Machine.index]

theorem pc (h : m.AgreeOff hidden n) : m.pc = n.pc := by
  rw [Machine.pc, h.processor, Machine.pc]

theorem draw (h : m.AgreeOff hidden n) (x y : Fin 16) (rows : Nat) :
    Effect.Alike (AgreeOff hidden) (m.draw x y rows) (n.draw x y rows) := by
  rw [Machine.draw, Machine.draw, h.memory, h.index, h.v, h.v]
  split
  · exact h.stopped _
  · exact h.present _

theorem writeBlock (h : m.AgreeOff hidden n) (values : List UInt8) :
    Effect.Alike (AgreeOff hidden) (m.writeBlock values) (n.writeBlock values) := by
  constructor
  · rw [result_writeBlock, result_writeBlock, h.memory, h.index]
  · rw [state_writeBlock, state_writeBlock]
    exact { h with memory := by rw [h.memory, h.index] }

theorem combine (h : m.AgreeOff hidden n) (op : Fetched) (operation : Operation) (x y : Fin 16) :
    Effect.Alike (AgreeOff hidden) (m.combine op operation x y) (n.combine op operation x y) := by
  rw [Machine.combine, Machine.combine, h.reversed, h.v, h.v]
  generalize operation.apply n.reversed (n.v x) (n.v y) = computed
  obtain ⟨result, flag⟩ := computed
  cases flag with
  | none =>
    refine ⟨rfl, { h with processor := ?_ }⟩
    exact congrArg (·.set x result) h.processor
  | some raised =>
    refine ⟨rfl, { h with processor := ?_ }⟩
    exact congrArg (fun p => (p.setFlag raised).set x result) h.processor

/-- Only the tests of a key look at anything but the registers. -/
theorem holds (h : m.AgreeOff hidden n) {condition : Condition}
    (visible : (Instruction.skipIf condition).reads .keypad = true → ¬ hidden .keypad) :
    m.holds condition = n.holds condition := by
  cases condition with
  | isByte | isNotByte | isEqual | isNotEqual => simp only [Machine.holds, h.v]
  | keyHeld | keyReleased => simp only [Machine.holds, h.v, h.keypad (visible rfl)]

theorem awaitKey (h : m.AgreeOff hidden n) (visible : ¬ hidden .keypad) (op : Fetched)
    (x : Fin 16) : Effect.Alike (AgreeOff hidden) (m.awaitKey op x) (n.awaitKey op x) := by
  rw [Machine.awaitKey, Machine.awaitKey, h.keypad visible]
  split
  · exact (h.set x rfl).fallThrough _ _
  · exact h.redirect _ _ _

/-- A word that reads nothing hidden does the same to machines that agree. -/
theorem execute (h : m.AgreeOff hidden n) (op : Fetched)
    (visible : ∀ part, op.word.decode.reads part = true → ¬ hidden part) :
    Effect.Alike (AgreeOff hidden) (m.execute op) (n.execute op) := by
  cases decoded : op.word.decode with
  | clear | selectMode =>
    simp only [Machine.execute, decoded]
    exact h.present _
  | ret =>
    simp only [Machine.execute, decoded, h.processor]
    split
    · exact h.stopped _
    · exact (h.setProcessor rfl).redirect _ _ _
  | jump target =>
    simp only [Machine.execute, decoded]
    exact h.redirect _ _ _
  | call target =>
    simp only [Machine.execute, decoded, h.processor, h.pc]
    split
    · exact h.stopped _
    · exact (h.setProcessor rfl).redirect _ _ _
  | skipIf condition =>
    rw [decoded] at visible
    simp only [Machine.execute, decoded, h.holds (visible .keypad), h.pc]
    split
    · exact h.redirect _ _ _
    · exact h.fallThrough _ _
  | set x kk =>
    simp only [Machine.execute, decoded]
    exact (h.set x rfl).fallThrough _ _
  | addByte x kk =>
    simp only [Machine.execute, decoded]
    exact (h.set x (by rw [h.v])).fallThrough _ _
  | combine operation x y =>
    simp only [Machine.execute, decoded]
    exact h.combine op operation x y
  | setIndex target =>
    simp only [Machine.execute, decoded]
    exact (h.setProcessor (by rw [h.processor])).fallThrough _ _
  | random x kk =>
    have same := h.random (visible .random (by rw [decoded]; rfl))
    have drawn : ({ m with random := m.random.next.2 } : Machine).AgreeOff hidden
        { n with random := n.random.next.2 } := { h with random := fun _ => by rw [same] }
    simp only [Machine.execute, decoded]
    exact (drawn.set x (by rw [same])).fallThrough _ _
  | draw x y rows =>
    simp only [Machine.execute, decoded]
    exact h.draw x y rows
  | readDelay x =>
    have same := h.timers (visible .timers (by rw [decoded]; rfl))
    simp only [Machine.execute, decoded]
    exact (h.set x (by rw [same])).fallThrough _ _
  | awaitKey x =>
    simp only [Machine.execute, decoded]
    exact h.awaitKey (visible .keypad (by rw [decoded]; rfl)) op x
  | setDelay x =>
    simp only [Machine.execute, decoded]
    exact (h.setTimers fun seen => by rw [h.timers seen, h.v]).fallThrough _ _
  | setSound x =>
    simp only [Machine.execute, decoded]
    exact (h.setTimers fun seen => by rw [h.timers seen, h.v]).fallThrough _ _
  | addIndex x =>
    simp only [Machine.execute, decoded]
    exact (h.setProcessor (by rw [h.processor, h.index, h.v])).fallThrough _ _
  | pointGlyph x =>
    simp only [Machine.execute, decoded]
    exact (h.setProcessor (by rw [h.processor, h.v])).fallThrough _ _
  | storeDigits x =>
    simp only [Machine.execute, decoded, h.v]
    exact h.writeBlock _
  | store x =>
    simp only [Machine.execute, decoded, h.processor]
    exact h.writeBlock _
  | restore x =>
    have read : m.memory.readBlock m.index (x + 1 : Nat) =
        n.memory.readBlock n.index (x + 1 : Nat) := by rw [h.memory, h.index]
    simp only [Machine.execute, decoded, read]
    split
    · exact h.stopped _
    · next values _ =>
      have loaded : m.processor.setLow values = n.processor.setLow values := by rw [h.processor]
      exact (h.setProcessor loaded).fallThrough _ _
  | skipWord kind =>
    simp only [Machine.execute, decoded]
    exact (h.setDiagnostics (by rw [h.diagnostics])).fallThrough _ _

theorem complete (h : m.AgreeOff hidden n) (op : Fetched)
    (visible : ∀ part, op.word.decode.reads part = true → ¬ hidden part) :
    Effect.Alike (AgreeOff hidden) (m.complete op) (n.complete op) := by
  obtain ⟨result, state⟩ := h.execute op visible
  cases answered : (n.execute op).result with
  | error fault =>
    rw [complete_of_error (result.trans answered), complete_of_error answered]
    exact ⟨rfl, state⟩
  | ok target =>
    rw [complete_of_ok (result.trans answered), complete_of_ok answered]
    cases target with
    | none => exact ⟨rfl, state⟩
    | some pc => exact ⟨rfl, state.goto pc⟩

end AgreeOff

/-- An instruction that fails reads none of the parts that may be hidden. -/
theorem reads_eq_false_of_error {op : Fetched} {fault : Fault}
    (failed : (m.execute op).result = .error fault) (part : Part) :
    op.word.decode.reads part = false := by
  cases decoded : op.word.decode with
  | skipIf condition =>
    simp only [execute, decoded] at failed
    split at failed <;> cases failed
  | random x kk | readDelay x =>
    simp only [execute, decoded] at failed
    cases failed
  | awaitKey x =>
    simp only [execute, decoded, awaitKey] at failed
    split at failed <;> cases failed
  | _ => cases part <;> rfl

/-- A step that reads nothing hidden does the same to machines that agree. -/
theorem AgreeOff.step (h : m.AgreeOff hidden n)
    (visible : ∀ op, m.step.result = .ok op →
      ∀ part, op.word.decode.reads part = true → ¬ hidden part) :
    Effect.Alike (AgreeOff hidden) m.step n.step := by
  have fetched := h.fetch
  rw [Machine.step] at visible
  rw [Machine.step, Machine.step, ← fetched]
  cases fetch : m.fetch with
  | error fault => exact ⟨rfl, h⟩
  | ok op =>
    refine h.advance.complete op ?_
    intro part reading
    cases result : (m.advance.execute op).result with
    | ok target =>
      refine visible op ?_ part reading
      rw [fetch]
      dsimp only
      rw [complete_of_ok result]
    | error fault =>
      rw [reads_eq_false_of_error result] at reading
      cases reading

end Machine

namespace Console

variable {hidden : Part → Prop} {c d : Console}

/-- Two consoles agree. What counts time is hidden with the timers, and the debug mode, which
decides when instructions are executed but not what they do, is never compared. -/
structure AgreeOff (hidden : Part → Prop) (c d : Console) : Prop where
  machine : c.machine.AgreeOff hidden d.machine
  options : c.options = d.options
  executed : c.executed = d.executed
  fault : c.fault = d.fault
  loaded : c.loaded = d.loaded
  clock : ¬ hidden .timers → c.clock = d.clock
  meter : ¬ hidden .timers → c.meter = d.meter

namespace AgreeOff

theorem step (h : c.AgreeOff hidden d)
    (visible : ∀ op, c.step.result = .ok op →
      ∀ part, op.word.decode.reads part = true → ¬ hidden part) :
    Effect.Alike (AgreeOff hidden) c.step d.step := by
  obtain ⟨result, state⟩ := h.machine.step visible
  refine ⟨result, { h with machine := state, executed := ?_ }⟩
  rw [Console.step, Console.step, afterInstruction, afterInstruction, result, h.executed]

theorem update (h : c.AgreeOff hidden d) (seen : ¬ hidden .timers) (elapsed : Int) :
    Effect.Alike (AgreeOff hidden) (c.update elapsed) (d.update elapsed) := by
  have passage : c.clock.pass c.machine.timers elapsed = d.clock.pass d.machine.timers elapsed := by
    rw [h.clock seen, h.machine.timers seen]
  have timed : ∀ timers, ({ c.machine with timers } : Machine).AgreeOff hidden
      { d.machine with timers } := fun timers => h.machine.setTimers fun _ => rfl
  have measured : c.meter.update elapsed c.executed = d.meter.update elapsed d.executed := by
    rw [h.meter seen, h.executed]
  rw [Console.update, Console.update, passage, measured]
  dsimp only
  split
  · exact ⟨rfl, { h with machine := timed _, clock := fun _ => rfl }⟩
  · exact ⟨rfl, { h with machine := timed _, clock := fun _ => rfl, meter := fun _ => rfl }⟩

/-- A key is refused for its number alone. -/
theorem setKey (h : c.AgreeOff hidden d) (seen : ¬ hidden .keypad) (key : Int) (pressed : Bool) :
    Effect.Alike (AgreeOff hidden) (c.act (.setKey key pressed)) (d.act (.setKey key pressed)) := by
  have keypad := h.machine.keypad seen
  simp only [act, Console.setKey, keypad]
  cases d.machine.keypad.set key pressed with
  | error refusal => exact ⟨rfl, h⟩
  | ok next => exact ⟨rfl, { h with machine := { h.machine with keypad := fun _ => rfl } }⟩

/-- Whatever a host does with two consoles that agree, it is answered the same. -/
theorem act (h : c.AgreeOff hidden d) (timers : ¬ hidden .timers) (keypad : ¬ hidden .keypad)
    (action : Action)
    (visible : ∀ op, (c.act action).result = .stepped (.ok op) →
      ∀ part, op.word.decode.reads part = true → ¬ hidden part) :
    Effect.Alike (AgreeOff hidden) (c.act action) (d.act action) := by
  cases action with
  | step =>
    obtain ⟨result, state⟩ := h.step fun op done => visible op (congrArg Answer.stepped done)
    exact ⟨congrArg Answer.stepped result, state⟩
  | update elapsed =>
    obtain ⟨result, state⟩ := h.update timers elapsed
    exact ⟨congrArg Answer.updated result, state⟩
  | setKey key pressed => exact h.setKey keypad key pressed

end AgreeOff

end Console

namespace Engine

variable {hidden : Part → Prop} {e f : Engine}

/-- Two engines agree: their consoles do, and their threads are at the same point. -/
structure AgreeOff (hidden : Part → Prop) (e f : Engine) : Prop where
  console : e.console.AgreeOff hidden f.console
  phase : e.phase = f.phase
  cancelled : e.cancelled = f.cancelled
  activity : e.activity = f.activity
  hasRun : e.hasRun = f.hasRun

namespace AgreeOff

theorem waits (h : e.AgreeOff hidden f) (seen : ¬ hidden .keypad) : e.waits = f.waits := by
  have keyHeld : e.keyHeld = f.keyHeld := by
    rw [Engine.keyHeld, Engine.keyHeld, h.console.machine.keypad seen]
  simp only [Engine.waits, h.cancelled, keyHeld, h.console.machine.fetch]

theorem breaksOff (h : e.AgreeOff hidden f) : e.breaksOff = f.breaksOff := by
  rw [Engine.breaksOff, Engine.breaksOff, h.console.options]

theorem pass (h : e.AgreeOff hidden f) (told : List Event) :
    (e.pass.tell told).AgreeOff hidden (f.pass.tell told) :=
  { h with console := { h.console with machine := h.console.machine.advance } }

theorem act (h : e.AgreeOff hidden f) (timers : ¬ hidden .timers) (keypad : ¬ hidden .keypad)
    (action : Console.Action)
    (visible : ∀ op, (e.act action).2 = some (.stepped (.ok op)) →
      ∀ part, op.word.decode.reads part = true → ¬ hidden part) :
    (e.act action).2 = (f.act action).2 ∧
      (e.act action).1.AgreeOff hidden (f.act action).1 := by
  have withheld : f.withholds action = e.withholds action := by
    cases action with
    | step => rw [withholds, withholds, h.activity, h.waits keypad, h.breaksOff]
    | update | setKey => rfl
  have broken : f.breaksOffAt action = e.breaksOffAt action := by
    cases action with
    | step => rw [breaksOffAt, breaksOffAt, h.waits keypad, h.breaksOff]
    | update | setKey => rfl
  rw [Engine.act] at visible
  rw [Engine.act, Engine.act, withheld, broken]
  split
  · exact ⟨rfl, h⟩
  · next free =>
    rw [if_neg free] at visible
    split
    · exact ⟨rfl, h.pass _⟩
    · next whole =>
      rw [if_neg whole] at visible
      obtain ⟨result, state⟩ := h.console.act timers keypad action fun op done =>
        visible op (congrArg some done)
      exact ⟨congrArg some result, { h with console := state }⟩

/-- Whatever a host does with two engines that agree, in any order, it is answered the same,
provided that no instruction reads what is hidden. -/
theorem acts (h : e.AgreeOff hidden f) (timers : ¬ hidden .timers) (keypad : ¬ hidden .keypad)
    (actions : List Console.Action)
    (visible : ∀ op, some (.stepped (.ok op)) ∈ (e.acts actions).2 →
      ∀ part, op.word.decode.reads part = true → ¬ hidden part) :
    (e.acts actions).2 = (f.acts actions).2 ∧
      (e.acts actions).1.AgreeOff hidden (f.acts actions).1 := by
  induction actions generalizing e f with
  | nil => exact ⟨rfl, h⟩
  | cons action rest ih =>
    obtain ⟨answer, agreed⟩ := h.act timers keypad action fun op done =>
      visible op (List.mem_cons.mpr (.inl done.symm))
    obtain ⟨answers, last⟩ := ih agreed fun op mem => visible op (List.mem_cons_of_mem _ mem)
    simp only [Engine.acts, answer, answers]
    exact ⟨trivial, last⟩

end AgreeOff

end Engine

end ChipEight
