import ChipEight.Machine
import ChipEight.Proofs.InstructionTable
import ChipEight.Proofs.MemoryContents

/-!
# The bounds of a machine

Few instructions check what they write to the program counter, the call stack and the
timers, and yet none of these ever leaves a narrow range. The reason is the fetch: an
instruction is executed only at an address from 0x200 to 0xFFE, so that a call stacks an
address from 0x202 to 0x1000, a skip goes no further than 0x1002, and a jump stays below
0x1000. `Machine.WellFormed` collects these ranges, and `Machine.WellFormed.step` states
that an instruction keeps them, whether it succeeds or fails.
-/

namespace ChipEight

theorem Processor.pc_setLow (p : Processor) (values : List UInt8) :
    (p.setLow values).pc = p.pc := by
  simp only [setLow]

theorem Processor.get_setLow (p : Processor) (values : List UInt8) (x : Fin 16) :
    (p.setLow values).v.get x = values.getD x (p.v.get x) :=
  Vector.getElem_ofFn x.isLt

theorem Processor.calls_setLow (p : Processor) (values : List UInt8) :
    (p.setLow values).calls = p.calls := by
  simp only [setLow]

namespace Machine

variable {m n : Machine}

/-- What holds of every machine that programs run on. -/
structure WellFormed (m : Machine) : Prop where
  pc_nonneg : 0 ≤ m.pc
  pc_le : m.pc ≤ 0x1002
  depth_le : m.processor.calls.length ≤ Processor.maxCalls
  returns : ∀ target ∈ m.processor.calls, 0x202 ≤ target ∧ target ≤ 0x1000
  delay_le : m.timers.delay ≤ 255
  sound_le : m.timers.sound ≤ 255
  memory : m.memory.Intact
  noted : ∀ limit, m.diagnostics.limit = some limit → m.diagnostics.latest.length ≤ limit

/-- Storing a block changes the memory alone, whether it succeeds or fails. -/
theorem state_writeBlock (m : Machine) (values : List UInt8) :
    (m.writeBlock values).state =
      { m with memory := (m.memory.writeAll m.index values).1 } := by
  simp only [writeBlock]
  split <;> rfl

theorem result_writeBlock (m : Machine) (values : List UInt8) :
    (m.writeBlock values).result =
      match (m.memory.writeAll m.index values).2 with
      | some fault => .error fault
      | none => .ok none := by
  cases written : (m.memory.writeAll m.index values).2 with
  | some fault =>
    simp only [writeBlock, written]
    rfl
  | none =>
    simp only [writeBlock, written]
    rfl

/-! ## Fetching -/

/-- The program counter is at an address from which a word can be fetched. -/
def Fetches (m : Machine) : Prop := 0x200 ≤ m.pc ∧ m.pc ≤ 0xFFE

/-- The word that the two bytes at the program counter make. -/
def word (m : Machine) : Word :=
  Word.ofBytes (m.memory.byte m.pc.toNat) (m.memory.byte (m.pc.toNat + 1))

/-- Past a fetched word the sixteen bits of the program counter have not run out. -/
theorem pc_advance_of_fetches (h : m.Fetches) : m.advance.pc = m.pc + 2 := by
  obtain ⟨low, high⟩ := h
  change (m.pc + 2) % 65536 = m.pc + 2
  omega

theorem advance_of_fetches (h : m.Fetches) : m.advance = m.goto (m.pc + 2) :=
  congrArg (fun pc => m.goto pc) (pc_advance_of_fetches h)

/-- The word at the program counter, with its address. -/
def current (m : Machine) : Fetched := { addr := m.pc, word := m.word }

theorem fetch_of_fetches (memory : m.memory.Intact) (h : m.Fetches) :
    m.fetch = .ok m.current := by
  obtain ⟨low, high⟩ := h
  have inside : ¬ (m.pc < Memory.base ∨ m.memory.size ≤ m.pc + 1) := by
    rw [memory.size_eq, Memory.base, Memory.fullSize]
    omega
  simp only [fetch, Memory.fetch, if_neg inside, current, word]

theorem fetch_of_not_fetches (memory : m.memory.Intact) (h : ¬ m.Fetches) :
    m.fetch = .error { cause := .counterOutOfRange m.pc, addr := m.pc } := by
  have outside : m.pc < Memory.base ∨ m.memory.size ≤ m.pc + 1 := by
    rw [memory.size_eq, Memory.base, Memory.fullSize]
    simp only [Fetches] at h
    omega
  simp only [fetch, Memory.fetch, if_pos outside]

/-- A fetch that succeeds finds the word at the program counter. -/
theorem fetches_of_fetch (memory : m.memory.Intact) {op : Fetched} (fetched : m.fetch = .ok op) :
    m.Fetches ∧ op = m.current := by
  by_cases fetches : m.Fetches
  · rw [fetch_of_fetches memory fetches] at fetched
    exact ⟨fetches, (Except.ok.inj fetched).symm⟩
  · rw [fetch_of_not_fetches memory fetches] at fetched
    cases fetched

/-- A step fetches the word at the program counter, passes it and completes it. -/
theorem step_of_fetches (memory : m.memory.Intact) (h : m.Fetches) :
    m.step = m.advance.complete m.current := by
  rw [step, fetch_of_fetches memory h]

theorem step_of_not_fetches (memory : m.memory.Intact) (h : ¬ m.Fetches) :
    m.step =
      { state := m, result := .error { cause := .counterOutOfRange m.pc, addr := m.pc } } := by
  rw [step, fetch_of_not_fetches memory h]

theorem complete_of_error {op : Fetched} {fault : Fault}
    (h : (m.execute op).result = .error fault) :
    m.complete op =
      { state := (m.execute op).state
        result := .error (fault.chargedTo op)
        events := (m.execute op).events } := by
  simp only [complete, conclude, h]

theorem complete_of_ok {op : Fetched} {target : Option Int}
    (h : (m.execute op).result = .ok target) :
    m.complete op =
      { state := match target with
          | some pc => (m.execute op).state.goto pc
          | none => (m.execute op).state
        result := .ok op
        events := (m.execute op).events } := by
  cases target <;> simp only [complete, conclude, h]

/-! ## What keeps a machine well formed -/

namespace WellFormed

/-- Well-formedness reads the program counter, the calls, the timers, the memory and the
notes, and no other part of the machine. -/
theorem congr (h : m.WellFormed) (pc : n.pc = m.pc)
    (calls : n.processor.calls = m.processor.calls) (timers : n.timers = m.timers)
    (memory : n.memory = m.memory) (noted : n.diagnostics = m.diagnostics) : n.WellFormed where
  pc_nonneg := pc ▸ h.pc_nonneg
  pc_le := pc ▸ h.pc_le
  depth_le := calls ▸ h.depth_le
  returns := calls ▸ h.returns
  delay_le := timers ▸ h.delay_le
  sound_le := timers ▸ h.sound_le
  memory := memory ▸ h.memory
  noted := noted ▸ h.noted

theorem goto (h : m.WellFormed) {target : Int} (low : 0 ≤ target) (high : target ≤ 0x1002) :
    (m.goto target).WellFormed :=
  { h with pc_nonneg := low, pc_le := high }

theorem advance (h : m.WellFormed) (fetches : m.Fetches) : m.advance.WellFormed := by
  have moved := pc_advance_of_fetches fetches
  obtain ⟨low, high⟩ := fetches
  exact { h with
    pc_nonneg := by rw [moved]; omega
    pc_le := by rw [moved]; omega }

theorem setMemory (h : m.WellFormed) {memory : Memory} (intact : memory.Intact) :
    ({ m with memory } : Machine).WellFormed :=
  { h with memory := intact }

theorem setDelay (h : m.WellFormed) (value : Int) :
    ({ m with timers := m.timers.setDelay value } : Machine).WellFormed := by
  refine { h with delay_le := ?_ }
  simp only [Timers.setDelay]
  omega

theorem setSound (h : m.WellFormed) (value : Int) :
    ({ m with timers := m.timers.setSound value } : Machine).WellFormed := by
  refine { h with sound_le := ?_ }
  simp only [Timers.setSound]
  omega

theorem push (h : m.WellFormed) {processor : Processor} {target : Int}
    (range : 0x202 ≤ target ∧ target ≤ 0x1000)
    (pushed : m.processor.push target = .ok processor) :
    ({ m with processor } : Machine).WellFormed := by
  unfold Processor.push at pushed
  split at pushed
  · cases pushed
  · next room =>
    cases pushed
    refine { h with depth_le := Nat.lt_of_not_le room, returns := ?_ }
    intro other mem
    rcases List.mem_cons.mp mem with rfl | mem
    · exact range
    · exact h.returns other mem

/-- A return goes to an address that was stacked, and leaves the older ones. -/
theorem pop (h : m.WellFormed) {processor : Processor} {target : Int}
    (popped : m.processor.pop = .ok (target, processor)) :
    ({ m with processor } : Machine).WellFormed ∧ 0x202 ≤ target ∧ target ≤ 0x1000 := by
  unfold Processor.pop at popped
  split at popped
  · cases popped
  · next calls =>
    cases popped
    have depth := h.depth_le
    have returns := h.returns
    rw [calls] at depth returns
    refine ⟨{ h with depth_le := ?_, returns := ?_ }, returns target List.mem_cons_self⟩
    · exact Nat.le_of_succ_le depth
    · exact fun other mem => returns other (List.mem_cons_of_mem _ mem)

theorem note (h : m.WellFormed) (d : Diagnostic) :
    ({ m with diagnostics := m.diagnostics.push d } : Machine).WellFormed := by
  refine { h with noted := ?_ }
  intro limit bounded
  rw [DiagnosticLog.limit_push] at bounded
  simp only [DiagnosticLog.push, bounded, DiagnosticLog.keep]
  exact List.length_take_le limit _

end WellFormed

/-! ## Executing a word -/

/-- An outcome that leaves a well formed machine, and that names no address but one that the
program counter may have. -/
structure Admissible (done : Outcome) : Prop where
  formed : done.state.WellFormed
  target_range : ∀ target, done.result = .ok (some target) → 0 ≤ target ∧ target ≤ 0x1002

theorem admissible_fallThrough (h : m.WellFormed) (events : List Event) :
    Admissible (m.fallThrough events) :=
  ⟨h, fun _ none => by cases none⟩

theorem admissible_stopped (h : m.WellFormed) (fault : Fault) : Admissible (m.stopped fault) :=
  ⟨h, fun _ none => by cases none⟩

theorem admissible_redirect (h : m.WellFormed) {target : Int} (events : List Event)
    (low : 0 ≤ target) (high : target ≤ 0x1002) : Admissible (m.redirect target events) := by
  refine ⟨h, ?_⟩
  intro other eq
  cases eq
  exact ⟨low, high⟩

/-- Registers, display, keypad and random source may be changed at will. -/
theorem admissible_update (h : m.WellFormed) (events : List Event) (pc : n.pc = m.pc)
    (calls : n.processor.calls = m.processor.calls) (timers : n.timers = m.timers)
    (memory : n.memory = m.memory) (noted : n.diagnostics = m.diagnostics) :
    Admissible (n.fallThrough events) :=
  admissible_fallThrough (h.congr pc calls timers memory noted) events

theorem admissible_set (h : m.WellFormed) (x : Fin 16) (value : UInt8) (events : List Event) :
    Admissible ((m.set x value).fallThrough events) := by
  apply admissible_update h <;> rfl

theorem admissible_present (h : m.WellFormed) (request : Display.Request) :
    Admissible (m.present request) := by
  cases request <;> apply admissible_update h <;> rfl

theorem admissible_combine (h : m.WellFormed) (op : Fetched) (operation : Operation)
    (x y : Fin 16) : Admissible (m.combine op operation x y) := by
  rw [combine]
  generalize operation.apply m.reversed (m.v x) (m.v y) = computed
  obtain ⟨result, flag⟩ := computed
  cases flag <;> apply admissible_update h <;> rfl

theorem admissible_draw (h : m.WellFormed) (x y : Fin 16) (rows : Nat) :
    Admissible (m.draw x y rows) := by
  rw [draw]
  split
  · exact admissible_stopped h _
  · exact admissible_present h _

theorem admissible_writeBlock (h : m.WellFormed) (values : List UInt8) :
    Admissible (m.writeBlock values) := by
  have formed := h.setMemory (h.memory.writeAll m.index values)
  refine ⟨?_, ?_⟩
  · rw [state_writeBlock]
    exact formed
  · intro target redirected
    rw [result_writeBlock] at redirected
    split at redirected <;> cases redirected

theorem admissible_awaitKey (h : m.WellFormed) {op : Fetched} (low : 0 ≤ op.addr)
    (high : op.addr ≤ 0x1002) (x : Fin 16) : Admissible (m.awaitKey op x) := by
  rw [awaitKey]
  split
  · exact admissible_set h x _ _
  · exact admissible_redirect h _ low high

/-- The jumps and calls of the instruction table stay below 0x1000. -/
theorem target_lt_of_decode {w : Word} {target : Nat}
    (h : w.decode = .jump target ∨ w.decode = .call target) : target < 0x1000 := by
  rcases h with h | h
  · cases Word.decode_eq_iff.mp h
    exact w.nnn_lt
  · cases Word.decode_eq_iff.mp h
    exact w.nnn_lt

/-- Executing a word that was fetched and passed is admissible. -/
theorem admissible_execute (h : m.WellFormed) {op : Fetched} (low : 0x200 ≤ op.addr)
    (high : op.addr ≤ 0xFFE) (passed : m.pc = op.addr + 2) : Admissible (m.execute op) := by
  cases decoded : op.word.decode with
  | clear =>
    simp only [execute, decoded]
    exact admissible_present h _
  | ret =>
    simp only [execute, decoded]
    split
    · exact admissible_stopped h _
    · next target processor popped =>
      obtain ⟨formed, above, below⟩ := h.pop popped
      exact admissible_redirect formed _ (by omega) (by omega)
  | selectMode mode =>
    simp only [execute, decoded]
    exact admissible_present h _
  | jump target =>
    have := target_lt_of_decode (.inl decoded)
    simp only [execute, decoded]
    exact admissible_redirect h _ (by omega) (by omega)
  | call target =>
    have := target_lt_of_decode (.inr decoded)
    simp only [execute, decoded]
    split
    · exact admissible_stopped h _
    · next processor pushed =>
      exact admissible_redirect (h.push (by omega) pushed) _ (by omega) (by omega)
  | skipIf condition =>
    simp only [execute, decoded]
    split
    · exact admissible_redirect h _ (by omega) (by omega)
    · exact admissible_fallThrough h _
  | set x kk =>
    simp only [execute, decoded]
    exact admissible_set h x kk _
  | addByte x kk =>
    simp only [execute, decoded]
    exact admissible_set h x _ _
  | combine operation x y =>
    simp only [execute, decoded]
    exact admissible_combine h op operation x y
  | setIndex target =>
    simp only [execute, decoded]
    apply admissible_update h <;> rfl
  | random x kk =>
    simp only [execute, decoded]
    apply admissible_update h <;> rfl
  | draw x y rows =>
    simp only [execute, decoded]
    exact admissible_draw h x y rows
  | readDelay x =>
    simp only [execute, decoded]
    exact admissible_set h x _ _
  | awaitKey x =>
    simp only [execute, decoded]
    exact admissible_awaitKey h (by omega) (by omega) x
  | setDelay x =>
    simp only [execute, decoded]
    exact admissible_fallThrough (h.setDelay _) _
  | setSound x =>
    simp only [execute, decoded]
    exact admissible_fallThrough (h.setSound _) _
  | addIndex x =>
    simp only [execute, decoded]
    apply admissible_update h <;> rfl
  | pointGlyph x =>
    simp only [execute, decoded]
    apply admissible_update h <;> rfl
  | storeDigits x =>
    simp only [execute, decoded]
    exact admissible_writeBlock h _
  | store x =>
    simp only [execute, decoded]
    exact admissible_writeBlock h _
  | restore x =>
    simp only [execute, decoded]
    split
    · exact admissible_stopped h _
    · next values read =>
      have pc := Processor.pc_setLow m.processor values
      have calls := Processor.calls_setLow m.processor values
      exact admissible_update h _ pc calls rfl rfl rfl
  | skipWord kind =>
    simp only [execute, decoded]
    exact admissible_fallThrough (h.note _) _

/-! ## Instructions -/

theorem Admissible.wellFormed_conclude {done : Outcome} (h : Admissible done) (op : Fetched) :
    (conclude op done).state.WellFormed := by
  have formed := h.formed
  rw [conclude]
  split
  · exact formed
  · next target result =>
    obtain ⟨low, high⟩ := h.target_range target result
    exact formed.goto low high
  · exact formed

/-- An instruction keeps a machine well formed, whether it succeeds or fails. -/
theorem WellFormed.step (h : m.WellFormed) : m.step.state.WellFormed := by
  by_cases fetches : m.Fetches
  · have passed : m.advance.pc = m.current.addr + 2 := pc_advance_of_fetches fetches
    have done := admissible_execute (h.advance fetches) fetches.1 fetches.2 passed
    rw [step_of_fetches h.memory fetches]
    exact done.wellFormed_conclude m.current
  · rw [step_of_not_fetches h.memory fetches]
    exact h

/-! ## What no instruction changes -/

/-- What a machine is built with or loaded with, and what no instruction changes. -/
structure Settings where
  /-- How many notes are kept. -/
  limit : Option Nat
  /-- The convention for `Operation.subtractOther`. -/
  reversed : Bool
  /-- The program loaded last. -/
  program : List UInt8

/-- The settings of a machine. -/
def settings (m : Machine) : Settings := ⟨m.diagnostics.limit, m.reversed, m.memory.program⟩

theorem settings_present (m : Machine) (request : Display.Request) :
    (m.present request).state.settings = m.settings := by
  cases request <;> rfl

theorem settings_combine (m : Machine) (op : Fetched) (operation : Operation) (x y : Fin 16) :
    (m.combine op operation x y).state.settings = m.settings := by
  rw [combine]
  generalize operation.apply m.reversed (m.v x) (m.v y) = computed
  obtain ⟨result, flag⟩ := computed
  cases flag <;> rfl

theorem settings_draw (m : Machine) (x y : Fin 16) (rows : Nat) :
    (m.draw x y rows).state.settings = m.settings := by
  rw [draw]
  split
  · rfl
  · exact settings_present m _

theorem settings_writeBlock (m : Machine) (values : List UInt8) :
    (m.writeBlock values).state.settings = m.settings := by
  rw [state_writeBlock, settings, Memory.program_writeAll, settings]

theorem settings_execute (m : Machine) (op : Fetched) :
    (m.execute op).state.settings = m.settings := by
  cases decoded : op.word.decode with
  | clear | selectMode =>
    simp only [execute, decoded]
    exact settings_present m _
  | combine operation x y =>
    simp only [execute, decoded]
    exact settings_combine m op operation x y
  | draw x y rows =>
    simp only [execute, decoded]
    exact settings_draw m x y rows
  | storeDigits | store =>
    simp only [execute, decoded]
    exact settings_writeBlock m _
  | ret | call | skipIf | restore =>
    simp only [execute, decoded]
    split <;> rfl
  | awaitKey x =>
    simp only [execute, decoded, awaitKey]
    split <;> rfl
  | _ =>
    simp only [execute, decoded]
    rfl

theorem settings_conclude (op : Fetched) (done : Outcome) :
    (conclude op done).state.settings = done.state.settings := by
  rw [conclude]
  split <;> rfl

theorem settings_complete (m : Machine) (op : Fetched) :
    (m.complete op).state.settings = m.settings :=
  (settings_conclude op _).trans (settings_execute m op)

/-- No instruction changes the settings. -/
theorem settings_step (m : Machine) : m.step.state.settings = m.settings := by
  rw [step]
  split
  · rfl
  · next op _ => exact settings_complete m.advance op

end Machine

end ChipEight
