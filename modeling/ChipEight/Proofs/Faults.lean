import ChipEight.Proofs.EngineBounds

/-!
# Faults of an instruction

A step fails for one of seven reasons: the program counter has left the addresses that words
are fetched from, or one of six instructions meets an empty or full call stack or a block
that memory refuses. `Machine.Fails` is the table of these reasons, in terms of the word at
the program counter, and a step fails exactly if it has a line in the table.

What a failed step leaves behind follows the same cases. A call, a return and the two
instructions that read a block ask first and change nothing. The two that write a block
write up to the first address that is refused.
-/

namespace ChipEight

theorem Processor.length_low (p : Processor) (x : Fin 16) : (p.low x).length = x + 1 := by
  rw [low, List.length_take, Vector.length_toList]
  omega

namespace Machine

variable {m : Machine} {op : Fetched} {fault : Fault}

/-- A machine refuses to execute a word, with a fault of this kind. -/
inductive Refuses (m : Machine) (w : Word) : Fault.Kind → Prop
  | ret (word : w.toNat = 0x00EE) (empty : m.processor.calls.length = 0) :
      m.Refuses w .stackUnderflow
  | call (word : w.family = 0x2) (full : m.processor.calls.length = 16) :
      m.Refuses w .stackOverflow
  | draw (word : w.family = 0xD) (rows : 1 ≤ w.n) (beyond : 4095 < m.index + w.n - 1) :
      m.Refuses w .memoryAccess
  | restore (word : w.family = 0xF) (low : w.kk = 0x65) (beyond : 4095 < m.index + w.x.val) :
      m.Refuses w .memoryAccess
  | storeDigits (word : w.family = 0xF) (low : w.kk = 0x33)
      (outside : m.index < 80 ∨ 4095 < m.index + 2) : m.Refuses w .memoryAccess
  | store (word : w.family = 0xF) (low : w.kk = 0x55)
      (outside : m.index < 80 ∨ 4095 < m.index + w.x.val) : m.Refuses w .memoryAccess

/-- A step of a machine fails with a fault of this kind, charged to this word. -/
inductive Fails (m : Machine) : Fault.Kind → Option Word → Prop
  | fetch (outside : ¬ (0x200 ≤ m.pc ∧ m.pc ≤ 0xFFE)) : m.Fails .memoryAccess none
  | execute {kind : Fault.Kind} (inside : 0x200 ≤ m.pc ∧ m.pc ≤ 0xFFE)
      (refused : m.Refuses m.word kind) : m.Fails kind (some m.word)

/-- The bytes that a word writes to memory, from the address register on: the hundreds, tens and
ones of a register, or the registers from the first to the one that the word names. -/
def operands (m : Machine) (w : Word) : List UInt8 :=
  let value := (m.v w.x).toNat
  if w.family = 0xF ∧ w.kk = 0x33 then
    [UInt8.ofNat (value / 100), UInt8.ofNat (value / 10 % 10), UInt8.ofNat (value % 10)]
  else if w.family = 0xF ∧ w.kk = 0x55 then
    (List.range (w.x + 1)).map fun k => m.v (Fin.ofNat 16 k)
  else []

theorem operands_of_storeDigits {w : Word} (word : w.family = 0xF) (low : w.kk = 0x33) :
    m.operands w = decimalDigits (m.v w.x) := by
  have hundreds : UInt8.ofNat ((m.v w.x).toNat / 100) = m.v w.x / 100 := by
    rw [← UInt8.toNat_inj, UInt8.toNat_div, UInt8.toNat_ofNat_of_lt']
    · rfl
    · exact Nat.lt_of_le_of_lt (Nat.div_le_self _ _) (m.v w.x).toNat_lt
  have tens : UInt8.ofNat ((m.v w.x).toNat / 10 % 10) = m.v w.x / 10 % 10 := by
    rw [← UInt8.toNat_inj, UInt8.toNat_mod, UInt8.toNat_div, UInt8.toNat_ofNat_of_lt']
    · rfl
    · exact Nat.lt_trans (Nat.mod_lt _ (by decide)) (by decide : 10 < 256)
  have ones : UInt8.ofNat ((m.v w.x).toNat % 10) = m.v w.x % 10 := by
    rw [← UInt8.toNat_inj, UInt8.toNat_mod, UInt8.toNat_ofNat_of_lt']
    · rfl
    · exact Nat.lt_trans (Nat.mod_lt _ (by decide)) (by decide : 10 < 256)
  rw [operands, if_pos ⟨word, low⟩, hundreds, tens, ones]
  rfl

theorem operands_of_store {w : Word} (word : w.family = 0xF) (low : w.kk = 0x55) :
    m.operands w = m.processor.low w.x := by
  have other : ¬ (w.family = 0xF ∧ w.kk = 0x33) := by simp [low]
  rw [operands, if_neg other, if_pos ⟨word, low⟩]
  apply List.ext_getElem
  · rw [List.length_map, List.length_range, Processor.length_low]
  · intro k inside _
    rw [List.length_map, List.length_range] at inside
    have small : k % 16 = k := Nat.mod_eq_of_lt (by omega)
    simp [Processor.low, v, Vector.get, Fin.ofNat, small]

/-! ## Blocks -/

/-- A block is read unless it is not empty and goes beyond the memory. -/
theorem readBlock_index_error_iff (memory : m.memory.Intact) (count : Nat) :
    (∃ fault, m.memory.readBlock m.index count = .error fault) ↔
      1 ≤ count ∧ 4095 < m.index + count - 1 := by
  rw [index, Memory.readBlock_eq_error_iff, memory.size_eq, Memory.fullSize]
  omega

/-- A block is written unless it begins in the glyph table or goes beyond the memory. -/
theorem writeBlock_error_iff (memory : m.memory.Intact) {values : List UInt8}
    (full : 0 < values.length) :
    (∃ fault, (m.writeBlock values).result = .error fault) ↔
      m.index < 80 ∨ 4095 < m.index + (values.length - 1 : Nat) := by
  have stored := m.memory.fault_writeAll_eq_none_iff m.index values
  rw [memory.size_eq, Memory.fullSize, Glyph.length_table] at stored
  have nonempty : values ≠ [] := List.ne_nil_of_length_pos full
  rw [result_writeBlock]
  cases written : (m.memory.writeAll m.index values).2 with
  | none =>
    have inside := (stored.mp written).resolve_left nonempty
    simp only [reduceCtorEq, exists_false, false_iff]
    omega
  | some fault =>
    have outside : ¬ (80 ≤ m.index ∧ m.index + values.length ≤ 4096) := by
      intro inside
      rw [stored.mpr (.inr inside)] at written
      cases written
    simp only [Except.error.injEq, exists_eq', true_iff]
    omega

theorem writeBlock_of_error {values : List UInt8}
    (failed : (m.writeBlock values).result = .error fault) :
    m.writeBlock values =
        ({ m with memory := (m.memory.writeAll m.index values).1 } : Machine).stopped fault ∧
      fault.cause.kind = .memoryAccess := by
  rw [writeBlock] at failed ⊢
  split at failed
  next memory refusal written =>
  rw [written]
  split at failed
  · next refused =>
    cases failed
    have stored : (m.memory.writeAll m.index values).2 = some fault := by rw [written]
    exact ⟨rfl, Memory.kind_of_writeAll stored⟩
  · cases failed

/-! ## Executing a word -/

theorem result_present (m : Machine) (request : Display.Request) :
    (m.present request).result = .ok none := by
  cases request <;> rfl

theorem result_combine (m : Machine) (op : Fetched) (operation : Operation) (x y : Fin 16) :
    (m.combine op operation x y).result = .ok none := by
  rw [combine]
  generalize operation.apply m.reversed (m.v x) (m.v y) = computed
  obtain ⟨result, flag⟩ := computed
  cases flag <;> rfl

theorem result_awaitKey (m : Machine) (op : Fetched) (x : Fin 16) :
    ∃ target, (m.awaitKey op x).result = .ok target := by
  rw [awaitKey]
  split
  · exact ⟨none, rfl⟩
  · exact ⟨some op.addr, rfl⟩

theorem operands_eq_nil {w : Word} (h : ¬ (w.family = 0xF ∧ (w.kk = 0x33 ∨ w.kk = 0x55))) :
    m.operands w = [] := by
  rw [operands, if_neg fun digits => h ⟨digits.1, .inl digits.2⟩,
    if_neg fun block => h ⟨block.1, .inr block.2⟩]

theorem operands_of_family {w : Word} (h : w.family ≠ 0xF) : m.operands w = [] :=
  operands_eq_nil fun both => h both.1

/-- What is left when a word is refused at `m`: what it wrote until then. -/
def refused (m : Machine) (w : Word) (fault : Fault) : Outcome :=
  ({ m with memory := (m.memory.writeAll m.index (m.operands w)).1 } : Machine).stopped fault

theorem refused_of_operands {w : Word} (h : m.operands w = []) :
    m.refused w fault = m.stopped fault := by
  rw [refused, h]
  rfl

/-- A word that is refused has a line in the table. -/
theorem refuses_of_error (memory : m.memory.Intact)
    (depth : m.processor.calls.length ≤ Processor.maxCalls)
    (failed : (m.execute op).result = .error fault) :
    m.Refuses op.word fault.cause.kind ∧ m.execute op = m.refused op.word fault := by
  have word := op.word.denotes_decode
  generalize decoded : op.word.decode = instruction at word
  cases word with
  | ret word =>
    have idle : m.operands op.word = [] :=
      operands_of_family (by rw [(Word.fields_of_toNat word (by decide)).1]; decide)
    simp only [execute, decoded] at failed ⊢
    cases calls : m.processor.calls with
    | nil =>
      simp only [Processor.pop, calls] at failed ⊢
      cases failed
      rw [refused_of_operands idle]
      exact ⟨.ret word (by rw [calls]; rfl), rfl⟩
    | cons target rest =>
      simp only [Processor.pop, calls] at failed
      cases failed
  | call word =>
    have idle : m.operands op.word = [] := operands_of_family (by rw [word]; decide)
    simp only [execute, decoded] at failed ⊢
    by_cases full : Processor.maxCalls ≤ m.processor.calls.length
    · simp only [Processor.push, if_pos full] at failed ⊢
      cases failed
      rw [refused_of_operands idle]
      exact ⟨.call word (Nat.le_antisymm depth full), rfl⟩
    · simp only [Processor.push, if_neg full] at failed
      cases failed
  | draw word =>
    have idle : m.operands op.word = [] := operands_of_family (by rw [word]; decide)
    simp only [execute, decoded, draw] at failed ⊢
    cases read : m.memory.readBlock m.index op.word.n with
    | error refusal =>
      obtain ⟨rows, beyond⟩ := (readBlock_index_error_iff memory _).mp ⟨refusal, read⟩
      simp only [read] at failed ⊢
      cases failed
      rw [refused_of_operands idle, Memory.kind_of_readBlock read]
      exact ⟨.draw word rows beyond, rfl⟩
    | ok sprite =>
      simp only [read, result_present] at failed
      cases failed
  | restore word low =>
    have idle : m.operands op.word = [] := operands_eq_nil (by simp [low])
    simp only [execute, decoded] at failed ⊢
    cases read : m.memory.readBlock m.index (op.word.x + 1 : Nat) with
    | error refusal =>
      obtain ⟨-, beyond⟩ := (readBlock_index_error_iff memory _).mp ⟨refusal, read⟩
      simp only [read] at failed ⊢
      cases failed
      rw [refused_of_operands idle, Memory.kind_of_readBlock read]
      exact ⟨.restore word low (by omega), rfl⟩
    | ok values =>
      simp only [read] at failed
      cases failed
  | storeDigits word low =>
    have values := m.operands_of_storeDigits word low
    simp only [execute, decoded] at failed ⊢
    have full : 0 < (decimalDigits (m.v op.word.x)).length := Nat.succ_pos 2
    have outside := (writeBlock_error_iff memory full).mp ⟨fault, failed⟩
    obtain ⟨eq, kind⟩ := writeBlock_of_error failed
    rw [refused, values, kind]
    exact ⟨.storeDigits word low outside, eq⟩
  | store word low =>
    have values := m.operands_of_store word low
    have length := m.processor.length_low op.word.x
    simp only [execute, decoded] at failed ⊢
    have outside := (writeBlock_error_iff memory (by omega)).mp ⟨fault, failed⟩
    obtain ⟨eq, kind⟩ := writeBlock_of_error failed
    rw [refused, values, kind]
    exact ⟨.store word low (by omega), eq⟩
  | clear | small | big =>
    simp only [execute, decoded, result_present] at failed
    cases failed
  | combine =>
    simp only [execute, decoded, result_combine] at failed
    cases failed
  | skipIfByte | skipIfNotByte | skipIfEqual | skipIfNotEqual | skipIfHeld | skipIfReleased =>
    simp only [execute, decoded] at failed
    split at failed <;> cases failed
  | awaitKey =>
    obtain ⟨target, succeeded⟩ := result_awaitKey m op op.word.x
    simp only [execute, decoded, succeeded] at failed
    cases failed
  | _ =>
    simp only [execute, decoded] at failed
    cases failed

/-- A word with a line in the table is refused. -/
theorem error_of_refuses (memory : m.memory.Intact) {kind : Fault.Kind}
    (h : m.Refuses op.word kind) :
    ∃ fault, (m.execute op).result = .error fault ∧ fault.cause.kind = kind := by
  cases h with
  | ret word empty =>
    have decoded := Word.decode_eq_iff.mpr (.ret word)
    have calls := List.length_eq_zero_iff.mp empty
    simp only [execute, decoded, Processor.pop, calls]
    exact ⟨_, rfl, rfl⟩
  | call word full =>
    have decoded := Word.decode_eq_iff.mpr (.call word)
    have room : Processor.maxCalls ≤ m.processor.calls.length := Nat.le_of_eq full.symm
    simp only [execute, decoded, Processor.push, if_pos room]
    exact ⟨_, rfl, rfl⟩
  | draw word rows beyond =>
    have decoded := Word.decode_eq_iff.mpr (.draw word)
    obtain ⟨fault, read⟩ := (readBlock_index_error_iff memory op.word.n).mpr ⟨rows, beyond⟩
    simp only [execute, decoded, draw, read]
    exact ⟨fault, rfl, Memory.kind_of_readBlock read⟩
  | restore word low beyond =>
    have decoded := Word.decode_eq_iff.mpr (.restore word low)
    obtain ⟨fault, read⟩ := (readBlock_index_error_iff memory (op.word.x + 1)).mpr
      ⟨Nat.succ_pos _, by omega⟩
    simp only [execute, decoded, read]
    exact ⟨fault, rfl, Memory.kind_of_readBlock read⟩
  | storeDigits word low outside =>
    have decoded := Word.decode_eq_iff.mpr (.storeDigits word low)
    simp only [execute, decoded]
    have full : 0 < (decimalDigits (m.v op.word.x)).length := Nat.succ_pos 2
    obtain ⟨fault, failed⟩ := (writeBlock_error_iff memory full).mpr outside
    exact ⟨fault, failed, (writeBlock_of_error failed).2⟩
  | store word low outside =>
    have decoded := Word.decode_eq_iff.mpr (.store word low)
    have length := m.processor.length_low op.word.x
    have full : 0 < (m.processor.low op.word.x).length := by omega
    simp only [execute, decoded]
    obtain ⟨fault, failed⟩ := (writeBlock_error_iff memory full).mpr (by omega)
    exact ⟨fault, failed, (writeBlock_of_error failed).2⟩

/-! ## Steps -/

/-- The table reads the address register and the depth of the call stack. -/
theorem Refuses.congr {n : Machine} {w : Word} {kind : Fault.Kind} (h : m.Refuses w kind)
    (index : n.index = m.index) (calls : n.processor.calls = m.processor.calls) :
    n.Refuses w kind := by
  cases h with
  | ret word empty => exact .ret word (by rw [calls, empty])
  | call word full => exact .call word (by rw [calls, full])
  | draw word rows beyond => exact .draw word rows (by rw [index]; exact beyond)
  | restore word low beyond => exact .restore word low (by rw [index]; exact beyond)
  | storeDigits word low outside => exact .storeDigits word low (by rw [index]; exact outside)
  | store word low outside => exact .store word low (by rw [index]; exact outside)

/-- A step with a line in the table fails as the table says. -/
theorem error_of_fails (h : m.WellFormed) {kind : Fault.Kind} {word : Option Word}
    (fails : m.Fails kind word) :
    ∃ fault, m.step.result = .error fault ∧ fault.cause.kind = kind ∧ fault.addr = m.pc ∧
      fault.word = word := by
  cases fails with
  | fetch outside =>
    rw [step_of_not_fetches h.memory outside]
    exact ⟨_, rfl, rfl, rfl, rfl⟩
  | execute inside refused =>
    have advanced : m.advance.Refuses m.current.word kind := refused.congr rfl rfl
    have memory : m.advance.memory.Intact := h.memory
    obtain ⟨fault, failed, same⟩ := error_of_refuses memory advanced
    rw [step_of_fetches h.memory inside, complete_of_error failed]
    exact ⟨fault.chargedTo m.current, rfl, same, rfl, rfl⟩

/-- What a failed step leaves of a machine. A failed fetch changes nothing; otherwise the
word has been passed, and memory holds what it wrote until it was refused. -/
def afterFault (m : Machine) : Option Word → Machine
  | none => m
  | some w =>
    { m with
      processor := { m.processor with pc := m.pc + 2 }
      memory := (m.memory.writeAll m.index (m.operands w)).1 }

/-- A step that fails has a line in the table, is charged to its address, and leaves what it
should. -/
theorem fails_of_error (h : m.WellFormed) (failed : m.step.result = .error fault) :
    m.Fails fault.cause.kind fault.word ∧ fault.addr = m.pc ∧
      m.step = { state := m.afterFault fault.word, result := .error fault } := by
  by_cases fetches : m.Fetches
  · have memory : m.advance.memory.Intact := h.memory
    have depth : m.advance.processor.calls.length ≤ Processor.maxCalls := h.depth_le
    rw [step_of_fetches h.memory fetches] at failed ⊢
    cases result : (m.advance.execute m.current).result with
    | ok target =>
      rw [complete_of_ok result] at failed
      cases failed
    | error refusal =>
      obtain ⟨refuses, outcome⟩ := refuses_of_error memory depth result
      rw [complete_of_error result] at failed ⊢
      cases failed
      refine ⟨.execute fetches (refuses.congr rfl rfl), rfl, ?_⟩
      rw [outcome, advance_of_fetches fetches]
      rfl
  · rw [step_of_not_fetches h.memory fetches] at failed ⊢
    cases failed
    exact ⟨.fetch fetches, rfl, rfl⟩

/-! ## The part of a block that is written -/

/-- The word writes a block that begins where writing is allowed. -/
def WritesPart (m : Machine) (w : Word) : Prop :=
  w.family = 0xF ∧ (w.kk = 0x33 ∨ w.kk = 0x55) ∧ 80 ≤ m.index ∧ m.index ≤ 4095

theorem memory_of_not_writesPart (memory : m.memory.Intact) {w : Word} (h : ¬ m.WritesPart w) :
    (m.memory.writeAll m.index (m.operands w)).1 = m.memory := by
  by_cases writes : w.family = 0xF ∧ (w.kk = 0x33 ∨ w.kk = 0x55)
  · cases refused : m.memory.writeFault? m.index with
    | some fault => exact Memory.writeAll_of_writeFault? _ refused
    | none =>
      obtain ⟨low, high⟩ := Memory.writeFault?_eq_none_iff.mp refused
      rw [Glyph.length_table] at low
      rw [memory.size_eq, Memory.fullSize] at high
      exact absurd ⟨writes.1, writes.2, low, by omega⟩ h
  · rw [operands_eq_nil writes]
    rfl

/-- A block that is refused although it begins where writing is allowed goes beyond the end of
the memory. -/
theorem lt_length_operands {w : Word} {kind : Fault.Kind} (part : m.WritesPart w)
    (refuses : m.Refuses w kind) : 4096 < m.index + (m.operands w).length := by
  obtain ⟨family, low, above, -⟩ := part
  cases refuses with
  | ret word =>
    rw [(Word.fields_of_toNat word (by decide)).1] at family
    cases family
  | call word =>
    rw [word] at family
    cases family
  | draw word =>
    rw [word] at family
    cases family
  | restore _ other =>
    rw [other] at low
    exact absurd low (by decide)
  | storeDigits _ digits outside =>
    have length : (decimalDigits (m.v w.x)).length = 3 := rfl
    rw [operands_of_storeDigits family digits, length]
    omega
  | store _ block outside =>
    rw [operands_of_store family block, Processor.length_low]
    omega

/-- What is stored of such a block are its first bytes, up to the end of the memory. -/
theorem byte_of_writesPart (memory : m.memory.Intact) {w : Word} {kind : Fault.Kind}
    (part : m.WritesPart w) (refuses : m.Refuses w kind) (addr : Nat) :
    let stored := (m.memory.writeAll m.index (m.operands w)).1
    (m.processor.i.toNat ≤ addr ∧ addr ≤ 4095 →
        (m.operands w)[addr - m.processor.i.toNat]? = some (stored.byte addr)) ∧
      (¬ (m.processor.i.toNat ≤ addr ∧ addr ≤ 4095) →
        stored.byte addr = m.memory.byte addr) := by
  have long := lt_length_operands part refuses
  have above := part.2.2.1
  rw [index] at long above
  have table : Glyph.table.length ≤ m.processor.i.toNat := by rw [Glyph.length_table]; omega
  have byte := m.memory.byte_writeAll table (m.operands w) addr
  rw [memory.size_eq, Memory.fullSize] at byte
  constructor
  · rintro ⟨low, high⟩
    have place : addr - m.processor.i.toNat < (m.operands w).length := by omega
    rw [if_pos ⟨low, by omega, by omega⟩, List.getD_eq_getElem?_getD,
      List.getElem?_eq_getElem place, Option.getD_some] at byte
    rw [List.getElem?_eq_getElem place]
    exact congrArg some byte.symm
  · intro outside
    rw [if_neg (by omega)] at byte
    exact byte

/-- Every place that a step may look up or write is there. -/
structure Addressable (m : Machine) : Prop where
  fetched : m.Fetches → m.pc.toNat + 1 < m.memory.bytes.size
  read : ∀ addr, m.memory.InBounds addr → addr.toNat < m.memory.bytes.size
  written : ∀ addr, m.memory.writeFault? addr = none → addr.toNat < m.memory.bytes.size
  stacked : m.processor.calls.length ≤ 16
  drawn : ∀ column row sprite, ∀ place ∈ Sprite.offsets m.display.mode column row sprite,
    place < m.display.surface.cells.size

theorem WellFormed.addressable (h : m.WellFormed) : m.Addressable where
  fetched := by
    rintro ⟨low, high⟩
    rw [h.memory.size_bytes, Memory.fullSize]
    omega
  read := fun _ inside => Memory.toNat_lt_size_bytes inside
  written := by
    intro addr allowed
    obtain ⟨low, high⟩ := Memory.writeFault?_eq_none_iff.mp allowed
    exact Memory.toNat_lt_size_bytes ⟨Int.le_trans (Int.natCast_nonneg _) low, high⟩
  stacked := h.depth_le
  drawn := by
    intro column row sprite place mem
    simp only [Sprite.offsets, List.mem_flatMap, List.mem_map] at mem
    obtain ⟨_, -, _, -, rfl⟩ := mem
    rw [m.display.surface.size_cells]
    exact Mode.offset_lt_area _ _ _

end Machine

/-! ## Steps of a console with a history -/

namespace Engine

/-- A step fails exactly if the table of faults says so, and then with the fault that the table
names. No other failure is possible: all that a step looks up is there. -/
theorem step_fails_iff (options : Options) (history : List Operation) :
    let c := ((ofOptions options).run history).console
    (∀ kind addr word,
      (∃ fault, c.step.result = .error fault ∧ fault.cause.kind = kind ∧ fault.addr = addr ∧
        fault.word = word) ↔ c.machine.Fails kind word ∧ addr = c.machine.pc) ∧
      c.machine.Addressable := by
  intro c
  have formed : c.machine.WellFormed := (wellFormed_run options history).console.machine
  refine ⟨?_, formed.addressable⟩
  intro kind addr word
  constructor
  · rintro ⟨fault, failed, rfl, rfl, rfl⟩
    obtain ⟨fails, charged, -⟩ := Machine.fails_of_error formed failed
    exact ⟨fails, charged⟩
  · rintro ⟨fails, rfl⟩
    exact Machine.error_of_fails formed fails

/-- What a failed step leaves behind: everything if the fetch failed, and otherwise everything
but the program counter, and but the part of a block that could be written. -/
theorem state_of_failed_step (options : Options) (history : List Operation) (fault : Fault)
    (failed : ((ofOptions options).run history).console.step.result = .error fault) :
    let c := ((ofOptions options).run history).console
    let i := c.machine.processor.i.toNat
    (fault.word = none → c.step.state = c) ∧
      ∀ w, fault.word = some w → ∃ memory : Memory,
        c.step.state =
          { c with machine := { c.machine with
              processor := { c.machine.processor with pc := fault.addr + 2 }, memory } } ∧
        memory.size = c.machine.memory.size ∧ memory.program = c.machine.memory.program ∧
        (¬ c.machine.WritesPart w → memory = c.machine.memory) ∧
        (c.machine.WritesPart w → ∀ addr,
          (i ≤ addr ∧ addr ≤ 4095 →
              (c.machine.operands w)[addr - i]? = some (memory.byte addr)) ∧
            (¬ (i ≤ addr ∧ addr ≤ 4095) →
              memory.byte addr = c.machine.memory.byte addr)) := by
  intro c i
  have formed : c.machine.WellFormed := (wellFormed_run options history).console.machine
  obtain ⟨fails, charged, done⟩ := Machine.fails_of_error formed failed
  have state : c.step.state = { c with machine := c.machine.afterFault fault.word } := by
    rw [Console.step, Console.afterInstruction, done]
  refine ⟨?_, ?_⟩
  · intro unfetched
    rw [state, unfetched]
    rfl
  · intro w word
    rw [word] at fails
    generalize fault.cause.kind = kind at fails
    cases fails with
    | execute _ refuses =>
      refine ⟨(c.machine.memory.writeAll c.machine.index (c.machine.operands _)).1, ?_,
        Memory.size_writeAll _ _ _, Memory.program_writeAll _ _ _,
        Machine.memory_of_not_writesPart formed.memory,
        fun part addr => Machine.byte_of_writesPart formed.memory part refuses addr⟩
      rw [state, word, charged]
      rfl

/-- Of two registers only the first has room at the last address: it is written there before
the second one is refused. -/
theorem state_of_failed_store :
    let c := ((ofOptions {}).run
      [.load [0x60, 0xAA, 0xAF, 0xFF, 0xF1, 0x55], .act .step, .act .step]).console
    ∃ fault, c.step.result = .error fault ∧ fault.cause = .addressOutOfRange 0x1000 ∧
      c.step.state.machine.pc = 0x206 ∧ c.step.state.machine.memory.byte 0xFFF = 0xAA := by
  let w := Word.ofBytes 0xF1 0x55
  let fault : Fault := { cause := .addressOutOfRange 0x1000, addr := 0x204, word := some w }
  have spec := state_of_failed_step {}
    [.load [0x60, 0xAA, 0xAF, 0xFF, 0xF1, 0x55], .act .step, .act .step] fault
  generalize eq : ((ofOptions {}).run
    [.load [0x60, 0xAA, 0xAF, 0xFF, 0xF1, 0x55], .act .step, .act .step]).console = c at spec ⊢
  have failed : c.step.result = .error fault := by rw [← eq]; decide +kernel
  have last : c.machine.processor.i.toNat = 0xFFF := by rw [← eq]; decide +kernel
  have first : (c.machine.operands w)[0]? = some 0xAA := by rw [← eq]; decide +kernel
  have part : c.machine.WritesPart w := by
    refine ⟨by decide, by decide, ?_, ?_⟩
    · rw [Machine.index, last]; decide
    · rw [Machine.index, last]; decide
  obtain ⟨memory, state, -, -, -, written⟩ := (spec failed).2 w rfl
  have stored := (written part 0xFFF).1 ⟨Nat.le_of_eq last, by decide⟩
  rw [last, Nat.sub_self, first] at stored
  refine ⟨fault, failed, rfl, ?_, ?_⟩
  · rw [state]
    rfl
  · rw [state]
    exact (Option.some.inj stored).symm

end Engine

end ChipEight
