import ChipEight.Memory

/-!
# What memory holds

An access is let through by comparing addresses, and what it then finds is a byte of the
storage. The two are joined here: a guard that lets an address through names a stored byte,
a block that is written changes exactly the bytes of its part that lies in memory, and no
operation changes the glyph table or the program that is kept for the next reload.
-/

namespace ChipEight.Memory

variable {m next : Memory}

/-! ## Guards -/

/-- An address inside the memory names a byte of the storage. -/
theorem toNat_lt_size_bytes {addr : Int} (h : m.InBounds addr) : addr.toNat < m.bytes.size := by
  obtain ⟨nonneg, lt⟩ := h
  rw [m.size_bytes]
  omega

theorem writeFault?_eq_none_iff {addr : Int} :
    m.writeFault? addr = none ↔ Glyph.table.length ≤ addr ∧ addr < m.size := by
  have table : 0 ≤ (Glyph.table.length : Int) := Int.natCast_nonneg _
  unfold writeFault?
  split
  · next inside =>
    obtain ⟨nonneg, lt⟩ := inside
    split
    · next low => simp only [reduceCtorEq, false_iff]; omega
    · next high => exact iff_of_true rfl ⟨Int.not_lt.mp high, lt⟩
  · next outside =>
    simp only [reduceCtorEq, false_iff]
    exact fun h => outside ⟨Int.le_trans table h.1, h.2⟩

theorem not_writable {addr : Int} {fault : Fault} (h : m.writeFault? addr = some fault) :
    ¬ (Glyph.table.length ≤ addr ∧ addr < m.size) := by
  intro writable
  rw [writeFault?_eq_none_iff.mpr writable] at h
  cases h

theorem kind_of_accessFault? {addr : Int} {fault : Fault} (h : m.accessFault? addr = some fault) :
    fault.cause.kind = .memoryAccess := by
  unfold accessFault? at h
  split at h <;> cases h
  rfl

theorem kind_of_writeFault? {addr : Int} {fault : Fault} (h : m.writeFault? addr = some fault) :
    fault.cause.kind = .memoryAccess := by
  unfold writeFault? at h
  split at h
  · split at h <;> cases h
    rfl
  · cases h
    rfl

/-! ## Reading and writing blocks -/

/-- A block is read exactly if it is empty or ends inside the memory. -/
theorem readBlock_eq_error_iff (addr count : Nat) :
    (∃ fault, m.readBlock addr count = .error fault) ↔ 1 ≤ count ∧ m.size < addr + count := by
  unfold readBlock
  split
  · next empty => simp only [reduceCtorEq, exists_false, false_iff]; omega
  · next full =>
    have first : m.InBounds addr ↔ addr < m.size := by simp [InBounds]
    have last : m.InBounds (addr + count - 1) ↔ addr + count ≤ m.size := by
      simp only [InBounds]
      omega
    simp only [accessFault?, first, last]
    split <;> simp_all <;> omega

theorem kind_of_readBlock {addr count : Int} {fault : Fault}
    (h : m.readBlock addr count = .error fault) : fault.cause.kind = .memoryAccess := by
  unfold readBlock at h
  split at h
  · cases h
  · split at h
    · next refused => cases h; exact kind_of_accessFault? refused
    · next refused => cases h; exact kind_of_accessFault? refused
    · cases h

/-- No more bytes are read than were asked for. -/
theorem length_of_readBlock {addr : Int} {count : Nat} {values : List UInt8}
    (h : m.readBlock addr count = .ok values) : values.length ≤ count := by
  unfold readBlock at h
  split at h
  · cases h
    exact Nat.zero_le count
  · split at h
    · cases h
    · cases h
    · cases h
      rw [Array.length_toList, Array.size_extract, Int.toNat_natCast]
      omega

@[simp] theorem size_writeAll (m : Memory) (addr : Int) (values : List UInt8) :
    (m.writeAll addr values).1.size = m.size := by
  induction values generalizing m addr with
  | nil => rfl
  | cons value rest ih =>
    rw [writeAll]
    split
    · rfl
    · rw [ih, size_put]

@[simp] theorem program_writeAll (m : Memory) (addr : Int) (values : List UInt8) :
    (m.writeAll addr values).1.program = m.program := by
  induction values generalizing m addr with
  | nil => rfl
  | cons value rest ih =>
    rw [writeAll]
    split
    · rfl
    · rw [ih, program_put]

/-- Nothing is stored where the first write is refused. -/
theorem writeAll_of_writeFault? {addr : Int} {fault : Fault} (values : List UInt8)
    (h : m.writeFault? addr = some fault) : (m.writeAll addr values).1 = m := by
  cases values with
  | nil => rfl
  | cons value rest => simp only [writeAll, h]

/-- Storing a block is refused exactly if part of it lies outside what may be written. -/
theorem fault_writeAll_eq_none_iff (m : Memory) (addr : Int) (values : List UInt8) :
    (m.writeAll addr values).2 = none ↔
      values = [] ∨ Glyph.table.length ≤ addr ∧ addr + values.length ≤ m.size := by
  induction values generalizing m addr with
  | nil => simp [writeAll]
  | cons value rest ih =>
    rw [writeAll]
    split
    · next fault refused =>
      have outside := not_writable refused
      rw [List.length_cons]
      simp only [reduceCtorEq, false_or, false_iff]
      omega
    · next allowed =>
      obtain ⟨low, high⟩ := writeFault?_eq_none_iff.mp allowed
      rw [ih, size_put]
      cases rest with
      | nil =>
        refine iff_of_true (.inl rfl) (.inr ⟨low, ?_⟩)
        rw [List.length_singleton]
        omega
      | cons value' rest =>
        simp only [List.length_cons, reduceCtorEq, false_or]
        omega

theorem kind_of_writeAll {addr : Int} {values : List UInt8} {fault : Fault}
    (h : (m.writeAll addr values).2 = some fault) : fault.cause.kind = .memoryAccess := by
  induction values generalizing m addr with
  | nil => cases h
  | cons value rest ih =>
    rw [writeAll] at h
    split at h
    · next refused => cases h; exact kind_of_writeFault? refused
    · exact ih h

/-- Storing a block above the glyph table sets the bytes of its part that lies in memory, and
no others, whether it is refused after that part or not. -/
theorem byte_writeAll (m : Memory) {addr : Nat} (above : Glyph.table.length ≤ addr)
    (values : List UInt8) (other : Nat) :
    (m.writeAll addr values).1.byte other =
      if addr ≤ other ∧ other < addr + values.length ∧ other < m.size then
        values.getD (other - addr) 0
      else m.byte other := by
  induction values generalizing m addr with
  | nil => rw [writeAll, if_neg (by simp only [List.length_nil]; omega)]
  | cons value rest ih =>
    rw [writeAll]
    split
    · next fault refused =>
      have outside := not_writable refused
      rw [if_neg (by omega)]
    · next allowed =>
      obtain ⟨-, inside⟩ := writeFault?_eq_none_iff.mp allowed
      have stored : addr < m.bytes.size := by rw [m.size_bytes]; omega
      have next : (addr : Int) + 1 = (addr + 1 : Nat) := by omega
      rw [next, ih _ (by omega), Int.toNat_natCast, byte_put m stored, size_put, List.length_cons]
      by_cases first : other = addr
      · subst first
        rw [if_neg (by omega), if_pos rfl, if_pos (by omega), Nat.sub_self, List.getD_cons_zero]
      · by_cases reached : addr + 1 ≤ other ∧ other < addr + 1 + rest.length ∧ other < m.size
        · have step : other - addr = (other - (addr + 1)) + 1 := by omega
          rw [if_pos reached, if_pos (by omega), step, List.getD_cons_succ]
        · rw [if_neg reached, if_neg first, if_neg (by omega)]

/-! ## The glyph table and the program -/

/-- The memory of a machine: of full size, with the glyph table as it was made, and with a
program that has room. -/
structure Intact (m : Memory) : Prop where
  size_eq : m.size = fullSize
  glyphs : m.bytes.toList.take Glyph.table.length = Glyph.table
  fits : (m.program.length : Int) ≤ m.room

theorem intact_blank : (blank fullSize).Intact where
  size_eq := rfl
  glyphs := List.take_left' rfl
  fits := by decide

namespace Intact

theorem size_bytes (h : m.Intact) : m.bytes.size = fullSize := by
  rw [m.size_bytes, h.size_eq]
  rfl

theorem put (h : m.Intact) {index : Nat} (above : Glyph.table.length ≤ index) (value : UInt8) :
    (m.put index value).Intact where
  size_eq := h.size_eq
  glyphs := by
    rw [Memory.put, Array.toList_setIfInBounds, List.take_set_of_le above]
    exact h.glyphs
  fits := h.fits

theorem writeAll (h : m.Intact) (addr : Int) (values : List UInt8) :
    (m.writeAll addr values).1.Intact := by
  induction values generalizing m addr with
  | nil => exact h
  | cons value rest ih =>
    rw [Memory.writeAll]
    split
    · exact h
    · next allowed =>
      have above := (writeFault?_eq_none_iff.mp allowed).1
      exact ih (h.put (by omega) value) (addr + 1)

end Intact

/-- Loading makes a memory of full size the one of a machine. -/
theorem intact_load {program : List UInt8} (full : m.size = fullSize)
    (h : m.load program = .ok next) : next.Intact := by
  obtain ⟨room, size, kept, bytes⟩ := load_eq_ok_iff.mp h
  refine ⟨size.trans full, ?_, ?_⟩
  · rw [bytes, image, List.append_assoc, List.append_assoc]
    exact List.take_left' rfl
  · rw [Memory.room, kept, size]
    exact room

/-- What loading makes of a memory depends on its size alone. -/
theorem load_congr {other : Memory} (h : m.size = other.size) (program : List UInt8) :
    m.load program = other.load program := by
  cases m
  cases other
  cases h
  rfl

theorem load_eq_ok {program : List UInt8} (h : (program.length : Int) ≤ m.room) :
    ∃ next, m.load program = .ok next := by
  rw [load, dif_pos h]
  exact ⟨_, rfl⟩

end ChipEight.Memory
