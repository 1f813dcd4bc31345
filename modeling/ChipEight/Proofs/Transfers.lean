import ChipEight.Proofs.Faults
import ChipEight.Proofs.MemoryHistory

/-!
# Transfers between registers and memory

Three instructions move bytes between the first registers and the block of memory at the address
register: one stores the registers, one stores the decimal digits of a register, and one restores
registers. The first two store byte by byte, each behind the write guard, and the third reads the
block as a whole. Where the block lies in memory above the glyph table all three do the same from one
end of the block to the other, the last register included: `Machine.transfers_round_trip`.

Everything is said of single bytes. A block that is stored and read again gives every register the
byte at its place, and memories that hold the same bytes are the same memory (`Memory.eq_of_byte`).
-/

namespace ChipEight

/-- A memory is made of its bytes and of the program it would place again. -/
theorem Memory.eq_of_byte {m n : Memory} (size : n.size = m.size) (program : n.program = m.program)
    (bytes : ∀ addr, n.byte addr = m.byte addr) : n = m := by
  have length : n.bytes.size = m.bytes.size := by rw [n.size_bytes, m.size_bytes, size]
  have same : n.bytes = m.bytes := by
    apply Array.ext length
    intro addr inside inside'
    have byte := bytes addr
    simpa only [Memory.byte, Array.getD_eq_getD_getElem?, Array.getElem?_eq_getElem inside,
      Array.getElem?_eq_getElem inside', Option.getD_some] using byte
  obtain ⟨_, _, _, _⟩ := m
  obtain ⟨_, _, _, _⟩ := n
  cases size
  cases program
  cases same
  rfl

/-! ## Lists of registers -/

namespace Processor

variable (p : Processor) {x : Fin 16}

/-- The registers up to `x` are listed by their numbers. -/
theorem getD_low {z : Fin 16} (h : z ≤ x) : (p.low x).getD z 0 = p.v.get z := by
  have inside : (z : Nat) < (p.low x).length := by
    rw [p.length_low]
    exact Nat.lt_succ_of_le h
  rw [List.getD_eq_getElem?_getD, List.getElem?_eq_getElem inside, Option.getD_some]
  simp only [low, List.getElem_take, Vector.getElem_toList]
  rfl

/-- Registers that were written from a list are listed as they were written. -/
theorem low_setLow {values : List UInt8} (length : values.length = x + 1) :
    (p.setLow values).low x = values := by
  apply List.ext_getElem
  · rw [length_low, length]
  · intro k inside inside'
    have bound : k < x + 1 := length ▸ inside'
    let z : Fin 16 := ⟨k, by omega⟩
    have listed := (p.setLow values).getD_low (Fin.le_def.mpr (Nat.le_of_lt_succ bound) : z ≤ x)
    rw [get_setLow, List.getD_eq_getElem?_getD, List.getD_eq_getElem?_getD,
      List.getElem?_eq_getElem inside, List.getElem?_eq_getElem inside'] at listed
    exact listed

end Processor

namespace Machine

/-- The three digits of a byte are digits, and the byte is the number that they make. -/
theorem decimalDigits_spec (value : UInt8) :
    let d (k : Nat) := ((decimalDigits value).getD k 0).toNat
    (d 0 ≤ 9 ∧ d 1 ≤ 9 ∧ d 2 ≤ 9) ∧ 100 * d 0 + 10 * d 1 + d 2 = value.toNat := by
  have lt := value.toNat_lt
  have hundreds : (value / 100).toNat = value.toNat / 100 := UInt8.toNat_div value 100
  have tens : (value / 10 % 10).toNat = value.toNat / 10 % 10 := by
    rw [UInt8.toNat_mod, UInt8.toNat_div]
    rfl
  have ones : (value % 10).toNat = value.toNat % 10 := UInt8.toNat_mod value 10
  simp only [decimalDigits, List.getD_cons_zero, List.getD_cons_succ, hundreds, tens, ones]
  omega

variable (m : Machine) (op : Fetched)

/-! ## The block at the address register -/

/-- The bytes from the address register on, as many as are asked for. -/
def block (count : Nat) : List UInt8 :=
  (List.range count).map fun k => m.memory.byte (m.processor.i.toNat + k)

theorem length_block (count : Nat) : (m.block count).length = count := by
  rw [block, List.length_map, List.length_range]

theorem getD_block (count k : Nat) (default : UInt8) :
    (m.block count).getD k default =
      if k < count then m.memory.byte (m.processor.i.toNat + k) else default := by
  simp only [block, List.getD_eq_getElem?_getD, List.getElem?_map]
  split
  · next inside => rw [List.getElem?_range inside]; rfl
  · next outside =>
    rw [List.getElem?_eq_none (by rw [List.length_range]; exact Nat.le_of_not_lt outside)]
    rfl

/-- The bytes are stored from the address register on. -/
def stored (values : List UInt8) : Machine :=
  { m with memory := (m.memory.writeAll m.index values).1 }

/-- The registers up to `x` are read from the address register on. -/
def restored (x : Fin 16) : Machine :=
  { m with processor := m.processor.setLow (m.block (x + 1)) }

@[simp] theorem index_stored (values : List UInt8) : (m.stored values).index = m.index := rfl

@[simp] theorem size_stored (values : List UInt8) :
    (m.stored values).memory.size = m.memory.size := Memory.size_writeAll ..

@[simp] theorem index_restored (x : Fin 16) : (m.restored x).index = m.index := rfl

@[simp] theorem memory_restored (x : Fin 16) : (m.restored x).memory = m.memory := rfl

variable {m}

/-- A stored block is found in memory byte by byte, and the bytes around it are what they were. -/
theorem byte_stored {values : List UInt8} (above : 80 ≤ m.index)
    (inside : m.index + values.length ≤ m.memory.size) (addr : Nat) :
    (m.stored values).memory.byte addr =
      if m.index ≤ addr ∧ addr < m.index + values.length then
        values.getD (addr - m.processor.i.toNat) 0
      else m.memory.byte addr := by
  rw [index] at above inside
  rw [stored, index]
  have high : Glyph.table.length ≤ m.processor.i.toNat := by rw [Glyph.length_table]; omega
  rw [Memory.byte_writeAll m.memory high]
  by_cases within : m.processor.i.toNat ≤ addr ∧ addr < m.processor.i.toNat + values.length
  · rw [if_pos ⟨within.1, within.2, by omega⟩, if_pos (by omega)]
  · rw [if_neg (fun all => within ⟨all.1, all.2.1⟩), if_neg (by omega)]

/-- A block that lies in memory above the glyph table is stored, and nothing else happens. -/
theorem writeBlock_of_fits {values : List UInt8} (above : 80 ≤ m.index)
    (inside : m.index + values.length ≤ m.memory.size) :
    m.writeBlock values = (m.stored values).fallThrough := by
  have unrefused : (m.memory.writeAll m.index values).2 = none :=
    (m.memory.fault_writeAll_eq_none_iff m.index values).mpr (.inr ⟨above, inside⟩)
  simp only [writeBlock, unrefused, stored]

variable (m)

theorem v_restored (x z : Fin 16) :
    (m.restored x).v z =
      if z ≤ x then m.memory.byte (m.processor.i.toNat + z) else m.v z := by
  have read : (m.restored x).v z = _ :=
    (Processor.get_setLow _ _ z).trans (m.getD_block (x + 1) z _)
  by_cases least : z ≤ x
  · rw [read, if_pos (Nat.lt_succ_of_le least), if_pos least]
  · rw [read, if_neg fun lt => least (Nat.le_of_lt_succ lt), if_neg least]
    rfl

/-! ## The three instructions -/

variable {op}

theorem execute_of_store (family : op.word.family = 0xF) (low : op.word.kk = 0x55) :
    m.execute op = m.writeBlock (m.processor.low op.word.x) := by
  simp only [execute, Word.decode_eq_iff.mpr (.store family low)]

theorem execute_of_storeDigits (family : op.word.family = 0xF) (low : op.word.kk = 0x33) :
    m.execute op = m.writeBlock (decimalDigits (m.v op.word.x)) := by
  simp only [execute, Word.decode_eq_iff.mpr (.storeDigits family low)]

/-- A block that ends in memory is read, in the glyph table as well. -/
theorem execute_of_restore (family : op.word.family = 0xF) (low : op.word.kk = 0x65)
    (inside : m.index + op.word.x.val < m.memory.size) :
    m.execute op = (m.restored op.word.x).fallThrough := by
  have bounds : ∀ k < op.word.x.val + 1, m.memory.InBounds (m.index + k) := by
    intro k before
    have nonneg : 0 ≤ m.index := Int.natCast_nonneg _
    exact ⟨by omega, by omega⟩
  have read : m.memory.readBlock m.index (op.word.x.val + 1 : Nat) =
      .ok (m.block (op.word.x + 1)) := Memory.readBlock_of_inBounds bounds
  simp only [execute, Word.decode_eq_iff.mpr (.restore family low), read]
  rfl

/-! ## There and back -/

variable {m}

/-- A byte that was stored for a register is what the register is given when it is restored. -/
theorem v_restored_of_stored {n : Machine} {values : List UInt8} {y z : Fin 16}
    (above : 80 ≤ m.index) (inside : m.index + values.length ≤ m.memory.size)
    (memory : n.memory = (m.stored values).memory) (index : n.processor.i = m.processor.i)
    (least : z ≤ y) (listed : z < values.length) : (n.restored y).v z = values.getD z 0 := by
  have within : m.index ≤ (m.processor.i.toNat + z : Nat) ∧
      (m.processor.i.toNat + z : Nat) < m.index + values.length := by
    rw [Machine.index]
    omega
  rw [v_restored, if_pos least, memory, index, byte_stored above inside, if_pos within,
    Nat.add_sub_cancel_left]

/-- To store what was just read changes no byte, and nothing is stored where storing is refused. -/
theorem writeAll_block (count : Nat) :
    (m.memory.writeAll m.index (m.block count)).1 = m.memory := by
  by_cases above : Glyph.table.length ≤ m.processor.i.toNat
  · apply Memory.eq_of_byte (Memory.size_writeAll ..) (Memory.program_writeAll ..)
    intro addr
    rw [index, Memory.byte_writeAll m.memory above]
    split
    · next within =>
      have length := m.length_block count
      have place : m.processor.i.toNat + (addr - m.processor.i.toNat) = addr := by omega
      rw [getD_block, if_pos (by omega), place]
    · rfl
  · cases refusal : m.memory.writeFault? m.index with
    | none =>
      have allowed := (Memory.writeFault?_eq_none_iff.mp refusal).1
      rw [index] at allowed
      omega
    | some fault => exact Memory.writeAll_of_writeFault? _ refusal

/-- Registers go to memory and back without loss, wherever the block lies above the glyph table and
in memory. Registers that are stored are restored, as many of them as are asked for, into whatever
machine has the same memory and address register by then; storing writes no byte outside the block,
and restoring no other register. Memory that is restored from and stored to again is unchanged. And
the digits of a register, read back into the first three registers, make up the number it held. -/
theorem transfers_round_trip (m : Machine) :
    (∀ store : Fetched, store.word.family = 0xF → store.word.kk = 0x55 → 80 ≤ m.index →
        m.index + store.word.x.val < m.memory.size →
      let stored := m.execute store
      stored.result = .ok none ∧
        stored.state = { m with memory := stored.state.memory } ∧
        stored.state.memory.size = m.memory.size ∧
        (∀ addr : Nat, ¬ (m.index ≤ addr ∧ addr ≤ m.index + store.word.x.val) →
          stored.state.memory.byte addr = m.memory.byte addr) ∧
        ∀ (changed : Machine) (restore : Fetched), changed.memory = stored.state.memory →
            changed.processor.i = m.processor.i → restore.word.family = 0xF →
            restore.word.kk = 0x65 → restore.word.x ≤ store.word.x →
          let restored := changed.execute restore
          restored.result = .ok none ∧
            restored.state =
              { changed with
                processor := { changed.processor with v := restored.state.processor.v } } ∧
            (∀ z ≤ restore.word.x, restored.state.v z = m.v z) ∧
            ∀ z > restore.word.x, restored.state.v z = changed.v z) ∧
      (∀ restore store : Fetched, restore.word.family = 0xF → restore.word.kk = 0x65 →
          store.word.family = 0xF → store.word.kk = 0x55 → store.word.x = restore.word.x →
          m.index + restore.word.x.val < m.memory.size →
        let restored := m.execute restore
        let stored := restored.state.execute store
        restored.result = .ok none ∧ (80 ≤ m.index → stored.result = .ok none) ∧
          stored.state.memory = m.memory) ∧
      ∀ digits restore : Fetched, digits.word.family = 0xF → digits.word.kk = 0x33 →
          restore.word.family = 0xF → restore.word.kk = 0x65 → restore.word.x = 2 →
          80 ≤ m.index → m.index + 2 < m.memory.size →
        let written := m.execute digits
        let restored := written.state.execute restore
        let d (z : Fin 16) := (restored.state.v z).toNat
        written.result = .ok none ∧ restored.result = .ok none ∧
          (d 0 ≤ 9 ∧ d 1 ≤ 9 ∧ d 2 ≤ 9) ∧
          100 * d 0 + 10 * d 1 + d 2 = (m.v digits.word.x).toNat := by
  refine ⟨?_, ?_, ?_⟩
  -- from registers to memory and back
  · intro store family low above inside
    have length := m.processor.length_low store.word.x
    have fits : m.index + (m.processor.low store.word.x).length ≤ m.memory.size := by omega
    rw [m.execute_of_store family low, writeBlock_of_fits above fits]
    refine ⟨rfl, rfl, m.size_stored _, ?_, ?_⟩
    · intro addr outside
      exact (byte_stored above fits addr).trans (if_neg (by omega))
    · intro changed restore memory index family' low' least
      have size : changed.memory.size = m.memory.size := by
        rw [memory]
        exact m.size_stored _
      have place : changed.index = m.index := congrArg (fun i : UInt16 => (i.toNat : Int)) index
      have fewer : restore.word.x.val ≤ store.word.x.val := least
      rw [changed.execute_of_restore family' low' (by omega)]
      refine ⟨rfl, rfl, ?_, ?_⟩
      · intro z before
        have saved : z ≤ store.word.x := Fin.le_trans before least
        have listed : z < (m.processor.low store.word.x).length := by
          rw [length]
          exact Nat.lt_succ_of_le saved
        exact (v_restored_of_stored above fits memory index before listed).trans
          (m.processor.getD_low saved)
      · intro z beyond
        exact (changed.v_restored _ z).trans (if_neg (Fin.not_le.mpr beyond))
  -- from memory to registers and back
  · intro restore store family low family' low' same inside
    have length := m.length_block (restore.word.x + 1)
    have again : (m.restored restore.word.x).execute store =
        (m.restored restore.word.x).writeBlock (m.block (restore.word.x + 1)) := by
      rw [execute_of_store _ family' low', same]
      exact congrArg _ (Processor.low_setLow _ length)
    rw [m.execute_of_restore family low inside]
    dsimp only [fallThrough]
    rw [again]
    refine ⟨rfl, ?_, ?_⟩
    · intro above
      rw [writeBlock_of_fits ((m.index_restored _).symm ▸ above)]
      · rfl
      · rw [index_restored, memory_restored, length]
        omega
    · have kept : (m.memory.writeAll m.index (m.block (restore.word.x + 1))).1 = m.memory :=
        writeAll_block _
      rw [state_writeBlock]
      exact kept
  -- a byte by its digits
  · intro digits restore family low family' low' third above inside
    have fits : m.index + (decimalDigits (m.v digits.word.x)).length ≤ m.memory.size := by
      show m.index + 3 ≤ m.memory.size
      omega
    have reached : (m.stored (decimalDigits (m.v digits.word.x))).index + restore.word.x.val <
        (m.stored (decimalDigits (m.v digits.word.x))).memory.size := by
      rw [index_stored, size_stored, third]
      exact inside
    have read : ∀ z : Fin 16, z ≤ 2 →
        ((m.stored (decimalDigits (m.v digits.word.x))).restored 2).v z =
          (decimalDigits (m.v digits.word.x)).getD z 0 := by
      intro z least
      exact v_restored_of_stored above fits rfl rfl least (Nat.lt_succ_of_le least)
    rw [m.execute_of_storeDigits family low, writeBlock_of_fits above fits]
    dsimp only [fallThrough]
    rw [execute_of_restore _ family' low' reached, third]
    refine ⟨rfl, rfl, ?_⟩
    dsimp only [fallThrough]
    rw [read 0 (by decide), read 1 (by decide), read 2 (by decide)]
    exact decimalDigits_spec _

/-- At the end of memory all registers are stored, overwritten, and restored up to the fourth. At its
beginning a register is taken apart into digits, and is itself overwritten by the first of them. -/
theorem transfers_round_trip_at_edges :
    let blank : Machine := { random := .scripted [] }
    let high := ((blank.setIndex 0xFF0).set 3 9).set 15 1
    let low := (blank.setIndex 80).set 0 207
    let store : Fetched := ⟨0x200, Word.ofBytes 0xFF 0x55⟩
    let restore : Fetched := ⟨0x202, Word.ofBytes 0xF3 0x65⟩
    let digits : Fetched := ⟨0x200, Word.ofBytes 0xF0 0x33⟩
    let three : Fetched := ⟨0x202, Word.ofBytes 0xF2 0x65⟩
    let stored := (high.execute store).state
    let changed : Machine :=
      { stored with processor := { stored.processor with v := Vector.replicate 16 0xAA } }
    let restored := (changed.execute restore).state
    let taken := ((low.execute digits).state.execute three).state
    (restored.v 3 = 9 ∧ restored.v 15 = 0xAA) ∧
      (taken.v 0).toNat = 2 ∧ (taken.v 1).toNat = 0 ∧ (taken.v 2).toNat = 7 := by
  intro blank high low store restore digits three stored changed restored taken
  obtain ⟨-, frame, -, -, back⟩ :=
    (transfers_round_trip high).1 store (by decide) (by decide) (by decide) (by decide)
  have index : changed.processor.i = high.processor.i := by
    show stored.processor.i = _
    rw [show stored = _ from frame]
  obtain ⟨-, -, within, beyond⟩ := back changed restore rfl index (by decide) (by decide) (by decide)
  obtain ⟨-, -, ⟨small, small', small''⟩, sum⟩ :=
    (transfers_round_trip low).2.2 digits three (by decide) (by decide) (by decide) (by decide)
      (by decide) (by decide) (by decide)
  have held : (low.v digits.word.x).toNat = 207 := by decide +kernel
  rw [held] at sum
  refine ⟨⟨?_, ?_⟩, ?_⟩
  · exact (within 3 (by decide)).trans (by decide +kernel)
  · exact (beyond 15 (by decide)).trans (by decide +kernel)
  · have only {a b c : Nat} (ha : a ≤ 9) (hb : b ≤ 9) (hc : c ≤ 9) (h : 100 * a + 10 * b + c = 207) :
        a = 2 ∧ b = 0 ∧ c = 7 := by omega
    exact only small small' small'' sum

end Machine

end ChipEight
