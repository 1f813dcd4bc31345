import ChipEight.Event
import ChipEight.Proofs.MemoryContents

/-!
# Memory and its history

What a memory holds can be told from the calls it has had. Above the glyph table a byte is what
was written to it last, or what the program loaded last put there, or zero; loading a program and
loading it again both forget what was written before. Calls that are refused do not count, and
`Memory.Accountable` says which ones are: for a memory of any size, however short, and for
integers of any size and sign.
-/

namespace ChipEight.Memory

/-! ## Calls -/

/-- A call of a memory. -/
inductive Call where
  | load (program : List UInt8)
  | reload
  | read (addr : Int)
  | readBlock (addr count : Int)
  /-- Stores the low byte of a value. -/
  | write (addr value : Int)
  | fetch (pc : Int)

/-- What a call answers unless it is refused. -/
inductive Reply where
  | done
  | byte (value : UInt8)
  | block (values : List UInt8)
  | word (word : Word)

/-- Takes over the memory that a call gives, if it gives one. -/
def adopt (m : Memory) : Except Fault Memory → Effect Memory (Except Fault Reply)
  | .ok next => { state := next, result := .ok .done }
  | .error fault => { state := m, result := .error fault }

def call (m : Memory) : Call → Effect Memory (Except Fault Reply)
  | .load program => m.adopt (m.load program)
  | .reload => m.adopt m.reload
  | .read addr => { state := m, result := (m.read addr).map .byte }
  | .readBlock addr count => { state := m, result := (m.readBlock addr count).map .block }
  | .write addr value => m.adopt (m.write addr (UInt8.ofInt value))
  | .fetch pc => { state := m, result := (m.fetch pc).map .word }

/-- The call is not refused. -/
def Allows (m : Memory) (c : Call) : Prop := ∃ reply, (m.call c).result = .ok reply

/-- Calls with what they were answered, the latest first. -/
abbrev Past := List (Call × Except Fault Reply)

/-- A memory with the calls it has had. -/
structure Recorded where
  memory : Memory
  past : Past := []

def Recorded.call (r : Recorded) (c : Call) : Recorded where
  memory := (r.memory.call c).state
  past := (c, (r.memory.call c).result) :: r.past

/-- A new memory after a list of calls. -/
def recorded (size : Nat) (calls : List Call) : Recorded :=
  calls.foldl Recorded.call { memory := blank size }

/-! ## What the calls tell -/

namespace Past

/-- The value written to an address last, unless the image was replaced since. -/
def lastWritten? (addr : Nat) : Past → Option Int
  | [] => none
  | (.write place value, .ok _) :: past =>
    if place = addr then some value else lastWritten? addr past
  | (.load _, .ok _) :: _ => none
  | (.reload, .ok _) :: _ => none
  | _ :: past => lastWritten? addr past

/-- The program loaded last; no program is as good as one without bytes. -/
def lastLoaded : Past → List UInt8
  | [] => []
  | (.load program, .ok _) :: _ => program
  | _ :: past => lastLoaded past

/-- The number that the calls tell of the byte at an address. -/
def byte (past : Past) (addr : Nat) : Nat :=
  if addr < Glyph.table.length then (Glyph.table.getD addr 0).toNat
  else match past.lastWritten? addr with
    | some value => (value % 256).toNat
    | none => if addr < base then 0 else (past.lastLoaded.getD (addr - base) 0).toNat

end Past

variable {m next : Memory}

theorem allows_adopt {c : Call} {made : Except Fault Memory} (h : m.call c = m.adopt made) :
    m.Allows c ↔ ∃ next, made = .ok next := by
  rw [Allows, h]
  cases made <;> simp [adopt]

@[simp] theorem toNat_ofInt (value : Int) : (UInt8.ofInt value).toNat = (value % 256).toNat := by
  have lt : (value % 256).toNat < UInt8.size := by simp only [UInt8.size]; omega
  exact UInt8.toNat_ofNat_of_lt' lt

theorem byte_blank (size addr : Nat) : (blank size).byte addr = Glyph.table.getD addr 0 := by
  simp only [byte, blank, Array.getD_eq_getD_getElem?, List.getElem?_toArray,
    List.getD_eq_getElem?_getD, List.getElem?_append]
  split
  · rfl
  · next beyond =>
    rw [List.getElem?_replicate, List.getElem?_eq_none (Nat.le_of_not_lt beyond)]
    split <;> rfl

/-- Below the program an image holds the glyph table and zeros, and behind it zeros again. -/
theorem byte_load {program : List UInt8} (h : m.load program = .ok next) (addr : Nat) :
    next.byte addr =
      if addr < Glyph.table.length then Glyph.table.getD addr 0
      else if addr < base then 0 else program.getD (addr - base) 0 := by
  obtain ⟨-, -, -, bytes⟩ := load_eq_ok_iff.mp h
  have below : 80 + (0x200 - 80) = 0x200 := rfl
  simp only [byte, bytes, image, base, Glyph.length_table, below, Array.getD_eq_getD_getElem?,
    List.getElem?_toArray, List.getD_eq_getElem?_getD, List.getElem?_append,
    List.getElem?_replicate, List.length_append, List.length_replicate]
  by_cases low : addr < 0x200
  · rw [if_pos (by omega), if_pos low, if_pos low]
    split
    · rfl
    · rw [if_pos (by omega)]
      rfl
  · have beyond : ¬ addr < 80 := by omega
    rw [if_neg low, if_neg beyond, if_neg low]
    by_cases inside : addr < 0x200 + program.length
    · rw [if_pos inside]
    · rw [if_neg inside, List.getElem?_eq_none (by omega)]
      split <;> rfl

/-! ## What is refused -/

theorem allows_load_iff {program : List UInt8} :
    m.Allows (.load program) ↔ (program.length : Int) ≤ m.room := by
  rw [allows_adopt rfl]
  constructor
  · rintro ⟨next, loaded⟩
    exact (load_eq_ok_iff.mp loaded).1
  · exact load_eq_ok

theorem allows_write_iff {addr value : Int} :
    m.Allows (.write addr value) ↔ Glyph.table.length ≤ addr ∧ addr < m.size := by
  rw [allows_adopt rfl, ← writeFault?_eq_none_iff, write]
  cases m.writeFault? addr <;> simp

theorem accessFault?_eq_none_iff {addr : Int} : m.accessFault? addr = none ↔ m.InBounds addr := by
  simp only [accessFault?, ite_eq_left_iff, reduceCtorEq, imp_false, Decidable.not_not]

theorem read_of_inBounds {addr : Int} (inside : m.InBounds addr) :
    m.read addr = .ok (m.byte addr.toNat) := by
  rw [read, accessFault?, if_pos inside]

theorem allows_read_iff {addr : Int} : m.Allows (.read addr) ↔ m.InBounds addr := by
  constructor
  · rintro ⟨reply, answered⟩
    apply Decidable.byContradiction
    intro outside
    simp only [call, read, accessFault?, if_neg outside] at answered
    cases answered
  · intro inside
    exact ⟨.byte (m.byte addr.toNat), by rw [call, read_of_inBounds inside]; rfl⟩

theorem allows_fetch_iff {pc : Int} : m.Allows (.fetch pc) ↔ base ≤ pc ∧ pc + 1 < m.size := by
  constructor
  · rintro ⟨reply, answered⟩
    apply Decidable.byContradiction
    intro outside
    have refused : pc < base ∨ m.size ≤ pc + 1 := by omega
    simp only [call, fetch, if_pos refused] at answered
    cases answered
  · rintro ⟨above, below⟩
    have allowed : ¬ (pc < base ∨ m.size ≤ pc + 1) := by omega
    exact ⟨_, by rw [call, fetch, if_neg allowed]; rfl⟩

/-- A memory without a program, or with one that has room, places it again unless it ends below
`base`. -/
theorem allows_reload_iff (fits : m.program = [] ∨ (m.program.length : Int) ≤ m.room) :
    m.Allows .reload ↔ base ≤ m.size := by
  have refilled : m.Allows .reload ↔ m.Allows (.load m.program) := Iff.rfl
  rw [refilled, allows_load_iff]
  rcases fits with empty | fits
  · rw [empty, List.length_nil, room]
    omega
  · rw [room] at *
    omega

/-- A call that is refused leaves the memory as it is. -/
theorem state_of_refused {c : Call} {fault : Fault} (h : (m.call c).result = .error fault) :
    (m.call c).state = m := by
  have kept {made : Except Fault Memory} (refused : (m.adopt made).result = .error fault) :
      (m.adopt made).state = m := by
    cases made
    · rfl
    · cases refused
  cases c with
  | load program => exact kept h
  | reload => exact kept h
  | write addr value => exact kept h
  | read | readBlock | fetch => rfl

/-! ## Blocks and words -/

theorem inBounds_ends_iff {addr : Int} {count : Nat} (nonempty : count ≠ 0) :
    m.InBounds addr ∧ m.InBounds (addr + count - 1) ↔ ∀ k < count, m.InBounds (addr + k) := by
  constructor
  · rintro ⟨⟨nonneg, -⟩, -, lt⟩ k before
    exact ⟨by omega, by omega⟩
  · intro inside
    have first := inside 0 (by omega)
    have last := inside (count - 1) (by omega)
    simp only [InBounds] at *
    omega

/-- A block is read if each of its bytes is, and it is made of them. -/
theorem readBlock_of_inBounds {addr : Int} {count : Nat}
    (inside : ∀ k < count, m.InBounds (addr + k)) :
    m.readBlock addr count =
      .ok ((List.range count).map fun k : Nat => m.byte (addr + k).toNat) := by
  rw [readBlock]
  split
  · next empty =>
    obtain rfl : count = 0 := by omega
    rfl
  · next full =>
    obtain ⟨first, last⟩ := (inBounds_ends_iff (by omega)).mpr inside
    have nonneg : 0 ≤ addr := first.1
    have stored := toNat_lt_size_bytes last
    simp only [accessFault?, if_pos first, if_pos last]
    congr 1
    apply List.ext_getElem
    · simp only [Array.length_toList, Array.size_extract, List.length_map, List.length_range]
      omega
    · intro k _ before
      rw [List.length_map, List.length_range] at before
      have place : (addr + k).toNat = addr.toNat + k := by omega
      rw [Array.getElem_toList, Array.getElem_extract, List.getElem_map, List.getElem_range, place,
        byte, Array.getD_eq_getD_getElem?, Array.getElem?_eq_getElem (by omega), Option.getD_some]

/-- A block is refused exactly where one of its bytes is. -/
theorem allows_readBlock_iff {addr : Int} {count : Nat} :
    m.Allows (.readBlock addr count) ↔ ∀ k < count, m.Allows (.read (addr + k)) := by
  simp only [allows_read_iff]
  constructor
  · rintro ⟨reply, answered⟩ k before
    have full : (count : Int) ≠ 0 := by omega
    simp only [call, readBlock, if_neg full] at answered
    split at answered
    · cases answered
    · cases answered
    · next first last =>
      apply (inBounds_ends_iff (by omega)).mp _ k before
      exact ⟨accessFault?_eq_none_iff.mp first, accessFault?_eq_none_iff.mp last⟩
  · intro inside
    exact ⟨_, by rw [call, readBlock_of_inBounds inside]; rfl⟩

/-- A block that is read holds what single reads find, in order. -/
theorem reads_of_readBlock {addr : Int} {count : Nat} (allowed : m.Allows (.readBlock addr count)) :
    ∃ values, (m.call (.readBlock addr count)).result = .ok (.block values) ∧
      (List.range count).map (fun k : Nat => (m.call (.read (addr + k))).result) =
        values.map fun value => .ok (.byte value) := by
  have inside := allows_readBlock_iff.mp allowed
  simp only [allows_read_iff] at inside
  refine ⟨_, by rw [call, readBlock_of_inBounds inside]; rfl, ?_⟩
  rw [List.map_map]
  apply List.map_congr_left
  intro k before
  rw [call, read_of_inBounds (inside k (List.mem_range.mp before))]
  rfl

/-- A word is made of two bytes, the high one first. -/
theorem reads_of_fetch {pc : Int} (allowed : m.Allows (.fetch pc)) :
    ∃ word high low, (m.call (.fetch pc)).result = .ok (.word word) ∧
      (m.call (.read pc)).result = .ok (.byte high) ∧
      (m.call (.read (pc + 1))).result = .ok (.byte low) ∧
      word.toNat = 256 * high.toNat + low.toNat := by
  obtain ⟨above, below⟩ := allows_fetch_iff.mp allowed
  have nonneg : 0 ≤ pc := Int.le_trans (by decide) above
  have first : m.InBounds pc := ⟨nonneg, by omega⟩
  have second : m.InBounds (pc + 1) := ⟨by omega, below⟩
  have place : (pc + 1).toNat = pc.toNat + 1 := by omega
  have open_ : ¬ (pc < base ∨ m.size ≤ pc + 1) := by omega
  refine ⟨_, m.byte pc.toNat, m.byte (pc.toNat + 1), ?_, ?_, ?_, Word.toNat_ofBytes _ _⟩
  · rw [call, fetch, if_neg open_]
    rfl
  · rw [call, read_of_inBounds first]
    rfl
  · rw [call, read_of_inBounds second, place]
    rfl

/-! ## The history -/

namespace Past

/-- A refused call tells nothing of the bytes. -/
@[simp] theorem byte_refused (c : Call) (fault : Fault) (past : Past) (addr : Nat) :
    byte ((c, .error fault) :: past) addr = past.byte addr := by
  cases c <;> rfl

@[simp] theorem lastLoaded_refused (c : Call) (fault : Fault) (past : Past) :
    lastLoaded ((c, .error fault) :: past) = past.lastLoaded := by
  cases c <;> rfl

end Past

/-- The history of a memory of some size tells what it holds and what it would place again. -/
structure Explained (size : Nat) (r : Recorded) : Prop where
  size_eq : r.memory.size = size
  program_eq : r.memory.program = r.past.lastLoaded
  fits : r.memory.program = [] ∨ (r.memory.program.length : Int) ≤ r.memory.room
  byte_eq (addr : Nat) : (r.memory.byte addr).toNat = r.past.byte addr

theorem explained_blank (size : Nat) : Explained size { memory := blank size } where
  size_eq := rfl
  program_eq := rfl
  fits := .inl rfl
  byte_eq addr := by
    simp only [byte_blank, Past.byte, Past.lastWritten?, Past.lastLoaded]
    split
    · rfl
    · next above =>
      rw [List.getD_eq_getElem?_getD, List.getElem?_eq_none (Nat.le_of_not_lt above)]
      split <;> rfl

/-- A program that is placed explains every byte by itself. -/
theorem explained_placed {size : Nat} {program : List UInt8} {past : Past} (same : m.size = size)
    (placed : m.load program = .ok next) (fresh : ∀ addr, past.lastWritten? addr = none)
    (last : past.lastLoaded = program) : Explained size { memory := next, past } := by
  obtain ⟨room, size_eq, kept, -⟩ := load_eq_ok_iff.mp placed
  constructor
  · exact size_eq.trans same
  · exact kept.trans last.symm
  · right
    rw [Memory.room, kept, size_eq]
    exact room
  · intro addr
    simp only [byte_load placed, Past.byte, fresh, last]
    split
    · rfl
    · split <;> rfl

namespace Explained

variable {size : Nat} {r : Recorded}

/-- Calls that leave the memory as it is and are no news leave it explained. -/
theorem of_kept (h : Explained size r) {past : Past} (bytes : past.byte = r.past.byte)
    (last : past.lastLoaded = r.past.lastLoaded) : Explained size { memory := r.memory, past } where
  size_eq := h.size_eq
  program_eq := h.program_eq.trans last.symm
  fits := h.fits
  byte_eq addr := by rw [bytes]; exact h.byte_eq addr

theorem refused (h : Explained size r) {c : Call} {fault : Fault}
    (answer : (r.memory.call c).result = .error fault) : Explained size (r.call c) := by
  rw [Recorded.call, state_of_refused answer, answer]
  exact h.of_kept (funext fun addr => Past.byte_refused c fault _ addr)
    (Past.lastLoaded_refused c fault _)

theorem written (h : Explained size r) {addr value : Int}
    (allowed : r.memory.writeFault? addr = none) : Explained size (r.call (.write addr value)) := by
  obtain ⟨above, below⟩ := writeFault?_eq_none_iff.mp allowed
  have stored : addr.toNat < r.memory.bytes.size := by
    rw [size_bytes]
    omega
  have done : r.call (.write addr value) =
      { memory := r.memory.put addr.toNat (UInt8.ofInt value)
        past := (.write addr value, .ok .done) :: r.past } := by
    simp only [Recorded.call, Memory.call, write, allowed, adopt]
  rw [done]
  constructor
  · exact h.size_eq
  · exact h.program_eq
  · exact h.fits
  · intro other
    rw [byte_put _ stored]
    by_cases here : addr = other
    · have high : ¬ other < Glyph.table.length := by omega
      rw [if_pos (by omega), toNat_ofInt, Past.byte, if_neg high, Past.lastWritten?, if_pos here]
    · have kept : Past.lastWritten? other ((.write addr value, .ok .done) :: r.past) =
          Past.lastWritten? other r.past := if_neg here
      rw [if_neg (by omega), h.byte_eq, Past.byte, Past.byte, kept]
      rfl

/-- Every call leaves a memory explained. -/
theorem call (h : Explained size r) (c : Call) : Explained size (r.call c) := by
  cases answer : (r.memory.call c).result with
  | error fault => exact h.refused answer
  | ok reply =>
    have allowed : r.memory.Allows c := ⟨reply, answer⟩
    cases c with
    | read | readBlock | fetch => exact h.of_kept rfl rfl
    | write addr value =>
      exact h.written (writeFault?_eq_none_iff.mpr (allows_write_iff.mp allowed))
    | load program =>
      obtain ⟨next, loaded⟩ := (allows_adopt rfl).mp allowed
      simp only [Recorded.call, Memory.call, loaded, adopt]
      exact explained_placed h.size_eq loaded (fun _ => rfl) rfl
    | reload =>
      obtain ⟨next, loaded⟩ := (allows_adopt rfl).mp allowed
      simp only [Recorded.call, Memory.call, loaded, adopt]
      exact explained_placed h.size_eq loaded (fun _ => rfl) h.program_eq.symm

end Explained

theorem explained_recorded (size : Nat) (calls : List Call) :
    Explained size (recorded size calls) := by
  have run (r : Recorded) (h : Explained size r) :
      Explained size (calls.foldl Recorded.call r) := by
    induction calls generalizing r with
    | nil => exact h
    | cons c rest ih => exact ih (r.call c) (h.call c)
  exact run _ (explained_blank size)

/-- What a memory of some size owes to its history: the bytes it holds, that a refused call
changes nothing, which calls are allowed, and what the reading ones find. -/
structure Accountable (size : Nat) (r : Recorded) : Prop where
  storage : r.memory.bytes.size = max size Glyph.table.length
  holds (addr : Nat) : (r.memory.byte addr).toNat = r.past.byte addr
  refused {c : Call} {fault : Fault} :
    (r.memory.call c).result = .error fault → (r.memory.call c).state = r.memory
  load (program : List UInt8) :
    r.memory.Allows (.load program) ↔ (program.length : Int) ≤ (size : Int) - base
  reload : r.memory.Allows .reload ↔ base ≤ size
  write (addr value : Int) :
    r.memory.Allows (.write addr value) ↔ Glyph.table.length ≤ addr ∧ addr < size
  read (addr : Int) : r.memory.Allows (.read addr) ↔ 0 ≤ addr ∧ addr < size
  found {addr : Int} : r.memory.Allows (.read addr) →
    ∃ value, (r.memory.call (.read addr)).result = .ok (.byte value) ∧
      value.toNat = r.past.byte addr.toNat
  readBlock (addr : Int) (count : Nat) :
    r.memory.Allows (.readBlock addr count) ↔ ∀ k < count, r.memory.Allows (.read (addr + k))
  foundBlock {addr : Int} {count : Nat} : r.memory.Allows (.readBlock addr count) →
    ∃ values, (r.memory.call (.readBlock addr count)).result = .ok (.block values) ∧
      (List.range count).map (fun k : Nat => (r.memory.call (.read (addr + k))).result) =
        values.map fun value => .ok (.byte value)
  fetch (pc : Int) : r.memory.Allows (.fetch pc) ↔ base ≤ pc ∧ pc + 1 < size
  foundWord {pc : Int} : r.memory.Allows (.fetch pc) →
    ∃ word high low, (r.memory.call (.fetch pc)).result = .ok (.word word) ∧
      (r.memory.call (.read pc)).result = .ok (.byte high) ∧
      (r.memory.call (.read (pc + 1))).result = .ok (.byte low) ∧
      word.toNat = 256 * high.toNat + low.toNat

/-- Whatever a new memory is asked to do, it stays accountable to its history. -/
theorem accountable_recorded (size : Nat) (calls : List Call) :
    Accountable size (recorded size calls) := by
  have explained := explained_recorded size calls
  have same := explained.size_eq
  constructor
  case storage => rw [size_bytes, same]
  case holds => exact explained.byte_eq
  case refused => exact state_of_refused
  case load =>
    intro program
    rw [allows_load_iff, room, same]
  case reload => rw [allows_reload_iff explained.fits, same]
  case write =>
    intro addr value
    rw [allows_write_iff, same]
  case read =>
    intro addr
    rw [allows_read_iff, InBounds, same]
  case found =>
    intro addr allowed
    have inside := allows_read_iff.mp allowed
    refine ⟨_, ?_, explained.byte_eq addr.toNat⟩
    rw [call, read_of_inBounds inside]
    rfl
  case readBlock => exact fun _ _ => allows_readBlock_iff
  case foundBlock => exact reads_of_readBlock
  case fetch =>
    intro pc
    rw [allows_fetch_iff, same]
  case foundWord => exact reads_of_fetch

end ChipEight.Memory
