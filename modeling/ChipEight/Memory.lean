import ChipEight.Fault
import ChipEight.Glyph
import ChipEight.Index

/-!
# Memory

Memory is a row of bytes behind two guards. Every access is checked against the size of the
memory, and writes are refused in the glyph table at the bottom as well. The storage is
never shorter than the glyph table, even where a smaller size makes part of it unreachable.

A program is placed at `Memory.base`. Loading builds a whole new image from the program, so
nothing an earlier program wrote survives it, and the program is kept beside the image: it
can be placed again after the image has been overwritten.

Addresses are integers. An instruction adds to an address without wrapping it, and the
guard then refuses what lies outside.
-/

namespace ChipEight

/-- Bytes behind a bounds check and a read-only glyph table. -/
structure Memory where
  /-- The number of addresses that may be accessed. -/
  size : Nat
  bytes : Array UInt8
  /-- The program loaded last. -/
  program : List UInt8 := []
  /-- The storage holds every address and all of the glyph table. -/
  size_bytes : bytes.size = max size Glyph.table.length

namespace Memory

/-- The address at which programs are placed. -/
def base : Nat := 0x200

/-- The size of the memory of the machine. -/
def fullSize : Nat := 0x1000

/-- Memory of the given size that holds the glyph table and otherwise zeros. -/
def blank (size : Nat) : Memory where
  size := size
  bytes := (Glyph.table ++ List.replicate (size - Glyph.table.length) 0).toArray
  size_bytes := by
    simp only [List.size_toArray, List.length_append, List.length_replicate,
      Glyph.length_table]
    omega

/-- Why there is no memory of some size. -/
inductive SizeRefusal where
  /-- The size does not fit in sixty-four bits. -/
  | tooWide
  /-- A size is a count, and a count is not negative. -/
  | negative
  /-- No host has that much storage. -/
  | tooLarge
deriving DecidableEq, Repr

/-- The least size that is refused as too large. -/
def sizeLimit : Nat := 0x10000000000

/-- Memory of a size given as an integer. -/
def ofSize (size : Int) : Except SizeRefusal Memory :=
  if !Index.fits size then .error .tooWide
  else if size < 0 then .error .negative
  else if sizeLimit ≤ size then .error .tooLarge
  else .ok (blank size.toNat)

/-- The room for a program. It is negative for a memory that ends below `base`. -/
def room (m : Memory) : Int := m.size - base

/-- The glyph table, zeros up to `base`, the program, and zeros up to `size`. -/
def image (size : Nat) (program : List UInt8) : List UInt8 :=
  Glyph.table ++ List.replicate (base - Glyph.table.length) 0 ++ program ++
    List.replicate (size - base - program.length) 0

theorem length_image {size : Nat} {program : List UInt8} (h : base + program.length ≤ size) :
    (image size program).length = max size Glyph.table.length := by
  simp only [image, List.length_append, List.length_replicate, Glyph.length_table, base] at *
  omega

/-- Replaces the storage by the image of a program, if the program has room. -/
def load (m : Memory) (program : List UInt8) : Except Fault Memory :=
  if h : (program.length : Int) ≤ m.room then
    .ok { size := m.size
          bytes := (image m.size program).toArray
          program := program
          size_bytes := by
            rw [List.size_toArray]
            exact length_image (by simp only [room] at h; omega) }
  else
    .error ⟨.programTooLarge program.length m.room, base, none⟩

/-- Places the program loaded last once more. -/
def reload (m : Memory) : Except Fault Memory := m.load m.program

/-- The byte stored at an index, zero beyond the storage. -/
def byte (m : Memory) (index : Nat) : UInt8 := m.bytes.getD index 0

/-- The address may be accessed. -/
def InBounds (m : Memory) (addr : Int) : Prop := 0 ≤ addr ∧ addr < m.size

instance (m : Memory) (addr : Int) : Decidable (m.InBounds addr) :=
  inferInstanceAs (Decidable (0 ≤ addr ∧ addr < m.size))

/-- The fault of an access outside the memory, if the address is outside. -/
def accessFault? (m : Memory) (addr : Int) : Option Fault :=
  if m.InBounds addr then none else some ⟨.addressOutOfRange addr, addr, none⟩

/-- The fault of a write that memory refuses. -/
def writeFault? (m : Memory) (addr : Int) : Option Fault :=
  if m.InBounds addr then
    if addr < Glyph.table.length then some ⟨.glyphTableWrite addr, addr, none⟩ else none
  else some ⟨.addressOutOfRange addr, addr, none⟩

/-- The byte at an address. -/
def read (m : Memory) (addr : Int) : Except Fault UInt8 :=
  match m.accessFault? addr with
  | some fault => .error fault
  | none => .ok (m.byte addr.toNat)

/-- The bytes from an address on. Both ends of the block are checked, the first one first;
a block of no bytes is not checked, and one of negative length is empty once both of its
ends have been. -/
def readBlock (m : Memory) (addr count : Int) : Except Fault (List UInt8) :=
  if count = 0 then .ok []
  else
    match m.accessFault? addr, m.accessFault? (addr + count - 1) with
    | some fault, _ => .error fault
    | none, some fault => .error fault
    | none, none => .ok (m.bytes.extract addr.toNat (addr.toNat + count.toNat)).toList

/-- Stores a byte without asking the guards. -/
def put (m : Memory) (index : Nat) (value : UInt8) : Memory where
  size := m.size
  bytes := m.bytes.setIfInBounds index value
  program := m.program
  size_bytes := by rw [Array.size_setIfInBounds, m.size_bytes]

/-- Stores a byte where writing is allowed. -/
def write (m : Memory) (addr : Int) (value : UInt8) : Except Fault Memory :=
  match m.writeFault? addr with
  | some fault => .error fault
  | none => .ok (m.put addr.toNat value)

/-- Stores bytes at successive addresses up to the first one that is refused. What was
stored before stays stored. -/
def writeAll (m : Memory) (addr : Int) : List UInt8 → Memory × Option Fault
  | [] => (m, none)
  | value :: rest =>
    match m.writeFault? addr with
    | some fault => (m, some fault)
    | none => (m.put addr.toNat value).writeAll (addr + 1) rest

/-- The instruction word at the program counter. Both of its bytes must lie in memory, and
nothing below `base` is ever executed. -/
def fetch (m : Memory) (pc : Int) : Except Fault Word :=
  if pc < base ∨ m.size ≤ pc + 1 then .error ⟨.counterOutOfRange pc, pc, none⟩
  else .ok (Word.ofBytes (m.byte pc.toNat) (m.byte (pc.toNat + 1)))

@[simp] theorem size_blank (size : Nat) : (blank size).size = size := rfl

@[simp] theorem program_blank (size : Nat) : (blank size).program = [] := rfl

/-- A program is loaded exactly if it has room; what is kept then depends on the size of the
memory and on the program alone. -/
theorem load_eq_ok_iff {m next : Memory} {program : List UInt8} :
    m.load program = .ok next ↔
      (program.length : Int) ≤ m.room ∧ next.size = m.size ∧ next.program = program ∧
        next.bytes = (image m.size program).toArray := by
  unfold load
  split
  · next h =>
    constructor
    · intro e
      cases e
      exact ⟨h, rfl, rfl, rfl⟩
    · rintro ⟨-, hs, hp, hb⟩
      cases next
      simp only at hs hp hb
      subst hs hp hb
      rfl
  · next h => simp [h]

@[simp] theorem size_put (m : Memory) (index : Nat) (value : UInt8) :
    (m.put index value).size = m.size := rfl

@[simp] theorem program_put (m : Memory) (index : Nat) (value : UInt8) :
    (m.put index value).program = m.program := rfl

theorem byte_put (m : Memory) {index : Nat} (h : index < m.bytes.size) (value : UInt8)
    (other : Nat) :
    (m.put index value).byte other = if other = index then value else m.byte other := by
  simp only [byte, put, Array.getD_eq_getD_getElem?, Array.getElem?_setIfInBounds]
  split
  · next h' => subst h'; simp
  · next h' => simp [Ne.symm h']

end Memory

end ChipEight
