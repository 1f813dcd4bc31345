import ChipEight.Index

/-!
# Instruction words

A program is read two bytes at a time. The pair, most significant byte first, is one
instruction word of four nibbles, and every operand of the instruction set is one of six
fixed fields of that word: the family (first nibble), the registers `x` and `y`, the
nibble `n`, the byte `kk` and the address `nnn`.

The fields are arithmetic in the value of the word rather than bit operations, so that a
fact about a field is a fact about division by a power of two.
-/

namespace ChipEight

/-- A sixteen-bit instruction word. -/
structure Word where
  /-- The word as a number. -/
  toNat : Nat
  /-- A word has sixteen bits. -/
  toNat_lt : toNat < 65536 := by omega
deriving DecidableEq, Repr

namespace Word

instance : Inhabited Word := ⟨{ toNat := 0 }⟩

/-- The word whose low sixteen bits are those of `n`; the bits above are dropped. -/
def ofInt (n : Int) : Word where
  toNat := (n % 65536).toNat

/-- The word that two consecutive bytes hold, most significant byte first. -/
def ofBytes (high low : UInt8) : Word where
  toNat := 256 * high.toNat + low.toNat
  toNat_lt := by
    have := high.toNat_lt
    have := low.toNat_lt
    omega

/-- The first nibble, which selects the family of the instruction. -/
def family (w : Word) : Nat := w.toNat / 4096

/-- The second nibble, the register an instruction mostly writes. -/
def x (w : Word) : Fin 16 := Fin.ofNat 16 (w.toNat / 256)

/-- The third nibble, the second register operand. -/
def y (w : Word) : Fin 16 := Fin.ofNat 16 (w.toNat / 16)

/-- The last nibble. -/
def n (w : Word) : Nat := w.toNat % 16

/-- The second byte, an immediate operand. -/
def kk (w : Word) : UInt8 := UInt8.ofNat w.toNat

/-- The last three nibbles, an address. -/
def nnn (w : Word) : Nat := w.toNat % 4096

theorem family_lt (w : Word) : w.family < 16 := by
  have := w.toNat_lt
  simp only [family]
  omega

theorem n_lt (w : Word) : w.n < 16 := Nat.mod_lt _ (by decide)

theorem nnn_lt (w : Word) : w.nnn < 4096 := Nat.mod_lt _ (by decide)

@[simp] theorem val_x (w : Word) : w.x.val = w.toNat / 256 % 16 := rfl

@[simp] theorem val_y (w : Word) : w.y.val = w.toNat / 16 % 16 := rfl

@[simp] theorem toNat_kk (w : Word) : w.kk.toNat = w.toNat % 256 := by
  simp [kk]

@[simp] theorem toNat_ofBytes (high low : UInt8) :
    (ofBytes high low).toNat = 256 * high.toNat + low.toNat := rfl

end Word

/-- An instruction word together with the address it was read from. -/
structure Fetched where
  /-- The address of the first of the two bytes. -/
  addr : Int
  /-- The word found there. -/
  word : Word
deriving DecidableEq, Repr

end ChipEight
