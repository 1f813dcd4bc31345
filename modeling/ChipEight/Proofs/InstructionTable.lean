import ChipEight.Instruction

/-!
# The instruction table

`Word.decode` finds its way through a word in three levels: the family, then a nibble or a
byte, and in family 0 two nibbles before the byte. The table below has one line for each
instruction and says with a single condition on the fields of the word when it applies.
`Word.decode_eq_iff` states that the two agree, so that a statement about an instruction
can be turned into one about the words that stand for it, and back.
-/

namespace ChipEight.Word

/-- The bytes that tell instructions of family 0 apart, among words that start with two zero
nibbles. -/
def systemBytes : List UInt8 := [0xE0, 0xEE, 0xFB, 0xFC, 0xFE, 0xFF]

/-- The bytes that tell instructions of family E apart. -/
def keyBytes : List UInt8 := [0x9E, 0xA1]

/-- The bytes that tell instructions of family F apart. -/
def miscBytes : List UInt8 := [0x07, 0x0A, 0x15, 0x18, 0x1E, 0x29, 0x30, 0x33, 0x55, 0x65]

/-- The instruction table: what each word stands for. -/
inductive Denotes (w : Word) : Instruction → Prop
  | clear (h : w.toNat = 0x00E0) : Denotes w .clear
  | ret (h : w.toNat = 0x00EE) : Denotes w .ret
  | small (h : w.toNat = 0x00FE) : Denotes w (.selectMode .small)
  | big (h : w.toNat = 0x00FF) : Denotes w (.selectMode .big)
  | jump (h : w.family = 0x1) : Denotes w (.jump w.nnn)
  | call (h : w.family = 0x2) : Denotes w (.call w.nnn)
  | skipIfByte (h : w.family = 0x3) : Denotes w (.skipIf (.isByte w.x w.kk))
  | skipIfNotByte (h : w.family = 0x4) : Denotes w (.skipIf (.isNotByte w.x w.kk))
  | skipIfEqual (h : w.family = 0x5) (last : w.n = 0) : Denotes w (.skipIf (.isEqual w.x w.y))
  | set (h : w.family = 0x6) : Denotes w (.set w.x w.kk)
  | addByte (h : w.family = 0x7) : Denotes w (.addByte w.x w.kk)
  | combine {operation : Operation} (h : w.family = 0x8) (last : w.operation? = some operation) :
      Denotes w (.combine operation w.x w.y)
  | skipIfNotEqual (h : w.family = 0x9) (last : w.n = 0) :
      Denotes w (.skipIf (.isNotEqual w.x w.y))
  | setIndex (h : w.family = 0xA) : Denotes w (.setIndex w.nnn)
  | random (h : w.family = 0xC) : Denotes w (.random w.x w.kk)
  | draw (h : w.family = 0xD) : Denotes w (.draw w.x w.y w.n)
  | skipIfHeld (h : w.family = 0xE) (low : w.kk = 0x9E) : Denotes w (.skipIf (.keyHeld w.x))
  | skipIfReleased (h : w.family = 0xE) (low : w.kk = 0xA1) :
      Denotes w (.skipIf (.keyReleased w.x))
  | readDelay (h : w.family = 0xF) (low : w.kk = 0x07) : Denotes w (.readDelay w.x)
  | awaitKey (h : w.family = 0xF) (low : w.kk = 0x0A) : Denotes w (.awaitKey w.x)
  | setDelay (h : w.family = 0xF) (low : w.kk = 0x15) : Denotes w (.setDelay w.x)
  | setSound (h : w.family = 0xF) (low : w.kk = 0x18) : Denotes w (.setSound w.x)
  | addIndex (h : w.family = 0xF) (low : w.kk = 0x1E) : Denotes w (.addIndex w.x)
  | pointGlyph (h : w.family = 0xF) (low : w.kk = 0x29 ∨ w.kk = 0x30) :
      Denotes w (.pointGlyph w.x)
  | storeDigits (h : w.family = 0xF) (low : w.kk = 0x33) : Denotes w (.storeDigits w.x)
  | store (h : w.family = 0xF) (low : w.kk = 0x55) : Denotes w (.store w.x)
  | restore (h : w.family = 0xF) (low : w.kk = 0x65) : Denotes w (.restore w.x)
  | scrollDown (h : w.family = 0x0) (x : w.x = 0) (y : w.y = 0xC) :
      Denotes w (.skipWord .unsupported)
  | scrollAcross (h : w.toNat = 0x00FB ∨ w.toNat = 0x00FC) : Denotes w (.skipWord .unsupported)
  | noSystem (h : w.family = 0x0) (low : w.x ≠ 0 ∨ w.y ≠ 0xC ∧ w.kk ∉ systemBytes) :
      Denotes w (.skipWord .unknown)
  | noTest (h : w.family = 0x5 ∨ w.family = 0x9) (last : w.n ≠ 0) :
      Denotes w (.skipWord .unknown)
  | noOperation (h : w.family = 0x8) (last : w.operation? = none) :
      Denotes w (.skipWord .unknown)
  | noFamily (h : w.family = 0xB) : Denotes w (.skipWord .unknown)
  | noKeyTest (h : w.family = 0xE) (low : w.kk ∉ keyBytes) : Denotes w (.skipWord .unknown)
  | noMisc (h : w.family = 0xF) (low : w.kk ∉ miscBytes) : Denotes w (.skipWord .unknown)

/-- The words of family 0 whose second nibble is zero are told apart by their low byte. -/
theorem toNat_eq_of_kk {w : Word} {low : UInt8} (family : w.family = 0) (x : w.x = 0)
    (h : w.kk = low) : w.toNat = low.toNat := by
  have size := w.toNat_lt
  have second : w.x.val = 0 := congrArg Fin.val x
  have byte : w.kk.toNat = low.toNat := congrArg UInt8.toNat h
  simp only [Word.family, val_x, toNat_kk] at family second byte
  omega

theorem denotes_decodeSystem {w : Word} (family : w.family = 0) : w.Denotes w.decodeSystem := by
  unfold decodeSystem
  split
  · next x => exact .noSystem family (.inl x)
  · next x =>
    have x : w.x = 0 := Decidable.not_not.mp x
    split
    · next y => exact .scrollDown family x y
    · next y =>
      split
      · next low => exact .clear (toNat_eq_of_kk family x low)
      · next low => exact .ret (toNat_eq_of_kk family x low)
      · next low => exact .scrollAcross (.inl (toNat_eq_of_kk family x low))
      · next low => exact .scrollAcross (.inr (toNat_eq_of_kk family x low))
      · next low => exact .small (toNat_eq_of_kk family x low)
      · next low => exact .big (toNat_eq_of_kk family x low)
      · exact .noSystem family (.inr ⟨y, by simp_all [systemBytes]⟩)

theorem denotes_decodeKeys {w : Word} (family : w.family = 0xE) : w.Denotes w.decodeKeys := by
  unfold decodeKeys
  split
  · next low => exact .skipIfHeld family low
  · next low => exact .skipIfReleased family low
  · exact .noKeyTest family (by simp_all [keyBytes])

theorem denotes_decodeMisc {w : Word} (family : w.family = 0xF) : w.Denotes w.decodeMisc := by
  unfold decodeMisc
  split
  · next low => exact .readDelay family low
  · next low => exact .awaitKey family low
  · next low => exact .setDelay family low
  · next low => exact .setSound family low
  · next low => exact .addIndex family low
  · next low => exact .pointGlyph family (.inl low)
  · next low => exact .pointGlyph family (.inr low)
  · next low => exact .storeDigits family low
  · next low => exact .store family low
  · next low => exact .restore family low
  · exact .noMisc family (by simp_all [miscBytes])

/-- Every word stands for what it is decoded to. -/
theorem denotes_decode (w : Word) : w.Denotes w.decode := by
  have family_lt := w.family_lt
  unfold decode
  split
  · next h => exact denotes_decodeSystem h
  · next h => exact .jump h
  · next h => exact .call h
  · next h => exact .skipIfByte h
  · next h => exact .skipIfNotByte h
  · next h =>
    split
    · next last => exact .skipIfEqual h last
    · next last => exact .noTest (.inl h) last
  · next h => exact .set h
  · next h => exact .addByte h
  · next h =>
    split
    · next operation last => exact .combine h last
    · next last => exact .noOperation h last
  · next h =>
    split
    · next last => exact .skipIfNotEqual h last
    · next last => exact .noTest (.inr h) last
  · next h => exact .setIndex h
  · next h => exact .random h
  · next h => exact .draw h
  · next h => exact denotes_decodeKeys h
  · next h => exact denotes_decodeMisc h
  · refine .noFamily ?_
    have others : w.family ∉ [0x0, 0x1, 0x2, 0x3, 0x4, 0x5, 0x6, 0x7, 0x8, 0x9, 0xA, 0xC, 0xD,
        0xE, 0xF] := by simp_all
    simp only [List.mem_cons, List.not_mem_nil, or_false, not_or] at others
    omega

/-- A word below 256 has two zero nibbles before its low byte. -/
theorem fields_of_toNat {w : Word} {low : Nat} (h : w.toNat = low) (small : low < 256) :
    w.family = 0 ∧ w.x = 0 ∧ w.y = Fin.ofNat 16 (low / 16) ∧ w.kk = UInt8.ofNat low := by
  refine ⟨?_, ?_, ?_, ?_⟩
  · simp only [Word.family, h]
    omega
  · apply Fin.ext
    simp only [val_x, h, Fin.val_zero]
    omega
  · simp only [Word.y, h]
  · simp only [kk, h]

/-- The table has no more than one line for a word. -/
theorem Denotes.eq_decode {w : Word} {i : Instruction} (h : w.Denotes i) : i = w.decode := by
  cases h with
  | clear h | ret h | small h | big h =>
    obtain ⟨family, x, y, low⟩ := fields_of_toNat h (by decide)
    simp [decode, decodeSystem, family, x, y, low]
  | scrollAcross h =>
    rcases h with h | h <;> obtain ⟨family, x, y, low⟩ := fields_of_toNat h (by decide) <;>
      simp [decode, decodeSystem, family, x, y, low]
  | scrollDown family x y => simp [decode, decodeSystem, family, x, y]
  | noSystem family low =>
    simp only [decode, family, decodeSystem]
    rcases low with x | ⟨y, low⟩
    · rw [if_pos x]
    · simp_all [systemBytes]
  | pointGlyph family low => rcases low with low | low <;> simp [decode, decodeMisc, family, low]
  | noTest family last => rcases family with family | family <;> simp [decode, family, last]
  | noKeyTest family low => simp_all [decode, decodeKeys, keyBytes]
  | noMisc family low => simp_all [decode, decodeMisc, miscBytes]
  | _ => simp_all [decode, decodeKeys, decodeMisc]

theorem decode_eq_iff {w : Word} {i : Instruction} : w.decode = i ↔ w.Denotes i :=
  ⟨fun h => h ▸ w.denotes_decode, fun h => h.eq_decode.symm⟩

end ChipEight.Word
