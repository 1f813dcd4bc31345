import ChipEight.Proofs.Control

/-!
# The footprint of an instruction

What an instruction may write is fixed by its word, and for the two that store blocks by the
address register as well. `Word.Writes` is the table of it, with one line for each place and
the words that write it. Whatever is not in the table is found unchanged after the
instruction, and `Machine.confined_execute` says so of every word, the skipped ones included.

The program counter is no place of the table, since every instruction moves it.
`Machine.Sends` lists the words that send it somewhere, with the address, and after any other
word it is past that word.
-/

namespace ChipEight

/-- A place of a machine. -/
inductive Machine.Place where
  | register (x : Fin 16)
  | index
  | calls
  | byte (addr : Nat)
  | pixels
  | mode
  | delay
  | sound
  | random
  | keypad

/-- The words that write a place, while the address register holds `i`. No word writes the
keypad. -/
inductive Word.Writes (w : Word) (i : Nat) : Machine.Place → Prop
  | register (h : w.family ∈ [0x6, 0x7, 0x8, 0xC]) : Writes w i (.register w.x)
  | received (h : w.family = 0xF) (low : w.kk = 0x07 ∨ w.kk = 0x0A) :
      Writes w i (.register w.x)
  | restored {x : Fin 16} (h : w.family = 0xF) (low : w.kk = 0x65) (le : x ≤ w.x) :
      Writes w i (.register x)
  | flag (h : w.family = 0x8) (last : w.n ∈ [0x4, 0x5, 0x6, 0x7, 0xE]) :
      Writes w i (.register Processor.flag)
  | collision (h : w.family = 0xD) : Writes w i (.register Processor.flag)
  | index (h : w.family = 0xA) : Writes w i .index
  | moved (h : w.family = 0xF) (low : w.kk ∈ [0x1E, 0x29, 0x30]) : Writes w i .index
  | call (h : w.family = 0x2) : Writes w i .calls
  | ret (h : w.toNat = 0x00EE) : Writes w i .calls
  | digits {addr : Nat} (h : w.family = 0xF) (low : w.kk = 0x33) (ge : i ≤ addr)
      (le : addr ≤ i + 2) : Writes w i (.byte addr)
  | stored {addr : Nat} (h : w.family = 0xF) (low : w.kk = 0x55) (ge : i ≤ addr)
      (le : addr ≤ i + w.x) : Writes w i (.byte addr)
  | blanked (h : w.toNat ∈ [0x00E0, 0x00FE, 0x00FF]) : Writes w i .pixels
  | drawn (h : w.family = 0xD) : Writes w i .pixels
  | mode (h : w.toNat ∈ [0x00FE, 0x00FF]) : Writes w i .mode
  | delay (h : w.family = 0xF) (low : w.kk = 0x15) : Writes w i .delay
  | sound (h : w.family = 0xF) (low : w.kk = 0x18) : Writes w i .sound
  | random (h : w.family = 0xC) : Writes w i .random

/-- A flip leaves the mode, and so does a sprite. -/
theorem Surface.mode_flipAll (s : Surface) (offsets : List Nat) :
    (s.flipAll offsets).1.mode = s.mode := by
  rw [flipAll]
  generalize false = collided
  induction offsets generalizing s collided with
  | nil => rfl
  | cons offset rest ih => exact ih (s.flip offset) _

theorem Display.mode_draw (d : Display) (x y : Int) (sprite : List UInt8) :
    (d.draw x y sprite).1.mode = d.mode :=
  d.surface.mode_flipAll _

/-- The operations that raise a flag are told by the last nibble of their word. -/
theorem Word.n_mem_of_flag {w : Word} {operation : Operation} {reversed raised : Bool}
    {a b : UInt8} (selected : w.operation? = some operation)
    (flag : (operation.apply reversed a b).2 = some raised) :
    w.n ∈ [0x4, 0x5, 0x6, 0x7, 0xE] := by
  unfold operation? at selected
  split at selected <;> cases selected
  case h_1 | h_2 | h_3 | h_4 => cases flag
  all_goals
    next last => rw [last]; decide

namespace Machine

variable {m n k : Machine} {op : Fetched}

/-- Two machines hold the same at a place. -/
def SameAt (m n : Machine) : Place → Prop
  | .register x => m.v x = n.v x
  | .index => m.processor.i = n.processor.i
  | .calls => m.processor.calls = n.processor.calls
  | .byte addr => m.memory.byte addr = n.memory.byte addr
  | .pixels => m.display.surface.cells = n.display.surface.cells
  | .mode => m.display.mode = n.display.mode
  | .delay => m.timers.delay = n.timers.delay
  | .sound => m.timers.sound = n.timers.sound
  | .random => m.random = n.random
  | .keypad => m.keypad = n.keypad

/-- From `m` to `n` nothing but these places has changed. -/
def Confined (written : Place → Prop) (m n : Machine) : Prop :=
  ∀ place, ¬ written place → n.SameAt m place

namespace Confined

variable {written more : Place → Prop}

theorem refl (written : Place → Prop) (m : Machine) : Confined written m m := by
  intro place _
  cases place <;> rfl

theorem mono (h : Confined written m n) (le : ∀ place, written place → more place) :
    Confined more m n :=
  fun place outside => h place fun mem => outside (le place mem)

theorem trans (h : Confined written m n) (h' : Confined written n k) : Confined written m k := by
  intro place outside
  have first := h place outside
  have second := h' place outside
  cases place <;> exact Eq.trans second first

end Confined

/-! ## Changes of one place -/

theorem confined_set (m : Machine) (x : Fin 16) (value : UInt8) :
    Confined (· = .register x) m (m.set x value) := by
  intro place outside
  cases place with
  | register y =>
    have other : x.val ≠ y.val := fun same => outside (congrArg Place.register (Fin.ext same.symm))
    exact Vector.getElem_set_ne x.isLt y.isLt other
  | _ => rfl

theorem confined_setFlag (m : Machine) (raised : Bool) :
    Confined (· = .register Processor.flag) m (m.setFlag raised) :=
  confined_set m Processor.flag _

theorem confined_setIndex (m : Machine) (value : Int) :
    Confined (· = .index) m (m.setIndex value) := by
  intro place outside
  cases place with
  | index => exact absurd rfl outside
  | _ => rfl

theorem confined_calls (m : Machine) (calls : List Int) :
    Confined (· = .calls) m { m with processor := { m.processor with calls } } := by
  intro place outside
  cases place with
  | calls => exact absurd rfl outside
  | _ => rfl

theorem confined_random (m : Machine) (random : RandomSource) :
    Confined (· = .random) m { m with random } := by
  intro place outside
  cases place with
  | random => exact absurd rfl outside
  | _ => rfl

theorem confined_setDelay (m : Machine) (value : Int) :
    Confined (· = .delay) m { m with timers := m.timers.setDelay value } := by
  intro place outside
  cases place with
  | delay => exact absurd rfl outside
  | _ => rfl

theorem confined_setSound (m : Machine) (value : Int) :
    Confined (· = .sound) m { m with timers := m.timers.setSound value } := by
  intro place outside
  cases place with
  | sound => exact absurd rfl outside
  | _ => rfl

/-- The program counter and the notes are no places. -/
theorem confined_goto (written : Place → Prop) (m : Machine) (target : Int) :
    Confined written m (m.goto target) := by
  intro place _
  cases place <;> rfl

theorem confined_skipWord (written : Place → Prop) (m : Machine) (op : Fetched)
    (kind : Diagnostic.Kind) : Confined written m (m.skipWord op kind).state := by
  intro place _
  cases place <;> rfl

/-! ## Changes of several places -/

theorem confined_setLow (m : Machine) (values : List UInt8) :
    Confined (fun place => ∃ x : Fin 16, x < values.length ∧ place = .register x) m
      { m with processor := m.processor.setLow values } := by
  have registers := m.processor.get_setLow values
  have index : (m.processor.setLow values).i = m.processor.i := by simp only [Processor.setLow]
  have calls := m.processor.calls_setLow values
  generalize m.processor.setLow values = p at registers index calls
  intro place outside
  cases place with
  | register y =>
    have beyond : values.length ≤ y.val :=
      Nat.le_of_not_lt fun within => outside ⟨y, within, rfl⟩
    show p.v.get y = m.processor.v.get y
    rw [registers, List.getD_eq_getElem?_getD, List.getElem?_eq_none beyond, Option.getD_none]
  | index => exact index
  | calls => exact calls
  | _ => rfl

/-- A block is stored where it is meant to go, or not at all. -/
theorem confined_writeBlock (m : Machine) (values : List UInt8) :
    Confined (fun place => ∃ addr, m.processor.i.toNat ≤ addr ∧
        addr < m.processor.i.toNat + values.length ∧ place = .byte addr) m
      (m.writeBlock values).state := by
  intro place outside
  rw [state_writeBlock]
  cases place with
  | byte addr =>
    have elsewhere : ¬ (m.processor.i.toNat ≤ addr ∧
        addr < m.processor.i.toNat + values.length) :=
      fun inside => outside ⟨addr, inside.1, inside.2, rfl⟩
    show (m.memory.writeAll m.index values).1.byte addr = m.memory.byte addr
    by_cases above : Glyph.table.length ≤ m.processor.i.toNat
    · rw [index, Memory.byte_writeAll m.memory above, if_neg]
      exact fun inside => elsewhere ⟨inside.1, inside.2.1⟩
    · -- a block that would begin in the glyph table is refused before its first byte
      have refused : m.memory.writeFault? m.index ≠ none := by
        intro allowed
        have low := (Memory.writeFault?_eq_none_iff.mp allowed).1
        rw [index] at low
        omega
      obtain ⟨fault, refused⟩ := Option.ne_none_iff_exists'.mp refused
      rw [Memory.writeAll_of_writeFault? values refused]
  | _ => rfl

theorem confined_draw (m : Machine) (column row : UInt8) (sprite : List UInt8) :
    Confined (fun place => place = .pixels ∨ place = .register Processor.flag) m
      (m.present (.draw column row sprite)).state := by
  have drawn : Confined (fun place => place = .pixels ∨ place = .register Processor.flag) m
      { m with display := (m.display.draw column.toNat row.toNat sprite).1 } := by
    intro place outside
    cases place with
    | pixels => exact absurd (.inl rfl) outside
    | mode => exact Surface.mode_flipAll _ _
    | _ => rfl
  exact drawn.trans ((confined_setFlag _ _).mono fun _ flag => .inr flag)

theorem confined_clear (m : Machine) : Confined (· = .pixels) m (m.present .clear).state := by
  intro place outside
  cases place with
  | pixels => exact absurd rfl outside
  | _ => rfl

theorem confined_selectMode (m : Machine) (mode : Mode) :
    Confined (fun place => place = .pixels ∨ place = .mode) m
      (m.present (.selectMode mode)).state := by
  intro place outside
  cases place with
  | pixels => exact absurd (.inl rfl) outside
  | mode => exact absurd (.inr rfl) outside
  | _ => rfl

theorem confined_combine (m : Machine) (op : Fetched) {operation : Operation}
    (h : op.word.family = 0x8) (selected : op.word.operation? = some operation) :
    Confined (op.word.Writes m.processor.i.toNat) m
      (m.combine op operation op.word.x op.word.y).state := by
  have target : ∀ place, place = Place.register op.word.x →
      op.word.Writes m.processor.i.toNat place := by
    rintro place rfl
    exact .register (by rw [h]; decide)
  rw [combine]
  cases computed : operation.apply m.reversed (m.v op.word.x) (m.v op.word.y) with
  | mk result flag =>
    cases flag with
    | none => exact (confined_set m op.word.x result).mono target
    | some raised =>
      have last := Word.n_mem_of_flag selected (congrArg Prod.snd computed)
      have flagged : Confined (op.word.Writes m.processor.i.toNat) m (m.setFlag raised) :=
        (confined_setFlag m raised).mono fun place eq => eq ▸ .flag h last
      exact flagged.trans ((confined_set _ op.word.x result).mono target)

/-! ## Executing a word -/

/-- Whatever is not in the table is left alone, also by a word that is refused. -/
theorem confined_execute (m : Machine) (op : Fetched) :
    Confined (op.word.Writes m.processor.i.toNat) m (m.execute op).state := by
  have word := op.word.denotes_decode
  generalize decoded : op.word.decode = instruction at word
  cases word with
  | clear h =>
    simp only [execute, decoded]
    exact (confined_clear m).mono fun place eq => eq ▸ .blanked (by rw [h]; decide)
  | small h | big h =>
    simp only [execute, decoded]
    refine (confined_selectMode m _).mono ?_
    rintro place (rfl | rfl)
    · exact .blanked (by rw [h]; decide)
    · exact .mode (by rw [h]; decide)
  | ret h =>
    simp only [execute, decoded, Processor.pop]
    cases m.processor.calls with
    | nil => exact .refl _ m
    | cons target rest => exact (confined_calls m rest).mono fun place eq => eq ▸ .ret h
  | call h =>
    simp only [execute, decoded, Processor.push]
    by_cases full : Processor.maxCalls ≤ m.processor.calls.length
    · rw [if_pos full]
      exact .refl _ m
    · rw [if_neg full]
      exact (confined_calls m _).mono fun place eq => eq ▸ .call h
  | jump =>
    simp only [execute, decoded]
    exact .refl _ m
  | skipIfByte | skipIfNotByte | skipIfEqual | skipIfNotEqual | skipIfHeld | skipIfReleased =>
    simp only [execute, decoded]
    split <;> exact .refl _ m
  | set h | addByte h =>
    simp only [execute, decoded]
    exact (confined_set m op.word.x _).mono fun place eq => eq ▸ .register (by rw [h]; decide)
  | combine h selected =>
    simp only [execute, decoded]
    exact confined_combine m op h selected
  | setIndex h =>
    simp only [execute, decoded]
    exact (confined_setIndex m _).mono fun place eq => eq ▸ .index h
  | random h =>
    simp only [execute, decoded]
    have drawn : Confined (op.word.Writes m.processor.i.toNat) m
        { m with random := m.random.next.2 } :=
      (confined_random m _).mono fun place eq => eq ▸ .random h
    exact drawn.trans ((confined_set _ op.word.x _).mono
      fun place eq => eq ▸ .register (by rw [h]; decide))
  | draw h =>
    simp only [execute, decoded, draw]
    split
    · exact .refl _ m
    · refine (confined_draw m _ _ _).mono ?_
      rintro place (rfl | rfl)
      · exact .drawn h
      · exact .collision h
  | readDelay h low =>
    simp only [execute, decoded]
    exact (confined_set m op.word.x _).mono fun place eq => eq ▸ .received h (.inl low)
  | awaitKey h low =>
    simp only [execute, decoded, awaitKey]
    split
    · exact (confined_set m op.word.x _).mono fun place eq => eq ▸ .received h (.inr low)
    · exact .refl _ m
  | setDelay h low =>
    simp only [execute, decoded]
    exact (confined_setDelay m _).mono fun place eq => eq ▸ .delay h low
  | setSound h low =>
    simp only [execute, decoded]
    exact (confined_setSound m _).mono fun place eq => eq ▸ .sound h low
  | addIndex h low =>
    simp only [execute, decoded]
    exact (confined_setIndex m _).mono fun place eq => eq ▸ .moved h (by rw [low]; decide)
  | pointGlyph h low =>
    simp only [execute, decoded]
    have listed : op.word.kk ∈ [0x1E, 0x29, 0x30] := by
      rcases low with low | low <;> rw [low] <;> decide
    exact (confined_setIndex m _).mono fun place eq => eq ▸ .moved h listed
  | storeDigits h low =>
    simp only [execute, decoded]
    refine (confined_writeBlock m _).mono ?_
    rintro place ⟨addr, ge, lt, rfl⟩
    exact .digits h low ge (Nat.le_of_lt_succ lt)
  | store h low =>
    simp only [execute, decoded]
    refine (confined_writeBlock m _).mono ?_
    rintro place ⟨addr, ge, lt, rfl⟩
    rw [Processor.length_low] at lt
    exact .stored h low ge (Nat.le_of_lt_succ lt)
  | restore h low =>
    simp only [execute, decoded]
    split
    · exact .refl _ m
    · next values read =>
      have length := Memory.length_of_readBlock read
      refine (confined_setLow m values).mono ?_
      rintro place ⟨x, lt, rfl⟩
      exact .restored h low (Nat.le_of_lt_succ (Nat.lt_of_lt_of_le lt length))
  | _ =>
    simp only [execute, decoded]
    exact confined_skipWord _ m op _

/-! ## Where control goes -/

/-- The word passes over the next one. -/
inductive Skips (m : Machine) (w : Word) : Prop
  | isByte (h : w.family = 0x3) (same : m.v w.x = w.kk)
  | isNotByte (h : w.family = 0x4) (other : m.v w.x ≠ w.kk)
  | isEqual (h : w.family = 0x5) (last : w.n = 0) (same : m.v w.x = m.v w.y)
  | isNotEqual (h : w.family = 0x9) (last : w.n = 0) (other : m.v w.x ≠ m.v w.y)
  | keyHeld (h : w.family = 0xE) (low : w.kk = 0x9E)
      (held : m.keypad.isHeld (m.v w.x).toNat = true)
  | keyReleased (h : w.family = 0xE) (low : w.kk = 0xA1)
      (released : m.keypad.isHeld (m.v w.x).toNat = false)

/-- The addresses that a word at the program counter sends control to, where it does not go on
to the next word. -/
inductive Sends (m : Machine) (w : Word) : Int → Prop
  | jump (h : w.family = 0x1) : m.Sends w w.nnn
  | call (h : w.family = 0x2) : m.Sends w w.nnn
  | ret {target : Int} {rest : List Int} (h : w.toNat = 0x00EE)
      (calls : m.processor.calls = target :: rest) : m.Sends w target
  | skip (h : m.Skips w) : m.Sends w (m.pc + 4)
  | await (h : w.family = 0xF) (low : w.kk = 0x0A) (released : m.keypad.lowest? = none) :
      m.Sends w m.pc

theorem skips_iff {w : Word} :
    m.Skips w ↔ ∃ condition, w.decode = .skipIf condition ∧ m.holds condition = true := by
  constructor
  · intro skips
    cases skips with
    | isByte h same =>
      exact ⟨_, Word.decode_eq_iff.mpr (.skipIfByte h), decide_eq_true same⟩
    | isNotByte h other =>
      exact ⟨_, Word.decode_eq_iff.mpr (.skipIfNotByte h), decide_eq_true other⟩
    | isEqual h last same =>
      exact ⟨_, Word.decode_eq_iff.mpr (.skipIfEqual h last), decide_eq_true same⟩
    | isNotEqual h last other =>
      exact ⟨_, Word.decode_eq_iff.mpr (.skipIfNotEqual h last), decide_eq_true other⟩
    | keyHeld h low held => exact ⟨_, Word.decode_eq_iff.mpr (.skipIfHeld h low), held⟩
    | keyReleased h low released =>
      exact ⟨_, Word.decode_eq_iff.mpr (.skipIfReleased h low), congrArg not released⟩
  · rintro ⟨condition, decoded, holds⟩
    cases Word.decode_eq_iff.mp decoded with
    | skipIfByte h => exact .isByte h (of_decide_eq_true holds)
    | skipIfNotByte h => exact .isNotByte h (of_decide_eq_true holds)
    | skipIfEqual h last => exact .isEqual h last (of_decide_eq_true holds)
    | skipIfNotEqual h last => exact .isNotEqual h last (of_decide_eq_true holds)
    | skipIfHeld h low => exact .keyHeld h low holds
    | skipIfReleased h low => exact .keyReleased h low (Bool.not_eq_true' _ |>.mp holds)

/-- A word is carried out past its own address, and answers where it sends control from there. -/
theorem sends_iff (fetches : m.Fetches) {sent : Option Int}
    (result : (m.advance.execute m.current).result = .ok sent) (target : Int) :
    sent = some target ↔ m.Sends m.word target := by
  have passed : m.advance.pc = m.pc + 2 := pc_advance_of_fetches fetches
  constructor
  · rintro rfl
    cases redirects_of_execute result with
    | ret decoded popped =>
      cases Word.decode_eq_iff.mp decoded with
      | ret h =>
        cases calls : m.advance.processor.calls with
        | nil =>
          simp only [Processor.pop, calls] at popped
          cases popped
        | cons latest rest =>
          simp only [Processor.pop, calls] at popped
          cases popped
          exact .ret h calls
    | jump decoded =>
      cases Word.decode_eq_iff.mp decoded with
      | jump h => exact .jump h
    | call decoded =>
      cases Word.decode_eq_iff.mp decoded with
      | call h => exact .call h
    | @skipIf condition decoded =>
      have word : m.word.decode = .skipIf condition := decoded
      have holds : m.advance.holds condition = true := by
        simp only [execute, decoded] at result
        split at result
        · next holds => exact holds
        · cases result
      rw [passed, Int.add_assoc]
      exact .skip (skips_iff.mpr ⟨_, word, holds⟩)
    | awaitKey decoded released =>
      cases Word.decode_eq_iff.mp decoded with
      | awaitKey h low => exact .await h low released
  · intro sends
    cases sends with
    | jump h =>
      have decoded : m.current.word.decode = _ := Word.decode_eq_iff.mpr (.jump h)
      simp only [execute, decoded] at result
      cases result
      rfl
    | call h =>
      have decoded : m.current.word.decode = _ := Word.decode_eq_iff.mpr (.call h)
      simp only [execute, decoded] at result
      split at result
      · cases result
      · cases result
        rfl
    | ret h calls =>
      have decoded : m.current.word.decode = _ := Word.decode_eq_iff.mpr (.ret h)
      have stacked : m.advance.processor.calls = _ := calls
      simp only [execute, decoded, Processor.pop, stacked] at result
      cases result
      rfl
    | skip h =>
      obtain ⟨condition, word, holds⟩ := skips_iff.mp h
      have decoded : m.current.word.decode = .skipIf condition := word
      have holds : m.advance.holds condition = true := holds
      simp only [execute, decoded, if_pos holds, passed, Int.add_assoc] at result
      cases result
      rfl
    | await h low released =>
      have decoded : m.current.word.decode = _ := Word.decode_eq_iff.mpr (.awaitKey h low)
      have kept : m.advance.keypad.lowest? = none := released
      simp only [execute, decoded, awaitKey, kept] at result
      cases result
      rfl

/-! ## A step that succeeds -/

/-- What a step that succeeds makes of a machine `m`, with the word at its program counter. -/
structure Framed (m n : Machine) : Prop where
  sent : ∀ target, m.Sends m.word target → n.pc = target
  passed : (∀ target, ¬ m.Sends m.word target) → n.pc = m.pc + 2
  confined : Confined (m.word.Writes m.processor.i.toNat) m n
  /-- A call adds one entry, above all others. -/
  called : m.word.family = 0x2 → n.processor.stack = m.processor.stack ++ [m.pc + 2]
  /-- A return takes the last entry. -/
  returned : m.word.toNat = 0x00EE → m.processor.stack = n.processor.stack ++ [n.pc]
  /-- A random byte takes one byte from the source. -/
  drawn : m.word.family = 0xC → n.random = m.random.next.2

theorem Framed.keypad (h : m.Framed n) : n.keypad = m.keypad :=
  h.confined .keypad fun written => by cases written

theorem calls_execute_of_call {sent : Option Int} (h : op.word.family = 0x2)
    (result : (m.execute op).result = .ok sent) :
    (m.execute op).state.processor.calls = m.pc :: m.processor.calls := by
  have decoded := Word.decode_eq_iff.mpr (.call h)
  simp only [execute, decoded, Processor.push] at result ⊢
  by_cases full : Processor.maxCalls ≤ m.processor.calls.length
  · simp only [if_pos full] at result
    cases result
  · simp only [if_neg full]
    rfl

theorem calls_execute_of_ret {sent : Option Int} (h : op.word.toNat = 0x00EE)
    (result : (m.execute op).result = .ok sent) :
    ∃ target, sent = some target ∧
      m.processor.calls = target :: (m.execute op).state.processor.calls := by
  have decoded := Word.decode_eq_iff.mpr (.ret h)
  simp only [execute, decoded, Processor.pop] at result ⊢
  cases calls : m.processor.calls with
  | nil =>
    simp only [calls] at result
    cases result
  | cons target rest =>
    simp only [calls] at result
    cases result
    exact ⟨target, rfl, rfl⟩

theorem random_execute (m : Machine) (op : Fetched) (h : op.word.family = 0xC) :
    (m.execute op).state.random = m.random.next.2 := by
  have decoded := Word.decode_eq_iff.mpr (.random h)
  simp only [execute, decoded]
  rfl

/-- A step that succeeds carries out the word at the program counter, within its footprint. -/
theorem framed_of_step (h : m.WellFormed) (done : m.step.result = .ok op) :
    op = m.current ∧ m.Framed m.step.state := by
  by_cases fetches : m.Fetches
  · have passed : m.advance.pc = m.pc + 2 := pc_advance_of_fetches fetches
    have within : Confined (m.word.Writes m.processor.i.toNat) m
        (m.advance.execute m.current).state := by
      refine Confined.trans ?_ (confined_execute m.advance m.current)
      rw [advance_of_fetches fetches]
      exact confined_goto _ m _
    rw [step_of_fetches h.memory fetches] at done ⊢
    cases result : (m.advance.execute m.current).result with
    | error fault =>
      rw [complete_of_error result] at done
      cases done
    | ok sent =>
      have sends := sends_iff fetches result
      rw [complete_of_ok result] at done ⊢
      cases done
      refine ⟨rfl, ?_, ?_, ?_, ?_, ?_, ?_⟩
      · intro target sending
        cases (sends target).mpr sending
        rfl
      · intro going
        cases sent with
        | none => exact (pc_execute m.advance m.current).trans passed
        | some target => exact absurd ((sends target).mp rfl) (going target)
      · cases sent with
        | none => exact within
        | some target => exact within.trans (confined_goto _ _ target)
      · intro call
        have call : m.current.word.family = 0x2 := call
        have calls := calls_execute_of_call call result
        rw [passed] at calls
        cases sent <;> exact (congrArg List.reverse calls).trans List.reverse_cons
      · intro ret
        have ret : m.current.word.toNat = 0x00EE := ret
        obtain ⟨target, rfl, calls⟩ := calls_execute_of_ret ret result
        exact (congrArg List.reverse calls).trans List.reverse_cons
      · intro random
        have drawn := random_execute m.advance m.current random
        cases sent <;> exact drawn
  · rw [step_of_not_fetches h.memory fetches] at done
    cases done

end Machine

namespace Engine

/-- A step that succeeds is counted, and changes of the machine what its word says; nothing
else of the console changes. -/
theorem frame_of_step (options : Options) (history : List Operation) (op : Fetched)
    (done : ((ofOptions options).run history).console.step.result = .ok op) :
    let c := ((ofOptions options).run history).console
    op = { addr := c.machine.pc, word := c.machine.word } ∧
      c.machine.Framed c.step.state.machine ∧
      c.step.state.machine.keypad = c.machine.keypad ∧
      c.step.state = { c with machine := c.step.state.machine, executed := c.executed + 1 } := by
  intro c
  have formed : c.machine.WellFormed := (wellFormed_run options history).console.machine
  have succeeded : c.machine.step.result = .ok op := done
  obtain ⟨word, framed⟩ := Machine.framed_of_step formed succeeded
  refine ⟨word, framed, framed.keypad, ?_⟩
  rw [Console.step, Console.afterInstruction, succeeded]

/-- A call of 0x204 from 0x200: only the program counter and the stack change. -/
theorem frame_of_first_call :
    let c := ((ofOptions {}).run [.load [0x22, 0x04]]).console
    c.step.state.machine.pc = 0x204 ∧ c.step.state.machine.processor.stack = [0x202] ∧
      ∀ x, c.step.state.machine.v x = c.machine.v x := by
  have spec := frame_of_step {} [.load [0x22, 0x04]]
    { addr := 0x200, word := Word.ofBytes 0x22 0x04 } (by decide +kernel)
  generalize eq : ((ofOptions {}).run [.load [0x22, 0x04]]).console = c at spec ⊢
  have start : c.machine.pc = 0x200 ∧ c.machine.processor.stack = [] := by
    rw [← eq]
    decide +kernel
  obtain ⟨current, framed, -, -⟩ := spec
  have word : c.machine.word = Word.ofBytes 0x22 0x04 := (congrArg Fetched.word current).symm
  have call : c.machine.word.family = 0x2 := by rw [word]; decide
  refine ⟨?_, ?_, ?_⟩
  · rw [framed.sent _ (.call call), word]
    decide
  · rw [framed.called call, start.1, start.2]
    decide
  · intro x
    refine framed.confined (.register x) ?_
    intro written
    rw [word] at written
    cases written with
    | register h | received h | restored h | flag h | collision h =>
      exact absurd h (by decide)

end Engine

end ChipEight
