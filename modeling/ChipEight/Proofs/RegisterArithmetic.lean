import ChipEight.Proofs.Faults

/-!
# Register arithmetic

The operations of the register family work on bytes that wrap. What they mean is said with whole
numbers: `Word.Combines` has one line for each last nibble, and lists the result and the flag that
belong to the operands. A result and a flag together hold a sum or a shifted byte that does not fit.

An instruction may name one register twice, or the flag register as an operand, as the target or as
both. The operands are read before anything is written, and the result is written after the flag, so
the table holds for all of these and a result in the flag register stands
(`Machine.register_arithmetic`).
-/

namespace ChipEight

/-! ## The operations in whole numbers -/

/-- What the last nibble of a word makes of two bytes: a result, and a flag for the operations that
have one. -/
inductive Word.Combines (reversed : Bool) (a b : UInt8) : Nat → UInt8 → Option Bool → Prop
  | copy : Combines reversed a b 0x0 b none
  | or {r : UInt8} (h : r.toNat = a.toNat ||| b.toNat) : Combines reversed a b 0x1 r none
  | and {r : UInt8} (h : r.toNat = a.toNat &&& b.toNat) : Combines reversed a b 0x2 r none
  | xor {r : UInt8} (h : r.toNat = a.toNat ^^^ b.toNat) : Combines reversed a b 0x3 r none
  | add {r : UInt8} {f : Bool} (h : r.toNat + 256 * f.toNat = a.toNat + b.toNat) :
      Combines reversed a b 0x4 r (some f)
  | subtract {r : UInt8} {f : Bool} (h : (r.toNat : Int) = ((a.toNat : Int) - b.toNat) % 256)
      (flag : f = true ↔ b.toNat < a.toNat) : Combines reversed a b 0x5 r (some f)
  | shiftRight {r : UInt8} {f : Bool} (h : 2 * r.toNat + f.toNat = a.toNat) :
      Combines reversed a b 0x6 r (some f)
  | subtractLesser {r : UInt8} {f : Bool} (straight : reversed = false)
      (h : (r.toNat : Int) = ((a.toNat : Int) - b.toNat) % 256)
      (flag : f = true ↔ a.toNat < b.toNat) : Combines reversed a b 0x7 r (some f)
  | subtractFrom {r : UInt8} {f : Bool} (exchanged : reversed = true)
      (h : (r.toNat : Int) = ((b.toNat : Int) - a.toNat) % 256)
      (flag : f = true ↔ a.toNat < b.toNat) : Combines reversed a b 0x7 r (some f)
  | shiftLeft {r : UInt8} {f : Bool} (h : r.toNat + 256 * f.toNat = 2 * a.toNat) :
      Combines reversed a b 0xE r (some f)

namespace Operation

theorem toNat_sub_emod (a b : UInt8) :
    ((a - b).toNat : Int) = ((a.toNat : Int) - b.toNat) % 256 := by
  have := a.toNat_lt
  have := b.toNat_lt
  rw [UInt8.toNat_sub]
  omega

theorem add_carry (a b : UInt8) :
    (a + b).toNat + 256 * (decide (255 < a.toNat + b.toNat)).toNat = a.toNat + b.toNat := by
  have := a.toNat_lt
  have := b.toNat_lt
  rw [UInt8.toNat_add]
  by_cases carry : 255 < a.toNat + b.toNat <;> simp only [carry, decide_true, decide_false,
    Bool.toNat_true, Bool.toNat_false] <;> omega

theorem shiftRight_bit (a : UInt8) :
    2 * (a >>> 1).toNat + (decide (a.toNat % 2 = 1)).toNat = a.toNat := by
  have half : (a >>> 1).toNat = a.toNat / 2 := UInt8.toNat_shiftRight a 1
  rw [half]
  by_cases odd : a.toNat % 2 = 1 <;> simp only [odd, decide_true, decide_false,
    Bool.toNat_true, Bool.toNat_false] <;> omega

theorem shiftLeft_bit (a : UInt8) :
    (a <<< 1).toNat + 256 * (decide (128 ≤ a.toNat)).toNat = 2 * a.toNat := by
  have := a.toNat_lt
  have twice : (a <<< 1).toNat = a.toNat * 2 % 256 := by
    rw [UInt8.toNat_shiftLeft]
    exact congrArg (· % 256) (Nat.shiftLeft_eq _ 1)
  rw [twice]
  by_cases high : 128 ≤ a.toNat <;> simp only [high, decide_true, decide_false,
    Bool.toNat_true, Bool.toNat_false] <;> omega

/-- The operation that a nibble selects computes what the table says. -/
theorem combines_apply {w : Word} {operation : Operation} (selected : w.operation? = some operation)
    (reversed : Bool) (a b : UInt8) :
    Word.Combines reversed a b w.n (operation.apply reversed a b).1
      (operation.apply reversed a b).2 := by
  unfold Word.operation? at selected
  split at selected <;> cases selected
  · next last => exact last ▸ .copy
  · next last => exact last ▸ .or (UInt8.toNat_or a b)
  · next last => exact last ▸ .and (UInt8.toNat_and a b)
  · next last => exact last ▸ .xor (UInt8.toNat_xor a b)
  · next last => exact last ▸ .add (add_carry a b)
  · next last => exact last ▸ .subtract (toNat_sub_emod a b) decide_eq_true_iff
  · next last => exact last ▸ .shiftRight (shiftRight_bit a)
  · next last =>
    rw [last]
    cases reversed with
    | false => exact .subtractLesser rfl (toNat_sub_emod a b) decide_eq_true_iff
    | true => exact .subtractFrom rfl (toNat_sub_emod b a) decide_eq_true_iff
  · next last => exact last ▸ .shiftLeft (shiftLeft_bit a)

end Operation

/-- Reversed, the doubtful subtraction is the other one with its operands exchanged. -/
theorem Word.Combines.exchanged {a b r : UInt8} {flag : Option Bool}
    (h : Word.Combines true a b 0x7 r flag) : Word.Combines true b a 0x5 r flag := by
  cases h with
  | subtractLesser straight => cases straight
  | subtractFrom _ h flag => exact .subtract h flag

theorem Word.exists_operation {w : Word} (h : w.n ≤ 7 ∨ w.n = 0xE) :
    ∃ operation, w.operation? = some operation := by
  unfold operation?
  split
  case h_10 => grind
  all_goals exact ⟨_, rfl⟩

/-! ## The registers -/

namespace Machine

variable (m : Machine)

theorem v_set (x z : Fin 16) (value : UInt8) :
    (m.set x value).v z = if z = x then value else m.v z := by
  by_cases same : z = x
  · subst same
    rw [if_pos rfl]
    exact Vector.getElem_set_self _
  · rw [if_neg same]
    exact Vector.getElem_set_ne x.isLt z.isLt fun eq => same (Fin.ext eq.symm)

theorem v_setFlag (raised : Bool) (z : Fin 16) :
    (m.setFlag raised).v z = if z = Processor.flag then (if raised then 1 else 0) else m.v z :=
  m.v_set Processor.flag z _

/-- Two machines differ in byte registers at most, and in whether the doubtful operand order has
been told. -/
def SameButBytes (m n : Machine) : Prop :=
  n = { m with processor := { m.processor with v := n.processor.v }, orderTold := n.orderTold }

variable (op : Fetched) (operation : Operation) (x y : Fin 16)

/-- The target holds the result, whichever registers were named. -/
theorem v_combine_target :
    (m.combine op operation x y).state.v x = (operation.apply m.reversed (m.v x) (m.v y)).1 :=
  Vector.getElem_set_self _

/-- The flag register holds the flag, unless it is the target and holds the result. -/
theorem v_combine_flag {raised : Bool} (other : x ≠ Processor.flag)
    (flagged : (operation.apply m.reversed (m.v x) (m.v y)).2 = some raised) :
    (m.combine op operation x y).state.v Processor.flag = if raised then 1 else 0 := by
  rw [combine]
  generalize operation.apply m.reversed (m.v x) (m.v y) = computed at flagged
  obtain ⟨result, flag⟩ := computed
  cases flagged
  exact ((m.setFlag raised).v_set x _ result).trans
    ((if_neg (Ne.symm other)).trans ((m.v_setFlag raised _).trans (if_pos rfl)))

/-- Nothing is written but the target and, if there is a flag, the flag register. -/
theorem v_combine_other {z : Fin 16} (other : z ≠ x)
    (beside : z = Processor.flag → (operation.apply m.reversed (m.v x) (m.v y)).2 = none) :
    (m.combine op operation x y).state.v z = m.v z := by
  rw [combine]
  generalize operation.apply m.reversed (m.v x) (m.v y) = computed at beside
  obtain ⟨result, flag⟩ := computed
  cases flag with
  | none => exact (m.v_set x z result).trans (if_neg other)
  | some raised =>
    have unflagged : z ≠ Processor.flag := fun same => Option.some_ne_none raised (beside same)
    exact ((m.setFlag raised).v_set x z result).trans
      ((if_neg other).trans ((m.v_setFlag raised z).trans (if_neg unflagged)))

theorem sameButBytes_combine : m.SameButBytes (m.combine op operation x y).state := by
  rw [combine]
  generalize operation.apply m.reversed (m.v x) (m.v y) = computed
  obtain ⟨result, flag⟩ := computed
  cases flag <;> rfl

/-- The operations of the register family, under every aliasing of their operands. The target holds
the result of the table. The flag register holds the flag, if it is not the target itself, and is
untouched by operations that have no flag. Everything else stays. Adding a byte wraps and has no
flag either. -/
theorem register_arithmetic (m : Machine) (op : Fetched) :
    let x := op.word.x
    let a := m.v x
    let b := m.v op.word.y
    let done := m.execute op
    (op.word.family = 8 → op.word.n ≤ 7 ∨ op.word.n = 0xE →
      done.result = .ok none ∧ m.SameButBytes done.state ∧
        ∃ flag, Word.Combines m.reversed a b op.word.n (done.state.v x) flag ∧
          (∀ raised, flag = some raised → x ≠ Processor.flag →
            (done.state.v Processor.flag).toNat = raised.toNat) ∧
          (∀ z, z ≠ x → (z = Processor.flag → flag = none) → done.state.v z = m.v z) ∧
          (op.word.n = 7 → m.reversed = true →
            Word.Combines m.reversed b a 5 (done.state.v x) flag)) ∧
      (op.word.family = 7 →
        done.result = .ok none ∧ m.SameButBytes done.state ∧
          (done.state.v x).toNat = (a.toNat + op.word.kk.toNat) % 256 ∧
          ∀ z, z ≠ x → done.state.v z = m.v z) := by
  intro x a b done
  refine ⟨?_, ?_⟩
  · intro family last
    obtain ⟨operation, selected⟩ := Word.exists_operation last
    have decoded := Word.decode_eq_iff.mpr (.combine family selected)
    have executed : done = m.combine op operation x op.word.y := by
      simp only [done, execute, decoded, x]
    have table := Operation.combines_apply selected m.reversed a b
    rw [executed]
    refine ⟨m.result_combine .., m.sameButBytes_combine ..,
      (operation.apply m.reversed a b).2, ?_, ?_, ?_, ?_⟩
    · rw [v_combine_target]
      exact table
    · intro raised flagged other
      rw [m.v_combine_flag op operation x _ other flagged]
      cases raised <;> rfl
    · exact fun z other beside => m.v_combine_other op operation x _ other beside
    · intro seven reversed
      rw [v_combine_target, reversed]
      rw [seven, reversed] at table
      exact table.exchanged
  · intro family
    have decoded := Word.decode_eq_iff.mpr (.addByte family)
    have executed : done = (m.set x (a + op.word.kk)).fallThrough := by
      simp only [done, execute, decoded, x, a]
    refine ⟨by rw [executed]; rfl, by rw [executed]; rfl, ?_, ?_⟩
    · rw [executed]
      exact (congrArg UInt8.toNat ((m.v_set x x _).trans (if_pos rfl))).trans (UInt8.toNat_add ..)
    · intro z other
      rw [executed]
      exact (m.v_set x z _).trans (if_neg other)

/-- The flag register doubled, by the word 8FF4: the sum stands where the carry was. And taken from
under reversal, by the word 81F7: it is read before it is written. -/
theorem register_arithmetic_of_flag :
    let m : Machine := ({ random := .scripted [], reversed := true } : Machine).set 1 5
    let high := m.set Processor.flag 200
    let low := m.set Processor.flag 7
    let double : Fetched := ⟨0x200, Word.ofBytes 0x8F 0xF4⟩
    let take : Fetched := ⟨0x202, Word.ofBytes 0x81 0xF7⟩
    ((high.execute double).state.v Processor.flag).toNat = 144 ∧
      ((low.execute take).state.v 1).toNat = 2 ∧
      ((low.execute take).state.v Processor.flag).toNat = 1 := by
  intro m high low double take
  obtain ⟨-, -, carry, doubled, -⟩ := (register_arithmetic high double).1 (by decide) (by decide)
  obtain ⟨-, -, flag, taken, raised, -, exchanged⟩ :=
    (register_arithmetic low take).1 (by decide) (by decide)
  have twice : high.v double.word.x = 200 ∧ high.v double.word.y = 200 ∧ double.word.n = 4 ∧
      double.word.x = Processor.flag := by decide +kernel
  have under : low.v take.word.x = 5 ∧ low.v take.word.y = 7 ∧ take.word.n = 7 ∧
      take.word.x = 1 := by decide +kernel
  rw [twice.1, twice.2.1, twice.2.2.1, twice.2.2.2] at doubled
  replace exchanged := exchanged under.2.2.1 rfl
  rw [under.1, under.2.1, under.2.2.2] at exchanged
  refine ⟨?_, ?_, ?_⟩
  · generalize (high.execute double).state.v Processor.flag = sum at doubled
    cases doubled with
    | add h =>
      have small := sum.toNat_lt
      have h : sum.toNat + 256 * _ = 400 := h
      omega
  · cases exchanged with
    | subtract h => exact Int.ofNat_inj.mp h
  · cases exchanged with
    | subtract _ greater =>
      rw [raised _ rfl (by decide), greater.mpr (by decide)]
      rfl

end Machine

end ChipEight
