import ChipEight.Proofs.Footprint
import Mathlib.Algebra.BigOperators.Fin
import Mathlib.Algebra.Ring.Parity
import Mathlib.Data.Fintype.BigOperators

/-!
# Sprites on a surface

A sprite is drawn by flipping pixels one after the other, and a flip meets what the flips before
it have left. What comes of it does not depend on their order. `Sprite.hits` counts the bits of a
sprite that fall on a pixel, and that says it all: a pixel is another one afterwards if the number
is odd, and a lit pixel was turned off on the way if a bit fell on a lit pixel, or two bits on any
(`Display.draw_pixelwise`).

The count is over pairs of a row and a column of the sprite, in no order. It is the number of
times that the pixel stands in the list of flips (`Sprite.count_offsets`). A sprite that is no
higher than the surface has at most one bit for each pixel, and instructions draw no others.
-/

namespace ChipEight

/-! ## Pixels -/

/-- A pixel of a mode, by its place in the grid. -/
structure Mode.Pixel (mode : Mode) where
  column : Fin mode.width
  row : Fin mode.height
deriving DecidableEq

namespace Mode.Pixel

variable {mode : Mode}

/-- Pixels are numbered row by row. -/
def number (p : mode.Pixel) : Nat := p.row * mode.width + p.column

theorem exists_number_eq {n : Nat} (h : n < mode.area) : ∃ p : mode.Pixel, p.number = n := by
  refine ⟨⟨⟨n % mode.width, Nat.mod_lt _ mode.width_pos⟩,
    ⟨n / mode.width, Nat.div_lt_of_lt_mul h⟩⟩, ?_⟩
  exact Nat.div_add_mod' n mode.width

/-- A place is that of a pixel if both coordinates wrap around to it. -/
theorem offset_eq_number_iff (p : mode.Pixel) (column row : Int) :
    mode.offset column row = p.number ↔
      column % mode.width = p.column ∧ row % mode.height = p.row := by
  obtain ⟨⟨c, hc⟩, ⟨r, hr⟩⟩ := p
  cases mode <;> simp only [Mode.offset, number, Mode.width, Mode.height] at hc hr ⊢ <;> omega

end Mode.Pixel

/-! ## Flips -/

namespace Surface

variable (s : Surface)

/-- A collision that was met before is kept. -/
theorem foldl_flip (collided : Bool) (offsets : List Nat) :
    offsets.foldl (fun (s, collided) p => (s.flip p, s.lit p || collided)) (s, collided) =
      ((s.flipAll offsets).1, collided || (s.flipAll offsets).2) := by
  rw [flipAll]
  induction offsets generalizing s collided with
  | nil => rw [List.foldl_nil, List.foldl_nil, Bool.or_false]
  | cons p rest ih =>
    rw [List.foldl_cons, List.foldl_cons, ih, ih (s.flip p) (s.lit p || false)]
    simp only [Bool.or_false, Bool.or_assoc, Bool.or_left_comm]

/-- The first pixel of a list is flipped, and the others are flipped on what that leaves. -/
theorem flipAll_cons (p : Nat) (rest : List Nat) :
    s.flipAll (p :: rest) =
      (((s.flip p).flipAll rest).1, s.lit p || ((s.flip p).flipAll rest).2) :=
  ((s.flip p).foldl_flip (s.lit p || false) rest).trans (by rw [Bool.or_false])

variable {s} {offsets : List Nat}

/-- A pixel is another one afterwards if it was flipped an odd number of times. -/
theorem lit_flipAll (inside : ∀ p ∈ offsets, p < s.mode.area) (q : Nat) :
    (s.flipAll offsets).1.lit q = (s.lit q ^^ decide (Odd (offsets.count q))) := by
  induction offsets generalizing s with
  | nil => simp [flipAll]
  | cons p rest ih =>
    obtain ⟨first, others⟩ := List.forall_mem_cons.mp inside
    have flips : (s.flipAll (p :: rest)).1 = ((s.flip p).flipAll rest).1 := by rw [flipAll_cons]
    rw [flips, ih (s := s.flip p) others, lit_flip s first, List.count_cons]
    by_cases same : q = p
    · subst same
      simp only [if_pos, beq_self_eq_true, Nat.odd_add_one]
      cases s.lit q <;> by_cases odd : Odd (rest.count q) <;> simp [odd]
    · simp [same, Ne.symm same]

/-- A lit pixel was turned off on the way if one of the pixels was lit at first, or was flipped
twice. -/
theorem collided_flipAll (inside : ∀ p ∈ offsets, p < s.mode.area) :
    (s.flipAll offsets).2 = true ↔
      ∃ q, 1 ≤ offsets.count q ∧ s.lit q = true ∨ 2 ≤ offsets.count q := by
  induction offsets generalizing s with
  | nil => simp [flipAll]
  | cons p rest ih =>
    obtain ⟨first, others⟩ := List.forall_mem_cons.mp inside
    rw [flipAll_cons, Bool.or_eq_true, ih (s := s.flip p) others]
    constructor
    · rintro (lit | ⟨q, ⟨hit, lit⟩ | twice⟩)
      · exact ⟨p, .inl ⟨List.count_pos_iff.mpr List.mem_cons_self, lit⟩⟩
      · by_cases same : q = p
        · -- the pixel is flipped first of all, and is hit once more
          subst same
          exact ⟨q, .inr (by rw [List.count_cons_self]; omega)⟩
        · rw [lit_flip s first, if_neg same] at lit
          exact ⟨q, .inl ⟨hit.trans List.count_le_count_cons, lit⟩⟩
      · exact ⟨q, .inr (twice.trans List.count_le_count_cons)⟩
    · rintro ⟨q, hits⟩
      by_cases same : q = p
      · subst same
        rw [List.count_cons_self] at hits
        cases lit : s.lit q with
        | true => exact .inl rfl
        | false =>
          -- the first flip lights the pixel, and a second one meets it lit
          have flipped : (s.flip q).lit q = true := by rw [lit_flip s first, if_pos rfl, lit]; rfl
          rw [lit] at hits
          have again : 2 ≤ rest.count q + 1 := hits.resolve_left fun once => Bool.noConfusion once.2
          exact .inr ⟨q, .inl ⟨Nat.le_of_succ_le_succ again, flipped⟩⟩
      · rw [List.count_cons_of_ne (Ne.symm same)] at hits
        refine .inr ⟨q, ?_⟩
        rw [lit_flip s first, if_neg same]
        exact hits

end Surface

/-! ## Bits that fall on a pixel -/

namespace Sprite

/-- The set bits of a sprite drawn at `x` and `y` that fall on a pixel, as pairs of a row and of a
column from 0 to 7, the leftmost bit being the highest. Both axes wrap around. -/
def hitting (mode : Mode) (x y : Int) (sprite : List UInt8) (p : mode.Pixel) :
    Finset (Fin sprite.length × Fin 8) :=
  Finset.univ.filter fun (row, column) =>
    sprite[row].toNat.testBit (7 - column) ∧
      (x + column) % mode.width = p.column ∧ (y + row) % mode.height = p.row

/-- How many bits of a sprite fall on a pixel. -/
def hits (mode : Mode) (x y : Int) (sprite : List UInt8) (p : mode.Pixel) : Nat :=
  (hitting mode x y sprite p).card

theorem countP_range (p : Nat → Bool) (n : Nat) :
    (List.range n).countP p = ∑ i : Fin n, if p i then 1 else 0 := by
  induction n with
  | zero => rfl
  | succ n ih =>
    rw [List.range_succ, List.countP_append, List.countP_singleton, Fin.sum_univ_castSucc, ih]
    rfl

/-- A place is named once for each bit of a row that falls on it. -/
theorem count_columns (bits : UInt8) (place : Nat → Nat) (q : Nat) :
    ((columns bits).map place).count q =
      ∑ column : Fin 8, if bits.toNat.testBit (7 - column) ∧ place column = q then 1 else 0 := by
  rw [List.count_eq_countP, List.countP_map, columns, List.countP_filter, countP_range]
  simp [and_comm]

/-- The pixels of the first row come first, and the other rows lie below it. -/
theorem offsets_cons (mode : Mode) (x y : Int) (bits : UInt8) (rest : List UInt8) :
    offsets mode x y (bits :: rest) =
      (columns bits).map (fun column : Nat => mode.offset (x + column) y) ++
        offsets mode x (y + 1) rest := by
  have below (row : Nat) : y + ((row + 1 : Nat) : Int) = y + 1 + row := by omega
  simp only [offsets, List.zipIdx_cons', List.flatMap_cons, List.flatMap_map, Prod.map, id, below,
    Int.natCast_zero, Int.add_zero]

theorem count_offsets_eq_sum (mode : Mode) (x y : Int) (sprite : List UInt8) (q : Nat) :
    (offsets mode x y sprite).count q = ∑ row : Fin sprite.length, ∑ column : Fin 8,
      if sprite[row].toNat.testBit (7 - column) ∧ mode.offset (x + column) (y + row) = q
      then 1 else 0 := by
  induction sprite generalizing y with
  | nil => rfl
  | cons bits rest ih =>
    have below (row : Nat) : y + ((row + 1 : Nat) : Int) = y + 1 + row := by omega
    rw [offsets_cons, List.count_append, count_columns, ih]
    simp only [List.length_cons, Fin.sum_univ_succ (n := rest.length), Fin.val_zero,
      Int.natCast_zero, Int.add_zero, Fin.val_succ, below, Fin.getElem_fin,
      List.getElem_cons_zero, List.getElem_cons_succ]

variable {mode : Mode} {x y : Int} {sprite : List UInt8}

/-- A pixel is flipped once for each bit that falls on it. -/
theorem count_offsets (p : mode.Pixel) :
    (offsets mode x y sprite).count p.number = hits mode x y sprite p := by
  rw [count_offsets_eq_sum, hits, hitting, Finset.card_filter, Fintype.sum_prod_type]
  simp only [p.offset_eq_number_iff]

variable (mode x y sprite) in
theorem offsets_lt_area : ∀ q ∈ offsets mode x y sprite, q < mode.area := by
  intro q mem
  simp only [offsets, List.mem_flatMap, List.mem_map] at mem
  obtain ⟨_, -, _, -, rfl⟩ := mem
  exact Mode.offset_lt_area _ _ _

/-- A row is no wider than a surface. So is the sprite no higher, its bits fall on different
pixels. -/
theorem hits_le_one (low : sprite.length ≤ mode.height) (p : mode.Pixel) :
    hits mode x y sprite p ≤ 1 := by
  refine Finset.card_le_one.mpr ?_
  rintro ⟨⟨r, hr⟩, ⟨c, hc⟩⟩ first ⟨⟨r', hr'⟩, ⟨c', hc'⟩⟩ second
  obtain ⟨-, -, column, row⟩ := Finset.mem_filter.mp first
  obtain ⟨-, -, column', row'⟩ := Finset.mem_filter.mp second
  have columns : c = c' := by
    have same := column.trans column'.symm
    cases mode <;> simp only [Mode.width] at same <;> omega
  have rows : r = r' := by
    have same := row.trans row'.symm
    cases mode <;> simp only [Mode.height] at same low <;> omega
  subst columns rows
  rfl

variable (mode x y sprite) in
/-- A bit falls on some pixel, and on a pixel that is hit there falls a bit. -/
theorem exists_hits_iff :
    (∃ p, 1 ≤ hits mode x y sprite p) ↔
      ∃ bits ∈ sprite, ∃ column < 8, bits.toNat.testBit (7 - column) = true := by
  constructor
  · rintro ⟨p, hit⟩
    obtain ⟨⟨row, column⟩, mem⟩ := Finset.card_pos.mp hit
    exact ⟨_, List.getElem_mem row.isLt, column, column.isLt, (Finset.mem_filter.mp mem).2.1⟩
  · rintro ⟨bits, mem, column, narrow, set⟩
    obtain ⟨row, inside, rfl⟩ := List.getElem_of_mem mem
    obtain ⟨p, number⟩ :=
      Mode.Pixel.exists_number_eq (Mode.offset_lt_area mode (x + column) (y + row))
    have place := (p.offset_eq_number_iff _ _).mp number.symm
    refine ⟨p, Finset.card_pos.mpr ⟨(⟨row, inside⟩, ⟨column, narrow⟩), ?_⟩⟩
    exact Finset.mem_filter.mpr ⟨Finset.mem_univ _, set, place⟩

end Sprite

/-! ## Drawing -/

namespace Display

/-- The display shows a lit pixel there. -/
def Lit (d : Display) {mode : Mode} (p : mode.Pixel) : Prop :=
  d.surface.pixel p.column p.row = .ok true

variable {d : Display} {x y : Int} {sprite : List UInt8}

theorem lit_iff {mode : Mode} (same : d.mode = mode) (p : mode.Pixel) :
    d.Lit p ↔ d.surface.lit p.number = true := by
  subst same
  rw [Lit, d.surface.pixel_eq p.column.isLt p.row.isLt, Except.ok.injEq]
  rfl

/-- A display draws by flipping the pixels that the sprite covers. -/
theorem draw_eq (d : Display) (x y : Int) (sprite : List UInt8) :
    d.draw x y sprite =
      ({ d with surface := (d.surface.flipAll (Sprite.offsets d.mode x y sprite)).1 },
        (d.surface.flipAll (Sprite.offsets d.mode x y sprite)).2) := rfl

/-- Every pixel is flipped as often as bits of the sprite fall on it. -/
theorem lit_draw_iff (p : d.mode.Pixel) :
    (d.draw x y sprite).1.Lit p ↔ Xor (d.Lit p) (Odd (Sprite.hits d.mode x y sprite p)) := by
  have flipped := d.surface.lit_flipAll (q := p.number)
    (Sprite.offsets_lt_area d.mode x y sprite)
  rw [lit_iff (d.mode_draw x y sprite), lit_iff rfl, draw_eq, flipped, Sprite.count_offsets,
    Bool.xor_iff_ne]
  by_cases odd : Odd (Sprite.hits d.mode x y sprite p) <;> simp [odd, Xor]

/-- A lit pixel was turned off on the way if a bit fell on a lit pixel, or two bits on any. -/
theorem collided_draw_iff {mode : Mode} (same : d.mode = mode) :
    (d.draw x y sprite).2 = true ↔
      ∃ p : mode.Pixel, 1 ≤ Sprite.hits mode x y sprite p ∧ d.Lit p ∨
        2 ≤ Sprite.hits mode x y sprite p := by
  subst same
  have inside := Sprite.offsets_lt_area d.mode x y sprite
  rw [draw_eq, Surface.collided_flipAll inside]
  constructor
  · rintro ⟨q, collides⟩
    have mem : q ∈ Sprite.offsets d.mode x y sprite := by
      refine List.count_pos_iff.mp ?_
      omega
    obtain ⟨p, rfl⟩ := Mode.Pixel.exists_number_eq (inside q mem)
    rw [Sprite.count_offsets, ← lit_iff rfl] at collides
    exact ⟨p, collides⟩
  · rintro ⟨p, collides⟩
    rw [← Sprite.count_offsets, lit_iff rfl] at collides
    exact ⟨p.number, collides⟩

/-- Where no two bits fall on one pixel, a lit pixel was turned off on the way exactly if a pixel
that was lit is not. -/
theorem collided_draw_iff_of_le_height (low : sprite.length ≤ d.mode.height) :
    (d.draw x y sprite).2 = true ↔ ∃ p : d.mode.Pixel, d.Lit p ∧ ¬ (d.draw x y sprite).1.Lit p := by
  rw [collided_draw_iff rfl]
  refine exists_congr fun p => ?_
  have once := Sprite.hits_le_one (x := x) (y := y) low p
  rw [lit_draw_iff, not_xor]
  constructor
  · rintro (⟨hit, lit⟩ | twice)
    · have odd : Odd (Sprite.hits d.mode x y sprite p) := Nat.le_antisymm once hit ▸ odd_one
      exact ⟨lit, iff_of_true lit odd⟩
    · omega
  · rintro ⟨lit, same⟩
    obtain ⟨pairs, odd⟩ := same.mp lit
    exact .inl ⟨by omega, lit⟩

end Display

namespace Machine

/-- An instruction draws what it has read at the place that two registers name, and raises the flag
if the display says so. -/
theorem execute_of_draw {m : Machine} {op : Fetched} {sprite : List UInt8}
    (h : op.word.family = 0xD) (read : m.memory.readBlock m.index op.word.n = .ok sprite) :
    m.execute op = m.present (.draw (m.v op.word.x) (m.v op.word.y) sprite) := by
  have decoded := Word.decode_eq_iff.mpr (.draw h)
  simp only [execute, decoded, draw, read]

end Machine

instance (d : Display) {mode : Mode} (p : mode.Pixel) : Decidable (d.Lit p) :=
  inferInstanceAs (Decidable (_ = _))

namespace Display

/-- Drawing a sprite of any height at any place flips every pixel as often as bits of it fall
there, changes nothing else, and tells whether a bit fell on a lit pixel, or two bits on any. An
instruction draws sprites that have one bit for a pixel at most, and so its flag tells whether a
pixel that was lit is not lit any more. -/
theorem draw_pixelwise (d : Display) (x y : Int) (sprite : List UInt8) :
    let drawn := d.draw x y sprite
    let hits := Sprite.hits d.mode x y sprite
    (∀ p, drawn.1.Lit p ↔ Xor (d.Lit p) (Odd (hits p))) ∧
      (drawn.1.mode = d.mode ∧ drawn.1.listeners = d.listeners) ∧
      (drawn.2 = true ↔ ∃ p, 1 ≤ hits p ∧ d.Lit p ∨ 2 ≤ hits p) ∧
      ∀ (m : Machine) (op : Fetched), m.display = d → op.word.family = 0xD →
        m.memory.readBlock m.index op.word.n = .ok sprite →
        (m.v op.word.x).toNat = x → (m.v op.word.y).toNat = y →
          let done := m.execute op
          done.result = .ok none ∧ done.state.display = drawn.1 ∧ (∀ p, hits p ≤ 1) ∧
            done.state.v Processor.flag ≤ 1 ∧
            (done.state.v Processor.flag = 1 ↔
              ∃ p : d.mode.Pixel, d.Lit p ∧ ¬ done.state.display.Lit p) := by
  intro drawn hits
  refine ⟨fun p => lit_draw_iff p, ⟨d.mode_draw x y sprite, rfl⟩, collided_draw_iff rfl, ?_⟩
  rintro m op rfl family read rfl rfl done
  have low : sprite.length ≤ m.display.mode.height := by
    have rows := Memory.length_of_readBlock read
    have few := op.word.n_lt
    cases m.display.mode <;> simp only [Mode.height] <;> omega
  have presented : done = m.present (.draw (m.v op.word.x) (m.v op.word.y) sprite) :=
    Machine.execute_of_draw family read
  have raised : (m.present (.draw (m.v op.word.x) (m.v op.word.y) sprite)).state.v Processor.flag =
      if drawn.2 then 1 else 0 := Vector.getElem_set_self _
  rw [presented, raised]
  refine ⟨rfl, rfl, fun p => Sprite.hits_le_one low p, ?_, ?_⟩
  · split <;> decide
  · refine Iff.trans ?_ (collided_draw_iff_of_le_height low)
    show _ ↔ drawn.2 = true
    cases drawn.2 <;> decide

/-- The top row of a glyph is drawn twice into the corner, and turned off the second time. -/
theorem draw_pixelwise_of_glyph :
    let op : Fetched := ⟨0x200, Word.ofBytes 0xD0 0x01⟩
    let m := (({ random := .scripted [] } : Machine).execute op).state
    let corner : m.display.mode.Pixel := ⟨⟨0, Mode.width_pos _⟩, ⟨0, Mode.height_pos _⟩⟩
    m.v Processor.flag = 0 ∧ m.display.Lit corner ∧ ¬ (m.execute op).state.display.Lit corner ∧
      (m.execute op).state.v Processor.flag = 1 := by
  intro op m corner
  have lit : m.display.Lit corner := by decide +kernel
  have unlit : ¬ (m.execute op).state.display.Lit corner := by decide +kernel
  obtain ⟨-, -, -, instruction⟩ := draw_pixelwise m.display 0 0 [0xF0]
  obtain ⟨-, -, -, -, flag_iff⟩ := instruction m op rfl (by decide) (by decide +kernel)
    (by decide +kernel) (by decide +kernel)
  exact ⟨by decide +kernel, lit, unlit, flag_iff.mpr ⟨corner, lit, unlit⟩⟩

end Display

end ChipEight
