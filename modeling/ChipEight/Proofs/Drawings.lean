import ChipEight.Proofs.Sprites
import Mathlib.Data.List.Perm.Basic

/-!
# Drawings

A drawing is a list of strokes, each of which draws a sprite at a place. Strokes act on a display
by flipping pixels, so a drawing flips each pixel as often as its strokes do together, in whatever
order they are made (`Display.lit_drawAll`). Displays that show the same are the same, which makes
the order of the strokes immaterial, and a drawing that is made once more in any order is taken
back.

The answers of the strokes do depend on the order. Of two strokes that are the same, at least one
meets a lit pixel, unless the sprite is empty. The second one does if the first one lit a pixel
(`Display.strokes_commute`).
-/

namespace ChipEight

namespace Surface

variable (s : Surface)

theorem flipAll_append (offsets more : List Nat) :
    (s.flipAll (offsets ++ more)).1 = ((s.flipAll offsets).1.flipAll more).1 := by
  induction offsets generalizing s with
  | nil => rfl
  | cons p rest ih =>
    have first (others : List Nat) :
        (s.flipAll (p :: others)).1 = ((s.flip p).flipAll others).1 := by rw [flipAll_cons]
    rw [List.cons_append, first, first, ih]

/-- Two surfaces of one mode that show the same are the same. -/
theorem eq_of_lit {s t : Surface} (mode : s.mode = t.mode) (lit : ∀ q, s.lit q = t.lit q) :
    s = t := by
  have size : s.cells.size = t.cells.size := by rw [s.size_cells, t.size_cells, mode]
  have cells : s.cells = t.cells := by
    refine Array.ext size fun q inside inside' => ?_
    have same := lit q
    rwa [Surface.lit, Surface.lit, Array.getD_eq_getD_getElem?, Array.getD_eq_getD_getElem?,
      Array.getElem?_eq_getElem inside, Array.getElem?_eq_getElem inside'] at same
  cases s
  cases t
  subst mode cells
  rfl

end Surface

/-- A sprite and the place to draw it at. -/
structure Stroke where
  x : Int
  y : Int
  sprite : List UInt8

/-- The pixels that a stroke flips. -/
def Stroke.offsets (mode : Mode) (stroke : Stroke) : List Nat :=
  Sprite.offsets mode stroke.x stroke.y stroke.sprite

namespace Display

variable {d : Display} {x y : Int} {sprite : List UInt8} {strokes others : List Stroke}

/-- Makes the strokes of a drawing in order. -/
def drawAll (d : Display) (strokes : List Stroke) : Display :=
  strokes.foldl (fun d stroke => (d.draw stroke.x stroke.y stroke.sprite).1) d

theorem drawAll_cons (d : Display) (stroke : Stroke) (rest : List Stroke) :
    d.drawAll (stroke :: rest) = (d.draw stroke.x stroke.y stroke.sprite).1.drawAll rest := rfl

theorem drawAll_append (d : Display) (strokes others : List Stroke) :
    d.drawAll (strokes ++ others) = (d.drawAll strokes).drawAll others :=
  List.foldl_append

/-- A drawing flips the pixels of its strokes and changes nothing else. -/
theorem drawAll_eq (d : Display) (strokes : List Stroke) :
    d.drawAll strokes =
      { d with surface := (d.surface.flipAll (strokes.flatMap (Stroke.offsets d.mode))).1 } := by
  induction strokes generalizing d with
  | nil => rfl
  | cons stroke rest ih =>
    rw [drawAll_cons, ih, d.mode_draw, List.flatMap_cons, Surface.flipAll_append]
    rfl

/-- A pixel is another one afterwards if the strokes flip it an odd number of times. -/
theorem lit_drawAll (d : Display) (strokes : List Stroke) (q : Nat) :
    (d.drawAll strokes).surface.lit q =
      (d.surface.lit q ^^ decide (Odd ((strokes.flatMap (Stroke.offsets d.mode)).count q))) := by
  rw [drawAll_eq, Surface.lit_flipAll]
  intro p mem
  obtain ⟨stroke, -, covered⟩ := List.mem_flatMap.mp mem
  exact Sprite.offsets_lt_area _ _ _ _ p covered

theorem eq_drawAll_of_lit (strokes others : List Stroke)
    (lit : ∀ q, (d.drawAll others).surface.lit q = (d.drawAll strokes).surface.lit q) :
    d.drawAll others = d.drawAll strokes := by
  have mode : (d.drawAll others).surface.mode = (d.drawAll strokes).surface.mode := by
    rw [drawAll_eq, drawAll_eq, Surface.mode_flipAll, Surface.mode_flipAll]
  have surface := Surface.eq_of_lit mode lit
  rw [drawAll_eq, drawAll_eq] at surface ⊢
  exact congrArg (fun surface => { d with surface }) surface

/-- The order of the strokes makes no difference. -/
theorem drawAll_perm (same : strokes.Perm others) : d.drawAll others = d.drawAll strokes := by
  refine eq_drawAll_of_lit _ _ fun q => ?_
  rw [lit_drawAll, lit_drawAll, (same.flatMap_right (Stroke.offsets d.mode)).count_eq q]

/-- A drawing that is made once more is taken back. -/
theorem drawAll_twice (d : Display) (strokes : List Stroke) :
    (d.drawAll strokes).drawAll strokes = d := by
  rw [← drawAll_append]
  refine eq_drawAll_of_lit [] _ fun q => ?_
  have even : ¬ Odd (((strokes ++ strokes).flatMap (Stroke.offsets d.mode)).count q) := by
    rw [List.flatMap_append, List.count_append, Nat.not_odd_iff_even]
    exact ⟨_, rfl⟩
  rw [lit_drawAll, decide_eq_false even, Bool.xor_false]
  rfl

/-! ## The same stroke twice -/

/-- Of two strokes that are the same, one meets a lit pixel if the sprite has a bit at all: where a
single bit falls on an unlit pixel, the second stroke finds the pixel lit. -/
theorem collided_twice_iff :
    ((d.draw x y sprite).2 || ((d.draw x y sprite).1.draw x y sprite).2) = true ↔
      ∃ bits ∈ sprite, ∃ column < 8, bits.toNat.testBit (7 - column) = true := by
  rw [← Sprite.exists_hits_iff d.mode x y, Bool.or_eq_true,
    collided_draw_iff rfl, collided_draw_iff (d.mode_draw x y sprite)]
  constructor
  · rintro (⟨p, ⟨hit, -⟩ | twice⟩ | ⟨p, ⟨hit, -⟩ | twice⟩)
    · exact ⟨p, hit⟩
    · exact ⟨p, Nat.le_of_succ_le twice⟩
    · exact ⟨p, hit⟩
    · exact ⟨p, Nat.le_of_succ_le twice⟩
  · rintro ⟨p, hit⟩
    by_cases lit : d.Lit p
    · exact .inl ⟨p, .inl ⟨hit, lit⟩⟩
    · rcases Nat.eq_or_lt_of_le hit with once | twice
      · refine .inr ⟨p, .inl ⟨hit, lit_draw_iff p |>.mpr (.inr ⟨?_, lit⟩)⟩⟩
        rw [← once]
        exact odd_one
      · exact .inl ⟨p, .inr twice⟩

/-- The second stroke meets a lit pixel if a bit of the sprite fell on an unlit one. -/
theorem collided_again_iff (low : sprite.length ≤ d.mode.height) :
    ((d.draw x y sprite).1.draw x y sprite).2 = true ↔
      ∃ p : d.mode.Pixel, 1 ≤ Sprite.hits d.mode x y sprite p ∧ ¬ d.Lit p := by
  rw [collided_draw_iff (d.mode_draw x y sprite)]
  refine exists_congr fun p => ?_
  have once := Sprite.hits_le_one (x := x) (y := y) low p
  rw [lit_draw_iff]
  constructor
  · rintro (⟨hit, ⟨lit, even⟩ | ⟨-, unlit⟩⟩ | twice)
    · rw [Nat.le_antisymm once hit] at even
      exact absurd odd_one even
    · exact ⟨hit, unlit⟩
    · omega
  · rintro ⟨hit, unlit⟩
    have odd : Odd (Sprite.hits d.mode x y sprite p) := Nat.le_antisymm once hit ▸ odd_one
    exact .inl ⟨hit, .inr ⟨odd, unlit⟩⟩

/-- Strokes commute, and a drawing is its own inverse: any order of the strokes gives the same
display, and strokes that are made once more, in any order, take it back. Of two strokes that are
the same one meets a lit pixel unless the sprite has no bit. For a sprite that is no higher than
the display it is the second one if a bit fell on an unlit pixel, and so on a blank place always.
-/
theorem strokes_commute (d : Display) :
    (∀ strokes others : List Stroke, strokes.Perm others →
      d.drawAll others = d.drawAll strokes ∧ (d.drawAll strokes).drawAll others = d) ∧
      ∀ (x y : Int) (sprite : List UInt8),
        let hits := Sprite.hits d.mode x y sprite
        let first := d.draw x y sprite
        let second := first.1.draw x y sprite
        ((first.2 || second.2) = true ↔
            ∃ bits ∈ sprite, ∃ column < 8, bits.toNat.testBit (7 - column) = true) ∧
          (sprite.length ≤ d.mode.height →
            (second.2 = true ↔ ∃ p, 1 ≤ hits p ∧ ¬ d.Lit p) ∧
              ((∀ p, 1 ≤ hits p → ¬ d.Lit p) →
                (∃ bits ∈ sprite, ∃ column < 8, bits.toNat.testBit (7 - column) = true) →
                second.2 = true)) := by
  refine ⟨?_, ?_⟩
  · intro strokes others same
    refine ⟨drawAll_perm same, ?_⟩
    rw [drawAll_perm same, drawAll_twice]
  · intro x y sprite hits first second
    refine ⟨collided_twice_iff, fun low => ⟨collided_again_iff low, ?_⟩⟩
    intro blank bits
    obtain ⟨p, hit⟩ := (Sprite.exists_hits_iff _ _ _ _).mpr bits
    exact (collided_again_iff low).mpr ⟨p, hit, blank p hit⟩

/-- Three strokes that overlap and wrap around, made and taken back in two orders; and a stroke on
the blank display, made twice. -/
theorem strokes_commute_across_edges :
    let a : Stroke := ⟨-3, 31, [0xFF, 0x81]⟩
    let b : Stroke := ⟨62, -1, [0xF0, 0xFF]⟩
    let c : Stroke := ⟨0, 0, [0xC3]⟩
    let d : Display := {}
    (d.draw a.x a.y a.sprite).1 ≠ d ∧ (d.drawAll [a, b, c]).drawAll [c, a, b] = d ∧
      ((d.draw a.x a.y a.sprite).1.draw a.x a.y a.sprite).2 = true := by
  intro a b c d
  obtain ⟨drawings, strokes⟩ := strokes_commute d
  have order : ([a, b] ++ [c]).Perm ([c] ++ [a, b]) := List.perm_append_comm
  obtain ⟨-, again⟩ := strokes a.x a.y a.sprite
  obtain ⟨-, blank⟩ := again (by decide)
  refine ⟨?_, (drawings _ _ order).2, ?_⟩
  · intro same
    have corner := congrArg (fun d : Display => d.surface.lit 61) same
    revert corner
    decide +kernel
  · refine blank ?_ ⟨0xFF, by decide, 0, by decide, by decide⟩
    intro p _ lit
    rw [lit_iff rfl, Surface.lit_blank] at lit
    exact Bool.false_ne_true lit

end Display

end ChipEight
