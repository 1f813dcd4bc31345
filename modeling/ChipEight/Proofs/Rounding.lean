import ChipEight.Binary64
import Mathlib.Data.Nat.Cast.Order.Field
import Mathlib.Data.Rat.Floor
import Mathlib.Tactic.FieldSimp
import Mathlib.Tactic.Linarith
import Mathlib.Tactic.Positivity

/-!
# Rounding

A quotient is rounded in units. The unit is a power of two of which the quotient has less than
`2 ^ 53`, and `2 ^ 52` or more unless the unit is the least there is (`Binary64.ScaledBy`). Every
number of the format is a whole number of these units or is below `2 ^ 52` of them, so that the
nearest whole number of units is the nearest number of the format: `Binary64.Rounds` says what that
means without any unit, and `Binary64.rounds_of_ofQuotient?` that this is what is computed.

A quotient is refused from half a unit below `2 ^ 1024` on, where rounding would leave the range of
exponents (`Binary64.ofRatio?_eq_none_iff`).

What was rounded may lie on the other side of an integer than the exact quotient does. This cannot
happen if the numerator has at most fifty-three bits: the quotient is then further away from the next
integer than half a unit, so that cutting the number towards zero is dividing integers
(`Binary64.truncate_of_ofQuotient?`).
-/

namespace ChipEight

namespace Binary64

/-! ## Values -/

/-- One, or minus one. -/
def sign (x : Binary64) : ℚ := if x.negative then -1 else 1

/-- The number without its sign. -/
def magnitude (x : Binary64) : ℚ := x.significand * 2 ^ x.exponent

/-- The number. -/
def value (x : Binary64) : ℚ := x.sign * x.magnitude

/-- The records that are in normal form. These are the numbers of the format. -/
structure Normal (x : Binary64) : Prop where
  min_le : minExponent ≤ x.exponent
  le_max : x.exponent ≤ maxExponent
  lt : x.significand < 2 ^ 53
  full : x.exponent = minExponent ∨ 2 ^ 52 ≤ x.significand

/-- No number of the format is nearer to `q` than `x`, and if another one is as near then the last
bit of `x` is zero. -/
structure Rounds (x : Binary64) (q : ℚ) : Prop where
  normal : x.Normal
  nearest : ∀ y : Binary64, y.Normal → |x.value - q| ≤ |y.value - q|
  even : ∀ y : Binary64, y.Normal → y.value ≠ x.value → |y.value - q| = |x.value - q| →
    Even x.significand

/-- The integer before the point of a rational number. -/
def towardsZero (q : ℚ) : Int := if q < 0 then ⌈q⌉ else ⌊q⌋

variable (x : Binary64)

theorem abs_sign_mul (v : ℚ) : |x.sign * v| = |v| := by
  rw [sign]
  split
  · rw [neg_one_mul, abs_neg]
  · rw [one_mul]

theorem sign_mul_sign_mul (v : ℚ) : x.sign * (x.sign * v) = v := by
  rw [sign]
  split <;> ring

theorem magnitude_nonneg : 0 ≤ x.magnitude :=
  mul_nonneg (Nat.cast_nonneg _) (zpow_pos two_pos _).le

theorem cast_signed (m : Nat) : (x.signed m : ℚ) = x.sign * m := by
  rw [signed, sign]
  split
  · push_cast
    ring
  · push_cast
    ring

theorem tdiv_signed (m d : Nat) : (x.signed m).tdiv d = x.signed (m / d) := by
  rw [signed, signed]
  split
  · rw [Int.neg_tdiv, Int.ofNat_tdiv]
  · rw [Int.ofNat_tdiv]

/-- Scaling a fraction by a power of two, upwards in the numerator and downwards in the
denominator. -/
theorem shiftLeft_div_shiftLeft (n d : Nat) (e : Int) :
    ((n <<< (-e).toNat : ℕ) : ℚ) / (d <<< e.toNat : ℕ) = n / d / 2 ^ e := by
  obtain ⟨k, rfl | rfl⟩ := e.eq_nat_or_neg
  · simp [Nat.shiftLeft_eq, div_div]
  · simp [Nat.shiftLeft_eq, div_mul_eq_mul_div]

theorem numerator_div_denominator : (x.numerator / x.denominator : ℚ) = x.magnitude := by
  have fraction := shiftLeft_div_shiftLeft x.significand 1 (-x.exponent)
  rw [neg_neg, Nat.cast_one, div_one, zpow_neg, div_inv_eq_mul] at fraction
  exact fraction

theorem truncate_eq_signed : x.truncate = x.signed ⌊x.magnitude⌋₊ := by
  rw [truncate, ← numerator_div_denominator, Rat.natFloor_natCast_div_natCast]

/-- Cutting a number leaves the integer before its point. -/
theorem truncate_eq_towardsZero : x.truncate = towardsZero x.value := by
  have nonneg := x.magnitude_nonneg
  rw [truncate_eq_signed, signed, Int.natCast_floor_eq_floor nonneg, towardsZero, value, sign]
  cases x.negative with
  | false => simp only [Bool.false_eq_true, if_false, one_mul, if_neg (not_lt.mpr nonneg)]
  | true =>
    simp only [if_true, neg_one_mul, Int.ceil_neg]
    split
    · rfl
    · next zero =>
      have zero : x.magnitude = 0 := by linarith
      rw [zero, neg_zero, Int.floor_zero, neg_zero]

/-! ## Units -/

variable {n d m : Nat} {q v : ℚ} {e : Int} {negative : Bool} {x}

/-- Of the unit `2 ^ e` the quotient `q` has less than `2 ^ 53`, and `2 ^ 52` or more unless the
unit is the least. -/
structure ScaledBy (q : ℚ) (e : Int) : Prop where
  min_le : minExponent ≤ e
  lt : q < 2 ^ 53 * 2 ^ e
  full : e = minExponent ∨ 2 ^ 52 * 2 ^ e ≤ q

/-- The bit lengths tell the quotient up to a factor of four. -/
theorem log2_bounds (posn : 0 < n) (posd : 0 < d) :
    let e := (n.log2 : Int) - d.log2 - 53
    (2 : ℚ) ^ 52 * 2 ^ e ≤ n / d ∧ (n / d : ℚ) < 2 ^ 54 * 2 ^ e := by
  intro e
  have posℚ : (0 : ℚ) < d := Nat.cast_pos.mpr posd
  have nlow : (2 : ℚ) ^ n.log2 ≤ n := by exact_mod_cast Nat.log2_self_le posn.ne'
  have nhigh : (n : ℚ) < 2 ^ (n.log2 + 1) := by exact_mod_cast Nat.lt_log2_self
  have dlow : (2 : ℚ) ^ d.log2 ≤ d := by exact_mod_cast Nat.log2_self_le posd.ne'
  have dhigh : (d : ℚ) < 2 ^ (d.log2 + 1) := by exact_mod_cast Nat.lt_log2_self
  have unit : (2 : ℚ) ^ e * 2 ^ 53 * 2 ^ d.log2 = 2 ^ n.log2 := by
    simp only [← zpow_natCast, ← zpow_add₀ (two_ne_zero : (2 : ℚ) ≠ 0)]
    congr 1
    simp only [e]
    push_cast
    ring
  have pos : (0 : ℚ) < 2 ^ e := zpow_pos two_pos e
  constructor
  · rw [le_div_iff₀ posℚ]
    calc (2 : ℚ) ^ 52 * 2 ^ e * d ≤ 2 ^ 52 * 2 ^ e * 2 ^ (d.log2 + 1) := by gcongr
      _ = 2 ^ n.log2 := by rw [← unit]; ring
      _ ≤ n := nlow
  · rw [div_lt_iff₀ posℚ]
    calc (n : ℚ) < 2 ^ (n.log2 + 1) := nhigh
      _ = 2 ^ 54 * 2 ^ e * 2 ^ d.log2 := by rw [pow_succ, ← unit]; ring
      _ ≤ 2 ^ 54 * 2 ^ e * d := by gcongr

theorem scaledBy_scale (posn : 0 < n) (posd : 0 < d) : ScaledBy (n / d) (scale n d) := by
  obtain ⟨low, high⟩ := log2_bounds posn posd
  rw [scale]
  generalize (n.log2 : Int) - d.log2 - 53 = e at low high ⊢
  have denominator : (0 : ℚ) < (d <<< e.toNat : ℕ) := by
    rw [Nat.shiftLeft_eq]
    positivity
  have fits : n <<< (-e).toNat < (d <<< e.toNat) <<< 53 ↔ (n / d : ℚ) < 2 ^ 53 * 2 ^ e := by
    rw [← div_lt_iff₀ (zpow_pos two_pos e), ← shiftLeft_div_shiftLeft, div_lt_iff₀ denominator,
      Nat.shiftLeft_eq _ 53, mul_comm (2 ^ 53 : ℚ)]
    norm_cast
  -- Whichever of the two exponents is chosen, the least one replaces it if it is less than that.
  obtain ⟨f, chosen, lt, le⟩ : ∃ f : Int,
      (if n <<< (-e).toNat < (d <<< e.toNat) <<< 53 then e else e + 1) = f ∧
        (n / d : ℚ) < 2 ^ 53 * 2 ^ f ∧ (2 : ℚ) ^ 52 * 2 ^ f ≤ n / d := by
    split
    · next less => exact ⟨e, rfl, fits.mp less, low⟩
    · next more =>
      have more := not_lt.mp (fits.not.mp more)
      refine ⟨e + 1, rfl, ?_, ?_⟩ <;> rw [zpow_add_one₀ two_ne_zero] <;> linarith
  rw [chosen]
  rcases le_total f minExponent with least | greater
  · rw [max_eq_left least]
    have unit : (2 : ℚ) ^ f ≤ 2 ^ minExponent := zpow_le_zpow_right₀ one_le_two least
    exact ⟨le_rfl, by linarith, .inl rfl⟩
  · rw [max_eq_right greater]
    exact ⟨greater, lt, .inr le⟩

/-- The integer nearest to a fraction is half of one away at most, and is even if it is. -/
theorem nearest_error (n : Nat) (pos : 0 < d) :
    |(nearest n d : ℚ) - n / d| ≤ 1 / 2 ∧
      (|(nearest n d : ℚ) - n / d| = 1 / 2 → Even (nearest n d)) := by
  have posℚ : (0 : ℚ) < d := Nat.cast_pos.mpr pos
  obtain ⟨q, r, lt, rfl⟩ : ∃ q r, r < d ∧ n = d * q + r :=
    ⟨n / d, n % d, Nat.mod_lt n pos, (Nat.div_add_mod n d).symm⟩
  have quotient : (d * q + r) / d = q := by
    rw [Nat.mul_add_div pos, Nat.div_eq_of_lt lt, Nat.add_zero]
  have remainder : (d * q + r) % d = r := by
    rw [Nat.mul_add_mod, Nat.mod_eq_of_lt lt]
  have parts : ((d * q + r : ℕ) : ℚ) / d = q + r / d := by
    push_cast
    field_simp
  have nonneg : (0 : ℚ) ≤ r / d := by positivity
  rw [nearest, quotient, remainder, parts]
  split
  · next below =>
    have below : (r : ℚ) / d < 1 / 2 := by
      rw [div_lt_div_iff₀ posℚ two_pos]
      exact_mod_cast (by omega : r * 2 < 1 * d)
    rw [sub_add_cancel_left, abs_neg, abs_of_nonneg nonneg]
    exact ⟨below.le, fun tie => absurd tie below.ne⟩
  · split
    · next above =>
      have above : 1 / 2 < (r : ℚ) / d := by
        rw [div_lt_div_iff₀ two_pos posℚ]
        exact_mod_cast (by omega : 1 * d < r * 2)
      have less : (r : ℚ) / d < 1 := by
        rw [div_lt_one posℚ]
        exact_mod_cast lt
      have error : |((q + 1 : ℕ) : ℚ) - (q + r / d)| = 1 - r / d := by
        rw [abs_of_nonneg] <;> push_cast <;> linarith
      rw [error]
      exact ⟨by linarith, fun tie => by linarith⟩
    · have tie : (r : ℚ) / d = 1 / 2 := by
        rw [div_eq_div_iff posℚ.ne' two_ne_zero]
        exact_mod_cast (by omega : r * 2 = 1 * d)
      refine ⟨?_, fun _ => ?_⟩
      · rw [tie, abs_le]
        rcases Nat.mod_two_eq_zero_or_one q with even | odd
        · rw [even]
          constructor <;> push_cast <;> linarith
        · rw [odd]
          constructor <;> push_cast <;> linarith
      · rw [Nat.even_iff]
        omega

/-- `m` is the whole number of units `2 ^ e` nearest to `q`, and the even one of two. -/
structure NearestUnits (q : ℚ) (e : Int) (m : Nat) : Prop extends ScaledBy q e where
  near : |(m : ℚ) - q / 2 ^ e| ≤ 1 / 2
  even : |(m : ℚ) - q / 2 ^ e| = 1 / 2 → Even m

theorem abs_units_sub (m q : ℚ) (e : Int) : |m * 2 ^ e - q| = |m - q / 2 ^ e| * 2 ^ e := by
  have pos : (0 : ℚ) < 2 ^ e := zpow_pos two_pos e
  rw [← abs_of_pos pos, ← abs_mul, sub_mul, abs_of_pos pos, div_mul_cancel₀ q pos.ne']

/-- A rational number that is a whole number of units `2 ^ e`, or that may lie between them because
it is below `2 ^ 52` of them. -/
def OnGrid (e : Int) (v : ℚ) : Prop :=
  (∃ k : Int, v = k * 2 ^ e) ∨ e ≠ minExponent ∧ |v| < 2 ^ 52 * 2 ^ e

theorem OnGrid.sign_mul (h : OnGrid e v) (x : Binary64) : OnGrid e (x.sign * v) := by
  refine h.imp ?_ fun ⟨finer, small⟩ => ⟨finer, by rwa [abs_sign_mul]⟩
  rintro ⟨k, rfl⟩
  rw [sign]
  split
  · exact ⟨-k, by push_cast; ring⟩
  · exact ⟨k, one_mul _⟩

theorem Normal.onGrid (h : x.Normal) (e : Int) : OnGrid e x.value := by
  apply OnGrid.sign_mul
  rcases le_or_gt e x.exponent with le | lt
  · left
    refine ⟨(x.significand * 2 ^ (x.exponent - e).toNat : ℕ), ?_⟩
    have split : (2 : ℚ) ^ x.exponent = 2 ^ (x.exponent - e).toNat * 2 ^ e := by
      rw [← zpow_natCast, ← zpow_add₀ two_ne_zero]
      congr 1
      omega
    rw [magnitude, split]
    push_cast
    ring
  · right
    refine ⟨by have := h.min_le; omega, ?_⟩
    have bits : (x.significand : ℚ) < 2 ^ 53 := by exact_mod_cast h.lt
    rw [abs_of_nonneg x.magnitude_nonneg, magnitude]
    calc (x.significand : ℚ) * 2 ^ x.exponent < 2 ^ 53 * 2 ^ x.exponent :=
          mul_lt_mul_of_pos_right bits (zpow_pos two_pos _)
      _ = 2 ^ 52 * 2 ^ (x.exponent + 1) := by rw [zpow_add_one₀ two_ne_zero]; ring
      _ ≤ 2 ^ 52 * 2 ^ e := by
        have coarser : (2 : ℚ) ^ (x.exponent + 1) ≤ 2 ^ e := zpow_le_zpow_right₀ one_le_two lt
        linarith

namespace NearestUnits

/-- Rounding gives fifty-three bits like the quotient has, or one more. -/
theorem bits (h : NearestUnits q e m) : m ≤ 2 ^ 53 ∧ (e = minExponent ∨ 2 ^ 52 ≤ m) := by
  have pos : (0 : ℚ) < 2 ^ e := zpow_pos two_pos e
  obtain ⟨above, below⟩ := abs_le.mp h.near
  constructor
  · have lt : q / 2 ^ e < 2 ^ 53 := (div_lt_iff₀ pos).mpr h.lt
    have lt : (m : ℚ) < (2 ^ 53 + 1 : ℕ) := by push_cast; linarith
    exact Nat.le_of_lt_succ (Nat.cast_lt.mp lt)
  · refine h.full.imp_right fun full => ?_
    have le : 2 ^ 52 ≤ q / 2 ^ e := (le_div_iff₀ pos).mpr full
    have lt : ((2 ^ 52 : ℕ) : ℚ) < (m + 1 : ℕ) := by push_cast; linarith
    exact Nat.le_of_lt_succ (Nat.cast_lt.mp lt)

theorem error (h : NearestUnits q e m) : |m * 2 ^ e - q| ≤ 2 ^ e / 2 := by
  have scaled := mul_le_mul_of_nonneg_right h.near (zpow_pos two_pos e).le
  rw [abs_units_sub]
  linarith

/-- No other whole number of units is nearer. -/
theorem le_of_whole (h : NearestUnits q e m) (k : Int) :
    |m * 2 ^ e - q| ≤ |k * 2 ^ e - q| ∧
      ((k : ℚ) * 2 ^ e ≠ m * 2 ^ e → |k * 2 ^ e - q| = |m * 2 ^ e - q| → Even m) := by
  have pos : (0 : ℚ) < 2 ^ e := zpow_pos two_pos e
  by_cases same : k = m
  · rw [same, Int.cast_natCast]
    exact ⟨le_rfl, fun other => absurd rfl other⟩
  · have apart : (1 : ℚ) ≤ |(k : ℚ) - m| := by
      exact_mod_cast Int.one_le_abs (sub_ne_zero.mpr same)
    have triangle := abs_sub_le (k : ℚ) (q / 2 ^ e) m
    have near := h.near
    rw [abs_sub_comm (q / 2 ^ e)] at triangle
    rw [abs_units_sub, abs_units_sub]
    constructor
    · exact mul_le_mul_of_nonneg_right (by linarith) pos.le
    · intro _ tie
      have tie := mul_right_cancel₀ pos.ne' tie
      exact h.even (by linarith)

/-- No number that the format may have is nearer. -/
theorem le_of_onGrid (h : NearestUnits q e m) (grid : OnGrid e v) :
    |m * 2 ^ e - q| ≤ |v - q| ∧
      (v ≠ m * 2 ^ e → |v - q| = |m * 2 ^ e - q| → Even m) := by
  rcases grid with ⟨k, rfl⟩ | ⟨finer, small⟩
  · exact h.le_of_whole k
  · -- The least whole number of fifty-three bits lies between `v` and the quotient.
    have low : 2 ^ 52 * 2 ^ e ≤ q := h.full.resolve_left finer
    have nearer := (h.le_of_whole (2 ^ 52)).1
    have less := (abs_lt.mp small).2
    rw [Int.cast_pow, Int.cast_ofNat, abs_sub_comm (2 ^ 52 * 2 ^ e) q,
      abs_of_nonneg (sub_nonneg.mpr low)] at nearer
    rw [abs_sub_comm v, abs_of_nonneg (by linarith : 0 ≤ q - v)]
    exact ⟨by linarith, fun _ tie => by linarith⟩

end NearestUnits

/-! ## Numbers of units -/

/-- The number of `m` units `2 ^ e`, where one bit too many is carried. -/
def ofUnits (negative : Bool) (m : Nat) (e : Int) : Binary64 :=
  if m = 2 ^ 53 then { negative, significand := 2 ^ 52, exponent := e + 1 }
  else { negative, significand := m, exponent := e }

@[simp] theorem magnitude_ofUnits (negative : Bool) (m : Nat) (e : Int) :
    (ofUnits negative m e).magnitude = m * 2 ^ e := by
  rw [ofUnits, magnitude]
  split
  · next carry =>
    rw [carry]
    dsimp only
    rw [zpow_add_one₀ two_ne_zero]
    push_cast
    ring
  · rfl

theorem exponent_ofUnits (negative : Bool) (m : Nat) (e : Int) :
    (ofUnits negative m e).exponent = if m = 2 ^ 53 then e + 1 else e := by
  rw [ofUnits]
  split <;> rfl

theorem even_ofUnits (e : Int) (even : Even m) : Even (ofUnits negative m e).significand := by
  rw [ofUnits]
  split
  · exact Nat.even_pow.mpr ⟨even_two, by decide⟩
  · exact even

theorem NearestUnits.normal (h : NearestUnits q e m)
    (le_max : (ofUnits negative m e).exponent ≤ maxExponent) : (ofUnits negative m e).Normal := by
  obtain ⟨le, full⟩ := h.bits
  rw [ofUnits] at le_max ⊢
  split at le_max
  · next carry =>
    have bits : 2 ^ 52 < 2 ^ 53 := by decide
    rw [if_pos carry]
    exact ⟨h.min_le.trans (Int.le_of_lt (Int.lt_succ e)), le_max, bits, .inr le_rfl⟩
  · next whole =>
    rw [if_neg whole]
    exact ⟨h.min_le, le_max, lt_of_le_of_ne le whole, full⟩

/-- A bit too many comes from half a unit below `2 ^ 53` units on. -/
theorem NearestUnits.carries_iff (h : NearestUnits q e m) :
    m = 2 ^ 53 ↔ 2 ^ 53 - 1 / 2 ≤ q / 2 ^ e := by
  obtain ⟨above, below⟩ := abs_le.mp h.near
  constructor
  · rintro rfl
    push_cast at below
    linarith
  · intro far
    by_contra other
    -- The greatest number of fifty-three bits is odd, so that half a unit is not left to it.
    have less : m + 1 ≤ 2 ^ 53 := by have := h.bits.1; omega
    have lessℚ : (m : ℚ) + 1 ≤ 2 ^ 53 := by exact_mod_cast less
    have tie : |(m : ℚ) - q / 2 ^ e| = 1 / 2 := by
      rw [abs_of_nonpos] <;> linarith
    have lt : ((2 ^ 53 : ℕ) : ℚ) < (m + 2 : ℕ) := by push_cast; linarith
    have lt := Nat.cast_lt.mp lt
    have even := Nat.even_iff.mp (h.even tie)
    omega

/-- The exponent of what was rounded is too great from half a unit below `2 ^ 1024` on. -/
theorem NearestUnits.maxExponent_lt_iff (h : NearestUnits q e m) (negative : Bool) :
    maxExponent < (ofUnits negative m e).exponent ↔ (2 ^ 53 - 1 / 2) * 2 ^ maxExponent ≤ q := by
  have unit : (0 : ℚ) < 2 ^ maxExponent := zpow_pos two_pos _
  rw [exponent_ofUnits]
  rcases lt_trichotomy e maxExponent with less | rfl | greater
  · have below : (2 : ℚ) ^ (e + 1) ≤ 2 ^ maxExponent := zpow_le_zpow_right₀ one_le_two less
    have lt := h.lt
    rw [zpow_add_one₀ two_ne_zero] at below
    constructor
    · intro beyond
      split at beyond <;> omega
    · intro far
      linarith
  · rw [← le_div_iff₀ unit, ← h.carries_iff]
    split <;> omega
  · have above : (2 : ℚ) ^ (maxExponent + 1) ≤ 2 ^ e := zpow_le_zpow_right₀ one_le_two greater
    have finer : e ≠ minExponent := ne_of_gt (lt_trans (by decide) greater)
    have full := h.full.resolve_left finer
    rw [zpow_add_one₀ two_ne_zero] at above
    constructor
    · intro
      linarith
    · intro
      split <;> omega

/-- A quotient is rounded to a whole number of units and refused if that is out of range. -/
theorem ofRatio?_eq (negative : Bool) (n : Nat) (pos : 0 < d) : ∃ e m,
    NearestUnits (n / d) e m ∧ ofRatio? negative n d =
      if (ofUnits negative m e).exponent ≤ maxExponent then some (ofUnits negative m e)
      else none := by
  rcases Nat.eq_zero_or_pos n with rfl | posn
  · have unit : (0 : ℚ) < 2 ^ minExponent := zpow_pos two_pos _
    refine ⟨minExponent, 0, ⟨⟨le_rfl, ?_, .inl rfl⟩, ?_, fun _ => Even.zero⟩, rfl⟩
    · rw [Nat.cast_zero, zero_div]
      positivity
    · rw [Nat.cast_zero, zero_div, zero_div, sub_zero, abs_zero]
      positivity
  · have posd : 0 < d <<< (scale n d).toNat := by
      rw [Nat.shiftLeft_eq]
      positivity
    obtain ⟨near, even⟩ := nearest_error (n <<< (-scale n d).toNat) posd
    rw [shiftLeft_div_shiftLeft] at near even
    refine ⟨_, _, ⟨scaledBy_scale posn pos, near, even⟩, ?_⟩
    rw [ofRatio?, if_neg posn.ne']
    rfl

/-- A quotient is refused from half a unit below `2 ^ 1024` on. -/
theorem ofRatio?_eq_none_iff (negative : Bool) (n : Nat) (pos : 0 < d) :
    ofRatio? negative n d = none ↔ (2 ^ 54 - 1) * 2 ^ 970 * d ≤ n := by
  obtain ⟨e, m, units, eq⟩ := ofRatio?_eq negative n pos
  have posℚ : (0 : ℚ) < d := Nat.cast_pos.mpr pos
  have refused : ofRatio? negative n d = none ↔
      maxExponent < (ofUnits negative m e).exponent := by
    simp [eq]
  have unit : (2 : ℚ) ^ maxExponent = 2 * (2 ^ 970 : ℕ) := by
    rw [Nat.cast_pow, Nat.cast_ofNat, ← pow_succ']
    exact zpow_natCast 2 971
  rw [refused, units.maxExponent_lt_iff, unit, le_div_iff₀ posℚ]
  generalize 2 ^ 970 = t
  have limit : ((2 : ℚ) ^ 53 - 1 / 2) * (2 * t) * d = ((2 ^ 54 - 1) * t * d : ℕ) := by
    push_cast
    ring
  rw [limit, Nat.cast_le]

/-! ## Quotients with a sign -/

section Quotient

variable {n : Int}

theorem negative_of_ofRatio? {negative : Bool} {n d : Nat} {x : Binary64}
    (h : ofRatio? negative n d = some x) : x.negative = negative := by
  rw [ofRatio?] at h
  split at h
  · cases h
    rfl
  · dsimp only at h
    split at h <;> split at h <;> cases h <;> rfl

theorem signed_natAbs (h : ofQuotient? n d = some x) : x.signed n.natAbs = n := by
  rw [signed, negative_of_ofRatio? h]
  split
  · next negative =>
    have negative := of_decide_eq_true negative
    omega
  · next nonneg =>
    have nonneg := of_decide_eq_false (eq_false_of_ne_true nonneg)
    omega

/-- What a quotient is rounded to, without its sign. -/
theorem units_of_ofQuotient? (pos : 0 < d) (h : ofQuotient? n d = some x) : ∃ e m,
    NearestUnits (n.natAbs / d) e m ∧ x.magnitude = m * 2 ^ e ∧ x.Normal ∧
      (Even m → Even x.significand) := by
  obtain ⟨e, m, units, eq⟩ := ofRatio?_eq (n < 0) n.natAbs pos
  rw [ofQuotient?, eq] at h
  split at h
  · next le_max =>
    cases h
    exact ⟨e, m, units, magnitude_ofUnits .., units.normal le_max, even_ofUnits e⟩
  · cases h

/-- A quotient is rounded to the nearest number of the format, and of two to the even one. -/
theorem rounds_of_ofQuotient? (pos : 0 < d) (h : ofQuotient? n d = some x) :
    x.Rounds (n / d) := by
  obtain ⟨e, m, units, magnitude, normal, even⟩ := units_of_ofQuotient? pos h
  have quotient : (n : ℚ) = x.sign * n.natAbs := by rw [← cast_signed, signed_natAbs h]
  -- Distances are the same without the sign of the quotient.
  have unsigned (v : ℚ) : |v - n / d| = |x.sign * v - n.natAbs / d| := by
    rw [quotient, ← abs_sign_mul x (v - _), mul_sub, mul_div_assoc, sign_mul_sign_mul]
  have value : x.sign * x.value = m * 2 ^ e := by rw [value, sign_mul_sign_mul, magnitude]
  have nearest (y : Binary64) (normal : y.Normal) :=
    units.le_of_onGrid ((normal.onGrid e).sign_mul x)
  refine ⟨normal, fun y normal => ?_, fun y normal other tie => ?_⟩
  · rw [unsigned, unsigned, value]
    exact (nearest y normal).1
  · rw [unsigned, unsigned, value] at tie
    refine even ((nearest y normal).2 (fun same => other ?_) tie)
    rw [← sign_mul_sign_mul x y.value, same, ← value, sign_mul_sign_mul]

end Quotient

/-! ## Cutting -/

/-- A quotient below `2 ^ 53` has a unit of one or less, so that every integer is a whole number
of units. -/
theorem ScaledBy.nonpos (h : ScaledBy q e) (small : q < 2 ^ 53) : e ≤ 0 := by
  rcases h.full with least | full
  · rw [least]
    decide
  · by_contra positive
    have unit : (2 : ℚ) ^ (1 : Int) ≤ 2 ^ e := zpow_le_zpow_right₀ one_le_two (by omega)
    rw [zpow_one] at unit
    linarith

/-- The next integer is further away than half a unit. -/
theorem ScaledBy.half_lt (h : ScaledBy (n / d) e) (pos : 0 < d) (small : n < 2 ^ 53) :
    (n / d : ℚ) + 2 ^ e / 2 < (n / d : ℕ) + 1 := by
  have posℚ : (0 : ℚ) < d := Nat.cast_pos.mpr pos
  rcases h.full with rfl | full
  · -- Of the least unit even `2 ^ 53` are almost nothing, and the next integer is one.
    have below := h.lt
    have tiny : (2 : ℚ) ^ minExponent ≤ 2 ^ (-60 : Int) :=
      zpow_le_zpow_right₀ one_le_two (by decide)
    have whole : (0 : ℚ) ≤ (n / d : ℕ) := Nat.cast_nonneg _
    norm_num at tiny
    linarith
  · -- The next integer is at least one part of `d` away, and a unit is less than two of them.
    have next : (n / d : ℚ) + 1 / d ≤ (n / d : ℕ) + 1 := by
      rw [← add_div, div_le_iff₀ posℚ]
      exact_mod_cast Nat.lt_mul_of_div_lt (Nat.lt_succ_self (n / d)) pos
    have part : (n / d : ℚ) < 2 ^ 53 * (1 / d) := by
      rw [mul_one_div]
      exact div_lt_div_of_pos_right (by exact_mod_cast small) posℚ
    linarith

/-- A quotient whose numerator has at most fifty-three bits has the same integer before its point
as what it is rounded to. -/
theorem NearestUnits.floor_eq (h : NearestUnits (n / d) e m) (pos : 0 < d) (small : n < 2 ^ 53) :
    ⌊(m * 2 ^ e : ℚ)⌋₊ = n / d := by
  have low : ((n / d : ℕ) : ℚ) ≤ n / d := Nat.cast_div_le
  have smallℚ : (n / d : ℚ) < 2 ^ 53 := by
    calc (n / d : ℚ) ≤ n := div_le_self (Nat.cast_nonneg n) (Nat.one_le_cast.mpr pos)
      _ < 2 ^ 53 := by exact_mod_cast small
  have nonpos := h.nonpos smallℚ
  have whole : ((n / d * 2 ^ (-e).toNat : Int) : ℚ) * 2 ^ e = (n / d : ℕ) := by
    have cancel : (2 : ℚ) ^ (-e).toNat * 2 ^ e = 1 := by
      rw [← zpow_natCast, ← zpow_add₀ two_ne_zero, Int.toNat_of_nonneg (by omega),
        neg_add_cancel, zpow_zero]
    push_cast
    rw [mul_assoc, cancel, mul_one]
    norm_cast
  rw [Nat.floor_eq_iff (mul_nonneg (Nat.cast_nonneg m) (zpow_pos two_pos e).le)]
  constructor
  · -- The integer itself is not nearer than what was rounded to.
    have nearer := (h.le_of_whole (n / d * 2 ^ (-e).toNat)).1
    rw [whole, abs_sub_comm _ (n / d : ℚ), abs_sub_comm _ (n / d : ℚ),
      abs_of_nonneg (sub_nonneg.mpr low)] at nearer
    have := le_of_abs_le nearer
    linarith
  · have error := le_of_abs_le h.error
    have next := h.half_lt pos small
    linarith

/-- A numerator of at most fifty-three bits is divided as exactly as integers are. -/
theorem truncate_of_ofQuotient? {n : Int} (pos : 0 < d) (small : n.natAbs < 2 ^ 53)
    (h : ofQuotient? n d = some x) : x.truncate = n.tdiv d := by
  obtain ⟨e, m, units, magnitude, -, -⟩ := units_of_ofQuotient? pos h
  rw [truncate_eq_signed, magnitude, units.floor_eq pos small, ← tdiv_signed, signed_natAbs h]

end Binary64

end ChipEight
