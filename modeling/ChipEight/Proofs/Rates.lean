import ChipEight.Proofs.Rounding
import ChipEight.SpeedMeter

/-!
# Rates

A meter adds up the milliseconds of the samples it is shown. As soon as they make a second it
reports how much the count grew per second, and starts the next span: a refresh. A course records
what a meter does with a list of samples, which are its refreshes and what it was shown since the
last one (`SpeedMeter.Course`).

Of all this a meter keeps a sum and a count, and these suffice: no growth is lost and none is counted
twice. The rate is a rounded quotient that is cut to an integer, and still it is the exact quotient of
integers if its numerator fits in fifty-three bits (`SpeedMeter.rates_of_samples`).

A rate beyond the binary numbers cannot be reported. The samples make a second then, and there is no
refresh until one can be made (`SpeedMeter.no_refresh_of_vast_growth`). For the counts of a console
this is out of reach (`SpeedMeter.WellFormed.update_eq`).
-/

namespace ChipEight

namespace SpeedMeter

/-! ## Samples -/

/-- What a meter is shown at once. -/
structure Sample where
  /-- The milliseconds that have passed. -/
  elapsed : Int
  /-- The count that was reached. -/
  count : Int

/-- The milliseconds of samples together. -/
def duration (samples : List Sample) : Int := (samples.map Sample.elapsed).sum

theorem duration_concat (samples : List Sample) (sample : Sample) :
    duration (samples ++ [sample]) = duration samples + sample.elapsed := by
  simp only [duration, List.map_append, List.map_cons, List.map_nil, List.sum_append,
    List.sum_singleton]

/-- The sample makes the meter start the next span, instead of adding the milliseconds to this
one. -/
def refreshes (s : SpeedMeter) (sample : Sample) : Bool :=
  (s.update sample.elapsed sample.count).1.elapsed ≠ s.elapsed + sample.elapsed

/-- What a meter saw at a refresh. -/
structure Refresh where
  /-- The count it was shown. -/
  count : Int
  /-- The growth from the count that it had kept. -/
  growth : Int

/-- A meter, and what it did with the samples that it was shown. -/
structure Course where
  meter : SpeedMeter
  refreshes : List Refresh := []
  /-- The samples since the last refresh. -/
  since : List Sample := []

/-- Shows the meter another sample. -/
def Course.next (c : Course) (sample : Sample) : Course :=
  let meter := (c.meter.update sample.elapsed sample.count).1
  if c.meter.refreshes sample then
    let refresh := { count := sample.count, growth := sample.count - c.meter.lastCount }
    { meter, refreshes := c.refreshes ++ [refresh] }
  else { c with meter, since := c.since ++ [sample] }

/-- What a meter that starts at a count does with samples. -/
def course (first : Int) (samples : List Sample) : Course :=
  samples.foldl Course.next { meter := startingAt first }

/-! ## What one sample does -/

/-- The rate is below where rounding leaves the binary numbers. This is half of the last step below
`2 ^ 1024`. -/
def Reportable (growth span : Int) : Prop := |growth * 1000| < (2 ^ 54 - 1) * 2 ^ 970 * span

section Rate

variable {growth span rate : Int}

theorem rate?_eq_none_iff (due : 1000 ≤ span) :
    rate? growth span = none ↔ ¬ Reportable growth span := by
  have pos : 0 < span.toNat := by omega
  have whole : (span.toNat : Int) = span := Int.toNat_of_nonneg (by omega)
  have limit : ((2 ^ 54 - 1) * 2 ^ 970 * span.toNat : ℕ) = (2 ^ 54 - 1) * 2 ^ 970 * span := by
    have bits : ((2 ^ 54 - 1 : ℕ) : Int) = 2 ^ 54 - 1 := by decide
    rw [Nat.cast_mul, Nat.cast_mul, Nat.cast_pow, Nat.cast_ofNat, bits, whole]
  rw [rate?, Option.map_eq_none_iff, Binary64.ofQuotient?, Binary64.ofRatio?_eq_none_iff _ _ pos,
    Reportable, not_lt, Int.abs_eq_natAbs, ← limit, Int.ofNat_le]

theorem rounds_of_rate? (due : 1000 ≤ span) (reported : rate? growth span = some rate) :
    ∃ x : Binary64, x.Rounds (growth * 1000 / span) ∧ rate = Binary64.towardsZero x.value := by
  have pos : 0 < span.toNat := by omega
  have whole : ((span.toNat : ℕ) : ℚ) = span := by
    exact_mod_cast Int.toNat_of_nonneg (by omega : 0 ≤ span)
  rw [rate?, Option.map_eq_some_iff] at reported
  obtain ⟨x, rounded, rfl⟩ := reported
  have rounds := Binary64.rounds_of_ofQuotient? pos rounded
  rw [whole, Int.cast_mul, Int.cast_ofNat] at rounds
  exact ⟨x, rounds, x.truncate_eq_towardsZero⟩

theorem reportable_of_small (due : 1000 ≤ span) (small : |growth * 1000| < 2 ^ 53) :
    Reportable growth span := by
  have step : (1 : Int) ≤ 2 ^ 970 * span :=
    one_le_mul_of_one_le_of_one_le (one_le_pow₀ (by decide)) (by omega)
  calc |growth * 1000| < 2 ^ 54 - 1 := small.trans (by decide)
    _ ≤ (2 ^ 54 - 1) * (2 ^ 970 * span) := le_mul_of_one_le_right (by decide) step
    _ = (2 ^ 54 - 1) * 2 ^ 970 * span := (mul_assoc ..).symm

/-- A count from zero would have to grow beyond a thousand bits to show a rate that cannot be
reported. -/
theorem reportable_of_lt (due : 1000 ≤ span) (grown : 0 ≤ growth) (small : growth < 2 ^ 1023) :
    Reportable growth span := by
  have bits : growth < 2 ^ 53 * 2 ^ 970 := small.trans_eq (pow_add 2 53 970)
  have unit : (0 : Int) < 2 ^ 970 := by positivity
  have step : (2 : Int) ^ 970 * 1000 ≤ 2 ^ 970 * span := mul_le_mul_of_nonneg_left due unit.le
  rw [Reportable, abs_of_nonneg (by omega), mul_assoc (2 ^ 54 - 1)]
  generalize (2 : Int) ^ 970 = t at bits unit step ⊢
  omega

theorem rate?_of_small (due : 1000 ≤ span) (small : |growth * 1000| < 2 ^ 53) :
    rate? growth span = some ((growth * 1000).tdiv span) := by
  have pos : 0 < span.toNat := by omega
  have bits : (growth * 1000).natAbs < 2 ^ 53 := by
    rw [Int.abs_eq_natAbs] at small
    exact_mod_cast small
  cases reported : rate? growth span with
  | none => exact absurd (reportable_of_small due small) ((rate?_eq_none_iff due).mp reported)
  | some rate =>
    rw [rate?, Option.map_eq_some_iff] at reported
    obtain ⟨x, rounded, rfl⟩ := reported
    rw [Binary64.truncate_of_ofQuotient? pos bits rounded, Int.toNat_of_nonneg (by omega)]

end Rate

variable {s : SpeedMeter} {sample : Sample}

/-- A sample is added to the span, unless it makes a second of it and the rate can be reported. If
only that is missing the meter says so. -/
theorem update_cases (s : SpeedMeter) (sample : Sample) :
    let span := s.elapsed + sample.elapsed
    let growth := sample.count - s.lastCount
    let done := s.update sample.elapsed sample.count
    span < 1000 ∧ done = ({ s with elapsed := span }, true) ∨
    1000 ≤ span ∧ ¬ Reportable growth span ∧ done = ({ s with elapsed := span }, false) ∨
    1000 ≤ span ∧ Reportable growth span ∧ ∃ rate, rate? growth span = some rate ∧
      done = ({ elapsed := 0, lastCount := sample.count, perSecond := rate }, true) := by
  intro span growth done
  by_cases short : span < 1000
  · exact .inl ⟨short, if_pos short⟩
  · have due := Int.not_lt.mp short
    right
    cases reported : rate? growth span with
    | none =>
      have kept : done = ({ s with elapsed := span }, false) := by
        simp only [done, update]
        rw [if_neg short, reported]
      exact .inl ⟨due, (rate?_eq_none_iff due).mp reported, kept⟩
    | some rate =>
      have renewed :
          done = ({ elapsed := 0, lastCount := sample.count, perSecond := rate }, true) := by
        simp only [done, update]
        rw [if_neg short, reported]
      refine .inr ⟨due, ?_, rate, rfl, renewed⟩
      by_contra beyond
      rw [(rate?_eq_none_iff due).mpr beyond] at reported
      cases reported

/-- There is a refresh if the span is a second and the rate can be reported. -/
theorem refreshes_iff (s : SpeedMeter) (sample : Sample) :
    s.refreshes sample = true ↔ 1000 ≤ s.elapsed + sample.elapsed ∧
      Reportable (sample.count - s.lastCount) (s.elapsed + sample.elapsed) := by
  rw [refreshes, decide_eq_true_eq]
  rcases update_cases s sample with
    ⟨short, done⟩ | ⟨due, beyond, done⟩ | ⟨due, reportable, rate, reported, done⟩ <;> rw [done]
  · have : ¬ 1000 ≤ s.elapsed + sample.elapsed := by omega
    simp [this]
  · simp [beyond]
  · have : (0 : Int) ≠ s.elapsed + sample.elapsed := by omega
    simp [this, due, reportable]

/-- The meter says that a refresh was due if the span is a second and the rate cannot be
reported. -/
theorem update_fails_iff (s : SpeedMeter) (sample : Sample) :
    (s.update sample.elapsed sample.count).2 = false ↔ 1000 ≤ s.elapsed + sample.elapsed ∧
      ¬ Reportable (sample.count - s.lastCount) (s.elapsed + sample.elapsed) := by
  rcases update_cases s sample with
    ⟨short, done⟩ | ⟨due, beyond, done⟩ | ⟨due, reportable, rate, reported, done⟩ <;> rw [done]
  · have : ¬ 1000 ≤ s.elapsed + sample.elapsed := by omega
    simp [this]
  · simp [due, beyond]
  · simp [reportable]

theorem elapsed_lt_of_update (answered : (s.update sample.elapsed sample.count).2 = true) :
    (s.update sample.elapsed sample.count).1.elapsed < 1000 := by
  rcases update_cases s sample with
    ⟨short, done⟩ | ⟨due, beyond, done⟩ | ⟨due, reportable, rate, reported, done⟩ <;>
    rw [done] at answered ⊢
  · exact short
  · cases answered
  · exact (by decide : (0 : Int) < 1000)

/-- Without a refresh the milliseconds are added up, and nothing else. -/
theorem update_of_not_refreshes (h : s.refreshes sample = false) :
    (s.update sample.elapsed sample.count).1 = { s with elapsed := s.elapsed + sample.elapsed } := by
  have no := (refreshes_iff s sample).not.mp (ne_true_of_eq_false h)
  rcases update_cases s sample with ⟨-, done⟩ | ⟨-, -, done⟩ | ⟨due, reportable, -⟩
  · rw [done]
  · rw [done]
  · exact absurd ⟨due, reportable⟩ no

/-- A refresh reports a rate and starts the next span at the count that was shown. -/
theorem update_of_refreshes (h : s.refreshes sample = true) : ∃ rate,
    rate? (sample.count - s.lastCount) (s.elapsed + sample.elapsed) = some rate ∧
      s.update sample.elapsed sample.count =
        ({ elapsed := 0, lastCount := sample.count, perSecond := rate }, true) := by
  obtain ⟨due, reportable⟩ := (refreshes_iff s sample).mp h
  rcases update_cases s sample with ⟨short, -⟩ | ⟨-, beyond, -⟩ | ⟨-, -, updated⟩
  · omega
  · exact absurd reportable beyond
  · exact updated

/-! ## Courses -/

/-- What a meter keeps of its course. -/
structure Course.Kept (first : Int) (c : Course) : Prop where
  elapsed_eq : c.meter.elapsed = duration c.since
  lastCount_eq : c.meter.lastCount = (c.refreshes.getLast?.map Refresh.count).getD first
  sum_growth : (c.refreshes.map Refresh.growth).sum = c.meter.lastCount - first

theorem Course.Kept.next {first : Int} {c : Course} (h : c.Kept first) (sample : Sample) :
    (c.next sample).Kept first := by
  rw [Course.next]
  cases refreshed : c.meter.refreshes sample with
  | true =>
    obtain ⟨rate, -, updated⟩ := update_of_refreshes refreshed
    have grown := h.sum_growth
    simp only [if_true, updated]
    refine ⟨rfl, ?_, ?_⟩
    · simp only [List.getLast?_concat, Option.map_some, Option.getD_some]
    · simp only [List.map_append, List.map_cons, List.map_nil, List.sum_append, List.sum_singleton]
      omega
  | false =>
    have added := update_of_not_refreshes refreshed
    simp only [Bool.false_eq_true, if_false, added]
    refine ⟨?_, h.lastCount_eq, h.sum_growth⟩
    rw [duration_concat, h.elapsed_eq]

theorem Course.Kept.foldl {first : Int} {c : Course} (h : c.Kept first) (samples : List Sample) :
    (samples.foldl Course.next c).Kept first := by
  induction samples generalizing c with
  | nil => exact h
  | cons sample samples ih => exact ih (h.next sample)

theorem kept_course (first : Int) (samples : List Sample) : (course first samples).Kept first :=
  have start : Course.Kept first { meter := startingAt first } :=
    ⟨rfl, rfl, (Int.sub_self first).symm⟩
  start.foldl samples

/-- There is a refresh exactly when the milliseconds of the samples since the last one make a second,
unless the rate cannot be reported; only then the answer is `false`. The rate is the rounded quotient
cut towards zero, and the quotient of integers if its numerator has at most fifty-three bits. The next
span starts at the count that was shown, and the growths of all refreshes add up to that of the
count. -/
theorem rates_of_samples (first : Int) (samples : List Sample) (sample : Sample) :
    let c := course first samples
    let span := duration (c.since ++ [sample])
    let growth := sample.count - c.meter.lastCount
    let done := c.meter.update sample.elapsed sample.count
    (done.2 = true → done.1.elapsed < 1000) ∧
    (done.2 = false ↔ 1000 ≤ span ∧ ¬ Reportable growth span) ∧
    (c.meter.refreshes sample = true ↔ 1000 ≤ span ∧ Reportable growth span) ∧
    (c.meter.refreshes sample = false → done.1 = { c.meter with elapsed := span }) ∧
    (c.meter.refreshes sample = true → ∃ x : Binary64, x.Rounds ((growth : ℚ) * 1000 / span) ∧
      done.1 = { elapsed := 0, lastCount := sample.count,
                 perSecond := Binary64.towardsZero x.value }) ∧
    (1000 ≤ span → |growth * 1000| < 2 ^ 53 →
      done = ({ elapsed := 0, lastCount := sample.count,
                perSecond := (growth * 1000).tdiv span }, true)) ∧
    c.meter.lastCount = (c.refreshes.getLast?.map Refresh.count).getD first ∧
    (c.refreshes.map Refresh.growth).sum = c.meter.lastCount - first := by
  intro c span growth done
  have kept : c.Kept first := kept_course first samples
  have total : span = c.meter.elapsed + sample.elapsed := by
    rw [kept.elapsed_eq]
    exact duration_concat c.since sample
  have refreshes := c.meter.refreshes_iff sample
  have fails := c.meter.update_fails_iff sample
  rw [← total] at refreshes fails
  refine ⟨elapsed_lt_of_update, fails, refreshes, ?_, ?_, ?_, kept.lastCount_eq, kept.sum_growth⟩
  · intro added
    rw [total]
    exact update_of_not_refreshes added
  · intro refreshed
    obtain ⟨rate, reported, updated⟩ := update_of_refreshes refreshed
    rw [← total] at reported
    obtain ⟨x, rounds, rfl⟩ := rounds_of_rate? (refreshes.mp refreshed).1 reported
    refine ⟨x, ?_, congrArg Prod.fst updated⟩
    exact rounds
  · intro due small
    have refreshed := refreshes.mpr ⟨due, reportable_of_small due small⟩
    obtain ⟨rate, reported, updated⟩ := update_of_refreshes refreshed
    rw [← total, rate?_of_small due small] at reported
    cases reported
    exact updated

/-- The numerator has fifty-three bits, and the exact quotient is below an integer by one part of
1001. -/
theorem rates_of_almost_whole_quotient :
    let c := course 0 [⟨400, 7⟩, ⟨600, -5⟩, ⟨999, 12⟩]
    let sample : Sample := ⟨2, 9007199254049⟩
    let span := duration (c.since ++ [sample])
    let growth := sample.count - c.meter.lastCount
    (1000 ≤ span ∧ |growth * 1000| < 2 ^ 53) ∧ growth * 1000 = 8998201053001 * span - 1 ∧
      c.meter.update sample.elapsed sample.count =
        ({ elapsed := 0, lastCount := 9007199254049, perSecond := 8998201053000 }, true) := by
  intro c sample span growth
  have due : 1000 ≤ span := by decide +kernel
  have small : |growth * 1000| < 2 ^ 53 := by decide +kernel
  obtain ⟨-, -, -, -, -, exact, -, -⟩ := rates_of_samples 0 [⟨400, 7⟩, ⟨600, -5⟩, ⟨999, 12⟩] sample
  exact ⟨⟨due, small⟩, by decide +kernel, exact due small⟩

/-- With one bit more it may be rounded to that integer. -/
example : rate? 9033587534583 1027 = some 8796093022963 ∧
    (9033587534583 * 1000 : Int).tdiv 1027 = 8796093022962 := by decide +kernel

/-- A whole second makes no refresh if the count has grown beyond the binary numbers. The milliseconds
are kept, and so is the count before. -/
theorem no_refresh_of_vast_growth :
    let c := course 0 []
    let sample : Sample := ⟨1000, 2 ^ 1024⟩
    let done := c.meter.update sample.elapsed sample.count
    1000 ≤ duration (c.since ++ [sample]) ∧ c.meter.refreshes sample = false ∧
      ¬ done.1.elapsed < 1000 ∧ done.1.lastCount ≠ sample.count := by decide +kernel

end SpeedMeter

end ChipEight
