import ChipEight.Proofs.ConsoleBounds
import Mathlib.Algebra.Order.BigOperators.Group.List
import Mathlib.Algebra.Ring.Int.Defs

/-!
# Slices of time

A host hands over the time that has passed in slices of its own choosing, and every slice is
turned into whole ticks and a remainder. The remainder of one slice is carried to the next, timers
that have stopped at zero stay there, and a sound that has run out does not run out again. So
ticks, remainder, timers and beeps come out as if all the time had passed at once, and depend on
the sum of the slices alone.
-/

namespace ChipEight

namespace Timers

variable (t : Timers) {a b : Int}

/-- Counting down twice is counting down once, since timers that have stopped stay at zero. -/
theorem countDown_countDown (later : 0 ≤ b) :
    (t.countDown a).countDown b = t.countDown (a + b) := by
  simp only [countDown, mk.injEq]
  constructor <;> omega

theorem runsOut_iff : t.runsOut a = true ↔ 0 < t.sound ∧ t.sound ≤ a := by
  rw [runsOut, Bool.and_eq_true, decide_eq_true_eq, decide_eq_true_eq, sound_countDown]
  omega

/-- A sound runs out in the first of two counts, or in the second, but never in both. -/
theorem runsOut_add (first : 0 ≤ a) (second : 0 ≤ b) :
    (if t.runsOut (a + b) then 1 else 0) =
      (if t.runsOut a then 1 else 0) + (if (t.countDown a).runsOut b then 1 else 0) := by
  simp only [runsOut_iff, sound_countDown]
  by_cases now : 0 < t.sound ∧ t.sound ≤ a
  · rw [if_pos now, if_pos (by omega), if_neg (by omega)]
  · by_cases both : 0 < t.sound ∧ t.sound ≤ a + b
    · rw [if_neg now, if_pos both, if_pos (by omega)]
    · rw [if_neg now, if_neg both, if_neg (by omega)]

end Timers

namespace TickClock

/-- Dividing in two parts, with the remainder of the first carried to the second. -/
theorem ediv_add_carry {n k d : Int} (h : d ≠ 0) : n / d + (n % d + k) / d = (n + k) / d := by
  have whole : n + k = n % d + k + d * (n / d) := by
    rw [Int.add_right_comm, Int.emod_add_mul_ediv]
  rw [whole, Int.add_mul_ediv_left _ _ h, Int.add_comm]

/-- What slices of time leave behind together. -/
structure Course where
  clock : TickClock
  timers : Timers
  /-- The ticks of all slices. -/
  ticks : Int := 0
  /-- How often the sound ran out. -/
  beeps : Nat := 0

/-- Lets slices of time pass one after the other, up to the first that is refused. -/
def passAll (c : TickClock) (timers : Timers) : List Int → Except Refusal Course
  | [] => .ok { clock := c, timers }
  | elapsed :: rest => do
    let passage := c.pass timers elapsed
    let ticks ← passage.ticks
    let course ← passage.clock.passAll passage.timers rest
    return { course with
      ticks := ticks + course.ticks
      beeps := (if passage.beeped then 1 else 0) + course.beeps }

variable {c : TickClock} {slices : List Int}

/-- Slices of time are added up and divided once. -/
theorem passAll_eq (nonneg : 0 ≤ c.pending) (lt : c.pending < c.period) (timers : Timers)
    (forward : ∀ elapsed ∈ slices, 0 ≤ elapsed) :
    c.passAll timers slices = .ok
      { clock := { c with pending := (c.pending + slices.sum) % c.period }
        timers := timers.countDown ((c.pending + slices.sum) / c.period)
        ticks := (c.pending + slices.sum) / c.period
        beeps := if timers.runsOut ((c.pending + slices.sum) / c.period) then 1 else 0 } := by
  have period : 0 < c.period := Int.lt_of_le_of_lt nonneg lt
  induction slices generalizing c timers with
  | nil =>
    simp only [List.sum_nil, Int.add_zero, Int.emod_eq_of_lt nonneg lt,
      Int.ediv_eq_zero_of_lt nonneg lt, Timers.countDown_zero, Timers.runsOut_zero, passAll]
    rfl
  | cons elapsed rest ih =>
    have now : 0 ≤ elapsed := forward elapsed List.mem_cons_self
    have later : ∀ elapsed ∈ rest, 0 ≤ elapsed :=
      fun elapsed mem => forward elapsed (List.mem_cons_of_mem _ mem)
    have total : c.pending + (elapsed :: rest).sum = c.pending + elapsed + rest.sum := by
      rw [List.sum_cons, Int.add_assoc]
    let carried : TickClock := { c with pending := (c.pending + elapsed) % c.period }
    have others := ih (c := carried) (Int.emod_nonneg _ (Int.ne_of_gt period))
      (Int.emod_lt_of_pos _ period) (timers.countDown ((c.pending + elapsed) / c.period)) later
      period
    have ticks : (c.pending + elapsed) / c.period + (carried.pending + rest.sum) / c.period =
        (c.pending + elapsed + rest.sum) / c.period :=
      ediv_add_carry (Int.ne_of_gt period)
    have nonneg_rest : 0 ≤ (carried.pending + rest.sum) / c.period := by
      apply Int.ediv_nonneg _ (Int.le_of_lt period)
      exact Int.add_nonneg (Int.emod_nonneg _ (Int.ne_of_gt period)) (List.sum_nonneg later)
    have nonneg_now : 0 ≤ (c.pending + elapsed) / c.period :=
      Int.ediv_nonneg (Int.add_nonneg nonneg now) (Int.le_of_lt period)
    rw [total, ← ticks, timers.runsOut_add nonneg_now nonneg_rest,
      ← timers.countDown_countDown nonneg_rest, ← Int.emod_add_emod]
    simp only [passAll, pass_eq nonneg lt timers now]
    show (carried.passAll _ rest).bind _ = _
    rw [others]
    rfl

/-- Negative time changes nothing. -/
theorem pass_of_negative (c : TickClock) (timers : Timers) {elapsed : Int}
    (backwards : elapsed < 0) :
    c.pass timers elapsed = { clock := c, timers, ticks := .error (.negative elapsed) } :=
  if_pos backwards

end TickClock

/-- Time that the clock refuses does not reach the meter. -/
theorem Console.update_of_negative (c : Console) {elapsed : Int} (backwards : elapsed < 0) :
    c.update elapsed = { state := c, result := .error (.refused (.negative elapsed)) } := by
  simp only [update, TickClock.pass_of_negative _ _ backwards]

namespace TickClock

/-- What slices of time leave behind depends on their sum alone: it is divided by the period, the
timers are counted down by the quotient and the remainder is kept, and the sound runs out once if
the quotient reaches it. A negative slice is refused and changes nothing. -/
theorem course_of_sum (c : TickClock) (timers : Timers) :
    (0 ≤ c.pending → c.pending < c.period → ∀ slices slices' : List Int,
      (∀ elapsed ∈ slices, 0 ≤ elapsed) → (∀ elapsed ∈ slices', 0 ≤ elapsed) →
      slices.sum = slices'.sum → ∃ course : Course,
        c.passAll timers slices = .ok course ∧ c.passAll timers slices' = .ok course ∧
        course.ticks = (c.pending + slices.sum) / c.period ∧
        course.clock = { c with pending := (c.pending + slices.sum) % c.period } ∧
        (course.timers.delay : Int) = max 0 (timers.delay - course.ticks) ∧
        (course.timers.sound : Int) = max 0 (timers.sound - course.ticks) ∧
        course.beeps = if 0 < timers.sound ∧ timers.sound ≤ course.ticks then 1 else 0) ∧
      ∀ elapsed < 0,
        c.pass timers elapsed = { clock := c, timers, ticks := .error (.negative elapsed) } ∧
        ∀ console : Console,
          console.update elapsed =
            { state := console, result := .error (.refused (.negative elapsed)) } := by
  constructor
  · intro nonneg lt slices slices' forward forward' same
    have course := passAll_eq nonneg lt timers forward
    have course' := passAll_eq nonneg lt timers forward'
    rw [← same] at course'
    refine ⟨_, course, course', rfl, rfl, ?_, ?_, ?_⟩
    · rw [Timers.delay_countDown, Int.toNat_eq_max, Int.max_comm]
    · rw [Timers.sound_countDown, Int.toNat_eq_max, Int.max_comm]
    · simp only [Timers.runsOut_iff]
  · intro elapsed backwards
    exact ⟨c.pass_of_negative timers backwards, fun console => console.update_of_negative backwards⟩

/-- With 15 of 16 milliseconds pending, 48 more make three ticks and leave 15 again, in one slice
as in four. -/
theorem course_of_four_slices :
    let c : TickClock := { period := 16, pending := 15 }
    let timers : Timers := { delay := 7, sound := 2 }
    ∃ course : Course, c.passAll timers [1, 40, 0, 7] = .ok course ∧
      c.passAll timers [48] = .ok course ∧ course.ticks = 3 ∧ course.clock = c ∧
      course.beeps = 1 := by
  intro c timers
  obtain ⟨course, four, one, ticks, clock, -, -, beeps⟩ :=
    (course_of_sum c timers).1 (by decide) (by decide) [1, 40, 0, 7] [48] (by decide) (by decide)
      (by decide)
  have three : course.ticks = 3 := ticks
  rw [three] at beeps
  exact ⟨course, four, one, three, clock.trans (by decide), beeps⟩

end TickClock

end ChipEight
