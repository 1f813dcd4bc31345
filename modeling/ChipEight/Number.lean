import ChipEight.Binary64.Shortest

/-!
# Numbers

Hosts write numbers in two ways, and the two are kept apart: an integer of any size, or a
binary number. An integer is shown without a point, a binary number always with one or with
a power of ten, so the text of a number tells which of the two it is. Beside the binary
numbers there are two infinities, and the result of a computation that has none.

A number may stand for a span of seconds that somebody is to wait. Clocks count nanoseconds
in sixty-four bits, so there are spans that no clock can measure.
-/

namespace ChipEight

/-- A number as hosts write them. -/
inductive Number where
  /-- An integer of any size. -/
  | whole (n : Int)
  /-- A binary number. -/
  | binary (x : Binary64)
  /-- Beyond all numbers of one sign. -/
  | infinite (negative : Bool)
  /-- The result of a computation that has none. -/
  | undefined
deriving DecidableEq, Repr

/-- What it means to wait for a number of seconds. -/
inductive Number.Wait where
  /-- There is nothing to wait for. -/
  | nothing
  /-- The wait comes to an end. -/
  | ends
  /-- No clock measures a span of this length. -/
  | tooLong
  /-- The number is no span. -/
  | undefined
deriving DecidableEq, Repr

namespace Number

instance : Inhabited Number := ⟨whole 0⟩

/-- The number in decimal, or a word if it is none. -/
def text : Number → String
  | whole n => toString n
  | binary x => x.text
  | infinite negative => if negative then "-inf" else "inf"
  | undefined => "nan"

/-- The number is neither infinite nor undefined. -/
def isFinite : Number → Bool
  | whole _ => true
  | binary _ => true
  | infinite _ => false
  | undefined => false

/-- The integer the number is equal to. A binary number must fit in sixty-four bits. -/
def toInt? : Number → Option Int
  | whole n => some n
  | binary x => x.toInt?
  | infinite _ => none
  | undefined => none

/-- The binary number nearest to the number. -/
def toBinary64? : Number → Option Binary64
  | whole n => Binary64.ofQuotient? n 1
  | binary x => some x
  | infinite _ => none
  | undefined => none

/-- The number is greater than zero. -/
def isPositive : Number → Bool
  | whole n => 0 < n
  | binary x => x.isPositive
  | infinite negative => !negative
  | undefined => false

/-- The number is at least zero. -/
def isNonnegative : Number → Bool
  | whole n => 0 ≤ n
  | binary x => x.isNonnegative
  | infinite negative => !negative
  | undefined => false

/-- The number is at most `bound`. -/
def atMost : Number → Nat → Bool
  | whole n, bound => n ≤ bound
  | binary x, bound => x.atMost bound
  | infinite negative, _ => negative
  | undefined, _ => false

/-- The number of nanoseconds in a second. -/
def nanoseconds : Nat := 1000000000

/-- The least number of nanoseconds that clocks cannot count. -/
def clockLimit : Nat := 0x8000000000000000

/-- What it means to wait for the number as a span of seconds. -/
def wait : Number → Wait
  | whole n =>
    if n ≤ 0 then .nothing else if n * nanoseconds < clockLimit then .ends else .tooLong
  | binary x =>
    if !x.isPositive then .nothing
    else if x.numerator * nanoseconds < clockLimit * x.denominator then .ends
    else .tooLong
  | infinite negative => if negative then .nothing else .tooLong
  | undefined => .undefined

/-- A clock can measure the number as a span of seconds; a wait for nothing needs no clock. -/
def isMeasurable (n : Number) : Bool :=
  match n.wait with
  | .nothing => true
  | .ends => true
  | .tooLong => false
  | .undefined => false

/-- Any clock measures half a minute. -/
theorem wait_of_atMost {n : Number} (positive : n.isPositive = true)
    (short : n.atMost 30 = true) : n.wait = .ends := by
  cases n with
  | whole n =>
    have above : 0 < n := by simpa only [isPositive, decide_eq_true_eq] using positive
    have below : n ≤ (30 : Nat) := by simpa only [atMost, decide_eq_true_eq] using short
    have measured : n * nanoseconds < clockLimit := by simp only [nanoseconds, clockLimit]; omega
    rw [wait, if_neg (Int.not_le.mpr above), if_pos measured]
  | binary x =>
    have above : x.isPositive = true := positive
    have unsigned : x.negative = false := by
      simp only [Binary64.isPositive, Bool.and_eq_true, Bool.not_eq_true'] at above
      exact above.1
    have below : x.numerator ≤ 30 * x.denominator := by
      simpa only [atMost, Binary64.atMost, unsigned, Bool.false_or, decide_eq_true_eq] using short
    have unit : 0 < x.denominator := by
      rw [Binary64.denominator, Nat.one_shiftLeft]
      exact Nat.two_pow_pos _
    have measured : x.numerator * nanoseconds < clockLimit * x.denominator := by
      simp only [nanoseconds, clockLimit]
      omega
    simp only [wait, above, Bool.not_true, Bool.false_eq_true, if_false, if_pos measured]
  | infinite negative =>
    simp only [isPositive, atMost] at positive short
    simp [short] at positive
  | undefined => cases positive

example : (whole 9223372036).wait = .ends ∧ (whole 9223372037).wait = .tooLong := by decide

end Number

end ChipEight
