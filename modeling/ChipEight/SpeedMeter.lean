import ChipEight.Binary64

/-!
# The speed meter

The meter watches a running count and, once at least a second has been added up, reports
how much the count grew per second. Between refreshes the last report stands. A refresh
starts the next span at the count just seen, so that no growth is lost or counted twice.

The report is computed as a binary number and cut to an integer. A rate that is beyond those
numbers cannot be reported: the time has been added up by then, and nothing else changes, so
the refresh is tried again with the next update. A count that starts at zero and grows by
one would have to grow for `2 ^ 1023` steps to get there.
-/

namespace ChipEight

/-- A rate that is refreshed about once a second. -/
structure SpeedMeter where
  /-- Milliseconds since the last refresh. -/
  elapsed : Int := 0
  /-- The count at the last refresh. -/
  lastCount : Int := 0
  /-- The rate reported last. -/
  perSecond : Int := 0
deriving DecidableEq, Repr

namespace SpeedMeter

/-- The rate of a growth over a span of milliseconds, if it can be reported. -/
def rate? (growth span : Int) : Option Int :=
  (Binary64.ofQuotient? (growth * 1000) span.toNat).map Binary64.truncate

/-- Lets time pass and shows the meter the count reached. The answer is `false` if a refresh
was due and the rate could not be reported. -/
def update (s : SpeedMeter) (elapsed count : Int) : SpeedMeter × Bool :=
  let total := s.elapsed + elapsed
  if total < 1000 then ({ s with elapsed := total }, true)
  else
    match rate? (count - s.lastCount) total with
    | some rate => ({ elapsed := 0, lastCount := count, perSecond := rate }, true)
    | none => ({ s with elapsed := total }, false)

/-- A meter that has seen no time yet and starts at `count`. -/
def startingAt (count : Int) : SpeedMeter := { lastCount := count }

/-- A span that is shorter than a second is added up. -/
theorem update_of_lt {s : SpeedMeter} {elapsed : Int} (count : Int)
    (short : s.elapsed + elapsed < 1000) :
    s.update elapsed count = ({ s with elapsed := s.elapsed + elapsed }, true) := by
  simp [update, short]

end SpeedMeter

end ChipEight
