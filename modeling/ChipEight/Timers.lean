/-!
# Timers

Two counters are set by programs and counted down by the passing of time. Time reaches them
in whole ticks: elapsed milliseconds accumulate, every full period counts both timers down
once, and the remainder waits for the next call. So how a span of time is cut into calls
does not matter.

The sound timer sounds while it is not zero. The moment it runs out is the beep.
-/

namespace ChipEight

/-- The two counters. -/
structure Timers where
  /-- The timer that programs read. -/
  delay : Nat := 0
  /-- The timer that sounds. -/
  sound : Nat := 0
deriving DecidableEq, Repr

namespace Timers

/-- Sets the delay timer to the low byte of `value`. -/
def setDelay (t : Timers) (value : Int) : Timers := { t with delay := (value % 256).toNat }

/-- Sets the sound timer to the low byte of `value`. -/
def setSound (t : Timers) (value : Int) : Timers := { t with sound := (value % 256).toNat }

/-- Takes `ticks` off both timers, stopping at zero. A negative number of ticks adds. -/
def countDown (t : Timers) (ticks : Int) : Timers where
  delay := (t.delay - ticks).toNat
  sound := (t.sound - ticks).toNat

/-- Counting down by `ticks` ends the sound. -/
def runsOut (t : Timers) (ticks : Int) : Bool :=
  0 < t.sound && (t.countDown ticks).sound = 0

@[simp] theorem delay_countDown (t : Timers) (ticks : Int) :
    (t.countDown ticks).delay = (t.delay - ticks).toNat := rfl

@[simp] theorem sound_countDown (t : Timers) (ticks : Int) :
    (t.countDown ticks).sound = (t.sound - ticks).toNat := rfl

end Timers

/-- Elapsed time on its way to becoming ticks. -/
structure TickClock where
  /-- Milliseconds in a tick. -/
  period : Int := 16
  /-- Milliseconds that have passed since the last tick. -/
  pending : Int := 0
deriving DecidableEq, Repr

namespace TickClock

/-- Why time could not pass. -/
inductive Refusal where
  /-- Time does not run backwards. -/
  | negative (elapsed : Int)
  /-- Ticks of no length cannot be counted. -/
  | noPeriod
deriving DecidableEq, Repr

/-- The message of a span of time that was refused for its sign. -/
def negativeMessage (elapsed : Int) : String :=
  "Elapsed time cannot be negative: " ++ toString elapsed

/-- What the passing of time leaves behind. -/
structure Passage where
  clock : TickClock
  timers : Timers
  /-- The number of ticks counted, or why none could be. -/
  ticks : Except Refusal Int
  /-- Whether the sound ran out. -/
  beeped : Bool := false

/-- Lets time pass over the timers. Negative time changes nothing. Time that meets a clock
without a period has been added up all the same when the failure is found. -/
def pass (c : TickClock) (timers : Timers) (elapsed : Int) : Passage :=
  if elapsed < 0 then { clock := c, timers, ticks := .error (.negative elapsed) }
  else
    let pending := c.pending + elapsed
    if pending < c.period then { clock := { c with pending }, timers, ticks := .ok 0 }
    else if c.period = 0 then { clock := { c with pending }, timers, ticks := .error .noPeriod }
    else
      let ticks := pending.fdiv c.period
      { clock := { c with pending := pending - ticks * c.period }
        timers := timers.countDown ticks
        ticks := .ok ticks
        beeped := timers.runsOut ticks }

/-- Forgets the time that is pending. -/
def reset (c : TickClock) : TickClock := { c with pending := 0 }

end TickClock

end ChipEight
