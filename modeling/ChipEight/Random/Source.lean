import ChipEight.Random.MersenneTwister

/-!
# Random bytes

A random byte is made from a seeded generator by rejection: nine bits of each output are
looked at, and the first value below 256 is taken. For tests and for replaying a run a
source can also be a list of bytes, followed by zeros.

The number of rejections in a row is bounded. The highest bit of the outputs follows a
linear recurrence over the 19937 bits of the generator's state, so it cannot be set in more
outputs in a row than the state has bits; the bound on the search is larger than that.
-/

namespace ChipEight

/-- Where random bytes come from. -/
inductive RandomSource where
  /-- A seeded generator. -/
  | seeded (generator : MersenneTwister)
  /-- Given bytes, then zeros. -/
  | scripted (bytes : List UInt8)

namespace RandomSource

/-- The source of a seed. -/
def ofSeed (seed : Int) : RandomSource := .seeded (MersenneTwister.ofSeed seed)

/-- The largest number of outputs looked at for one byte. -/
def maxDraws : Nat := 20000

/-- Draws outputs until nine bits of one of them are below 256. -/
def draw : Nat → MersenneTwister → UInt8 × MersenneTwister
  | 0, g => (0, g)
  | draws + 1, g =>
    let (u, g) := g.next
    let bits := u >>> 23
    if bits < 256 then (bits.toUInt8, g) else draw draws g

/-- The next byte. -/
def next : RandomSource → UInt8 × RandomSource
  | seeded g =>
    let (byte, g) := draw maxDraws g
    (byte, seeded g)
  | scripted [] => (0, scripted [])
  | scripted (byte :: rest) => (byte, scripted rest)

end RandomSource

end ChipEight
