/-!
# The Mersenne twister

A generator of 32-bit numbers with a state of 624 words. The words are first filled from a
fixed number by a linear recurrence and then stirred with the words of the seed, twice
around. Each time all words have been used, a new block of 624 is computed from them; an
output is a word of the block with its bits mixed once more.
-/

namespace ChipEight

/-- A block of words and the number of them already used. -/
structure MersenneTwister where
  /-- The current block. -/
  words : Vector UInt32 624
  /-- How many of its words have been given out. -/
  used : Nat := 624

namespace MersenneTwister

/-- The word at an index that is taken around the block. -/
def wordAt (words : Vector UInt32 624) (index : Nat) : UInt32 := words[Fin.ofNat 624 index]

/-- Replaces the word at an index that is taken around the block. -/
def setAt (words : Vector UInt32 624) (index : Nat) (w : UInt32) : Vector UInt32 624 :=
  words.set (Fin.ofNat 624 index) w

/-- The high bits of a word folded onto its low ones. -/
def fold (w : UInt32) : UInt32 := w ^^^ (w >>> 30)

/-- The block that a single number fills. -/
def filled (seed : UInt32) : Vector UInt32 624 :=
  (List.range 623).foldl
    (fun words k =>
      setAt words (k + 1) (1812433253 * fold (wordAt words k) + UInt32.ofNat (k + 1)))
    (Vector.replicate 624 seed)

/-- The index after `i` on the way around the block, where the last word is copied to the
front before the way begins anew at one. -/
def nextIndex (words : Vector UInt32 624) (i : Nat) : Vector UInt32 624 × Nat :=
  if i + 1 < 624 then (words, i + 1) else (setAt words 0 (wordAt words 623), 1)

/-- Stirs the words of a key into a block, `count` words in all. -/
def stirKey (key : Array UInt32) :
    Nat → Vector UInt32 624 → Nat → Nat → Vector UInt32 624 × Nat
  | 0, words, i, _ => (words, i)
  | count + 1, words, i, j =>
    let w := (wordAt words i ^^^ (fold (wordAt words (i - 1)) * 1664525)) +
      key.getD j 0 + UInt32.ofNat j
    let (words, i) := nextIndex (setAt words i w) i
    stirKey key count words i (if j + 1 < key.size then j + 1 else 0)

/-- Stirs the numbers of the words themselves into a block, `count` words in all. -/
def stirIndex : Nat → Vector UInt32 624 → Nat → Vector UInt32 624
  | 0, words, _ => words
  | count + 1, words, i =>
    let w := (wordAt words i ^^^ (fold (wordAt words (i - 1)) * 1566083941)) - UInt32.ofNat i
    let (words, i) := nextIndex (setAt words i w) i
    stirIndex count words i

/-- The generator seeded with the words of a key. -/
def ofKey (key : Array UInt32) : MersenneTwister :=
  let (words, i) := stirKey key (max 624 key.size) (filled 19650218) 1 0
  { words := setAt (stirIndex 623 words i) 0 0x80000000 }

/-- The 32-bit words of a number, lowest first; zero has one. -/
def keyOfNat (n : Nat) : List UInt32 :=
  if n < 0x100000000 then [UInt32.ofNat n]
  else UInt32.ofNat (n % 0x100000000) :: keyOfNat (n / 0x100000000)
termination_by n
decreasing_by omega

/-- The generator seeded with the magnitude of a number. -/
def ofSeed (seed : Int) : MersenneTwister := ofKey (keyOfNat seed.natAbs).toArray

/-- The next block of words. -/
def twist (words : Vector UInt32 624) : Vector UInt32 624 :=
  (List.range 624).foldl
    (fun words k =>
      let joined := (wordAt words k &&& 0x80000000) ||| (wordAt words (k + 1) &&& 0x7fffffff)
      let carry : UInt32 := if joined &&& 1 = 1 then 0x9908b0df else 0
      setAt words k (wordAt words (k + 397) ^^^ (joined >>> 1) ^^^ carry))
    words

/-- Mixes the bits of a word. -/
def temper (w : UInt32) : UInt32 :=
  let w := w ^^^ (w >>> 11)
  let w := w ^^^ ((w <<< 7) &&& 0x9d2c5680)
  let w := w ^^^ ((w <<< 15) &&& 0xefc60000)
  w ^^^ (w >>> 18)

/-- The next 32-bit number. -/
def next (g : MersenneTwister) : UInt32 × MersenneTwister :=
  if g.used < 624 then (temper (wordAt g.words g.used), { g with used := g.used + 1 })
  else
    let words := twist g.words
    (temper (wordAt words 0), { words, used := 1 })

end MersenneTwister

end ChipEight
