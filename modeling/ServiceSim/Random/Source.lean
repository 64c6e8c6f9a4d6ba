import ServiceSim.Random.ChaCha

/-!
# Random sources

A source is an infinite stream of 64-bit words and the number of words taken from it so far.  All
randomness of a simulation comes from one source, so what is drawn depends on the order of the
draws alone.

Draws turn words into doubles in the unit interval or into integers of a range.
-/

namespace ServiceSim

/-- A stream of words, and how many have been taken. -/
structure Source where
  /-- The word at every place. -/
  word : Nat → UInt64
  /-- The place of the next word. -/
  position : Nat

namespace Source

/-- The source of a seed: the words of successive blocks, two to a 64-bit word, the low one
first. -/
def seeded (seed : UInt64) : Source where
  word n :=
    let b := ChaCha.block (ChaCha.expand seed) (UInt64.ofNat (n / 8))
    let i := n % 8
    (b.toArray.getD (2 * i) 0).toUInt64 ||| ((b.toArray.getD (2 * i + 1) 0).toUInt64 <<< 32)
  position := 0

/-- The source that yields the given words and then zeros. -/
def ofWords (words : List UInt64) : Source := ⟨fun n => words.getD n 0, 0⟩

/-- The next word. -/
def next (s : Source) : UInt64 × Source :=
  (s.word s.position, { s with position := s.position + 1 })

/-- The double in `[0, 1)` that the upper 53 bits of a word stand for. -/
def toUnit (w : UInt64) : Float := (w >>> 11).toFloat * (1.0 / 9007199254740992.0)

/-- A double drawn from `[0, 1)`. -/
def unit (s : Source) : Float × Source :=
  let (w, s) := s.next
  (toUnit w, s)

/-! ## Integers of a range -/

/-- The greatest low half of a product that is accepted: below it every value of the range is
reached by equally many words. -/
def zone (range : Nat) : Nat := range * Nat.pow 2 (63 - range.log2) - 1

/-- Takes words until one is accepted and returns the high half of its product with the range,
giving up after `attempts` words.  More than half of all words are accepted. -/
def below (range : Nat) : (attempts : Nat) → Source → Nat × Source
  | 0, s => (0, s)
  | attempts + 1, s =>
    let (w, s) := s.next
    let product := w.toNat * range
    if product % UInt64.size ≤ zone range then (product / UInt64.size, s) else below range attempts s

/-- An integer drawn uniformly from `low` to `high`, both included.  The range of all integers
takes a word as it is. -/
def integer (low high : Int64) (s : Source) : Int64 × Source :=
  let range := high.toInt - low.toInt + 1
  if range = UInt64.size then
    let (w, s) := s.next
    (w.toInt64, s)
  else
    let (n, s) := below range.toNat (Nat.pow 2 32) s
    (Int64.ofInt (low.toInt + n), s)

end Source

end ServiceSim
