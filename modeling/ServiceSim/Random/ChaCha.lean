/-!
# The ChaCha block function with twelve rounds

The generator behind seeded simulations.  A block is sixteen words, computed from a key of eight
words and a block counter: six double rounds over a four by four state, and the initial state added
at the end.  `expand` makes the key from a seed of 64 bits.
-/

namespace ServiceSim.ChaCha

/-- A state of sixteen words, four by four. -/
abbrev Block := Vector UInt32 16

/-- A key of eight words. -/
abbrev Key := Vector UInt32 8

/-- Rotates a word to the left, by less than its width. -/
def rotateLeft (x : UInt32) (n : UInt32) : UInt32 := (x <<< n) ||| (x >>> (32 - n))

/-- Mixes the words at four places of the state. -/
def quarterRound (s : Block) (i j k l : Fin 16) : Block :=
  let a := s[i] + s[j]
  let d := rotateLeft (s[l] ^^^ a) 16
  let c := s[k] + d
  let b := rotateLeft (s[j] ^^^ c) 12
  let a := a + b
  let d := rotateLeft (d ^^^ a) 8
  let c := c + d
  let b := rotateLeft (b ^^^ c) 7
  (((s.set i a).set j b).set k c).set l d

/-- A round over the columns and one over the diagonals. -/
def doubleRound (s : Block) : Block :=
  let s := quarterRound s 0 4 8 12
  let s := quarterRound s 1 5 9 13
  let s := quarterRound s 2 6 10 14
  let s := quarterRound s 3 7 11 15
  let s := quarterRound s 0 5 10 15
  let s := quarterRound s 1 6 11 12
  let s := quarterRound s 2 7 8 13
  quarterRound s 3 4 9 14

/-- The state a block starts from. -/
def initial (key : Key) (counter : UInt64) : Block :=
  #v[0x61707865, 0x3320646e, 0x79622d32, 0x6b206574,
     key[0], key[1], key[2], key[3], key[4], key[5], key[6], key[7],
     counter.toUInt32, (counter >>> 32).toUInt32, 0, 0]

/-- The block at a counter. -/
def block (key : Key) (counter : UInt64) : Block :=
  let start := initial key counter
  let mixed := Nat.repeat doubleRound 6 start
  Vector.zipWith (· + ·) mixed start

/-! ## Keys from seeds -/

/-- One step of the generator that expands a seed. -/
def advance (state : UInt64) : UInt64 := state * 6364136223846793005 + 11634580027462260723

/-- The word a state of that generator yields. -/
def output (state : UInt64) : UInt32 :=
  let x := (((state >>> 18) ^^^ state) >>> 27).toUInt32
  let r := (state >>> 59).toUInt32
  (x >>> r) ||| (x <<< ((32 - r) % 32))

/-- The key a seed expands to: eight successive words. -/
def expand (seed : UInt64) : Key :=
  Vector.ofFn fun i => output (Nat.repeat advance (i.val + 1) seed)

end ServiceSim.ChaCha
