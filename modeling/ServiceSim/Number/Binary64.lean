/-!
# Doubles as exact dyadic numbers

Every finite double is a sign and a magnitude `significand * 2 ^ exponent`.  This file reads that
pair off the bits of a `Float`, so that rounding to an integer, the remainder of a division and the
total order of doubles are computed on `Nat` and `Int`, without a rounding step of their own.

The operations that IEEE arithmetic already rounds correctly (`+`, `-`, `*`, `/`, `sqrt`) are those
of `Float` itself.
-/

namespace ServiceSim.Binary64

/-! ## The three fields of the encoding -/

/-- Whether the sign bit is set; a zero has a sign too. -/
def isNegative (x : Float) : Bool := x.toBits >>> 63 != 0

/-- The biased exponent, eleven bits wide. -/
def exponentField (x : Float) : Nat := ((x.toBits >>> 52) &&& 0x7ff).toNat

/-- The fraction, fifty-two bits wide. -/
def fractionField (x : Float) : Nat := (x.toBits &&& 0xfffffffffffff).toNat

/-- Neither an infinity nor a NaN. -/
def isFinite (x : Float) : Bool := exponentField x != 0x7ff

/-- The absolute value of a finite double, as `significand * 2 ^ exponent`. -/
structure Magnitude where
  /-- The significand, below `2 ^ 53`. -/
  significand : Nat
  /-- The power of two it is scaled by. -/
  exponent : Int
deriving Repr, DecidableEq

/-- The magnitude of a finite double.  Subnormals share the exponent of the smallest normals and
lack the hidden bit. -/
def magnitude (x : Float) : Magnitude :=
  if exponentField x = 0 then ⟨fractionField x, -1074⟩
  else ⟨Nat.pow 2 52 + fractionField x, (exponentField x : Int) - 1075⟩

/-- The double with the given sign and the magnitude `significand * 2 ^ exponent`, for a
significand below `2 ^ 53` and an exponent of at least `-1074`: every such number is a double, so
nothing is rounded. -/
def ofMagnitude (negative : Bool) (m : Magnitude) : Float :=
  let sign : Nat := if negative then Nat.pow 2 63 else 0
  let top := m.significand.log2
  let spare := 52 - top
  let bits :=
    if m.significand = 0 then 0
    else if (spare : Int) ≤ m.exponent + 1074 then
      (m.exponent - spare + 1075).toNat * Nat.pow 2 52 +
        (m.significand * Nat.pow 2 spare - Nat.pow 2 52)
    else m.significand * Nat.pow 2 (m.exponent + 1074).toNat
  Float.ofBits (UInt64.ofNat (sign + bits))

/-! ## Integers -/

/-- Puts the sign of `x` on a natural number. -/
def signed (x : Float) (n : Nat) : Int := if isNegative x then -(n : Int) else n

/-- The integer part of a finite double: the fraction is dropped, toward zero. -/
def truncate (x : Float) : Int :=
  let m := magnitude x
  signed x <|
    if 0 ≤ m.exponent then m.significand * Nat.pow 2 m.exponent.toNat
    else m.significand / Nat.pow 2 (-m.exponent).toNat

/-- The integer nearest to a finite double; a half goes away from zero. -/
def round (x : Float) : Int :=
  let m := magnitude x
  signed x <|
    if 0 ≤ m.exponent then m.significand * Nat.pow 2 m.exponent.toNat
    else (m.significand + Nat.pow 2 ((-m.exponent).toNat - 1)) / Nat.pow 2 (-m.exponent).toNat

/-- Whether a finite double is a whole number. -/
def isWhole (x : Float) : Bool :=
  let m := magnitude x
  0 ≤ m.exponent || m.significand % Nat.pow 2 (-m.exponent).toNat == 0

/-- The integer a double equals, if it equals one. -/
def toInt? (x : Float) : Option Int :=
  if isFinite x && isWhole x then some (truncate x) else none

/-! ## Remainder and order -/

/-- The remainder of `a` by `b`, with the sign of `a`.  It is exact: both numbers are brought to
the smaller of their exponents, where the remainder is that of two natural numbers. -/
def remainder (a b : Float) : Float :=
  if !isFinite a || b.isNaN || b == 0 then 0 / 0
  else if !isFinite b then a
  else
    let m := magnitude a
    let n := magnitude b
    let e := min m.exponent n.exponent
    let p := m.significand * Nat.pow 2 (m.exponent - e).toNat
    let q := n.significand * Nat.pow 2 (n.exponent - e).toNat
    ofMagnitude (isNegative a) ⟨p % q, e⟩

/-- The smaller of two doubles; a NaN counts as missing. -/
def minimum (a b : Float) : Float :=
  if a.isNaN then b else if b.isNaN then a else if b < a then b else a

/-- The larger of two doubles; a NaN counts as missing. -/
def maximum (a b : Float) : Float :=
  if a.isNaN then b else if b.isNaN then a else if a < b then b else a

/-- The place of an encoding in the total order of encodings: negative numbers below positive ones,
`-0` directly below `0`, and NaN beyond the infinity of its sign. -/
def rank (encoding : UInt64) : Int :=
  let magnitude : Int := (encoding &&& 0x7fffffffffffffff).toNat
  if encoding >>> 63 != 0 then -magnitude - 1 else magnitude

end ServiceSim.Binary64
