import ServiceSim.Number.Binary64

/-!
# Decimal digits of a double

Two ways to write a finite double in decimal.  `Decimal.shortest` finds the fewest digits that read
back as the same double and, of those, the nearest; `Decimal.fixed` rounds the exact value to a
given number of places.  Both work on the exact magnitude, in `Nat` arithmetic.  Which of two
equally near numbers is the shortest form of a double is for the format to say.

How the digits are laid out, with or without an exponent, is decided where a number is printed.
-/

namespace ServiceSim

/-- The number `digits * 10 ^ exponent`. -/
structure Decimal where
  /-- The digits, read as one natural number. -/
  digits : Nat
  /-- The power of ten that scales them. -/
  exponent : Int
deriving Repr, DecidableEq

namespace Decimal

open Binary64

/-- A positive rational, numerator over denominator. -/
structure Ratio where
  /-- The numerator. -/
  num : Nat
  /-- The denominator. -/
  den : Nat

/-- The rational `n * 2 ^ e * 10 ^ k`. -/
def Ratio.scaled (n : Nat) (e k : Int) : Ratio :=
  ⟨n * Nat.pow 2 e.toNat * Nat.pow 10 k.toNat, Nat.pow 2 (-e).toNat * Nat.pow 10 (-k).toNat⟩

/-! ## The position of the first digit -/

/-- Climbs from `k` to the least power of ten above the magnitude, at most `steps` times. -/
def climb (m : Magnitude) : Nat → Int → Int
  | 0, k => k
  | steps + 1, k =>
    let r := Ratio.scaled m.significand m.exponent (-k)
    if r.den ≤ r.num then climb m steps (k + 1) else k

/-- The least `k` with `m < 10 ^ k`, for a magnitude that is not zero.  The binary logarithm
places it within one unit, and the climb settles it. -/
def pointPosition (m : Magnitude) : Int :=
  let log2 : Int := (m.significand.log2 : Int) + m.exponent
  climb m 4 (Int.fdiv (log2 * 30103) 100000)

/-! ## Shortest digits -/

/-- Which of two numbers that are equally near is taken. -/
inductive Tie where
  /-- The even one. -/
  | even
  /-- The greater one. -/
  | up
deriving Repr, DecidableEq

/-- The number taken of `down` and the next. -/
def Tie.choose (tie : Tie) (down : Nat) : Nat :=
  match tie with
  | even => if down % 2 = 0 then down else down + 1
  | up => down + 1

/-- The interval of reals that round to a magnitude, in quarters of its last place: from
`4 * significand - below` to `4 * significand + 2`.  Below a power of two the doubles lie twice as
dense, and the ends belong to the interval exactly when the significand is even. -/
def quartersBelow (m : Magnitude) : Nat :=
  if m.significand = Nat.pow 2 52 ∧ -1074 < m.exponent then 1 else 2

/-- The point of the grid `10 ^ k` that reads back as `m` and is nearest to it, if there is one.
Only the two neighbours of `m` on the grid can be. -/
def onGrid (tie : Tie) (m : Magnitude) (k : Int) : Option Nat :=
  let at_ (quarters : Nat) := Ratio.scaled quarters (m.exponent - 2) (-k)
  let value := at_ (4 * m.significand)
  let low := at_ (4 * m.significand - quartersBelow m)
  let high := at_ (4 * m.significand + 2)
  let closed := m.significand % 2 = 0
  let den := value.den
  let inside (d : Nat) : Bool :=
    if closed then low.num ≤ d * den && d * den ≤ high.num
    else low.num < d * den && d * den < high.num
  let down := value.num / den
  let rest := value.num % den
  let up := down + 1
  match inside down, inside up with
  | true, true =>
    if 2 * rest < den then some down
    else if den < 2 * rest then some up
    else some (tie.choose down)
  | true, false => some down
  | false, true => some up
  | false, false => none

/-- Tries grids of `count`, `count + 1`, … digits and takes the first with a hit. -/
def refine (tie : Tie) (m : Magnitude) (position : Int) : Nat → Nat → Decimal
  | 0, count => ⟨(onGrid tie m (position - count)).getD 0, position - count⟩
  | steps + 1, count =>
    match onGrid tie m (position - count) with
    | some d => ⟨d, position - count⟩
    | none => refine tie m position steps (count + 1)

/-- Drops trailing zeros of the digits, at most `steps` of them. -/
def trim : Nat → Decimal → Decimal
  | 0, d => d
  | steps + 1, d =>
    if d.digits ≠ 0 ∧ d.digits % 10 = 0 then trim steps ⟨d.digits / 10, d.exponent + 1⟩ else d

/-- The fewest digits that read back as a magnitude that is not zero, the nearest of those to it.
Seventeen always suffice. -/
def shortest (tie : Tie) (m : Magnitude) : Decimal :=
  trim 17 (refine tie m (pointPosition m) 16 1)

/-! ## Fixed places -/

/-- The quotient rounded to the nearest natural number, a half to the even neighbour. -/
def divRound (r : Ratio) : Nat :=
  let q := r.num / r.den
  let rest := r.num % r.den
  if 2 * rest < r.den then q
  else if r.den < 2 * rest then q + 1
  else Tie.even.choose q

/-- The magnitude in units of `10 ^ -places`, rounded once from its exact value. -/
def fixed (places : Nat) (m : Magnitude) : Nat :=
  divRound (Ratio.scaled m.significand m.exponent places)

end Decimal

end ServiceSim
