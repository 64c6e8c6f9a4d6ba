import ServiceSim.Number.Decimal

/-!
# How numbers are written

The texts of doubles that the library prints.  `NumberLayout` records the decisions of one format
(where positional notation ends, what follows a whole number, how ties go, how the special values
are called); `Number.plain` is the format of values and messages, `Number.json` that of files, and
`Number.fixed` writes a given number of decimal places.
-/

namespace ServiceSim

/-- The decisions of a format for doubles. -/
structure NumberLayout where
  /-- The positions of the decimal point, counted from the first digit, that are written without
  an exponent; `none` writes every number so. -/
  positional : Option (Int × Int)
  /-- What follows a whole number that is written without an exponent. -/
  wholeSuffix : String
  /-- Which of two shortest forms that are equally near is written. -/
  tie : Decimal.Tie
  /-- The text of NaN. -/
  nan : String
  /-- The text of positive infinity; the other one has a minus sign in front. -/
  infinity : String

namespace Number

open Binary64

/-- Values and messages show every number positionally and whole numbers bare; of two forms that are
equally near they show the greater. -/
def plain : NumberLayout := ⟨none, "", .up, "NaN", "inf"⟩

/-- Files show numbers of up to sixteen whole digits or four zeros after the point positionally,
and mark a whole number as a double; of two forms that are equally near they show the even one.
They cannot hold the special values. -/
def json : NumberLayout := ⟨some (-4, 16), ".0", .even, "null", "null"⟩

/-- A run of zeros. -/
def zeros (n : Nat) : String := String.ofList (List.replicate n '0')

/-- Digits with the decimal point after the first `position` of them, padded with zeros where the
point lies outside. -/
def pointAt (digits : String) (position : Int) (wholeSuffix : String) : String :=
  let count : Int := digits.length
  if count ≤ position then digits ++ zeros (position - count).toNat ++ wholeSuffix
  else if 0 < position then
    String.ofList (digits.toList.take position.toNat) ++ "." ++
      String.ofList (digits.toList.drop position.toNat)
  else "0." ++ zeros (-position).toNat ++ digits

/-- Digits with the point after the first of them, and the power of ten with its sign. -/
def scientific (digits : String) (position : Int) : String :=
  let first := String.ofList (digits.toList.take 1)
  let rest := String.ofList (digits.toList.drop 1)
  let mantissa := if rest = "" then first else first ++ "." ++ rest
  let power := position - 1
  mantissa ++ (if power < 0 then "e" else "e+") ++ toString power

/-- The text of a magnitude. -/
def magnitudeText (layout : NumberLayout) (m : Magnitude) : String :=
  if m.significand = 0 then "0" ++ layout.wholeSuffix
  else
    let decimal := Decimal.shortest layout.tie m
    let digits := toString decimal.digits
    let position := decimal.exponent + digits.length
    match layout.positional with
    | none => pointAt digits position layout.wholeSuffix
    | some (low, high) =>
      if low ≤ position ∧ position ≤ high then pointAt digits position layout.wholeSuffix
      else scientific digits position

/-- The text of a double in a layout.  A negative zero keeps its sign; NaN has none. -/
def text (layout : NumberLayout) (x : Float) : String :=
  if x.isNaN then layout.nan
  else
    let body := if isFinite x then magnitudeText layout (magnitude x) else layout.infinity
    if isNegative x ∧ (isFinite x ∨ layout.infinity ≠ "null") then "-" ++ body else body

/-- The text of a double with a fixed number of decimal places. -/
def fixed (places : Nat) (x : Float) : String :=
  if isFinite x then
    let units := toString (Decimal.fixed places (magnitude x))
    let padded := zeros (places + 1 - units.length) ++ units
    (if isNegative x then "-" else "") ++ pointAt padded (padded.length - places) ""
  else text plain x

end Number

end ServiceSim
