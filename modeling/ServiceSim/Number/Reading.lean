import ServiceSim.Number.Decimal

/-!
# Reading numbers

Texts of integers and doubles as numbers.  A decimal is rounded to the nearest double; one too
large for the format becomes infinite, and one too small becomes zero.
-/

namespace ServiceSim.Number

/-- The natural number a list of decimal digits denotes. -/
def ofDigits (digits : List Char) : Nat :=
  digits.foldl (fun n c => 10 * n + (c.toNat - '0'.toNat)) 0

/-- The double nearest to `digits * 10 ^ exponent`.  Exponents far outside the range of doubles
decide the answer without being computed. -/
def ofDecimal (d : Decimal) : Float :=
  let size : Int := (toString d.digits).length
  if d.digits = 0 then 0
  else if 400 < size + d.exponent then 1 / 0
  else if size + d.exponent < -400 then 0
  else Float.ofScientific d.digits (d.exponent < 0) d.exponent.natAbs

/-! ## Parts of a decimal -/

/-- An exponent mark with its digits, if they are all there; otherwise nothing is taken. -/
def exponentPart (cs : List Char) : Option (Int × List Char) :=
  match cs with
  | mark :: rest =>
    if mark = 'e' ∨ mark = 'E' then
      let (negative, digits) := match rest with
        | '+' :: r => (false, r)
        | '-' :: r => (true, r)
        | r => (false, r)
      let taken := digits.takeWhile Char.isDigit
      if taken.isEmpty then none
      else
        let n : Int := ofDigits taken
        some (if negative then -n else n, digits.dropWhile Char.isDigit)
    else none
  | [] => none

/-- The decimal made of whole digits, fraction digits and an exponent. -/
def assemble (whole fraction : List Char) (exponent : Int) : Decimal :=
  ⟨ofDigits (whole ++ fraction), exponent - fraction.length⟩

/-! ## Whole texts -/

/-- A decimal without sign: digits with at most one point and at least one digit, then at most one
exponent, and nothing else. -/
def unsigned? (cs : List Char) : Option Float :=
  let whole := cs.takeWhile Char.isDigit
  let (fraction, rest) := match cs.dropWhile Char.isDigit with
    | '.' :: r => (r.takeWhile Char.isDigit, r.dropWhile Char.isDigit)
    | r => ([], r)
  if whole.isEmpty ∧ fraction.isEmpty then none
  else match rest with
    | [] => some (ofDecimal (assemble whole fraction 0))
    | _ => match exponentPart rest with
      | some (e, []) => some (ofDecimal (assemble whole fraction e))
      | _ => none

/-- The double a text denotes: a decimal, or the name of a special value in either case, after at
most one sign. -/
def float? (text : String) : Option Float :=
  let (negative, body) := match text.toList with
    | '-' :: r => (true, r)
    | '+' :: r => (false, r)
    | r => (false, r)
  let magnitude := match String.ofList (body.map Char.toLower) with
    | "inf" => some (1 / 0)
    | "infinity" => some (1 / 0)
    | "nan" => some (0 / 0)
    | _ => unsigned? body
  magnitude.map fun x => if negative then -x else x

/-- The natural number a text denotes: digits only, after at most one plus sign. -/
def nat? (text : String) : Option Nat :=
  let digits := match text.toList with
    | '+' :: r => r
    | r => r
  if digits ≠ [] ∧ digits.all Char.isDigit then some (ofDigits digits) else none

/-- The integer a text denotes: digits only, after at most one sign. -/
def int? (text : String) : Option Int :=
  match text.toList with
  | '-' :: digits =>
    if digits ≠ [] ∧ digits.all Char.isDigit then some (-(ofDigits digits : Int)) else none
  | _ => (nat? text).map Int.ofNat

/-- The natural number a text denotes, if it fits sixty-four bits. -/
def word? (text : String) : Option UInt64 :=
  (nat? text).bind fun n => if n < UInt64.size then some (UInt64.ofNat n) else none

end ServiceSim.Number
