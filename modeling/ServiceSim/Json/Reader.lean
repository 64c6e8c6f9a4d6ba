import ServiceSim.Json.Reading
import ServiceSim.Number.Reading

/-!
# Reading JSON

A reader for the grammar of JSON.  Every part takes the characters to be read and returns what it
found with the characters after it; where the text does not have the form of JSON the reading is
broken, and no characters are left.  Arrays and objects that nest more than 127 deep are unusable.

Numbers with a fraction or an exponent are read with a 64-bit significand that is scaled by one
power of ten: digits that do not fit are dropped, so beyond nineteen digits the result may be off
in the last place.  A number beyond the doubles is unusable.
-/

namespace ServiceSim.Json

/-- White space between tokens. -/
def isBlank (c : Char) : Bool := c == ' ' || c == '\n' || c == '\t' || c == '\r'

/-- Skips white space. -/
def skip (cs : List Char) : List Char := cs.dropWhile isBlank

/-! ## Numbers -/

/-- A significand that must fit 64 bits, and the power of ten that scales it. -/
structure Scan where
  /-- The digits taken so far. -/
  significand : Nat
  /-- The power of ten. -/
  exponent : Int
  /-- Whether a digit has been dropped. -/
  full : Bool

/-- The value of a decimal digit. -/
def digitValue (c : Char) : Nat := c.toNat - '0'.toNat

/-- Takes a digit before the point; once the significand is full the others only scale it. -/
def Scan.whole (s : Scan) (c : Char) : Scan :=
  let n := 10 * s.significand + digitValue c
  if s.full then { s with exponent := s.exponent + 1 }
  else if n < UInt64.size then { s with significand := n }
  else { s with exponent := s.exponent + 1, full := true }

/-- Takes a digit after the point; once the significand is full the others are dropped. -/
def Scan.fraction (s : Scan) (c : Char) : Scan :=
  let n := 10 * s.significand + digitValue c
  if s.full then s
  else if n < UInt64.size then { s with significand := n, exponent := s.exponent - 1 }
  else { s with full := true }

/-- Scales a double by a power of ten, by steps of at most `10 ^ 308`.  A result beyond the
doubles is refused. -/
def scaleBy : Nat → Float → Int → Option Float
  | steps, x, e =>
    if e.natAbs ≤ 308 then
      let power := Float.ofScientific 1 false e.natAbs
      if 0 ≤ e then
        let y := x * power
        if y.isInf then none else some y
      else some (x / power)
    else if x == 0 then some x
    else if 0 ≤ e then none
    else match steps with
      | 0 => some 0
      | steps + 1 => scaleBy steps (x / 1e308) (e + 308)

/-- The double a scan stands for. -/
def Scan.toDouble (negative : Bool) (s : Scan) : Option Float :=
  (scaleBy 1100 (UInt64.ofNat s.significand).toFloat s.exponent).map
    fun x => if negative then -x else x

/-- Adds an exponent that was read to that of a scan.  Exponents of more than 31 bits are beyond
every double. -/
def Scan.shift (s : Scan) (e : Int) : Option Scan :=
  if e.natAbs < Nat.pow 2 31 then some { s with exponent := s.exponent + e }
  else if s.significand = 0 ∨ e < 0 then some ⟨0, 0, true⟩
  else none

/-- The digits of a whole number: one zero, or digits that do not start with one. -/
def wholeDigits (cs : List Char) : Option (List Char × List Char) :=
  match cs with
  | '0' :: rest => if (rest.head?.map Char.isDigit).getD false then none else some (['0'], rest)
  | _ =>
    let digits := cs.takeWhile Char.isDigit
    if digits.isEmpty then none else some (digits, cs.dropWhile Char.isDigit)

/-- A whole number that has neither fraction nor exponent.  Those of more than 64 bits are
doubles, and so is a negative zero. -/
def wholeNumber (negative : Bool) (digits : List Char) : Option Reading :=
  let n := Number.ofDigits digits
  if negative then
    if n = 0 then some (.double (-0.0))
    else if n ≤ Nat.pow 2 63 then some (.integer (-n))
    else (Scan.toDouble true (digits.foldl Scan.whole ⟨0, 0, false⟩)).map .double
  else if n < UInt64.size then some (.integer n)
  else (Scan.toDouble false (digits.foldl Scan.whole ⟨0, 0, false⟩)).map .double

/-- A number as it is written. -/
structure Numeral where
  /-- Whether a minus sign stands in front. -/
  negative : Bool
  /-- The digits before the point. -/
  whole : List Char
  /-- The digits after the point, if there is one. -/
  fraction : Option (List Char)
  /-- The exponent, if there is one. -/
  exponent : Option Int

/-- The digits after a point, at least one; or nothing if there is no point. -/
def fractionDigits (cs : List Char) : Option (Option (List Char) × List Char) :=
  match cs with
  | '.' :: rest =>
    let digits := rest.takeWhile Char.isDigit
    if digits.isEmpty then none else some (some digits, rest.dropWhile Char.isDigit)
  | _ => some (none, cs)

/-- An exponent, which needs a digit; or nothing if there is no mark of an exponent. -/
def exponentDigits (cs : List Char) : Option (Option Int × List Char) :=
  if cs.head? == some 'e' || cs.head? == some 'E' then
    (Number.exponentPart cs).map fun (e, rest) => (some e, rest)
  else some (none, cs)

/-- A number in front of the characters. -/
def numeral (cs : List Char) : Option (Numeral × List Char) := do
  let (negative, unsigned) := match cs with
    | '-' :: rest => (true, rest)
    | _ => (false, cs)
  let (whole, rest) ← wholeDigits unsigned
  let (fraction, rest) ← fractionDigits rest
  let (exponent, rest) ← exponentDigits rest
  return (⟨negative, whole, fraction, exponent⟩, rest)

/-- The value of a number, if it is not beyond the doubles. -/
def Numeral.value? (n : Numeral) : Option Reading :=
  if n.fraction.isNone && n.exponent.isNone then wholeNumber n.negative n.whole
  else do
    let scan := n.whole.foldl Scan.whole ⟨0, 0, false⟩
    let scan := (n.fraction.getD []).foldl Scan.fraction { scan with full := false }
    let scan ← match n.exponent with
      | some e => scan.shift e
      | none => some scan
    return .double (← scan.toDouble n.negative)

/-! ## Strings -/

/-- The value of a hexadecimal digit. -/
def hexDigit? (c : Char) : Option Nat :=
  if c.isDigit then some (c.toNat - '0'.toNat)
  else if 'a' ≤ c ∧ c ≤ 'f' then some (c.toNat - 'a'.toNat + 10)
  else if 'A' ≤ c ∧ c ≤ 'F' then some (c.toNat - 'A'.toNat + 10)
  else none

/-- The number four hexadecimal digits denote. -/
def hex4? (a b c d : Char) : Option Nat := do
  return (((← hexDigit? a) * 16 + (← hexDigit? b)) * 16 + (← hexDigit? c)) * 16 + (← hexDigit? d)

/-- What a backslash and a letter stand for. -/
def escape? : Char → Option Char
  | '"' => some '"'
  | '\\' => some '\\'
  | '/' => some '/'
  | 'b' => some '\x08'
  | 'f' => some '\x0c'
  | 'n' => some '\n'
  | 'r' => some '\r'
  | 't' => some '\t'
  | _ => none

/-- The character a pair of surrogates denotes. -/
def surrogatePair (high low : Nat) : Option Char :=
  if 0xdc00 ≤ low ∧ low < 0xe000 then
    some (Char.ofNat (0x10000 + (high - 0xd800) * 0x400 + (low - 0xdc00)))
  else none

/-- A part of a string: a character, or a unit of sixteen bits that is written by its digits. -/
inductive StringPart where
  | char (c : Char)
  | unit (n : Nat)

/-- The parts of a string after its opening quote.  Control characters must be escaped. -/
def stringParts : List Char → Option (List StringPart × List Char)
  | '"' :: rest => some ([], rest)
  | '\\' :: 'u' :: a :: b :: c :: d :: rest =>
    match hex4? a b c d, stringParts rest with
    | some n, some (parts, after) => some (.unit n :: parts, after)
    | _, _ => none
  | '\\' :: c :: rest =>
    match escape? c, stringParts rest with
    | some char, some (parts, after) => some (.char char :: parts, after)
    | _, _ => none
  | c :: rest =>
    if c.toNat < 0x20 then none
    else match stringParts rest with
      | some (parts, after) => some (.char c :: parts, after)
      | none => none
  | [] => none

/-- The characters that the parts of a string stand for.  A high surrogate must be followed by a low
one, and no low one may stand alone. -/
def joinParts : List StringPart → Option (List Char)
  | [] => some []
  | .char c :: rest => (joinParts rest).map (c :: ·)
  | [.unit n] => if 0xd800 ≤ n ∧ n < 0xe000 then none else some [Char.ofNat n]
  | .unit n :: .char c :: rest =>
    if 0xd800 ≤ n ∧ n < 0xe000 then none
    else (joinParts rest).map (Char.ofNat n :: c :: ·)
  | .unit n :: .unit m :: rest =>
    if 0xd800 ≤ n ∧ n < 0xdc00 then
      match surrogatePair n m, joinParts rest with
      | some c, some chars => some (c :: chars)
      | _, _ => none
    else if 0xdc00 ≤ n ∧ n < 0xe000 then none
    else (joinParts (.unit m :: rest)).map (Char.ofNat n :: ·)

/-- A string after its opening quote, if it ends: its text, if it has one, and what follows. -/
def stringRest (cs : List Char) : Option (Option String × List Char) :=
  (stringParts cs).map fun (parts, after) => ((joinParts parts).map String.ofList, after)

/-! ## Arrays and objects -/

/-- Where a text stops being JSON. -/
def stopped : Reading × List Char := (.broken none, [])

/-- The elements of an array after its opening bracket, at most `bound` of them; `element` reads
one, and a comma stands between two. -/
def elements (element : List Char → Reading × List Char) :
    (bound : Nat) → List Char → List Reading × List Char
  | 0, _ => ([.broken none], [])
  | bound + 1, cs =>
    let (first, rest) := element (skip cs)
    match skip rest with
    | ']' :: after => ([first], after)
    | ',' :: more =>
      let (others, after) := elements element bound more
      (first :: others, after)
    | _ => ([first, .broken none], [])

/-- The members of an object after its opening brace, at most `bound` of them. -/
def members (element : List Char → Reading × List Char) :
    (bound : Nat) → List Char → List (Option String × Reading) × List Char
  | 0, _ => ([(none, .broken none)], [])
  | bound + 1, cs =>
    match skip cs with
    | '"' :: name =>
      match stringRest name with
      | none => ([(none, .broken none)], [])
      | some (key, afterKey) =>
        match skip afterKey with
        | ':' :: body =>
          let (value, rest) := element (skip body)
          match skip rest with
          | '\x7d' :: after => ([(key, value)], after)
          | ',' :: more =>
            let (others, after) := members element bound more
            ((key, value) :: others, after)
          | _ => ([(key, value), (none, .broken none)], [])
        | _ => ([(key, .broken none)], [])
    | other => ([(none, .broken (some (element other).1))], [])

/-- How deep arrays and objects may nest. -/
def deepest : Nat := 127

/-- An array or an object inside `level` others. -/
def nested (level : Nat) (r : Reading) : Reading := if level < deepest then r else .unusable r

/-- The value in front of the characters, inside `level` arrays and objects.  `fuel` bounds how deep
it nests. -/
def value : (fuel level : Nat) → List Char → Reading × List Char
  | 0, _, _ => stopped
  | fuel + 1, level, cs =>
    match cs with
    | 'n' :: 'u' :: 'l' :: 'l' :: rest => (.null, rest)
    | 't' :: 'r' :: 'u' :: 'e' :: rest => (.bool true, rest)
    | 'f' :: 'a' :: 'l' :: 's' :: 'e' :: rest => (.bool false, rest)
    | '"' :: rest =>
      match stringRest rest with
      | some (some text, after) => (.string text, after)
      | some (none, after) => (.unusable .null, after)
      | none => stopped
    | '[' :: rest =>
      match skip rest with
      | ']' :: after => (nested level (.array []), after)
      | _ =>
        let (items, after) := elements (value fuel (level + 1)) rest.length rest
        (nested level (.array items), after)
    | '\x7b' :: rest =>
      match skip rest with
      | '\x7d' :: after => (nested level (.object []), after)
      | _ =>
        let (found, after) := members (value fuel (level + 1)) rest.length rest
        (nested level (.object found), after)
    | _ =>
      match numeral cs with
      | some (n, after) => (n.value?.getD (.unusable .null), after)
      | none => stopped

/-- What a text holds, and what follows the white space after it. -/
def read (text : String) : Reading × List Char :=
  let cs := skip text.toList
  let (r, rest) := value (cs.length + 1) 0 cs
  (r, skip rest)

/-- The document a text denotes, with nothing but white space around it. -/
def parse? (text : String) : Option Json :=
  match read text with
  | (r, []) => r.json?
  | _ => none

end ServiceSim.Json
