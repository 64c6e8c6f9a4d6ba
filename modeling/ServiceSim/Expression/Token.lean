import ServiceSim.Expression.Error
import ServiceSim.Number.Reading

/-!
# Tokens of expressions

The words of the expression language, read off the front of a list of characters: symbols,
keywords, numbers, names and string literals.  A reader that succeeds returns what it read and the
characters after it.  A reader that fails returns the fault with the characters from the point
where reading stopped, which give its position in the text.

Between tokens stands white space, of which the language knows five characters.
-/

namespace ServiceSim.Expression

/-- A fault and the characters from where it was found. -/
structure Stop where
  /-- What is wrong. -/
  fault : GrammarFault
  /-- The characters that were not read. -/
  rest : List Char

/-- Stops reading. -/
def stop {α : Type} (fault : GrammarFault) (rest : List Char) : Except Stop (α × List Char) :=
  .error ⟨fault, rest⟩

/-! ## Character classes -/

/-- White space between tokens: space, tab, line feed, form feed and carriage return. -/
def isBlank (c : Char) : Bool :=
  c == ' ' || c == '\t' || c == '\n' || c == '\x0c' || c == '\r'

/-- The first character of a name, or of a part of a dotted name. -/
def isNameStart (c : Char) : Bool := c.isAlpha || c == '_'

/-- The other characters of a name. -/
def isNameChar (c : Char) : Bool := c.isAlphanum || c == '_'

/-- Skips white space. -/
def skip (cs : List Char) : List Char := cs.dropWhile isBlank

/-! ## Symbols and keywords -/

/-- What follows a word, if the characters start with it. -/
def after? : (word : List Char) → List Char → Option (List Char)
  | [], cs => some cs
  | _ :: _, [] => none
  | w :: word, c :: cs => if w = c then after? word cs else none

/-- What follows a symbol. -/
def symbol? (symbol : String) (cs : List Char) : Option (List Char) :=
  after? symbol.toList (skip cs)

/-- What follows a keyword, which must not go on as a name. -/
def keyword? (keyword : String) (cs : List Char) : Option (List Char) :=
  (after? keyword.toList (skip cs)).filter fun rest => !(rest.head?.map isNameChar).getD false

/-- Requires a symbol. -/
def expect (symbol : String) (cs : List Char) : Except Stop (List Char) :=
  match symbol? symbol cs with
  | some rest => .ok rest
  | none => .error ⟨.expected symbol, skip cs⟩

/-! ## Numbers -/

/-- The digits after a point, if a digit follows it. -/
def fractionPart (cs : List Char) : Option (List Char × List Char) :=
  match cs with
  | '.' :: rest =>
    let digits := rest.takeWhile Char.isDigit
    if digits.isEmpty then none else some (digits, rest.dropWhile Char.isDigit)
  | _ => none

/-- A number without sign.  It is an integer unless a fraction or an exponent follows its digits;
a point or an exponent mark without digits is left alone. -/
def number (cs : List Char) : Except Stop (Value × List Char) :=
  let whole := cs.takeWhile Char.isDigit
  let rest := cs.dropWhile Char.isDigit
  let (fraction, rest) := (fractionPart rest).getD ([], rest)
  let (exponent, rest) := match Number.exponentPart rest with
    | some (e, rest) => (some e, rest)
    | none => (none, rest)
  if whole.isEmpty ∧ fraction.isEmpty then
    stop (if exponent = none then .noNumber else .doubleLiteral) rest
  else if fraction.isEmpty ∧ exponent = none then
    match int64? (Number.ofDigits whole) with
    | some n => .ok (.int n, rest)
    | none => stop .integerLiteral rest
  else .ok (.double (Number.ofDecimal (Number.assemble whole fraction (exponent.getD 0))), rest)

/-- Changes the sign of a number. -/
def negateNumber : Value → Value
  | .int n => .int (-n)
  | .double x => .double (-x)
  | value => value

/-- A number after at most one minus sign. -/
def signedNumber (cs : List Char) : Except Stop (Value × List Char) :=
  match symbol? "-" cs with
  | some rest => do
    let (value, rest) ← number (skip rest)
    return (negateNumber value, rest)
  | none => number (skip cs)

/-! ## Names and strings -/

/-- The characters of a dotted name.  A point belongs to it if another part follows. -/
def nameRest : List Char → List Char × List Char
  | [] => ([], [])
  | c :: cs =>
    if isNameChar c || (c == '.' && (cs.head?.map isNameStart).getD false) then
      let (name, rest) := nameRest cs
      (c :: name, rest)
    else ([], c :: cs)

/-- A string literal: all characters up to the next quote. -/
def stringLiteral (cs : List Char) : Except Stop (String × List Char) :=
  match skip cs with
  | '"' :: rest =>
    let text := rest.takeWhile (· != '"')
    match rest.dropWhile (· != '"') with
    | _ :: after => .ok (String.ofList text, after)
    | [] => stop .openString []
  | other => stop .noString other

end ServiceSim.Expression
