import ServiceSim.Expression.Distribution
import ServiceSim.Text

/-!
# The grammar of expressions

A text is read by levels of precedence, from the conditional, which binds least, to atoms.  The
operators of one level join operands of the next:

* `choice`: `condition ? yes : no`, where both branches are choices again;
* `disjunction`: `OR` and `XOR`, to the left;
* `conjunction`: `AND`, to the left;
* `negation`: `NOT`, repeated at will;
* `comparison`: at most one of `==`, `<>` or `!=`, `<=`, `>=`, `<`, `>`;
* `sum` and `product`: `+ -` and `* / %`, to the left;
* `power`: `^`, to the right;
* `sign`: a minus sign, repeated at will; on a literal it changes the literal;
* `atom`: literals, variables, calls, distributions and parentheses.

`parse` reads a whole text.
-/

namespace ServiceSim.Expression

/-- A level of precedence. -/
inductive Level where
  | choice
  | disjunction
  | conjunction
  | negation
  | comparison
  | sum
  | product
  | power
  | sign
  | atom
deriving DecidableEq, Repr

/-- The first of several operators that stands in front, with what follows it. -/
def firstOf (read : String → List Char → Option (List Char)) (cs : List Char) :
    List (String × BinaryOp) → Option (BinaryOp × List Char)
  | [] => none
  | (word, op) :: more =>
    match read word cs with
    | some rest => some (op, rest)
    | none => firstOf read cs more

/-- The operator of a level in front of the characters.  Where one symbol begins another the longer
one is tried first. -/
def operator? (level : Level) (cs : List Char) : Option (BinaryOp × List Char) :=
  match level with
  | .disjunction => firstOf keyword? cs [("OR", .or), ("XOR", .xor)]
  | .conjunction => firstOf keyword? cs [("AND", .and)]
  | .comparison =>
    firstOf symbol? cs
      [("==", .eq), ("<>", .ne), ("!=", .ne), ("<=", .le), (">=", .ge), ("<", .lt), (">", .gt)]
  | .sum => firstOf symbol? cs [("+", .add), ("-", .sub)]
  | .product => firstOf symbol? cs [("*", .mul), ("/", .div), ("%", .mod)]
  | .power => firstOf symbol? cs [("^", .pow)]
  | _ => none

/-- A minus sign in front of an expression; on a number it changes the number. -/
def negated : Tree → Tree
  | .literal (.int n) => .literal (.int (-n))
  | .literal (.double x) => .literal (.double (-x))
  | tree => .unary .neg tree

/-- The words that are no names, besides the two truth values. -/
def isKeyword (name : String) : Bool :=
  name == "AND" || name == "OR" || name == "XOR" || name == "NOT"

mutual

/-- An expression of a level.  `fuel` bounds the calls; `parse` gives more than any text needs. -/
def expression : (fuel : Nat) → Level → List Char → Except Stop (Tree × List Char)
  | 0, _, cs => stop .endOfInput cs
  | fuel + 1, .choice, cs => do
    let (condition, rest) ← expression fuel .disjunction cs
    match symbol? "?" rest with
    | none => return (condition, rest)
    | some rest =>
      let (yes, rest) ← expression fuel .choice rest
      let rest ← expect ":" rest
      let (no, rest) ← expression fuel .choice rest
      return (.conditional condition yes no, rest)
  | fuel + 1, .disjunction, cs => do
    let (left, rest) ← expression fuel .conjunction cs
    chain fuel .disjunction .conjunction left rest
  | fuel + 1, .conjunction, cs => do
    let (left, rest) ← expression fuel .negation cs
    chain fuel .conjunction .negation left rest
  | fuel + 1, .negation, cs =>
    match keyword? "NOT" cs with
    | some rest => do
      let (operand, rest) ← expression fuel .negation rest
      return (.unary .not operand, rest)
    | none => expression fuel .comparison cs
  | fuel + 1, .comparison, cs => do
    let (left, rest) ← expression fuel .sum cs
    match operator? .comparison rest with
    | none => return (left, rest)
    | some (op, rest) =>
      let (right, rest) ← expression fuel .sum rest
      return (.binary op left right, rest)
  | fuel + 1, .sum, cs => do
    let (left, rest) ← expression fuel .product cs
    chain fuel .sum .product left rest
  | fuel + 1, .product, cs => do
    let (left, rest) ← expression fuel .power cs
    chain fuel .product .power left rest
  | fuel + 1, .power, cs => do
    let (base, rest) ← expression fuel .sign cs
    match operator? .power rest with
    | none => return (base, rest)
    | some (op, rest) =>
      let (exponent, rest) ← expression fuel .power rest
      return (.binary op base exponent, rest)
  | fuel + 1, .sign, cs =>
    match symbol? "-" cs with
    | some rest => do
      let (operand, rest) ← expression fuel .sign rest
      return (negated operand, rest)
    | none => expression fuel .atom cs
  | fuel + 1, .atom, cs => atom fuel (skip cs)

/-- Goes on after the first operand of a level whose operators group to the left. -/
def chain : (fuel : Nat) → (level operand : Level) → Tree → List Char →
    Except Stop (Tree × List Char)
  | 0, _, _, _, cs => stop .endOfInput cs
  | fuel + 1, level, operand, left, cs =>
    match operator? level cs with
    | none => .ok (left, cs)
    | some (op, rest) => do
      let (right, rest) ← expression fuel operand rest
      chain fuel level operand (.binary op left right) rest

/-- An atom, with the white space before it skipped. -/
def atom : (fuel : Nat) → List Char → Except Stop (Tree × List Char)
  | 0, cs => stop .endOfInput cs
  | _ + 1, [] => stop .endOfInput []
  | fuel + 1, c :: cs =>
    if c = '(' then do
      let (inner, rest) ← expression fuel .choice cs
      let rest ← expect ")" rest
      return (inner, rest)
    else if c = '"' then do
      let (text, rest) ← stringLiteral (c :: cs)
      return (.literal (.enum text), rest)
    else if c.isDigit then do
      let (value, rest) ← number (c :: cs)
      return (.literal value, rest)
    else if isNameStart c then
      let (name, rest) := nameRest (c :: cs)
      named fuel (String.ofList name) rest
    else stop .unexpectedCharacter (c :: cs)

/-- What a name begins: a truth value, a distribution, a call or a variable. -/
def named : (fuel : Nat) → String → List Char → Except Stop (Tree × List Char)
  | 0, _, cs => stop .endOfInput cs
  | fuel + 1, name, cs =>
    if name = "true" then .ok (.literal (.bool true), cs)
    else if name = "false" then .ok (.literal (.bool false), cs)
    else if isKeyword name then stop (.unexpectedKeyword name) cs
    else match pmfKind? name with
      | some kind => do
        let (samples, rest) ← bracketed (sample kind) .noSample cs
        return (.pmf kind samples, rest)
      | none =>
        if name = "DoublePDF" then do
          let (intervals, rest) ← bracketed signedDouble .noInterval cs
          return (.pdf intervals, rest)
        else match symbol? "(" cs with
          | none => .ok (.variable name, cs)
          | some rest =>
            match symbol? ")" rest with
            | some rest => .ok (.call name [], rest)
            | none => do
              let (arguments, rest) ← arguments fuel rest
              return (.call name arguments, rest)

/-- The arguments of a call, up to its closing parenthesis. -/
def arguments : (fuel : Nat) → List Char → Except Stop (List Tree × List Char)
  | 0, cs => stop .endOfInput cs
  | fuel + 1, cs => do
    let (first, rest) ← expression fuel .choice cs
    match symbol? ")" rest with
    | some rest => return ([first], rest)
    | none =>
      let rest ← expect "," rest
      let (others, rest) ← arguments fuel rest
      return (first :: others, rest)

end

/-! ## Whole texts -/

/-- The calls that a text may need: between two characters that are read lie at most twelve. -/
def enough (cs : List Char) : Nat := 12 * cs.length + 24

/-- A whole text as an expression, with nothing but white space around it. -/
def whole (cs : List Char) : Except Stop Tree :=
  if skip cs = [] then .error ⟨.emptyExpression, skip cs⟩
  else do
    let (tree, rest) ← expression (enough cs) .choice cs
    if skip rest = [] then return tree else .error ⟨.trailingInput, skip rest⟩

/-- The position at which reading stopped, in bytes from the start of the text. -/
def Stop.offset (cs : List Char) (s : Stop) : Nat := Text.byteSize cs - Text.byteSize s.rest

/-- The expression that a text denotes. -/
def parse (text : String) : Except EvalError Tree :=
  match whole text.toList with
  | .ok tree => .ok tree
  | .error s => .error (.malformed s.fault (s.offset text.toList))

end ServiceSim.Expression
