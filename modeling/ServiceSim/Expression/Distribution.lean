import ServiceSim.Expression.Tree
import ServiceSim.Expression.Token

/-!
# Distribution literals

A probability mass function lists samples and a density lists intervals, each in parentheses with
its probability, all between brackets.  At least one must be there; whether the probabilities make
sense is found out when the literal is sampled.
-/

namespace ServiceSim.Expression

/-- A number as a double. -/
def doubleOf : Value → Float
  | .int n => doubleOfInt n
  | .double x => x
  | _ => 0

/-- A number after at most one minus sign, as a double. -/
def signedDouble (cs : List Char) : Except Stop (Float × List Char) := do
  let (value, rest) ← signedNumber cs
  return (doubleOf value, rest)

/-- A sample of a kind. -/
def sample (kind : PmfKind) (cs : List Char) : Except Stop (Value × List Char) :=
  match kind with
  | .int => do
    let (value, rest) ← signedNumber cs
    match value with
    | .int _ => return (value, rest)
    | _ => stop .integerSample rest
  | .double => do
    let (x, rest) ← signedDouble cs
    return (.double x, rest)
  | .bool =>
    match keyword? "true" cs, keyword? "false" cs with
    | some rest, _ => .ok (.bool true, rest)
    | none, some rest => .ok (.bool false, rest)
    | none, none => stop .booleanSample (skip cs)
  | .enum => do
    let (text, rest) ← stringLiteral cs
    return (.enum text, rest)

/-- An entry: something and its probability, in parentheses. -/
def entry {α : Type} (item : List Char → Except Stop (α × List Char)) (cs : List Char) :
    Except Stop ((α × Float) × List Char) := do
  let rest ← expect "(" cs
  let (a, rest) ← item rest
  let rest ← expect ";" rest
  let (p, rest) ← signedDouble rest
  let rest ← expect ")" rest
  return ((a, p), rest)

/-- Entries up to the closing bracket, at most `bound` of them. -/
def entries {α : Type} (item : List Char → Except Stop (α × List Char)) :
    (bound : Nat) → List Char → Except Stop (List (α × Float) × List Char)
  | 0, cs => stop .endOfInput cs
  | bound + 1, cs =>
    match symbol? "]" cs with
    | some rest => .ok ([], rest)
    | none => do
      let (first, rest) ← entry item cs
      let (others, rest) ← entries item bound rest
      return (first :: others, rest)

/-- At least one entry between brackets. -/
def bracketed {α : Type} (item : List Char → Except Stop (α × List Char)) (none : GrammarFault)
    (cs : List Char) :
    Except Stop (List (α × Float) × List Char) := do
  let rest ← expect "[" cs
  let (found, rest) ← entries item (rest.length + 1) rest
  if found.isEmpty then stop none rest else return (found, rest)

/-- The kind of probability mass function that a name announces. -/
def pmfKind? : String → Option PmfKind
  | "IntPMF" => some .int
  | "DoublePMF" => some .double
  | "BoolPMF" => some .bool
  | "EnumPMF" => some .enum
  | _ => none

end ServiceSim.Expression
