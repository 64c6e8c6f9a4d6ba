import ServiceSim.Expression.Function
import ServiceSim.Expression.Specification

/-!
# Evaluating expressions

`Tree.evaluate` gives an expression its value in a scope, which says what each variable stands for.
A variable may stand for a computation of its own, so reading it may draw or fail.

Operands are evaluated from left to right.  `AND` and `OR` evaluate their right operand only if the
left one does not settle the result, and a conditional evaluates one of its branches.
-/

namespace ServiceSim

/-- What variables stand for: nothing for an unbound one. -/
abbrev Scope := String → Option (Sampler Value)

/-- The scope that binds nothing. -/
def Scope.empty : Scope := fun _ => none

mutual

/-- The value of an expression in a scope. -/
def Tree.evaluate (scope : Scope) : Tree → Sampler Value
  | .literal value => pure value
  | .variable name =>
    match scope name with
    | some value => value
    | none => Sampler.ofExcept (.error (.unknownVariable name))
  | .unary op operand => do
    let value ← operand.evaluate scope
    Sampler.ofExcept (Operation.unary op value)
  | .binary op left right =>
    match op with
    | .and => do
      let l ← left.evaluate scope
      if ← Sampler.ofExcept (Operation.truth BinaryOp.and.symbol l) then
        let r ← right.evaluate scope
        return .bool (← Sampler.ofExcept (Operation.truth BinaryOp.and.symbol r))
      else return .bool false
    | .or => do
      let l ← left.evaluate scope
      if ← Sampler.ofExcept (Operation.truth BinaryOp.or.symbol l) then return .bool true
      else
        let r ← right.evaluate scope
        return .bool (← Sampler.ofExcept (Operation.truth BinaryOp.or.symbol r))
    | op => do
      let l ← left.evaluate scope
      let r ← right.evaluate scope
      Sampler.ofExcept (Operation.binary op l r)
  | .conditional condition yes no => do
    let c ← condition.evaluate scope
    if ← Sampler.ofExcept (Operation.truth "?:" c) then yes.evaluate scope else no.evaluate scope
  | .call function arguments => do
    let values ← Tree.evaluateAll scope arguments
    Function.call function values
  | .pmf _ samples => Sampler.mass samples
  | .pdf intervals => Sampler.density intervals

/-- The values of expressions, from left to right. -/
def Tree.evaluateAll (scope : Scope) : List Tree → Sampler (List Value)
  | [] => pure []
  | first :: rest => do
    let value ← first.evaluate scope
    let values ← Tree.evaluateAll scope rest
    return value :: values

end

/-! ## Values of a type -/

namespace Specification

/-- The error of a value that has not the type asked for. -/
def mismatch {α : Type} (s : Specification) (expected : ExpectedType) (found : Value) :
    Except EvalError α :=
  .error (.typeMismatch s.source expected found.type)

/-- Converts a value to a type. -/
def convert {α : Type} (s : Specification) (expected : ExpectedType) (view : Value → Option α)
    (value : Value) : Except EvalError α :=
  match view value with
  | some a => .ok a
  | none => s.mismatch expected value

/-- The value of a specification, as a value of the type asked for. -/
def evaluate (s : Specification) (scope : Scope) (expected : ExpectedType) : Sampler Value := do
  let value ← s.tree.evaluate scope
  Sampler.ofExcept <|
    match expected with
    | .any => .ok value
    | .integer => (s.convert .integer Value.toInteger? value).map .int
    | .double => (s.convert .double Value.toDouble? value).map .double
    | .boolean => (s.convert .boolean Value.toBool? value).map .bool

/-- The value of a specification as a double. -/
def evaluateDouble (s : Specification) (scope : Scope) : Sampler Float := do
  let value ← s.tree.evaluate scope
  Sampler.ofExcept (s.convert .double Value.toDouble? value)

/-- The value of a specification as an integer. -/
def evaluateInteger (s : Specification) (scope : Scope) : Sampler Int64 := do
  let value ← s.tree.evaluate scope
  Sampler.ofExcept (s.convert .integer Value.toInteger? value)

/-- The value of a specification as a truth value. -/
def evaluateBool (s : Specification) (scope : Scope) : Sampler Bool := do
  let value ← s.tree.evaluate scope
  Sampler.ofExcept (s.convert .boolean Value.toBool? value)

end Specification

end ServiceSim
