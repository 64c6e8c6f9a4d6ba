import ServiceSim.Expression.Operation
import ServiceSim.Expression.Sampling

/-!
# Built-in functions

The functions that expressions may call: distributions, and a few on numbers.  A function is known
by its name and the number of its arguments.
-/

namespace ServiceSim.Function

/-- The number that a function needs. -/
def numeric (function : String) (argument : Value) : Except EvalError Float :=
  match argument.toDouble? with
  | some x => .ok x
  | none => .error (.invalidCall (.notNumeric function argument.type))

/-- Two numbers that a function needs. -/
def numerics (function : String) (first second : Value) : Except EvalError (Float × Float) := do
  return (← numeric function first, ← numeric function second)

/-- Rounds a number to an integer. -/
def whole (function : String) (rounding : Float → Int) (argument : Value) :
    Except EvalError Value := do
  let x ← numeric function argument
  match (if Binary64.isFinite x then int64? (rounding x) else none) with
  | some n => return .int n
  | none => .error (.invalidOperands function (.outOfRange x))

/-- The absolute value, an integer for an integer. -/
def absolute (argument : Value) : Except EvalError Value :=
  match argument with
  | .int n => Operation.exactly "Abs" n.toInt.natAbs
  | _ => (numeric "Abs" argument).map fun x => .double x.abs

/-- Chooses between two numbers, which stay integers if both are. -/
def extreme (function : String) (integers : Int64 → Int64 → Int64)
    (doubles : Float → Float → Float) (first second : Value) : Except EvalError Value :=
  match first, second with
  | .int a, .int b => .ok (.int (integers a b))
  | _, _ => (numerics function first second).map fun (a, b) => .double (doubles a b)

/-- The lesser of two integers. -/
def lesser (a b : Int64) : Int64 := if b < a then b else a

/-- The greater of two integers. -/
def greater (a b : Int64) : Int64 := if a < b then b else a

/-- Calls a function. -/
def call (function : String) (arguments : List Value) : Sampler Value :=
  match function, arguments with
  | "Exp", [rate] => do
    let rate ← Sampler.ofExcept (numeric function rate)
    Sampler.exponential rate
  | "Norm", [mu, sigma] => do
    let (mu, sigma) ← Sampler.ofExcept (numerics function mu sigma)
    Sampler.normal mu sigma
  | "Lognorm", [mu, sigma] => do
    let (mu, sigma) ← Sampler.ofExcept (numerics function mu sigma)
    Sampler.logNormal mu sigma
  | "UniDouble", [low, high] => do
    let (low, high) ← Sampler.ofExcept (numerics function low high)
    Sampler.uniformDouble low high
  | "UniInt", [low, high] => Sampler.uniformInteger low high
  | "Trunc", [x] => Sampler.ofExcept (whole function Binary64.truncate x)
  | "Round", [x] => Sampler.ofExcept (whole function Binary64.round x)
  | "Abs", [x] => Sampler.ofExcept (absolute x)
  | "Min", [a, b] => Sampler.ofExcept (extreme function lesser Binary64.minimum a b)
  | "Max", [a, b] => Sampler.ofExcept (extreme function greater Binary64.maximum a b)
  | _, _ => Sampler.ofExcept (.error (.invalidCall (.unknown function arguments.length)))

end ServiceSim.Function
