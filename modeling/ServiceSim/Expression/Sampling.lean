import ServiceSim.Expression.Error
import ServiceSim.Random.Source

/-!
# Sampling

Computations that may fail and that may draw from a random source, and the distributions of the
expression language as such computations.  What has been drawn before a failure stays drawn.

A parameter that makes no sense is refused before anything is drawn.
-/

namespace ServiceSim

/-- A computation that may fail and may draw. -/
abbrev Sampler (α : Type) := ExceptT EvalError (StateM Source) α

namespace Sampler

/-- A computation that draws nothing. -/
def ofExcept {α : Type} (result : Except EvalError α) : Sampler α := ExceptT.mk (pure result)

/-- A draw. -/
def draw {α : Type} (f : Source → α × Source) : Sampler α := ExceptT.lift (modifyGet f)

/-- Fails with a faulty distribution. -/
def refuse {α : Type} (fault : DistributionFault) : Sampler α :=
  ofExcept (.error (.invalidDistribution fault))

/-! ## Named distributions -/

/-- An exponential distribution. -/
def exponential (rate : Float) : Sampler Value := do
  if rate ≤ 0 then refuse (.rate rate)
  else
    let u ← draw Source.unit
    return .double (-(Float.log (1 - u)) / rate)

/-- The ratio of a circle's circumference to its diameter. -/
def pi : Float := 3.141592653589793

/-- A draw from the standard normal distribution, made of two uniform ones. -/
def standardNormal : Sampler Float := do
  let u ← draw Source.unit
  let v ← draw Source.unit
  return Float.sqrt (-2 * Float.log (1 - u)) * Float.cos (2 * pi * v)

/-- A normal distribution. -/
def normal (mu sigma : Float) : Sampler Value := do
  let z ← standardNormal
  return .double (mu + sigma * z)

/-- A logarithmic normal distribution. -/
def logNormal (mu sigma : Float) : Sampler Value := do
  let z ← standardNormal
  return .double (Float.exp (mu + sigma * z))

/-- A uniform distribution of doubles. -/
def uniformDouble (low high : Float) : Sampler Value := do
  if high < low then refuse (.doubleBounds low high)
  else
    let u ← draw Source.unit
    return .double (low + (high - low) * u)

/-- A uniform distribution of integers. -/
def uniformInteger (low high : Value) : Sampler Value :=
  match low.toInteger?, high.toInteger? with
  | some low, some high =>
    if low ≤ high then do
      let n ← draw (Source.integer low high)
      return .int n
    else refuse .integerBounds
  | _, _ => refuse .integerBounds

/-! ## Distribution literals -/

/-- How far probabilities may miss a total of one. -/
def tolerance : Float := 1e-6

/-- The sum of probabilities, unless one of them is none. -/
def total : List Float → Float → Except DistributionFault Float
  | [], sum => .ok sum
  | p :: ps, sum =>
    if !Binary64.isFinite p || p < 0 then .error (.probability p) else total ps (sum + p)

/-- Checks that numbers are probabilities with a total of one. -/
def checkProbabilities (ps : List Float) : Sampler Unit :=
  match total ps 0 with
  | .error fault => refuse fault
  | .ok sum => if tolerance < (sum - 1).abs then refuse (.total sum) else pure ()

/-- The first item for which a draw stays below the sum of the weights up to it. -/
def pick {α : Type} (draw : Float) : List (α × Float) → Float → Option α
  | [], _ => none
  | (a, w) :: rest, sum => if draw < sum + w then some a else pick draw rest (sum + w)

/-- The last item of positive weight. -/
def lastPositive {α : Type} (items : List (α × Float)) : Option α :=
  (items.reverse.find? fun item => 0 < item.2).map (·.1)

/-- The item that a draw selects by cumulative weight.  A draw in the gap that rounding leaves below
one selects the last item that can be drawn at all. -/
def weighted {α : Type} (items : List (α × Float)) (draw : Float) : Option α :=
  match pick draw items 0 with
  | some a => some a
  | none => lastPositive items

/-- A sample of a probability mass function. -/
def mass (samples : List (Value × Float)) : Sampler Value := do
  checkProbabilities (samples.map (·.2))
  let u ← draw Source.unit
  match weighted samples u with
  | some value => return value
  | none => refuse .empty

/-- Checks that upper bounds increase, from zero. -/
def increasing : List (Float × Float) → Float → Except DistributionFault Unit
  | [], _ => .ok ()
  | (upper, _) :: rest, lower =>
    if upper ≤ lower then .error (.densityBounds upper lower) else increasing rest upper

/-- The point of the interval that a draw selects by cumulative weight, as far into it as the draw
is into its weight. -/
def interpolate (draw : Float) : List (Float × Float) → (lower sum : Float) → Float
  | [], lower, _ => lower
  | (upper, p) :: rest, lower, sum =>
    if 0 < p ∧ draw < sum + p then lower + (upper - lower) * ((draw - sum) / p)
    else interpolate draw rest upper (sum + p)

/-- A sample of a density. -/
def density (intervals : List (Float × Float)) : Sampler Value := do
  checkProbabilities (intervals.map (·.2))
  match increasing intervals 0 with
  | .error fault => refuse fault
  | .ok () =>
    let u ← draw Source.unit
    return .double (interpolate u intervals 0 0)

end Sampler

end ServiceSim
