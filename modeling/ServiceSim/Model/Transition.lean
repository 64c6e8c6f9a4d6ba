import ServiceSim.Expression.Evaluation
import ServiceSim.Model.Error

/-!
# Choosing a transition

A branch chooses one of its transitions, or none.  Either all of them are guarded, and the first
whose guard holds is taken, or all carry probabilities, and one is drawn by cumulative weight.
-/

namespace ServiceSim

/-- How a transition is chosen. -/
inductive TransitionCondition where
  | guard (specification : Specification)
  | probability (p : Float)

/-- Whether a condition is a guard. -/
def TransitionCondition.isGuard : TransitionCondition → Bool
  | guard _ => true
  | probability _ => false

namespace Transition

/-- Why no transition can be chosen. -/
inductive Failure where
  | model (error : ModelError)
  | evaluation (error : EvalError)

/-- A choice that may fail and may draw. -/
abbrev Choice (α : Type) := ExceptT Failure (StateM Source) α

/-- How far probabilities may miss a total of one by default. -/
def defaultTolerance : Float := 1e-6

/-- Fails with an error of the model. -/
def refuse {α : Type} (error : ModelError) : Choice α := ExceptT.mk (pure (.error (.model error)))

/-- The target of the first guard that holds. -/
def firstGuard {α : Type} (scope : Scope) :
    List (TransitionCondition × α) → Choice (Option α)
  | [] => pure none
  | (.probability _, _) :: rest => firstGuard scope rest
  | (.guard specification, a) :: rest => do
    let holds ← ExceptT.mk (do
      match ← (specification.evaluateBool scope).run with
      | .ok b => return .ok b
      | .error e => return .error (Failure.evaluation e))
    if holds then return some a else firstGuard scope rest

/-- The targets with their weights, unless one of the weights is no probability. -/
def weights {α : Type} :
    List (TransitionCondition × α) → Except ProbabilityFault (List (α × Float))
  | [] => .ok []
  | (.guard _, _) :: rest => weights rest
  | (.probability p, a) :: rest =>
    if Binary64.isFinite p && 0 ≤ p then (weights rest).map ((a, p) :: ·)
    else .error (.notProbability p)

/-- A target drawn by weight. -/
def draw {α : Type} (tolerance : Float) (branch : ActionId)
    (transitions : List (TransitionCondition × α)) : Choice (Option α) :=
  match weights transitions with
  | .error fault => refuse (.invalidBranchProbabilities branch fault)
  | .ok items => do
    let total := items.foldl (fun sum item => sum + item.2) (-0.0)
    if tolerance < (total - 1).abs then
      refuse (.invalidBranchProbabilities branch (.total total))
    else
      let u ← ExceptT.lift (modifyGet Source.unit)
      return Sampler.weighted items u

/-- The target of the transition that a branch chooses. -/
def choose {α : Type} (tolerance : Float) (branch : ActionId)
    (transitions : List (TransitionCondition × α)) (scope : Scope) : Choice (Option α) :=
  match transitions with
  | [] => pure none
  | (first, _) :: _ =>
    if transitions.any fun t => t.1.isGuard != first.isGuard then
      refuse (.mixedBranchTransitions branch)
    else if first.isGuard then firstGuard scope transitions
    else draw tolerance branch transitions

end Transition

end ServiceSim
