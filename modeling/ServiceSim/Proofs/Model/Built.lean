import ServiceSim.Model.System
import Mathlib.Tactic.Lemma

/-!
# Models that have been built

A model is built of behaviors that have been accepted as chains, at every depth at which they nest,
and of specifications that have been read from texts.  This is what loading a file, a builder and the
checks of actions leave of all models that could be written down.
-/

namespace ServiceSim

/-- A specification that has been read from a text. -/
def Specification.IsParsed (s : Specification) : Prop := ∃ text, Specification.parse text = .ok s

/-- The specification that a text denotes; a text that denotes none is taken for a name. -/
def Specification.ofText (text : String) : Specification :=
  match Specification.parse text with
  | .ok s => s
  | .error _ => .variable_ text

lemma Specification.isParsed_ofText {text : String} (h : (Specification.parse text).isOk = true) :
    (Specification.ofText text).IsParsed := by
  rw [Specification.ofText]
  cases hparse : Specification.parse text with
  | ok s => exact ⟨text, hparse⟩
  | error e =>
    rw [hparse] at h
    cases h

/-- A usage of which all specifications have been read from texts. -/
def VariableUsage.IsParsed (u : VariableUsage) : Prop :=
  ∀ c ∈ u.characterisations, c.specification.IsParsed

/-- A condition of which the guard has been read from a text. -/
def TransitionCondition.IsParsed : TransitionCondition → Prop
  | guard s => s.IsParsed
  | probability _ => True

mutual

/-- A kind of action whose specifications have been read and whose behaviors have been built. -/
def ActionKind.IsBuilt : ActionKind → Prop
  | .start => True
  | .stop => True
  | .internal demands => ∀ d ∈ demands, d.specification.IsParsed
  | .externalCall call =>
    (∀ u ∈ call.inputs, u.IsParsed) ∧ ∀ u ∈ call.returns, u.IsParsed
  | .branch transitions => areTransitionsBuilt transitions
  | .loop iterations body => iterations.IsParsed ∧ body.IsBuilt
  | .collectionIterator _ body => body.IsBuilt
  | .setVariable usages => ∀ u ∈ usages, u.IsParsed
  | .fork asynchronous synchronous =>
    areBehaviorsBuilt asynchronous ∧ areBehaviorsBuilt synchronous

/-- An action of a kind that has been built. -/
def Action.IsBuilt : Action → Prop
  | ⟨_, _, _, kind⟩ => kind.IsBuilt

/-- A transition whose behavior has been built. -/
def BranchTransition.IsBuilt : BranchTransition → Prop
  | ⟨condition, behavior⟩ => condition.IsParsed ∧ behavior.IsBuilt

/-- A behavior that has been accepted as a chain, with all that it holds. -/
def Behavior.IsBuilt : Behavior → Prop
  | ⟨name, actions⟩ => Behavior.ofActions name actions = .ok ⟨name, actions⟩ ∧ areActionsBuilt actions

/-- Actions that have been built. -/
def areActionsBuilt : List Action → Prop
  | [] => True
  | a :: rest => a.IsBuilt ∧ areActionsBuilt rest

/-- Transitions that have been built. -/
def areTransitionsBuilt : List BranchTransition → Prop
  | [] => True
  | t :: rest => t.IsBuilt ∧ areTransitionsBuilt rest

/-- Behaviors that have been built. -/
def areBehaviorsBuilt : List Behavior → Prop
  | [] => True
  | b :: rest => b.IsBuilt ∧ areBehaviorsBuilt rest

end

/-- A model whose behaviors have been built. -/
def SystemModel.IsBuilt (m : SystemModel) : Prop :=
  ∀ c ∈ m.components, ∀ e ∈ c.services, e.behavior.IsBuilt

end ServiceSim
