import ServiceSim.Model.Transition
import ServiceSim.Model.Usage

/-!
# Behaviors

A behavior is a chain of actions that starts at its one start action and follows successors.
Branches, loops, collection iterators and forks hold behaviors of their own.

`Behavior.ofActions` builds a behavior from any list of actions and accepts it exactly if it is
such a chain.  The conditions are checked in a fixed order, so the error of a list that violates
several is that of the first.
-/

namespace ServiceSim

/-- Work that an action asks a resource for. -/
structure ResourceDemand where
  /-- The type of the resource. -/
  resource : String
  /-- The amount of work. -/
  specification : Specification

/-- A call of a service through a required role. -/
structure ExternalCall where
  /-- The required role of the calling component. -/
  role : String
  /-- The service of the component that provides the role. -/
  service : String
  /-- What is passed, evaluated in the frame of the caller. -/
  inputs : List VariableUsage
  /-- What is returned, evaluated in the result frame of the callee. -/
  returns : List VariableUsage

mutual

/-- What an action does. -/
inductive ActionKind where
  | start
  | stop
  | internal (demands : List ResourceDemand)
  | externalCall (call : ExternalCall)
  | branch (transitions : List BranchTransition)
  | loop (iterations : Specification) (body : Behavior)
  | collectionIterator (parameter : String) (body : Behavior)
  | setVariable (usages : List VariableUsage)
  | fork (asynchronous synchronous : List Behavior)

/-- A node of a chain. -/
structure Action where
  id : ActionId
  name : String
  successor : Option ActionId
  kind : ActionKind

/-- One alternative of a branch. -/
structure BranchTransition where
  condition : TransitionCondition
  behavior : Behavior

/-- A chain of actions. -/
structure Behavior where
  name : String
  actions : List Action

end

/-- The name of a kind of action in messages. -/
def ActionKind.label : ActionKind → String
  | start => "start"
  | stop => "stop"
  | internal _ => "internal"
  | externalCall _ => "external call"
  | branch _ => "branch"
  | loop _ _ => "loop"
  | collectionIterator _ _ => "collection iterator"
  | setVariable _ => "set variable"
  | fork _ _ => "fork"

/-- An action in messages. -/
def Action.text (a : Action) : String := a.kind.label ++ " '" ++ a.name ++ "' (" ++ a.id ++ ")"

/-- Whether an action starts a chain. -/
def Action.isStart (a : Action) : Bool :=
  match a.kind with
  | .start => true
  | _ => false

namespace Behavior

/-! ## Walking the chain -/

/-- The start action. -/
def start? (b : Behavior) : Option Action := b.actions.find? Action.isStart

/-- The action with an identifier. -/
def action? (b : Behavior) (id : ActionId) : Option Action := b.actions.find? (·.id == id)

/-- The action after another one. -/
def successor? (b : Behavior) (a : Action) : Option Action := a.successor.bind b.action?

/-- The actions from one on, along successors, at most `bound` of them. -/
def chainFrom (b : Behavior) : (bound : Nat) → Option Action → List Action
  | 0, _ => []
  | _, none => []
  | bound + 1, some a => a :: chainFrom b bound (b.successor? a)

/-- The actions from the start on, along successors. -/
def chain (b : Behavior) : List Action := b.chainFrom b.actions.length b.start?

/-! ## Well-formed chains -/

/-- The first element of a list that also stands before it. -/
def firstRepeated : List String → List String → Option String
  | _, [] => none
  | seen, a :: rest => if seen.contains a then some a else firstRepeated (a :: seen) rest

/-- The first action whose successor is not an action of the behavior, with that successor. -/
def danglingSuccessor (b : Behavior) : List Action → Option (ActionId × ActionId)
  | [] => none
  | a :: rest =>
    match a.successor with
    | some s => if (b.action? s).isSome then danglingSuccessor b rest else some (a.id, s)
    | none => danglingSuccessor b rest

/-- The first action that a walk along successors meets again.  The walk makes at most `bound`
steps, and as it meets new actions until then, the number of actions and one more suffice. -/
def revisited (b : Behavior) : (bound : Nat) → List ActionId → Option Action → Option ActionId
  | 0, _, _ => none
  | _, _, none => none
  | bound + 1, seen, some a =>
    if seen.contains a.id then some a.id else revisited b bound (a.id :: seen) (b.successor? a)

/-- The fault of a list of actions that is not a chain. -/
def fault? (b : Behavior) : Option ModelError :=
  let starts := (b.actions.filter Action.isStart).length
  match firstRepeated [] (b.actions.map Action.id) with
  | some id => some (.duplicateAction b.name id)
  | none =>
    if starts ≠ 1 then some (.startAction b.name starts)
    else match b.danglingSuccessor b.actions with
      | some (id, successor) => some (.missingSuccessor b.name id successor)
      | none =>
        match b.revisited (b.actions.length + 1) [] b.start? with
        | some id => some (.successorCycle b.name id)
        | none =>
          (firstRepeated [] (b.actions.filterMap Action.successor)).map (.sharedSuccessor b.name)

/-- The behavior of a list of actions, if they form a chain. -/
def ofActions (name : String) (actions : List Action) : Except ModelError Behavior :=
  let b : Behavior := ⟨name, actions⟩
  match b.fault? with
  | some e => .error e
  | none => .ok b

end Behavior

end ServiceSim
