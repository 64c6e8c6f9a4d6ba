import ServiceSim.Expression.Evaluation
import ServiceSim.NameMap

/-!
# Frames

A frame binds qualified variable names such as `x.VALUE`.  A name that it does not bind itself is
looked up in the snapshot of its parent, so inner frames shadow outer ones.

A binding is a value, or a specification that is evaluated again on every read, in the frame it was
bound in.  That frame was complete before the binding was made, so it lies strictly inside the frame
that holds the binding: reading ends, and a binding never reads itself.  `Frame.scope` is defined by
recursion on this structure.

Every frame has an identity, which its copies share.
-/

namespace ServiceSim

/-- The identity of a frame. -/
abbrev FrameId := Nat

mutual

/-- What a name is bound to. -/
inductive Binding where
  | value (value : Value)
  | late (specification : Specification) (origin : Frame)

/-- A frame with its own bindings, in the order of their names, and its parent. -/
structure Frame where
  identity : FrameId
  own : List (String × Binding)
  parent : Option Frame

end

/-- The identity of a frame in messages. -/
def FrameId.text (id : FrameId) : String := "frame#" ++ toString id

/-- The value of a binding that is not evaluated late. -/
def Binding.value? : Binding → Option Value
  | .value v => some v
  | .late _ _ => none

namespace Frame

/-- A frame that binds nothing and has no parent. -/
def empty (identity : FrameId) : Frame := ⟨identity, [], none⟩

/-- A frame that binds nothing itself. -/
def inside (parent : Frame) (identity : FrameId) : Frame := ⟨identity, [], some parent⟩

/-- Binds a name in the frame itself. -/
def bind (f : Frame) (name : String) (binding : Binding) : Frame :=
  { f with own := NameMap.insert name binding f.own }

/-- Binds a name to a value. -/
def set (f : Frame) (name : String) (value : Value) : Frame := f.bind name (.value value)

/-! ## Looking names up -/

mutual

/-- The own bindings of a frame and of its parents, innermost first. -/
def layers : Frame → List (NameMap Binding)
  | ⟨_, own, parent⟩ => own :: layersOf parent

/-- The layers of a parent. -/
def layersOf : Option Frame → List (NameMap Binding)
  | none => []
  | some f => f.layers

end

/-- The binding of a name, in the innermost frame that binds it. -/
def get? (f : Frame) (name : String) : Option Binding := f.layers.findSome? (·.lookup name)

/-- The value of a name that is bound to one. -/
def value? (f : Frame) (name : String) : Option Value := (f.get? name).bind Binding.value?

/-- Whether a name is bound. -/
def contains (f : Frame) (name : String) : Bool := (f.get? name).isSome

/-- All visible bindings, in the order of their names. -/
def contents (f : Frame) : NameMap Binding := f.layers.foldr NameMap.insertAll []

/-! ## Reading variables -/

end Frame

mutual

/-- What the variables of a frame stand for. -/
def Frame.scope : Frame → Scope
  | ⟨_, own, parent⟩, name =>
    match Frame.scopeOfOwn own name with
    | some value => some value
    | none => Frame.scopeOfParent parent name

/-- What the names bound by a list of pairs stand for. -/
def Frame.scopeOfOwn : List (String × Binding) → Scope
  | [], _ => none
  | pair :: rest, name =>
    match Frame.scopeOfPair pair name with
    | some value => some value
    | none => Frame.scopeOfOwn rest name

/-- What one bound name stands for. -/
def Frame.scopeOfPair : String × Binding → Scope
  | (key, binding), name => if name = key then some binding.read else none

/-- The computation that reads a binding. -/
def Binding.read : Binding → Sampler Value
  | .value v => pure v
  | .late specification origin => specification.tree.evaluate origin.scope

/-- What the variables of a parent stand for. -/
def Frame.scopeOfParent : Option Frame → Scope
  | none, _ => none
  | some f, name => f.scope name

end

end ServiceSim
