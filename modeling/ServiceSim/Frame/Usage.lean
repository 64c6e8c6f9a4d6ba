import ServiceSim.Frame.Basic
import ServiceSim.Model.Usage

/-!
# Binding usages

Binding evaluates the characterisations of usages in one frame and binds the results in another.
All of them see the frame they are evaluated in as it was before, whatever has been bound already.
Characterisations of the elements of a collection are not evaluated: they are bound late, to a
snapshot of that frame.

`resolveInner` does the converse for one element: it samples every late binding below a prefix and
binds the samples.

A failure ends binding.  What has been bound and drawn until then stays, so the outcome has both.
-/

namespace ServiceSim

/-- What came of binding. -/
structure BindOutcome where
  /-- The error of the evaluation that failed. -/
  failure : Option EvalError
  /-- The frame with what has been bound. -/
  target : Frame
  /-- The random source with what has been drawn. -/
  source : Source
  /-- The names that have been bound, in order. -/
  names : List String

/-- Binds names one after another to what their computations return. -/
def bindEach : List (String × Sampler Binding) → Frame → Source → BindOutcome
  | [], target, source => ⟨none, target, source, []⟩
  | (name, computation) :: rest, target, source =>
    match computation source with
    | (.error e, source) => ⟨some e, target, source, []⟩
    | (.ok binding, source) =>
      let outcome := bindEach rest (target.bind name binding) source
      { outcome with names := name :: outcome.names }

/-- What a characterisation is bound to. -/
def VariableUsage.bindingOf (u : VariableUsage) (context : Frame) (c : Characterisation) :
    Sampler Binding :=
  if u.isInner then pure (.late c.specification context)
  else do
    let value ← c.specification.evaluate context.scope .any
    return .value value

/-- The names of usages with what they are bound to, in the order of their declaration. -/
def bindingsOf (usages : List VariableUsage) (context : Frame) : List (String × Sampler Binding) :=
  usages.flatMap fun u => u.characterisations.map fun c => (u.nameOf c, u.bindingOf context c)

/-- Binds usages, evaluated in `context`, in `target`. -/
def bindUsages (usages : List VariableUsage) (context target : Frame) (source : Source) :
    BindOutcome :=
  bindEach (bindingsOf usages context) target source

/-- The late bindings of a frame below a prefix, as computations of a sample. -/
def innerBindings (f : Frame) (stem : String) : List (String × Sampler Binding) :=
  f.contents.filterMap fun (name, binding) =>
    if name.startsWith stem then
      match binding with
      | .late specification origin => some (name, do
          let value ← specification.evaluate origin.scope .any
          return .value value)
      | .value _ => none
    else none

/-- Samples the late bindings that are visible in a frame below a prefix and binds the samples. -/
def resolveInner (f : Frame) (stem : String) (target : Frame) (source : Source) : BindOutcome :=
  bindEach (innerBindings f stem) target source

end ServiceSim
