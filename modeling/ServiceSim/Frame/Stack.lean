import ServiceSim.Interpreter.Error

/-!
# Variable stacks

The frames of one process, the current one on top.  A frame that was pushed for a nested scope is
popped by its identity, so that leaving a scope on a foreign frame is an error.
-/

namespace ServiceSim

/-- The frames of a process, the current one first. -/
structure VariableStack where
  /-- The frames. -/
  frames : List Frame

namespace VariableStack

/-- The stack without frames. -/
def empty : VariableStack := ⟨[]⟩

/-- The number of frames. -/
def depth (s : VariableStack) : Nat := s.frames.length

/-- Puts a frame on top. -/
def push (s : VariableStack) (f : Frame) : VariableStack := ⟨f :: s.frames⟩

/-- The current frame. -/
def current (s : VariableStack) : Except StackFault Frame :=
  match s.frames with
  | [] => .error .noFrame
  | f :: _ => .ok f

/-- Takes the current frame off. -/
def pop (s : VariableStack) : Except StackFault (Frame × VariableStack) :=
  match s.frames with
  | [] => .error .popEmpty
  | f :: rest => .ok (f, ⟨rest⟩)

/-- Takes the current frame off, if it is the expected one. -/
def popExpecting (s : VariableStack) (expected : FrameId) :
    Except StackFault (Frame × VariableStack) :=
  match s.frames with
  | [] => .error .noFrame
  | f :: rest =>
    if f.identity = expected then .ok (f, ⟨rest⟩)
    else .error (.foreignFrame expected f.identity)

/-- Replaces the current frame. -/
def replaceTop (s : VariableStack) (f : Frame) : Except StackFault VariableStack :=
  match s.frames with
  | [] => .error .noFrame
  | _ :: rest => .ok ⟨f :: rest⟩

end VariableStack

end ServiceSim
