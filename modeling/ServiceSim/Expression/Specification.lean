import ServiceSim.Expression.Grammar

/-!
# Specifications

A specification is an expression together with the text it was read from.  Models hold
specifications: they are read once, when the model is built, and evaluated whenever an action needs
a value.
-/

namespace ServiceSim

/-- An expression and its text. -/
structure Specification where
  /-- The text, without the white space around it. -/
  source : String
  /-- The expression it denotes. -/
  tree : Tree

namespace Specification

/-- The specification of a text. -/
def parse (text : String) : Except EvalError Specification :=
  (Expression.parse text).map fun tree => ⟨Text.trim text, tree⟩

/-- The specification that reads one variable, whatever its name. -/
def variable_ (name : String) : Specification := ⟨name, .variable name⟩

end Specification

end ServiceSim
