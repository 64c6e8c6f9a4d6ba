import ServiceSim.Expression.Value

/-!
# Expression trees

The abstract form of an expression: literals and variables combined by operators, a conditional,
calls of built-in functions, and two kinds of distribution literals.
-/

namespace ServiceSim

/-- Operators between two expressions. -/
inductive BinaryOp where
  | add
  | sub
  | mul
  | div
  | mod
  | pow
  | eq
  | ne
  | lt
  | le
  | gt
  | ge
  | and
  | or
  | xor
deriving DecidableEq, Repr

/-- The symbol of an operator. -/
def BinaryOp.symbol : BinaryOp → String
  | add => "+"
  | sub => "-"
  | mul => "*"
  | div => "/"
  | mod => "%"
  | pow => "^"
  | eq => "=="
  | ne => "<>"
  | lt => "<"
  | le => "<="
  | gt => ">"
  | ge => ">="
  | and => "AND"
  | or => "OR"
  | xor => "XOR"

/-- Operators before one expression. -/
inductive UnaryOp where
  | neg
  | not
deriving DecidableEq, Repr

/-- The symbol of an operator. -/
def UnaryOp.symbol : UnaryOp → String
  | neg => "-"
  | not => "NOT"

/-- The type of the samples of a probability mass function. -/
inductive PmfKind where
  | int
  | double
  | bool
  | enum
deriving DecidableEq, Repr

/-- An expression. -/
inductive Tree where
  | literal (value : Value)
  | variable (name : String)
  | unary (op : UnaryOp) (operand : Tree)
  | binary (op : BinaryOp) (left right : Tree)
  | conditional (condition yes no : Tree)
  | call (function : String) (arguments : List Tree)
  /-- Discrete samples, each with its probability. -/
  | pmf (kind : PmfKind) (samples : List (Value × Float))
  /-- Intervals given by their upper bounds, each with its probability; the first starts at zero. -/
  | pdf (intervals : List (Float × Float))

end ServiceSim
