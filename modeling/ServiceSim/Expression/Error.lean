import ServiceSim.Expression.Value

/-!
# What can be wrong with an expression

The causes for which a text is no expression or an expression has no value, and the message of each
cause.
-/

namespace ServiceSim

/-- The type that the user of an expression asks for. -/
inductive ExpectedType where
  | any
  | integer
  | double
  | boolean
deriving DecidableEq, Repr

/-- The name of an expected type in messages. -/
def ExpectedType.name : ExpectedType → String
  | any => "any value"
  | integer => "an integer"
  | double => "a double"
  | boolean => "a boolean"

/-- Why a text is no expression. -/
inductive GrammarFault where
  | emptyExpression
  | trailingInput
  | expected (symbol : String)
  | endOfInput
  | unexpectedCharacter
  | unexpectedKeyword (keyword : String)
  | integerSample
  | booleanSample
  | noSample
  | noInterval
  | noNumber
  | integerLiteral
  | doubleLiteral
  | noString
  | openString
deriving DecidableEq, Repr

/-- The message of a fault. -/
def GrammarFault.message : GrammarFault → String
  | emptyExpression => "empty expression"
  | trailingInput => "unexpected trailing input"
  | expected symbol => "expected '" ++ symbol ++ "'"
  | endOfInput => "unexpected end of input"
  | unexpectedCharacter => "unexpected character"
  | unexpectedKeyword keyword => "unexpected keyword '" ++ keyword ++ "'"
  | integerSample => "IntPMF samples must be integers"
  | booleanSample => "BoolPMF samples must be true or false"
  | noSample => "distribution requires at least one sample"
  | noInterval => "density requires at least one interval"
  | noNumber => "expected a number"
  | integerLiteral => "invalid integer literal"
  | doubleLiteral => "invalid double literal"
  | noString => "expected string literal"
  | openString => "unterminated string literal"

/-- What an operator was applied to in vain. -/
inductive Operands where
  | one (type : ValueType)
  | two (left right : ValueType)
  | overflow
  | outOfRange (x : Float)
deriving Repr

/-- The message of operands. -/
def Operands.message : Operands → String
  | one type => type.name
  | two left right => left.name ++ " and " ++ right.name
  | overflow => "integers (overflow)"
  | outOfRange x => Number.text Number.plain x ++ " (outside the integer range)"

/-- Why a distribution cannot be sampled. -/
inductive DistributionFault where
  | rate (x : Float)
  | doubleBounds (low high : Float)
  | integerBounds
  | probability (p : Float)
  | total (sum : Float)
  | densityBounds (upper lower : Float)
  | empty
deriving Repr

/-- The message of a fault. -/
def DistributionFault.message : DistributionFault → String
  | rate x => "Exp rate must be positive, got " ++ Number.text Number.plain x
  | doubleBounds low high =>
    "UniDouble bounds out of order: " ++ Number.text Number.plain low ++ " > " ++
      Number.text Number.plain high
  | integerBounds => "UniInt expects ordered integer bounds"
  | probability p => "probability " ++ Number.text Number.plain p ++ " is not in [0, 1]"
  | total sum => "probabilities sum to " ++ Number.text Number.plain sum ++ " instead of 1"
  | densityBounds upper lower =>
    "density bounds must increase from 0, found " ++ Number.text Number.plain upper ++ " after " ++
      Number.text Number.plain lower
  | empty => "empty distribution"

/-- Why a function cannot be called. -/
inductive CallFault where
  | unknown (function : String) (arguments : Nat)
  | notNumeric (function : String) (type : ValueType)
deriving DecidableEq, Repr

/-- The message of a fault. -/
def CallFault.message : CallFault → String
  | unknown function arguments =>
    function ++ "/" ++ toString arguments ++ " is not a known function"
  | notNumeric function type => function ++ " expects numeric arguments, got " ++ type.name

/-- Why an expression cannot be read or has no value. -/
inductive EvalError where
  | malformed (fault : GrammarFault) (offset : Nat)
  | unknownVariable (name : String)
  | typeMismatch (expression : String) (expected : ExpectedType) (found : ValueType)
  | invalidOperands (operator : String) (operands : Operands)
  | invalidDistribution (fault : DistributionFault)
  | invalidCall (fault : CallFault)
  | divisionByZero
deriving Repr

/-- The kind of an error, a word for programs that tell errors apart. -/
def EvalError.kind : EvalError → String
  | malformed _ _ => "Syntax"
  | unknownVariable _ => "UnknownVariable"
  | typeMismatch _ _ _ => "TypeMismatch"
  | invalidOperands _ _ => "InvalidOperands"
  | invalidDistribution _ => "InvalidDistribution"
  | invalidCall _ => "InvalidCall"
  | divisionByZero => "DivisionByZero"

/-- The message of an error. -/
def EvalError.message : EvalError → String
  | malformed fault offset =>
    "invalid expression syntax: " ++ fault.message ++ " at byte " ++ toString offset
  | unknownVariable name => "variable '" ++ name ++ "' is not bound in the current frame"
  | typeMismatch expression expected found =>
    "expression '" ++ expression ++ "' did not evaluate to " ++ expected.name ++ " (found " ++
      found.name ++ ")"
  | invalidOperands operator operands =>
    "operator '" ++ operator ++ "' cannot be applied to " ++ operands.message
  | invalidDistribution fault => "invalid distribution: " ++ fault.message
  | invalidCall fault => "invalid function call: " ++ fault.message
  | divisionByZero => "division by zero"

end ServiceSim
