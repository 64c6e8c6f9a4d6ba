import ServiceSim.Number.Layout

/-!
# Values

The values that expressions evaluate to, their types, and the conversions between them.  Integers
have 64 bits; a result outside that range is never wrapped.
-/

namespace ServiceSim

/-- The type of a value. -/
inductive ValueType where
  | integer
  | double
  | boolean
  | enumeration
deriving DecidableEq, Repr

/-- The name of a type in messages. -/
def ValueType.name : ValueType → String
  | integer => "integer"
  | double => "double"
  | boolean => "boolean"
  | enumeration => "enum"

/-- What an expression evaluates to. -/
inductive Value where
  | int (n : Int64)
  | double (x : Float)
  | bool (b : Bool)
  | enum (text : String)
deriving BEq, Repr

/-- The 64-bit integer that equals an integer, if there is one. -/
def int64? (n : Int) : Option Int64 :=
  if Int64.minValue.toInt ≤ n ∧ n ≤ Int64.maxValue.toInt then some (Int64.ofInt n) else none

/-- The double nearest to a 64-bit integer. -/
def doubleOfInt (n : Int64) : Float := Float.ofInt n.toInt

namespace Value

/-- The type of a value. -/
def type : Value → ValueType
  | int _ => .integer
  | double _ => .double
  | bool _ => .boolean
  | enum _ => .enumeration

/-- The value as a double; integers are widened. -/
def toDouble? : Value → Option Float
  | int n => some (doubleOfInt n)
  | double x => some x
  | _ => none

/-- The value as an integer; a double counts if it is a whole number in range. -/
def toInteger? : Value → Option Int64
  | int n => some n
  | double x => (Binary64.toInt? x).bind int64?
  | _ => none

/-- The value as a boolean. -/
def toBool? : Value → Option Bool
  | bool b => some b
  | _ => none

/-- The value in messages. -/
def text : Value → String
  | int n => toString n.toInt
  | double x => Number.text Number.plain x
  | bool true => "true"
  | bool false => "false"
  | enum s => "\"" ++ s ++ "\""

end Value

end ServiceSim
