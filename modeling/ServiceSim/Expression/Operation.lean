import ServiceSim.Expression.Error
import ServiceSim.Expression.Tree

/-!
# Operators on values

What the operators do with values.  Integer arithmetic is exact: a result outside the 64-bit range
is an error.  An operand that is a double makes an operation one on doubles, and comparisons are
always made on doubles.  `AND` and `OR` are not here, since they may leave their right operand
unevaluated.
-/

namespace ServiceSim.Operation

/-- The error of operands of the wrong types. -/
def unsupported {α : Type} (op : BinaryOp) (left right : Value) : Except EvalError α :=
  .error (.invalidOperands op.symbol (.two left.type right.type))

/-- An exact integer, if it has 64 bits. -/
def exactly (operator : String) (n : Int) : Except EvalError Value :=
  match int64? n with
  | some n => .ok (.int n)
  | none => .error (.invalidOperands operator .overflow)

/-! ## Arithmetic -/

/-- A power of an integer, unless it clearly exceeds 64 bits: beyond the 63rd power only `0`, `1`
and `-1` stay small. -/
def power? (a : Int) (b : Nat) : Option Int :=
  if a = 0 then some (if b = 0 then 1 else 0)
  else if a = 1 then some 1
  else if a = -1 then some (if b % 2 = 0 then 1 else -1)
  else if b < 64 then some (Int.pow a b)
  else none

/-- Arithmetic on integers.  The remainder has the sign of the dividend, a negative exponent gives a
double, and exponents have at most 32 bits. -/
def integers (op : BinaryOp) (a b : Int64) : Except EvalError Value :=
  let overflow := .error (.invalidOperands op.symbol .overflow)
  match op with
  | .add => exactly op.symbol (a.toInt + b.toInt)
  | .sub => exactly op.symbol (a.toInt - b.toInt)
  | .mul => exactly op.symbol (a.toInt * b.toInt)
  | .mod =>
    if b = 0 then .error .divisionByZero
    else if a = Int64.minValue ∧ b = -1 then overflow
    else exactly op.symbol (Int.tmod a.toInt b.toInt)
  | .pow =>
    if b < 0 then .ok (.double (Float.pow (doubleOfInt a) (doubleOfInt b)))
    else if UInt32.size ≤ b.toInt then overflow
    else match power? a.toInt b.toInt.toNat with
      | some n => exactly op.symbol n
      | none => overflow
  | _ => overflow

/-- Arithmetic on doubles. -/
def doubles (op : BinaryOp) (a b : Float) : Except EvalError Value :=
  match op with
  | .add => .ok (.double (a + b))
  | .sub => .ok (.double (a - b))
  | .mul => .ok (.double (a * b))
  | .mod => if b == 0 then .error .divisionByZero else .ok (.double (Binary64.remainder a b))
  | .pow => .ok (.double (Float.pow a b))
  | _ => .error (.invalidOperands op.symbol .overflow)

/-- Arithmetic: on integers if both operands are, on doubles otherwise. -/
def arithmetic (op : BinaryOp) (left right : Value) : Except EvalError Value :=
  match left, right with
  | .int a, .int b => integers op a b
  | _, _ =>
    match left.toDouble?, right.toDouble? with
    | some a, some b => doubles op a b
    | _, _ => unsupported op left right

/-- Division, always of doubles. -/
def divide (left right : Value) : Except EvalError Value :=
  match left.toDouble?, right.toDouble? with
  | some a, some b => if b == 0 then .error .divisionByZero else .ok (.double (a / b))
  | _, _ => unsupported .div left right

/-! ## Comparisons and truth values -/

/-- Whether two values of one type are equal; numbers are one type. -/
def equal? (left right : Value) : Option Bool :=
  match left.toDouble?, right.toDouble? with
  | some a, some b => some (a == b)
  | _, _ =>
    match left, right with
    | .bool a, .bool b => some (a == b)
    | .enum a, .enum b => some (a == b)
    | _, _ => none

/-- Equality or its opposite. -/
def equality (op : BinaryOp) (left right : Value) : Except EvalError Value :=
  match equal? left right with
  | some same => .ok (.bool (if op = .eq then same else !same))
  | none => unsupported op left right

/-- How an operator compares two doubles. -/
def compares (op : BinaryOp) (a b : Float) : Bool :=
  match op with
  | .lt => a < b
  | .le => a ≤ b
  | .gt => b < a
  | _ => b ≤ a

/-- A comparison of two numbers. -/
def comparison (op : BinaryOp) (left right : Value) : Except EvalError Value :=
  match left.toDouble?, right.toDouble? with
  | some a, some b => .ok (.bool (compares op a b))
  | _, _ => unsupported op left right

/-- Applies an operator that needs both of its operands. -/
def binary (op : BinaryOp) (left right : Value) : Except EvalError Value :=
  match op with
  | .add | .sub | .mul | .mod | .pow => arithmetic op left right
  | .div => divide left right
  | .eq | .ne => equality op left right
  | .lt | .le | .gt | .ge => comparison op left right
  | .xor | .and | .or =>
    match left, right with
    | .bool a, .bool b => .ok (.bool (a != b))
    | _, _ => unsupported op left right

/-- Applies an operator to its one operand. -/
def unary (op : UnaryOp) (operand : Value) : Except EvalError Value :=
  match op, operand with
  | .neg, .int n => exactly op.symbol (-n.toInt)
  | .neg, .double x => .ok (.double (-x))
  | .not, .bool b => .ok (.bool (!b))
  | op, operand => .error (.invalidOperands op.symbol (.one operand.type))

/-- The truth value that a logical operator needs. -/
def truth (operator : String) (operand : Value) : Except EvalError Bool :=
  match operand.toBool? with
  | some b => .ok b
  | none => .error (.invalidOperands operator (.one operand.type))

end ServiceSim.Operation
