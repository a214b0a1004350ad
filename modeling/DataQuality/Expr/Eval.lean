import DataQuality.Expr.Basic

/-!
# Evaluating expressions

Connectives stop at the first operand that decides them. Null can be tested for equality only;
ordering or calculating with it is a type error, as is mixing kinds of operands.
-/

namespace DataQuality

/-- A value that an expression can have. -/
inductive Scalar where
  | null
  | bool (value : Bool)
  | number (value : Float)
  | text (value : String)

/-- The kinds of scalars. -/
inductive Scalar.Kind where
  | null
  | boolean
  | number
  | text
  deriving DecidableEq, Repr

/-- The kind as error messages name it. -/
def Scalar.Kind.name : Scalar.Kind → String
  | .null => "null"
  | .boolean => "boolean"
  | .number => "number"
  | .text => "text"

/-- The kind of a scalar. -/
def Scalar.kind : Scalar → Scalar.Kind
  | .null => .null
  | .bool _ => .boolean
  | .number _ => .number
  | .text _ => .text

/-- Why an expression has no value, or none that decides a test. -/
inductive EvaluationError where
  | unbound (name : String)
  | unavailable (name reason : String)
  | nonScalar (name kind : String)
  | divisionByZero
  | typeMismatch (op : BinaryOp) (left right : Scalar.Kind)
  | unaryTypeMismatch (op : UnaryOp) (operand : Scalar.Kind)
  | connectiveTypeMismatch (op : Connective) (operand : Scalar.Kind)
  | notBoolean (kind : Scalar.Kind)
  deriving DecidableEq, Repr

/-- The message of an evaluation error. -/
def EvaluationError.message : EvaluationError → String
  | unbound name => "identifier '" ++ name ++ "' is not bound"
  | unavailable name reason => "'" ++ name ++ "' has no value: " ++ reason
  | nonScalar name kind => "'" ++ name ++ "' is a " ++ kind ++ ", not a scalar"
  | divisionByZero => "division by zero"
  | typeMismatch op left right =>
    "cannot apply '" ++ op.symbol ++ "' to " ++ left.name ++ " and " ++ right.name
  | unaryTypeMismatch op operand => "cannot apply '" ++ op.symbol ++ "' to " ++ operand.name
  | connectiveTypeMismatch op operand => "cannot apply '" ++ op.symbol ++ "' to " ++ operand.name
  | notBoolean kind => "test must evaluate to a boolean, got " ++ kind.name

/-- Whether two scalars are equal: kinds never mix, and a float that is not a number differs from
itself. -/
def Scalar.equal : Scalar → Scalar → Bool
  | .number a, .number b => a == b
  | .text a, .text b => a == b
  | .bool a, .bool b => a == b
  | .null, .null => true
  | _, _ => false

/-- Whether a comparison holds between two numbers; with one that is not a number only `ne` does. -/
def Comparison.ofNumbers (op : Comparison) (a b : Float) : Bool :=
  match op with
  | .eq => a == b
  | .ne => a != b
  | .lt => a < b
  | .le => a ≤ b
  | .gt => b < a
  | .ge => b ≤ a

/-- Whether a comparison holds between two texts, which are ordered by their characters. -/
def Comparison.ofTexts (op : Comparison) (a b : String) : Bool :=
  match op with
  | .eq => a == b
  | .ne => a != b
  | .lt => a < b
  | .le => a ≤ b
  | .gt => b < a
  | .ge => b ≤ a

/-- Compares two scalars. -/
def Comparison.apply (op : Comparison) (left right : Scalar) : Except EvaluationError Scalar :=
  match op with
  | .eq => .ok (.bool (left.equal right))
  | .ne => .ok (.bool (!left.equal right))
  | op =>
    match left, right with
    | .number a, .number b => .ok (.bool (op.ofNumbers a b))
    | .text a, .text b => .ok (.bool (op.ofTexts a b))
    | _, _ => .error (.typeMismatch (.comparison op) left.kind right.kind)

/-- Calculates with two scalars. -/
def Arithmetic.apply (op : Arithmetic) (left right : Scalar) : Except EvaluationError Scalar :=
  match op, left, right with
  | .add, .number a, .number b => .ok (.number (a + b))
  | .add, .text a, .text b => .ok (.text (a ++ b))
  | .sub, .number a, .number b => .ok (.number (a - b))
  | .mul, .number a, .number b => .ok (.number (a * b))
  | .div, .number a, .number b =>
    if b == 0.0 then .error .divisionByZero else .ok (.number (a / b))
  | _, _, _ => .error (.typeMismatch (.arithmetic op) left.kind right.kind)

/-- Applies an operator to its only operand. -/
def UnaryOp.apply (op : UnaryOp) (operand : Scalar) : Except EvaluationError Scalar :=
  match op, operand with
  | .neg, .number a => .ok (.number (-a))
  | .not, .bool b => .ok (.bool (!b))
  | _, _ => .error (.unaryTypeMismatch op operand.kind)

/-- The truth value of a connective's operand. -/
def Connective.operand (op : Connective) : Scalar → Except EvaluationError Bool
  | .bool b => .ok b
  | other => .error (.connectiveTypeMismatch op other.kind)

/-- Whether the left operand decides the connective, whatever the right one is. -/
def Connective.decidedBy (op : Connective) (left : Bool) : Bool :=
  match op with
  | .and => !left
  | .or => left

/-- The value of an expression; `names` gives the values of the names it refers to. -/
def Expr.eval (names : String → Option Scalar) : Expr → Except EvaluationError Scalar
  | .number value => .ok (.number value)
  | .text value => .ok (.text value)
  | .bool value => .ok (.bool value)
  | .null => .ok .null
  | .identifier name =>
    match names name with
    | some value => .ok value
    | none => .error (.unbound name)
  | .unary op operand => (operand.eval names).bind op.apply
  | .binary (.connective op) left right =>
    (left.eval names).bind fun l ↦ (op.operand l).bind fun l ↦
      if op.decidedBy l then .ok (.bool l)
      else (right.eval names).bind fun r ↦ (op.operand r).map .bool
  | .binary (.comparison op) left right =>
    (left.eval names).bind fun l ↦ (right.eval names).bind (op.apply l)
  | .binary (.arithmetic op) left right =>
    (left.eval names).bind fun l ↦ (right.eval names).bind (op.apply l)

/-- The truth value of an expression. -/
def Expr.decide (names : String → Option Scalar) (e : Expr) : Except EvaluationError Bool :=
  (e.eval names).bind fun value ↦
    match value with
    | .bool b => .ok b
    | other => .error (.notBoolean other.kind)

end DataQuality
