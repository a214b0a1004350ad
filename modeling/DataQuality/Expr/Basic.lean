import DataQuality.Number.Text
import DataQuality.Dict

/-!
# Expression trees

The trees of test expressions, the text they are shown as, and the names they refer to.
-/

namespace DataQuality

/-- The comparisons between two values. -/
inductive Comparison where
  | eq
  | ne
  | lt
  | le
  | gt
  | ge
  deriving DecidableEq, Repr

/-- The comparison as written in an expression. -/
def Comparison.symbol : Comparison → String
  | .eq => "=="
  | .ne => "!="
  | .lt => "<"
  | .le => "<="
  | .gt => ">"
  | .ge => ">="

/-- The operations on two numbers; addition also joins texts. -/
inductive Arithmetic where
  | add
  | sub
  | mul
  | div
  deriving DecidableEq, Repr

/-- The operation as written in an expression. -/
def Arithmetic.symbol : Arithmetic → String
  | .add => "+"
  | .sub => "-"
  | .mul => "*"
  | .div => "/"

/-- The connectives between two truth values. -/
inductive Connective where
  | and
  | or
  deriving DecidableEq, Repr

/-- The connective as written in an expression. -/
def Connective.symbol : Connective → String
  | .and => "and"
  | .or => "or"

/-- The operators that stand between two operands. -/
inductive BinaryOp where
  | arithmetic (op : Arithmetic)
  | comparison (op : Comparison)
  | connective (op : Connective)
  deriving DecidableEq, Repr

/-- Every binary operator. -/
def BinaryOp.all : List BinaryOp :=
  [Arithmetic.add, .sub, .mul, .div].map .arithmetic ++
    [Comparison.eq, .ne, .lt, .le, .gt, .ge].map .comparison ++
    [Connective.and, .or].map .connective

/-- The operator as written in an expression. -/
def BinaryOp.symbol : BinaryOp → String
  | .arithmetic op => op.symbol
  | .comparison op => op.symbol
  | .connective op => op.symbol

/-- The operators that stand before one operand. -/
inductive UnaryOp where
  | neg
  | not
  deriving DecidableEq, Repr

/-- The operator as written in an expression. -/
def UnaryOp.symbol : UnaryOp → String
  | .neg => "-"
  | .not => "not"

/-- A test expression. -/
inductive Expr where
  | number (value : Float)
  | text (value : String)
  | bool (value : Bool)
  | null
  | identifier (name : String)
  | unary (op : UnaryOp) (operand : Expr)
  | binary (op : BinaryOp) (left right : Expr)

namespace Expr

/-- A text between single quotes; quotes inside are escaped. -/
def quoteText (s : String) : String := "'" ++ Text.substitute '\'' ['\\', '\''] s ++ "'"

/-- The expression with every operation in parentheses. -/
def render : Expr → String
  | number value => Number.plainText value
  | text value => quoteText value
  | bool true => "true"
  | bool false => "false"
  | null => "null"
  | identifier name => name
  | unary .neg operand => "-(" ++ operand.render ++ ")"
  | unary .not operand => "not (" ++ operand.render ++ ")"
  | binary op left right => "(" ++ left.render ++ " " ++ op.symbol ++ " " ++ right.render ++ ")"

/-- The names the expression refers to, from left to right. -/
def references : Expr → List String
  | identifier name => [name]
  | unary _ operand => operand.references
  | binary _ left right => left.references ++ right.references
  | _ => []

/-- The names the expression refers to, in ascending order, each once. -/
def identifiers (e : Expr) : List String := sortNames e.references

/-- A name is listed exactly when the expression refers to it. -/
@[simp] theorem mem_identifiers {name : String} {e : Expr} :
    name ∈ e.identifiers ↔ name ∈ e.references := mem_sortNames

/-- The number of nodes. -/
def size : Expr → Nat
  | unary _ operand => operand.size + 1
  | binary _ left right => left.size + right.size + 1
  | _ => 1

/-- The number of nodes on the longest path from the root. -/
def height : Expr → Nat
  | unary _ operand => operand.height + 1
  | binary _ left right => max left.height right.height + 1
  | _ => 1

end Expr

end DataQuality
