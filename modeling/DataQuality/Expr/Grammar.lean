import DataQuality.Expr.Token

/-!
# Reading expressions

The grammar, loosest rule first:

```text
disjunction := conjunction ("or" conjunction)*
conjunction := negation ("and" negation)*
negation    := "not" negation | comparison
comparison  := sum (("==" | "!=" | "<" | "<=" | ">" | ">=") sum)*
sum         := product (("+" | "-") product)*
product     := signed (("*" | "/") signed)*
signed      := "-" signed | operand
operand     := NUMBER | STRING | "true" | "false" | "null" | IDENTIFIER | "(" disjunction ")"
```

Operators group to the left, and a chain of comparisons is the conjunction of its neighbours. The
three rules that refer back to a looser or to their own level go one nesting level down; the rules
of a level are built from the rules of the level below, so reading ends by itself.
-/

namespace DataQuality

/-- The deepest nesting of parentheses, `not` and minus signs. -/
def maxNesting : Nat := 64

/-- The longest expression, in tokens. -/
def maxTokens : Nat := 1024

/-- What a rule read off the front of a list of tokens, and the tokens it left over. -/
structure Parsed (ts : List Placed) where
  tree : Expr
  rest : List Placed
  shorter : rest.length < ts.length

/-- A rule of the grammar. -/
abbrev Rule := (ts : List Placed) → Except SyntaxError (Parsed ts)

/-- The same reading of a longer list of tokens. -/
def Parsed.widen {ts us : List Placed} (r : Parsed ts) (h : ts.length ≤ us.length) : Parsed us :=
  ⟨r.tree, r.rest, Nat.lt_of_lt_of_le r.shorter h⟩

/-- The operators and operands that follow a first operand. -/
structure Tail (ts : List Placed) where
  steps : List (BinaryOp × Expr)
  rest : List Placed
  fits : rest.length ≤ ts.length

/-- Reads operators of one kind, each with an operand behind it, as far as they go. -/
def readTail (operator? : Token → Option BinaryOp) (operand : Rule) (ts : List Placed) :
    Except SyntaxError (Tail ts) :=
  match ts with
  | [] => .ok ⟨[], [], Nat.le_refl _⟩
  | t :: rest =>
    match operator? t.token with
    | none => .ok ⟨[], t :: rest, Nat.le_refl _⟩
    | some op =>
      (operand rest).bind fun r ↦
        have hr := r.shorter
        (readTail operator? operand r.rest).map fun tail ↦
          ⟨(op, r.tree) :: tail.steps, tail.rest, by
            have := tail.fits
            simp only [List.length_cons]
            omega⟩
termination_by ts.length

/-- Groups operators to the left. -/
def foldLeft (first : Expr) (steps : List (BinaryOp × Expr)) : Expr :=
  steps.foldl (fun tree step ↦ .binary step.1 tree step.2) first

/-- Each operand compared with the one before it. -/
def neighbours (first : Expr) : List (BinaryOp × Expr) → List Expr
  | [] => []
  | (op, operand) :: steps => .binary op first operand :: neighbours operand steps

/-- A chain of comparisons is the conjunction of its neighbours, grouped to the left; a chain of
no comparison is its only operand. -/
def foldChain (first : Expr) (steps : List (BinaryOp × Expr)) : Expr :=
  match neighbours first steps with
  | [] => first
  | pair :: pairs => foldLeft pair (pairs.map fun p ↦ (.connective .and, p))

/-- A rule for operands with operators of one kind between them. -/
def chain (operator? : Token → Option BinaryOp) (group : Expr → List (BinaryOp × Expr) → Expr)
    (operand : Rule) : Rule := fun ts ↦
  (operand ts).bind fun first ↦
    have hf := first.shorter
    (readTail operator? operand first.rest).map fun tail ↦
      ⟨group first.tree tail.steps, tail.rest, by
        have := tail.fits
        omega⟩

/-- The rule for an operator that stands before its operand; `again` reads the operand. -/
def beforeOperand (op : UnaryOp) (isSign : Token → Bool) (again otherwise : Rule) : Rule := fun ts ↦
  match ts with
  | [] => otherwise []
  | t :: rest =>
    if isSign t.token then
      (again rest).map fun r ↦ ⟨.unary op r.tree, r.rest, by
        have := r.shorter
        simp only [List.length_cons]
        omega⟩
    else otherwise (t :: rest)

/-- The connective `or`. -/
def Token.or? : Token → Option BinaryOp
  | .connective .or => some (.connective .or)
  | _ => none

/-- The connective `and`. -/
def Token.and? : Token → Option BinaryOp
  | .connective .and => some (.connective .and)
  | _ => none

/-- A comparison sign. -/
def Token.compare? : Token → Option BinaryOp
  | .comparison op => some (.comparison op)
  | _ => none

/-- A plus or minus between two operands. -/
def Token.additive? : Token → Option BinaryOp
  | .plus => some (.arithmetic .add)
  | .minus => some (.arithmetic .sub)
  | _ => none

/-- A star or slash. -/
def Token.multiplicative? : Token → Option BinaryOp
  | .star => some (.arithmetic .mul)
  | .slash => some (.arithmetic .div)
  | _ => none

/-- Whether the token is `not`. -/
def Token.isNot : Token → Bool
  | .not => true
  | _ => false

/-- Whether the token is a minus sign. -/
def Token.isMinus : Token → Bool
  | .minus => true
  | _ => false

/-- The expression that a single token is by itself. -/
def Token.atom? : Token → Option Expr
  | .number value => some (.number value)
  | .text value => some (.text value)
  | .bool value => some (.bool value)
  | .null => some .null
  | .identifier name => some (.identifier name)
  | _ => none

/-- Reads the closing parenthesis behind an expression. -/
def closeParen {ts : List Placed} (r : Parsed ts) : Except SyntaxError (Parsed ts) :=
  match h : r.rest with
  | [] => .error (.unexpectedEnd .closingParen)
  | t :: rest =>
    match t.token with
    | .rightParen => .ok ⟨r.tree, rest, by
        have := r.shorter
        simp only [h, List.length_cons] at this
        omega⟩
    | found => .error (.unexpectedToken found .closingParen t.position)

/-- The rule for a single operand; `inner` reads what stands in parentheses. -/
def operand (inner : Rule) : Rule := fun ts ↦
  match ts with
  | [] => .error (.unexpectedEnd .operand)
  | t :: rest =>
    match t.token.atom? with
    | some tree => .ok ⟨tree, rest, by simp⟩
    | none =>
      match t.token with
      | .leftParen =>
        ((inner rest).bind closeParen).map fun r ↦ r.widen (by simp)
      | found => .error (.unexpectedToken found .operand t.position)

/-- The rules that can be reached again from inside themselves. -/
structure Level where
  disjunction : Rule
  negation : Rule
  signed : Rule

/-- The rules of a level, from those of the level below it. -/
def Level.above (below : Level) : Level :=
  let signed := beforeOperand .neg Token.isMinus below.signed (operand below.disjunction)
  let product := chain Token.multiplicative? foldLeft signed
  let sum := chain Token.additive? foldLeft product
  let comparison := chain Token.compare? foldChain sum
  let negation := beforeOperand .not Token.isNot below.negation comparison
  let conjunction := chain Token.and? foldLeft negation
  { disjunction := chain Token.or? foldLeft conjunction, negation, signed }

/-- The level that may not be entered any more. -/
def Level.forbidden : Level :=
  let tooDeep : Rule := fun _ ↦ .error (.tooDeep maxNesting)
  ⟨tooDeep, tooDeep, tooDeep⟩

/-- The rules with `depth` nesting levels below them. -/
def Level.withDepth : (depth : Nat) → Level
  | 0 => forbidden.above
  | depth + 1 => (withDepth depth).above

/-- Reads a whole list of tokens as one expression. -/
def Expr.ofTokens (ts : List Placed) : Except SyntaxError Expr :=
  if ts.isEmpty then .error .empty
  else if maxTokens < ts.length then .error (.tooLong maxTokens)
  else
    ((Level.withDepth maxNesting).disjunction ts).bind fun r ↦
      match r.rest with
      | [] => .ok r.tree
      | t :: _ => .error (.unexpectedToken t.token .endOfExpression t.position)

/-- Reads a source text as one expression. -/
def Expr.parse (source : String) : Except SyntaxError Expr := (tokenize source).bind Expr.ofTokens

end DataQuality
