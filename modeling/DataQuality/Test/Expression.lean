import DataQuality.Expr.Grammar

/-!
# Test expressions

A test is an expression together with the text it was written as, without the blanks around it.
-/

namespace DataQuality

/-- A test as it was written and as it is understood. -/
structure TestExpression where
  source : String
  tree : Expr

namespace TestExpression

/-- Reads a test. -/
def parse (source : String) : Except SyntaxError TestExpression :=
  (Expr.parse source).map fun tree ↦ ⟨Text.trim source, tree⟩

/-- The names the test refers to, in ascending order. -/
def identifiers (t : TestExpression) : List String := t.tree.identifiers

end TestExpression

end DataQuality
