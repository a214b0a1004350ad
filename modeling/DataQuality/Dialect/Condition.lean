/-!
# Conditions

Boolean combinations of SQL clauses. Only alternatives are put in parentheses: negation binds
tighter than conjunction, and conjunction tighter than disjunction.
-/

namespace DataQuality

/-- A condition on the rows of a table. -/
inductive Condition where
  | clause (sql : String)
  | negation (c : Condition)
  | conjunction (cs : List Condition)
  | disjunction (cs : List Condition)

namespace Condition

mutual

/-- The condition in SQL. -/
def sql : Condition → String
  | .clause text => text
  | .negation c => "NOT " ++ c.sql
  | .conjunction [] => "TRUE"
  | .conjunction (c :: cs) => c.sql ++ sqlBehind " AND " cs
  | .disjunction [] => "FALSE"
  | .disjunction [c] => c.sql
  | .disjunction (c :: d :: cs) => "(" ++ c.sql ++ sqlBehind " OR " (d :: cs) ++ ")"

/-- Conditions in SQL, each behind a connective. -/
def sqlBehind (connective : String) : List Condition → String
  | [] => ""
  | c :: cs => connective ++ c.sql ++ sqlBehind connective cs

end

end Condition

end DataQuality
