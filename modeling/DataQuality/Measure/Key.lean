/-!
# Measurement keys

A measurement is identified by the name of its metric and the column it was taken of; a table as a
whole has no column.
-/

namespace DataQuality

/-- The identity of a measurement. -/
structure MetricKey where
  column : Option String
  name : String
  deriving DecidableEq, Hashable, Repr, Inhabited

/-- What a measurement was taken of. -/
inductive Scope where
  | table
  | column
  deriving DecidableEq, Repr

namespace MetricKey

/-- The key of a metric of the whole table. -/
def ofTable (name : String) : MetricKey := ⟨none, name⟩

/-- The key of a metric of a column. -/
def ofColumn (column name : String) : MetricKey := ⟨some column, name⟩

/-- Whether the key is about a column or the whole table. -/
def scope (key : MetricKey) : Scope := if key.column.isSome then .column else .table

/-- The key as messages show it: column and name with a dot between them. -/
def text (key : MetricKey) : String :=
  match key.column with
  | some column => column ++ "." ++ key.name
  | none => key.name

end MetricKey

end DataQuality
