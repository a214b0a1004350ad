import DataQuality.Measure.Value

/-!
# Result rows

What a query returns: rows of cells, with the names of the columns. A row may be shorter or longer
than the list of names.
-/

namespace DataQuality

/-- The result of a query. -/
structure Rows where
  columns : List String
  rows : List (List Value)
  deriving Inhabited

namespace Rows

/-- The position of a column, up to the case of ASCII letters. -/
def columnIndex? (r : Rows) (name : String) : Option Nat :=
  r.columns.findIdx? fun c ↦ Text.eqFoldingAscii c name

/-- The number of rows. -/
def size (r : Rows) : Nat := r.rows.length

end Rows

end DataQuality
