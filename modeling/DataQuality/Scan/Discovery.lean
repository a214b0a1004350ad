import DataQuality.Measure.Rows

/-!
# Discovered columns

The columns of a table, read from the answer to a query about its schema: a row holds the name of a
column, its type, and whether it may hold nulls.
-/

namespace DataQuality

namespace TableColumn

/-- The name of a column; a null names none. -/
def nameOfCell? : Value → Option String
  | .text name => some name
  | .null => none
  | v => some v.display

/-- The type of a column, empty if it is not text. -/
def typeOfCell : Option Value → String
  | some (.text t) => t
  | _ => ""

/-- Whether a column may hold nulls; it may if the answer does not say. -/
def nullableOfCell : Option Value → Bool
  | some (.text t) => Text.eqFoldingAscii t "yes"
  | some (.bool b) => b
  | some (.int i) => i != 0
  | _ => true

/-- The column that a row describes. -/
def ofRow? : List Value → Option TableColumn
  | [] => none
  | name :: rest =>
    (nameOfCell? name).map fun n ↦ ⟨n, typeOfCell rest[0]?, nullableOfCell rest[1]?⟩

end TableColumn

/-- The columns that the rows describe. -/
def Rows.tableColumns (r : Rows) : List TableColumn := r.rows.filterMap TableColumn.ofRow?

end DataQuality
