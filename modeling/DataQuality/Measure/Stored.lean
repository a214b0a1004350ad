import DataQuality.Measure.Rows
import DataQuality.Text.Base64

/-!
# Stored cells

The cells of a database that keeps the type of each cell with it, and the values they become. Bytes
become text in Base64.
-/

namespace DataQuality

/-- A cell as it is stored. -/
inductive StoredCell where
  | null
  | integer (i : Int64)
  | real (x : Float)
  | text (s : String)
  | blob (bytes : List UInt8)

/-- The value of a cell. -/
def StoredCell.value : StoredCell → Value
  | null => .null
  | integer i => .int i.toInt
  | real x => .float x
  | text s => .text s
  | blob bytes => .text ("base64:" ++ String.ofList (Base64.encode bytes))

/-- The result that stored rows become. The names of columns come with the rows, so without rows
there are none. -/
def Rows.ofStored (columns : List String) (rows : List (List StoredCell)) : Rows :=
  ⟨if rows.isEmpty then [] else columns, rows.map fun row ↦ row.map StoredCell.value⟩

end DataQuality
