import DataQuality.Measure.Measurement
import DataQuality.Measure.Rows
import DataQuality.Plan.Basic

/-!
# Reading results

How the rows of a query become measurements, by the shape of the result. Each binding of a group
becomes one measurement, whatever the rows are like.
-/

namespace DataQuality

/-- The bounds that a histogram query was made for. -/
structure BucketRange (F : Type := Float) where
  min : F
  max : F
  buckets : UInt32

namespace BucketRange

variable {F : Type} [BucketNumber F]

/-- The number of buckets: one if there is no room between the bounds, and always at least one. -/
def count (r : BucketRange F) : Nat :=
  if r.min < r.max then Nat.max r.buckets.toNat 1 else 1

/-- The width of a bucket. -/
def width (r : BucketRange F) : F := (r.max - r.min) / BucketNumber.ofCount r.count

/-- The boundaries of the buckets. -/
def boundaries (r : BucketRange F) : List F :=
  (List.range (r.count + 1)).map fun i ↦ r.min + BucketNumber.ofCount i * r.width

end BucketRange

namespace Rows

/-- The whole number in a cell of a row, zero if there is none. -/
def wholeAt (row : List Value) (position : Nat) : Int :=
  ((row[position]?).bind Value.asWhole?).getD 0

/-- The position of a column, or a given one if there is no column of that name. -/
def columnOr (r : Rows) (name : String) (position : Nat) : Nat :=
  (r.columnIndex? name).getD position

/-- The values of a list of values. -/
def valueList (r : Rows) (numeric : Bool) : List Value :=
  let value := r.columnOr valueColumn 0
  r.rows.filterMap fun row ↦ (row[value]?).map (Value.retyped numeric)

/-- The values of a list of values with how often they occur. -/
def frequencies (r : Rows) (numeric : Bool) : List (ValueFrequency Value) :=
  let value := r.columnOr valueColumn 0
  let frequency := r.columnOr frequencyColumn 1
  r.rows.filterMap fun row ↦
    (row[value]?).map fun v ↦ ⟨v.retyped numeric, wholeAt row frequency⟩

/-- The bucket that a row is about, kept between the first and the last. -/
def bucketOf? (last : Nat) (row : List Value) (position : Nat) : Option Nat :=
  (row[position]?).bind fun v ↦ (v.retyped true).asWhole?.map fun i ↦ min i.toNat last

/-- Adds to the count at a position. -/
def addAt (counts : List Int) (position : Nat) (n : Int) : List Int :=
  counts.modify position (· + n)

/-- The counts of the buckets; rows of the same bucket add up. -/
def bucketCounts (r : Rows) (count : Nat) : List Int :=
  let bucket := r.columnOr bucketColumn 0
  let frequency := r.columnOr frequencyColumn 1
  r.rows.foldl (fun counts row ↦
    match bucketOf? (count - 1) row bucket with
    | some i => addAt counts i (wholeAt row frequency)
    | none => counts) (List.replicate count 0)

/-- The histogram between two bounds. -/
def histogram (r : Rows) (range : BucketRange) : Histogram :=
  ⟨range.boundaries, r.bucketCounts range.count⟩

/-- The positions of the columns that tell groups apart; the first one that is missing is the
error. -/
def fieldPositions (r : Rows) : List String → Except String (List Nat)
  | [] => .ok []
  | field :: rest =>
    match r.columnIndex? field with
    | some i => (r.fieldPositions rest).map (i :: ·)
    | none => .error ("group field '" ++ field ++ "' is not a column of the result")

/-- A cell with the lowercase name of its column and its position. -/
structure NamedCell where
  name : String
  position : Nat
  value : Value

/-- The cells of a row that have a name. -/
def namedCells (r : Rows) (row : List Value) : List NamedCell :=
  (r.columns.zip row).zipIdx.map fun (cell, i) ↦ ⟨Text.lower cell.1, i, cell.2⟩

/-- The row of a group. Cells that name the group stay as they are; the others are read back from
text. -/
def groupRow (r : Rows) (fields : List Nat) (row : List Value) : GroupRow Value :=
  let (group, values) := (r.namedCells row).partition fun c ↦ fields.contains c.position
  ⟨(Dict.ofList (group.map fun c ↦ (c.name, c.value))).entries,
    (Dict.ofList (values.map fun c ↦ (c.name, c.value.retyped true))).entries⟩

/-- The rows of a grouped result; without rows the names of columns are not known and not needed. -/
def groupRows (r : Rows) (fields : List String) : Except String (List (GroupRow Value)) :=
  if r.rows.isEmpty then .ok []
  else (r.fieldPositions fields).map fun positions ↦ r.rows.map (r.groupRow positions)

/-- The cell of a row that a binding reads. -/
def cell (r : Rows) (row : List Value) (b : Binding) : Except String Value :=
  match ((r.columnIndex? b.resultColumn).or b.position).bind fun i ↦ row[i]? with
  | some v => .ok v
  | none => .error ("result has no column '" ++ b.resultColumn ++ "'")

/-- What a binding reads from a result. -/
def read (r : Rows) (shape : ResultShape) (range : Option BucketRange) (b : Binding) :
    Except String Value :=
  match shape with
  | .singleRow =>
    match r.rows with
    | row :: _ => (r.cell row b).map (Value.retyped true)
    | [] => .error "query returned no rows"
  | .valueList numeric => .ok (.list (r.valueList numeric))
  | .frequencies numeric => .ok (.frequencies (r.frequencies numeric))
  | .histogram =>
    match range with
    | some range => .ok (.histogram (r.histogram range))
    | none => .error "histogram bounds are unknown"
  | .rowCount => .ok (.int r.size)
  | .groups fields => (r.groupRows fields).map .groups

end Rows

/-- The measurement of a binding. -/
def Binding.measure (b : Binding) (result : Except String Value) : Measurement :=
  ⟨b.key,
    match result with
    | .ok v => .measured v
    | .error message => .failed message,
    b.internal⟩

/-- The measurements that all have the same reading. -/
def Binding.all (bindings : List Binding) (reading : Reading) : List Measurement :=
  bindings.map fun b ↦ ⟨b.key, reading, b.internal⟩

/-- The measurements of the bindings of a result. -/
def GroupSpec.measure (g : GroupSpec) (r : Rows) (range : Option BucketRange) :
    List Measurement :=
  g.bindings.map fun b ↦ b.measure (r.read g.shape range b)

end DataQuality
