import Mathlib.Algebra.BigOperators.Group.List.Basic
import Mathlib.Algebra.Ring.Int.Defs
import DataQuality.Run.Group

/-!
# Histograms

What becomes of the rows of a histogram query. Each row adds its frequency to one bucket, and only
rows without a whole number for a bucket are passed over; so the order of the rows does not matter,
and no frequency is lost, whatever the buckets are that the rows name.
-/

namespace DataQuality

namespace Rows

variable {r : Rows} {row : List Value} {rows : List (List Value)} {counts : List Int}
  {count i last : Nat}

/-! ### What a row says -/

/-- The number of the bucket that a row names, if it names any. -/
def bucketNumber? (r : Rows) (row : List Value) : Option Int :=
  (row[r.columnOr bucketColumn 0]?).bind fun v ↦ (v.retyped true).asWhole?

/-- The frequency in a row, zero if there is none. -/
def frequencyOf (r : Rows) (row : List Value) : Int :=
  wholeAt row (r.columnOr frequencyColumn 1)

/-- The place of a row among the buckets up to the last one. -/
def placeOf? (r : Rows) (last : Nat) (row : List Value) : Option Nat :=
  bucketOf? last row (r.columnOr bucketColumn 0)

/-- The frequencies of the rows with a property, taken together. -/
def total (r : Rows) (p : List Value → Bool) : Int := ((r.rows.filter p).map r.frequencyOf).sum

/-- A number before the first bucket stands for the first one, and a number behind the last bucket
for the last one. -/
theorem placeOf?_eq_map :
    r.placeOf? last row = (r.bucketNumber? row).map fun n ↦ min n.toNat last := by
  rw [bucketNumber?, Option.map_bind]
  rfl

/-- Adds the frequency of a row to the count of its bucket. -/
def countRow (r : Rows) (last : Nat) (counts : List Int) (row : List Value) : List Int :=
  match r.placeOf? last row with
  | some i => addAt counts i (r.frequencyOf row)
  | none => counts

theorem bucketCounts_eq_foldl (r : Rows) (count : Nat) :
    r.bucketCounts count = r.rows.foldl (r.countRow (count - 1)) (List.replicate count 0) := rfl

@[simp] theorem length_countRow : (r.countRow last counts row).length = counts.length := by
  unfold countRow
  split
  · exact List.length_modify ..
  · rfl

/-- A row changes the count of its own bucket only. -/
theorem getElem?_countRow : (r.countRow last counts row)[i]? =
    counts[i]?.map (· + if r.placeOf? last row = some i then r.frequencyOf row else 0) := by
  unfold countRow
  split
  · next place hplace =>
    rw [addAt, List.getElem?_modify, hplace]
    by_cases hi : place = i <;> simp [hi]
  · next hplace => simp [hplace]

@[simp] theorem length_foldl_countRow :
    (rows.foldl (r.countRow last) counts).length = counts.length := by
  induction rows generalizing counts with
  | nil => rfl
  | cons row rows ih => rw [List.foldl_cons, ih, length_countRow]

theorem getElem?_foldl_countRow : (rows.foldl (r.countRow last) counts)[i]? =
    counts[i]?.map (· + ((rows.filter fun row ↦ r.placeOf? last row = some i).map
      r.frequencyOf).sum) := by
  induction rows generalizing counts with
  | nil => simp
  | cons row rows ih =>
    rw [List.foldl_cons, ih, getElem?_countRow, Option.map_map]
    congr 1
    funext n
    by_cases hplace : r.placeOf? last row = some i <;> simp [hplace, Int.add_assoc]

/-- The count of a bucket comes from the rows that belong there, and from no others. -/
theorem bucketCounts_eq_map (r : Rows) (count : Nat) : r.bucketCounts count =
    (List.range count).map fun i ↦ r.total fun row ↦ r.placeOf? (count - 1) row = some i := by
  refine List.ext_getElem? fun i ↦ ?_
  rw [bucketCounts_eq_foldl, getElem?_foldl_countRow, List.getElem?_map]
  by_cases hi : i < count
  · simp [hi, total]
  · simp [hi]

end Rows

theorem BucketRange.count_pos {F : Type} [BucketNumber F] (range : BucketRange F) :
    0 < range.count := by
  unfold count
  split
  · exact Nat.le_max_right ..
  · exact Nat.one_pos

namespace Rows

variable (r : Rows) (range : BucketRange)

end Rows

end DataQuality
