import DataQuality.Plan.Basic
import DataQuality.Plan.Column

/-!
# Aggregate queries

The metrics that one value of a query answers. All of them are asked for together, in as few
queries as the number of expressions in a query allows.
-/

namespace DataQuality

/-- What a metric aggregates: all rows, the missing or the valid ones, or the numbers or text
lengths of the valid ones. -/
inductive AggregateForm where
  | rows
  | missingRows
  | validRows
  | numbers (f : AggregateFunction)
  | median
  | lengths (f : AggregateFunction)
  deriving DecidableEq, Repr

/-- What the metric aggregates, if one aggregate answers it. -/
def Metric.aggregateForm? : Metric → Option AggregateForm
  | .rowCount => some .rows
  | .missingCount => some .missingRows
  | .validCount => some .validRows
  | .min => some (.numbers .min)
  | .max => some (.numbers .max)
  | .avg => some (.numbers .avg)
  | .sum => some (.numbers .sum)
  | .variance => some (.numbers .variance)
  | .stddev => some (.numbers .stddev)
  | .median => some .median
  | .minLength => some (.lengths .min)
  | .maxLength => some (.lengths .max)
  | .avgLength => some (.lengths .avg)
  | _ => none

/-- The catalog says of the same metrics that aggregates answer them. -/
theorem Metric.aggregateForm?_isSome_iff (m : Metric) :
    m.aggregateForm?.isSome ↔ m.computation = .aggregate := by
  cases m <;> decide

/-- The number of all rows. -/
def countRows : String := "COUNT(*)"

/-- The aggregate in SQL, over the rows of a column. -/
def AggregateForm.sql (w : Warehouse) (p : ColumnProfile) (c : ColumnConditions) :
    AggregateForm → Except DialectError String
  | .rows => .ok countRows
  | .missingRows => .ok (Warehouse.countIf c.missing.sql)
  | .validRows => .ok (Warehouse.countIf c.valid.sql)
  | .numbers f => w.aggregate f (Warehouse.valueIf c.valid.sql (p.numericExpr w))
  | .median => w.percentile (Warehouse.valueIf c.valid.sql (p.numericExpr w)) 0.5
  | .lengths f => w.aggregate f (Warehouse.valueIf c.valid.sql (w.lengthExpr (p.textExpr w)))

/-- An aggregate and the key that it measures. -/
structure AggregateExpr where
  key : MetricKey
  sql : String
  deriving DecidableEq, Repr

/-- An aggregate with the name of its result column. -/
structure NamedAggregate where
  expr : AggregateExpr
  resultColumn : String
  deriving DecidableEq, Repr

/-- Names aggregates by their position, the first of which is given. -/
def nameAggregates (position : Nat) : List AggregateExpr → List NamedAggregate
  | [] => []
  | a :: rest => ⟨a, "m" ++ Number.natText position⟩ :: nameAggregates (position + 1) rest

/-- Cuts a list into parts of the given size, of which zero counts as one; the last may be
shorter. -/
def chunksOf {α : Type} (size : Nat) : List α → List (List α)
  | [] => []
  | a :: rest => (a :: rest.take (size - 1)) :: chunksOf size (rest.drop (size - 1))
termination_by as => as.length

/-- No part is lost by cutting. -/
@[simp] theorem flatten_chunksOf {α : Type} (size : Nat) (as : List α) :
    (chunksOf size as).flatten = as := by
  fun_induction chunksOf size as with
  | case1 => rfl
  | case2 a rest ih => simp [ih]

/-- Cuts aggregates into batches of at most `cap`; zero sets no limit. -/
def batches (cap : Nat) (as : List NamedAggregate) : List (List NamedAggregate) :=
  chunksOf (if cap = 0 then as.length else cap) as

/-- The bindings of a batch, the first of which stands in the given position. -/
def batchBindings (internal : MetricKey → Bool) (position : Nat) :
    List NamedAggregate → List Binding
  | [] => []
  | a :: rest =>
    ⟨a.expr.key, a.resultColumn, some position, internal a.expr.key⟩ ::
      batchBindings internal (position + 1) rest

/-- The query of a batch. -/
def batchQuery (source : QuerySource) (batch : List NamedAggregate) : String :=
  "SELECT\n" ++
    Text.join ",\n" (batch.map fun a ↦ "  " ++ a.expr.sql ++ " AS " ++ a.resultColumn) ++
    "\n" ++ source.fromClause none

/-- The group of a batch. -/
def batchGroup (source : QuerySource) (internal : MetricKey → Bool) (label : String)
    (batch : List NamedAggregate) : GroupSpec where
  phase := .aggregate
  label
  query := .sql (batchQuery source batch)
  shape := .singleRow
  bindings := batchBindings internal 0 batch

/-- The label of a batch: numbered, unless it is the only one. -/
def batchLabel (total index : Nat) : String :=
  if total = 1 then "aggregates" else "aggregates[" ++ Number.natText index ++ "]"

/-- The groups of all aggregates; `internal` says which keys are measured for others only. -/
def aggregateGroups (cap : Nat) (source : QuerySource) (internal : MetricKey → Bool)
    (as : List AggregateExpr) : List GroupSpec :=
  let parts := batches cap (nameAggregates 0 as)
  parts.zipIdx.map fun (batch, index) ↦
    batchGroup source internal (batchLabel parts.length index) batch

end DataQuality
