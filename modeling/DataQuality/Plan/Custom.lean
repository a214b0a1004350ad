import DataQuality.Plan.Basic

/-!
# Custom queries

How a declared query becomes a group: what its result means, which measurements come of it, and
which tests go with it. A measurement that is planned already is not planned again.
-/

namespace DataQuality

/-- A custom query with the place where it is declared. -/
structure DeclaredMetric where
  column : Option String
  index : Nat
  metric : SqlMetric
  deriving DecidableEq, Repr

/-- The queries of a list, the first of them with the given index. -/
def declareMetrics (column : Option String) (index : Nat) : List SqlMetric → List DeclaredMetric
  | [] => []
  | m :: rest => ⟨column, index, m⟩ :: declareMetrics column (index + 1) rest

/-- What the result of a custom query means. -/
structure CustomForm where
  shape : ResultShape
  bindings : List Binding
  tests : List String
  grouped : Option MetricKey

/-- What planning a custom query comes to. -/
structure CustomPlan where
  issues : List Issue
  group : Option GroupSpec
  tests : Option DeclaredTests

namespace DeclaredMetric

/-- The name of the place in labels and test ids. -/
def label (d : DeclaredMetric) : String :=
  let place := "sql_metrics[" ++ Number.natText d.index ++ "]"
  match d.column with
  | some column => column ++ "." ++ place
  | none => place

/-- The key of a measurement of the query. -/
def key (d : DeclaredMetric) (name : String) : MetricKey := ⟨d.column, name⟩

/-- A binding of the query. -/
def binding (d : DeclaredMetric) (name : String) (position : Option Nat) : Binding :=
  ⟨d.key name, name, position, false⟩

/-- The names that a test refers to and that are neither qualified nor in the catalog; they must be
columns of the result. -/
def columnNames (test : String) : List String :=
  match TestExpression.parse test with
  | .ok expression =>
    expression.identifiers.filter fun name ↦
      !name.toList.contains '.' && (Metric.ofName? name).isNone
  | .error _ => []

/-- Bindings of names by their position, the first of which is given. -/
def positional (d : DeclaredMetric) (position : Nat) : List String → List Binding
  | [] => []
  | name :: rest => d.binding name (some position) :: d.positional (position + 1) rest

/-- The measurements of a result with one row: the names given for its columns in order, or else
those that the tests refer to, or else the name of the query for the first column. -/
def outputs (d : DeclaredMetric) : List Binding :=
  match d.metric.metricNames with
  | some names => d.positional 0 names
  | none =>
    match sortNames (d.metric.tests.flatMap columnNames), d.metric.name with
    | [], some name => [d.binding name (some 0)]
    | names, _ => names.map fun name ↦ d.binding name none

/-- What the result of the query means, unless it lacks a name that it needs. Rows that should not
be there are counted, and tested to be none. -/
def form? (d : DeclaredMetric) : Option CustomForm :=
  match d.metric.kind, d.metric.name with
  | .failedRows, some name =>
    some ⟨.rowCount, [d.binding name none], (name ++ " == 0") :: d.metric.tests, none⟩
  | .numeric, some name =>
    if d.metric.isGrouped then
      some ⟨.groups (d.metric.groupFields.getD []), [d.binding name none], d.metric.tests,
        some (d.key name)⟩
    else some ⟨.singleRow, d.outputs, d.metric.tests, none⟩
  | .numeric, none =>
    if d.metric.isGrouped then none else some ⟨.singleRow, d.outputs, d.metric.tests, none⟩
  | .failedRows, none => none

/-- An issue with the query. -/
def issue (d : DeclaredMetric) (message : String) : Issue := ⟨d.label, .invalidSqlMetric, message⟩

/-- The scope of the tests of the query. -/
def scope (d : DeclaredMetric) (table : String) (bindings : List Binding)
    (grouped : Option MetricKey) : TestScope :=
  ⟨table ++ "." ++ d.label, d.column,
    if grouped.isSome then [] else bindings.map Binding.key, grouped⟩

/-- Plans the query with a form; `known` holds the keys that are planned already. -/
def planForm (d : DeclaredMetric) (table : String) (known : List MetricKey) (f : CustomForm) :
    CustomPlan :=
  let bindings := f.bindings.filter fun b ↦ !known.contains b.key
  let clashes := (f.bindings.filter fun b ↦ known.contains b.key).map fun b ↦
    d.issue ("metric '" ++ b.key.text ++ "' is already defined")
  if bindings.isEmpty then
    ⟨clashes ++ [d.issue "defines no metric: set metric_names or add tests"], none, none⟩
  else
    ⟨clashes, some ⟨.custom, d.label, .sql d.metric.sql, f.shape, bindings⟩,
      some ⟨d.scope table bindings f.grouped, f.tests⟩⟩

/-- Plans the query. -/
def plan (d : DeclaredMetric) (table : String) (known : List MetricKey) : CustomPlan :=
  if Text.isBlank d.metric.sql then ⟨[d.issue "sql must not be empty"], none, none⟩
  else
    match d.form? with
    | some f => d.planForm table known f
    | none => ⟨[d.issue "failed_rows and grouped metrics need a name"], none, none⟩

end DeclaredMetric

/-- The keys that the plan of a query adds. -/
def CustomPlan.keys (p : CustomPlan) : List MetricKey := p.group.toList.flatMap GroupSpec.keys

/-- Plans queries one after the other; each knows the keys of those before it. -/
def planCustom (table : String) (known : List MetricKey) : List DeclaredMetric → List CustomPlan
  | [] => []
  | d :: rest =>
    let p := d.plan table known
    p :: planCustom table (known ++ p.keys) rest

end DataQuality
