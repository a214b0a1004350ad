import DataQuality.Measure.Key
import DataQuality.Plan.Issue
import DataQuality.Test.Expression

/-!
# Compiled tests

A test is compiled by finding the measurement that each of its names stands for. Which one that is
depends on where the test was declared. A test that cannot be read, or names what is not measured,
becomes an issue instead.
-/

namespace DataQuality

/-- A test whose names are bound to measurements. A grouped test is judged on each row of the
measurement that `grouped` names, and its names are looked for among the cells of the row. -/
structure CompiledTest where
  id : String
  title : String
  column : Option String
  expression : TestExpression
  bindings : Dict MetricKey
  grouped : Option MetricKey

/-- Where tests were declared. `outputs` are the measurements of the custom query that declares
them. -/
structure TestScope where
  idStart : String
  column : Option String
  outputs : List MetricKey
  grouped : Option MetricKey

namespace TestScope

/-- The scope of the tests of a table. -/
def ofTable (table : String) : TestScope := ⟨table, none, [], none⟩

/-- The scope of the tests of a column. -/
def ofColumn (table column : String) : TestScope := ⟨table ++ "." ++ column, some column, [], none⟩

/-- The keys that a name may stand for besides the outputs of the scope, best first: a name with a
dot names a column and a metric of it; one without a dot, as it is and then in lower case, a metric
of the column of the scope or else of the table. -/
def candidates (scope : TestScope) (name : String) : List MetricKey :=
  match Text.cut '.' name.toList with
  | some (column, metric) =>
    let column := Text.lower (String.ofList column)
    let metric := String.ofList metric
    [.ofColumn column metric, .ofColumn column (Text.lower metric)]
  | none =>
    [name, Text.lower name].flatMap fun n ↦
      (scope.column.map fun column ↦ MetricKey.ofColumn column n).toList ++ [MetricKey.ofTable n]

/-- The measurement that a name stands for, among those available. -/
def resolve? (scope : TestScope) (available : List MetricKey) (name : String) : Option MetricKey :=
  match scope.outputs.find? fun key ↦ key.name == name with
  | some key => some key
  | none => (scope.candidates name).find? fun key ↦ available.contains key

/-- The names that stand for nothing available. A grouped test finds its names in each row. -/
def unresolved (scope : TestScope) (available : List MetricKey) (names : List String) :
    List String :=
  if scope.grouped.isSome then []
  else names.filter fun name ↦ (scope.resolve? available name).isNone

/-- The measurements that names are bound to. -/
def bindings (scope : TestScope) (available : List MetricKey) (names : List String) :
    Dict MetricKey :=
  if scope.grouped.isSome then Dict.empty
  else Dict.ofList (names.filterMap fun name ↦
    (scope.resolve? available name).map fun key ↦ (name, key))

/-- Compiles the test with the given index in its list. -/
def compileOne (scope : TestScope) (available : List MetricKey) (index : Nat) (source : String) :
    Except Issue CompiledTest :=
  match TestExpression.parse source with
  | .error e => .error ⟨source, .malformedTest, e.message⟩
  | .ok expression =>
    let names := expression.identifiers
    match scope.unresolved available names with
    | [] =>
      .ok
        { id := scope.idStart ++ "#" ++ Number.natText index
          title := scope.idStart ++ " " ++ Text.trim source
          column := scope.column
          expression
          bindings := scope.bindings available names
          grouped := scope.grouped }
    | missing =>
      .error ⟨source, .unresolvedIdentifier,
        "'" ++ Text.join "', '" missing ++ "' is not measured by this scan"⟩

/-- What compiling each of the tests comes to, the first of them with the given index. -/
def compileFrom (scope : TestScope) (available : List MetricKey) (index : Nat) :
    List String → List (Except Issue CompiledTest)
  | [] => []
  | source :: rest =>
    scope.compileOne available index source :: scope.compileFrom available (index + 1) rest

end TestScope

/-- Tests with the scope they were declared in. -/
structure DeclaredTests where
  scope : TestScope
  sources : List String

/-- What compiling the tests comes to. -/
def DeclaredTests.compile (d : DeclaredTests) (available : List MetricKey) :
    List (Except Issue CompiledTest) :=
  d.scope.compileFrom available 0 d.sources

/-- The results that are there. -/
def successes {ε α : Type} (results : List (Except ε α)) : List α :=
  results.filterMap fun
    | .ok a => some a
    | .error _ => none

/-- The errors that are there. -/
def failures {ε α : Type} (results : List (Except ε α)) : List ε :=
  results.filterMap fun
    | .ok _ => none
    | .error e => some e

end DataQuality
