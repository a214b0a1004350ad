import DataQuality.Expr.Eval
import DataQuality.Measure.Measurement
import DataQuality.Test.Compiled

/-!
# Evaluating tests

What the measurements of a scan make of its tests. A measurement that is not there, or is no scalar,
makes a test an error and never a failure, even where the expression could do without it. A grouped
test has one result for each row.
-/

namespace DataQuality

/-- How a test ended. -/
inductive TestOutcome where
  | passed
  | failed
  | error
  deriving DecidableEq, Repr

/-- The name of an outcome in reports. -/
def TestOutcome.name : TestOutcome → String
  | .passed => "passed"
  | .failed => "failed"
  | .error => "error"

/-- What came of a test. `values` holds what its names stood for, and `group` the cells that tell
the row of a grouped test apart. -/
structure TestResult where
  id : String
  title : String
  expression : String
  column : Option String
  outcome : TestOutcome
  values : Dict Value
  error : Option String
  group : Option (List (String × Value))

/-- The value as expressions see it; structures have no such form. -/
def Value.toScalar (name : String) : Value → Except EvaluationError Scalar
  | .null => .ok .null
  | .bool b => .ok (.bool b)
  | .int i => .ok (.number (Number.ofInt i))
  | .float x => .ok (.number x)
  | .text s => .ok (.text s)
  | v => .error (.nonScalar name v.kind)

/-- A name of a test with the value it stands for. -/
structure BoundName where
  name : String
  value : Value
  scalar : Scalar

namespace BoundName

/-- Binds a name to a value. -/
def ofValue (name : String) (v : Value) : Except EvaluationError BoundName :=
  (v.toScalar name).map fun s ↦ ⟨name, v, s⟩

/-- The reason given where nothing was measured at all. -/
def notMeasured : String := "not measured"

/-- Binds a name to a measurement. -/
def ofMeasurement (ms : MeasurementSet) (name : String) (key : MetricKey) :
    Except EvaluationError BoundName :=
  match (ms.get? key).map Measurement.reading with
  | some (.measured v) => ofValue name v
  | some (.failed reason) | some (.skipped reason) => .error (.unavailable name reason)
  | none => .error (.unavailable name notMeasured)

/-- Binds a name to a cell of a row: one that was measured, or else one that names the group. -/
def ofRow (row : GroupRow Value) (name : String) : Except EvaluationError BoundName :=
  match (row.values.lookup name).or (row.group.lookup name) with
  | some v => ofValue name v
  | none => .error (.unavailable name "not a column of the result")

end BoundName

namespace CompiledTest

/-- The result of a test that ended with a truth value or an error. -/
def conclude (t : CompiledTest) (values : Dict Value) (group : Option (List (String × Value)))
    (verdict : Except EvaluationError Bool) : TestResult :=
  let (outcome, error) := match verdict with
    | .ok true => (TestOutcome.passed, none)
    | .ok false => (.failed, none)
    | .error e => (.error, some e.message)
  ⟨t.id, t.title, t.expression.source, t.column, outcome, values, error, group⟩

/-- The scalar that a name is bound to. -/
def scalarOf (bound : List BoundName) (name : String) : Option Scalar :=
  (bound.find? fun b ↦ b.name == name).map BoundName.scalar

/-- The verdict on the expression: the first name that could not be bound, or else its value. -/
def verdict (t : CompiledTest) (names : List (Except EvaluationError BoundName)) :
    Except EvaluationError Bool :=
  match failures names with
  | e :: _ => .error e
  | [] => t.expression.tree.decide (scalarOf (successes names))

/-- The result of a test, given what its names were bound to. -/
def resultOf (t : CompiledTest) (names : List (Except EvaluationError BoundName))
    (group : Option (List (String × Value))) : TestResult :=
  t.conclude (Dict.ofList ((successes names).map fun b ↦ (b.name, b.value))) group (t.verdict names)

/-- The result of a test that is an error before any of its names is looked at. -/
def refuse (t : CompiledTest) (e : EvaluationError) : TestResult :=
  t.conclude Dict.empty none (.error e)

/-- The results of a grouped test on what was measured. -/
def evaluateGroups (t : CompiledTest) (ms : MeasurementSet) (key : MetricKey) : List TestResult :=
  match (ms.get? key).map Measurement.reading with
  | some (.measured (.groups rows)) =>
    rows.map fun row ↦
      t.resultOf (t.expression.identifiers.map (BoundName.ofRow row)) (some row.group)
  | some (.measured v) => [t.refuse (.nonScalar key.text v.kind)]
  | some (.failed reason) | some (.skipped reason) => [t.refuse (.unavailable key.text reason)]
  | none => [t.refuse (.unavailable key.text BoundName.notMeasured)]

/-- The results of a test: one, or one for each row if it is grouped. -/
def evaluate (t : CompiledTest) (ms : MeasurementSet) : List TestResult :=
  match t.grouped with
  | some key => t.evaluateGroups ms key
  | none =>
    [t.resultOf (t.bindings.entries.map fun b ↦ BoundName.ofMeasurement ms b.1 b.2) none]

end CompiledTest

end DataQuality
