import DataQuality.Config.Basic
import DataQuality.Document.Record

/-!
# Scan documents

The fields of scan documents, both ways: the configuration that a document describes, and the
document that describes a configuration.
-/

namespace DataQuality

variable {P : Type}

namespace Literal

/-- Whether an integer fits 64 bits with its sign. -/
def fitsInt64 (i : Int) : Bool := Number.minInt64 ≤ i && i ≤ Number.maxInt64

/-- The literal that was found; an integer that does not fit 64 bits with its sign is a float. -/
def ofFound? : Found → Option Literal
  | .integer i => some (if fitsInt64 i then int (Int64.ofInt i) else float (Number.ofInt i))
  | .float x => some (float x)
  | .text s => some (text s)
  | _ => none

/-- The literal that was found in a node. -/
def ofNode (n : Node P) : Except (DocumentError P) Literal :=
  match n.found with
  | .error flaw => .error (n.flawed flaw)
  | .ok (.wideInteger i) => .error (n.flawed (.wrongType (.wideInteger i) "any value"))
  | .ok found =>
    match ofFound? found with
    | some l => .ok l
    | none => .error (.unplaced .noLiteral)

/-- Whether a node is a scalar with a tag that is local to the document. -/
def hasLocalTag : Node P → Bool
  | .leaf _ (.scalar s) => (Yaml.Tag.localName? s.tag).isSome
  | _ => false

/-- Decodes a literal. All of the node has to be read before it is known what it is. -/
def decode : Decoder P Literal := fun n ↦
  match n.fault? with
  | some f => .error (.malformed f)
  | none => if hasLocalTag n then .error (n.flawed .taggedLiteral) else ofNode n

/-- The literal in a document. -/
def toJson : Literal → Json
  | int i => .int i.toInt
  | float x => .float x
  | text s => .text s

end Literal

/-- The members of fields that are there. -/
def givenMembers (members : List (String × Option Json)) : List (String × Json) :=
  members.filterMap fun m ↦ m.2.map fun v ↦ (m.1, v)

namespace SqlMetric

/-- The form of custom queries. -/
def form : RecordForm P SqlMetric where
  title := "struct SqlMetricConfig"
  blank := numeric ""
  fields :=
    [.free "type" (.oneOf [("numeric", Kind.numeric), ("failed_rows", Kind.failedRows)])
        fun m v ↦ { m with kind := v },
      .free "name" (.optional .text) fun m v ↦ { m with name := v },
      .needed "sql" .text fun m v ↦ { m with sql := v },
      .free "metric_names" (.optional (.list .text)) fun m v ↦ { m with metricNames := v },
      .free "group_fields" (.optional (.list .text)) fun m v ↦ { m with groupFields := v },
      .free "tests" (.list .text) fun m v ↦ { m with tests := v }]

/-- Decodes a custom query. -/
def decode (positional : Bool) : Decoder P SqlMetric := form.decode positional

/-- The custom query in a document. -/
def toJson (m : SqlMetric) : Json :=
  .object (givenMembers
    [("type", some (.text m.kind.name)), ("name", m.name.map .text), ("sql", some (.text m.sql)),
      ("metric_names", m.metricNames.map Json.ofTexts),
      ("group_fields", m.groupFields.map Json.ofTexts), ("tests", some (Json.ofTexts m.tests))])

end SqlMetric

namespace ColumnSettings

/-- The form of the settings of a column. -/
def form (positional : Bool) : RecordForm P ColumnSettings where
  title := "struct ColumnConfiguration"
  blank := empty
  fields :=
    [.free "metrics" (.list .text) fun c v ↦ { c with metrics := v },
      .free "metric_groups" (.list .text) fun c v ↦ { c with metricGroups := v },
      .free "missing_values" (.optional (.list Literal.decode))
        fun c v ↦ { c with missingValues := v },
      .free "missing_format" (.optional .text) fun c v ↦ { c with missingFormat := v },
      .free "missing_regex" (.optional .text) fun c v ↦ { c with missingRegex := v },
      .free "valid_format" (.optional .text) fun c v ↦ { c with validFormat := v },
      .free "valid_regex" (.optional .text) fun c v ↦ { c with validRegex := v },
      .free "valid_values" (.optional (.list Literal.decode)) fun c v ↦ { c with validValues := v },
      .free "valid_min" (.optional .float) fun c v ↦ { c with validMin := v },
      .free "valid_max" (.optional .float) fun c v ↦ { c with validMax := v },
      .free "valid_min_length" (.optional .word32) fun c v ↦ { c with validMinLength := v },
      .free "valid_max_length" (.optional .word32) fun c v ↦ { c with validMaxLength := v },
      .free "tests" (.list .text) fun c v ↦ { c with tests := v },
      .free "sql_metrics" (.list (SqlMetric.decode positional)) fun c v ↦
        { c with sqlMetrics := v }]

/-- Decodes the settings of a column. -/
def decode (positional : Bool) : Decoder P ColumnSettings := (form positional).decode positional

/-- The settings of a column in a document. -/
def toJson (c : ColumnSettings) : Json :=
  .object (givenMembers
    [("metrics", some (Json.ofTexts c.metrics)),
      ("metric_groups", some (Json.ofTexts c.metricGroups)),
      ("missing_values", c.missingValues.map fun vs ↦ .list (vs.map Literal.toJson)),
      ("missing_format", c.missingFormat.map .text), ("missing_regex", c.missingRegex.map .text),
      ("valid_format", c.validFormat.map .text), ("valid_regex", c.validRegex.map .text),
      ("valid_values", c.validValues.map fun vs ↦ .list (vs.map Literal.toJson)),
      ("valid_min", c.validMin.map .float), ("valid_max", c.validMax.map .float),
      ("valid_min_length", c.validMinLength.map fun n ↦ Json.ofNat n.toNat),
      ("valid_max_length", c.validMaxLength.map fun n ↦ Json.ofNat n.toNat),
      ("tests", some (Json.ofTexts c.tests)),
      ("sql_metrics", some (.list (c.sqlMetrics.map SqlMetric.toJson)))])

end ColumnSettings

namespace ScanConfiguration

/-- Lists columns under the lowercase form of their names. `declared` holds the spelling under
which each was met; a second spelling is an error. -/
def foldColumns (declared : Dict String) (columns : Dict ColumnSettings) :
    List (String × ColumnSettings) → Except Flaw (Dict ColumnSettings)
  | [] => .ok columns
  | (name, settings) :: rest =>
    let key := Text.lower name
    match declared.get? key with
    | some earlier => .error (.columnClash key earlier name)
    | none => foldColumns (declared.insert key name) (columns.insert key settings) rest

/-- Decodes the settings of columns in the order of the document. -/
def decodeSettings (positional : Bool) (e : Extent P) :
    List (Node P × Node P) → Except (DocumentError P) (List (String × ColumnSettings))
  | [] => .ok []
  | (key, value) :: rest =>
    (key.asText "a string").bind fun name ↦
      ((ColumnSettings.decode positional value).mapError
        (·.within key.step e.start value.extent.after)).bind fun settings ↦
          (decodeSettings positional e rest).map ((name, settings) :: ·)

/-- Decodes the columns of a document: of a name that is repeated as it is, the last settings
stay; names that differ in letter case only are an error. -/
def decodeColumns (positional : Bool) : Decoder P (Dict ColumnSettings) := fun n ↦
  (n.asMembers "a map").bind fun members ↦
    (decodeSettings positional n.extent members).bind fun columns ↦
      (foldColumns Dict.empty Dict.empty (Dict.ofList columns).entries).mapError .unplaced

/-- The form of scan documents. -/
def form (positional : Bool) : RecordForm P ScanConfiguration where
  title := "struct ScanConfiguration"
  blank := ofTable ""
  fields :=
    [.needed "table_name" .text fun c v ↦ { c with tableName := v },
      .free "metrics" (.list .text) fun c v ↦ { c with metrics := v },
      .free "metric_groups" (.list .text) fun c v ↦ { c with metricGroups := v },
      .free "tests" (.list .text) fun c v ↦ { c with tests := v },
      .free "columns" (decodeColumns positional) fun c v ↦ { c with columns := v },
      .free "sql_metrics" (.list (SqlMetric.decode positional)) fun c v ↦
        { c with sqlMetrics := v },
      .free "mins_maxs_limit" .word32 fun c v ↦ { c with minsMaxsLimit := v },
      .free "frequent_values_limit" .word32 fun c v ↦ { c with frequentValuesLimit := v },
      .free "histogram_buckets" .word32 fun c v ↦ { c with histogramBuckets := v },
      .free "filter" (.optional .text) fun c v ↦ { c with filter := v },
      .free "sample_percentage" (.optional .float) fun c v ↦ { c with samplePercentage := v },
      .free "sample_method"
        (.oneOf [("SYSTEM", SampleMethod.system), ("BERNOULLI", SampleMethod.bernoulli)])
        fun c v ↦ { c with sampleMethod := v }]

/-- Decodes a scan document. -/
def decode (positional : Bool) : Decoder P ScanConfiguration := (form positional).decode positional

/-- The document that describes a configuration; options that are not set are left out. -/
def toJson (c : ScanConfiguration) : Json :=
  .object (givenMembers
    [("table_name", some (.text c.tableName)), ("metrics", some (Json.ofTexts c.metrics)),
      ("metric_groups", some (Json.ofTexts c.metricGroups)),
      ("tests", some (Json.ofTexts c.tests)),
      ("columns", some (.object (c.columns.entries.map fun e ↦ (e.1, e.2.toJson)))),
      ("sql_metrics", some (.list (c.sqlMetrics.map SqlMetric.toJson))),
      ("mins_maxs_limit", some (Json.ofNat c.minsMaxsLimit.toNat)),
      ("frequent_values_limit", some (Json.ofNat c.frequentValuesLimit.toNat)),
      ("histogram_buckets", some (Json.ofNat c.histogramBuckets.toNat)),
      ("filter", c.filter.map .text), ("sample_percentage", c.samplePercentage.map .float),
      ("sample_method", some (.text c.sampleMethod.name))])

end ScanConfiguration

end DataQuality
