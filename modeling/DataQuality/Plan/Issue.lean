/-!
# Issues

Problems of a configuration that concern one item only. They are listed in the report of a scan
and do not stop it.
-/

namespace DataQuality

/-- What kind of problem an issue is. -/
inductive IssueKind where
  | unknownMetric
  | unknownMetricGroup
  | incompatibleColumnType
  | unsupportedByDialect
  | dependencyUnavailable
  | malformedTest
  | unresolvedIdentifier
  | invalidSqlMetric
  deriving DecidableEq, Repr

namespace IssueKind

/-- Every kind of problem. -/
def all : List IssueKind :=
  [.unknownMetric, .unknownMetricGroup, .incompatibleColumnType, .unsupportedByDialect,
    .dependencyUnavailable, .malformedTest, .unresolvedIdentifier, .invalidSqlMetric]

/-- The name of a kind in reports. -/
def name : IssueKind → String
  | .unknownMetric => "unknown_metric"
  | .unknownMetricGroup => "unknown_metric_group"
  | .incompatibleColumnType => "incompatible_column_type"
  | .unsupportedByDialect => "unsupported_by_dialect"
  | .dependencyUnavailable => "dependency_unavailable"
  | .malformedTest => "malformed_test"
  | .unresolvedIdentifier => "unresolved_identifier"
  | .invalidSqlMetric => "invalid_sql_metric"

end IssueKind

/-- A problem with one item, which `subject` names. -/
structure Issue where
  subject : String
  kind : IssueKind
  message : String
  deriving DecidableEq, Repr

/-- The issue on one line. -/
def Issue.text (i : Issue) : String := i.subject ++ ": " ++ i.message

end DataQuality
