import DataQuality.Catalog.Group
import DataQuality.Graph

/-!
# What a request takes

Names are looked up in the catalog, and a set of metrics is completed by the metrics that it
implies and depends on.
-/

namespace DataQuality

/-- Why names or dependencies cannot be settled. -/
inductive CatalogError where
  | unknownMetric (name : String)
  | unknownGroup (name : String)
  | cycle (names : List String)
  deriving DecidableEq, Repr

/-- The message of a catalog error. -/
def CatalogError.message : CatalogError → String
  | unknownMetric name => "unknown metric '" ++ name ++ "'"
  | unknownGroup name => "unknown metric group '" ++ name ++ "'"
  | cycle names => "metric dependency cycle: " ++ Text.join " -> " names

/-- The metric of a name. -/
def Metric.lookUp (name : String) : Except CatalogError Metric :=
  match Metric.ofName? name with
  | some m => .ok m
  | none => .error (.unknownMetric name)

/-- The metrics that a group name stands for. -/
def MetricGroup.lookUp (name : String) : Except CatalogError (List Metric) :=
  match MetricGroup.ofName? name with
  | some g => .ok g.members
  | none => .error (.unknownGroup name)

/-- What the names of a request stand for. -/
structure Selection where
  metrics : List Metric
  unknown : List CatalogError

/-- The metrics that names and group names stand for, in catalog order, and an error for each name
that stands for none. -/
def Selection.ofNames (metrics groups : List String) : Selection :=
  let found := metrics.filterMap Metric.ofName? ++
    (groups.filterMap MetricGroup.ofName?).flatMap MetricGroup.members
  let unknownMetrics := (metrics.filter fun n ↦ (Metric.ofName? n).isNone).map .unknownMetric
  let unknownGroups := (groups.filter fun n ↦ (MetricGroup.ofName? n).isNone).map .unknownGroup
  ⟨Metric.ordered found, unknownMetrics ++ unknownGroups⟩

/-- A metric to measure; an internal one is there for others only and is not reported. -/
structure ResolvedMetric where
  metric : Metric
  internal : Bool
  deriving DecidableEq, Repr

/-- The catalog as a graph: each metric leads to those it depends on. -/
def Metric.dependencyGraph : Graph Metric :=
  ⟨Metric.all, Metric.dependencies, fun _ _ m _ ↦ Metric.mem_all m⟩

/-- A set of metrics with the metrics that they imply, in catalog order. -/
def Metric.withImplied (requested : List Metric) : List Metric :=
  Metric.ordered (requested ++ requested.flatMap Metric.implied)

/-- Completes the requested metrics by those they imply and depend on, in catalog order, so that
each metric comes after its dependencies. -/
def resolve (requested : List Metric) : Except CatalogError (List ResolvedMetric) :=
  match Metric.dependencyGraph.topologicalOrder (Metric.withImplied requested)
      fun m _ ↦ Metric.mem_all m with
  | .ok closure =>
    .ok ((Metric.ordered closure).map fun m ↦ ⟨m, !requested.contains m⟩)
  | .error path => .error (.cycle (path.map Metric.name))

end DataQuality
