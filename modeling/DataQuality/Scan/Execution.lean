import DataQuality.Run.Derivation
import DataQuality.Run.Group
import DataQuality.Scan.Session

/-!
# Execution

The groups of a plan take their turns phase by phase. Within a phase a group sees the measurements
of earlier phases only, so the order of turns decides nothing but the order of the report. A run
stops early only if the connection is lost before any query succeeded.
-/

namespace DataQuality

/-- The turn of a group: what came of it, and whether it was skipped because the user had
cancelled. -/
structure Turn where
  outcome : GroupOutcome
  cancelled : Bool

namespace Turn

/-- Whether the query of the group was asked and answered with rows. -/
def succeeded (t : Turn) : Bool := t.outcome.succeeded

/-- The queries asked in a turn. -/
def asked (t : Turn) : List String := (t.outcome.asked.map AskedQuery.sql).toList

/-- The error, if the connection was lost. -/
def lost? (t : Turn) : Option ScanError := t.outcome.error?.filter ScanError.isConnectionError

end Turn

namespace Session

/-- The reason given for groups that are skipped after the user has cancelled. -/
def cancelledReason : String := "scan cancelled"

/-- The turn of a group after the queries asked before and the measurements of earlier phases. -/
def turn (s : Session) (w : Warehouse) (measured : MeasurementSet) (asked : List String)
    (g : QueryGroup) : Turn :=
  if s.isCancelled asked then ⟨g.skip cancelledReason, true⟩
  else ⟨g.run w (s.answer asked) measured, false⟩

/-- The turns of groups in order, up to the one in which the connection is lost; once a query has
succeeded they all have their turn. -/
def turns (s : Session) (w : Warehouse) (measured : MeasurementSet) (asked : List String)
    (succeeded : Bool) : List QueryGroup → List Turn
  | [] => []
  | g :: rest =>
    let t := s.turn w measured asked g
    if !succeeded && t.lost?.isSome then [t]
    else t :: s.turns w measured (asked ++ t.asked) (succeeded || t.succeeded) rest

end Session

/-- How far a run has come. `before` holds the queries asked before the first turn. -/
structure Run where
  before : List String
  turns : List Turn
  ledger : Ledger

namespace Run

/-- A run before its first turn. -/
def start (before : List String) (measurements : List Measurement) : Run :=
  ⟨before, [], Ledger.empty.recordAll measurements⟩

/-- All queries asked so far. -/
def asked (r : Run) : List String := r.before ++ r.turns.flatMap Turn.asked

/-- Whether a query has succeeded. -/
def anySucceeded (r : Run) : Bool := r.turns.any Turn.succeeded

/-- Whether groups were skipped because the user had cancelled. -/
def cancelled (r : Run) : Bool := r.turns.any Turn.cancelled

/-- The error that ended the run, if it has ended early. -/
def lost? (r : Run) : Option ScanError :=
  if r.anySucceeded then none else r.turns.findSome? Turn.lost?

/-- Takes up turns and records what they measured. -/
def take (r : Run) (ts : List Turn) : Run where
  before := r.before
  turns := r.turns ++ ts
  ledger := r.ledger.recordAll (ts.flatMap fun t ↦ t.outcome.measurements)

/-- Runs the groups of a phase, unless the run has ended. -/
def runGroups (s : Session) (w : Warehouse) (r : Run) (groups : List QueryGroup) : Run :=
  if r.lost?.isSome then r
  else r.take (s.turns w r.ledger.measurements r.asked r.anySucceeded groups)

/-- Runs the phases of a plan in order. -/
def runPlan (s : Session) (w : Warehouse) (p : Plan) (r : Run) : Run :=
  Phase.all.foldl (fun r phase ↦ r.runGroups s w (p.groupsIn phase)) r

end Run

end DataQuality
