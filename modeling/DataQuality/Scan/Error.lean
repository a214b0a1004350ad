import DataQuality.Duration
import DataQuality.Measure.Key
import DataQuality.Scan.Stage

/-!
# Scan errors

Everything that can go wrong around a scan: with the warehouse, the documents, or the scan itself.
-/

namespace DataQuality

/-- A defect of the scan itself. -/
inductive InternalFault where
  | writtenTwice (key : MetricKey)
  | alreadyRan (table : String) (stage : ScanStage)
  | invalidTransition (source target : ScanStage)
  | defect (context : String)
  deriving DecidableEq, Repr

/-- The message of a defect. -/
def InternalFault.message : InternalFault → String
  | .writtenTwice key => "measurement '" ++ key.text ++ "' was written twice"
  | .alreadyRan table stage => "scan of '" ++ table ++ "' already ran (state " ++ stage.name ++ ")"
  | .invalidTransition source target =>
    "invalid scan transition " ++ source.name ++ " -> " ++ target.name
  | .defect context => context

/-- Why an operation failed. `cause` is the message of what lies beneath; it is shown only where
whole chains of causes are. -/
inductive ScanError where
  | connection (cause : String)
  | schemaDiscovery (table context : String)
  | configuration (message : String)
  | queryExecution (context : String)
  | queryTimeout (timeout : Duration)
  | unsupportedFeature (feature warehouse : String)
  | cancelled (context : String)
  | internal (fault : InternalFault)
  | io (context cause : String)
  | serialization (context cause : String)
  deriving DecidableEq, Repr

namespace ScanError

/-- The message of an error. -/
def message : ScanError → String
  | connection _ => "Warehouse connection failed: Warehouse connection failed"
  | schemaDiscovery table context =>
    "Schema discovery failed for table '" ++ table ++ "': " ++ context
  | configuration message => "Configuration error: " ++ message
  | queryExecution context => "Query execution failed: " ++ context
  | queryTimeout timeout => "Query timed out after " ++ timeout.text
  | unsupportedFeature feature warehouse =>
    "Unsupported operation: " ++ feature ++ " not supported for " ++ warehouse
  | cancelled context => "Scan cancelled: " ++ context
  | internal fault => "Internal scan fault: " ++ fault.message
  | io context _ => "I/O operation failed: " ++ context
  | serialization context _ => "Serialization failed: " ++ context

/-- The message of what lies beneath, if the message does not hold it already. -/
def cause? : ScanError → Option String
  | connection cause | io _ cause | serialization _ cause => some cause
  | _ => none

/-- Whether the connection to the warehouse is gone. -/
def isConnectionError : ScanError → Bool
  | connection _ => true
  | _ => false

end ScanError

end DataQuality
