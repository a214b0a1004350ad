import DataQuality.Duration
import DataQuality.Scan.Error
import DataQuality.Url.Reader

/-!
# Connections

Where a warehouse is and how it may be asked. A connection never holds a password; that stays in
the URL.
-/

namespace DataQuality

/-- How to reach a warehouse. -/
structure Connection where
  host : String := "localhost"
  port : Option UInt16 := none
  database : Option String := none
  user : Option String := none
  connectTimeout : Duration := .ofSeconds 30
  queryTimeout : Duration := .ofSeconds 60
  maxConnections : UInt32 := 4
  readOnly : Bool := true
  deriving DecidableEq, Repr, Inhabited

/-- What is wrong with a connection. -/
inductive ConnectionError where
  | emptyHost
  | portZero
  | noConnections
  | tooManyConnections
  | noConnectTimeout
  | noQueryTimeout
  deriving DecidableEq, Repr

namespace Connection

/-- The most connections that may be open at once. -/
def maxPoolSize : UInt32 := 64

/-- The first thing that is wrong with a connection, if anything. -/
def error? (c : Connection) : Option ConnectionError :=
  if c.host.isEmpty then some .emptyHost
  else if c.port = some 0 then some .portZero
  else if c.maxConnections = 0 then some .noConnections
  else if maxPoolSize < c.maxConnections then some .tooManyConnections
  else if c.connectTimeout.nanoseconds = 0 then some .noConnectTimeout
  else if c.queryTimeout.nanoseconds = 0 then some .noQueryTimeout
  else none

/-- The connection as messages show it. -/
def text (c : Connection) : String :=
  let port := match c.port with
    | some p => ":" ++ Number.natText p.toNat
    | none => ""
  let database := match c.database with
    | some d => "/" ++ d
    | none => ""
  "ConnectionConfig(" ++ c.host ++ port ++ database ++ ")"

/-- The name of a database in a path: the path without slashes in front, unless that is nothing. -/
def databaseOfPath (path : String) : Option String :=
  match path.toList.dropWhile (· == '/') with
  | [] => none
  | cs => some (String.ofList cs)

/-- The connection that a URL describes; without a host it is this one. -/
def ofParsed (u : Url) : Connection where
  host := u.host?.getD "localhost"
  port := u.port?
  database := databaseOfPath u.path
  user := u.user?

/-- The connection that a text describes as a URL; what is no URL describes none in particular. -/
def ofUrl (url : String) : Connection :=
  match Url.parse url with
  | .ok u => ofParsed u
  | .error _ => {}

end Connection

namespace ConnectionError

/-- The message of an error. -/
def message : ConnectionError → String
  | emptyHost => "host cannot be empty"
  | portZero => "port must be greater than 0"
  | noConnections => "max_connections must be greater than 0"
  | tooManyConnections =>
    "max_connections should not exceed " ++ Number.natText Connection.maxPoolSize.toNat
  | noConnectTimeout => "connect_timeout must be greater than 0"
  | noQueryTimeout => "query_timeout must be greater than 0"

/-- The error as others see it. -/
def toScanError (e : ConnectionError) : ScanError := .configuration e.message

end ConnectionError

/-- The URL as logs may show it: with stars for a password, and nothing of a text that is no URL. -/
def redactUrl (url : String) : String :=
  match Url.parse url with
  | .ok u => u.redact.render
  | .error _ => "<redacted>"

end DataQuality
