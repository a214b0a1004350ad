import DataQuality.Connection.Basic
import DataQuality.Connection.DatabaseFile
import DataQuality.Warehouse

/-!
# Targets

Which warehouse a URL leads to and how it is connected to. Drivers are there for two of the
warehouses; for the others queries can be written but not asked.
-/

namespace DataQuality

/-- What a connection to a warehouse may be able to do besides answering queries. -/
inductive WarehouseFeature where
  | concurrentQueries
  | queryTimeout
  | readOnlyMode
  deriving DecidableEq, Repr

/-- Whether the driver of a warehouse has a feature. A database in a file has one connection only,
so its queries would wait for each other anyway. -/
def Warehouse.hasFeature (w : Warehouse) (f : WarehouseFeature) : Bool :=
  !(w == .sqlite && f == .concurrentQueries)

/-- Why a name or a URL leads nowhere. -/
inductive TargetError where
  | unknownName (name : String)
  | unknownScheme
  | invalidUrl (error : UrlError)
  | otherScheme
  | connection (error : ConnectionError)
  | serverSetting (url : String) (error : SettingError)
  | fileSetting (error : SettingError)
  | notOpened (error : OpenError)
  | noDriver (warehouse : Warehouse)
  deriving DecidableEq, Repr

/-- The error as others see it. -/
def TargetError.toScanError : TargetError → ScanError
  | unknownName name => .configuration ("Unknown warehouse type '" ++ name ++ "'")
  | unknownScheme => .configuration "Unrecognized warehouse connection string format"
  | invalidUrl e =>
    .configuration ("Invalid PostgreSQL connection string format: " ++ e.message)
  | otherScheme =>
    .configuration "Connection string must use postgres:// or postgresql:// scheme"
  | connection e => e.toScanError
  | serverSetting url e =>
    .configuration
      ("Failed to create PostgreSQL connection pool to " ++ redactUrl url ++ ": " ++ e.message)
  | fileSetting e => .configuration ("Invalid SQLite connection string: " ++ e.message)
  | notOpened e => .connection e.message
  | noDriver w =>
    .unsupportedFeature "warehouse driver" (w.name ++ " (not compiled into this build)")

namespace Warehouse

/-- The warehouse of a name. -/
def named (name : String) : Except TargetError Warehouse :=
  match ofName? name with
  | some w => .ok w
  | none => .error (.unknownName (normalName name))

/-- The warehouse that a scheme in lower case belongs to. -/
def ofScheme? : String → Option Warehouse
  | "postgres" | "postgresql" => some .postgreSQL
  | "mysql" | "mariadb" => some .mySQL
  | "sqlite" => some .sqlite
  | "snowflake" => some .snowflake
  | "bigquery" => some .bigQuery
  | _ => none

/-- Whether a text names a database in memory or a database file by its ending. -/
def namesDatabaseFile (url : String) : Bool :=
  url == ":memory:" || [".db", ".sqlite", ".sqlite3"].any (Text.endsWith url)

/-- The warehouse that a URL leads to; a text that is no URL may be the name of a file. -/
def ofUrl (url : String) : Except TargetError Warehouse :=
  let scheme := (Text.cut ':' url.toList).map fun p ↦ Text.lower (String.ofList p.1)
  match scheme.bind ofScheme? with
  | some w => .ok w
  | none => if namesDatabaseFile url then .ok .sqlite else .error .unknownScheme

end Warehouse

namespace Connection

/-- The port of PostgreSQL. -/
def postgresPort : UInt16 := 5432

/-- A connection after a setting in a URL; settings that cannot be understood change nothing. -/
def set (c : Connection) (setting : String × String) : Connection :=
  match setting.1 with
  | "statement_timeout" =>
    match Number.parseNat? (Nat.pow 2 64 - 1) setting.2 with
    | some ms => if 0 < ms then { c with queryTimeout := .ofMilliseconds ms } else c
    | none => c
  | "pool_max_conns" =>
    match Number.parseNat? (Nat.pow 2 32 - 1) setting.2 with
    | some n => { c with maxConnections := UInt32.ofNat n }
    | none => c
  | _ => c

/-- The connection if nothing is wrong with it. -/
def checked (c : Connection) : Except ConnectionError Connection :=
  match c.error? with
  | some e => .error e
  | none => .ok c

/-- The connection to PostgreSQL that a URL describes, with the settings in its query. -/
def ofPostgresUrl (url : String) : Except TargetError Connection :=
  match Url.parse url with
  | .error e => .error (.invalidUrl e)
  | .ok u =>
    if Warehouse.ofScheme? u.scheme = some .postgreSQL then
      let c := ofParsed u
      let c := u.queryPairs.foldl set { c with port := c.port <|> some postgresPort }
      c.checked.mapError .connection
    else .error .otherScheme

/-- The connection to a database file that a URL describes. -/
def ofSqliteUrl (url : String) : Except TargetError Connection :=
  ({ ofUrl url with maxConnections := 1 }).checked.mapError .connection

end Connection

/-- What is wrong with what the URL of a server says to its driver, if anything. -/
def serverSettingError? (url : String) : Option TargetError :=
  match Url.parse url with
  | .error _ => none
  | .ok u => u.serverError?.map (.serverSetting url)

/-- The settings in the URL of a warehouse that its driver passes over. -/
def passedOver (url : String) : List (String × String) :=
  match Url.parse url, Connection.ofPostgresUrl url with
  | .ok u, .ok _ => u.passedOver
  | _, _ => []

/-- A warehouse and the connection to it; without a server there is a file instead. -/
structure Target where
  warehouse : Warehouse
  connection : Connection
  file : Option DatabaseFile := none
  deriving DecidableEq, Repr

namespace Target

/-- The server that a URL leads to. -/
def ofServerUrl (url : String) : Except TargetError Target :=
  (Connection.ofPostgresUrl url).bind fun connection ↦
    match serverSettingError? url with
    | some e => .error e
    | none => .ok { warehouse := .postgreSQL, connection }

/-- The database file that a URL leads to. -/
def ofFileUrl (url : String) : Except TargetError Target :=
  (Connection.ofSqliteUrl url).bind fun connection ↦
    ((DatabaseFile.ofUrl url).mapError .fileSetting).map fun file ↦
      { warehouse := .sqlite, connection, file := some file }

/-- The target of a URL. -/
def ofUrl (url : String) : Except TargetError Target :=
  match Warehouse.ofUrl url with
  | .error e => .error e
  | .ok .postgreSQL => ofServerUrl url
  | .ok .sqlite => ofFileUrl url
  | .ok w => .error (.noDriver w)

/-- Opens the target of a URL, given what is found at the names of files. A server is reached for
only when it is first asked, but a database file must be there at once. -/
def openUrl (found : String → StoredFile) (url : String) : Except TargetError Target :=
  (ofUrl url).bind fun t ↦
    match t.file.bind fun d ↦ d.openError? (found d.name) with
    | some e => .error (.notOpened e)
    | none => .ok t

end Target

end DataQuality
