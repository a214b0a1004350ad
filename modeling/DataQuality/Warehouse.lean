import DataQuality.Text.Case
import DataQuality.Text.Basic

/-!
# Warehouses

The kinds of data warehouse that can be scanned. Each speaks its own dialect of SQL.
-/

namespace DataQuality

/-- A kind of data warehouse. -/
inductive Warehouse where
  | postgreSQL
  | mySQL
  | sqlite
  | snowflake
  | bigQuery
  deriving DecidableEq, Repr

namespace Warehouse

/-- Every kind of warehouse. -/
def all : List Warehouse := [.postgreSQL, .mySQL, .sqlite, .snowflake, .bigQuery]

/-- The name of a warehouse in messages and reports. -/
def name : Warehouse → String
  | .postgreSQL => "PostgreSQL"
  | .mySQL => "MySQL"
  | .sqlite => "SQLite"
  | .snowflake => "Snowflake"
  | .bigQuery => "BigQuery"

/-- The spelling under which names are compared. -/
def normalName (s : String) : String := Text.lower (Text.trim s)

/-- The warehouse of a name, in any letter case and between any blanks. -/
def ofName? (s : String) : Option Warehouse :=
  match normalName s with
  | "postgres" | "postgresql" => some .postgreSQL
  | "mysql" => some .mySQL
  | "sqlite" => some .sqlite
  | "snowflake" => some .snowflake
  | "bigquery" => some .bigQuery
  | _ => none

end Warehouse

end DataQuality
