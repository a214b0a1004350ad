import DataQuality.Dialect.Capability
import DataQuality.Config.Basic
import DataQuality.Warehouse

/-!
# What dialects support

Which parts of SQL each warehouse has. What a warehouse lacks is known before any query is sent.
-/

namespace DataQuality

/-- Why a dialect cannot express something. -/
inductive DialectError where
  | unsupported (capability : Capability) (dialect : Warehouse)
  | unsupportedSampleMethod (method : SampleMethod) (dialect : Warehouse)
  deriving DecidableEq, Repr

/-- The message of an error. -/
def DialectError.message : DialectError → String
  | unsupported capability dialect =>
    capability.describe ++ " not supported by the " ++ dialect.name ++ " dialect"
  | unsupportedSampleMethod method dialect =>
    method.name ++ " sampling not supported by the " ++ dialect.name ++ " dialect"

namespace Warehouse

/-- Whether the dialect has a part of SQL. -/
def supports : Warehouse → Capability → Bool
  | .postgreSQL, _ | .snowflake, _ | .bigQuery, _ => true
  | .mySQL, .percentile | .mySQL, .tableSample => false
  | .mySQL, _ => true
  | .sqlite, capability => capability == .histogram

/-- `a` if the dialect has the capability, else an error. -/
def require {α : Type} (w : Warehouse) (capability : Capability) (a : α) : Except DialectError α :=
  if w.supports capability then .ok a else .error (.unsupported capability w)

theorem require_eq_ok_iff {α : Type} {w : Warehouse} {capability : Capability} {a b : α} :
    w.require capability a = .ok b ↔ w.supports capability ∧ a = b := by
  rw [require]
  split <;> simp_all

end Warehouse

end DataQuality
