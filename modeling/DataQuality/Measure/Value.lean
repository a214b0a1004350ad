import DataQuality.Number.Text

/-!
# Measured values

A value is a scalar, as a cell of a query result holds it, or one of the structures that metrics
over whole columns produce.
-/

namespace DataQuality

/-- A column of the scanned table. -/
structure TableColumn where
  name : String
  dataType : String
  nullable : Bool
  deriving DecidableEq, Repr, Inhabited

/-- Equal-width buckets: `boundaries` has one more element than `frequencies`, unless both are
empty. -/
structure Histogram where
  boundaries : List Float
  frequencies : List Int
  deriving Inhabited

/-- How often a value occurs. -/
structure ValueFrequency (V : Type) where
  value : V
  frequency : Int

/-- A row of a grouped result: the cells that name the group and the cells measured for it, both in
ascending order of their column names. -/
structure GroupRow (V : Type) where
  group : List (String × V)
  values : List (String × V)

/-- A measured or derived value. -/
inductive Value where
  | null
  | bool (b : Bool)
  | int (i : Int)
  | float (x : Float)
  | text (s : String)
  | list (items : List Value)
  | frequencies (entries : List (ValueFrequency Value))
  | histogram (h : Histogram)
  | schema (columns : List TableColumn)
  | groups (rows : List (GroupRow Value))
  deriving Inhabited

namespace Value

/-- The value as a number, if it is one. -/
def asFloat? : Value → Option Float
  | int i => some (Number.ofInt i)
  | float x => some x
  | _ => none

/-- The value as a whole number, if it is one. A whole float counts; beyond 64 bits it becomes the
nearest integer that fits. -/
def asWhole? : Value → Option Int
  | int i => some i
  | float x => (Number.toInt? x).map Number.clampInt64
  | _ => none

/-- Whether there is no value. -/
def isNull : Value → Bool
  | null => true
  | _ => false

/-- The kind of the value as messages name it. -/
def kind : Value → String
  | null => "null"
  | bool _ => "boolean"
  | int _ | float _ => "number"
  | text _ => "text"
  | list _ => "list"
  | frequencies _ => "frequencies"
  | histogram _ => "histogram"
  | schema _ => "schema"
  | groups _ => "groups"

/-- The value as messages show it; structures show their kind only. -/
def display : Value → String
  | null => "null"
  | bool true => "true"
  | bool false => "false"
  | int i => Number.intText i
  | float x => Number.plainText x
  | text s => "'" ++ s ++ "'"
  | v => "<" ++ v.kind ++ ">"

/-- A text that reads as a number, blanks around it aside, becomes that number: an integer if it
fits, else a float. -/
def ofNumeral (s : String) : Value :=
  let trimmed := Text.trim s
  match Number.parseInt64? trimmed with
  | some i => int i
  | none =>
    match Number.parseFloat? trimmed with
    | some x => float x
    | none => text s

/-- Queries may return numbers as text; where numbers are wanted they are read back. -/
def retyped (numeric : Bool) : Value → Value
  | text s => if numeric then ofNumeral s else text s
  | v => v

/-- Only texts are read back. -/
@[simp] theorem retyped_false (v : Value) : retyped false v = v := by
  cases v <;> simp [retyped]

end Value

end DataQuality
