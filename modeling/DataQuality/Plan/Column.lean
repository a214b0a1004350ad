import DataQuality.Config.Definition
import DataQuality.Dialect.ColumnType
import DataQuality.Dialect.Condition
import DataQuality.Dialect.Expression
import DataQuality.Measure.Value

/-!
# Columns and their conditions

How a scan sees a column of the table, and when a row counts as missing or as valid in it. All
queries about a column use the same conditions, so they agree on its rows.
-/

namespace DataQuality

/-- A column as a scan sees it. `key` is the name under which it is measured; a text column may be
declared to hold numbers in a named format. -/
structure ColumnProfile where
  name : String
  key : String
  expr : String
  isText : Bool
  isNumber : Bool
  numberFormat : Option String
  deriving DecidableEq, Repr

namespace ColumnProfile

/-- The profile of a column, given its settings. -/
def ofColumn (w : Warehouse) (column : TableColumn) (settings : Option ColumnSettings) :
    ColumnProfile :=
  let isText := w.isText column.dataType
  { name := column.name
    key := Text.lower column.name
    expr := w.quoteIdentifier column.name
    isText
    isNumber := w.isNumber column.dataType
    numberFormat :=
      (settings.filter fun c ↦ isText && c.hasNumericTextFormat).bind ColumnSettings.validFormat }

/-- Whether the values are numbers, perhaps written as texts. -/
def isNumeric (p : ColumnProfile) : Bool := p.isNumber || p.numberFormat.isSome

/-- The value as a number. -/
def numericExpr (w : Warehouse) (p : ColumnProfile) : String :=
  match p.numberFormat with
  | some format => if p.isNumber then p.expr else w.castTextToNumber p.expr format
  | none => p.expr

/-- The value as a text. -/
def textExpr (w : Warehouse) (p : ColumnProfile) : String :=
  if p.isText then p.expr else w.castToText p.expr

end ColumnProfile

/-- The conditions on the rows of a column: what makes a value missing besides being null, and
what a valid value has to meet besides not being missing. -/
structure ColumnConditions where
  isNull : String
  missingClauses : List String
  validityClauses : List String
  deriving DecidableEq, Repr

namespace ColumnConditions

/-- The condition that a row is missing. -/
def missing (c : ColumnConditions) : Condition :=
  .disjunction ((c.isNull :: c.missingClauses).map .clause)

/-- The condition that a row is valid: not missing, and meeting every clause. -/
def valid (c : ColumnConditions) : Condition :=
  .conjunction (.negation c.missing :: c.validityClauses.map .clause)

/-- Whether any clause for valid values is declared. -/
def hasValidity (c : ColumnConditions) : Bool := !c.validityClauses.isEmpty

/-- A clause that the value is in a list of literals; none for the empty list. -/
def listClause (w : Warehouse) (p : ColumnProfile) (values : List Literal) : List String :=
  if values.isEmpty then []
  else [p.expr ++ " IN (" ++ w.literalList values p.isText ++ ")"]

/-- A clause for each pattern that the text of the value matches. -/
def patternClauses (w : Warehouse) (p : ColumnProfile) (patterns : List String) :
    Except DialectError (List String) :=
  patterns.mapM (w.regexPredicate (p.textExpr w))

/-- The clauses that make a value missing. -/
def missingClausesOf (w : Warehouse) (p : ColumnProfile) (m : MissingDefinition) :
    Except DialectError (List String) :=
  (patternClauses w p m.patterns).map fun patterns ↦ listClause w p m.values ++ patterns

/-- A clause that compares an expression with a bound, if there is one. -/
def boundClause {α : Type} (expr op : String) (show_ : α → String) (bound : Option α) :
    List String :=
  bound.toList.map fun b ↦ expr ++ op ++ show_ b

/-- The clauses that a valid value meets. -/
def validityClausesOf (w : Warehouse) (p : ColumnProfile) (v : ValidityDefinition) :
    Except DialectError (List String) :=
  let number := p.numericExpr w
  let length := w.lengthExpr (p.textExpr w)
  (patternClauses w p v.patterns).map fun patterns ↦
    patterns ++ listClause w p v.values
      ++ boundClause number " >= " Warehouse.floatLiteral v.min
      ++ boundClause number " <= " Warehouse.floatLiteral v.max
      ++ boundClause length " >= " (fun n : UInt32 ↦ Number.natText n.toNat) v.minLength
      ++ boundClause length " <= " (fun n : UInt32 ↦ Number.natText n.toNat) v.maxLength

/-- The conditions of a column, or the part of SQL that they need and the dialect lacks. -/
def build (w : Warehouse) (p : ColumnProfile) (settings : Option ColumnSettings) :
    Except DialectError ColumnConditions := do
  let missing ← match settings with
    | some c => missingClausesOf w p c.missing
    | none => pure []
  let validity ← match settings.bind ColumnSettings.validity? with
    | some v => validityClausesOf w p v
    | none => pure []
  pure ⟨p.expr ++ " IS NULL", missing, validity⟩

end ColumnConditions

end DataQuality
