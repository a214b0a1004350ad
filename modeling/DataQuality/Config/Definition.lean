import DataQuality.Config.Basic

/-!
# Missing and valid values

What the settings of a column come to: which of its values count as missing and which as valid,
with the names of formats resolved to patterns.
-/

namespace DataQuality

/-- Which values count as missing, besides those that are null. -/
structure MissingDefinition where
  values : List Literal
  patterns : List String
  deriving Inhabited

/-- Which values count as valid: those that meet every condition given. -/
structure ValidityDefinition where
  patterns : List String
  values : List Literal
  min : Option Float
  max : Option Float
  minLength : Option UInt32
  maxLength : Option UInt32
  deriving Inhabited

/-- Whether no condition is given. -/
def ValidityDefinition.isTrivial (v : ValidityDefinition) : Bool :=
  v.patterns.isEmpty && v.values.isEmpty && v.min.isNone && v.max.isNone && v.minLength.isNone &&
    v.maxLength.isNone

namespace ColumnSettings

/-- Which values of the column count as missing. -/
def missing (c : ColumnSettings) : MissingDefinition where
  values := c.missingValues.getD []
  patterns := (c.missingFormat.bind Format.missingPattern?).toList ++ c.missingRegex.toList

/-- Every condition that the column sets for valid values. -/
def validityConditions (c : ColumnSettings) : ValidityDefinition where
  patterns := (c.validFormat.bind Format.validityPattern?).toList ++ c.validRegex.toList
  values := c.validValues.getD []
  min := c.validMin
  max := c.validMax
  minLength := c.validMinLength
  maxLength := c.validMaxLength

/-- Which values of the column count as valid, if it sets any condition. -/
def validity? (c : ColumnSettings) : Option ValidityDefinition :=
  if c.validityConditions.isTrivial then none else some c.validityConditions

/-- Whether the column is declared to hold numbers written as text. -/
def hasNumericTextFormat (c : ColumnSettings) : Bool :=
  c.validFormat.any fun f ↦ Text.startsWith f "number_"

end ColumnSettings

end DataQuality
