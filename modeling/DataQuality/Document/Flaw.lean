import DataQuality.Number.Text
import DataQuality.Text.Quoted

/-!
# Flaws of documents

What may be wrong with a part of a document that could be read. The notations put a missing value
and a float into different words; the rest of a message is common to them.
-/

namespace DataQuality

/-- What a part of a document turned out to be. A wide integer needs more than 64 bits. -/
inductive Found where
  | nothing
  | truth (b : Bool)
  | integer (i : Int)
  | wideInteger (i : Int)
  | float (x : Float)
  | text (s : String)
  | list
  | record
  deriving Inhabited

/-- How a notation speaks of missing values and of floats. -/
structure Phrasing where
  nothing : String
  float : Float → String

/-- A name as messages set it apart. -/
def Flaw.named (name : String) : String := "`" ++ name ++ "`"

/-- The names that could have been used. -/
def Flaw.alternatives : List String → String
  | [name] => named name
  | [first, second] => named first ++ " or " ++ named second
  | names => "one of " ++ Text.commaSeparated (names.map named)

/-- What was found, in words. -/
def Found.describe (p : Phrasing) : Found → String
  | nothing => p.nothing
  | truth b => "boolean " ++ Flaw.named (if b then "true" else "false")
  | integer i => "integer " ++ Flaw.named (Number.intText i)
  | wideInteger i =>
    "integer " ++ Flaw.named (Number.intText i) ++ if i < 0 then " as i128" else " as u128"
  | float x => "floating point " ++ Flaw.named (p.float x)
  | text s => "string " ++ Text.quoted s
  | list => "sequence"
  | record => "map"

/-- What is wrong with a part of a document. -/
inductive Flaw where
  | wrongType (found : Found) (expected : String)
  | wrongValue (found : Found) (expected : String)
  | wrongLength (length : Nat) (expected : String)
  | unknownField (name : String) (known : List String)
  | unknownChoice (name : String) (known : List String)
  | repeatedField (name : String)
  | missingField (name : String)
  | noChoice (found : Found)
  | furtherMember
  | furtherItem
  | noLiteral
  | taggedLiteral
  | columnClash (key first second : String)
  deriving Inhabited

/-- The flaw in words. -/
def Flaw.describe (p : Phrasing) : Flaw → String
  | wrongType found expected => "invalid type: " ++ found.describe p ++ ", expected " ++ expected
  | wrongValue found expected => "invalid value: " ++ found.describe p ++ ", expected " ++ expected
  | wrongLength length expected =>
    "invalid length " ++ Number.natText length ++ ", expected " ++ expected
  | unknownField name known =>
    "unknown field " ++ named name ++ ", expected " ++ alternatives known
  | unknownChoice name known =>
    "unknown variant " ++ named name ++ ", expected " ++ alternatives known
  | repeatedField name => "duplicate field " ++ named name
  | missingField name => "missing field " ++ named name
  | noChoice found =>
    "invalid type: " ++ found.describe p ++ ", expected a YAML tag starting with '!'"
  | furtherMember => "expected value"
  | furtherItem => "trailing characters"
  | noLiteral => "data did not match any variant of untagged enum ConfigLiteral"
  | taggedLiteral => "untagged and internally tagged enums do not support enum input"
  | columnClash key first second =>
    "column '" ++ key ++ "' is declared twice (as '" ++ first ++ "' and '" ++ second ++ "')"

end DataQuality
