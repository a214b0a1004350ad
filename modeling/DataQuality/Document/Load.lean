import DataQuality.Config.Validation
import DataQuality.Document.Scan
import DataQuality.Json.Reader
import DataQuality.Scan.Error
import DataQuality.Yaml.Reader

/-!
# Loading scan documents

A text becomes a configuration in three steps, each of which may fail: it is read as a tree of
nodes as far as it can be, the tree is decoded, and what it describes is checked. Decoding finds
what is wrong first in the order of the text, a flaw of a node or the end of what could be read.
-/

namespace DataQuality

/-- The notation of a document. -/
inductive DocumentFormat where
  | json
  | yaml
  deriving DecidableEq, Repr

/-- The name of a notation in messages. -/
def DocumentFormat.name : DocumentFormat → String
  | .json => "JSON"
  | .yaml => "YAML"

/-- Why a configuration cannot be loaded. -/
inductive LoadError where
  | unreadable (file cause : String)
  | json (source : String) (cause : DocumentError Json.Place)
  | yaml (cause : DocumentError Yaml.Mark)
  | unsound (cause : ConfigurationError)

namespace LoadError

/-- A document that is refused. -/
def refused (format : DocumentFormat) (cause : String) : ScanError :=
  .serialization ("invalid " ++ format.name ++ " scan document") cause

/-- The error as others see it. -/
def toScanError : LoadError → ScanError
  | unreadable file cause => .io ("failed to read scan document " ++ file) cause
  | json source cause => refused .json (Json.explainError source cause)
  | yaml cause => refused .yaml (Yaml.explainError cause)
  | unsound cause => .configuration cause.message

/-- What is wrong with the document, if its text could be read that far. -/
def flaw? : LoadError → Option Flaw
  | json _ cause => cause.flaw?
  | yaml cause => cause.flaw?
  | _ => none

end LoadError

/-- What a document says; a fault behind its node counts only if the node has no flaw. -/
def Document.decode {P α : Type} (d : Document P) (decode : Decoder P α) :
    Except (DocumentError P) α :=
  (decode d.root).bind fun a ↦
    match d.tail with
    | some f => .error (.malformed f)
    | none => .ok a

namespace ScanConfiguration

/-- The configuration that a JSON text describes when its numbers are read by a rule; the list of
its fields may stand in the place of a record. -/
def ofJsonText (rule : Json.FloatRule) (source : String) :
    Except (DocumentError Json.Place) ScanConfiguration :=
  (Json.read rule source).decode (decode true)

/-- The configuration that a YAML text describes. -/
def ofYamlText (source : String) : Except (DocumentError Yaml.Mark) ScanConfiguration :=
  (Yaml.read source).decode (decode false)

/-- The configuration that a text describes. -/
def ofDocument (format : DocumentFormat) (source : String) : Except LoadError ScanConfiguration :=
  match format with
  | .json => (ofJsonText .scaled source).mapError (.json source)
  | .yaml => (ofYamlText source).mapError .yaml

/-- A configuration that meets the structural demands. -/
def checked (c : ScanConfiguration) : Except LoadError ScanConfiguration :=
  match c.error? with
  | some e => .error (.unsound e)
  | none => .ok c

/-- Loads the configuration that a text describes. -/
def parse (format : DocumentFormat) (source : String) : Except LoadError ScanConfiguration :=
  (ofDocument format source).bind checked

end ScanConfiguration

/-- The last part of a file's path. -/
def fileName (path : String) : List Char :=
  let cs := (path.toList.reverse.dropWhile (· == '/')).reverse
  match Text.cutLast '/' cs with
  | some (_, name) => name
  | none => cs

/-- What follows the last dot of a file's name, unless the dot is the first character. -/
def fileExtension? (path : String) : Option String :=
  let name := fileName path
  if name = ['.', '.'] then none
  else match Text.cutLast '.' name with
    | some (_ :: _, extension) => some (String.ofList extension)
    | _ => none

/-- The notation of a file by its name. -/
def DocumentFormat.ofPath (path : String) : DocumentFormat :=
  if (fileExtension? path).any fun e ↦ Text.eqFoldingAscii e "json" then .json else .yaml

/-- Loads the configuration of a file, given what reading the file came to. -/
def ScanConfiguration.ofFile (path : String) (content : Except String String) :
    Except LoadError ScanConfiguration :=
  match content with
  | .error cause => .error (.unreadable path cause)
  | .ok source => parse (.ofPath path) source

end DataQuality
