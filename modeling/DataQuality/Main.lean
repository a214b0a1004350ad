import DataQuality.CommandLine.Run

/-!
# The program

Reads the document that the arguments name, does what they ask for, and writes what came of it.
-/

open DataQuality

/-- The variable of the environment that holds the URL of the warehouse. -/
def urlVariable : String := "DQSCAN_WAREHOUSE_URL"

/-- The content of a document, or why there is none. -/
def readDocument (path : String) : IO (Except String String) := do
  try
    return .ok (← IO.FS.readFile path)
  catch e =>
    return .error (match e with
      | .noFileOrDirectory .. => "No such file or directory (os error 2)"
      | other => toString other)

/-- What an open file is by its first bytes; those of a directory cannot be read. -/
def fileKind (file : IO.FS.Handle) : IO StoredFile := do
  try
    return .ofBytes (← file.read (USize.ofNat StoredFile.databaseMark.length)).toList
  catch _ => return .directory

/-- What is found in the place of a file. -/
def storedFile (path : String) : IO StoredFile := do
  try
    fileKind (← IO.FS.Handle.mk path .read)
  catch _ => return .missing

/-- What the program sees of the world as far as a request needs it. -/
def environmentOf (request : Option Request) : IO Environment := do
  let document ← match request.bind Request.document? with
    | some path => readDocument path
    | none => pure (.error "")
  let file := (request.bind Request.url?).bind fun url ↦
    ((Target.ofUrl url).toOption.bind Target.file).map DatabaseFile.name
  let found ← match file with
    | some name => storedFile name
    | none => pure .missing
  return {
    document := fun _ ↦ document
    stored := fun _ ↦ found
    session := Session.offline fun _ ↦ found
    stamp := .zero }

/-- Does what the arguments ask for; the exit code is the result. -/
def main (arguments : List String) : IO UInt32 := do
  let request := Request.ofArguments (← IO.getEnv urlVariable) arguments
  let outcome := Outcome.ofRequest (← environmentOf request) request
  let time := toString ((← IO.monoMsNow) / 1000) ++ "s"
  for written in outcome.out do
    IO.print (written.render time)
  for (path, content) in outcome.files do
    IO.FS.writeFile path content
  IO.eprint outcome.err
  return UInt32.ofNat outcome.code
