import DataQuality.Connection.Setting

/-!
# Database files

A warehouse without a server lives in a file or in memory. Its URL is the path of the file, with an
optional scheme in front and a few settings behind; every setting has to be known.
-/

namespace DataQuality

/-- Where a database without a server is. `system` is the way that files are accessed, unless it is
the usual one. -/
structure DatabaseFile where
  name : String
  inMemory : Bool := false
  system : Option String := none
  deriving DecidableEq, Repr, Inhabited

namespace DatabaseFile

/-- The name of databases in memory. -/
def memoryName : String := ":memory:"

/-- A text without all the copies of another in front of it; `fuel` bounds their number. -/
def dropAll (start : List Char) : (fuel : Nat) → List Char → List Char
  | 0, cs => cs
  | fuel + 1, cs =>
    if start.isPrefixOf cs then dropAll start fuel (cs.drop start.length) else cs

/-- What a URL says behind its scheme, however often that is written in small letters. -/
def withoutScheme (url : String) : List Char :=
  dropAll "sqlite:".toList url.length (dropAll "sqlite://".toList url.length url.toList)

/-- The database after one more setting. -/
def set (d : DatabaseFile) (setting : String × String) : Except SettingError DatabaseFile :=
  match setting with
  | ("mode", "memory") => .ok { d with inMemory := true }
  | ("vfs", system) => .ok { d with system := some system }
  | (name, value) =>
    match allowed.lookup name with
    | none => .error (.unknownName name)
    | some values => if values.contains value then .ok d else .error (.unknownValue name value)
where
  /-- The values of the settings that make no difference to a database that is only read. -/
  allowed : List (String × List String) :=
    [("mode", ["ro", "rw", "rwc"]), ("cache", ["private", "shared"]),
      ("immutable", ["true", "1", "false", "0"])]

/-- The database of a name; escapes in the name of a file are undone. -/
def named (cs : List Char) : Except SettingError DatabaseFile :=
  if cs = memoryName.toList then .ok { name := memoryName, inMemory := true }
  else match Text.ofBytes (Percent.decode cs) with
    | .ok name => .ok { name }
    | .error fault => .error (.noText fault)

/-- The database of a URL. -/
def ofUrl (url : String) : Except SettingError DatabaseFile :=
  let cs := withoutScheme url
  match Text.cut '?' cs with
  | none => named cs
  | some (name, settings) => do
    (Url.pairsOf settings).foldlM set (← named name)

/-- The ways that files can be accessed. -/
def systems : List String := ["unix", "unix-none", "unix-dotfile", "unix-excl"]

/-- The way of access that keeps everything in memory. -/
def memorySystem : String := "memdb"

/-- Whether nothing has to be there already: a database in memory, and one without a name, which is
kept in a file of its own for as long as it is open. -/
def needsNoFile (d : DatabaseFile) : Bool :=
  d.inMemory || d.name.isEmpty || d.system = some memorySystem

end DatabaseFile

/-- What is found in the place of a file. -/
inductive StoredFile where
  | missing
  | directory
  | database
  | foreign
  deriving DecidableEq, Repr, Inhabited

namespace StoredFile

/-- What a file with a database begins with. -/
def databaseMark : List UInt8 := "SQLite format 3\x00".toUTF8.toList

/-- What a file is that begins with bytes: an empty one can become a database, and one of a single
byte counts as empty. -/
def ofBytes (bytes : List UInt8) : StoredFile :=
  if bytes.length ≤ 1 || databaseMark.isPrefixOf bytes then database else foreign

end StoredFile

/-- Why a database file cannot be opened. -/
inductive OpenError where
  | badName
  | unknownSystem (name : String)
  | missing
  | directory
  deriving DecidableEq, Repr

namespace OpenError

/-- The error as it is followed down to its cause, which speaks once more for itself. -/
def chain (context cause : String) : String := context ++ cause ++ ": " ++ cause

/-- What a database says in an error. -/
def databaseText (code : Nat) (message : String) : String :=
  "(code: " ++ Number.natText code ++ ") " ++ message

/-- The message of an error. -/
def message : OpenError → String
  | badName =>
    chain "error communicating with database: "
      "filename passed to SQLite must not contain nul bytes"
  | unknownSystem name => ofDatabase 1 ("no such vfs: " ++ name)
  | missing => ofDatabase 14 "unable to open database file"
  | directory => ofDatabase 266 "disk I/O error"
where
  /-- An error of the database itself. -/
  ofDatabase (code : Nat) (text : String) : String :=
    chain "error returned from database: " (databaseText code text)

end OpenError

/-- Why a database cannot be opened, given what is found in the place of its file. -/
def DatabaseFile.openError? (d : DatabaseFile) (found : StoredFile) : Option OpenError :=
  if d.name.toList.contains '\x00' then some .badName
  else match d.system.filter fun s ↦ !systems.contains s && s != memorySystem with
    | some system => some (.unknownSystem system)
    | none =>
      if d.needsNoFile then none
      else match found with
        | .missing => some .missing
        | .directory => some .directory
        | .database | .foreign => none

end DataQuality
