import DataQuality.Text.Basic

/-!
# Files

The files below the directory that the program runs in, as data: what a path leads to, and what the
system says if that is no file.
-/

namespace DataQuality

/-- What a path leads to. -/
inductive FileEntry where
  | file (content : String)
  | directory
  | belowFile
  | missing
  deriving DecidableEq, Repr, Inhabited

/-- The content of a file, or what the system says about reading another entry. -/
def FileEntry.content : FileEntry → Except String String
  | file content => .ok content
  | directory => .error "Is a directory (os error 21)"
  | belowFile => .error "Not a directory (os error 20)"
  | missing => .error "No such file or directory (os error 2)"

/-- Files by their paths. -/
abbrev Files := List (String × String)

namespace Files

/-- The parts of a path; those that stay where they are only show that a directory is meant. -/
def parts (path : String) : List String :=
  ((Text.splitAll '/' path.toList).map String.ofList).filter fun part ↦ part != "" && part != "."

/-- Whether a path can lead to a directory only. -/
def meansDirectory (path : String) : Bool :=
  match (Text.splitAll '/' path.toList).getLast? with
  | some part => [[], ['.'], ['.', '.']].contains part
  | none => false

/-- The content of the file in a place. -/
def at? (files : Files) (place : List String) : Option String :=
  (files.find? fun f ↦ parts f.1 = place).map Prod.snd

/-- Whether there are files below a place. -/
def hasDirectory (files : Files) (place : List String) : Bool :=
  place.isEmpty || files.any fun f ↦ place.isPrefixOf (parts f.1).dropLast

/-- What the parts of a path lead to from a directory on; `asDirectory` says that only a directory
will do. -/
def follow (files : Files) (asDirectory : Bool) (place : List String) : List String → FileEntry
  | [] => .directory
  | ".." :: rest =>
    if place.isEmpty then .missing else follow files asDirectory place.dropLast rest
  | part :: rest =>
    let next := place ++ [part]
    match files.at? next with
    | some content => if rest.isEmpty && !asDirectory then .file content else .belowFile
    | none => if files.hasDirectory next then follow files asDirectory next rest else .missing

/-- What a path leads to. Nothing is known of places outside the directory. -/
def find (files : Files) (path : String) : FileEntry :=
  if path.isEmpty || Text.startsWith path "/" then .missing
  else follow files (meansDirectory path) [] (parts path)

end Files

end DataQuality
