import DataQuality.Text.Basic
import DataQuality.Url.Percent
import DataQuality.Url.Scheme

/-!
# Paths of URLs

The parts of a path are resolved as they are read: one that stays disappears, and one that goes back
takes the part before it along. The letter of a drive is never taken along.
-/

namespace DataQuality

namespace UrlPath

/-- Whether a part stays where it is. -/
def isSingleDot (part : List Char) : Bool :=
  [".".toList, "%2e".toList].contains (part.map Text.foldAscii)

/-- Whether a part goes back one level. -/
def isDoubleDot (part : List Char) : Bool :=
  ["..".toList, "%2e.".toList, ".%2e".toList, "%2e%2e".toList].contains (part.map Text.foldAscii)

/-- Whether a part is the letter of a drive. -/
def isDrive : List Char → Bool
  | [letter, mark] => Url.isAsciiLetter letter && (mark == ':' || mark == '|')
  | _ => false

/-- The parts without the last one of those so far, which come last one first. -/
def back (done : List (List Char)) : List (List Char) :=
  match done with
  | part :: rest => if isDrive part then part :: rest else rest
  | [] => []

/-- A part as it is kept: the drive of a file is marked by a colon. -/
def kept (k : SchemeKind) (done : List (List Char)) (part : List Char) : List Char :=
  match part with
  | [letter, _] =>
    if k = .file && done.all List.isEmpty && isDrive part then [letter, ':'] else part
  | _ => part

/-- The parts without those that stay or go back; `done` holds the parts so far, the last one
first. -/
def resolve (k : SchemeKind) (done : List (List Char)) : List (List Char) → List (List Char)
  | [] => done.reverse
  | [part] =>
    if isSingleDot part then ([] :: done).reverse
    else if isDoubleDot part then ([] :: back done).reverse
    else (kept k done part :: done).reverse
  | part :: rest =>
    if isSingleDot part then resolve k done rest
    else if isDoubleDot part then resolve k (back done) rest
    else resolve k (kept k done part :: done) rest

/-- The parts of the path of a file: nothing comes between the first slash and the first part. -/
def trimmed (k : SchemeKind) (parts : List (List Char)) : List (List Char) :=
  if k = .file then
    match parts.dropWhile List.isEmpty with
    | [] => [[]]
    | parts => parts
  else parts

/-- A path that begins with a slash; `cs` is what follows the slash. -/
def rooted (k : SchemeKind) (cs : List Char) : String :=
  let written := Text.splitAll '/' (cs.map fun c ↦ if k.isSlash c then '/' else c)
  "/" ++ Text.join "/"
    ((trimmed k (resolve k [] (written.map (Percent.encode .path)))).map String.ofList)

/-- The path behind an authority: only a plain scheme may have none. -/
def read (k : SchemeKind) (cs : List Char) : String :=
  match cs with
  | [] => if k.isSpecial then "/" else ""
  | c :: rest => if k.isSlash c then rooted k rest else rooted k cs

end UrlPath

end DataQuality
