import DataQuality.Text.Case

/-!
# Schemes of URLs

A few schemes of the web are special: their URLs always have a host and a path, and take
backslashes for slashes. Those of files are special too, but need no host.
-/

namespace DataQuality

/-- How the part after the scheme is read. -/
inductive SchemeKind where
  | plain
  | special (defaultPort : UInt16)
  | file
  deriving DecidableEq, Repr

namespace SchemeKind

/-- The kind of a scheme in lower case. -/
def ofScheme : String → SchemeKind
  | "http" | "ws" => special 80
  | "https" | "wss" => special 443
  | "ftp" => special 21
  | "file" => file
  | _ => plain

/-- Whether backslashes count as slashes. -/
def isSpecial : SchemeKind → Bool
  | plain => false
  | special _ | file => true

/-- Whether a character separates the parts of a path. -/
def isSlash (k : SchemeKind) (c : Char) : Bool := c == '/' || (k.isSpecial && c == '\\')

/-- Whether a character ends the authority. -/
def endsAuthority (k : SchemeKind) (c : Char) : Bool := k.isSlash c || c == '?' || c == '#'

/-- The port that need not be written. -/
def defaultPort? : SchemeKind → Option UInt16
  | special p => some p
  | plain | file => none

end SchemeKind

namespace Url

/-- Whether a character is a letter of ASCII. -/
def isAsciiLetter (c : Char) : Bool := ('a' ≤ c && c ≤ 'z') || ('A' ≤ c && c ≤ 'Z')

/-- Whether a character may stand in a scheme after the first. -/
def isSchemeChar (c : Char) : Bool :=
  isAsciiLetter c || Text.isDigit c || c == '+' || c == '-' || c == '.'

/-- The scheme in lower case, and what follows its colon. -/
def spanScheme? (cs : List Char) : Option (String × List Char) :=
  if cs.head?.any isAsciiLetter then
    match cs.span isSchemeChar with
    | (scheme, ':' :: rest) => some (String.ofList (scheme.map Text.foldAscii), rest)
    | _ => none
  else none

end Url

end DataQuality
