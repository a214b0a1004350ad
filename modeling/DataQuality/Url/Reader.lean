import DataQuality.Url.Host
import DataQuality.Url.Path

/-!
# Reading URLs

A URL begins with a scheme. Two slashes after it introduce an authority, whose credentials end at
the last at sign before the path; a path, a query and a fragment follow.
-/

namespace DataQuality

namespace Url

/-- Whether a character is a control or a blank. -/
def isBlankOrControl (c : Char) : Bool := c.toNat ≤ 0x20

/-- Whether a character is left out wherever it stands. -/
def isLineBreakOrTab (c : Char) : Bool := c == '\t' || c == '\n' || c == '\r'

/-- The characters that count: those between controls and blanks at either end, line breaks and tabs
left out. -/
def relevant (cs : List Char) : List Char :=
  let trimmed := ((cs.dropWhile isBlankOrControl).reverse.dropWhile isBlankOrControl).reverse
  trimmed.filter fun c ↦ !isLineBreakOrTab c

/-- Query and fragment of what follows the path. -/
def readTail (k : SchemeKind) (cs : List Char) : Option String × Option String :=
  let (query, rest) := cs.span (· != '#')
  let set : EscapeSet := if k.isSpecial then .specialQuery else .query
  (match query with
    | '?' :: q => some (String.ofList (Percent.encode set q))
    | _ => none,
   match rest with
    | '#' :: f => some (String.ofList (Percent.encode .fragment f))
    | _ => none)

/-- Splits at the last at sign. -/
def cutCredentials (cs : List Char) : Option (List Char × List Char) := Text.cutLast '@' cs

/-- User and password of what stands before the last at sign. -/
def readCredentials (cs : List Char) : String × String :=
  let (user, password) := (Text.cut ':' cs).getD (cs, [])
  (String.ofList (Percent.encode .userinfo user), String.ofList (Percent.encode .userinfo password))

/-- The port after a colon, and what follows it. Neither no digits at all nor the default port count
as one. A backslash ends a port even where it is no slash. -/
def readPort (k : SchemeKind) (cs : List Char) : Except UrlError (Option UInt16 × List Char) :=
  let (digits, rest) := cs.span (· != '\\')
  if digits.isEmpty then .ok (none, rest)
  else if !digits.all Text.isDigit || 65535 < Number.digitsValue digits then .error .invalidPort
  else
    let port := UInt16.ofNat (Number.digitsValue digits)
    .ok (if k.defaultPort? = some port then none else some port, rest)

/-- Host and port, after whatever credentials there are, and what follows them. Only a plain scheme
can do without a host, and only without credentials and port. -/
def readHostAndPort (k : SchemeKind) (user password : String) (cs : List Char) :
    Except UrlError (UrlAuthority × List Char) :=
  match Host.span false cs with
  | (hostChars, rest) =>
    if hostChars.isEmpty && (k.isSpecial || !rest.isEmpty) then .error .noHost
    else
      match Host.read k hostChars with
      | .error e => .error e
      | .ok host =>
        match readPort k (rest.drop 1) with
        | .error e => .error e
        | .ok (port, rest) =>
          if host.isEmpty && !(user.isEmpty && password.isEmpty) then .error .noHost
          else .ok (⟨user, password, host, port⟩, rest)

/-- The authority, and what follows it all the same; `bare` says that something other than the end
stands behind it. -/
def readAuthority (k : SchemeKind) (bare : Bool) (cs : List Char) :
    Except UrlError (UrlAuthority × List Char) :=
  match cutCredentials cs with
  | none => readHostAndPort k "" "" cs
  | some (credentials, rest) =>
    if credentials.isEmpty && rest.isEmpty && bare then .error .noHost
    else
      let (user, password) := readCredentials credentials
      readHostAndPort k user password rest

/-- What follows two slashes. -/
def readWithAuthority (scheme : String) (k : SchemeKind) (cs : List Char) : Except UrlError Url :=
  let (authority, rest) := cs.span fun c ↦ !k.endsAuthority c
  match readAuthority k (!rest.isEmpty) authority with
  | .error e => .error e
  | .ok (a, left) =>
    let (path, tail) := (left ++ rest).span fun c ↦ c != '?' && c != '#'
    let (query, fragment) := readTail k tail
    .ok ⟨scheme, some a, UrlPath.read k path, query, fragment⟩

/-- What follows the scheme if no authority does. -/
def readWithoutAuthority (scheme : String) (k : SchemeKind) (cs : List Char) : Url :=
  let (path, tail) := cs.span fun c ↦ c != '?' && c != '#'
  let (query, fragment) := readTail k tail
  let text := match path with
    | '/' :: rest => UrlPath.rooted k rest
    | _ => String.ofList (Percent.encode .control path)
  ⟨scheme, none, text, query, fragment⟩

/-- The host of a file, and what follows it. A drive is no host. -/
def readFileHost (cs : List Char) : Except UrlError (String × List Char) :=
  let k := SchemeKind.file
  match cs with
  | a :: b :: rest =>
    if k.isSlash a && k.isSlash b then
      let (hostChars, after) := rest.span fun c ↦ !k.endsAuthority c
      if UrlPath.isDrive hostChars then .ok ("", rest)
      else if hostChars.isEmpty then .ok ("", after)
      else (Host.read k hostChars).map fun host ↦ (if host == "localhost" then "" else host, after)
    else .ok ("", cs)
  | _ => .ok ("", cs)

/-- What follows the scheme of a file. Its host is nobody, or this one, unless another is named; a
path with a drive takes the host away. -/
def readFile (scheme : String) (cs : List Char) : Except UrlError Url :=
  (readFileHost cs).map fun (host, rest) ↦
    let (path, tail) := rest.span fun c ↦ c != '?' && c != '#'
    let (query, fragment) := readTail .file tail
    let path := UrlPath.read .file path
    let first := (path.toList.drop 1).takeWhile (· != '/')
    let host := if UrlPath.isDrive first then "" else host
    ⟨scheme, some ⟨"", "", host, none⟩, path, query, fragment⟩

/-- Reads a URL. -/
def parse (s : String) : Except UrlError Url :=
  match spanScheme? (relevant s.toList) with
  | none => .error .noScheme
  | some (scheme, rest) =>
    match SchemeKind.ofScheme scheme with
    | .plain =>
      match rest with
      | '/' :: '/' :: after => readWithAuthority scheme .plain after
      | _ => .ok (readWithoutAuthority scheme .plain rest)
    | .special port =>
      let k := SchemeKind.special port
      readWithAuthority scheme k (rest.dropWhile k.isSlash)
    | .file => readFile scheme rest

/-- The name and value of a part of a query. Plus signs stand for blanks. -/
def readPair (part : List Char) : String × String :=
  let spaced := part.map fun c ↦ if c == '+' then ' ' else c
  let (name, value) := (Text.cut '=' spaced).getD (spaced, [])
  (Text.ofBytesReplacing (Percent.decode name), Text.ofBytesReplacing (Percent.decode value))

/-- The names and values between ampersands. -/
def pairsOf (cs : List Char) : List (String × String) :=
  ((Text.splitAll '&' cs).filter fun part ↦ !part.isEmpty).map readPair

/-- The names and values in the query. -/
def queryPairs (u : Url) : List (String × String) :=
  match u.query with
  | none => []
  | some q => pairsOf q.toList

end Url

end DataQuality
