import DataQuality.Number.Text
import DataQuality.Url.Percent

/-!
# URLs

The parts of a URL, each as it is written. A password is there if it is not empty.
-/

namespace DataQuality

/-- Who is to be reached and where. -/
structure UrlAuthority where
  user : String
  password : String
  host : String
  port : Option UInt16
  deriving DecidableEq, Repr

/-- A URL; the path begins with a slash unless it is empty or there is no authority. -/
structure Url where
  scheme : String
  authority : Option UrlAuthority
  path : String
  query : Option String
  fragment : Option String
  deriving DecidableEq, Repr

namespace UrlAuthority

/-- User and password as they stand in front of the host. -/
def credentialsText (a : UrlAuthority) : String :=
  if a.user.isEmpty && a.password.isEmpty then ""
  else if a.password.isEmpty then a.user ++ "@"
  else a.user ++ ":" ++ a.password ++ "@"

/-- The authority as it is written. -/
def render (a : UrlAuthority) : String :=
  let port := match a.port with
    | some p => ":" ++ Number.natText p.toNat
    | none => ""
  a.credentialsText ++ a.host ++ port

/-- The authority with stars for a password. -/
def redact (a : UrlAuthority) : UrlAuthority :=
  if a.password.isEmpty then a else { a with password := "****" }

end UrlAuthority

namespace Url

/-- A part behind its mark, if it is there. -/
def markedText (mark : String) : Option String → String
  | some part => mark ++ part
  | none => ""

/-- What stands between the scheme and the path. Without an authority a path must not begin with two
slashes, so a dot keeps them apart. -/
def authorityText (u : Url) : String :=
  match u.authority with
  | some a => "//" ++ a.render
  | none => if u.path.startsWith "//" then "/." else ""

/-- The URL as it is written. -/
def render (u : Url) : String :=
  u.scheme ++ ":" ++ u.authorityText ++ u.path ++ markedText "?" u.query ++
    markedText "#" u.fragment

/-- The URL with stars for a password. -/
def redact (u : Url) : Url := { u with authority := u.authority.map UrlAuthority.redact }

/-- The host, if there is one. -/
def host? (u : Url) : Option String :=
  (u.authority.map UrlAuthority.host).filter fun h ↦ !h.isEmpty

/-- The port, if it is written. -/
def port? (u : Url) : Option UInt16 := u.authority.bind UrlAuthority.port

/-- The user, if there is one. -/
def user? (u : Url) : Option String :=
  (u.authority.map UrlAuthority.user).filter fun n ↦ !n.isEmpty

end Url

/-- Why a text is no URL. -/
inductive UrlError where
  | noScheme
  | noHost
  | invalidPort
  | invalidName
  | invalidHostCharacter
  | invalidAddress
  | invalidByteAddress
  deriving DecidableEq, Repr

/-- The message of an error. -/
def UrlError.message : UrlError → String
  | noScheme => "relative URL without a base"
  | noHost => "empty host"
  | invalidPort => "invalid port number"
  | invalidName => "invalid international domain name"
  | invalidHostCharacter => "invalid domain character"
  | invalidAddress => "invalid IPv6 address"
  | invalidByteAddress => "invalid IPv4 address"

end DataQuality
