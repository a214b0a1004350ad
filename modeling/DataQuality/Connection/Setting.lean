import DataQuality.Text.Quoted
import DataQuality.Text.Utf8
import DataQuality.Url.Reader

/-!
# Settings of drivers

What the URL of a warehouse may say to its driver. A server knows many settings and passes over
those that it does not know, but the values of some have to make sense, and all parts of the URL
have to be texts once their escapes are undone.
-/

namespace DataQuality

/-- Why a driver refuses a URL. -/
inductive SettingError where
  | noText (fault : Text.ByteFault)
  | noNumber (fault : Number.NatFault)
  | noAddress
  | unknownEncryption (value : String)
  | unknownValue (name value : String)
  | unknownName (name : String)
  deriving DecidableEq, Repr

namespace SettingError

/-- A message of a driver about its configuration. -/
def aboutConfiguration (message : String) : String := "error with configuration: " ++ message

/-- The message about a value that a setting does not have. -/
def aboutValue (name value : String) : String :=
  "unknown value " ++ Text.quoted value ++ " for \x60" ++ name ++ "\x60"

/-- The message of an error. A mode of encryption is a configuration of its own. -/
def message (e : SettingError) : String :=
  aboutConfiguration (match e with
    | noText fault => fault.message
    | noNumber fault => fault.message
    | noAddress => "invalid IP address syntax"
    | unknownEncryption value => aboutConfiguration (aboutValue "ssl_mode" value)
    | unknownValue name value => aboutValue name value
    | unknownName name =>
      "unknown query parameter \x60" ++ name ++ "\x60 while parsing connection URL")

end SettingError

/-- What is wrong with characters as an escaped text, if anything. -/
def escapedTextError? (cs : List Char) : Option SettingError :=
  match Text.ofBytes (Percent.decode cs) with
  | .ok _ => none
  | .error fault => some (.noText fault)

/-- What is wrong with a text as a number up to a bound, if anything. -/
def numberError? (bound : Nat) (value : String) : Option SettingError :=
  match Number.readNat bound value with
  | .ok _ => none
  | .error fault => some (.noNumber fault)

namespace ServerSetting

/-- The modes of encryption, in any case. -/
def encryptionModes : List String :=
  ["disable", "allow", "prefer", "require", "verify-ca", "verify-full"]

/-- The settings that a server knows, besides options by name. -/
def names : List String :=
  ["sslmode", "ssl-mode", "sslrootcert", "ssl-root-cert", "ssl-ca", "sslcert", "ssl-cert",
    "sslkey", "ssl-key", "statement-cache-capacity", "host", "hostaddr", "port", "dbname", "user",
    "password", "application_name", "options"]

/-- Whether a server knows a setting. -/
def isKnown (name : String) : Bool := names.contains name || Text.startsWith name "options["

/-- What is wrong with a setting, if anything. -/
def error? (name value : String) : Option SettingError :=
  match name with
  | "sslmode" | "ssl-mode" =>
    if encryptionModes.any (Text.eqFoldingAscii value) then none
    else some (.unknownEncryption value)
  | "statement-cache-capacity" => numberError? (Nat.pow 2 64 - 1) value
  | "port" => numberError? (Nat.pow 2 16 - 1) value
  | "hostaddr" => if Address.isAddress value.toList then none else some .noAddress
  | _ => none

end ServerSetting

namespace Url

/-- The host, if it is the path of a socket: only then its escapes are undone. -/
def socket? (u : Url) : Option String :=
  u.host?.filter fun h ↦ (Percent.decode h.toList).head? = some '/'.toNat.toUInt8

/-- The parts in front of the settings that are texts with escapes. -/
def escapedParts (u : Url) : List String :=
  u.socket?.toList ++ u.user?.toList ++ (u.authority.map UrlAuthority.password).toList ++
    [String.ofList (u.path.toList.dropWhile (· == '/'))]

/-- What is wrong with the URL of a server, if anything: the first of its faults. -/
def serverError? (u : Url) : Option SettingError :=
  u.escapedParts.findSome? (fun part ↦ escapedTextError? part.toList) <|>
    u.queryPairs.findSome? fun s ↦ ServerSetting.error? s.1 s.2

/-- The settings that a server passes over. It reads none behind the first fault. -/
def passedOver (u : Url) : List (String × String) :=
  if (u.escapedParts.findSome? fun part ↦ escapedTextError? part.toList).isSome then []
  else
    (u.queryPairs.takeWhile fun s ↦ (ServerSetting.error? s.1 s.2).isNone).filter fun s ↦
      !ServerSetting.isKnown s.1

end Url

end DataQuality
