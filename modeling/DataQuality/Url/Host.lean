import DataQuality.Text.Basic
import DataQuality.Text.Case
import DataQuality.Url.Address
import DataQuality.Url.Basic
import DataQuality.Url.Punycode
import DataQuality.Url.Scheme

/-!
# Hosts of URLs

A host is an address in brackets or a name. A special scheme undoes the escapes of a name, writes
it in lower case and ASCII, and takes a name that ends in a number for an address of four bytes;
all others keep a name as it is.
-/

namespace DataQuality

namespace Host

/-- The characters that no host holds, unless it is an address in brackets. -/
def forbidden : List Char := "\x00\t\n\r #/:<>?@[\\]^|".toList

/-- Whether a character cannot stand in a name that other programs look up. -/
def isForbiddenInName (c : Char) : Bool :=
  c.toNat < 0x20 || c == '\x7f' || c == '%' || forbidden.contains c

/-- Splits before the first colon that is not in brackets. -/
def span (bracketed : Bool) : List Char → List Char × List Char
  | [] => ([], [])
  | c :: rest =>
    if c == ':' && !bracketed then ([], c :: rest)
    else
      let (host, after) := span (c == '[' || (bracketed && c != ']')) rest
      (c :: host, after)

/-- An address in brackets, in its shortest form. -/
def readBracketed (cs : List Char) : Except UrlError String :=
  match cs.getLast?, Address.parse? (cs.drop 1).dropLast with
  | some ']', some pieces => .ok ("[" ++ String.ofList (Address.render pieces) ++ "]")
  | _, _ => .error .invalidAddress

/-- A number of an address: hexadecimal behind `0x`, octal behind another zero, or else decimal. -/
def number? (cs : List Char) : Option Nat :=
  match cs with
  | [] => none
  | '0' :: x :: rest =>
    let (base, digits) := if x == 'x' || x == 'X' then (16, rest) else (8, x :: rest)
    if digits.isEmpty then some 0 else Text.naturalIn? base digits
  | cs => Text.naturalIn? 10 cs

/-- The parts of a name between points; a point at the end separates nothing. -/
def parts (name : List Char) : List (List Char) :=
  let all := Text.splitAll '.' name
  if 1 < all.length && all.getLast? == some [] then all.dropLast else all

/-- Whether a name is meant to be an address: its last part is a number. -/
def endsInNumber (name : List Char) : Bool :=
  match (parts name).getLast? with
  | some last => (!last.isEmpty && last.all Text.isDigit) || (number? last).isSome
  | none => false

/-- The value of an address whose numbers fill its bytes from the left, the last one all that are
left. -/
def addressValue? (numbers : List Nat) : Option Nat :=
  match numbers.reverse with
  | [] => none
  | last :: before =>
    let room := Nat.pow 256 (4 - before.length)
    if 4 < numbers.length || room ≤ last || before.any (255 < ·) then none
    else some (before.reverse.foldl (fun n b ↦ 256 * n + b) 0 * room + last)

/-- An address as four bytes. -/
def addressText (value : Nat) : String :=
  Text.join "." ([16777216, 65536, 256, 1].map fun weight ↦ Number.natText (value / weight % 256))

/-- A name that is meant to be an address. -/
def readAddress (name : List Char) : Except UrlError String :=
  match ((parts name).mapM number?).bind addressValue? with
  | some value => .ok (addressText value)
  | none => .error .invalidByteAddress

/-- What a character of a name stands for: wide forms of ASCII for ASCII, the points of other
scripts for points, a hyphen that shows only at the end of a line for nothing, and a capital for its
small letter. -/
def mapped (c : Char) : List Char :=
  let code := c.toNat
  if code = 0xAD then []
  else if [0x3002, 0xFF0E, 0xFF61].contains code then ['.']
  else if 0xFF01 ≤ code ∧ code ≤ 0xFF5E then [Text.foldAscii (Char.ofNat (code - 0xFEE0))]
  else (Text.lower (String.singleton c)).toList

/-- A label in ASCII. -/
def asciiLabel (label : List Char) : List Char :=
  if label.all (·.toNat < 0x80) then label else "xn--".toList ++ Punycode.encode label

/-- A name as other programs look it up. -/
def readName (cs : List Char) : Except UrlError String :=
  match Text.ofBytes (Percent.decode cs) with
  | .error _ => .error .invalidName
  | .ok written =>
    let labels := (Text.splitAll '.' (written.toList.flatMap mapped)).map asciiLabel
    let name := ['.'].intercalate labels
    if name.any isForbiddenInName then .error .invalidName
    else if name.isEmpty then .error .noHost
    else if endsInNumber name then readAddress name
    else .ok (String.ofList name)

/-- A name that is kept as it is. -/
def readPlain (cs : List Char) : Except UrlError String :=
  if cs.any forbidden.contains then .error .invalidHostCharacter
  else .ok (String.ofList (Percent.encode .control cs))

/-- The host of characters in a URL of a scheme. -/
def read (k : SchemeKind) (cs : List Char) : Except UrlError String :=
  if cs.head? == some '[' then readBracketed cs
  else if k.isSpecial then readName cs
  else readPlain cs

end Host

end DataQuality
