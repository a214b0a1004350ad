import DataQuality.Text.Hex
import DataQuality.Text.Utf8

/-!
# Percent-encoding

Characters that would mean something else in a part of a URL are written as the bytes of their
UTF-8 form, each as a percent sign and two hexadecimal digits.
-/

namespace DataQuality

/-- The characters that are escaped in a part of a URL. Controls and all characters beyond ASCII are
escaped everywhere. -/
inductive EscapeSet where
  | control
  | query
  | specialQuery
  | fragment
  | path
  | userinfo
  deriving DecidableEq, Repr

namespace EscapeSet

/-- The printable ASCII characters that are escaped. -/
def printable : EscapeSet → List Char
  | control => []
  | query => " \"#<>".toList
  | specialQuery => " \"#<>'".toList
  | fragment => " \"<>\x60".toList
  | path => " \"<>\x60#?\x7b\x7d".toList
  | userinfo => " \"<>\x60#?\x7b\x7d/:;=@[\\]^|".toList

/-- Whether a character is escaped. -/
def escapes (set : EscapeSet) (c : Char) : Bool :=
  c.toNat < 0x20 || 0x7e < c.toNat || set.printable.contains c

end EscapeSet

namespace Percent

/-- A digit of the hexadecimal system, in upper case. -/
def hexDigit (n : Nat) : Char := (Nat.digitChar n).toUpper

/-- A byte as it is written. -/
def encodeByte (b : UInt8) : List Char := ['%', hexDigit (b.toNat / 16), hexDigit (b.toNat % 16)]

/-- A character as it is written. -/
def encodeChar (set : EscapeSet) (c : Char) : List Char :=
  if set.escapes c then (String.utf8EncodeChar c).flatMap encodeByte else [c]

/-- A text as it is written. -/
def encode (set : EscapeSet) (cs : List Char) : List Char := cs.flatMap (encodeChar set)

/-- The bytes that a written text stands for; a percent sign that no two digits follow stands for
itself. -/
def decode : List Char → List UInt8
  | [] => []
  | '%' :: high :: low :: rest =>
    match Text.hexValue? high, Text.hexValue? low with
    | some h, some l => UInt8.ofNat (16 * h + l) :: decode rest
    | _, _ => '%'.toNat.toUInt8 :: decode (high :: low :: rest)
  | c :: rest => String.utf8EncodeChar c ++ decode rest

/-- Encoding goes character by character. -/
@[simp] theorem encode_append (set : EscapeSet) (cs ds : List Char) :
    encode set (cs ++ ds) = encode set cs ++ encode set ds := by
  simp [encode]

end Percent

end DataQuality
