import DataQuality.Json.Place
import DataQuality.Text.Hex
import DataQuality.Text.Read

/-!
# Texts in JSON

A text stands in quotes; control characters must be escaped, and an escaped surrogate needs its
partner. Each reader returns what it read with the characters it left over, or where and why it
stopped.
-/

namespace DataQuality.Json

open Text (Read)

/-- The character of an escape that consists of one letter. -/
def shortEscape? (c : Char) : Option Char :=
  [('"', '"'), ('\\', '\\'), ('/', '/'), ('b', '\x08'), ('f', '\x0c'), ('n', '\n'), ('r', '\r'),
    ('t', '\t')].lookup c

/-- The fault of a text that stops within quotes. -/
def unclosedText : Fault Place := fault "EOF while parsing a string" (.before [])

/-- The fault of a surrogate without its partner. -/
def loneSurrogate (rest : List Char) : Fault Place :=
  fault "lone leading surrogate in hex escape" (.before rest)

/-- Whether a code unit is the first half of a surrogate pair. -/
def isHighSurrogate (unit : Nat) : Bool := 0xD800 ≤ unit && unit < 0xDC00

/-- Whether a code unit is the second half of a surrogate pair. -/
def isLowSurrogate (unit : Nat) : Bool := 0xDC00 ≤ unit && unit < 0xE000

/-- Reads the four digits of an escaped code unit; they take four bytes whatever they are. -/
def readUnit (cs : List Char) : Except (Fault Place) (Read Nat cs) :=
  match cs with
  | a :: b :: c :: d :: rest =>
    match Text.naturalIn? 16 [a, b, c, d] with
    | some unit => .ok ⟨unit, rest, by simp only [List.length_cons]; omega⟩
    | none => .error (fault "invalid escape" ⟨cs, 4⟩)
  | cs =>
    if Place.byteCount cs < 4 then .error unclosedText
    else .error (fault "invalid escape" ⟨cs, 4⟩)

/-- Reads one expected sign of the escape of a second half. -/
def readSecondSign (sign : Char) (cs : List Char) : Except (Fault Place) (Read Unit cs) :=
  match cs with
  | [] => .error unclosedText
  | c :: rest =>
    if c = sign then .ok (.first ())
    else .error (fault "unexpected end of hex escape" (.behind (c :: rest)))

/-- Reads the second half of a surrogate pair; the character of both is the result. -/
def readSecondHalf (high : Nat) (cs : List Char) : Except (Fault Place) (Read Char cs) :=
  (readSecondSign '\\' cs).bind fun slash ↦
    (readSecondSign 'u' slash.rest).bind fun mark ↦
      (readUnit mark.rest).bind fun low ↦
        if isLowSurrogate low.value then
          .ok (slash.before (mark.before (low.map fun unit ↦
            Char.ofNat (0x10000 + (high - 0xD800) * 0x400 + (unit - 0xDC00)))))
        else .error (loneSurrogate low.rest)

/-- Reads the character of an escaped code unit or surrogate pair. -/
def readCode (cs : List Char) : Except (Fault Place) (Read Char cs) :=
  (readUnit cs).bind fun unit ↦
    if isLowSurrogate unit.value then .error (loneSurrogate unit.rest)
    else if isHighSurrogate unit.value then
      (readSecondHalf unit.value unit.rest).map unit.before
    else .ok (unit.map Char.ofNat)

/-- Reads an escape behind its backslash. -/
def readEscape (cs : List Char) : Except (Fault Place) (Read Char cs) :=
  match cs with
  | [] => .error unclosedText
  | 'u' :: rest => (readCode rest).map Read.behind
  | c :: rest =>
    match shortEscape? c with
    | some d => .ok (.first d)
    | none => .error (fault "invalid escape" (.behind (c :: rest)))

/-- Reads one character of a text in quotes. -/
def readChar (cs : List Char) : Except (Fault Place) (Read Char cs) :=
  match cs with
  | [] => .error unclosedText
  | '\\' :: rest => (readEscape rest).map Read.behind
  | c :: rest =>
    if c.toNat < 0x20 then
      .error (fault "control character (\\u0000-\\u001F) found while parsing a string"
        (.behind (c :: rest)))
    else .ok (.first c)

/-- Reads a text behind its opening quote. -/
def readQuoted (cs : List Char) : Except (Fault Place) (Read (List Char) cs) :=
  match cs with
  | '"' :: _ => .ok (.first [])
  | cs =>
    (readChar cs).bind fun c ↦
      have := c.shorter
      (readQuoted c.rest).map fun r ↦ c.before (r.map (c.value :: ·))
termination_by cs.length

end DataQuality.Json
