import DataQuality.Number.Text

/-!
# Labels beyond ASCII

A label of a host's name is sent as ASCII: its ASCII characters first, then numbers that say which
other characters come in between and where. The characters are taken in the order of their codes,
and each number is the distance from the one before, written in digits whose weights adapt.
-/

namespace DataQuality.Punycode

/-- The number of digits. -/
def base : Nat := 36

/-- A digit: letters first, then the decimal digits. -/
def digit (n : Nat) : Char :=
  if n < 26 then Char.ofNat ('a'.toNat + n) else Char.ofNat ('0'.toNat + (n - 26))

/-- The least digit after which a number goes on, at the position with weight `k`. -/
def threshold (bias k : Nat) : Nat := Nat.max 1 (Nat.min 26 (k - bias))

theorem threshold_pos (bias k : Nat) : 1 ≤ threshold bias k := Nat.le_max_left ..

/-- The digits of a number from the position with weight `k` on. -/
def number (bias k q : Nat) : List Char :=
  let t := threshold bias k
  if q < t then [digit q]
  else digit (t + (q - t) % (base - t)) :: number bias (k + base) ((q - t) / (base - t))
termination_by q
decreasing_by
  have ht := threshold_pos bias k
  have := Nat.div_le_self (q - threshold bias k) (base - threshold bias k)
  omega

/-- How the weights of a large distance grow. -/
def scale (delta k : Nat) : Nat :=
  if 455 < delta then scale (delta / 35) (k + base) else k + 36 * delta / (delta + 38)
termination_by delta
decreasing_by omega

/-- The bias behind a distance; `count` characters have been placed so far. -/
def adapt (first : Bool) (delta count : Nat) : Nat :=
  let halved := delta / (if first then 700 else 2)
  scale (halved + halved / count) 0

/-- Where writing stands: the distance counted since the last number, the bias, and how many
characters have been placed. -/
structure Progress where
  delta : Nat
  bias : Nat
  placed : Nat
  written : List Char

namespace Progress

/-- Passes one character of the label while looking for those with a code. -/
def pass (basic code : Nat) (p : Progress) (c : Char) : Progress :=
  if c.toNat < code then { p with delta := p.delta + 1 }
  else if c.toNat = code then
    { delta := 0
      bias := adapt (p.placed == basic) p.delta (p.placed + 1)
      placed := p.placed + 1
      written := p.written ++ number p.bias base p.delta }
  else p

/-- Places all characters of a code; `from_` is the least code that has not been looked for. -/
def place (label : List Char) (basic from_ code : Nat) (p : Progress) : Progress :=
  label.foldl (pass basic code) { p with delta := p.delta + (code - from_) * (p.placed + 1) }

/-- Places the characters of codes in ascending order. -/
def placeAll (label : List Char) (basic from_ : Nat) (p : Progress) : List Nat → List Char
  | [] => p.written
  | code :: rest =>
    let p := place label basic from_ code p
    placeAll label basic (code + 1) { p with delta := p.delta + 1 } rest

end Progress

/-- A label in ASCII, without the mark that tells it from others. -/
def encode (label : List Char) : List Char :=
  let basic := label.filter (·.toNat < 0x80)
  let codes := ((label.map Char.toNat).filter (0x80 ≤ ·)).eraseDups.mergeSort
  let start := if basic.isEmpty then [] else basic ++ ['-']
  Progress.placeAll label basic.length 0x80 ⟨0, 72, basic.length, start⟩ codes

end DataQuality.Punycode
