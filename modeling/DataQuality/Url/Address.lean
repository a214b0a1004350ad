import DataQuality.Number.Text
import DataQuality.Text.Basic
import DataQuality.Url.Percent

/-!
# Addresses in brackets

The eight 16-bit pieces of an address that stands in brackets in place of the name of a host, and
its shortest text: the first of the longest runs of zeros is left out.
-/

namespace DataQuality

namespace Address

/-- The value of a piece: one to four hexadecimal digits. -/
def piece? (cs : List Char) : Option Nat :=
  if cs.isEmpty || 4 < cs.length then none
  else cs.foldl (fun n c ↦ n.bind fun n ↦ (Text.hexValue? c).map (16 * n + ·)) (some 0)

/-- The value of a byte in decimal digits, without zeros in front. -/
def byte? (cs : List Char) : Option Nat :=
  if cs.isEmpty || !cs.all Text.isDigit || (cs.length ≠ 1 && cs.head? == some '0') then none
  else
    let n := Number.digitsValue cs
    if n ≤ 255 then some n else none

/-- The two pieces written as four bytes with points between them. -/
def dotted? (cs : List Char) : Option (List Nat) :=
  match (Text.splitAll '.' cs).mapM byte? with
  | some [a, b, c, d] => some [256 * a + b, 256 * c + d]
  | _ => none

/-- The pieces between colons; the last two may be written as four bytes if `dotted` says so. -/
def pieces? (dotted : Bool) (parts : List (List Char)) : Option (List Nat) :=
  match parts with
  | [] => some []
  | [last] =>
    match piece? last with
    | some p => some [p]
    | none => if dotted then dotted? last else none
  | part :: rest => do
    let p ← piece? part
    let ps ← pieces? dotted rest
    some (p :: ps)

/-- The pieces of a text between colons; nothing has none. -/
def group? (dotted : Bool) (cs : List Char) : Option (List Nat) :=
  if cs.isEmpty then some [] else pieces? dotted (Text.splitAll ':' cs)

/-- Splits at the first pair of colons. -/
def cutDouble : List Char → Option (List Char × List Char)
  | [] => none
  | ':' :: ':' :: rest => some ([], rest)
  | c :: rest => (cutDouble rest).map fun (before, after) ↦ (c :: before, after)

/-- The eight pieces of an address. A pair of colons stands for one zero or more. -/
def parse? (cs : List Char) : Option (List Nat) :=
  match cutDouble cs with
  | some (before, after) => do
    let left ← group? false before
    let right ← group? true after
    if left.length + right.length ≤ 7 then
      some (left ++ List.replicate (8 - left.length - right.length) 0 ++ right)
    else none
  | none => do
    let ps ← group? true cs
    if ps.length = 8 then some ps else none

/-- Whether a text is an address, in bytes or in pieces. -/
def isAddress (cs : List Char) : Bool := (dotted? cs).isSome || (parse? cs).isSome

/-- The number of zeros from a position on. -/
def zerosAt (pieces : List Nat) (i : Nat) : Nat := ((pieces.drop i).takeWhile (· == 0)).length

/-- The position and length of the first of the longest runs of zeros. -/
def longestZeros (pieces : List Nat) : Nat × Nat :=
  (List.range pieces.length).foldl (fun best i ↦
    if best.2 < zerosAt pieces i then (i, zerosAt pieces i) else best) (0, 0)

/-- Pieces with colons between them. -/
def piecesText (pieces : List Nat) : List Char :=
  (Text.join ":" (pieces.map fun p ↦ String.ofList (Nat.toDigits 16 p))).toList

/-- The shortest text of an address. -/
def render (pieces : List Nat) : List Char :=
  let (start, count) := longestZeros pieces
  if count < 2 then piecesText pieces
  else piecesText (pieces.take start) ++ [':', ':'] ++ piecesText (pieces.drop (start + count))

end Address

end DataQuality
