import DataQuality.Text.CaseTable
import DataQuality.Text.CharClass

/-!
# Letter case

Full case conversion of texts: a character may become several, and a capital sigma that ends a
word becomes the final lowercase sigma. Comparisons that fold ASCII letters only stand apart.
-/

namespace DataQuality.Text

/-- The other case of a character by its table of expansions and shifts. -/
def mapCase (expansions : List (Nat × List Nat)) (shifts : List CaseShift) (c : Char) :
    List Char :=
  match expansions.lookup c.toNat with
  | some codes => codes.map Char.ofNat
  | none =>
    match shifts.find? (·.covers c.toNat) with
    | some s => [Char.ofNat (c.toNat + s.delta).toNat]
    | none => [c]

/-- The lowercase form of one character, whatever its neighbours. -/
def lowerChar (c : Char) : List Char := mapCase lowerExpansions lowerShifts c

/-- The uppercase form of one character. -/
def upperChar (c : Char) : List Char := mapCase upperExpansions upperShifts c

/-- The capital sigma. -/
def capitalSigma : Char := 'Σ'

/-- Whether a cased character comes first, once case-ignorable ones are skipped. -/
def reachesCased (cs : List Char) : Bool :=
  match cs.dropWhile isCaseIgnorable with
  | [] => false
  | c :: _ => isCased c

/-- Lowercases `rest`; `before` holds the characters already passed, nearest first. -/
def lowerFrom (before : List Char) : List Char → List Char
  | [] => []
  | c :: rest =>
    let lowered :=
      if c = capitalSigma then
        [if reachesCased before && !reachesCased rest then 'ς' else 'σ']
      else lowerChar c
    lowered ++ lowerFrom (c :: before) rest

/-- The characters in lower case. -/
def lowerChars (cs : List Char) : List Char := lowerFrom [] cs

/-- The text in lower case. -/
def lower (s : String) : String := String.ofList (lowerChars s.toList)

/-- The text in upper case. -/
def upper (s : String) : String := String.ofList (s.toList.flatMap upperChar)

/-- An ASCII capital letter becomes small, any other character stays. -/
def foldAscii (c : Char) : Char :=
  if 'A' ≤ c && c ≤ 'Z' then Char.ofNat (c.toNat + 32) else c

/-- Whether two texts agree up to the case of ASCII letters. -/
def eqFoldingAscii (a b : String) : Bool := a.toList.map foldAscii == b.toList.map foldAscii

/-- Folding is an equivalence: it is symmetric. -/
theorem eqFoldingAscii_comm (a b : String) : eqFoldingAscii a b = eqFoldingAscii b a := by
  simp only [eqFoldingAscii]
  exact Bool.beq_comm

/-- A text agrees with itself. -/
@[simp] theorem eqFoldingAscii_self (a : String) : eqFoldingAscii a a = true := by
  simp [eqFoldingAscii]

end DataQuality.Text
