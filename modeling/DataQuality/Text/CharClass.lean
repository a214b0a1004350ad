import DataQuality.Text.Alphabetic
import DataQuality.Text.Numeric
import DataQuality.Text.Cased

/-!
# Character classes

Membership in the classes that expressions, names and literals are read by: white space, letters,
numeric characters, and the two classes that the lowercase sigma depends on.
-/

namespace DataQuality.Text

/-- Whether one of the closed ranges holds the code point. -/
def inRanges (ranges : List (Nat × Nat)) (code : Nat) : Bool :=
  ranges.any fun r ↦ r.1 ≤ code && code ≤ r.2

/-- Closed ranges of white-space code points, ascending and apart. -/
def spaceRanges : List (Nat × Nat) :=
  [(0x09, 0x0D), (0x20, 0x20), (0x85, 0x85), (0xA0, 0xA0), (0x1680, 0x1680), (0x2000, 0x200A),
   (0x2028, 0x2029), (0x202F, 0x202F), (0x205F, 0x205F), (0x3000, 0x3000)]

/-- White space in the Unicode sense. -/
def isSpace (c : Char) : Bool := inRanges spaceRanges c.toNat

/-- A letter, or another character with the property `Alphabetic`. -/
def isLetter (c : Char) : Bool := inRanges alphabeticRanges c.toNat

/-- A digit or other numeric character of any script. -/
def isNumeric (c : Char) : Bool := inRanges numericRanges c.toNat

/-- A letter or a numeric character. -/
def isLetterOrNumeric (c : Char) : Bool := isLetter c || isNumeric c

/-- An ASCII decimal digit. -/
def isDigit (c : Char) : Bool := '0' ≤ c && c ≤ '9'

/-- A character that has, or is a form of, an upper or lower case. -/
def isCased (c : Char) : Bool := inRanges casedRanges c.toNat

/-- A character that is skipped when looking for a cased neighbour. -/
def isCaseIgnorable (c : Char) : Bool := inRanges caseIgnorableRanges c.toNat

/-- Every character that the core library calls white space is white space here. -/
theorem isSpace_of_isWhitespace {c : Char} (h : c.isWhitespace = true) : isSpace c = true := by
  simp only [Char.isWhitespace, Bool.or_eq_true, decide_eq_true_eq] at h
  rcases h with ((h | h) | h) | h <;> subst h <;> decide

/-- The white-space table holds 25 characters. -/
theorem spaceRanges_count : spaceRanges.foldl (fun n r ↦ n + (r.2 + 1 - r.1)) 0 = 25 := by decide

end DataQuality.Text
