import DataQuality.Text.CharClass
import DataQuality.Text.Hex
import DataQuality.Text.Read

/-!
# Modes of reading regular expressions

Two flags change how a regular expression is read. When it is spaced, white space and comments
between its signs do not count. Without Unicode it is about bytes, so it may not reach beyond ASCII
where it means bytes that are no text.
-/

namespace DataQuality.Pattern

open Text (Read Left)

/-- How a regular expression is read. -/
structure Mode where
  unicode : Bool := true
  spaced : Bool := false
  deriving DecidableEq, Repr

/-- Leaves out white space and comments in front; a comment reaches to the end of its line. -/
def skipSpaced (inComment : Bool) : List Char → List Char
  | [] => []
  | c :: rest =>
    if inComment then skipSpaced (c != '\n') rest
    else if Text.isSpace c then skipSpaced false rest
    else if c = '#' then skipSpaced true rest
    else c :: rest

theorem length_skipSpaced_le (inComment : Bool) (cs : List Char) :
    (skipSpaced inComment cs).length ≤ cs.length := by
  induction cs generalizing inComment with
  | nil => exact Text.length_le_self _
  | cons c rest ih =>
    simp only [skipSpaced]
    split
    · exact Nat.le_succ_of_le (ih _)
    · split
      · exact Nat.le_succ_of_le (ih _)
      · split
        · exact Nat.le_succ_of_le (ih _)
        · exact Text.length_le_self _

namespace Mode

/-- Leaves out what does not count in front. -/
def skip (m : Mode) (cs : List Char) : List Char := if m.spaced then skipSpaced false cs else cs

theorem length_skip_le (m : Mode) (cs : List Char) : (m.skip cs).length ≤ cs.length := by
  unfold skip
  split
  · exact length_skipSpaced_le false cs
  · exact Text.length_le_self cs

theorem length_lt_of_skip {m : Mode} {cs rest : List Char} {c : Char} (h : m.skip cs = c :: rest) :
    rest.length < cs.length := by
  have := m.length_skip_le cs
  rw [h] at this
  exact this

/-- Whether inline flags set a flag, clear it, or leave it alone. -/
def flagOf (letter : Char) (text : List Char) : Option Bool :=
  if text.contains letter then some (!((text.dropWhile (· != '-')).contains letter)) else none

/-- The mode behind inline flags. -/
def withFlags (m : Mode) (text : List Char) : Mode where
  unicode := (flagOf 'u' text).getD m.unicode
  spaced := (flagOf 'x' text).getD m.spaced

end Mode

/-- Reads up to the next closing brace. -/
def readToBrace? (m : Mode) (cs : List Char) : Option (Read (List Char) cs) :=
  match h : m.skip cs with
  | [] => none
  | c :: rest =>
    have := Mode.length_lt_of_skip h
    if c = '\x7d' then some ⟨[], rest, this⟩
    else (readToBrace? m rest).map fun r ↦ (r.map (c :: ·)).within this
termination_by cs.length
decreasing_by all_goals omega

/-- Reads what is between a brace in front and the next closing brace. -/
def readBraced? (m : Mode) (cs : List Char) : Option (Read (List Char) cs) :=
  match cs with
  | '\x7b' :: rest => (readToBrace? m rest).map .behind
  | _ => none

/-- Reads so many digits. -/
def readDigits? (m : Mode) : (count : Nat) → (cs : List Char) → Option (List Char × Left cs)
  | 0, cs => some ([], .all cs)
  | count + 1, cs =>
    match h : m.skip cs with
    | [] => none
    | c :: rest =>
      (readDigits? m count rest).map fun (digits, left) ↦
        (c :: digits, ⟨left.val, Nat.le_trans left.property
          (Nat.le_of_lt (Mode.length_lt_of_skip h))⟩)

/-- The character whose code has hexadecimal digits. -/
def hexChar? (digits : List Char) : Option Char :=
  (Text.naturalIn? 16 digits).bind fun code ↦
    if code.isValidChar then some (Char.ofNat code) else none

end DataQuality.Pattern
