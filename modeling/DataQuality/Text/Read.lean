/-!
# Results of readers

A reader takes characters from the front of a list. What it returns says how much is left, and
that this is less than there was, so that reading again and again comes to an end.
-/

namespace DataQuality.Text

/-- What a reader got, and what it left of the characters given to it. -/
structure Read (α : Type) (cs : List Char) where
  value : α
  rest : List Char
  shorter : rest.length < cs.length

/-- The same result, read from a longer list of characters. -/
def Read.widen {α : Type} {cs ds : List Char} (r : Read α cs) (h : cs.length ≤ ds.length) :
    Read α ds :=
  ⟨r.value, r.rest, Nat.lt_of_lt_of_le r.shorter h⟩

/-- Another value for the same characters. -/
def Read.map {α β : Type} {cs : List Char} (f : α → β) (r : Read α cs) : Read β cs :=
  ⟨f r.value, r.rest, r.shorter⟩

/-- The first character alone, read as a value. -/
def Read.first {α : Type} {c : Char} {rest : List Char} (value : α) : Read α (c :: rest) :=
  ⟨value, rest, Nat.lt_succ_self _⟩

/-- The same result, read behind one more character. -/
def Read.behind {α : Type} {c : Char} {rest : List Char} (r : Read α rest) : Read α (c :: rest) :=
  r.widen (Nat.le_succ _)

/-- What a second reader got behind a first one, as read from where the first one began. -/
def Read.before {α β : Type} {cs : List Char} (r : Read α cs) (s : Read β r.rest) : Read β cs :=
  s.widen (Nat.le_of_lt r.shorter)

theorem length_lt_cons (c : Char) (rest : List Char) : rest.length < (c :: rest).length :=
  Nat.lt_succ_self _

theorem length_le_self (cs : List Char) : cs.length ≤ cs.length := Nat.le_refl _

/-- What is left of characters of which some may have been read. -/
abbrev Left (cs : List Char) := { rest : List Char // rest.length ≤ cs.length }

/-- All characters: none was read. -/
def Left.all (cs : List Char) : Left cs := ⟨cs, length_le_self cs⟩

/-- What is left of characters behind the first one. -/
def Left.behind {c : Char} {rest : List Char} (l : Left rest) : Left (c :: rest) :=
  ⟨l.val, Nat.le_succ_of_le l.property⟩

/-- A value for the characters in front of the rest of more of them. -/
def Left.within {α : Type} {cs ds : List Char} (l : Left ds) (h : ds.length < cs.length)
    (value : α) : Read α cs :=
  ⟨value, l.val, Nat.lt_of_le_of_lt l.property h⟩

/-- The same result, read from the end of a list of characters. -/
def Read.within {α : Type} {cs ds : List Char} (r : Read α ds) (h : ds.length < cs.length) :
    Read α cs :=
  r.widen (Nat.le_of_lt h)

/-- What a reader left. -/
def Read.left {α : Type} {cs : List Char} (r : Read α cs) : Left cs :=
  ⟨r.rest, Nat.le_of_lt r.shorter⟩

theorem length_lt_of_dropWhile {p : Char → Bool} {c : Char} {cs rest : List Char}
    (h : cs.dropWhile p = c :: rest) : rest.length < cs.length := by
  have hle : (cs.dropWhile p).length ≤ cs.length := (List.dropWhile_sublist p).length_le
  simp only [h, List.length_cons] at hle
  omega

theorem length_dropWhile_lt (p : Char → Bool) (c : Char) (rest : List Char) :
    (rest.dropWhile p).length < (c :: rest).length :=
  Nat.lt_succ_of_le (List.dropWhile_sublist p).length_le

/-- Reads one sign, blanks in front of it left out. -/
def readSign? (isBlank : Char → Bool) (sign : Char) (cs : List Char) : Option (Read Unit cs) :=
  match h : cs.dropWhile isBlank with
  | c :: rest => if c = sign then some ⟨(), rest, length_lt_of_dropWhile h⟩ else none
  | [] => none

end DataQuality.Text
