import DataQuality.Text.CharClass

/-!
# Operations on text

Trimming, splitting, joining and replacing, each defined on the list of characters.
-/

namespace DataQuality.Text

/-- The characters without the white space at either end. -/
def trimChars (cs : List Char) : List Char :=
  ((cs.dropWhile isSpace).reverse.dropWhile isSpace).reverse

/-- The text without the white space at either end. -/
def trim (s : String) : String := String.ofList (trimChars s.toList)

/-- Whether the text is empty or white space only. -/
def isBlank (s : String) : Bool := s.toList.all isSpace

/-- Splits at the first occurrence of `c`, which belongs to neither part. -/
def cut (c : Char) : List Char → Option (List Char × List Char)
  | [] => none
  | d :: rest =>
    if d = c then some ([], rest) else (cut c rest).map fun p ↦ (d :: p.1, p.2)

/-- A cut removes the character that it is made at, and nothing else. -/
theorem cut_eq_some {c : Char} {cs before after : List Char} (h : cut c cs = some (before, after)) :
    cs = before ++ c :: after := by
  induction cs generalizing before with
  | nil => simp [cut] at h
  | cons d rest ih =>
    simp only [cut] at h
    split at h
    · next hd =>
      simp only [Option.some.injEq, Prod.mk.injEq] at h
      obtain ⟨rfl, rfl⟩ := h
      simp [hd]
    · simp only [Option.map_eq_some_iff, Prod.mk.injEq] at h
      obtain ⟨⟨b, a⟩, hb, rfl, rfl⟩ := h
      simp [← ih hb]

/-- What follows a cut is shorter than what was cut. -/
theorem length_lt_of_cut {c : Char} {cs before after : List Char}
    (h : cut c cs = some (before, after)) : after.length < cs.length := by
  rw [cut_eq_some h]
  simp only [List.length_append, List.length_cons]
  omega

/-- Splits at the last occurrence of `c`, which belongs to neither part. -/
def cutLast (c : Char) (cs : List Char) : Option (List Char × List Char) :=
  (cut c cs.reverse).map fun p ↦ (p.2.reverse, p.1.reverse)

/-- The parts between the occurrences of `c`; there is always at least one. -/
def splitAll (c : Char) : List Char → List (List Char)
  | [] => [[]]
  | d :: rest =>
    if d = c then [] :: splitAll c rest
    else match splitAll c rest with
      | [] => [[d]]
      | part :: parts => (d :: part) :: parts

/-- Puts `by_` in the place of every occurrence of `c`. -/
def substitute (c : Char) (by_ : List Char) (s : String) : String :=
  String.ofList (s.toList.flatMap fun d ↦ if d = c then by_ else [d])

/-- Whether `part` occurs somewhere in the characters. -/
def occursIn (part : List Char) : List Char → Bool
  | [] => part.isEmpty
  | c :: rest => part.isPrefixOf (c :: rest) || occursIn part rest

/-- Whether `part` occurs somewhere in `whole`. -/
def contains (whole part : String) : Bool := occursIn part.toList whole.toList

/-- Whether `whole` begins with `start`. -/
def startsWith (whole start : String) : Bool := start.toList.isPrefixOf whole.toList

/-- Whether `whole` finishes with `tail`. -/
def endsWith (whole tail : String) : Bool := tail.toList.reverse.isPrefixOf whole.toList.reverse

/-- The parts with `separator` between neighbours. -/
def join (separator : String) : List String → String
  | [] => ""
  | [part] => part
  | part :: parts => part ++ separator ++ join separator parts

/-- `"1, 2"` for `["1", "2"]`. -/
def commaSeparated (parts : List String) : String := join ", " parts

end DataQuality.Text
