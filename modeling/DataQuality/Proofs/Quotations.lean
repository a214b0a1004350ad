import Mathlib.Algebra.Order.BigOperators.Group.List
import Mathlib.Algebra.Order.Ring.Nat
import DataQuality.Dialect.Quoting

/-!
# Quotations

How warehouses read what stands in quotes, and that a text or a name which the dialect put in quotes
is read as itself and ends where it was ended. Names with a backslash are the exception: BigQuery
takes the backslash for an escape, and its dialect does not double it.
-/

namespace DataQuality

/-- Between the first part and the others stands a separator. -/
theorem Text.join_cons_cons (separator part other : String) (parts : List String) :
    join separator (part :: other :: parts) =
      part ++ separator ++ join separator (other :: parts) := rfl

/-! ### Reading -/

/-- How what stands in quotes is read: the quotation mark, whether a mark that is doubled stands for
a mark, and whether a backslash takes the next character as it is. -/
structure QuoteRule where
  mark : Char
  doubled : Bool
  backslash : Bool
  deriving DecidableEq, Repr

namespace QuoteRule

/-- Puts a character in front of what was read. -/
def prepend (c : Char) (p : List Char × List Char) : List Char × List Char := (c :: p.1, p.2)

/-- What stands in quotes behind an opening mark, and what follows the closing one. -/
def readInside (r : QuoteRule) : List Char → Option (List Char × List Char)
  | [] => none
  | [c] => if c = r.mark then some ([], []) else none
  | c :: d :: rest =>
    if c = r.mark then
      if r.doubled && d = r.mark then (readInside r rest).map (prepend r.mark)
      else some ([], d :: rest)
    else if c = '\\' && r.backslash then (readInside r rest).map (prepend d)
    else (readInside r (d :: rest)).map (prepend c)

/-- What stands in quotes from the opening mark on, and what follows the closing one. -/
def read (r : QuoteRule) : List Char → Option (List Char × List Char)
  | [] => none
  | c :: rest => if c = r.mark then readInside r rest else none

variable {r : QuoteRule} {rest : List Char}

/-- A mark that is not doubled ends what it closes. -/
theorem readInside_mark (h : r.doubled = true → rest.head? ≠ some r.mark) :
    r.readInside (r.mark :: rest) = some ([], rest) := by
  cases rest with
  | nil => simp [readInside]
  | cons d rest =>
    have hsingle : ¬(r.doubled && decide (d = r.mark)) = true := by simpa using h
    rw [readInside, if_pos rfl, if_neg hsingle]

theorem readInside_doubled (h : r.doubled = true) :
    r.readInside (r.mark :: r.mark :: rest) = (r.readInside rest).map (prepend r.mark) := by
  simp [readInside, h]

theorem readInside_backslash (hmark : r.mark ≠ '\\') (h : r.backslash = true) (d : Char) :
    r.readInside ('\\' :: d :: rest) = (r.readInside rest).map (prepend d) := by
  simp [readInside, h, hmark.symm]

theorem readInside_plain {c : Char} (hmark : c ≠ r.mark) (h : c = '\\' → r.backslash = false) :
    r.readInside (c :: rest) = (r.readInside rest).map (prepend c) := by
  cases rest with
  | nil => simp [readInside, hmark]
  | cons d rest =>
    have hliteral : ¬(decide (c = '\\') && r.backslash) = true := by simpa using h
    rw [readInside, if_neg hmark, if_neg hliteral]

/-- How many characters it takes at least to write a character so that it is read inside quotes. -/
def width (r : QuoteRule) (c : Char) : Nat :=
  if c = r.mark then 2 else if c = '\\' && r.backslash then 2 else 1

/-- How many characters it takes at least to write a text so that it is read inside quotes. -/
def cost (r : QuoteRule) (cs : List Char) : Nat := (cs.map r.width).sum

@[simp] theorem cost_cons (r : QuoteRule) (c : Char) (cs : List Char) :
    r.cost (c :: cs) = r.width c + r.cost cs := by simp [cost]

theorem width_le_two (r : QuoteRule) (c : Char) : r.width c ≤ 2 := by
  unfold width
  split
  · omega
  · split <;> omega

/-- What is read was written in at least as many characters as it takes, and closed. -/
theorem cost_add_length_lt {cs name : List Char} (h : r.readInside cs = some (name, rest)) :
    r.cost name + rest.length < cs.length := by
  fun_induction readInside r cs generalizing name rest with
  | case1 => cases h
  | case2 =>
    cases h
    simp [cost]
  | case3 => cases h
  | case4 _ _ _ ih =>
    obtain ⟨⟨inner, after⟩, hinner, hp⟩ := Option.map_eq_some_iff.mp h
    cases hp
    have := ih hinner
    have := r.width_le_two r.mark
    simp only [cost_cons, List.length_cons]
    omega
  | case5 =>
    cases h
    simp [cost]
  | case6 _ d _ _ _ ih =>
    obtain ⟨⟨inner, after⟩, hinner, hp⟩ := Option.map_eq_some_iff.mp h
    cases hp
    have := ih hinner
    have := r.width_le_two d
    simp only [cost_cons, List.length_cons]
    omega
  | case7 c _ _ hmark hliteral ih =>
    obtain ⟨⟨inner, after⟩, hinner, hp⟩ := Option.map_eq_some_iff.mp h
    cases hp
    have := ih hinner
    have hwidth : r.width c = 1 := by rw [width, if_neg hmark, if_neg hliteral]
    simp only [cost_cons, List.length_cons] at this ⊢
    omega

/-- What is read from its opening mark on was written in at least as many characters as it takes,
and the two marks. -/
theorem cost_add_two_add_length_le {cs name : List Char} (h : r.read cs = some (name, rest)) :
    r.cost name + 2 + rest.length ≤ cs.length := by
  cases cs with
  | nil => cases h
  | cons c inside =>
    rw [read] at h
    split at h
    · have := cost_add_length_lt h
      simp only [List.length_cons]
      omega
    · cases h

/-- Names in quotes with dots between them, and what follows the last one. -/
def readNames (r : QuoteRule) (cs : List Char) : Option (List (List Char) × List Char) :=
  match _h : r.read cs with
  | none => none
  | some (name, '.' :: rest) => (readNames r rest).map fun p ↦ (name :: p.1, p.2)
  | some (name, rest) => some ([name], rest)
termination_by cs.length
decreasing_by
  have := cost_add_two_add_length_le _h
  simp only [List.length_cons] at this
  omega

theorem readNames_last {cs name : List Char} (h : r.read cs = some (name, rest))
    (hrest : rest.head? ≠ some '.') : r.readNames cs = some ([name], rest) := by
  rw [readNames]
  split
  · next hnone => simp [h] at hnone
  · next hmore =>
    cases h.symm.trans hmore
    simp at hrest
  · next hlast =>
    cases h.symm.trans hlast
    rfl

theorem readNames_more {cs name : List Char} (h : r.read cs = some (name, '.' :: rest)) :
    r.readNames cs = (r.readNames rest).map fun p ↦ (name :: p.1, p.2) := by
  rw [readNames]
  split
  · next hnone => simp [h] at hnone
  · next hmore =>
    cases h.symm.trans hmore
    rfl
  · next hother hlast =>
    cases h.symm.trans hlast
    exact absurd rfl (hother _)

/-- Names that are read were written in at least as many characters as they take, with two marks
each and the dots. -/
theorem cost_readNames_le {cs : List Char} {names : List (List Char)}
    (h : r.readNames cs = some (names, rest)) :
    (names.map fun name ↦ r.cost name + 3).sum + rest.length ≤ cs.length + 1 := by
  fun_induction readNames r cs generalizing names rest with
  | case1 => cases h
  | case2 cs name behind hname ih =>
    obtain ⟨⟨others, after⟩, hothers, hp⟩ := Option.map_eq_some_iff.mp h
    cases hp
    have := ih hothers
    have := cost_add_two_add_length_le hname
    simp only [List.map_cons, List.sum_cons, List.length_cons] at this ⊢
    omega
  | case3 cs name behind hdot hname =>
    cases h
    have := cost_add_two_add_length_le hname
    simp only [List.map_cons, List.map_nil, List.sum_cons, List.sum_nil]
    omega

end QuoteRule

/-! ### Styles -/

/-- Whether what a style puts in front of a mark makes a rule take the mark for a character. -/
structure QuoteStyle.Fits (q : QuoteStyle) (r : QuoteRule) : Prop where
  mark : q.mark = r.mark
  mark_ne : r.mark ≠ '\\'
  escape : (q.escape = r.mark ∧ r.doubled = true) ∨ (q.escape = '\\' ∧ r.backslash = true)
  doubles : q.doublesBackslash = true → r.backslash = true

/-- Whether a style writes a text so that a rule reads its backslashes as they are: either there are
none, or the rule gives them no meaning, or the style doubles them. -/
def QuoteStyle.KeepsBackslashes (q : QuoteStyle) (r : QuoteRule) (cs : List Char) : Prop :=
  '\\' ∈ cs → r.backslash = true → q.doublesBackslash = true

namespace QuoteStyle.Fits

variable {q : QuoteStyle} {r : QuoteRule} {cs t : List Char}

open QuoteRule

/-- A character that a style wrote is read as itself. -/
theorem readInside_escapeChar (h : q.Fits r) {c : Char} (hc : q.KeepsBackslashes r [c])
    (rest : List Char) :
    r.readInside (q.escapeChar c ++ rest) = (r.readInside rest).map (prepend c) := by
  unfold escapeChar
  by_cases hmark : c = q.mark
  · rw [if_pos hmark, hmark, h.mark]
    rcases h.escape with ⟨hescape, hdoubled⟩ | ⟨hescape, hbackslash⟩
    · rw [hescape]
      exact readInside_doubled hdoubled
    · rw [hescape]
      exact readInside_backslash h.mark_ne hbackslash _
  · rw [if_neg hmark]
    by_cases hdoubles : c = '\\' ∧ q.doublesBackslash = true
    · rw [if_pos hdoubles, hdoubles.1]
      exact readInside_backslash h.mark_ne (h.doubles hdoubles.2) _
    · rw [if_neg hdoubles]
      apply readInside_plain
      · rwa [← h.mark]
      · intro hslash
        by_contra hbackslash
        exact hdoubles ⟨hslash, hc (by simp [hslash]) (by simpa using hbackslash)⟩

/-- Reading a text that a style wrote stops at its closing mark. -/
theorem readInside_flatMap (h : q.Fits r) (hcs : q.KeepsBackslashes r cs)
    (ht : r.doubled = true → t.head? ≠ some r.mark) :
    r.readInside (cs.flatMap q.escapeChar ++ r.mark :: t) = some (cs, t) := by
  induction cs with
  | nil => exact readInside_mark ht
  | cons c cs ih =>
    have hc : q.KeepsBackslashes r [c] := by
      intro hslash
      exact hcs (List.mem_cons.mpr (.inl (List.mem_singleton.mp hslash)))
    rw [List.flatMap_cons, List.append_assoc, h.readInside_escapeChar hc,
      ih fun hslash ↦ hcs (.tail _ hslash)]
    rfl

/-- A style does not spend more characters on a text than it takes. -/
theorem length_escapeChar_le (h : q.Fits r) (c : Char) : (q.escapeChar c).length ≤ r.width c := by
  unfold escapeChar width
  rw [h.mark]
  by_cases hmark : c = r.mark
  · simp [hmark]
  · rw [if_neg hmark, if_neg hmark]
    by_cases hdoubles : c = '\\' ∧ q.doublesBackslash = true
    · simp [hdoubles, h.doubles hdoubles.2]
    · rw [if_neg hdoubles]
      split <;> simp

/-- A style that does not double a backslash spends less on it than it takes. -/
theorem length_escapeChar_lt (h : q.Fits r) (hbackslash : r.backslash = true)
    (hsingle : ¬ q.doublesBackslash = true) : (q.escapeChar '\\').length < r.width '\\' := by
  have hmark : ¬ '\\' = r.mark := h.mark_ne.symm
  simp [escapeChar, width, h.mark, hmark, hbackslash, hsingle]

/-- A style does not spend more characters on a text than it takes. -/
theorem length_flatMap_le (h : q.Fits r) (cs : List Char) :
    (cs.flatMap q.escapeChar).length ≤ r.cost cs := by
  rw [List.length_flatMap]
  exact List.sum_le_sum fun c _ ↦ h.length_escapeChar_le c

/-- A style that loses backslashes of a text spends less on it than it takes. -/
theorem length_flatMap_lt (h : q.Fits r) (hcs : ¬ q.KeepsBackslashes r cs) :
    (cs.flatMap q.escapeChar).length < r.cost cs := by
  simp only [KeepsBackslashes, Classical.not_imp] at hcs
  obtain ⟨hmem, hbackslash, hsingle⟩ := hcs
  rw [List.length_flatMap]
  exact List.sum_lt_sum _ _ (fun c _ ↦ h.length_escapeChar_le c)
    ⟨'\\', hmem, h.length_escapeChar_lt hbackslash hsingle⟩

/-- What a style wrote is read as what it is, up to its closing mark, exactly if the style keeps the
backslashes in it. -/
theorem read_quoteChars_iff (h : q.Fits r) (ht : r.doubled = true → t.head? ≠ some r.mark) :
    r.read (q.quoteChars cs ++ t) = some (cs, t) ↔ q.KeepsBackslashes r cs := by
  have hread : r.read (q.quoteChars cs ++ t) =
      r.readInside (cs.flatMap q.escapeChar ++ r.mark :: t) := by
    simp [quoteChars, QuoteRule.read, h.mark]
  rw [hread]
  constructor
  · intro heq
    by_contra hcs
    have hcost := cost_add_length_lt heq
    have hspent := h.length_flatMap_lt hcs
    simp only [List.length_append, List.length_cons] at hcost
    omega
  · intro hcs
    exact h.readInside_flatMap hcs ht

/-- Names that a style wrote take three characters each beyond those inside the quotes, less one for
the dot that the last one does not need. -/
theorem length_join_quote (q : QuoteStyle) (name : String) (names : List String) :
    (Text.join "." ((name :: names).map q.quote)).toList.length + 1 =
      ((name :: names).map fun n ↦ (n.toList.flatMap q.escapeChar).length + 3).sum := by
  induction names generalizing name with
  | nil => simp [Text.join, quote, quoteChars]
  | cons other names ih =>
    have hothers := ih other
    have hone : (q.quote name).toList.length = (name.toList.flatMap q.escapeChar).length + 2 := by
      simp [quote, quoteChars]
    simp only [List.map_cons, List.sum_cons] at hothers ⊢
    rw [Text.join_cons_cons, String.toList_append, String.toList_append, List.length_append,
      List.length_append, hone]
    simp only [String.reduceToList, List.length_cons, List.length_nil]
    omega

/-- Names that a style wrote with dots between them are read as what they are exactly if the style
keeps the backslashes in all of them. -/
theorem readNames_join_iff (h : q.Fits r) (hdot : r.mark ≠ '.') (name : String)
    (names : List String) (ht : r.doubled = true → t.head? ≠ some r.mark)
    (htdot : t.head? ≠ some '.') :
    r.readNames ((Text.join "." ((name :: names).map q.quote)).toList ++ t) =
        some ((name :: names).map String.toList, t) ↔
      ∀ n ∈ name :: names, q.KeepsBackslashes r n.toList := by
  constructor
  · intro heq
    by_contra hlost
    simp only [not_forall] at hlost
    obtain ⟨lossy, hlossy, hlost⟩ := hlost
    have hcost := cost_readNames_le heq
    have hlength := length_join_quote q name names
    -- What was written is not enough for the name that loses a backslash.
    have hspent : ((name :: names).map fun n ↦ (n.toList.flatMap q.escapeChar).length + 3).sum <
        ((name :: names).map fun n ↦ r.cost n.toList + 3).sum := by
      apply List.sum_lt_sum
      · intro n _
        have := h.length_flatMap_le n.toList
        omega
      · refine ⟨lossy, hlossy, ?_⟩
        have := h.length_flatMap_lt hlost
        omega
    rw [List.map_map, List.length_append] at hcost
    simp only [Function.comp_def] at hcost
    omega
  · intro hkeeps
    induction names generalizing name with
    | nil =>
      have hname := (h.read_quoteChars_iff ht).mpr (hkeeps name (by simp))
      exact QuoteRule.readNames_last (by simpa [Text.join, quote] using hname) htdot
    | cons other names ih =>
      have hrest := ih other fun n hn ↦ hkeeps n (.tail _ hn)
      have hmark : (some '.' : Option Char) ≠ some r.mark := by simpa using hdot.symm
      have hname := (h.read_quoteChars_iff
        (t := '.' :: ((Text.join "." ((other :: names).map q.quote)).toList ++ t))
        fun _ ↦ hmark).mpr (hkeeps name (by simp))
      have htext : (Text.join "." ((name :: other :: names).map q.quote)).toList ++ t =
          q.quoteChars name.toList ++
            '.' :: ((Text.join "." ((other :: names).map q.quote)).toList ++ t) := by
        simp [Text.join_cons_cons, quote]
      rw [htext, QuoteRule.readNames_more hname, hrest]
      rfl

end QuoteStyle.Fits

/-! ### Warehouses -/

/-- Cutting a text at a character neither adds nor loses any other. -/
theorem Text.exists_mem_splitAll_iff {c d : Char} (hne : d ≠ c) (cs : List Char) :
    (∃ part ∈ splitAll c cs, d ∈ part) ↔ d ∈ cs := by
  induction cs with
  | nil => simp [splitAll]
  | cons e rest ih =>
    rw [splitAll, List.mem_cons, ← ih]
    split
    · next he =>
      subst he
      simp [hne]
    · split
      · next hnil => simp [hnil]
      · next part parts hparts =>
        simp [hparts, or_assoc]

namespace Warehouse

/-- How a warehouse reads names in quotes. -/
def identifierRule : Warehouse → QuoteRule
  | .postgreSQL | .sqlite | .snowflake => ⟨'"', true, false⟩
  | .mySQL => ⟨backquote, true, false⟩
  | .bigQuery => ⟨backquote, false, true⟩

/-- How a warehouse reads texts in quotes. -/
def literalRule : Warehouse → QuoteRule
  | .postgreSQL | .sqlite => ⟨'\'', true, false⟩
  | .mySQL | .snowflake => ⟨'\'', true, true⟩
  | .bigQuery => ⟨'\'', false, true⟩

/-- The name that SQL begins with, and what follows. -/
def readName (w : Warehouse) (sql : String) : Option (String × String) :=
  (w.identifierRule.read sql.toList).map fun p ↦ (String.ofList p.1, String.ofList p.2)

/-- The names with dots between them that SQL begins with, and what follows. -/
def readNames (w : Warehouse) (sql : String) : Option (List String × String) :=
  (w.identifierRule.readNames sql.toList).map fun p ↦ (p.1.map String.ofList, String.ofList p.2)

/-- The text literal that SQL begins with, and what follows. -/
def readLiteral (w : Warehouse) (sql : String) : Option (String × String) :=
  (w.literalRule.read sql.toList).map fun p ↦ (String.ofList p.1, String.ofList p.2)

theorem fits_identifierStyle (w : Warehouse) : w.identifierStyle.Fits w.identifierRule := by
  cases w <;> constructor <;> decide

theorem fits_literalStyle (w : Warehouse) : w.literalStyle.Fits w.literalRule := by
  cases w <;> constructor <;> decide

/-- Only BigQuery gives backslashes in names a meaning, and its dialect does not double them. -/
theorem keepsBackslashes_identifierStyle_iff (w : Warehouse) (cs : List Char) :
    w.identifierStyle.KeepsBackslashes w.identifierRule cs ↔ (w = .bigQuery → '\\' ∉ cs) := by
  cases w <;> simp [QuoteStyle.KeepsBackslashes, identifierStyle, identifierRule]

/-- Every dialect doubles the backslashes in texts if the warehouse gives them a meaning. -/
theorem keepsBackslashes_literalStyle (w : Warehouse) (cs : List Char) :
    w.literalStyle.KeepsBackslashes w.literalRule cs := by
  cases w <;> simp [QuoteStyle.KeepsBackslashes, literalStyle, literalRule]

variable {w : Warehouse}

/-- Texts that were read are given by their characters. -/
private theorem map_ofList_eq_some_iff {read : Option (List Char × List Char)}
    {text t : String} :
    read.map (fun p ↦ (String.ofList p.1, String.ofList p.2)) = some (text, t) ↔
      read = some (text.toList, t.toList) := by
  constructor
  · intro h
    obtain ⟨p, hp, hpair⟩ := Option.map_eq_some_iff.mp h
    cases hpair
    simpa using hp
  · intro h
    simp [h]

theorem readName_eq_some_iff {sql name t : String} :
    w.readName sql = some (name, t) ↔
      w.identifierRule.read sql.toList = some (name.toList, t.toList) :=
  map_ofList_eq_some_iff

theorem readLiteral_eq_some_iff {sql text t : String} :
    w.readLiteral sql = some (text, t) ↔
      w.literalRule.read sql.toList = some (text.toList, t.toList) :=
  map_ofList_eq_some_iff

theorem readNames_eq_some_iff {sql t : String} {names : List String} :
    w.readNames sql = some (names, t) ↔
      w.identifierRule.readNames sql.toList = some (names.map String.toList, t.toList) := by
  unfold readNames
  constructor
  · intro h
    obtain ⟨p, hp, hpair⟩ := Option.map_eq_some_iff.mp h
    cases hpair
    simpa [Function.comp_def] using hp
  · intro h
    simp [h, Function.comp_def]

/-- A name that the dialect put in quotes is read as itself. -/
theorem readName_quoteIdentifier_iff {name t : String}
    (ht : t.toList.head? ≠ some w.identifierRule.mark) :
    w.readName (w.quoteIdentifier name ++ t) = some (name, t) ↔
      (w = .bigQuery → '\\' ∉ name.toList) := by
  rw [readName_eq_some_iff, ← keepsBackslashes_identifierStyle_iff,
    ← w.fits_identifierStyle.read_quoteChars_iff fun _ ↦ ht]
  simp [quoteIdentifier, QuoteStyle.quote]

theorem nameParts_ne_nil (table : String) : nameParts table ≠ [] := by
  have hparts : ∀ cs, Text.splitAll '.' cs ≠ [] := by
    intro cs
    cases cs with
    | nil => simp [Text.splitAll]
    | cons c rest =>
      rw [Text.splitAll]
      split
      · simp
      · split <;> simp
  simpa [nameParts] using hparts table.toList

/-- Backslashes stand in the parts of the name of a table if they stand in the name. -/
theorem keepsBackslashes_tablePart_iff (table : String) :
    (∀ part ∈ (nameParts table).map w.tablePart,
        w.identifierStyle.KeepsBackslashes w.identifierRule part.toList) ↔
      (w = .bigQuery → '\\' ∉ table.toList) := by
  simp only [keepsBackslashes_identifierStyle_iff]
  by_cases hw : w = .bigQuery
  · have hcut := Text.exists_mem_splitAll_iff (c := '.') (d := '\\') (by decide) table.toList
    rw [← hcut]
    simp [hw, nameParts, tablePart]
  · simp [hw]

/-- The parts of the name of a table are read as the dialect spells them. -/
theorem readNames_qualifyTable_iff {table t : String}
    (ht : t.toList.head? ≠ some w.identifierRule.mark) (hdot : t.toList.head? ≠ some '.') :
    w.readNames (w.qualifyTable table ++ t) = some ((nameParts table).map w.tablePart, t) ↔
      (w = .bigQuery → '\\' ∉ table.toList) := by
  have hmark : w.identifierRule.mark ≠ '.' := by cases w <;> decide
  obtain ⟨part, parts, hparts⟩ := List.exists_cons_of_ne_nil (nameParts_ne_nil table)
  have hread := w.fits_identifierStyle.readNames_join_iff hmark (w.tablePart part)
    (parts.map w.tablePart) (fun _ ↦ ht) hdot
  rw [← List.map_cons, ← hparts, keepsBackslashes_tablePart_iff] at hread
  have htext : w.qualifyTable table =
      Text.join "." (((nameParts table).map w.tablePart).map w.identifierStyle.quote) := by
    rw [qualifyTable, List.map_map]
    rfl
  rw [readNames_eq_some_iff, String.toList_append, htext]
  exact hread

/-- Names that the dialect put in quotes are read as themselves, and end where they were ended, and
so are the names of tables part by part: in every dialect but that of BigQuery, and there exactly if
the name holds no backslash. -/
theorem reads_quoted_names_iff {t : String} (ht : t.toList.head? ≠ some w.identifierRule.mark) :
    (∀ name, w.readName (w.quoteIdentifier name ++ t) = some (name, t) ↔
      (w = .bigQuery → '\\' ∉ name.toList)) ∧
    (t.toList.head? ≠ some '.' → ∀ table,
      w.readNames (w.qualifyTable table ++ t) = some ((nameParts table).map w.tablePart, t) ↔
        (w = .bigQuery → '\\' ∉ table.toList)) :=
  ⟨fun _ ↦ readName_quoteIdentifier_iff ht, fun hdot _ ↦ readNames_qualifyTable_iff ht hdot⟩

/-- Names with quotation marks, dots and backslashes are read back by a warehouse that gives
backslashes no meaning. -/
theorem reads_quoted_names_of_postgreSQL :
    "\nWHERE".toList.head? ≠ some (identifierRule .postgreSQL).mark ∧
      readName .postgreSQL (quoteIdentifier .postgreSQL "a\"\\" ++ "\nWHERE") =
        some ("a\"\\", "\nWHERE") ∧
      readNames .postgreSQL (qualifyTable .postgreSQL "s\".t\\" ++ "\nWHERE") =
        some (["s\"", "t\\"], "\nWHERE") := by
  have hmark : "\nWHERE".toList.head? ≠ some (identifierRule .postgreSQL).mark := by decide
  obtain ⟨hname, htable⟩ := reads_quoted_names_iff hmark
  exact ⟨hmark, (hname _).mpr nofun, (htable (by decide) "s\".t\\").mpr nofun⟩

/-- In BigQuery a backslash at the end of a name leaves the name open, and one in front of a mark
ends it there, so that the rest of the name is read as SQL. -/
theorem backslash_leaves_name :
    readName .bigQuery (quoteIdentifier .bigQuery "a\\" ++ " IS NULL") = none ∧
      readName .bigQuery (quoteIdentifier .bigQuery "a\\\x60 OR TRUE" ++ " IS NULL") =
        some ("a\\", " OR TRUE\x60 IS NULL") := by
  decide +kernel

end Warehouse

end DataQuality
