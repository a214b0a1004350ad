import Mathlib.Data.Rat.Floor
import DataQuality.Warehouse

/-!
# How arithmetic is read

What a database makes of the text of a number: `*` and `/` bind tighter than `-`, operators of one
level are grouped to the left, and numbers are exact. Column expressions and literals are taken for
operands, in the order in which they stand; a text has one reading over its operands at most.
-/

namespace DataQuality

/-! ### Numbers and what they come to -/

/-- How tightly an operator binds. -/
inductive SqlLevel where
  | product
  | sum
  deriving DecidableEq, Repr

/-- An operator between numbers. -/
inductive SqlOperator where
  | minus
  | times
  | dividedBy
  deriving DecidableEq, Repr

namespace SqlOperator

/-- The operator in a text. -/
def symbol : SqlOperator → String
  | minus => " - "
  | times => " * "
  | dividedBy => " / "

/-- The level of an operator. -/
def level : SqlOperator → SqlLevel
  | minus => .sum
  | times | dividedBy => .product

/-- What an operator makes of two numbers; nothing is divided by zero. -/
def result? (x y : ℚ) : SqlOperator → Option ℚ
  | minus => some (x - y)
  | times => some (x * y)
  | dividedBy => if y = 0 then none else some (x / y)

end SqlOperator

/-- The type that numbers are cast to where decimals have no place. -/
def Warehouse.integerType : Warehouse → String
  | .mySQL => "SIGNED"
  | .bigQuery => "INT64"
  | .postgreSQL | .sqlite | .snowflake => "INTEGER"

/-- What can be written around a number. -/
inductive SqlEnclosure where
  | parentheses
  | floor
  | integer
  deriving DecidableEq, Repr

namespace SqlEnclosure

/-- What stands before the number. -/
def opening : SqlEnclosure → String
  | parentheses => "("
  | floor => "FLOOR("
  | integer => "CAST("

/-- What stands behind the number. -/
def closing (w : Warehouse) : SqlEnclosure → String
  | parentheses | floor => ")"
  | integer => " AS " ++ w.integerType ++ ")"

/-- What becomes of the number. A cast to an integer cuts decimals off in SQLite; elsewhere it
rounds, in ways that differ, so it is used only where there is nothing to round. -/
def result? (w : Warehouse) (x : ℚ) : SqlEnclosure → Option ℚ
  | parentheses => some x
  | floor => some (⌊x⌋ : ℚ)
  | integer =>
    match w with
    | .sqlite => some ((if 0 ≤ x then ⌊x⌋ else ⌈x⌉ : ℤ) : ℚ)
    | .postgreSQL | .mySQL | .snowflake | .bigQuery => if x = ⌊x⌋ then some x else none

end SqlEnclosure

/-- A number as a database understands it, over the texts of its operands. -/
inductive SqlNumber where
  | operand (text : String)
  | binary (op : SqlOperator) (a b : SqlNumber)
  | enclosed (e : SqlEnclosure) (a : SqlNumber)
  | choice (a bound yes no : SqlNumber)
  deriving DecidableEq, Repr

namespace SqlNumber

/-- What a number comes to where its operands have the given values. A choice is made by whether
one number is at least another, and only the number that is chosen matters. -/
def value? (w : Warehouse) (operands : String → ℚ) : SqlNumber → Option ℚ
  | .operand text => some (operands text)
  | .binary op a b => (a.value? w operands).bind fun x ↦ (b.value? w operands).bind (op.result? x)
  | .enclosed e a => (a.value? w operands).bind fun x ↦ e.result? w x
  | .choice a bound yes no =>
    (a.value? w operands).bind fun x ↦ (bound.value? w operands).bind fun y ↦
      if y ≤ x then yes.value? w operands else no.value? w operands

end SqlNumber

/-! ### Reading a text -/

/-- The parts of a text: single numbers, whole chains of operators of a level, and what is behind
the beginning of a chain, which is the left side of the next operator. -/
inductive SqlPart where
  | single
  | chain (l : SqlLevel)
  | behind (l : SqlLevel) (left : SqlNumber)

/-- What stands between the operators of a level. -/
def SqlLevel.item : SqlLevel → SqlPart
  | product => .single
  | sum => .chain .product

namespace SqlNumber

variable {w : Warehouse}

/-- The text is a part with the operands in it from left to right, and comes to the number. -/
inductive Reads (w : Warehouse) : SqlPart → List String → List Char → SqlNumber → Prop
  | operand (text : String) : Reads w .single [text] text.toList (.operand text)
  | enclosed {operands : List String} {text : List Char} {a : SqlNumber} (e : SqlEnclosure)
      (inner : Reads w (.chain .sum) operands text a) :
      Reads w .single operands (e.opening.toList ++ text ++ (e.closing w).toList) (.enclosed e a)
  | choice {os os₁ os₂ os₃ : List String} {text text₁ text₂ text₃ : List Char}
      {a bound yes no : SqlNumber} (first : Reads w (.chain .sum) os text a)
      (second : Reads w (.chain .sum) os₁ text₁ bound)
      (third : Reads w (.chain .sum) os₂ text₂ yes) (last : Reads w (.chain .sum) os₃ text₃ no) :
      Reads w .single (os ++ os₁ ++ os₂ ++ os₃)
        ("CASE WHEN ".toList ++ text ++ " >= ".toList ++ text₁ ++ " THEN ".toList ++ text₂ ++
          " ELSE ".toList ++ text₃ ++ " END".toList) (.choice a bound yes no)
  | chain {l : SqlLevel} {operands more : List String} {text rest : List Char}
      {a b : SqlNumber} (first : Reads w l.item operands text a)
      (others : Reads w (.behind l a) more rest b) :
      Reads w (.chain l) (operands ++ more) (text ++ rest) b
  | done (l : SqlLevel) (left : SqlNumber) : Reads w (.behind l left) [] [] left
  | next {l : SqlLevel} {operands more : List String} {text rest : List Char}
      {left a b : SqlNumber} (op : SqlOperator) (hlevel : op.level = l)
      (first : Reads w l.item operands text a)
      (others : Reads w (.behind l (.binary op left a)) more rest b) :
      Reads w (.behind l left) (operands ++ more) (op.symbol.toList ++ text ++ rest) b

/-- A single number is a chain without operators. -/
theorem Reads.ofSingle {operands : List String} {text : List Char} {a : SqlNumber}
    (h : Reads w .single operands text a) (l : SqlLevel) : Reads w (.chain l) operands text a := by
  have hproduct : Reads w (.chain .product) operands text a := by
    simpa using Reads.chain h (.done .product a)
  cases l with
  | product => exact hproduct
  | sum => simpa using Reads.chain hproduct (.done .sum a)

/-! ### There is one reading at most -/

/-- A character of the words that can stand before an operand. -/
def isWordChar (c : Char) : Bool := c.isUpper || c == '(' || c == ' '

/-- An operand with a character that no word before it has. -/
def Marked (operand : String) : Prop := operand.toList.all isWordChar = false

/-- A text of words that can stand before an operand. -/
def IsOpening (text : List Char) : Prop := text.all isWordChar = true

theorem isOpening_opening (e : SqlEnclosure) : IsOpening e.opening.toList := by
  cases e <;> rfl

theorem isOpening_caseWhen : IsOpening "CASE WHEN ".toList := rfl

theorem IsOpening.append {text rest : List Char} (h : IsOpening text) (hrest : IsOpening rest) :
    IsOpening (text ++ rest) := by
  rw [IsOpening, List.all_append, h, hrest, Bool.and_self]

theorem IsOpening.not_mem {text : List Char} (h : IsOpening text) {c : Char}
    (hc : isWordChar c = false) : c ∉ text := fun hmem ↦
  Bool.false_ne_true (hc.symm.trans (List.all_eq_true.mp h c hmem))

/-- The text begins with the operand or with words before it. -/
def LeadsTo (text : List Char) (operand : String) : Prop :=
  ∃ words, IsOpening words ∧ words ++ operand.toList <+: text

theorem LeadsTo.opening_append {words text : List Char} {operand : String}
    (h : LeadsTo text operand) (hwords : IsOpening words) : LeadsTo (words ++ text) operand := by
  obtain ⟨inner, hinner, hprefix⟩ := h
  refine ⟨words ++ inner, hwords.append hinner, ?_⟩
  rw [List.append_assoc]
  exact (List.prefix_append_right_inj words).mpr hprefix

theorem LeadsTo.append {text : List Char} {operand : String} (h : LeadsTo text operand)
    (rest : List Char) : LeadsTo (text ++ rest) operand :=
  h.imp fun _ hwords ↦ ⟨hwords.1, hwords.2.trans (List.prefix_append text rest)⟩

/-- The mark of an operand shows where the operand begins. -/
theorem Marked.not_leadsTo {operand : String} (h : Marked operand) {words text rest : List Char}
    (hwords : IsOpening words) (hne : words ≠ []) (hleads : LeadsTo text operand) :
    operand.toList ++ rest ≠ words ++ text := by
  obtain ⟨c, hc, hmark⟩ := List.all_eq_false.mp h
  rw [Bool.not_eq_true] at hmark
  obtain ⟨inner, hinner, tail, rfl⟩ := hleads
  intro heq
  -- The first mark comes later where words come first.
  have hfirst := congrArg (List.idxOf c) heq
  rw [List.idxOf_append_of_mem hc, List.idxOf_append_of_notMem (hwords.not_mem hmark),
    List.append_assoc, List.idxOf_append_of_notMem (hinner.not_mem hmark),
    List.idxOf_append_of_mem hc] at hfirst
  exact hne (List.eq_nil_of_length_eq_zero (by omega))

/-- What a reading reads begins with its first operand. -/
theorem Reads.exists_leadsTo {p : SqlPart} {operands : List String} {text : List Char}
    {a : SqlNumber} (h : Reads w p operands text a) (hp : ∀ l left, p ≠ .behind l left) :
    ∃ operand os, operands = operand :: os ∧ LeadsTo text operand := by
  induction h with
  | operand text => exact ⟨text, [], rfl, [], by simp [IsOpening], List.prefix_rfl⟩
  | enclosed e inner ih =>
    obtain ⟨operand, os, rfl, hleads⟩ := ih (by simp)
    exact ⟨operand, os, rfl, (hleads.opening_append (isOpening_opening e)).append _⟩
  | choice first second third last ih =>
    obtain ⟨operand, os, rfl, hleads⟩ := ih (by simp)
    refine ⟨operand, _, rfl, ?_⟩
    simp only [List.append_assoc]
    exact (hleads.append _).opening_append isOpening_caseWhen
  | @chain l _ _ _ _ _ _ first others ih =>
    obtain ⟨operand, os, rfl, hleads⟩ := ih (by cases l <;> simp [SqlLevel.item])
    exact ⟨operand, _, rfl, hleads.append _⟩
  | done l left => exact absurd rfl (hp l left)
  | next op hlevel first others => exact absurd rfl (hp _ _)

/-- A text that begins with an operand is read as that operand. -/
theorem Reads.eq_operand {o : String} {operands more more' : List String}
    {text rest rest' : List Char} {a : SqlNumber} (h : Reads w .single operands text a)
    (hmarked : Marked o) (hoperands : o :: more = operands ++ more')
    (htext : o.toList ++ rest = text ++ rest') :
    a = .operand o ∧ operands = [o] ∧ text = o.toList := by
  cases h with
  | operand o' =>
    obtain ⟨rfl, -⟩ := List.cons.inj hoperands
    exact ⟨rfl, rfl, rfl⟩
  | enclosed e inner =>
    obtain ⟨o', os, rfl, hleads⟩ := inner.exists_leadsTo (by simp)
    obtain ⟨rfl, -⟩ := List.cons.inj hoperands
    simp only [List.append_assoc] at htext
    exact absurd htext
      (hmarked.not_leadsTo (isOpening_opening e) (by cases e <;> decide) (hleads.append _))
  | choice first second third last =>
    obtain ⟨o', os, rfl, hleads⟩ := first.exists_leadsTo (by simp)
    obtain ⟨rfl, -⟩ := List.cons.inj hoperands
    simp only [List.append_assoc] at htext
    exact absurd htext
      (hmarked.not_leadsTo isOpening_caseWhen (by decide) (hleads.append _))

/-- What follows does not go on with a part: no operator of its level or of a tighter one. -/
def EndedBy (rest : List Char) : SqlPart → Prop
  | .single => True
  | .chain l | .behind l _ =>
    ∀ op : SqlOperator, (op.level = l ∨ l = .sum) → ¬ op.symbol.toList <+: rest

/-- An operator is known by its symbol. -/
theorem symbol_append_inj {op op' : SqlOperator} {rest rest' : List Char}
    (h : op.symbol.toList ++ rest = op'.symbol.toList ++ rest') : op = op' ∧ rest = rest' := by
  have hop : op = op' := by
    cases op <;> cases op' <;> first | rfl | simp [SqlOperator.symbol] at h
  exact ⟨hop, List.append_cancel_left (hop ▸ h)⟩

/-- What is written around a number is known by what stands before it. -/
theorem opening_append_inj {e e' : SqlEnclosure} {rest rest' : List Char}
    (h : e.opening.toList ++ rest = e'.opening.toList ++ rest') : e = e' ∧ rest = rest' := by
  have he : e = e' := by
    cases e <;> cases e' <;> first | rfl | simp [SqlEnclosure.opening] at h
  exact ⟨he, List.append_cancel_left (he ▸ h)⟩

theorem opening_append_ne {e : SqlEnclosure} {rest rest' : List Char} :
    e.opening.toList ++ rest ≠ "CASE WHEN ".toList ++ rest' := by
  cases e <;> simp [SqlEnclosure.opening]

theorem endedBy_closing (e : SqlEnclosure) (rest : List Char) :
    EndedBy ((e.closing w).toList ++ rest) (.chain .sum) := by
  intro op _
  cases e <;> cases op <;> simp [SqlEnclosure.closing, SqlOperator.symbol]

theorem endedBy_word {word : String} (h : word ∈ [" >= ", " THEN ", " ELSE ", " END"])
    (rest : List Char) : EndedBy (word.toList ++ rest) (.chain .sum) := by
  intro op _
  simp only [List.mem_cons, List.not_mem_nil, or_false] at h
  obtain rfl | rfl | rfl | rfl := h <;> cases op <;> simp [SqlOperator.symbol]

/-- What stands between operators ends where the next operator begins, or where the chain ends. -/
theorem Reads.endedBy_item {l : SqlLevel} {left a : SqlNumber} {operands : List String}
    {text rest : List Char} (h : Reads w (.behind l left) operands text a)
    (hend : EndedBy rest (.behind l left)) : EndedBy (text ++ rest) l.item := by
  cases l with
  | product => trivial
  | sum =>
    intro op hop
    cases h with
    | done => exact hend op (.inr rfl)
    | next op' hlevel first others =>
      rintro ⟨tail, htail⟩
      simp only [List.append_assoc] at htail
      obtain ⟨rfl, -⟩ := symbol_append_inj htail
      simp [hlevel] at hop

/-- Two readings that begin a text with the same operands are the same reading, if neither stops
where it could go on. -/
theorem Reads.unique {p : SqlPart} {operands operands' more more' : List String}
    {text text' rest rest' : List Char} {a a' : SqlNumber}
    (h : Reads w p operands text a) (h' : Reads w p operands' text' a')
    (hmarked : ∀ operand ∈ operands ++ more, Marked operand)
    (hoperands : operands ++ more = operands' ++ more') (htext : text ++ rest = text' ++ rest')
    (hend : EndedBy rest p) (hend' : EndedBy rest' p) :
    a = a' ∧ operands = operands' ∧ text = text' := by
  induction h generalizing operands' more more' text' rest rest' a' with
  | operand o =>
    obtain ⟨rfl, rfl, rfl⟩ := h'.eq_operand (hmarked o (by simp)) hoperands htext
    exact ⟨rfl, rfl, rfl⟩
  | @enclosed os t b e inner ih =>
    cases h' with
    | operand o =>
      have hread := (Reads.enclosed e inner).eq_operand (hmarked o (by rw [hoperands]; simp))
        hoperands.symm htext.symm
      exact SqlNumber.noConfusion hread.1
    | enclosed e' inner' =>
      simp only [List.append_assoc] at htext
      obtain ⟨rfl, hrest⟩ := opening_append_inj htext
      obtain ⟨rfl, rfl, rfl⟩ :=
        ih inner' hmarked hoperands hrest (endedBy_closing e rest) (endedBy_closing e rest')
      exact ⟨rfl, rfl, rfl⟩
    | choice first' second' third' last' =>
      simp only [List.append_assoc] at htext
      exact absurd htext opening_append_ne
  | choice first second third last ih₀ ih₁ ih₂ ih₃ =>
    cases h' with
    | operand o =>
      have hread := (first.choice second third last).eq_operand
        (hmarked o (by rw [hoperands]; simp)) hoperands.symm htext.symm
      exact SqlNumber.noConfusion hread.1
    | enclosed e' inner' =>
      simp only [List.append_assoc] at htext
      exact absurd htext.symm opening_append_ne
    | choice first' second' third' last' =>
      -- Each word of the choice ends the number in front of it, so they agree one after the other.
      simp only [List.append_assoc] at htext hoperands hmarked
      have htext := List.append_cancel_left htext
      obtain ⟨rfl, rfl, rfl⟩ := ih₀ first' hmarked hoperands htext
        (endedBy_word (by simp) _) (endedBy_word (by simp) _)
      have hmarked := fun operand hmem ↦ hmarked operand (List.mem_append_right _ hmem)
      have hoperands := List.append_cancel_left hoperands
      have htext := List.append_cancel_left (List.append_cancel_left htext)
      obtain ⟨rfl, rfl, rfl⟩ := ih₁ second' hmarked hoperands htext
        (endedBy_word (by simp) _) (endedBy_word (by simp) _)
      have hmarked := fun operand hmem ↦ hmarked operand (List.mem_append_right _ hmem)
      have hoperands := List.append_cancel_left hoperands
      have htext := List.append_cancel_left (List.append_cancel_left htext)
      obtain ⟨rfl, rfl, rfl⟩ := ih₂ third' hmarked hoperands htext
        (endedBy_word (by simp) _) (endedBy_word (by simp) _)
      have hmarked := fun operand hmem ↦ hmarked operand (List.mem_append_right _ hmem)
      have hoperands := List.append_cancel_left hoperands
      have htext := List.append_cancel_left (List.append_cancel_left htext)
      obtain ⟨rfl, rfl, rfl⟩ := ih₃ last' hmarked hoperands htext
        (endedBy_word (by simp) _) (endedBy_word (by simp) _)
      exact ⟨rfl, rfl, rfl⟩
  | chain first others ih ihs =>
    cases h' with
    | chain first' others' =>
      rw [List.append_assoc] at hoperands hmarked
      rw [List.append_assoc] at hoperands
      rw [List.append_assoc, List.append_assoc] at htext
      obtain ⟨rfl, rfl, rfl⟩ := ih first' hmarked hoperands htext (others.endedBy_item hend)
        (others'.endedBy_item hend')
      obtain ⟨rfl, rfl, rfl⟩ := ihs others'
        (fun operand hmem ↦ hmarked operand (List.mem_append_right _ hmem))
        (List.append_cancel_left hoperands) (List.append_cancel_left htext) hend hend'
      exact ⟨rfl, rfl, rfl⟩
  | done l left =>
    cases h' with
    | done => exact ⟨rfl, rfl, rfl⟩
    | next op hlevel first others =>
      rw [List.nil_append, List.append_assoc, List.append_assoc] at htext
      exact absurd ⟨_, htext.symm⟩ (hend op (.inl hlevel))
  | next op hlevel first others ih ihs =>
    cases h' with
    | done =>
      rw [List.nil_append, List.append_assoc, List.append_assoc] at htext
      exact absurd ⟨_, htext⟩ (hend' op (.inl hlevel))
    | next op' hlevel' first' others' =>
      rw [List.append_assoc] at hoperands hmarked
      rw [List.append_assoc] at hoperands
      simp only [List.append_assoc] at htext
      obtain ⟨rfl, hrest⟩ := symbol_append_inj htext
      obtain ⟨rfl, rfl, rfl⟩ := ih first' hmarked hoperands hrest (others.endedBy_item hend)
        (others'.endedBy_item hend')
      obtain ⟨rfl, rfl, rfl⟩ := ihs others'
        (fun operand hmem ↦ hmarked operand (List.mem_append_right _ hmem))
        (List.append_cancel_left hoperands) (List.append_cancel_left hrest) hend hend'
      exact ⟨rfl, rfl, rfl⟩

/-- The text comes to the number, and to no other one if its operands can be told from words. -/
structure IsReadingOf (w : Warehouse) (operands : List String) (text : String) (a : SqlNumber) :
    Prop where
  reads : Reads w (.chain .sum) operands text.toList a
  unique : (∀ operand ∈ operands, Marked operand) →
    ∀ b, Reads w (.chain .sum) operands text.toList b → b = a

theorem Reads.isReadingOf {operands : List String} {text : String} {a : SqlNumber}
    (h : Reads w (.chain .sum) operands text.toList a) : a.IsReadingOf w operands text where
  reads := h
  unique hmarked b hb := by
    have hnone : EndedBy [] (.chain .sum) := fun op _ ↦ by cases op <;> simp [SqlOperator.symbol]
    have hall : ∀ operand ∈ operands ++ [], Marked operand := by simpa using hmarked
    have htext : text.toList ++ [] = text.toList ++ [] := rfl
    exact (hb.unique h hall rfl htext hnone hnone).1

end SqlNumber

end DataQuality
