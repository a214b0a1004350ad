import DataQuality.Dialect.Condition
import DataQuality.Plan.Column

/-!
# How conditions are read

What a database makes of the text of a condition: `NOT` binds tighter than `AND` and `AND` tighter
than `OR`, and the truth values are those of three-valued logic. The clauses are taken for atoms,
in the order in which they stand; a text has one reading over its clauses at most.
-/

namespace DataQuality

/-! ### Truth on a row -/

/-- What a condition comes to on a row; it is unknown where the database gives null. -/
inductive SqlTruth where
  | holds
  | fails
  | unknown
  deriving DecidableEq, Repr

namespace SqlTruth

/-- `NOT` of a truth value. -/
def not : SqlTruth → SqlTruth
  | .holds => .fails
  | .fails => .holds
  | .unknown => .unknown

/-- `AND` of truth values: what fails decides, then what is unknown. -/
def and : SqlTruth → SqlTruth → SqlTruth
  | .fails, _ | _, .fails => .fails
  | .holds, .holds => .holds
  | _, _ => .unknown

/-- `OR` of truth values: what holds decides, then what is unknown. -/
def or : SqlTruth → SqlTruth → SqlTruth
  | .holds, _ | _, .holds => .holds
  | .fails, .fails => .fails
  | _, _ => .unknown

@[simp] theorem not_eq_holds {a : SqlTruth} : a.not = .holds ↔ a = .fails := by
  cases a <;> decide

@[simp] theorem not_eq_fails {a : SqlTruth} : a.not = .fails ↔ a = .holds := by
  cases a <;> decide

@[simp] theorem and_eq_holds {a b : SqlTruth} : a.and b = .holds ↔ a = .holds ∧ b = .holds := by
  cases a <;> cases b <;> decide

@[simp] theorem and_eq_fails {a b : SqlTruth} : a.and b = .fails ↔ a = .fails ∨ b = .fails := by
  cases a <;> cases b <;> decide

@[simp] theorem or_eq_holds {a b : SqlTruth} : a.or b = .holds ↔ a = .holds ∨ b = .holds := by
  cases a <;> cases b <;> decide

@[simp] theorem or_eq_fails {a b : SqlTruth} : a.or b = .fails ↔ a = .fails ∧ b = .fails := by
  cases a <;> cases b <;> decide

/-- What is not unknown holds or fails. -/
theorem ne_unknown_iff {a : SqlTruth} : a ≠ .unknown ↔ a = .holds ∨ a = .fails := by
  cases a <;> decide

end SqlTruth

/-! ### Formulas over clauses -/

/-- A condition as a database understands it, over the texts of its clauses. -/
inductive SqlFormula where
  | clause (text : String)
  | negation (f : SqlFormula)
  | conjunction (f g : SqlFormula)
  | disjunction (f g : SqlFormula)
  deriving DecidableEq, Repr

namespace SqlFormula

/-- What a formula comes to where its clauses come to the given truth values. -/
def truth (clauses : String → SqlTruth) : SqlFormula → SqlTruth
  | .clause text => clauses text
  | .negation f => (f.truth clauses).not
  | .conjunction f g => (f.truth clauses).and (g.truth clauses)
  | .disjunction f g => (f.truth clauses).or (g.truth clauses)

/-- The first formula and all others together. -/
def allOf (first : SqlFormula) : List SqlFormula → SqlFormula
  | [] => first
  | f :: fs => .conjunction first (allOf f fs)

/-- The first formula or one of the others. -/
def anyOf (first : SqlFormula) : List SqlFormula → SqlFormula
  | [] => first
  | f :: fs => .disjunction first (anyOf f fs)

variable {clauses : String → SqlTruth} {first : SqlFormula} {fs : List SqlFormula}

theorem truth_allOf_eq_holds :
    (allOf first fs).truth clauses = .holds ↔ ∀ f ∈ first :: fs, f.truth clauses = .holds := by
  induction fs generalizing first with
  | nil => simp [allOf]
  | cons f fs ih => simp [allOf, truth, ih]

theorem truth_allOf_eq_fails :
    (allOf first fs).truth clauses = .fails ↔ ∃ f ∈ first :: fs, f.truth clauses = .fails := by
  induction fs generalizing first with
  | nil => simp [allOf]
  | cons f fs ih => simp [allOf, truth, ih]

theorem truth_anyOf_eq_holds :
    (anyOf first fs).truth clauses = .holds ↔ ∃ f ∈ first :: fs, f.truth clauses = .holds := by
  induction fs generalizing first with
  | nil => simp [anyOf]
  | cons f fs ih => simp [anyOf, truth, ih]

theorem truth_anyOf_eq_fails :
    (anyOf first fs).truth clauses = .fails ↔ ∀ f ∈ first :: fs, f.truth clauses = .fails := by
  induction fs generalizing first with
  | nil => simp [anyOf]
  | cons f fs ih => simp [anyOf, truth, ih]

theorem truth_allOf_ne_unknown (h : ∀ f ∈ first :: fs, f.truth clauses ≠ .unknown) :
    (allOf first fs).truth clauses ≠ .unknown := by
  rw [SqlTruth.ne_unknown_iff, truth_allOf_eq_holds, truth_allOf_eq_fails]
  by_cases hfails : ∃ f ∈ first :: fs, f.truth clauses = .fails
  · exact .inr hfails
  · exact .inl fun f hf ↦
      (SqlTruth.ne_unknown_iff.mp (h f hf)).resolve_right fun h ↦ hfails ⟨f, hf, h⟩

theorem truth_anyOf_ne_unknown (h : ∀ f ∈ first :: fs, f.truth clauses ≠ .unknown) :
    (anyOf first fs).truth clauses ≠ .unknown := by
  rw [SqlTruth.ne_unknown_iff, truth_anyOf_eq_holds, truth_anyOf_eq_fails]
  by_cases hholds : ∃ f ∈ first :: fs, f.truth clauses = .holds
  · exact .inl hholds
  · exact .inr fun f hf ↦
      (SqlTruth.ne_unknown_iff.mp (h f hf)).resolve_left fun h ↦ hholds ⟨f, hf, h⟩

end SqlFormula

/-! ### Reading a text -/

/-- How tightly the parts of a condition are bound, loosest first. -/
inductive SqlPrecedence where
  | disjunction
  | conjunction
  | negation
  | operand
  deriving DecidableEq, Repr

namespace SqlFormula

/-- The text is a formula of the precedence, with the clauses in it from left to right. Operators
of one precedence are grouped to the right here; the truth of a formula does not depend on it. -/
inductive Reads : SqlPrecedence → List String → List Char → SqlFormula → Prop
  | clause (text : String) : Reads .operand [text] text.toList (.clause text)
  | parenthesized {clauses : List String} {text : List Char} {f : SqlFormula}
      (inner : Reads .disjunction clauses text f) :
      Reads .operand clauses ('(' :: (text ++ [')'])) f
  | operand {clauses : List String} {text : List Char} {f : SqlFormula}
      (inner : Reads .operand clauses text f) : Reads .negation clauses text f
  | negation {clauses : List String} {text : List Char} {f : SqlFormula}
      (inner : Reads .negation clauses text f) :
      Reads .negation clauses ("NOT ".toList ++ text) (.negation f)
  | negated {clauses : List String} {text : List Char} {f : SqlFormula}
      (inner : Reads .negation clauses text f) : Reads .conjunction clauses text f
  | conjunction {clauses more : List String} {text rest : List Char} {f g : SqlFormula}
      (left : Reads .negation clauses text f) (right : Reads .conjunction more rest g) :
      Reads .conjunction (clauses ++ more) (text ++ " AND ".toList ++ rest) (.conjunction f g)
  | conjoined {clauses : List String} {text : List Char} {f : SqlFormula}
      (inner : Reads .conjunction clauses text f) : Reads .disjunction clauses text f
  | disjunction {clauses more : List String} {text rest : List Char} {f g : SqlFormula}
      (left : Reads .conjunction clauses text f) (right : Reads .disjunction more rest g) :
      Reads .disjunction (clauses ++ more) (text ++ " OR ".toList ++ rest) (.disjunction f g)

/-- A text with which a clause can begin: it is not taken for a parenthesis or for `NOT`. -/
def Opens (clause : String) : Prop :=
  ∃ c rest, clause.toList = c :: rest ∧ c ≠ '(' ∧ c ≠ 'N'

/-- What follows does not go on with a formula of the precedence. -/
def EndedBy (rest : List Char) : SqlPrecedence → Prop
  | .operand | .negation => True
  | .conjunction => ¬ " AND ".toList <+: rest
  | .disjunction => ¬ " AND ".toList <+: rest ∧ ¬ " OR ".toList <+: rest

/-- Neither a clause nor a parenthesis begins like `NOT`. -/
theorem Reads.exists_head {clauses : List String} {text : List Char} {f : SqlFormula}
    (h : Reads .operand clauses text f) (hopens : ∀ clause ∈ clauses, Opens clause) :
    ∃ c rest, text = c :: rest ∧ c ≠ 'N' := by
  cases h with
  | clause text =>
    obtain ⟨c, rest, htext, -, hnot⟩ := hopens text (by simp)
    exact ⟨c, rest, htext, hnot⟩
  | parenthesized inner => exact ⟨_, _, rfl, by decide⟩

/-- Two readings that begin a text with the same clauses are the same reading, if neither stops
where it could go on. -/
theorem Reads.unique {p : SqlPrecedence} {clauses clauses' more more' : List String}
    {text text' rest rest' : List Char} {f f' : SqlFormula}
    (h : Reads p clauses text f) (h' : Reads p clauses' text' f')
    (hopens : ∀ clause ∈ clauses ++ more, Opens clause)
    (hclauses : clauses ++ more = clauses' ++ more') (htext : text ++ rest = text' ++ rest')
    (hend : EndedBy rest p) (hend' : EndedBy rest' p) :
    f = f' ∧ clauses = clauses' ∧ text = text' := by
  induction h generalizing clauses' more more' text' rest rest' f' with
  | clause a =>
    obtain ⟨c, tail, ha, hparen, -⟩ := hopens a (by simp)
    cases h' with
    | clause b =>
      obtain ⟨rfl, -⟩ : a = b ∧ more = more' := by simpa using hclauses
      exact ⟨rfl, rfl, rfl⟩
    | parenthesized inner =>
      rw [ha] at htext
      exact absurd (List.cons.inj htext).1 hparen
  | parenthesized inner ih =>
    cases h' with
    | clause b =>
      obtain ⟨c, tail, hb, hparen, -⟩ := hopens b (by rw [hclauses]; simp)
      rw [hb] at htext
      exact absurd (List.cons.inj htext).1.symm hparen
    | parenthesized inner' =>
      simp only [List.cons_append, List.append_assoc, List.cons.injEq, true_and] at htext
      obtain ⟨rfl, rfl, rfl⟩ := ih inner' hopens hclauses htext
        (by simp [EndedBy]) (by simp [EndedBy])
      exact ⟨rfl, rfl, rfl⟩
  | operand inner ih =>
    cases h' with
    | operand inner' => exact ih inner' hopens hclauses htext trivial trivial
    | negation inner' =>
      obtain ⟨c, tail, rfl, hnot⟩ :=
        inner.exists_head fun clause h ↦ hopens clause (List.mem_append_left _ h)
      exact absurd (List.cons.inj htext).1 hnot
  | negation inner ih =>
    cases h' with
    | operand inner' =>
      obtain ⟨c, tail, rfl, hnot⟩ :=
        inner'.exists_head fun clause h ↦ hopens clause (hclauses ▸ List.mem_append_left _ h)
      exact absurd (List.cons.inj htext).1.symm hnot
    | negation inner' =>
      rw [List.append_assoc, List.append_assoc] at htext
      obtain ⟨rfl, rfl, rfl⟩ :=
        ih inner' hopens hclauses (List.append_cancel_left htext) trivial trivial
      exact ⟨rfl, rfl, rfl⟩
  | negated inner ih =>
    cases h' with
    | negated inner' => exact ih inner' hopens hclauses htext trivial trivial
    | conjunction left right =>
      -- One reading goes on with `AND` where the other has ended.
      rw [List.append_assoc] at hclauses
      rw [List.append_assoc, List.append_assoc] at htext
      obtain ⟨-, -, rfl⟩ := ih left hopens hclauses htext trivial trivial
      exact absurd ⟨_, (List.append_cancel_left htext).symm⟩ hend
  | conjunction left right ihl ihr =>
    rw [List.append_assoc] at hclauses hopens
    rw [List.append_assoc, List.append_assoc] at htext
    cases h' with
    | negated inner' =>
      obtain ⟨-, -, rfl⟩ := ihl inner' hopens hclauses htext trivial trivial
      exact absurd ⟨_, List.append_cancel_left htext⟩ hend'
    | conjunction left' right' =>
      rw [List.append_assoc] at hclauses
      rw [List.append_assoc, List.append_assoc] at htext
      obtain ⟨rfl, rfl, rfl⟩ := ihl left' hopens hclauses htext trivial trivial
      obtain ⟨rfl, rfl, rfl⟩ := ihr right'
        (fun clause h ↦ hopens clause (List.mem_append_right _ h))
        (List.append_cancel_left hclauses)
        (List.append_cancel_left (List.append_cancel_left htext)) hend hend'
      exact ⟨rfl, rfl, rfl⟩
  | conjoined inner ih =>
    cases h' with
    | conjoined inner' => exact ih inner' hopens hclauses htext hend.1 hend'.1
    | disjunction left right =>
      rw [List.append_assoc] at hclauses
      rw [List.append_assoc, List.append_assoc] at htext
      obtain ⟨-, -, rfl⟩ := ih left hopens hclauses htext hend.1 (by simp [EndedBy])
      exact absurd ⟨_, (List.append_cancel_left htext).symm⟩ hend.2
  | disjunction left right ihl ihr =>
    rw [List.append_assoc] at hclauses hopens
    rw [List.append_assoc, List.append_assoc] at htext
    cases h' with
    | conjoined inner' =>
      obtain ⟨-, -, rfl⟩ := ihl inner' hopens hclauses htext (by simp [EndedBy]) hend'.1
      exact absurd ⟨_, List.append_cancel_left htext⟩ hend'.2
    | disjunction left' right' =>
      rw [List.append_assoc] at hclauses
      rw [List.append_assoc, List.append_assoc] at htext
      obtain ⟨rfl, rfl, rfl⟩ :=
        ihl left' hopens hclauses htext (by simp [EndedBy]) (by simp [EndedBy])
      obtain ⟨rfl, rfl, rfl⟩ := ihr right'
        (fun clause h ↦ hopens clause (List.mem_append_right _ h))
        (List.append_cancel_left hclauses)
        (List.append_cancel_left (List.append_cancel_left htext)) hend hend'
      exact ⟨rfl, rfl, rfl⟩

/-! ### Readings of the conditions that are built -/

/-- Clauses behind each other with `AND` between them. -/
theorem Reads.allOf {clauses : List String} {text : List Char} {f : SqlFormula}
    (h : Reads .negation clauses text f) (more : List String) :
    Reads .conjunction (clauses ++ more)
      (text ++ (Condition.sqlBehind " AND " (more.map .clause)).toList)
      (f.allOf (more.map .clause)) := by
  induction more generalizing clauses text f with
  | nil => simpa [SqlFormula.allOf, Condition.sqlBehind] using Reads.negated h
  | cons clause more ih =>
    have := h.conjunction (ih (.operand (.clause clause)))
    simpa [SqlFormula.allOf, Condition.sqlBehind, Condition.sql] using this

/-- Clauses behind each other with `OR` between them. -/
theorem Reads.anyOf (first : String) (more : List String) :
    Reads .disjunction (first :: more)
      (first.toList ++ (Condition.sqlBehind " OR " (more.map .clause)).toList)
      ((SqlFormula.clause first).anyOf (more.map .clause)) := by
  have hfirst : Reads .conjunction [first] first.toList (.clause first) :=
    .negated (.operand (.clause first))
  induction more generalizing first with
  | nil => simpa [SqlFormula.anyOf, Condition.sqlBehind] using Reads.conjoined hfirst
  | cons clause more ih =>
    have := hfirst.disjunction (ih clause (.negated (.operand (.clause clause))))
    simpa [SqlFormula.anyOf, Condition.sqlBehind, Condition.sql] using this

/-- Alternatives stand in parentheses, so what is written around them does not bind tighter. -/
theorem Reads.alternatives (first : String) (more : List String) :
    Reads .operand (first :: more)
      (Condition.disjunction ((first :: more).map .clause)).sql.toList
      ((SqlFormula.clause first).anyOf (more.map .clause)) := by
  cases more with
  | nil => simpa [SqlFormula.anyOf, Condition.sql] using Reads.clause first
  | cons clause more =>
    simpa [Condition.sql, Condition.sqlBehind] using
      (Reads.anyOf first (clause :: more)).parenthesized

end SqlFormula

end DataQuality
