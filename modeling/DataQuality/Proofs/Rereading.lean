import Mathlib.Data.List.Chain
import DataQuality.Proofs.Leaves
import DataQuality.Proofs.ReadingTexts

/-!
# Reading what is shown

An expression is shown with every operation between two operands in parentheses, but `not` and the
minus sign stand outside of those of their operand. So `not` in front of an arithmetic operator or a
comparison is read as if it came before the whole operation, and behind such an operator it is not
read at all. Where neither occurs, and no text holds a backslash, reading gives the expression back.
-/

namespace DataQuality

/-! ### Where `not` may stand -/

/-- Whether one token may stand in front of another: in front of `not` there is no operator but
`and` and `or`. -/
def Token.MayPrecede (a b : Token) : Prop :=
  b = .not → ∀ op : BinaryOp, a = op.token → ∃ c, op = .connective c

theorem BinaryOp.token_ne_not (op : BinaryOp) : op.token ≠ .not := by
  rcases op with op | op | op <;> cases op <;> exact Token.noConfusion

theorem BinaryOp.token_ne_leftParen (op : BinaryOp) : op.token ≠ .leftParen := by
  rcases op with op | op | op <;> cases op <;> exact Token.noConfusion

/-- Operators with `not` looser than their operands are `and` and `or`. -/
theorem BinaryOp.exists_connective {op : BinaryOp}
    (h : (Nonterminal.unary .not).rank ≤ op.tier.operand.rank) : ∃ c, op = .connective c := by
  rcases op with op | op | op
  · cases op <;> exact absurd h (by decide)
  · cases op <;> exact absurd h (by decide)
  · exact ⟨op, rfl⟩

theorem ParseSteps.head_ne_not {t : Tier} (steps : ParseSteps t) :
    ∀ tok ∈ steps.tokens.head?, tok ≠ .not := by
  cases steps with
  | nil => simp [tokens]
  | cons op fits operand rest =>
    intro tok htok
    obtain rfl : op.token = tok := Option.some.inj htok
    exact op.token_ne_not

/-- Only where `not` binds tight enough does a derivation begin with it. -/
theorem ParseTree.rank_le_of_head {n : Nonterminal} {d : ParseTree n}
    (h : .not ∈ d.tokens.head?) : (Nonterminal.unary .not).rank ≤ n.rank := by
  obtain ⟨tok, rest, htokens, hsign⟩ := d.exists_head
  rw [htokens] at h
  exact hsign .not (Option.some.inj h)

mutual

theorem ParseTree.isChain_tokens : {n : Nonterminal} → (d : ParseTree n) →
    d.tokens.IsChain Token.MayPrecede
  | _, .chain first steps =>
    List.isChain_append.mpr ⟨first.isChain_tokens, steps.isChain_tokens,
      fun _ _ tok htok hnot ↦ absurd hnot (steps.head_ne_not tok htok)⟩
  | _, .unary op inner => by
    refine List.isChain_cons.mpr ⟨?_, inner.isChain_tokens⟩
    rintro tok htok rfl bop hbop
    cases op with
    | not => exact absurd hbop.symm bop.token_ne_not
    | neg => exact absurd (ParseTree.rank_le_of_head htok) (by decide)
  | _, .plain inner => inner.isChain_tokens
  | _, .atom a => List.isChain_singleton _
  | _, .parenthesized inner => by
    rw [ParseTree.tokens, List.cons_append]
    refine List.isChain_cons.mpr ⟨fun _ _ _ op hop ↦ absurd hop.symm op.token_ne_leftParen, ?_⟩
    refine List.isChain_append.mpr ⟨inner.isChain_tokens, List.isChain_singleton _, ?_⟩
    intro _ _ tok htok hnot
    obtain rfl : Token.rightParen = tok := Option.some.inj htok
    cases hnot

theorem ParseSteps.isChain_tokens : {t : Tier} → (steps : ParseSteps t) →
    steps.tokens.IsChain Token.MayPrecede
  | _, .nil => List.isChain_nil
  | _, .cons op fits operand rest => by
    rw [ParseSteps.tokens, List.cons_append]
    refine List.isChain_cons.mpr ⟨?_, List.isChain_append.mpr
      ⟨operand.isChain_tokens, rest.isChain_tokens,
        fun _ _ tok htok hnot ↦ absurd hnot (rest.head_ne_not tok htok)⟩⟩
    rintro tok htok rfl bop hbop
    obtain rfl := BinaryOp.token_inj hbop
    obtain ⟨first, behind, htokens, -⟩ := operand.exists_head
    refine BinaryOp.exists_connective ?_
    rw [fits]
    refine ParseTree.rank_le_of_head (d := operand) ?_
    rw [htokens] at htok ⊢
    exact htok

end

/-! ### Expressions with `not` beside an operator -/

namespace Expr

/-- Whether the expression is a negation. -/
def IsNegation (e : Expr) : Prop := ∃ operand, e = unary .not operand

/-- No `not` stands directly beside an arithmetic operator or a comparison. -/
def NegationsApart : Expr → Prop
  | unary _ operand => operand.NegationsApart
  | binary op left right =>
    ((∃ c, op = .connective c) ∨ (¬ left.IsNegation ∧ ¬ right.IsNegation)) ∧
      left.NegationsApart ∧ right.NegationsApart
  | _ => True

/-- What the tokens of the expression are read as: `not` in front of an operator that binds tighter
takes the whole operation for its operand. -/
def reread : Expr → Expr
  | unary op operand => unary op operand.reread
  | binary (.connective c) left right => binary (.connective c) left.reread right.reread
  | binary op (unary .not operand) right => unary .not (binary op operand.reread right.reread)
  | binary op left right => binary op left.reread right.reread
  | e => e

/-- Where the tokens of the expression are derived from. -/
def nonterminal : Expr → Nonterminal
  | unary op _ => .unary op
  | _ => .operand

/-- Only a negation is shown with `not` first. -/
theorem isNegation_iff {e : Expr} : e.IsNegation ↔ .not ∈ e.shown.head? := by
  constructor
  · rintro ⟨operand, rfl⟩
    rfl
  · intro h
    cases e with
    | unary op operand =>
      cases op with
      | not => exact ⟨operand, rfl⟩
      | neg => cases h
    | _ => cases h

/-- Parentheses separate what is in them from what is around. -/
theorem isChain_parenthesized {ts : List Token} :
    (.leftParen :: (ts ++ [.rightParen])).IsChain Token.MayPrecede ↔
      ts.IsChain Token.MayPrecede := by
  rw [List.isChain_cons, List.isChain_append]
  constructor
  · exact fun h ↦ h.2.1
  · refine fun h ↦ ⟨fun _ _ _ op hop ↦ absurd hop.symm op.token_ne_leftParen, h,
      List.isChain_singleton _, fun _ _ tok htok hnot ↦ ?_⟩
    obtain rfl : Token.rightParen = tok := Option.some.inj htok
    cases hnot

theorem isChain_shown_unary {op : UnaryOp} {operand : Expr} :
    (unary op operand).shown.IsChain Token.MayPrecede ↔
      operand.shown.IsChain Token.MayPrecede := by
  rw [shown, List.isChain_cons_cons, isChain_parenthesized]
  exact and_iff_right fun hnot ↦ by cases hnot

theorem isChain_shown_binary {op : BinaryOp} {left right : Expr} :
    (binary op left right).shown.IsChain Token.MayPrecede ↔
      left.shown.IsChain Token.MayPrecede ∧ right.shown.IsChain Token.MayPrecede ∧
        (right.IsNegation → ∃ c, op = .connective c) := by
  have hseam : (∀ tok ∈ right.shown.head?, Token.MayPrecede op.token tok) ↔
      (right.IsNegation → ∃ c, op = .connective c) := by
    constructor
    · exact fun h hright ↦ h .not (isNegation_iff.mp hright) rfl op rfl
    · rintro h tok htok rfl op' hop'
      exact BinaryOp.token_inj hop' ▸ h (isNegation_iff.mpr htok)
  have hleft : ∀ x ∈ left.shown.getLast?, ∀ tok ∈ (op.token :: right.shown).head?,
      Token.MayPrecede x tok := by
    rintro _ _ tok htok hnot
    obtain rfl : op.token = tok := Option.some.inj htok
    exact absurd hnot op.token_ne_not
  have hshown : (binary op left right).shown =
      .leftParen :: ((left.shown ++ op.token :: right.shown) ++ [.rightParen]) := by simp [shown]
  rw [hshown, isChain_parenthesized, List.isChain_append, List.isChain_cons, hseam]
  constructor
  · rintro ⟨hl, ⟨hright, hr⟩, -⟩
    exact ⟨hl, hr, hright⟩
  · rintro ⟨hl, hr, hright⟩
    exact ⟨hl, ⟨hright, hr⟩, hleft⟩

theorem reread_binary {op : BinaryOp} {left : Expr} (right : Expr)
    (h : (∃ c, op = .connective c) ∨ ¬ left.IsNegation) :
    (binary op left right).reread = binary op left.reread right.reread := by
  obtain ⟨c, rfl⟩ | hleft := h
  · rfl
  · cases left with
    | unary uop operand =>
      cases uop with
      | not => exact absurd ⟨operand, rfl⟩ hleft
      | neg => cases op <;> rfl
    | _ => cases op <;> rfl

theorem reread_binary_negation {op : BinaryOp} (operand right : Expr)
    (h : ¬ ∃ c, op = .connective c) :
    (binary op (unary .not operand) right).reread =
      unary .not (binary op operand.reread right.reread) := by
  cases op with
  | connective c => exact absurd ⟨c, rfl⟩ h
  | _ => rfl

/-- Where `not` stands apart from tighter operators the tokens may stand as they do, and they are
read as the expression. -/
theorem negationsApart_iff {e : Expr} :
    e.NegationsApart ↔ e.shown.IsChain Token.MayPrecede ∧ e.reread = e := by
  induction e with
  | unary op operand ih =>
    rw [NegationsApart, isChain_shown_unary, ih, reread, unary.injEq]
    simp only [true_and]
  | binary op left right ihl ihr =>
    rw [NegationsApart, isChain_shown_binary, ihl, ihr]
    by_cases h : (∃ c, op = .connective c) ∨ ¬ left.IsNegation
    · rw [reread_binary right h, binary.injEq]
      tauto
    · obtain ⟨hop, hnegation⟩ := not_or.mp h
      obtain ⟨operand, rfl⟩ := not_not.mp hnegation
      rw [reread_binary_negation operand right hop]
      have hleft : (unary .not operand).IsNegation := ⟨operand, rfl⟩
      simp [hop, hleft]
  | number value => simp [NegationsApart, shown, reread]
  | text value => simp [NegationsApart, shown, reread]
  | bool value => simp [NegationsApart, shown, reread]
  | null => simp [NegationsApart, shown, reread]
  | identifier name => simp [NegationsApart, shown, reread]

end Expr

/-! ### Derivations of what is shown -/

theorem ParseTree.exists_parenthesized {n : Nonterminal} (d : ParseTree n) (m : Nonterminal) :
    ∃ d' : ParseTree m, d'.tokens = .leftParen :: (d.tokens ++ [.rightParen]) ∧
      d'.expr = d.expr ∧ d'.nesting = d.nesting + 1 := by
  obtain ⟨start, htokens, hexpr, hnesting⟩ := d.exists_lift .start n.rank_le_start
  obtain ⟨d', htokens', hexpr', hnesting'⟩ :=
    (ParseTree.parenthesized start).exists_lift m (Nat.zero_le _)
  refine ⟨d', ?_, hexpr'.trans hexpr, ?_⟩
  · rw [htokens', tokens, htokens, List.cons_append]
  · rw [hnesting', nesting, hnesting]

/-- Two operands with an operator between them. -/
theorem ParseTree.exists_binary (op : BinaryOp) {n m : Nonterminal} (left : ParseTree n)
    (right : ParseTree m) (hleft : n.rank ≤ op.tier.operand.rank)
    (hright : m.rank ≤ op.tier.operand.rank) :
    ∃ d : ParseTree (.chain op.tier), d.tokens = left.tokens ++ op.token :: right.tokens ∧
      d.expr = .binary op left.expr right.expr ∧ d.nesting = max left.nesting right.nesting := by
  obtain ⟨left', hltokens, hlexpr, hlnesting⟩ := left.exists_lift op.tier.operand hleft
  obtain ⟨right', hrtokens, hrexpr, hrnesting⟩ := right.exists_lift op.tier.operand hright
  refine ⟨.chain left' (.cons op rfl right' .nil), ?_, ?_, ?_⟩
  · simp [tokens, ParseSteps.tokens, hltokens, hrtokens]
  · rw [← hlexpr, ← hrexpr]
    rcases op with op | op | op <;> cases op <;> rfl
  · simp [nesting, ParseSteps.nesting, hlnesting, hrnesting]

namespace Expr

/-- What is no negation stands beside every operator, what is one beside `and` and `or`. -/
theorem rank_nonterminal_le {e : Expr} {op : BinaryOp}
    (h : e.IsNegation → ∃ c, op = .connective c) :
    e.nonterminal.rank ≤ op.tier.operand.rank := by
  have hpos : (Nonterminal.unary .neg).rank ≤ op.tier.operand.rank := by
    rcases op with op | op | op <;> cases op <;> decide
  cases e with
  | unary uop operand =>
    cases uop with
    | neg => exact hpos
    | not =>
      obtain ⟨c, rfl⟩ := h ⟨operand, rfl⟩
      change (Nonterminal.unary .not).rank ≤ _
      cases c <;> decide
  | _ => exact Nat.zero_le _

/-- What the expression is shown as derives what it is read as, nested as deep as it looks where no
`not` is read in another place. -/
def DerivedFrom (e : Expr) (n : Nonterminal) : Prop :=
  ∃ d : ParseTree n, d.tokens = e.shown ∧ d.expr = e.reread ∧
    (e.NegationsApart → d.nesting = e.shownNesting)

theorem derivedFrom_nonterminal (e : Expr) (h : e.shown.IsChain Token.MayPrecede) :
    e.DerivedFrom e.nonterminal := by
  match e, h with
  | .number value, _ => exact ⟨.atom (.number value), rfl, rfl, fun _ ↦ rfl⟩
  | .text value, _ => exact ⟨.atom (.text value), rfl, rfl, fun _ ↦ rfl⟩
  | .bool value, _ => exact ⟨.atom (.bool value), rfl, rfl, fun _ ↦ rfl⟩
  | .null, _ => exact ⟨.atom .null, rfl, rfl, fun _ ↦ rfl⟩
  | .identifier name, _ => exact ⟨.atom (.identifier name), rfl, rfl, fun _ ↦ rfl⟩
  | .unary op operand, h =>
    obtain ⟨d, htokens, hexpr, hnesting⟩ :=
      derivedFrom_nonterminal operand (isChain_shown_unary.mp h)
    obtain ⟨inner, hitokens, hiexpr, hinesting⟩ := d.exists_parenthesized (.unary op)
    change DerivedFrom _ (.unary op)
    refine ⟨.unary op inner, ?_, ?_, fun hapart ↦ ?_⟩
    · rw [ParseTree.tokens, hitokens, htokens, shown]
    · rw [ParseTree.expr, hiexpr, hexpr, reread]
    · rw [ParseTree.nesting, hinesting, hnesting hapart, shownNesting]
  | .binary op left right, h =>
    obtain ⟨hl, hr, hright⟩ := isChain_shown_binary.mp h
    obtain ⟨dr, hrtokens, hrexpr, hrnesting⟩ := derivedFrom_nonterminal right hr
    change DerivedFrom _ .operand
    by_cases hleft : (∃ c, op = .connective c) ∨ ¬ left.IsNegation
    · obtain ⟨dl, hltokens, hlexpr, hlnesting⟩ := derivedFrom_nonterminal left hl
      obtain ⟨d, htokens, hexpr, hnesting⟩ := ParseTree.exists_binary op dl dr
        (rank_nonterminal_le fun hneg ↦ hleft.resolve_right (not_not.mpr hneg))
        (rank_nonterminal_le hright)
      obtain ⟨d', htokens', hexpr', hnesting'⟩ := d.exists_parenthesized .operand
      refine ⟨d', ?_, ?_, fun hapart ↦ ?_⟩
      · rw [htokens', htokens, hltokens, hrtokens]
        simp [shown]
      · rw [hexpr', hexpr, hlexpr, hrexpr, reread_binary right hleft]
      · rw [hnesting', hnesting, hlnesting hapart.2.1, hrnesting hapart.2.2, shownNesting]
    · -- `not` takes the operation for its operand, and its own operand stands in parentheses.
      obtain ⟨hop, hnegation⟩ := not_or.mp hleft
      obtain ⟨operand, rfl⟩ := not_not.mp hnegation
      obtain ⟨dx, hxtokens, hxexpr, -⟩ :=
        derivedFrom_nonterminal operand (isChain_shown_unary.mp hl)
      obtain ⟨px, hpxtokens, hpxexpr, -⟩ := dx.exists_parenthesized .operand
      obtain ⟨d, htokens, hexpr, -⟩ := ParseTree.exists_binary op px dr (Nat.zero_le _)
        (rank_nonterminal_le hright)
      have hrank : (Nonterminal.chain op.tier).rank ≤ (UnaryOp.operand .not).rank := by
        rcases op with op | op | op
        · cases op <;> decide
        · cases op <;> decide
        · exact absurd ⟨op, rfl⟩ hop
      obtain ⟨inner, hitokens, hiexpr, -⟩ := d.exists_lift (UnaryOp.operand .not) hrank
      obtain ⟨d', htokens', hexpr', -⟩ :=
        (ParseTree.unary .not (.plain inner)).exists_parenthesized .operand
      refine ⟨d', ?_, ?_, fun hapart ↦ ?_⟩
      · rw [htokens', ParseTree.tokens, ParseTree.tokens, hitokens, htokens, hpxtokens, hxtokens,
          hrtokens]
        simp [shown]
      · rw [hexpr', ParseTree.expr, ParseTree.expr, hiexpr, hexpr, hpxexpr, hxexpr, hrexpr,
          reread_binary_negation operand right hop]
      · exact absurd ⟨operand, rfl⟩ (hapart.1.resolve_left hop).1
termination_by sizeOf e

/-! ### Reading back -/

/-- The operands of an expression that is read, if its numbers are finite, are written so that they
read back. -/
theorem writable_of_parse {source : String} {e : Expr} (h : parse source = .ok e)
    (hfinite : ∀ value, .number value ∈ e.leaves → Number.isFinite value = true) :
    ∀ a ∈ e.leaves, a.Writable := by
  refine fun a ha ↦ ⟨fromText_of_parse h a ha, ?_⟩
  rintro value rfl
  exact hfinite value ha

section

variable {e : Expr}

/-- What reads back as itself holds no backslash in a text. -/
theorem not_slashed_of_parse_render (h : ∀ a ∈ e.leaves, a.Writable)
    (hback : parse e.render = .ok e) : ∀ a ∈ e.leaves, ¬ a.Slashed := by
  intro a ha hslashed
  obtain ⟨placed, hplaced, hread⟩ := exists_of_bind_eq_ok hback
  obtain ⟨-, -, d, htokens, -, hexpr⟩ := exists_of_ofTokens_eq_ok hread
  obtain ⟨before, after, after', s, s', hshown, hcut, hne⟩ :=
    exists_of_tokenize_render h ⟨a, ha, hslashed⟩ hplaced
  exact hne (ParseTree.text_eq_of_tokens hshown (htokens.trans hcut) hexpr)

/-- What reads back as itself holds no `not` beside an arithmetic operator or a comparison. -/
theorem negationsApart_of_parse_render (h : ∀ a ∈ e.leaves, a.Writable)
    (hback : parse e.render = .ok e) : e.NegationsApart := by
  obtain ⟨placed, hplaced, hread⟩ := exists_of_bind_eq_ok hback
  obtain ⟨-, -, d, htokens, -, hexpr⟩ := exists_of_ofTokens_eq_ok hread
  obtain ⟨placed', hplaced', hshown⟩ := tokenize_render h (not_slashed_of_parse_render h hback)
  obtain rfl := Except.ok.inj (hplaced.symm.trans hplaced')
  have hchain : e.shown.IsChain Token.MayPrecede := by
    rw [← hshown, ← htokens]
    exact d.isChain_tokens
  -- The tokens have one derivation only, so it stands for what they are read as.
  obtain ⟨d', htokens', hexpr', -⟩ := e.derivedFrom_nonterminal hchain
  obtain ⟨start, hstokens, hsexpr, -⟩ := d'.exists_lift .start (Nonterminal.rank_le_start _)
  obtain rfl : d = start :=
    ParseTree.eq_of_tokens_eq (by rw [htokens, hshown, hstokens, htokens'])
  refine negationsApart_iff.mpr ⟨hchain, ?_⟩
  rw [← hexpr', ← hsexpr, hexpr]

end

/-- An expression that is read, with finite numbers and short and flat enough where it is shown,
reads back as itself exactly if no text in it holds a backslash and no `not` stands beside an
arithmetic operator or a comparison. -/
theorem parse_render_eq_ok_iff {source : String} {e : Expr} (h : parse source = .ok e)
    (hfinite : ∀ value, .number value ∈ e.leaves → Number.isFinite value = true)
    (hlength : e.shown.length ≤ 1024) (hnesting : e.shownNesting ≤ 64) :
    parse e.render = .ok e ↔
      (∀ s, .text s ∈ e.leaves → '\\' ∉ s.toList) ∧ e.NegationsApart := by
  have hwritable := writable_of_parse h hfinite
  constructor
  · intro hback
    refine ⟨fun s hs hslash ↦ ?_, negationsApart_of_parse_render hwritable hback⟩
    exact not_slashed_of_parse_render hwritable hback _ hs ⟨s, rfl, hslash⟩
  · rintro ⟨hbare, hapart⟩
    have hplain : ∀ a ∈ e.leaves, ¬ a.Slashed := by
      rintro a ha ⟨s, rfl, hslash⟩
      exact hbare s ha hslash
    obtain ⟨hchain, hreread⟩ := negationsApart_iff.mp hapart
    obtain ⟨d, htokens, hexpr, hdepth⟩ := e.derivedFrom_nonterminal hchain
    have hcuts := cuts_render hwritable hplain .nil
    rw [List.append_nil, ← htokens] at hcuts
    have hread := parse_eq_ok d hcuts (htokens ▸ hlength) (hdepth hapart ▸ hnesting)
    rw [hread, hexpr, hreread]

/-- The expression `not a < 5` is shown as `not ((a < 5))`, which reads back. -/
theorem parse_render_not_less :
    parse "not a < 5" =
        .ok (.unary .not (.binary (.comparison .lt) (.identifier "a") (.number 5))) ∧
      parse (render (.unary .not (.binary (.comparison .lt) (.identifier "a") (.number 5)))) =
        .ok (.unary .not (.binary (.comparison .lt) (.identifier "a") (.number 5))) := by
  let e : Expr := .unary .not (.binary (.comparison .lt) (.identifier "a") (.number 5))
  let d : ParseTree (.unary .not) :=
    .unary .not (.plain (.chain (.ofAtom (.identifier "a"))
      (.cons (.comparison .lt) rfl (.ofAtom (.number 5)) .nil)))
  have hcuts : Token.Cuts "not a < 5".toList d.tokens [] :=
    (Token.Cuts.keyword "not" (by simp) (.space _)).trans <|
      .space (by decide) <| (Token.Cuts.nameA (.space _)).trans <|
      .space (by decide) <| (Token.Cuts.comparison .lt _).trans <| .space (by decide) (.five .nil)
  have hread : parse "not a < 5" = .ok e := parse_eq_ok d hcuts (by decide) (by decide)
  refine ⟨hread, (parse_render_eq_ok_iff hread ?_ (by decide) (by decide)).mpr ⟨?_, ?_⟩⟩
  · intro value hvalue
    obtain rfl : value = 5 := by simpa [e, leaves] using hvalue
    decide +kernel
  · intro s hs
    simp [e, leaves] at hs
  · simp [e, NegationsApart, IsNegation]

/-- The text `a\b`, written with its backslash doubled, is shown with a single one and reads back
as `ab`. The expression `(not a) == b` is shown as `(not (a) == b)`, and that is read as
`not (a == b)`. -/
theorem exists_parse_render_ne :
    (∃ e, parse "'a\\\\b'" = .ok e ∧
        (∀ value, .number value ∈ e.leaves → Number.isFinite value = true) ∧
        e.shown.length ≤ 1024 ∧ e.shownNesting ≤ 64 ∧ parse e.render ≠ .ok e) ∧
      ∃ e, parse "(not a) == b" = .ok e ∧
        (∀ value, .number value ∈ e.leaves → Number.isFinite value = true) ∧
        e.shown.length ≤ 1024 ∧ e.shownNesting ≤ 64 ∧ parse e.render ≠ .ok e := by
  constructor
  · let e : Expr := .text "a\\b"
    let d : ParseTree .operand := .atom (.text "a\\b")
    have hcuts : Token.Cuts "'a\\\\b'".toList d.tokens [] :=
      .token (by decide) (fun _ ↦ ⟨by decide, rfl⟩) (.nil [])
    have hread : parse "'a\\\\b'" = .ok e := parse_eq_ok d hcuts (by decide) (by decide)
    have hfinite : ∀ value, .number value ∈ e.leaves → Number.isFinite value = true := by
      simp [e, leaves]
    refine ⟨e, hread, hfinite, by decide, by decide, fun hback ↦ ?_⟩
    exact not_slashed_of_parse_render (writable_of_parse hread hfinite) hback _ (.head _)
      ⟨"a\\b", rfl, by decide⟩
  · let e : Expr := .binary (.comparison .eq) (.unary .not (.identifier "a")) (.identifier "b")
    let negation : ParseTree (.unary .not) :=
      .unary .not (.plain (.chain (.ofAtom (.identifier "a")) .nil))
    let signed : ParseTree (.unary .neg) :=
      .plain (.parenthesized (.chain (.chain negation .nil) .nil))
    let left : ParseTree (.chain .sum) :=
      .chain (t := .sum) (.chain (t := .product) signed .nil) .nil
    let d : ParseTree (.chain .comparison) :=
      .chain left (.cons (.comparison .eq) rfl (.ofAtom (.identifier "b")) .nil)
    have hcuts : Token.Cuts "(not a) == b".toList d.tokens [] :=
      (Token.Cuts.symbol (by decide) rfl _).trans <|
        (Token.Cuts.keyword "not" (by simp) (.space _)).trans <|
        .space (by decide) <| (Token.Cuts.nameA (.rightParen _)).trans <|
        (Token.Cuts.symbol (by decide) rfl _).trans <|
        .space (by decide) <| (Token.Cuts.comparison .eq _).trans <|
        .space (by decide) (.nameB .nil)
    have hread : parse "(not a) == b" = .ok e := parse_eq_ok d hcuts (by decide) (by decide)
    have hfinite : ∀ value, .number value ∈ e.leaves → Number.isFinite value = true := by
      simp [e, leaves]
    refine ⟨e, hread, hfinite, by decide, by decide, fun hback ↦ ?_⟩
    have hapart := negationsApart_of_parse_render (writable_of_parse hread hfinite) hback
    simp [e, NegationsApart, IsNegation] at hapart

end Expr

end DataQuality
