import DataQuality.Proofs.Lexemes
import DataQuality.Proofs.ParseTrees

/-!
# Expressions as they are shown

The tokens that an expression is shown as, and how its text is cut into them: as they are, unless a
text with a backslash stands among them. Up to the first of these the tokens are still right, and
what that text is read as is another one.
-/

namespace DataQuality

open Token (Cuts Delimits FromText)

/-! ### Tokens and leaves -/

namespace Expr

/-- The operands of one token, from left to right. -/
def leaves : Expr → List Atom
  | number value => [.number value]
  | text value => [.text value]
  | bool value => [.bool value]
  | null => [.null]
  | identifier name => [.identifier name]
  | unary _ operand => operand.leaves
  | binary _ left right => left.leaves ++ right.leaves

/-- The tokens that the expression is shown as. -/
def shown : Expr → List Token
  | number value => [.number value]
  | text value => [.text value]
  | bool value => [.bool value]
  | null => [.null]
  | identifier name => [.identifier name]
  | unary op operand => op.token :: .leftParen :: (operand.shown ++ [.rightParen])
  | binary op left right =>
    .leftParen :: (left.shown ++ op.token :: (right.shown ++ [.rightParen]))

/-- How deeply parentheses, `not` and minus signs nest where the expression is shown. -/
def shownNesting : Expr → Nat
  | unary _ operand => operand.shownNesting + 2
  | binary _ left right => max left.shownNesting right.shownNesting + 1
  | _ => 0

end Expr

/-! ### The lexemes of an expression -/

/-- An operand of one token that is written so that it reads back. -/
structure Atom.Writable (a : Atom) : Prop where
  fromText : a.token.FromText
  finite : ∀ value, a = .number value → Number.isFinite value = true

/-- Whether an operand is a text with a backslash. -/
def Atom.Slashed (a : Atom) : Prop := ∃ s, a = .text s ∧ '\\' ∈ s.toList

variable {rest : List Char}

theorem Token.Cuts.atom {a : Atom} (h : a.Writable) (hplain : ¬ a.Slashed) (hrest : Delimits rest) :
    Cuts (a.expr.render.toList ++ rest) [a.token] rest := by
  cases a with
  | number value => exact .number h.fromText (h.finite value rfl) hrest
  | text value => exact .text (fun hmem ↦ hplain ⟨value, rfl, hmem⟩) rest
  | bool value =>
    cases value
    · exact .keyword "false" (by simp) hrest
    · exact .keyword "true" (by simp) hrest
  | null => exact .keyword "null" (by simp) hrest
  | identifier name =>
    obtain ⟨htoken, hword⟩ := h.fromText.identifier name rfl
    have hcuts := Cuts.ofWord hword hrest
    rwa [htoken] at hcuts

/-- An operator between two operands, in front of a space. -/
theorem Token.Cuts.binaryOp (op : BinaryOp) (cs : List Char) :
    Cuts (op.symbol.toList ++ ' ' :: cs) [op.token] (' ' :: cs) := by
  cases op with
  | arithmetic op => cases op <;> exact .symbol (by decide) rfl _
  | comparison op => exact .comparison op cs
  | connective op =>
    cases op
    · exact .keyword "and" (by simp) (.space cs)
    · exact .keyword "or" (by simp) (.space cs)

/-- An operator in front of its operand, and the parenthesis behind it. -/
theorem Token.Cuts.unaryOp (op : UnaryOp) (operand : Expr) (cs : List Char) :
    Cuts ((Expr.unary op operand).render.toList ++ cs) [op.token, .leftParen]
      (operand.render.toList ++ ')' :: cs) := by
  cases op with
  | neg =>
    have htext : (Expr.unary .neg operand).render.toList ++ cs =
        '-' :: '(' :: (operand.render.toList ++ ')' :: cs) := by simp [Expr.render]
    rw [htext]
    exact (Cuts.symbol (by decide) rfl _).trans (.symbol (by decide) rfl _)
  | not =>
    have htext : (Expr.unary .not operand).render.toList ++ cs =
        "not".toList ++ ' ' :: '(' :: (operand.render.toList ++ ')' :: cs) := by simp [Expr.render]
    rw [htext]
    exact (Cuts.keyword "not" (by simp) (.space _)).trans
      (.space (by decide) (.symbol (by decide) rfl _))

theorem Expr.toList_render_binary (op : BinaryOp) (left right : Expr) (cs : List Char) :
    (Expr.binary op left right).render.toList ++ cs =
      '(' :: (left.render.toList ++ ' ' :: (op.symbol.toList ++ ' ' ::
        (right.render.toList ++ ')' :: cs))) := by
  simp [Expr.render]

/-- An expression without backslashes is cut into the tokens that it is shown as. -/
theorem Expr.cuts_render {e : Expr} (h : ∀ a ∈ e.leaves, a.Writable)
    (hplain : ∀ a ∈ e.leaves, ¬ a.Slashed) (hrest : Delimits rest) :
    Cuts (e.render.toList ++ rest) e.shown rest := by
  induction e generalizing rest with
  | number value => exact Cuts.atom (a := .number value) (h _ (.head _)) (hplain _ (.head _)) hrest
  | text value => exact Cuts.atom (a := .text value) (h _ (.head _)) (hplain _ (.head _)) hrest
  | bool value => exact Cuts.atom (a := .bool value) (h _ (.head _)) (hplain _ (.head _)) hrest
  | null => exact Cuts.atom (a := .null) (h _ (.head _)) (hplain _ (.head _)) hrest
  | identifier name =>
    exact Cuts.atom (a := .identifier name) (h _ (.head _)) (hplain _ (.head _)) hrest
  | unary op operand ih =>
    have hclose : Cuts (')' :: rest) [.rightParen] rest := .symbol (by decide) rfl rest
    exact (Cuts.unaryOp op operand rest).trans ((ih h hplain (.rightParen rest)).trans hclose)
  | binary op left right ihl ihr =>
    obtain ⟨hl, hr⟩ := List.forall_mem_append.mp h
    obtain ⟨hpl, hpr⟩ := List.forall_mem_append.mp hplain
    have hclose : Cuts (')' :: rest) [.rightParen] rest := .symbol (by decide) rfl rest
    rw [toList_render_binary]
    refine (Cuts.symbol (by decide) rfl _).trans ((ihl hl hpl (.space _)).trans ?_)
    refine .space (by decide) ((Cuts.binaryOp op _).trans (.space (by decide) ?_))
    exact (ihr hr hpr (.rightParen rest)).trans hclose

/-- Up to its first text with a backslash an expression is cut into the tokens that it is shown
as. -/
theorem Expr.exists_cuts_render {e : Expr} (h : ∀ a ∈ e.leaves, a.Writable)
    (hslashed : ∃ a ∈ e.leaves, a.Slashed) (hrest : Delimits rest) :
    ∃ (before after : List Token) (s : String) (behind : List Char),
      e.shown = before ++ .text s :: after ∧ '\\' ∈ s.toList ∧
        Cuts (e.render.toList ++ rest) before
          ('\'' :: (Token.escapeQuotes s.toList ++ '\'' :: behind)) := by
  induction e generalizing rest with
  | text value =>
    obtain ⟨a, ha, s, rfl, hs⟩ := hslashed
    obtain rfl : s = value := Atom.text.inj (List.mem_singleton.mp ha)
    refine ⟨[], [], s, rest, rfl, hs, ?_⟩
    have htext : (Expr.text s).render.toList ++ rest =
        '\'' :: (Token.escapeQuotes s.toList ++ '\'' :: rest) := by
      rw [Expr.render, Token.toList_quoteText]
      simp
    rw [htext]
    exact .nil _
  | unary op operand ih =>
    obtain ⟨before, after, s, behind, hshown, hs, hcuts⟩ := ih h hslashed (.rightParen rest)
    refine ⟨op.token :: .leftParen :: before, after ++ [.rightParen], s, behind, ?_, hs,
      (Cuts.unaryOp op operand rest).trans hcuts⟩
    simp [shown, hshown]
  | binary op left right ihl ihr =>
    obtain ⟨hl, hr⟩ := List.forall_mem_append.mp h
    rw [toList_render_binary]
    by_cases hleft : ∃ a ∈ left.leaves, a.Slashed
    · obtain ⟨before, after, s, behind, hshown, hs, hcuts⟩ := ihl hl hleft (.space _)
      refine ⟨.leftParen :: before, after ++ op.token :: (right.shown ++ [.rightParen]), s, behind,
        ?_, hs, (Cuts.symbol (by decide) rfl _).trans hcuts⟩
      simp [shown, hshown]
    · have hright : ∃ a ∈ right.leaves, a.Slashed := by
        obtain ⟨a, ha, hslash⟩ := hslashed
        obtain ha | ha := List.mem_append.mp ha
        · exact absurd ⟨a, ha, hslash⟩ hleft
        · exact ⟨a, ha, hslash⟩
      have hplain : ∀ a ∈ left.leaves, ¬ a.Slashed := fun a ha hslash ↦ hleft ⟨a, ha, hslash⟩
      obtain ⟨before, after, s, behind, hshown, hs, hcuts⟩ := ihr hr hright (.rightParen rest)
      refine ⟨.leftParen :: (left.shown ++ op.token :: before), after ++ [.rightParen], s, behind,
        ?_, hs, ?_⟩
      · simp [shown, hshown]
      · refine (Cuts.symbol (by decide) rfl _).trans ((cuts_render hl hplain (.space _)).trans ?_)
        exact .space (by decide) ((Cuts.binaryOp op _).trans (.space (by decide) hcuts))
  | number value => obtain ⟨a, ha, s, rfl, -⟩ := hslashed; cases List.mem_singleton.mp ha
  | bool value => obtain ⟨a, ha, s, rfl, -⟩ := hslashed; cases List.mem_singleton.mp ha
  | null => obtain ⟨a, ha, s, rfl, -⟩ := hslashed; cases List.mem_singleton.mp ha
  | identifier name => obtain ⟨a, ha, s, rfl, -⟩ := hslashed; cases List.mem_singleton.mp ha

/-! ### Tokens of the text -/

/-- Without backslashes the text of an expression is cut into the tokens that it is shown as. -/
theorem Expr.tokenize_render {e : Expr} (h : ∀ a ∈ e.leaves, a.Writable)
    (hplain : ∀ a ∈ e.leaves, ¬ a.Slashed) :
    ∃ placed, tokenize e.render = .ok placed ∧ placed.map Placed.token = e.shown := by
  have hcuts := cuts_render h hplain .nil
  rw [List.append_nil] at hcuts
  exact hcuts.tokenize_eq

/-- With a backslash it is not: some text in it is cut into another one. -/
theorem Expr.exists_of_tokenize_render {e : Expr} {placed : List Placed}
    (h : ∀ a ∈ e.leaves, a.Writable) (hslashed : ∃ a ∈ e.leaves, a.Slashed)
    (htokens : tokenize e.render = .ok placed) :
    ∃ (before after after' : List Token) (s s' : String),
      e.shown = before ++ .text s :: after ∧
        placed.map Placed.token = before ++ .text s' :: after' ∧ s' ≠ s := by
  obtain ⟨before, after, s, behind, hshown, hs, hcuts⟩ := exists_cuts_render h hslashed .nil
  rw [List.append_nil] at hcuts
  obtain ⟨front, next, hfront, hscan⟩ := hcuts.scanAll_eq 0
  rw [tokenize, hscan] at htokens
  obtain ⟨back, hback, rfl⟩ := exists_of_map_eq_ok htokens
  obtain ⟨s', after', hbacktokens, hne⟩ := Token.exists_text_of_scanAll hs hback
  refine ⟨before, after, after', s, s', hshown, ?_, hne⟩
  rw [List.map_append, hfront, hbacktokens]

end DataQuality
