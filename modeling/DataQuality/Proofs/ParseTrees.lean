import DataQuality.Expr.Grammar

/-!
# Parse trees

The derivations of the grammar of expressions as data, apart from any way of reading them: what a
derivation is written as, how deeply it nests and which expression it stands for. A list of tokens
has one derivation at most.
-/

namespace DataQuality

/-! ### The grammar -/

/-- The kinds of operators that stand between two operands, loosest first. -/
inductive Tier where
  | disjunction
  | conjunction
  | comparison
  | sum
  | product
  deriving DecidableEq, Repr

/-- The left sides of the rules: operands of a tier with its operators between them, a unary
operator that may be left out, and a single operand. -/
inductive Nonterminal where
  | chain (t : Tier)
  | unary (op : UnaryOp)
  | operand
  deriving DecidableEq, Repr

/-- What an operator between two operands is written as. -/
def BinaryOp.token : BinaryOp → Token
  | .arithmetic .add => .plus
  | .arithmetic .sub => .minus
  | .arithmetic .mul => .star
  | .arithmetic .div => .slash
  | .comparison op => .comparison op
  | .connective op => .connective op

/-- What an operator before its operand is written as. -/
def UnaryOp.token : UnaryOp → Token
  | .neg => .minus
  | .not => .not

/-- The tier of an operator. -/
def BinaryOp.tier : BinaryOp → Tier
  | .arithmetic .add | .arithmetic .sub => .sum
  | .arithmetic .mul | .arithmetic .div => .product
  | .comparison _ => .comparison
  | .connective .and => .conjunction
  | .connective .or => .disjunction

/-- What the operators of a tier stand between. -/
def Tier.operand : Tier → Nonterminal
  | .disjunction => .chain .conjunction
  | .conjunction => .unary .not
  | .comparison => .chain .sum
  | .sum => .chain .product
  | .product => .unary .neg

/-- What stands where a unary operator is left out. -/
def UnaryOp.operand : UnaryOp → Nonterminal
  | .not => .chain .comparison
  | .neg => .operand

/-- The operands that are written as one token. -/
inductive Atom where
  | number (value : Float)
  | text (value : String)
  | bool (value : Bool)
  | null
  | identifier (name : String)

/-- What such an operand is written as. -/
def Atom.token : Atom → Token
  | .number value => .number value
  | .text value => .text value
  | .bool value => .bool value
  | .null => .null
  | .identifier name => .identifier name

/-- The expression that such an operand stands for. -/
def Atom.expr : Atom → Expr
  | .number value => .number value
  | .text value => .text value
  | .bool value => .bool value
  | .null => .null
  | .identifier name => .identifier name

/-- An expression. -/
abbrev Nonterminal.start : Nonterminal := .chain .disjunction

mutual

/-- A derivation from a left side. -/
inductive ParseTree : Nonterminal → Type
  | chain {t : Tier} (first : ParseTree t.operand) (steps : ParseSteps t) : ParseTree (.chain t)
  | unary (op : UnaryOp) (inner : ParseTree (.unary op)) : ParseTree (.unary op)
  | plain {op : UnaryOp} (inner : ParseTree op.operand) : ParseTree (.unary op)
  | atom (a : Atom) : ParseTree .operand
  | parenthesized (inner : ParseTree .start) : ParseTree .operand

/-- Derivations of the operators of a tier with an operand behind each. -/
inductive ParseSteps : Tier → Type
  | nil {t : Tier} : ParseSteps t
  | cons {t : Tier} (op : BinaryOp) (fits : op.tier = t) (operand : ParseTree t.operand)
      (rest : ParseSteps t) : ParseSteps t

end

mutual

/-- What a derivation is written as. -/
def ParseTree.tokens : {n : Nonterminal} → ParseTree n → List Token
  | _, .chain first steps => first.tokens ++ steps.tokens
  | _, .unary op inner => op.token :: inner.tokens
  | _, .plain inner => inner.tokens
  | _, .atom a => [a.token]
  | _, .parenthesized inner => .leftParen :: inner.tokens ++ [.rightParen]

/-- What operators and their operands are written as. -/
def ParseSteps.tokens : {t : Tier} → ParseSteps t → List Token
  | _, .nil => []
  | _, .cons op _ operand rest => op.token :: operand.tokens ++ rest.tokens

end

mutual

/-- How many parentheses, `not` and minus signs are around each other at most. -/
def ParseTree.nesting : {n : Nonterminal} → ParseTree n → Nat
  | _, .chain first steps => max first.nesting steps.nesting
  | _, .unary _ inner => inner.nesting + 1
  | _, .plain inner => inner.nesting
  | _, .atom _ => 0
  | _, .parenthesized inner => inner.nesting + 1

/-- How deeply operands nest at most. -/
def ParseSteps.nesting : {t : Tier} → ParseSteps t → Nat
  | _, .nil => 0
  | _, .cons _ _ operand rest => max operand.nesting rest.nesting

end

/-- Operators of the same tier group to the left. -/
def groupLeft (first : Expr) (steps : List (BinaryOp × Expr)) : Expr :=
  steps.foldl (fun left step ↦ .binary step.1 left step.2) first

/-- A chain of comparisons compares each operand with the next. -/
def comparePairs (first : Expr) (steps : List (BinaryOp × Expr)) : List Expr :=
  List.zipWith (fun left step ↦ .binary step.1 left step.2) (first :: steps.map Prod.snd) steps

/-- The conjunction of the pairs that a chain compares, grouped to the left. -/
def conjoinPairs (first : Expr) (steps : List (BinaryOp × Expr)) : Expr :=
  match comparePairs first steps with
  | [] => first
  | pair :: pairs => pairs.foldl (.binary (.connective .and)) pair

/-- The expression that operands with operators of a tier between them stand for. -/
def Tier.group : Tier → Expr → List (BinaryOp × Expr) → Expr
  | .comparison => conjoinPairs
  | _ => groupLeft

mutual

/-- The expression that a derivation stands for. -/
def ParseTree.expr : {n : Nonterminal} → ParseTree n → Expr
  | _, @ParseTree.chain t first steps => t.group first.expr steps.operations
  | _, .unary op inner => .unary op inner.expr
  | _, .plain inner => inner.expr
  | _, .atom a => a.expr
  | _, .parenthesized inner => inner.expr

/-- The operators with the expressions behind them. -/
def ParseSteps.operations : {t : Tier} → ParseSteps t → List (BinaryOp × Expr)
  | _, .nil => []
  | _, .cons op _ operand rest => (op, operand.expr) :: rest.operations

end

/-! ### Where derivations begin and end -/

/-- How loosely a left side binds. -/
def Nonterminal.rank : Nonterminal → Nat
  | .operand => 0
  | .unary .neg => 1
  | .chain .product => 2
  | .chain .sum => 3
  | .chain .comparison => 4
  | .unary .not => 5
  | .chain .conjunction => 6
  | .chain .disjunction => 7

/-- A unary operator binds looser than what stands in its place. -/
theorem UnaryOp.rank_operand_lt (op : UnaryOp) :
    op.operand.rank < (Nonterminal.unary op).rank := by
  cases op <;> decide

/-- Operators bind looser than what stands between them. -/
theorem Tier.rank_operand_lt (t : Tier) : t.operand.rank < (Nonterminal.chain t).rank := by
  cases t <;> decide

/-- Operators are written differently. -/
theorem BinaryOp.token_inj {op op' : BinaryOp} (h : op.token = op'.token) : op = op' := by
  rcases op with op | op | op <;> rcases op' with op' | op' | op' <;> cases op <;> cases op' <;>
    simp_all [token]

/-- No operator is written as a closing parenthesis. -/
theorem BinaryOp.token_ne_rightParen (op : BinaryOp) : op.token ≠ .rightParen := by
  rcases op with op | op | op <;> cases op <;> exact Token.noConfusion

/-- Operands of one token are written differently. -/
theorem Atom.token_inj {a a' : Atom} (h : a.token = a'.token) : a = a' := by
  cases a <;> cases a' <;> cases h <;> rfl

/-- No operand of one token is written as an opening parenthesis. -/
theorem Atom.token_ne_leftParen (a : Atom) : a.token ≠ .leftParen := by
  cases a <;> exact Token.noConfusion

/-- Whether what follows does not go on with an operator that binds at least as tightly. -/
def Nonterminal.Ends (n : Nonterminal) (us : List Token) : Prop :=
  ∀ op : BinaryOp, us.head? = some op.token → n.rank < (chain op.tier).rank

namespace Nonterminal.Ends

variable {n m : Nonterminal} {us : List Token}

/-- The end of the tokens ends everything. -/
theorem nil : n.Ends [] := fun _ h ↦ by cases h

/-- A closing parenthesis ends everything. -/
theorem rightParen : n.Ends (.rightParen :: us) :=
  fun op h ↦ absurd (Option.some.inj h).symm op.token_ne_rightParen

/-- What ends a left side ends those that bind tighter. -/
theorem mono (h : n.Ends us) (hrank : m.rank ≤ n.rank) : m.Ends us :=
  fun op hop ↦ Nat.lt_of_le_of_lt hrank (h op hop)

end Nonterminal.Ends

/-- An operand ends at the operators that follow it. -/
theorem ParseSteps.ends {t : Tier} (steps : ParseSteps t) {us : List Token}
    (h : (Nonterminal.chain t).Ends us) : t.operand.Ends (steps.tokens ++ us) := by
  cases steps with
  | nil => exact h.mono (Nat.le_of_lt t.rank_operand_lt)
  | cons op fits operand rest =>
    intro other hother
    have heq : op = other := BinaryOp.token_inj (Option.some.inj hother)
    rw [← heq, fits]
    exact t.rank_operand_lt

/-- A derivation begins with a token, and with the sign of a unary operator only if it may stand
there. -/
theorem ParseTree.exists_head : {n : Nonterminal} → (d : ParseTree n) →
    ∃ tok rest, d.tokens = tok :: rest ∧
      ∀ op : UnaryOp, tok = op.token → (Nonterminal.unary op).rank ≤ n.rank
  | _, @ParseTree.chain t first steps => by
    obtain ⟨tok, rest, hfirst, hsign⟩ := first.exists_head
    refine ⟨tok, rest ++ steps.tokens, by simp [tokens, hfirst], fun op hop ↦ ?_⟩
    exact Nat.le_trans (hsign op hop) (Nat.le_of_lt t.rank_operand_lt)
  | _, .unary op inner => by
    refine ⟨op.token, inner.tokens, rfl, fun other hother ↦ ?_⟩
    cases op <;> cases other <;> first | exact Nat.le_refl _ | cases hother
  | _, @ParseTree.plain op inner => by
    obtain ⟨tok, rest, hinner, hsign⟩ := inner.exists_head
    refine ⟨tok, rest, hinner, fun other hother ↦ ?_⟩
    exact Nat.le_trans (hsign other hother) (Nat.le_of_lt op.rank_operand_lt)
  | _, .atom a => ⟨a.token, [], rfl, fun op h ↦ by cases op <;> cases a <;> cases h⟩
  | _, .parenthesized inner =>
    ⟨.leftParen, inner.tokens ++ [.rightParen], rfl, fun op h ↦ by cases op <;> cases h⟩

/-! ### Unambiguity -/

/-- A derivation with the sign left out does not begin with it. -/
theorem ParseTree.tokens_ne {op : UnaryOp} (inner : ParseTree op.operand)
    (us vs : List Token) : inner.tokens ++ us ≠ op.token :: vs := by
  intro h
  obtain ⟨tok, rest, htokens, hsign⟩ := inner.exists_head
  rw [htokens, List.cons_append] at h
  have hrank := hsign op (List.cons.inj h).1
  exact absurd op.rank_operand_lt (Nat.not_lt.mpr hrank)

mutual

/-- A derivation is known from its tokens, also where others follow that do not go on with it. -/
theorem ParseTree.unique : {n : Nonterminal} → (d d' : ParseTree n) → {us us' : List Token} →
    d.tokens ++ us = d'.tokens ++ us' → n.Ends us → n.Ends us' → d = d' ∧ us = us'
  | _, .chain first steps, .chain first' steps', us, us', h, hu, hu' => by
    simp only [ParseTree.tokens, List.append_assoc] at h
    obtain ⟨rfl, hsteps⟩ := ParseTree.unique first first' h (steps.ends hu) (steps'.ends hu')
    obtain ⟨rfl, hrest⟩ := ParseSteps.unique steps steps' hsteps hu hu'
    exact ⟨rfl, hrest⟩
  | .unary op, .unary _ inner, .unary _ inner', us, us', h, hu, hu' => by
    obtain ⟨rfl, hrest⟩ := ParseTree.unique inner inner' (List.cons.inj h).2 hu hu'
    exact ⟨rfl, hrest⟩
  | .unary op, .unary _ _, .plain inner, us, us', h, _, _ => absurd h.symm (inner.tokens_ne us' _)
  | .unary op, .plain inner, .unary _ _, us, us', h, _, _ => absurd h (inner.tokens_ne us _)
  | .unary op, .plain inner, .plain inner', us, us', h, hu, hu' => by
    have hle := Nat.le_of_lt op.rank_operand_lt
    obtain ⟨rfl, hrest⟩ := ParseTree.unique inner inner' h (hu.mono hle) (hu'.mono hle)
    exact ⟨rfl, hrest⟩
  | _, .atom a, .atom a', us, us', h, _, _ => by
    obtain ⟨htoken, hrest⟩ := List.cons.inj h
    obtain rfl := Atom.token_inj htoken
    exact ⟨rfl, hrest⟩
  | _, .atom a, .parenthesized _, us, us', h, _, _ =>
    absurd (List.cons.inj h).1 a.token_ne_leftParen
  | _, .parenthesized _, .atom a, us, us', h, _, _ =>
    absurd (List.cons.inj h).1.symm a.token_ne_leftParen
  | _, .parenthesized inner, .parenthesized inner', us, us', h, _, _ => by
    have hbehind := (List.cons.inj h).2
    simp only [List.append_eq, List.append_assoc] at hbehind
    obtain ⟨rfl, hrest⟩ := ParseTree.unique inner inner' hbehind .rightParen .rightParen
    exact ⟨rfl, (List.cons.inj hrest).2⟩

/-- Operators with their operands are known from their tokens likewise. -/
theorem ParseSteps.unique : {t : Tier} → (steps steps' : ParseSteps t) → {us us' : List Token} →
    steps.tokens ++ us = steps'.tokens ++ us' → (Nonterminal.chain t).Ends us →
    (Nonterminal.chain t).Ends us' → steps = steps' ∧ us = us'
  | _, .nil, .nil, us, us', h, _, _ => ⟨rfl, h⟩
  | _, .nil, .cons op fits operand rest, us, us', h, hu, _ => by
    have hlt := hu op (by rw [show us = _ from h]; rfl)
    rw [fits] at hlt
    exact absurd hlt (Nat.lt_irrefl _)
  | _, .cons op fits operand rest, .nil, us, us', h, _, hu' => by
    have hlt := hu' op (by rw [show us' = _ from h.symm]; rfl)
    rw [fits] at hlt
    exact absurd hlt (Nat.lt_irrefl _)
  | _, .cons op fits operand rest, .cons op' fits' operand' rest', us, us', h, hu, hu' => by
    obtain ⟨hop, hbehind⟩ := List.cons.inj h
    obtain rfl := BinaryOp.token_inj hop
    simp only [List.append_eq, List.append_assoc] at hbehind
    obtain ⟨rfl, hsteps⟩ :=
      ParseTree.unique operand operand' hbehind (rest.ends hu) (rest'.ends hu')
    obtain ⟨rfl, hrest⟩ := ParseSteps.unique rest rest' hsteps hu hu'
    exact ⟨rfl, hrest⟩

end

/-- The grammar is unambiguous: a list of tokens has one derivation at most. -/
theorem ParseTree.eq_of_tokens_eq {n : Nonterminal} {d d' : ParseTree n}
    (h : d.tokens = d'.tokens) : d = d' :=
  (@ParseTree.unique n d d' [] [] (by rw [h]) .nil .nil).1

end DataQuality
