import DataQuality.Proofs.ReadingTexts
import DataQuality.Proofs.TreeHeights

/-!
# Sizes of trees

A chain of comparisons holds each operand between two comparisons twice. Where such operands are
inside each other their nodes are doubled once for each, so the size of an expression is not bounded
by the square of the number of its tokens: it is as long as they are no more than seven deep.
-/

namespace DataQuality

/-! ### Grouping -/

/-- How often the operand of a step is doubled: once if comparisons stand on both sides of it. -/
def Tier.doublings (t : Tier) (last : Bool) : Nat :=
  if t = .comparison ∧ last = false then 1 else 0

/-- What the steps of a group add to the size of its first operand. -/
def Tier.addedSize (t : Tier) : List (BinaryOp × Expr) → Nat
  | [] => 0
  | step :: steps => 2 ^ t.doublings steps.isEmpty * (step.2.size + 1) + t.addedSize steps

theorem size_groupLeft (first : Expr) (steps : List (BinaryOp × Expr)) :
    (groupLeft first steps).size = first.size + (steps.map fun step ↦ step.2.size + 1).sum := by
  induction steps generalizing first with
  | nil => rfl
  | cons step steps ih =>
    change (groupLeft (.binary step.1 first step.2) steps).size = _
    rw [ih, List.map_cons, List.sum_cons, Expr.size]
    omega

/-- Each comparison but the last takes its right operand once more. -/
theorem addedSize_comparison (step : BinaryOp × Expr) (steps : List (BinaryOp × Expr)) :
    Tier.comparison.addedSize (step :: steps) =
      step.2.size + 1 + ((comparePairs step.2 steps).map fun pair ↦ pair.size + 1).sum := by
  induction steps generalizing step with
  | nil => simp [Tier.addedSize, Tier.doublings, comparePairs]
  | cons next steps ih =>
    have hpairs : comparePairs step.2 (next :: steps) =
        .binary next.1 step.2 next.2 :: comparePairs next.2 steps := rfl
    rw [Tier.addedSize, ih, hpairs, List.map_cons, List.sum_cons, Expr.size]
    simp only [Tier.doublings, List.isEmpty_cons, and_self, if_true]
    omega

/-- The size of a group is that of its operands and operators, each doubled as often as its step
says. -/
theorem Tier.size_group (t : Tier) (first : Expr) (steps : List (BinaryOp × Expr)) :
    (t.group first steps).size = first.size + t.addedSize steps := by
  by_cases ht : t = .comparison
  · subst ht
    cases steps with
    | nil => rfl
    | cons step steps =>
      change (conjoinPairs first (step :: steps)).size = _
      rw [conjoinPairs_cons, size_groupLeft, addedSize_comparison, Expr.size, List.map_map]
      simp only [Function.comp_def]
      omega
  · have hadded : t.addedSize steps = (steps.map fun step ↦ step.2.size + 1).sum := by
      induction steps with
      | nil => rfl
      | cons step steps ih => simp [addedSize, doublings, ht, ih]
    have hgroup : t.group = groupLeft := by
      cases t with
      | comparison => exact absurd rfl ht
      | _ => rfl
    rw [hgroup, hadded, size_groupLeft]

/-! ### Operands inside each other -/

mutual

/-- How many operands with comparisons on both sides are inside each other at most. -/
def ParseTree.repetition : {n : Nonterminal} → ParseTree n → Nat
  | _, .chain first steps => max first.repetition steps.repetition
  | _, .unary _ inner => inner.repetition
  | _, .plain inner => inner.repetition
  | _, .atom _ => 0
  | _, .parenthesized inner => inner.repetition

/-- How deep they are in operators with their operands. -/
def ParseSteps.repetition : {t : Tier} → ParseSteps t → Nat
  | _, .nil => 0
  | t, .cons _ _ operand rest =>
    max (operand.repetition + t.doublings rest.operations.isEmpty) rest.repetition

end

/-- What `size` nodes cost at least, in `tokens` of which `depth` doublings are inside each other:
each takes parentheses and two more operands with their operators. The outermost takes no
parentheses where none are needed, which `slack` allows for, and the steps of a group have one
`extra` operator. -/
structure SizeBound (extra slack depth tokens size : Nat) : Prop where
  linear : ∀ k, depth ≤ k → size + (extra + 1) * 2 ^ k ≤ 2 ^ k * tokens + (extra + 1)
  nested : size + 5 + extra + 6 * depth * 2 ^ depth ≤ 2 ^ depth * (tokens + slack + extra)

namespace SizeBound

variable {extra slack slack' depth depth' tokens tokens' size size' : Nat}

theorem mono (h : SizeBound extra slack depth tokens size) (hslack : slack ≤ slack') :
    SizeBound extra slack' depth tokens size where
  linear := h.linear
  nested := by
    have hslack := Nat.mul_le_mul_left (2 ^ depth) hslack
    have hnested := h.nested
    linarith

/-- A node of its own. -/
theorem atom : SizeBound 0 5 0 1 1 where
  linear k _ := by omega
  nested := by decide

/-- An operator in front of an operand. -/
theorem unary (h : SizeBound 0 slack depth tokens size) :
    SizeBound 0 slack depth (tokens + 1) (size + 1) where
  linear k hk := by
    have hlinear := h.linear k hk
    have hpos := Nat.one_le_two_pow (n := k)
    linarith
  nested := by
    have hnested := h.nested
    have hpos := Nat.one_le_two_pow (n := depth)
    linarith

/-- Parentheses, which allow for what stands in them. -/
theorem parenthesized (h : SizeBound 0 7 depth tokens size) :
    SizeBound 0 5 depth (tokens + 2) size where
  linear k hk := by
    have hlinear := h.linear k hk
    have hpos := Nat.one_le_two_pow (n := k)
    linarith
  nested := by
    have hnested := h.nested
    linarith

/-- One step of a group. -/
theorem step (h : SizeBound 0 slack depth tokens size) :
    SizeBound 1 slack depth (tokens + 1) (size + 1) where
  linear k hk := by
    have hlinear := h.linear k hk
    linarith
  nested := by
    have hnested := h.nested
    have hpos := Nat.one_le_two_pow (n := depth)
    linarith

/-- Steps behind a first operand or behind other steps. -/
theorem append (h : SizeBound extra slack depth tokens size)
    (hsteps : SizeBound 1 slack depth' tokens' size') :
    SizeBound extra slack (max depth depth') (tokens + tokens') (size + size') where
  linear k hk := by
    have hlinear := h.linear k (le_of_max_le_left hk)
    have hsteps := hsteps.linear k (le_of_max_le_right hk)
    have hpos := Nat.one_le_two_pow (n := k)
    linarith
  nested := by
    -- What is deepest counts for the depth, what is less deep for its tokens only.
    obtain hle | hle := Nat.le_total depth' depth
    · have hnested := h.nested
      have hsteps := hsteps.linear depth hle
      have hpos := Nat.one_le_two_pow (n := depth)
      rw [max_eq_left hle]
      linarith
    · have hlinear := h.linear depth' hle
      have hsteps := hsteps.nested
      have hextra := Nat.le_mul_of_pos_right extra (Nat.two_pow_pos depth')
      rw [max_eq_right hle]
      linarith

/-- A step whose operand is doubled, in front of others. -/
theorem doubledStep (h : SizeBound 0 slack depth tokens size)
    (hrest : SizeBound 1 (slack + 2) depth' tokens' size') :
    SizeBound 1 (slack + 2) (max (depth + 1) depth') (tokens + 1 + tokens')
      (2 * (size + 1) + size') where
  linear k hk := by
    obtain ⟨k, rfl⟩ := Nat.exists_eq_add_of_le' (le_of_max_le_left hk)
    have hlinear := h.linear (depth + k) (Nat.le_add_right _ _)
    have hrest := hrest.linear (k + (depth + 1)) (le_of_max_le_right hk)
    have hpow : 2 ^ (k + (depth + 1)) = 2 ^ (depth + k) * 2 := by ring
    have hpos := Nat.one_le_two_pow (n := depth + k)
    rw [hpow] at hrest ⊢
    linarith
  nested := by
    obtain hle | hle := Nat.le_total depth' (depth + 1)
    · have hnested := h.nested
      have hrest := hrest.linear (depth + 1) hle
      rw [max_eq_left hle]
      rw [pow_succ] at hrest ⊢
      linarith
    · obtain ⟨k, rfl⟩ := Nat.exists_eq_add_of_le' hle
      have hlinear := h.linear (depth + k) (Nat.le_add_right _ _)
      have hrest := hrest.nested
      have hpow : 2 ^ (k + (depth + 1)) = 2 ^ (depth + k) * 2 := by ring
      have hpos := Nat.one_le_two_pow (n := depth + k)
      rw [max_eq_right hle]
      rw [hpow] at hrest ⊢
      linarith

end SizeBound

/-- Whether there may be a doubled operand that takes no parentheses. -/
def Nonterminal.slack (n : Nonterminal) : Nat :=
  if n.rank < Nonterminal.rank (.chain .comparison) then 5 else 7

theorem Tier.slack_operand_le (t : Tier) : t.operand.slack ≤ (Nonterminal.chain t).slack := by
  cases t <;> decide

theorem UnaryOp.slack_operand_le (op : UnaryOp) :
    op.operand.slack ≤ (Nonterminal.unary op).slack := by
  cases op <;> decide

/-- A step in front of others is doubled if its tier says so. -/
theorem Tier.stepBound (t : Tier) {depth depth' tokens tokens' size size' : Nat}
    (h : SizeBound 0 t.operand.slack depth tokens size)
    (hrest : SizeBound 1 (Nonterminal.chain t).slack depth' tokens' size') :
    SizeBound 1 (Nonterminal.chain t).slack (max (depth + t.doublings false) depth')
      (tokens + 1 + tokens') (2 ^ t.doublings false * (size + 1) + size') := by
  by_cases ht : t = .comparison
  · subst ht
    exact h.doubledStep hrest
  · have hzero : t.doublings false = 0 := if_neg fun h ↦ ht h.1
    rw [hzero, pow_zero, Nat.one_mul]
    exact (h.mono t.slack_operand_le).step.append hrest

mutual

/-- An expression costs its tokens. -/
theorem ParseTree.sizeBound : {n : Nonterminal} → (d : ParseTree n) →
    SizeBound 0 n.slack d.repetition d.tokens.length d.expr.size
  | _, @ParseTree.chain t first steps => by
    have hfirst := first.sizeBound.mono t.slack_operand_le
    have hsteps := steps.sizeBound
    rw [ParseTree.expr, ParseTree.tokens, ParseTree.repetition, t.size_group, List.length_append]
    cases steps with
    | nil =>
      simpa [ParseSteps.repetition, ParseSteps.tokens, ParseSteps.operations, Tier.addedSize] using
        hfirst
    | cons op fits operand rest => exact hfirst.append (hsteps (by simp))
  | _, .unary op inner => inner.sizeBound.unary
  | _, @ParseTree.plain op inner => inner.sizeBound.mono op.slack_operand_le
  | _, .atom a => by cases a <;> exact SizeBound.atom
  | _, .parenthesized inner => by
    have hlength : (ParseTree.parenthesized inner).tokens.length = inner.tokens.length + 2 := by
      simp [ParseTree.tokens]
    rw [hlength]
    exact inner.sizeBound.parenthesized

/-- So do operators with their operands, of which there is at least one. -/
theorem ParseSteps.sizeBound : {t : Tier} → (steps : ParseSteps t) → steps ≠ .nil →
    SizeBound 1 (Nonterminal.chain t).slack steps.repetition steps.tokens.length
      (t.addedSize steps.operations)
  | _, .nil => fun h ↦ absurd rfl h
  | t, .cons op fits operand rest => fun _ ↦ by
    have hoperand := operand.sizeBound
    have hrest := rest.sizeBound
    cases rest with
    | nil =>
      simpa [ParseSteps.repetition, ParseSteps.tokens, ParseSteps.operations, Tier.addedSize,
        Tier.doublings] using (hoperand.mono t.slack_operand_le).step
    | cons op' fits' operand' rest =>
      rw [ParseSteps.tokens, List.cons_append, List.length_cons, List.length_append,
        Nat.add_right_comm]
      exact t.stepBound hoperand (hrest (by simp))

end

/-! ### Sizes -/

theorem SizeBound.le_square {slack depth tokens size : Nat}
    (h : SizeBound 0 slack depth tokens size)
    (hslack : slack ≤ 7) (hdepth : depth ≤ 7) : size ≤ tokens ^ 2 := by
  cases depth with
  | zero =>
    have hlinear := h.linear 0 (Nat.le_refl 0)
    have hself := Nat.le_self_pow two_ne_zero tokens
    omega
  | succ k =>
    have hnested := (h.mono hslack).nested
    have hmean : 2 * (2 ^ k * tokens) ≤ tokens ^ 2 + (2 ^ k) ^ 2 := by
      have hsquare := two_mul_le_add_sq tokens (2 ^ k)
      linarith
    -- Up to the seventh doubling the tokens that nesting costs make up for it.
    have hcost : (2 ^ k) ^ 2 + 2 * 2 ^ k ≤ 12 * k * 2 ^ k + 5 := by
      have hk : k ≤ 6 := Nat.le_of_succ_le_succ hdepth
      interval_cases k <;> decide
    rw [pow_succ] at hnested
    linarith

/-- The size of an expression that is read, by how deep operands with comparisons on both sides are
inside each other: it has no more nodes than tokens without such operands, at most as many as the
square of the tokens if they are no more than seven deep, and in general each of them doubles the
bound but takes six tokens from it. -/
theorem Expr.size_le_of_repetition {ts : List Placed} {e : Expr} (h : Expr.ofTokens ts = .ok e) :
    ∃ d : ParseTree .start, d.tokens = ts.map Placed.token ∧ d.expr = e ∧
      (d.repetition ≤ 7 → e.size ≤ ts.length ^ 2) ∧
      (d.repetition = 0 → e.size ≤ ts.length) ∧
      (0 < d.repetition →
        e.size + 5 ≤ 2 ^ d.repetition * (ts.length + 7 - 6 * d.repetition)) := by
  obtain ⟨-, -, d, htokens, -, rfl⟩ := Expr.exists_of_ofTokens_eq_ok h
  have hbound : SizeBound 0 7 d.repetition ts.length d.expr.size := by
    have hd := d.sizeBound
    rwa [htokens, List.length_map] at hd
  refine ⟨d, htokens, rfl, hbound.le_square (Nat.le_refl 7), fun hzero ↦ ?_, fun _ ↦ ?_⟩
  · have hlinear := hbound.linear 0 (Nat.le_of_eq hzero)
    omega
  · have hnested := hbound.nested
    rw [Nat.mul_sub]
    refine Nat.le_sub_of_add_le ?_
    linarith

/-- Of the chain `a < (a < a < a) < a`, eleven tokens long, two middle operands are inside each
other, and its 19 nodes are what the bound allows for. -/
theorem Expr.size_comparing_nested_one :
    let d := (ParseTree.nested (.ofAtom (.identifier "a")) 1).comparing
    d.placed.length = 11 ∧ d.repetition = 2 ∧ d.expr.size = 19 ∧ d.expr.size ≤ d.placed.length ^ 2 ∧
      d.expr.size + 5 ≤ 2 ^ 2 * (d.placed.length + 7 - 6 * 2) := by
  intro d
  have hread : Expr.ofTokens d.placed = .ok d.expr := d.ofTokens_placed (by decide) (by decide)
  obtain ⟨d', htokens, -, hsquare, -, hbound⟩ := size_le_of_repetition hread
  obtain rfl : d' = d := ParseTree.eq_of_tokens_eq (htokens.trans d.map_token_placed)
  exact ⟨rfl, rfl, rfl, hsquare (by decide), hbound (by decide)⟩

/-! ### Comparisons inside each other -/

namespace ParseTree

variable (inner : ParseTree (.chain .sum))

theorem size_comparing (middle : ParseTree (.chain .sum)) :
    middle.comparing.expr.size = 2 * middle.expr.size + 5 := by
  change (1 + middle.expr.size + 1) + (middle.expr.size + 1 + 1) + 1 = _
  omega

theorem size_nested (count : Nat) :
    (inner.nested count).expr.size + 5 = 2 ^ count * (inner.expr.size + 5) := by
  induction count with
  | zero => simp [nested]
  | succ count ih =>
    have hsize : (inner.nested (count + 1)).expr.size = (inner.nested count).comparing.expr.size :=
      rfl
    rw [hsize, size_comparing, pow_succ]
    linarith

theorem repetition_comparing (middle : ParseTree (.chain .sum)) :
    middle.comparing.repetition = middle.repetition + 1 := by
  simp [comparing, repetition, ParseSteps.repetition, ParseSteps.operations, ofAtom,
    Tier.doublings]
  rfl

theorem repetition_nested (count : Nat) :
    (inner.nested count).repetition = inner.repetition + count := by
  induction count with
  | zero => rfl
  | succ count ih =>
    have hinner : (inner.nested (count + 1)).repetition =
        (inner.nested count).comparing.repetition := by
      simp [nested, repetition, ParseSteps.repetition]
    rw [hinner, repetition_comparing, ih]
    rfl

theorem nesting_comparing (middle : ParseTree (.chain .sum)) :
    middle.comparing.nesting = middle.nesting := by
  simp [comparing, nesting, ParseSteps.nesting, ofAtom]
  rfl

theorem nesting_nested (count : Nat) : (inner.nested count).nesting = inner.nesting + count := by
  induction count with
  | zero => rfl
  | succ count ih =>
    have hinner : (inner.nested (count + 1)).nesting =
        (inner.nested count).comparing.nesting + 1 := by
      simp [nested, nesting, ParseSteps.nesting]
    rw [hinner, nesting_comparing, ih]
    rfl

/-- The bound on the size is attained, however deep comparisons are inside each other. -/
theorem size_comparing_nested (hinner : inner.repetition = 0)
    (hsize : inner.expr.size = inner.tokens.length) (count : Nat) :
    (inner.nested count).comparing.repetition = count + 1 ∧
      (inner.nested count).comparing.expr.size + 5 =
        2 ^ (count + 1) *
          ((inner.nested count).comparing.tokens.length + 7 - 6 * (count + 1)) := by
  have hlength : (inner.nested count).comparing.tokens.length + 7 - 6 * (count + 1) =
      inner.tokens.length + 5 := by
    simp only [tokens_comparing, List.length_cons, List.length_append, length_nested,
      List.length_nil]
    omega
  have hnested := inner.size_nested count
  refine ⟨by rw [repetition_comparing, repetition_nested, hinner, Nat.zero_add], ?_⟩
  rw [hlength, size_comparing, pow_succ, ← hsize]
  linarith

/-- The sum `a + a + a + a`. -/
def fourfold : ParseTree (.chain .sum) :=
  let name : ParseTree (.unary .neg) := .plain (.atom (.identifier "a"))
  let a : ParseTree (.chain .product) := .chain (t := .product) name .nil
  .chain (t := .sum) a (.cons (.arithmetic .add) rfl a (.cons (.arithmetic .add) rfl a
    (.cons (.arithmetic .add) rfl a .nil)))

end ParseTree

namespace Token.Cuts

variable {rest : List Char}

/-- The text of a chain `a < … < a`. -/
def comparingText (middle : List Char) : List Char :=
  'a' :: ' ' :: '<' :: ' ' :: (middle ++ [' ', '<', ' ', 'a'])

/-- The text of such chains in parentheses, one in the middle of the other. -/
def nestedText (inner : List Char) : Nat → List Char
  | 0 => inner
  | count + 1 => '(' :: (comparingText (nestedText inner count) ++ [')'])

theorem comparing {middle : List Char} {d : ParseTree (.chain .sum)}
    (h : ∀ {rest}, Delimits rest → Cuts (middle ++ rest) d.tokens rest) (hrest : Delimits rest) :
    Cuts (comparingText middle ++ rest) d.comparing.tokens rest := by
  have hlast : Cuts (' ' :: '<' :: ' ' :: 'a' :: rest) [.comparison .lt, .identifier "a"] rest :=
    .space (by decide) ((Cuts.comparison .lt _).trans (.space (by decide) (.nameA hrest)))
  have hmiddle := (h (.space ('<' :: ' ' :: 'a' :: rest))).trans hlast
  have hfirst : Cuts ('a' :: ' ' :: '<' :: ' ' :: (middle ++ ' ' :: '<' :: ' ' :: 'a' :: rest))
      [.identifier "a", .comparison .lt] (' ' :: (middle ++ ' ' :: '<' :: ' ' :: 'a' :: rest)) :=
    (Cuts.nameA (.space _)).trans (.space (by decide) (Cuts.comparison .lt _))
  rw [ParseTree.tokens_comparing]
  simpa [comparingText] using hfirst.trans (.space (by decide) hmiddle)

theorem nested {inner : List Char} {d : ParseTree (.chain .sum)}
    (h : ∀ {rest}, Delimits rest → Cuts (inner ++ rest) d.tokens rest) (count : Nat)
    (hrest : Delimits rest) :
    Cuts (nestedText inner count ++ rest) (d.nested count).tokens rest := by
  induction count generalizing rest with
  | zero => exact h hrest
  | succ count ih =>
    have hopen : Cuts ('(' :: (comparingText (nestedText inner count) ++ ')' :: rest)) [.leftParen]
        (comparingText (nestedText inner count) ++ ')' :: rest) := .symbol (by decide) rfl _
    have hclose : Cuts (')' :: rest) [.rightParen] rest := .symbol (by decide) rfl rest
    have hinner := Cuts.comparing ih (.rightParen rest)
    rw [ParseTree.tokens_nested_succ]
    simpa [nestedText] using hopen.trans (hinner.trans hclose)

theorem fourfold (hrest : Delimits rest) :
    Cuts ("a + a + a + a".toList ++ rest) ParseTree.fourfold.tokens rest := by
  have hplus {cs : List Char} {ts : List Token} (h : Cuts cs ts rest) :
      Cuts (' ' :: '+' :: ' ' :: cs) (.plus :: ts) rest :=
    .space (by decide) ((Cuts.symbol (by decide) rfl _).trans (.space (by decide) h))
  have hname {cs : List Char} {ts : List Token} (h : Cuts (' ' :: cs) ts rest) :
      Cuts ('a' :: ' ' :: cs) (.identifier "a" :: ts) rest := (Cuts.nameA (.space cs)).trans h
  exact hname (hplus (hname (hplus (hname (hplus (.nameA hrest))))))

end Token.Cuts

/-- Eight chains around a sum of four names are read, from 53 tokens, as an expression of 3067
nodes, which is more than the square of 53. -/
theorem Expr.square_lt_size_of_nested :
    ∃ ts e, tokenize
      "a < (a < (a < (a < (a < (a < (a < (a < a + a + a + a < a) < a) < a) < a) < a) < a) < a) < a"
        = .ok ts ∧
      Expr.ofTokens ts = .ok e ∧ ts.length = 53 ∧ e.size = 3067 ∧ ¬ e.size ≤ ts.length ^ 2 := by
  let inner := ParseTree.fourfold.nested 7
  let text := Token.Cuts.comparingText (Token.Cuts.nestedText "a + a + a + a".toList 7)
  have hcuts : Token.Cuts (String.ofList text).toList inner.comparing.tokens [] := by
    rw [String.toList_ofList, ← List.append_nil text]
    exact .comparing (.nested .fourfold 7) .nil
  obtain ⟨ts, hts, htokens⟩ := hcuts.tokenize_eq
  have hlength : ts.length = 53 := by
    have hinner : inner.tokens.length = 7 + 6 * 7 := ParseTree.fourfold.length_nested 7
    rw [← List.length_map Placed.token, htokens, ParseTree.tokens_comparing]
    simp [hinner]
  have hsize : inner.comparing.expr.size = 3067 := by
    have hnested : inner.expr.size + 5 = 2 ^ 7 * 12 := ParseTree.fourfold.size_nested 7
    have hcomparing := inner.size_comparing
    omega
  have hread : Expr.ofTokens ts = .ok inner.comparing.expr := by
    refine inner.comparing.ofTokens_eq_ok ?_ (by rw [hlength]; decide) htokens.symm ?_
    · exact List.ne_nil_of_length_pos (by rw [hlength]; decide)
    · rw [ParseTree.nesting_comparing, ParseTree.nesting_nested]
      decide
  exact ⟨ts, inner.comparing.expr, hts, hread, hlength, hsize, by rw [hlength, hsize]; decide⟩

end DataQuality
