import DataQuality.Proofs.ReadingExpressions
import DataQuality.Proofs.ShownExpressions

/-!
# Leaves of derivations

The operands of one token in an expression are those of the tokens that it was derived from, in
their order, except that a chain of comparisons repeats those between its ends. Where no two
comparisons have met between the same parentheses yet, nothing has been repeated.
-/

namespace DataQuality

/-! ### Operands among tokens -/

/-- The operand that a token is by itself. -/
def Token.leaf? : Token → Option Atom
  | .number value => some (.number value)
  | .text value => some (.text value)
  | .bool value => some (.bool value)
  | .null => some .null
  | .identifier name => some (.identifier name)
  | _ => none

/-- The operands of one token among tokens. -/
def operands (ts : List Token) : List Atom := ts.filterMap Token.leaf?

@[simp] theorem operands_append (ts us : List Token) :
    operands (ts ++ us) = operands ts ++ operands us :=
  List.filterMap_append

@[simp] theorem operands_atom (a : Atom) (ts : List Token) :
    operands (a.token :: ts) = a :: operands ts := by
  cases a <;> rfl

@[simp] theorem operands_binaryOp (op : BinaryOp) (ts : List Token) :
    operands (op.token :: ts) = operands ts := by
  rcases op with op | op | op <;> cases op <;> rfl

@[simp] theorem operands_unaryOp (op : UnaryOp) (ts : List Token) :
    operands (op.token :: ts) = operands ts := by
  cases op <;> rfl

@[simp] theorem operands_leftParen (ts : List Token) :
    operands (.leftParen :: ts) = operands ts := rfl

@[simp] theorem operands_rightParen (ts : List Token) :
    operands (.rightParen :: ts) = operands ts := rfl

@[simp] theorem operands_nil : operands [] = [] := rfl

/-- The operands of an expression are those among the tokens that it is shown as. -/
theorem Expr.operands_shown (e : Expr) : operands e.shown = e.leaves := by
  induction e with
  | unary op operand ih => simp [shown, leaves, ih]
  | binary op left right ihl ihr => simp [shown, leaves, ihl, ihr]
  | _ => rfl

/-! ### Grouping -/

/-- The operands of grouped expressions. -/
theorem leaves_groupLeft (first : Expr) (steps : List (BinaryOp × Expr)) :
    (groupLeft first steps).leaves = first.leaves ++ steps.flatMap fun s ↦ s.2.leaves := by
  induction steps generalizing first with
  | nil => simp [groupLeft]
  | cons step steps ih =>
    have hfold : groupLeft first (step :: steps) =
        groupLeft (.binary step.1 first step.2) steps := rfl
    rw [hfold, ih]
    simp [Expr.leaves]

theorem leaves_foldl_and (pair : Expr) (pairs : List Expr) :
    (pairs.foldl (.binary (.connective .and)) pair).leaves =
      pair.leaves ++ pairs.flatMap Expr.leaves := by
  induction pairs generalizing pair with
  | nil => simp
  | cons next pairs ih => simp [ih, Expr.leaves]

/-- The steps whose operands come once and in their order, right behind the first operand. -/
def Tier.unrepeated (t : Tier) (steps : List (BinaryOp × Expr)) : List (BinaryOp × Expr) :=
  match t with
  | .comparison => steps.take 1
  | _ => steps

/-- A chain of comparisons repeats nothing before its second operator. -/
theorem Tier.prefix_leaves_group (t : Tier) (first : Expr) (steps : List (BinaryOp × Expr)) :
    first.leaves ++ (t.unrepeated steps).flatMap (fun s ↦ s.2.leaves) <+:
      (t.group first steps).leaves := by
  cases t with
  | comparison =>
    cases steps with
    | nil => simp [unrepeated, group, conjoinPairs, comparePairs]
    | cons step steps =>
      simp [unrepeated, group, conjoinPairs, comparePairs, leaves_foldl_and, Expr.leaves]
  | _ => exact leaves_groupLeft first steps ▸ List.prefix_refl _

/-- Where there is no second comparison nothing is repeated at all. -/
theorem Tier.leaves_group {t : Tier} (first : Expr) {steps : List (BinaryOp × Expr)}
    (h : t.unrepeated steps = steps) :
    (t.group first steps).leaves = first.leaves ++ steps.flatMap fun s ↦ s.2.leaves := by
  cases t with
  | comparison =>
    match steps, h with
    | [], _ => simp [group, conjoinPairs, comparePairs]
    | [step], _ => simp [group, conjoinPairs, comparePairs, Expr.leaves]
  | _ => exact leaves_groupLeft first steps

/-- Grouping adds no operands. -/
theorem Tier.mem_leaves_group {t : Tier} {first : Expr} {steps : List (BinaryOp × Expr)} {a : Atom}
    (h : a ∈ (t.group first steps).leaves) :
    a ∈ first.leaves ∨ ∃ step ∈ steps, a ∈ step.2.leaves := by
  have hpairs (first : Expr) (steps : List (BinaryOp × Expr))
      (h : a ∈ (comparePairs first steps).flatMap Expr.leaves) :
      a ∈ first.leaves ∨ ∃ step ∈ steps, a ∈ step.2.leaves := by
    induction steps generalizing first with
    | nil => simp [comparePairs] at h
    | cons step steps ih =>
      change a ∈ (first.leaves ++ step.2.leaves) ++
        (comparePairs step.2 steps).flatMap Expr.leaves at h
      simp only [List.mem_append] at h
      obtain (h | h) | h := h
      · exact .inl h
      · exact .inr ⟨step, .head _, h⟩
      · obtain h | ⟨later, hmem, h⟩ := ih step.2 h
        · exact .inr ⟨step, .head _, h⟩
        · exact .inr ⟨later, .tail _ hmem, h⟩
  cases t with
  | comparison =>
    cases steps with
    | nil => exact .inl h
    | cons step steps =>
      change a ∈ ((comparePairs step.2 steps).foldl (Expr.binary (.connective .and))
        (Expr.binary step.1 first step.2)).leaves at h
      rw [leaves_foldl_and] at h
      exact hpairs first (step :: steps) h
  | _ =>
    change a ∈ (groupLeft first steps).leaves at h
    rw [leaves_groupLeft] at h
    simpa using h

/-! ### Operands of derivations -/

mutual

/-- Every operand of an expression stands among the tokens that it was derived from. -/
theorem ParseTree.token_mem_tokens : {n : Nonterminal} → (d : ParseTree n) →
    ∀ a ∈ d.expr.leaves, a.token ∈ d.tokens
  | _, .chain first steps => by
    intro a ha
    rw [ParseTree.expr] at ha
    rw [ParseTree.tokens, List.mem_append]
    obtain ha | ⟨step, hstep, ha⟩ := Tier.mem_leaves_group ha
    · exact .inl (first.token_mem_tokens a ha)
    · exact .inr (steps.token_mem_tokens step hstep a ha)
  | _, .unary op inner => fun a ha ↦ .tail _ (inner.token_mem_tokens a ha)
  | _, .plain inner => fun a ha ↦ inner.token_mem_tokens a ha
  | _, .atom a => by
    intro a' ha'
    obtain rfl : a' = a := by cases a <;> exact List.mem_singleton.mp ha'
    exact .head _
  | _, .parenthesized inner => fun a ha ↦
    .tail _ (List.mem_append_left _ (inner.token_mem_tokens a ha))

theorem ParseSteps.token_mem_tokens : {t : Tier} → (steps : ParseSteps t) →
    ∀ step ∈ steps.operations, ∀ a ∈ step.2.leaves, a.token ∈ steps.tokens
  | _, .nil => fun _ h ↦ by cases h
  | _, .cons op fits operand rest => by
    intro step hstep a ha
    rw [ParseSteps.operations] at hstep
    rw [ParseSteps.tokens]
    obtain rfl | hstep := List.mem_cons.mp hstep
    · exact .tail _ (List.mem_append_left _ (operand.token_mem_tokens a ha))
    · exact .tail _ (List.mem_append_right _ (rest.token_mem_tokens step hstep a ha))

end

/-- The operands of an expression that is read are tokens of the text. -/
theorem Expr.fromText_of_parse {source : String} {e : Expr} (h : parse source = .ok e) :
    ∀ a ∈ e.leaves, a.token.FromText := by
  intro a ha
  obtain ⟨ts, hts, hread⟩ := exists_of_bind_eq_ok h
  obtain ⟨-, -, d, htokens, -, rfl⟩ := exists_of_ofTokens_eq_ok hread
  have hmem := d.token_mem_tokens a ha
  rw [htokens] at hmem
  obtain ⟨p, hp, hpa⟩ := List.mem_map.mp hmem
  exact hpa ▸ Token.fromText_of_scanAll hts p hp

/-! ### Reading ahead to the next comparison -/

/-- Goes past a token, keeping for each open parenthesis whether a comparison was met behind it, and
stops at a second one. -/
def Token.pass : List Bool → Token → Option (List Bool)
  | met, .leftParen => some (false :: met)
  | _ :: met, .rightParen => some met
  | false :: met, .comparison _ => some (true :: met)
  | [], .rightParen | _, .comparison _ => none
  | met, _ => some met

@[simp] theorem Token.pass_leftParen (met : List Bool) :
    Token.pass met .leftParen = some (false :: met) := by
  rcases met with _ | ⟨_ | _, met⟩ <;> rfl

@[simp] theorem Token.pass_rightParen (b : Bool) (met : List Bool) :
    Token.pass (b :: met) .rightParen = some met := by
  cases b <;> rfl

/-- Other operators than comparisons are passed without a trace. -/
theorem BinaryOp.pass_token {op : BinaryOp} (h : op.tier ≠ .comparison) (met : List Bool) :
    Token.pass met op.token = some met := by
  rcases op with op | op | op
  · cases op <;> rcases met with _ | ⟨_ | _, met⟩ <;> rfl
  · exact absurd rfl h
  · cases op <;> rcases met with _ | ⟨_ | _, met⟩ <;> rfl

theorem BinaryOp.pass_token_comparison {op : BinaryOp} (h : op.tier = .comparison) (b : Bool)
    (met : List Bool) :
    Token.pass (b :: met) op.token = if b then none else some (true :: met) := by
  rcases op with op | op | op
  · cases op <;> cases h
  · cases b <;> rfl
  · cases op <;> cases h

/-- An operator that can be passed leaves behind whether it is a comparison. -/
theorem BinaryOp.exists_of_pass_token {op : BinaryOp} {b : Bool} {met : List Bool}
    {β : Type} {f : List Bool → Option β} (h : ((Token.pass (b :: met) op.token).bind f).isSome) :
    ∃ b', Token.pass (b :: met) op.token = some (b' :: met) ∧
      (op.tier = .comparison → b' = true) ∧ (op.tier ≠ .comparison → b' = b) := by
  by_cases htier : op.tier = .comparison
  · rw [pass_token_comparison htier] at h ⊢
    cases b with
    | true => cases h
    | false => exact ⟨true, rfl, fun _ ↦ rfl, fun hne ↦ absurd htier hne⟩
  · exact ⟨b, pass_token htier _, fun heq ↦ absurd heq htier, fun _ ↦ rfl⟩

@[simp] theorem UnaryOp.pass_token (op : UnaryOp) (met : List Bool) :
    Token.pass met op.token = some met := by
  cases op <;> rcases met with _ | ⟨_ | _, met⟩ <;> rfl

@[simp] theorem Atom.pass_token (a : Atom) (met : List Bool) :
    Token.pass met a.token = some met := by
  cases a <;> rcases met with _ | ⟨_ | _, met⟩ <;> rfl

/-- What is found when the tokens `front` are passed, which begin `ts` and then `behind`: all of
`ts`, with its operands for leaves, `single` of them and, if it is `tight`, no comparison met; or a
part of `ts` whose operands begin the leaves. -/
inductive PassesInto (ts behind front : List Token) (leaves begun : List Atom)
    (single tight : Prop) (b : Bool) (met : List Bool) : Prop
  | whole (more : List Token) (b' : Bool) (hfront : front = ts ++ more) (hmore : more <+: behind)
      (hleaves : leaves = operands ts) (hsingle : single)
      (hpass : ts.foldlM Token.pass (b :: met) = some (b' :: met)) (htight : tight → b' = b)
  | part (h : operands front <+: begun)

/-- An expression as it is shown is passed and leaves no comparison behind. -/
theorem Expr.pass_shown (e : Expr) (b : Bool) (met : List Bool) :
    e.shown.foldlM Token.pass (b :: met) = some (b :: met) := by
  induction e generalizing b met with
  | unary op operand ih => simp [shown, List.foldlM_cons, List.foldlM_append, ih]
  | binary op left right ihl ihr =>
    by_cases h : op.tier = .comparison
    · simp [shown, List.foldlM_cons, List.foldlM_append, op.pass_token_comparison h, ihl, ihr]
    · simp [shown, List.foldlM_cons, List.foldlM_append, op.pass_token h, ihl, ihr]
  | number value => exact (bind_pure _).trans ((Atom.number value).pass_token _)
  | text value => exact (bind_pure _).trans ((Atom.text value).pass_token _)
  | bool value => exact (bind_pure _).trans ((Atom.bool value).pass_token _)
  | null => exact (bind_pure _).trans (Atom.null.pass_token _)
  | identifier name => exact (bind_pure _).trans ((Atom.identifier name).pass_token _)

theorem Tier.unrepeated_cons {t : Tier} (h : t ≠ .comparison) (step : BinaryOp × Expr)
    (steps : List (BinaryOp × Expr)) :
    t.unrepeated (step :: steps) = step :: t.unrepeated steps := by
  cases t <;> first | rfl | exact absurd rfl h

namespace PassesInto

variable {ts us behind front : List Token} {leaves leaves₁ leaves₂ begun begun₂ : List Atom}
  {single single' tight tight' : Prop} {b b₀ : Bool} {met : List Bool}

/-- A token without an operand is passed in front of the others. -/
theorem cons {tok : Token} (h : PassesInto ts behind front leaves begun single tight' b₀ met)
    (hoperands : ∀ us, operands (tok :: us) = operands us)
    (htok : Token.pass (b :: met) tok = some (b₀ :: met)) (htight : tight → tight' ∧ b₀ = b) :
    PassesInto (tok :: ts) behind (tok :: front) leaves begun single tight b met := by
  cases h with
  | part h => exact .part (by rwa [hoperands])
  | whole more b' hfront hmore hleaves hsingle hpass hb' =>
    refine .whole more b' (by rw [hfront]; rfl) hmore (hleaves.trans (hoperands ts).symm) hsingle
      ?_ fun h ↦ (hb' (htight h).1).trans (htight h).2
    rw [List.foldlM_cons, htok]
    exact hpass

/-- Tokens are passed behind others that were passed as a whole. -/
theorem append (h : PassesInto ts (us ++ behind) front leaves₁ leaves₁ True tight' b met)
    (hpass : (front.foldlM Token.pass (b :: met)).isSome)
    (hrest : ∀ {more b'}, more <+: us ++ behind → (more.foldlM Token.pass (b' :: met)).isSome →
      (tight' → b' = b) → PassesInto us behind more leaves₂ begun₂ single' tight b' met)
    (htight : tight → tight') (hbegun : leaves₁ ++ begun₂ <+: begun)
    (hsingle : single' → single ∧ leaves = leaves₁ ++ leaves₂) :
    PassesInto (ts ++ us) behind front leaves begun single tight b met := by
  cases h with
  | part h => exact .part (h.trans ((List.prefix_append _ _).trans hbegun))
  | whole more b' hmore hbehind hleaves _ hts hb' =>
    rw [hmore, List.foldlM_append, hts] at hpass
    cases hrest hbehind hpass hb' with
    | part h =>
      refine .part (List.IsPrefix.trans ?_ hbegun)
      rw [hmore, operands_append, hleaves]
      exact (List.prefix_append_right_inj _).mpr h
    | whole more' b'' hmore' hbehind' hleaves' hsingle' hus hb'' =>
      obtain ⟨hs, hall⟩ := hsingle hsingle'
      refine .whole more' b'' ?_ hbehind' ?_ hs ?_ fun h ↦ (hb'' h).trans (hb' (htight h))
      · rw [hmore, hmore', List.append_assoc]
      · rw [hall, hleaves, hleaves', operands_append]
      · rw [List.foldlM_append, hts]
        exact hus

end PassesInto

/-- Behind a comparison no other one is passed between the same parentheses. -/
theorem ParseSteps.passesInto_of_met (steps : ParseSteps .comparison) {behind front : List Token}
    {b : Bool} {met : List Bool} {tight : Prop} (hb : b = true)
    (hfront : front <+: steps.tokens ++ behind)
    (hpass : (front.foldlM Token.pass (b :: met)).isSome) :
    PassesInto steps.tokens behind front (steps.operations.flatMap fun s ↦ s.2.leaves) []
      (steps.operations = []) tight b met := by
  cases steps with
  | nil => exact .whole front b rfl hfront rfl rfl rfl fun _ ↦ rfl
  | cons op fits operand rest =>
    cases front with
    | nil => exact .part List.nil_prefix
    | cons tok front =>
      obtain ⟨rfl, -⟩ := List.cons_prefix_cons.mp hfront
      rw [List.foldlM_cons, BinaryOp.pass_token_comparison fits, if_pos hb] at hpass
      cases hpass

mutual

/-- Tokens that begin a derivation are passed as one reads the derivation: no two comparisons
between the same parentheses are passed, so the operands met are its first leaves. -/
theorem ParseTree.passesInto : {n : Nonterminal} → (d : ParseTree n) →
    {behind front : List Token} → {b : Bool} → {met : List Bool} →
    front <+: d.tokens ++ behind → (front.foldlM Token.pass (b :: met)).isSome →
    PassesInto d.tokens behind front d.expr.leaves d.expr.leaves True (n.rank ≤ 3) b met
  | _, @ParseTree.chain t first steps, behind, front, b, met, hfront, hpass => by
    rw [ParseTree.tokens, List.append_assoc] at hfront
    refine (first.passesInto hfront hpass).append hpass
      (fun hmore hpass _ ↦ steps.passesInto hmore hpass)
      (Nat.le_trans (Nat.le_of_lt t.rank_operand_lt)) (t.prefix_leaves_group _ _) fun hsingle ↦ ?_
    exact ⟨trivial, by rw [ParseTree.expr, Tier.leaves_group _ hsingle]⟩
  | _, @ParseTree.unary op inner, behind, front, b, met, hfront, hpass => by
    cases front with
    | nil => exact .part List.nil_prefix
    | cons tok front =>
      obtain ⟨rfl, hbegins⟩ := List.cons_prefix_cons.mp hfront
      rw [List.foldlM_cons, UnaryOp.pass_token] at hpass
      exact (inner.passesInto hbegins hpass).cons (operands_unaryOp op) (op.pass_token _)
        fun h ↦ ⟨h, rfl⟩
  | _, @ParseTree.plain op inner, behind, front, b, met, hfront, hpass => by
    cases inner.passesInto hfront hpass with
    | part h => exact .part h
    | whole more b' hmore hbehind hleaves _ hinner htight =>
      exact .whole more b' hmore hbehind hleaves trivial hinner fun h ↦
        htight (Nat.le_trans (Nat.le_of_lt op.rank_operand_lt) h)
  | _, .atom a, behind, front, b, met, hfront, hpass => by
    cases front with
    | nil => exact .part List.nil_prefix
    | cons tok front =>
      obtain ⟨rfl, hbegins⟩ := List.cons_prefix_cons.mp hfront
      refine .whole front b rfl hbegins ?_ trivial ?_ fun _ ↦ rfl
      · cases a <;> rfl
      · rw [ParseTree.tokens, List.foldlM_cons, Atom.pass_token]
        rfl
  | _, .parenthesized inner, behind, front, b, met, hfront, hpass => by
    cases front with
    | nil => exact .part List.nil_prefix
    | cons tok front =>
      obtain ⟨rfl, hbegins⟩ := List.cons_prefix_cons.mp hfront
      rw [List.append_eq, List.append_eq, List.append_assoc] at hbegins
      rw [List.foldlM_cons, Token.pass_leftParen] at hpass
      cases inner.passesInto hbegins hpass with
      | part h => exact .part h
      | whole more b' hmore hbehind hleaves _ hinner _ =>
        cases more with
        | nil =>
          have hall : operands front = inner.expr.leaves := by
            rw [hmore, List.append_nil, hleaves]
          exact .part (hall ▸ List.prefix_refl _)
        | cons tok more =>
          obtain ⟨rfl, hbehind'⟩ := List.cons_prefix_cons.mp hbehind
          refine .whole more b ?_ hbehind' ?_ trivial ?_ fun _ ↦ rfl
          · rw [hmore, ParseTree.tokens]
            simp
          · rw [ParseTree.expr, hleaves, ParseTree.tokens]
            simp
          · rw [ParseTree.tokens, List.cons_append, List.foldlM_cons, Token.pass_leftParen]
            simp [List.foldlM_append, hinner]

theorem ParseSteps.passesInto : {t : Tier} → (steps : ParseSteps t) →
    {behind front : List Token} → {b : Bool} → {met : List Bool} →
    front <+: steps.tokens ++ behind → (front.foldlM Token.pass (b :: met)).isSome →
    PassesInto steps.tokens behind front (steps.operations.flatMap fun s ↦ s.2.leaves)
      ((t.unrepeated steps.operations).flatMap fun s ↦ s.2.leaves)
      (t.unrepeated steps.operations = steps.operations) ((Nonterminal.chain t).rank ≤ 3) b met
  | t, .nil, behind, front, b, met, hfront, hpass =>
    .whole front b rfl hfront rfl (by cases t <;> rfl) rfl fun _ ↦ rfl
  | t, .cons op fits operand rest, behind, front, b, met, hfront, hpass => by
    cases front with
    | nil => exact .part List.nil_prefix
    | cons tok front =>
      obtain ⟨rfl, hbegins⟩ := List.cons_prefix_cons.mp hfront
      rw [List.append_eq, List.append_eq, List.append_assoc] at hbegins
      rw [List.foldlM_cons] at hpass
      obtain ⟨b₀, hop, hmet, hunmet⟩ := op.exists_of_pass_token hpass
      rw [hop] at hpass
      change (front.foldlM Token.pass (b₀ :: met)).isSome at hpass
      have hoperand := operand.passesInto hbegins hpass
      refine PassesInto.cons ?_ (operands_binaryOp op) hop fun h ↦ ⟨h, hunmet fun heq ↦ ?_⟩
      · have hall : ((op, operand.expr) :: rest.operations).flatMap (fun s ↦ s.2.leaves) =
            operand.expr.leaves ++ rest.operations.flatMap fun s ↦ s.2.leaves := List.flatMap_cons
        have htight := Nat.le_trans (k := 3) (Nat.le_of_lt t.rank_operand_lt)
        by_cases ht : t = .comparison
        · -- Behind the second operand no comparison may follow.
          subst ht
          refine hoperand.append hpass
            (fun hmore hpass hb' ↦
              rest.passesInto_of_met ((hb' (Nat.le_refl 3)).trans (hmet fits)) hmore hpass)
            htight ?_ fun hnone ↦ ⟨?_, hall⟩
          · simp [Tier.unrepeated, ParseSteps.operations]
          · simp [Tier.unrepeated, ParseSteps.operations, hnone]
        · refine hoperand.append hpass
            (fun hmore hpass _ ↦ rest.passesInto hmore hpass) htight ?_ fun hsingle ↦ ⟨?_, hall⟩
          · rw [ParseSteps.operations, Tier.unrepeated_cons ht, List.flatMap_cons]
          · rw [ParseSteps.operations, Tier.unrepeated_cons ht, hsingle]
      · rw [← fits, heq] at h
        exact absurd h (by decide)

end

/-- An expression that is read from other tokens than it is shown as has its operands in the places
of those tokens, as far as the tokens agree. -/
theorem ParseTree.text_eq_of_tokens {n : Nonterminal} {d : ParseTree n} {e : Expr}
    {before after after' : List Token} {s s' : String}
    (hshown : e.shown = before ++ .text s :: after)
    (htokens : d.tokens = before ++ .text s' :: after') (hexpr : d.expr = e) : s' = s := by
  have hleaves : e.leaves = operands before ++ .text s :: operands after := by
    rw [← e.operands_shown, hshown, operands_append]
    exact congrArg _ (operands_atom (.text s) after)
  have hfront : operands (before ++ [.text s']) = operands before ++ [.text s'] := by
    rw [operands_append]
    exact congrArg _ (operands_atom (.text s') [])
  -- What an expression is shown as is passed to its end, and so is any part in front of a text.
  have hpass : ((before ++ [Token.text s']).foldlM Token.pass (false :: [])).isSome := by
    have hall := e.pass_shown false []
    rw [hshown, List.foldlM_append] at hall
    obtain ⟨met, hbefore, -⟩ := Option.bind_eq_some_iff.mp hall
    rw [List.foldlM_append, hbefore]
    have htext := (Atom.text s').pass_token met
    change (Token.pass met (.text s') >>= pure).isSome
    rw [show Token.pass met (.text s') = some met from htext]
    rfl
  have hprefix : before ++ [.text s'] <+: d.tokens ++ [] := ⟨after', by rw [htokens]; simp⟩
  have hbegun : operands before ++ [Atom.text s'] <+: e.leaves := by
    rw [← hfront, ← hexpr]
    cases d.passesInto hprefix hpass with
    | part h => exact h
    | whole more b' hmore _ hwhole _ _ _ =>
      rw [hwhole, htokens]
      exact ⟨operands after', by rw [← operands_append]; simp⟩
  rw [hleaves, List.prefix_append_right_inj, List.cons_prefix_cons] at hbegun
  exact Atom.text.inj hbegun.1

end DataQuality
