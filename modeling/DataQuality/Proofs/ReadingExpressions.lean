import DataQuality.Proofs.Computations
import DataQuality.Proofs.ParseTrees

/-!
# Reading expressions

Reading a list of tokens finds its derivation, if there is one that nests no deeper than allowed.
Every rule is sound and complete for its left side: it reads a derivation and leaves over the rest,
and it reads any derivation that the rest does not go on with. Rules that refer back to a looser one
or to their own level do so with one nesting less to spend.
-/

namespace DataQuality

/-! ### Rules and left sides -/

/-- The operator of a tier that a token stands for. -/
def Tier.operator? : Tier → Token → Option BinaryOp
  | .disjunction => Token.or?
  | .conjunction => Token.and?
  | .comparison => Token.compare?
  | .sum => Token.additive?
  | .product => Token.multiplicative?

/-- Whether a token is the sign of a unary operator. -/
def UnaryOp.isSign : UnaryOp → Token → Bool
  | .neg => Token.isMinus
  | .not => Token.isNot

/-- How what is read for a tier is put together. -/
def Tier.folded : Tier → Expr → List (BinaryOp × Expr) → Expr
  | .comparison => foldChain
  | _ => foldLeft

/-- A token stands for an operator of a tier exactly if the operator is written so. -/
theorem Tier.operator?_eq_some_iff {t : Tier} {tok : Token} {op : BinaryOp} :
    t.operator? tok = some op ↔ op.tier = t ∧ tok = op.token := by
  constructor
  · intro h
    cases t <;> simp only [operator?, Token.or?, Token.and?, Token.compare?, Token.additive?,
      Token.multiplicative?] at h <;> split at h <;> cases h <;> exact ⟨rfl, rfl⟩
  · rintro ⟨rfl, rfl⟩
    rcases op with op | op | op <;> cases op <;> rfl

/-- A token is the sign of a unary operator exactly if the operator is written so. -/
theorem UnaryOp.isSign_iff {op : UnaryOp} {tok : Token} :
    op.isSign tok = true ↔ tok = op.token := by
  cases op <;> cases tok <;> simp [isSign, token, Token.isMinus, Token.isNot]

/-- A token is an expression by itself exactly if it is written for one. -/
theorem Token.atom?_eq_some_iff {tok : Token} {tree : Expr} :
    tok.atom? = some tree ↔ ∃ a : Atom, tok = a.token ∧ tree = a.expr := by
  constructor
  · intro h
    cases tok with
    | number value => exact ⟨.number value, rfl, (Option.some.inj h).symm⟩
    | text value => exact ⟨.text value, rfl, (Option.some.inj h).symm⟩
    | bool value => exact ⟨.bool value, rfl, (Option.some.inj h).symm⟩
    | null => exact ⟨.null, rfl, (Option.some.inj h).symm⟩
    | identifier name => exact ⟨.identifier name, rfl, (Option.some.inj h).symm⟩
    | _ => cases h
  · rintro ⟨a, rfl, rfl⟩
    cases a <;> rfl

/-- What is read for a tier is the expression that its derivations stand for. -/
theorem Tier.folded_eq_group (t : Tier) : t.folded = t.group := by
  have hpairs : ∀ first steps, neighbours first steps = comparePairs first steps := by
    intro first steps
    induction steps generalizing first with
    | nil => rfl
    | cons step rest ih =>
      rw [neighbours, ih]
      rfl
  cases t with
  | comparison =>
    funext first steps
    change foldChain first steps = conjoinPairs first steps
    unfold foldChain conjoinPairs
    rw [hpairs]
    cases comparePairs first steps with
    | nil => rfl
    | cons pair pairs => exact List.foldl_map
  | _ => rfl

/-- A rule reads the derivations from a left side that nest less than the limit. -/
structure Rule.Reads (R : Rule) (n : Nonterminal) (limit : Nat) : Prop where
  sound : ∀ {ts : List Placed} {r : Parsed ts}, R ts = .ok r →
    ∃ d : ParseTree n, d.nesting < limit ∧
      ts.map Placed.token = d.tokens ++ r.rest.map Placed.token ∧ r.tree = d.expr
  complete : ∀ (d : ParseTree n) {ts vs us : List Placed}, d.nesting < limit → ts = vs ++ us →
    vs.map Placed.token = d.tokens → n.Ends (us.map Placed.token) →
    ∃ h, R ts = .ok ⟨d.expr, us, h⟩

/-! ### Operands with operators between them -/

section

variable {t : Tier} {operand : Rule} {limit : Nat}

/-- What is read behind an operand are operators of the tier with their operands. -/
theorem readTail_sound (h : operand.Reads t.operand (limit + 1)) {ts : List Placed}
    {r : Tail ts} (hread : readTail t.operator? operand ts = .ok r) :
    ∃ steps : ParseSteps t, steps.nesting < limit + 1 ∧
      ts.map Placed.token = steps.tokens ++ r.rest.map Placed.token ∧
      r.steps = steps.operations := by
  induction hlength : ts.length using Nat.strongRecOn generalizing ts with
  | _ length ih =>
    unfold readTail at hread
    split at hread
    · cases hread
      exact ⟨.nil, Nat.succ_pos _, rfl, rfl⟩
    · next tok rest =>
      split at hread
      · cases hread
        exact ⟨.nil, Nat.succ_pos _, rfl, rfl⟩
      · next op hop =>
        obtain ⟨fits, htoken⟩ := Tier.operator?_eq_some_iff.mp hop
        obtain ⟨first, hfirst, hbehind⟩ := exists_of_bind_eq_ok hread
        obtain ⟨tail, htail, rfl⟩ := exists_of_map_eq_ok hbehind
        obtain ⟨d, hnesting, htokens, htree⟩ := h.sound hfirst
        have hshorter : first.rest.length < length := by
          have := first.shorter
          simp only [List.length_cons] at hlength
          omega
        obtain ⟨steps, hsteps, hrest, hoperations⟩ := ih _ hshorter htail rfl
        refine ⟨.cons op fits d steps, Nat.max_lt.mpr ⟨hnesting, hsteps⟩, ?_, ?_⟩
        · rw [List.map_cons, htoken, htokens, hrest, ParseSteps.tokens, ← List.append_assoc]
          rfl
        · rw [ParseSteps.operations, hoperations, htree]

/-- All operators of a tier are read, with their operands, up to where they end. -/
theorem readTail_complete (h : operand.Reads t.operand (limit + 1)) :
    (steps : ParseSteps t) → {ts vs us : List Placed} → steps.nesting < limit + 1 →
    ts = vs ++ us → vs.map Placed.token = steps.tokens →
    (Nonterminal.chain t).Ends (us.map Placed.token) →
    ∃ hlen, readTail t.operator? operand ts = .ok ⟨steps.operations, us, hlen⟩
  | .nil, ts, vs, us, _, hts, hvs, hus => by
    obtain rfl := List.map_eq_nil_iff.mp hvs
    obtain rfl := hts
    refine ⟨Nat.le_refl _, ?_⟩
    unfold readTail
    split
    · rfl
    · next tok rest =>
      split
      · rfl
      · next op hop =>
        -- An operator of the tier would go on with the chain.
        obtain ⟨fits, htoken⟩ := Tier.operator?_eq_some_iff.mp hop
        have hlt := hus op (by rw [List.map_cons, htoken]; rfl)
        rw [fits] at hlt
        exact absurd hlt (Nat.lt_irrefl _)
  | .cons op fits d rest, ts, vs, us, hnesting, hts, hvs, hus => by
    obtain ⟨hd, hrest⟩ := Nat.max_lt.mp hnesting
    rw [ParseSteps.tokens, List.cons_append, List.map_eq_cons_iff] at hvs
    obtain ⟨tok, behind, rfl, htoken, hbehind⟩ := hvs
    obtain ⟨vs₁, vs₂, rfl, hvs₁, hvs₂⟩ := List.map_eq_append_iff.mp hbehind
    have hends := rest.ends hus
    rw [← hvs₂, ← List.map_append] at hends
    obtain ⟨hshorter, hread⟩ := h.complete d hd (List.append_assoc vs₁ vs₂ us) hvs₁ hends
    obtain ⟨hfits, htail⟩ := readTail_complete h rest hrest rfl hvs₂ hus
    obtain rfl : ts = tok :: (vs₁ ++ vs₂ ++ us) := hts
    have hop : t.operator? tok.token = some op :=
      Tier.operator?_eq_some_iff.mpr ⟨fits, htoken⟩
    refine ⟨by simp; omega, ?_⟩
    unfold readTail
    simp only [hop, hread, htail, Except.bind, Except.map]
    rfl

/-- If operands are read, so are operands with operators of a tier between them. -/
theorem Rule.Reads.chain (h : operand.Reads t.operand (limit + 1)) :
    Rule.Reads (DataQuality.chain t.operator? t.folded operand) (.chain t) (limit + 1) where
  sound := by
    intro ts r hread
    obtain ⟨first, hfirst, hbehind⟩ := exists_of_bind_eq_ok hread
    obtain ⟨tail, htail, rfl⟩ := exists_of_map_eq_ok hbehind
    obtain ⟨d, hnesting, htokens, htree⟩ := h.sound hfirst
    obtain ⟨steps, hsteps, hrest, hoperations⟩ := readTail_sound h htail
    refine ⟨.chain d steps, Nat.max_lt.mpr ⟨hnesting, hsteps⟩, ?_, ?_⟩
    · rw [htokens, hrest, ParseTree.tokens, List.append_assoc]
    · rw [ParseTree.expr, htree, hoperations, t.folded_eq_group]
  complete := by
    intro d ts vs us hnesting hts hvs hus
    cases d with
    | chain first steps =>
      obtain ⟨hfirst, hsteps⟩ := Nat.max_lt.mp hnesting
      obtain ⟨vs₁, vs₂, rfl, hvs₁, hvs₂⟩ := List.map_eq_append_iff.mp hvs
      have hends := steps.ends hus
      rw [← hvs₂, ← List.map_append] at hends
      obtain ⟨hshorter, hread⟩ :=
        h.complete first hfirst (hts.trans (List.append_assoc vs₁ vs₂ us)) hvs₁ hends
      obtain ⟨hfits, htail⟩ := readTail_complete h steps hsteps rfl hvs₂ hus
      refine ⟨Nat.lt_of_le_of_lt hfits hshorter, ?_⟩
      unfold DataQuality.chain
      simp only [hread, htail, Except.bind, Except.map, t.folded_eq_group]
      rfl

end

/-! ### Unary operators -/

/-- If what stands behind a unary operator and what stands in its place are read, so is the
operator. -/
theorem Rule.Reads.beforeOperand {op : UnaryOp} {again otherwise : Rule} {limit : Nat}
    (hagain : again.Reads (.unary op) limit) (hotherwise : otherwise.Reads op.operand (limit + 1)) :
    Rule.Reads (DataQuality.beforeOperand op op.isSign again otherwise) (.unary op)
      (limit + 1) where
  sound := by
    intro ts r hread
    have hplain : otherwise ts = .ok r → ∃ d : ParseTree (.unary op), d.nesting < limit + 1 ∧
        ts.map Placed.token = d.tokens ++ r.rest.map Placed.token ∧ r.tree = d.expr := by
      intro h
      obtain ⟨d, hnesting, htokens, htree⟩ := hotherwise.sound h
      exact ⟨.plain d, hnesting, htokens, htree⟩
    unfold DataQuality.beforeOperand at hread
    split at hread
    · exact hplain hread
    · next tok rest =>
      split at hread
      · next hsign =>
        obtain ⟨inner, hinner, rfl⟩ := exists_of_map_eq_ok hread
        obtain ⟨d, hnesting, htokens, htree⟩ := hagain.sound hinner
        refine ⟨.unary op d, Nat.succ_lt_succ hnesting, ?_, ?_⟩
        · rw [List.map_cons, UnaryOp.isSign_iff.mp hsign, htokens]
          rfl
        · rw [htree]
          rfl
      · exact hplain hread
  complete := by
    intro d ts vs us hnesting hts hvs hus
    cases d with
    | unary _ inner =>
      obtain ⟨tok, behind, rfl, htoken, hbehind⟩ := List.map_eq_cons_iff.mp hvs
      obtain rfl : ts = tok :: (behind ++ us) := hts
      obtain ⟨hshorter, hread⟩ :=
        hagain.complete inner (Nat.lt_of_succ_lt_succ hnesting) rfl hbehind hus
      refine ⟨Nat.lt_succ_of_lt hshorter, ?_⟩
      unfold DataQuality.beforeOperand
      simp only [UnaryOp.isSign_iff.mpr htoken, if_true, hread]
      rfl
    | plain inner =>
      obtain ⟨hshorter, hread⟩ := hotherwise.complete inner hnesting hts hvs
        (hus.mono (Nat.le_of_lt op.rank_operand_lt))
      refine ⟨hshorter, ?_⟩
      unfold DataQuality.beforeOperand
      split
      · exact hread
      · next tok rest =>
        -- What stands in the place of the operator does not begin with its sign.
        have hsign : ¬ op.isSign tok.token = true := by
          intro hsign
          have htokens := congrArg (List.map Placed.token) hts
          rw [List.map_append, hvs, List.map_cons, UnaryOp.isSign_iff.mp hsign] at htokens
          exact inner.tokens_ne _ _ htokens.symm
        rw [if_neg hsign]
        exact hread

/-! ### Single operands -/

/-- Behind an expression a closing parenthesis is taken off, and nothing else. -/
theorem closeParen_eq_ok_iff {ts : List Placed} {r r' : Parsed ts} :
    closeParen r = .ok r' ↔
      ∃ tok, tok.token = .rightParen ∧ r.rest = tok :: r'.rest ∧ r'.tree = r.tree := by
  obtain ⟨tree, rest, shorter⟩ := r
  obtain ⟨tree', rest', shorter'⟩ := r'
  unfold closeParen
  constructor
  · intro h
    split at h
    · cases h
    · next tok behind hrest =>
      split at h
      · next htoken =>
        cases h
        exact ⟨tok, htoken, hrest, rfl⟩
      · cases h
  · rintro ⟨tok, htoken, rfl, rfl⟩
    split
    · next hrest => cases hrest
    · next other behind hrest =>
      cases hrest
      split
      · rfl
      · next hother => exact absurd htoken hother

/-- If expressions are read, so are operands, which may be expressions in parentheses. -/
theorem Rule.Reads.operand {inner : Rule} {limit : Nat} (h : inner.Reads .start limit) :
    Rule.Reads (DataQuality.operand inner) .operand (limit + 1) where
  sound := by
    intro ts r hread
    unfold DataQuality.operand at hread
    split at hread
    · cases hread
    · next tok rest =>
      split at hread
      · next tree hatom =>
        cases hread
        obtain ⟨a, htoken, rfl⟩ := Token.atom?_eq_some_iff.mp hatom
        refine ⟨.atom a, Nat.succ_pos _, ?_, rfl⟩
        rw [List.map_cons, htoken]
        rfl
      · split at hread
        · next hparen =>
          obtain ⟨closed, hclosed, rfl⟩ := exists_of_map_eq_ok hread
          obtain ⟨parsed, hparsed, hclose⟩ := exists_of_bind_eq_ok hclosed
          obtain ⟨close, hright, hrest, htree⟩ := closeParen_eq_ok_iff.mp hclose
          obtain ⟨d, hnesting, htokens, hexpr⟩ := h.sound hparsed
          refine ⟨.parenthesized d, Nat.succ_lt_succ hnesting, ?_, htree.trans hexpr⟩
          rw [List.map_cons, hparen, htokens, hrest, List.map_cons, hright, ParseTree.tokens]
          simp [Parsed.widen]
        · cases hread
  complete := by
    intro d ts vs us hnesting hts hvs hus
    cases d with
    | atom a =>
      obtain ⟨tok, behind, rfl, htoken, hbehind⟩ := List.map_eq_cons_iff.mp hvs
      obtain rfl := List.map_eq_nil_iff.mp hbehind
      obtain rfl : ts = tok :: us := hts
      refine ⟨Nat.lt_succ_self _, ?_⟩
      unfold DataQuality.operand
      simp only [Token.atom?_eq_some_iff.mpr ⟨a, htoken, rfl⟩]
      rfl
    | parenthesized d =>
      obtain ⟨tok, behind, rfl, htoken, hbehind⟩ := List.map_eq_cons_iff.mp hvs
      obtain ⟨vs₁, vs₂, rfl, hvs₁, hvs₂⟩ := List.map_eq_append_iff.mp hbehind
      obtain ⟨close, nothing, rfl, hright, hnothing⟩ := List.map_eq_cons_iff.mp hvs₂
      obtain rfl := List.map_eq_nil_iff.mp hnothing
      obtain rfl : ts = tok :: (vs₁ ++ [close] ++ us) := hts
      have hends : Nonterminal.start.Ends ((close :: us).map Placed.token) := by
        rw [List.map_cons, hright]
        exact .rightParen
      obtain ⟨hshorter, hread⟩ := h.complete d (Nat.lt_of_succ_lt_succ hnesting)
        (List.append_assoc vs₁ [close] us) hvs₁ hends
      have hclosed : closeParen ⟨d.expr, [close] ++ us, hshorter⟩ =
          .ok ⟨d.expr, us, Nat.lt_of_succ_lt hshorter⟩ :=
        closeParen_eq_ok_iff.mpr ⟨close, hright, rfl, rfl⟩
      have hatom : tok.token.atom? = none := by rw [htoken]; rfl
      refine ⟨Nat.lt_succ_of_lt (Nat.lt_of_succ_lt hshorter), ?_⟩
      unfold DataQuality.operand
      simp only [hatom]
      split
      · simp only [hread, Except.bind, hclosed, Except.map]
        rfl
      · next hother => exact absurd htoken hother

/-! ### Levels -/

/-- The rules of a level read derivations that nest less than the limit. -/
structure Level.Reads (l : Level) (limit : Nat) : Prop where
  disjunction : l.disjunction.Reads .start limit
  negation : l.negation.Reads (.unary .not) limit
  signed : l.signed.Reads (.unary .neg) limit

namespace Level.Reads

/-- A level that may not be entered reads nothing. -/
theorem forbidden : Level.Reads .forbidden 0 := by
  have hnothing : ∀ n, Rule.Reads (fun _ ↦ .error (.tooDeep maxNesting)) n 0 := fun n ↦
    ⟨fun h ↦ (by cases h), fun _ {_ _ _} h ↦ absurd h (Nat.not_lt_zero _)⟩
  exact ⟨hnothing _, hnothing _, hnothing _⟩

/-- A level reads derivations that nest once more than those of the level below. -/
theorem above {below : Level} {limit : Nat} (h : below.Reads limit) :
    below.above.Reads (limit + 1) := by
  have signed := Rule.Reads.beforeOperand h.signed h.disjunction.operand
  have product := @Rule.Reads.chain .product _ _ signed
  have sum := @Rule.Reads.chain .sum _ _ product
  have comparison := @Rule.Reads.chain .comparison _ _ sum
  have negation := Rule.Reads.beforeOperand h.negation comparison
  have conjunction := @Rule.Reads.chain .conjunction _ _ negation
  exact ⟨@Rule.Reads.chain .disjunction _ _ conjunction, negation, signed⟩

/-- With a number of levels below it, a level reads derivations that nest so deep. -/
theorem withDepth (depth : Nat) : (Level.withDepth depth).Reads (depth + 1) := by
  induction depth with
  | zero => exact forbidden.above
  | succ depth ih => exact ih.above

end Level.Reads

/-- What is read as an expression is not empty, not too long, and has a derivation that nests no
deeper than allowed and stands for the expression. -/
theorem Expr.exists_of_ofTokens_eq_ok {ts : List Placed} {e : Expr} (h : Expr.ofTokens ts = .ok e) :
    ts ≠ [] ∧ ts.length ≤ maxTokens ∧
      ∃ d : ParseTree .start, d.tokens = ts.map Placed.token ∧ d.nesting ≤ maxNesting ∧
        d.expr = e := by
  unfold Expr.ofTokens at h
  split at h
  · cases h
  · next hnonempty =>
    split at h
    · cases h
    · next hlength =>
      obtain ⟨r, hr, hend⟩ := exists_of_bind_eq_ok h
      obtain ⟨d, hnesting, htokens, htree⟩ :=
        (Level.Reads.withDepth maxNesting).disjunction.sound hr
      split at hend
      · next hrest =>
        cases hend
        refine ⟨by simpa using hnonempty, Nat.not_lt.mp hlength, d, ?_, ?_, htree.symm⟩
        · rw [htokens, hrest, List.map_nil, List.append_nil]
        · exact Nat.le_of_lt_succ hnesting
      · cases hend

/-- What has a derivation that nests no deeper than allowed is read as what it stands for, if it is
neither empty nor too long. -/
theorem ParseTree.ofTokens_eq_ok (d : ParseTree .start) {ts : List Placed}
    (hnonempty : ts ≠ []) (hlength : ts.length ≤ maxTokens)
    (htokens : d.tokens = ts.map Placed.token) (hnesting : d.nesting ≤ maxNesting) :
    Expr.ofTokens ts = .ok d.expr := by
  obtain ⟨hshorter, hread⟩ := (Level.Reads.withDepth maxNesting).disjunction.complete d
    (Nat.lt_succ_of_le hnesting) (List.append_nil ts).symm htokens.symm .nil
  have hfits : ¬ maxTokens < ts.length := Nat.not_lt.mpr hlength
  unfold Expr.ofTokens
  rw [if_neg (by simpa using hnonempty), if_neg hfits, hread]
  rfl

/-- Reading accepts exactly what the grammar derives: a list of tokens is read as an expression if
it is not empty, not too long, and has a derivation that nests no deeper than allowed and stands for
the expression. No list of tokens has a second derivation. -/
theorem Expr.ofTokens_eq_ok_iff (ts : List Placed) (e : Expr) :
    (Expr.ofTokens ts = .ok e ↔
      ts ≠ [] ∧ ts.length ≤ 1024 ∧
        ∃ d : ParseTree .start, d.tokens = ts.map Placed.token ∧ d.nesting ≤ 64 ∧ d.expr = e) ∧
      ∀ d d' : ParseTree .start, d.tokens = d'.tokens → d = d' := by
  refine ⟨⟨Expr.exists_of_ofTokens_eq_ok, ?_⟩, fun _ _ ↦ ParseTree.eq_of_tokens_eq⟩
  rintro ⟨hnonempty, hlength, d, htokens, hnesting, rfl⟩
  exact d.ofTokens_eq_ok hnonempty hlength htokens hnesting

/-- An operand of one token where a sum may stand. -/
def ParseTree.ofAtom (a : Atom) : ParseTree (.chain .sum) :=
  let signed : ParseTree (.unary .neg) := .plain (.atom a)
  .chain (t := .sum) (.chain (t := .product) signed .nil) .nil

/-- The chain of comparisons `0 <= a < 5` is read as the conjunction of `0 <= a` and `a < 5`. -/
theorem Expr.ofTokens_comparisons :
    Expr.ofTokens [⟨.number 0, 0⟩, ⟨.comparison .le, 2⟩, ⟨.identifier "a", 5⟩,
        ⟨.comparison .lt, 7⟩, ⟨.number 5, 9⟩] =
      .ok (.binary (.connective .and)
        (.binary (.comparison .le) (.number 0) (.identifier "a"))
        (.binary (.comparison .lt) (.identifier "a") (.number 5))) := by
  let comparisons : ParseTree (.chain .comparison) :=
    .chain (.ofAtom (.number 0))
      (.cons (.comparison .le) rfl (.ofAtom (.identifier "a"))
        (.cons (.comparison .lt) rfl (.ofAtom (.number 5)) .nil))
  let tree : ParseTree .start := .chain (.chain (.plain comparisons) .nil) .nil
  exact (Expr.ofTokens_eq_ok_iff _ _).1.mpr
    ⟨List.cons_ne_nil _ _, by decide, tree, rfl, Nat.zero_le _, rfl⟩

end DataQuality
