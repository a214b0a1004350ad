import DataQuality.Expr.Eval
import DataQuality.Proofs.ReadingExpressions

/-!
# Heights of trees

An expression is no higher than the tokens that it was read from are many: each level of its tree
takes an operator or a pair of parentheses, also where a chain of comparisons repeats its operands.
So evaluating it, showing it and collecting its names never go deeper than it has tokens.
-/

namespace DataQuality

/-! ### Grouping -/

/-- The height of the highest of some expressions. -/
def highest (es : List Expr) : Nat := (es.map Expr.height).foldr max 0

@[simp] theorem highest_nil : highest [] = 0 := rfl

@[simp] theorem highest_cons (e : Expr) (es : List Expr) :
    highest (e :: es) = max e.height (highest es) := rfl

/-- Each operator that groups to the left adds a level at most. -/
theorem height_groupLeft_le (first : Expr) (steps : List (BinaryOp × Expr)) :
    (groupLeft first steps).height ≤
      max first.height (highest (steps.map Prod.snd)) + steps.length := by
  induction steps generalizing first with
  | nil => simp [groupLeft]
  | cons step steps ih =>
    have hrest := ih (.binary step.1 first step.2)
    simp only [Expr.height] at hrest
    change (groupLeft (.binary step.1 first step.2) steps).height ≤ _
    simp only [List.map_cons, highest_cons, List.length_cons]
    omega

/-- A comparison is one level above its operands. -/
theorem highest_comparePairs_le (first : Expr) (steps : List (BinaryOp × Expr)) :
    highest (comparePairs first steps) ≤
      max first.height (highest (steps.map Prod.snd)) + 1 := by
  induction steps generalizing first with
  | nil => simp [comparePairs]
  | cons step steps ih =>
    have hrest := ih step.2
    change highest (.binary step.1 first step.2 :: comparePairs step.2 steps) ≤ _
    simp only [List.map_cons, highest_cons, Expr.height]
    omega

theorem length_comparePairs (first : Expr) (steps : List (BinaryOp × Expr)) :
    (comparePairs first steps).length = steps.length := by
  simp [comparePairs]

/-- The conjunction of a chain is the conjunction of its pairs, grouped to the left. -/
theorem conjoinPairs_cons (first : Expr) (step : BinaryOp × Expr)
    (steps : List (BinaryOp × Expr)) :
    conjoinPairs first (step :: steps) = groupLeft (.binary step.1 first step.2)
      ((comparePairs step.2 steps).map fun pair ↦ (.connective .and, pair)) := by
  rw [groupLeft, List.foldl_map]
  rfl

/-- Whatever the operators are, a group is no more levels above its operands than it has
operators. -/
theorem Tier.height_group_le (t : Tier) (first : Expr) (steps : List (BinaryOp × Expr)) :
    (t.group first steps).height ≤
      max first.height (highest (steps.map Prod.snd)) + steps.length := by
  cases t with
  | comparison =>
    cases steps with
    | nil => simp [group, conjoinPairs, comparePairs]
    | cons step steps =>
      -- The first pair is one level above its operands, and each further pair adds one.
      have hfold := height_groupLeft_le (.binary step.1 first step.2)
        ((comparePairs step.2 steps).map fun pair ↦ (.connective .and, pair))
      have hpairs := highest_comparePairs_le step.2 steps
      rw [← conjoinPairs_cons] at hfold
      simp only [List.map_map, Function.comp_def, List.map_id', List.length_map,
        length_comparePairs, Expr.height] at hfold
      change (conjoinPairs first (step :: steps)).height ≤ _
      simp only [List.map_cons, highest_cons, List.length_cons]
      omega
  | _ => exact height_groupLeft_le first steps

/-! ### Derivations -/

mutual

/-- An expression is no higher than its derivation has tokens. -/
theorem ParseTree.height_le : {n : Nonterminal} → (d : ParseTree n) →
    d.expr.height ≤ d.tokens.length
  | _, @ParseTree.chain t first steps => by
    have hgroup := t.height_group_le first.expr steps.operations
    have hfirst := first.height_le
    have hsteps := steps.height_le
    simp only [ParseTree.expr, ParseTree.tokens, List.length_append]
    omega
  | _, .unary op inner => Nat.succ_le_succ inner.height_le
  | _, .plain inner => inner.height_le
  | _, .atom a => by cases a <;> exact Nat.le_refl 1
  | _, .parenthesized inner => by
    have hinner := inner.height_le
    simp only [ParseTree.expr, ParseTree.tokens, List.length_append, List.length_cons]
    omega

/-- Operators have tokens of their own beside those of the highest operand. -/
theorem ParseSteps.height_le : {t : Tier} → (steps : ParseSteps t) →
    highest (steps.operations.map Prod.snd) + steps.operations.length ≤ steps.tokens.length
  | _, .nil => Nat.le_refl 0
  | _, .cons op fits operand rest => by
    have hoperand := operand.height_le
    have hrest := rest.height_le
    simp only [ParseSteps.operations, ParseSteps.tokens, List.map_cons, highest_cons,
      List.length_append, List.length_cons]
    omega

end

/-! ### Walks -/

namespace Expr

/-- A computation over expressions that goes from the operands up. -/
structure Walk (α : Type) where
  leaf : Atom → α
  unary : UnaryOp → α → α
  binary : BinaryOp → α → α → α

namespace Walk

variable {α : Type} (w : Walk α)

/-- What a walk over the whole expression comes to. -/
def run : Expr → α
  | number value => w.leaf (.number value)
  | text value => w.leaf (.text value)
  | bool value => w.leaf (.bool value)
  | null => w.leaf .null
  | identifier name => w.leaf (.identifier name)
  | .unary op operand => w.unary op (run operand)
  | .binary op left right => w.binary op (run left) (run right)

/-- The same walk, given up where more than `depth` calls would be inside each other. -/
def within : (depth : Nat) → Expr → Option α
  | 0, _ => none
  | _ + 1, number value => some (w.leaf (.number value))
  | _ + 1, text value => some (w.leaf (.text value))
  | _ + 1, bool value => some (w.leaf (.bool value))
  | _ + 1, null => some (w.leaf .null)
  | _ + 1, identifier name => some (w.leaf (.identifier name))
  | depth + 1, .unary op operand => (within depth operand).map (w.unary op)
  | depth + 1, .binary op left right =>
    (within depth left).bind fun l ↦ (within depth right).map (w.binary op l)

/-- A walk goes as deep as the expression is high. -/
theorem within_eq_some_iff {depth : Nat} {e : Expr} {a : α} :
    w.within depth e = some a ↔ e.height ≤ depth ∧ w.run e = a := by
  induction e generalizing depth a with
  | unary op operand ih =>
    cases depth with
    | zero => simp [within, height]
    | succ depth => simp [within, height, run, ih, and_assoc]
  | binary op left right ihl ihr =>
    cases depth with
    | zero => simp [within, height]
    | succ depth =>
      simp only [within, height, run, Option.bind_eq_some_iff, Option.map_eq_some_iff, ihl, ihr]
      constructor
      · rintro ⟨_, ⟨hl, rfl⟩, _, ⟨hr, rfl⟩, rfl⟩
        exact ⟨Nat.succ_le_succ (Nat.max_le.mpr ⟨hl, hr⟩), rfl⟩
      · rintro ⟨hdepth, rfl⟩
        obtain ⟨hl, hr⟩ := Nat.max_le.mp (Nat.le_of_succ_le_succ hdepth)
        exact ⟨_, ⟨hl, rfl⟩, _, ⟨hr, rfl⟩, rfl⟩
  | _ => cases depth <;> simp [within, height, run]

/-- Finding the value. -/
def evaluation (names : String → Option Scalar) : Walk (Except EvaluationError Scalar) where
  leaf a := a.expr.eval names
  unary op operand := operand.bind op.apply
  binary op left right :=
    match op with
    | .connective op =>
      left.bind fun l ↦ (op.operand l).bind fun l ↦
        if op.decidedBy l then .ok (.bool l)
        else right.bind fun r ↦ (op.operand r).map .bool
    | .comparison op => left.bind fun l ↦ right.bind (op.apply l)
    | .arithmetic op => left.bind fun l ↦ right.bind (op.apply l)

theorem run_evaluation (names : String → Option Scalar) (e : Expr) :
    (evaluation names).run e = e.eval names := by
  induction e with
  | unary op operand ih => rw [run, ih]; rfl
  | binary op left right ihl ihr =>
    rw [run, ihl, ihr]
    cases op <;> rfl
  | _ => rfl

/-- Showing the expression. -/
def display : Walk String where
  leaf a := a.expr.render
  unary op operand :=
    match op with
    | .neg => "-(" ++ operand ++ ")"
    | .not => "not (" ++ operand ++ ")"
  binary op left right := "(" ++ left ++ " " ++ op.symbol ++ " " ++ right ++ ")"

theorem run_display (e : Expr) : display.run e = e.render := by
  induction e with
  | unary op operand ih =>
    rw [run, ih]
    cases op <;> rfl
  | binary op left right ihl ihr => rw [run, ihl, ihr]; rfl
  | _ => rfl

/-- Collecting the names, from left to right. -/
def naming : Walk (List String) where
  leaf a := a.expr.references
  unary _ operand := operand
  binary _ left right := left ++ right

theorem run_naming (e : Expr) : naming.run e = e.references := by
  induction e with
  | unary op operand ih => rw [run, ih]; rfl
  | binary op left right ihl ihr => rw [run, ihl, ihr]; rfl
  | _ => rfl

end Walk

end Expr

/-! ### Comparisons inside each other -/

namespace ParseTree

variable (inner : ParseTree (.chain .sum))

/-- The chain of comparisons `a < … < a`. -/
def comparing (middle : ParseTree (.chain .sum)) : ParseTree .start :=
  let a : ParseTree (.chain .sum) := .ofAtom (.identifier "a")
  let comparisons : ParseTree (.chain .comparison) :=
    .chain a (.cons (.comparison .lt) rfl middle (.cons (.comparison .lt) rfl a .nil))
  .chain (.chain (.plain comparisons) .nil) .nil

/-- Such chains in parentheses, one in the middle of the other. -/
def nested : Nat → ParseTree (.chain .sum)
  | 0 => inner
  | count + 1 =>
    let operand : ParseTree (.unary .neg) := .plain (.parenthesized (nested count).comparing)
    .chain (t := .sum) (.chain (t := .product) operand .nil) .nil

theorem tokens_comparing (middle : ParseTree (.chain .sum)) :
    middle.comparing.tokens = .identifier "a" :: .comparison .lt ::
      (middle.tokens ++ [.comparison .lt, .identifier "a"]) := by
  simp [comparing, tokens, ParseSteps.tokens, ofAtom, BinaryOp.token, Atom.token]
  rfl

theorem tokens_nested_succ (count : Nat) :
    (inner.nested (count + 1)).tokens =
      .leftParen :: ((inner.nested count).comparing.tokens ++ [.rightParen]) := by
  simp [nested, tokens, ParseSteps.tokens]

theorem length_nested (count : Nat) :
    (inner.nested count).tokens.length = inner.tokens.length + 6 * count := by
  induction count with
  | zero => rfl
  | succ count ih =>
    simp only [tokens_nested_succ, tokens_comparing, List.length_cons, List.length_append, ih,
      List.length_nil]
    omega

/-- The tokens of a derivation, each at the next position. -/
def placed (d : ParseTree .start) : List Placed := d.tokens.zipIdx.map fun tok ↦ ⟨tok.1, tok.2⟩

@[simp] theorem map_token_placed (d : ParseTree .start) :
    d.placed.map Placed.token = d.tokens := by
  rw [placed, List.map_map]
  exact List.zipIdx_map_fst 0 d.tokens

/-- A derivation is read from its tokens. -/
theorem ofTokens_placed (d : ParseTree .start) (hlength : d.tokens.length ≤ maxTokens)
    (hnesting : d.nesting ≤ maxNesting) : Expr.ofTokens d.placed = .ok d.expr := by
  have hplaced := d.map_token_placed
  refine d.ofTokens_eq_ok ?_ ?_ hplaced.symm hnesting
  · obtain ⟨tok, rest, hhead, -⟩ := d.exists_head
    rintro hnil
    rw [hnil, hhead] at hplaced
    cases hplaced
  · rwa [← List.length_map Placed.token, hplaced]

end ParseTree

/-! ### Expressions that are read -/

namespace Expr

/-- An expression that is read is no higher than its tokens are many, which are at most 1024, and
evaluating it, showing it and collecting its names never go deeper than that. -/
theorem height_le_length {ts : List Placed} {e : Expr} (h : Expr.ofTokens ts = .ok e) :
    e.height ≤ ts.length ∧ ts.length ≤ 1024 ∧
      (∀ names, (Walk.evaluation names).within ts.length e = some (e.eval names)) ∧
      Walk.display.within ts.length e = some e.render ∧
      Walk.naming.within ts.length e = some e.references := by
  obtain ⟨-, hlength, d, htokens, -, rfl⟩ := Expr.exists_of_ofTokens_eq_ok h
  have hheight : d.expr.height ≤ ts.length := by
    have hd := d.height_le
    rwa [htokens, List.length_map] at hd
  refine ⟨hheight, hlength, fun names ↦ ?_, ?_, ?_⟩
  · exact (Walk.within_eq_some_iff _).mpr ⟨hheight, Walk.run_evaluation names _⟩
  · exact (Walk.within_eq_some_iff _).mpr ⟨hheight, Walk.run_display _⟩
  · exact (Walk.within_eq_some_iff _).mpr ⟨hheight, Walk.run_naming _⟩

/-- The chain `a < (a < a < a) < a` has eleven tokens and a height of five. -/
theorem height_comparing_nested :
    let d := (ParseTree.nested (.ofAtom (.identifier "a")) 1).comparing
    d.expr.height = 5 ∧ d.placed.length = 11 ∧ d.expr.height ≤ d.placed.length ∧
      (∀ names, (Walk.evaluation names).within d.placed.length d.expr =
        some (d.expr.eval names)) := by
  intro d
  have hread : Expr.ofTokens d.placed = .ok d.expr := d.ofTokens_placed (by decide) (by decide)
  obtain ⟨hheight, -, heval, -⟩ := height_le_length hread
  exact ⟨rfl, rfl, hheight, heval⟩

end Expr

end DataQuality
