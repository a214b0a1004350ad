import DataQuality.Expr.Eval
import DataQuality.Proofs.ReadingExpressions

/-!
# Chains of comparisons

A chain of comparisons is built as a conjunction of pairs, in which each operand between two
comparisons stands twice. It has the value, or the error, of comparing the operands in turn, each
of them evaluated once.
-/

namespace DataQuality

/-! ### Comparing in turn -/

/-- Compares a value with that of the next operand and goes on from there, as long as the
comparisons hold. -/
def compareOn (names : String → Option Scalar) :
    (previous : Scalar) → List (Comparison × Expr) → Except EvaluationError Scalar
  | _, [] => .ok (.bool true)
  | previous, (op, operand) :: steps =>
    (operand.eval names).bind fun value ↦ (op.apply previous value).bind fun holds ↦
      match holds with
      | .bool true => compareOn names value steps
      | _ => .ok (.bool false)

/-- Evaluates the first operand and compares the others in turn. -/
def compareInTurn (names : String → Option Scalar) (first : Expr)
    (steps : List (Comparison × Expr)) : Except EvaluationError Scalar :=
  (first.eval names).bind fun value ↦ compareOn names value steps

/-- The operators of a chain with the expressions behind them. -/
def comparisonSteps (steps : List (Comparison × Expr)) : List (BinaryOp × Expr) :=
  steps.map fun step ↦ (.comparison step.1, step.2)

/-! ### Conjunctions -/

/-- A comparison comes to a truth value, if to any. -/
theorem Comparison.exists_of_apply_eq_ok {op : Comparison} {left right value : Scalar}
    (h : op.apply left right = .ok value) : ∃ holds, value = .bool holds := by
  unfold Comparison.apply at h
  split at h
  · exact ⟨_, (Except.ok.inj h).symm⟩
  · exact ⟨_, (Except.ok.inj h).symm⟩
  · split at h
    · exact ⟨_, (Except.ok.inj h).symm⟩
    · exact ⟨_, (Except.ok.inj h).symm⟩
    · cases h

variable {names : String → Option Scalar} {e : Expr}

/-- The conjunction of an expression with others, grouped to the left. -/
def conjoin (e : Expr) (others : List Expr) : Expr :=
  foldLeft e (others.map fun other ↦ (.connective .and, other))

/-- Behind what fails nothing is evaluated. -/
theorem eval_conjoin_of_error {error : EvaluationError} (h : e.eval names = .error error)
    (others : List Expr) : (conjoin e others).eval names = .error error := by
  induction others generalizing e with
  | nil => exact h
  | cons other others ih =>
    refine ih (e := .binary (.connective .and) e other) ?_
    rw [Expr.eval, h]
    rfl

/-- Nor behind what is false. -/
theorem eval_conjoin_of_false (h : e.eval names = .ok (.bool false)) (others : List Expr) :
    (conjoin e others).eval names = .ok (.bool false) := by
  induction others generalizing e with
  | nil => exact h
  | cons other others ih =>
    refine ih (e := .binary (.connective .and) e other) ?_
    rw [Expr.eval, h]
    rfl

/-- Behind what is true, a comparison decides. -/
theorem eval_and_comparison (h : e.eval names = .ok (.bool true)) (op : Comparison)
    (left right : Expr) :
    (Expr.binary (.connective .and) e (.binary (.comparison op) left right)).eval names =
      (Expr.binary (.comparison op) left right).eval names := by
  rw [Expr.eval, h]
  cases hpair : (Expr.binary (.comparison op) left right).eval names with
  | error error => rfl
  | ok value =>
    obtain ⟨l, -, hright⟩ := exists_of_bind_eq_ok hpair
    obtain ⟨r, -, hvalue⟩ := exists_of_bind_eq_ok hright
    obtain ⟨holds, rfl⟩ := Comparison.exists_of_apply_eq_ok hvalue
    rfl

/-! ### Chains -/

section

variable {operand : Expr} {op : Comparison} {previous : Scalar} {steps : List (Comparison × Expr)}

/-- What has the value of a comparison decides, unless it is true; then the others do. -/
theorem eval_conjoin_of_comparison {others : List Expr}
    (h : e.eval names = (operand.eval names).bind (op.apply previous))
    (hothers : ∀ value, operand.eval names = .ok value → e.eval names = .ok (.bool true) →
      (conjoin e others).eval names = compareOn names value steps) :
    (conjoin e others).eval names = compareOn names previous ((op, operand) :: steps) := by
  rw [compareOn]
  cases hvalue : operand.eval names with
  | error error =>
    rw [hvalue] at h
    exact eval_conjoin_of_error h others
  | ok value =>
    rw [hvalue] at h
    change e.eval names = op.apply previous value at h
    change _ = (op.apply previous value).bind _
    cases hholds : op.apply previous value with
    | error error => exact eval_conjoin_of_error (h.trans hholds) others
    | ok holds =>
      obtain ⟨holds, rfl⟩ := Comparison.exists_of_apply_eq_ok hholds
      cases holds with
      | false => exact eval_conjoin_of_false (h.trans hholds) others
      | true => exact hothers value hvalue (h.trans hholds)

/-- Behind what is true, a chain of comparisons goes on from the value of its first operand. -/
theorem eval_conjoin_neighbours (htrue : e.eval names = .ok (.bool true))
    (hprevious : operand.eval names = .ok previous) :
    (conjoin e (neighbours operand (comparisonSteps steps))).eval names =
      compareOn names previous steps := by
  induction steps generalizing e operand previous with
  | nil => exact htrue
  | cons step steps ih =>
    obtain ⟨op, next⟩ := step
    let pair : Expr := .binary (.comparison op) operand next
    have hpair : pair.eval names = (next.eval names).bind (op.apply previous) := by
      rw [Expr.eval, hprevious]
      rfl
    exact eval_conjoin_of_comparison (e := .binary (.connective .and) e pair)
      ((eval_and_comparison htrue op operand next).trans hpair) fun _ hvalue hholds ↦
        ih hholds hvalue

end

/-- A chain of comparisons has the value of comparing its operands in turn. -/
theorem eval_foldChain (first : Expr) (step : Comparison × Expr)
    (steps : List (Comparison × Expr)) :
    (foldChain first (comparisonSteps (step :: steps))).eval names =
      compareInTurn names first (step :: steps) := by
  obtain ⟨op, operand⟩ := step
  let pair : Expr := .binary (.comparison op) first operand
  change (conjoin pair (neighbours operand (comparisonSteps steps))).eval names = _
  rw [compareInTurn]
  cases hfirst : first.eval names with
  | error error =>
    refine eval_conjoin_of_error ?_ _
    rw [Expr.eval, hfirst]
    rfl
  | ok previous =>
    refine eval_conjoin_of_comparison ?_ fun _ hvalue hholds ↦
      eval_conjoin_neighbours hholds hvalue
    rw [Expr.eval, hfirst]
    rfl

/-! ### Derivations -/

/-- Comparison signs with operands behind them. -/
def ParseSteps.comparisons :
    List (Comparison × ParseTree Tier.comparison.operand) → ParseSteps .comparison
  | [] => .nil
  | step :: steps => .cons (.comparison step.1) rfl step.2 (comparisons steps)

/-- A chain of comparisons. -/
def ParseTree.comparisons (first : ParseTree Tier.comparison.operand)
    (steps : List (Comparison × ParseTree Tier.comparison.operand)) : ParseTree .start :=
  let compared : ParseTree (.chain .comparison) := .chain first (.comparisons steps)
  .chain (t := .disjunction) (.chain (t := .conjunction) (.plain compared) .nil) .nil

section

variable (first : ParseTree Tier.comparison.operand)
  (steps : List (Comparison × ParseTree Tier.comparison.operand))

theorem ParseTree.tokens_comparisons :
    (ParseTree.comparisons first steps).tokens =
      first.tokens ++ steps.flatMap fun step ↦ .comparison step.1 :: step.2.tokens := by
  have hsteps : (ParseSteps.comparisons steps).tokens =
      steps.flatMap fun step ↦ .comparison step.1 :: step.2.tokens := by
    induction steps with
    | nil => rfl
    | cons step steps ih => exact congrArg ((.comparison step.1 :: step.2.tokens) ++ ·) ih
  change first.tokens ++ (ParseSteps.comparisons steps).tokens ++ [] ++ [] = _
  rw [List.append_nil, List.append_nil, hsteps]

theorem ParseTree.expr_comparisons :
    (ParseTree.comparisons first steps).expr =
      foldChain first.expr (comparisonSteps (steps.map fun step ↦ (step.1, step.2.expr))) := by
  have hsteps : (ParseSteps.comparisons steps).operations =
      comparisonSteps (steps.map fun step ↦ (step.1, step.2.expr)) := by
    induction steps with
    | nil => rfl
    | cons step steps ih => exact congrArg ((.comparison step.1, step.2.expr) :: ·) ih
  rw [← hsteps]
  exact (congrFun (congrFun (Tier.folded_eq_group .comparison) _) _).symm

theorem ParseTree.nesting_comparisons_le {limit : Nat} (hfirst : first.nesting ≤ limit)
    (hsteps : ∀ step ∈ steps, step.2.nesting ≤ limit) :
    (ParseTree.comparisons first steps).nesting ≤ limit := by
  have hbehind : (ParseSteps.comparisons steps).nesting ≤ limit := by
    induction steps with
    | nil => exact Nat.zero_le _
    | cons step steps ih =>
      obtain ⟨hstep, hsteps⟩ := List.forall_mem_cons.mp hsteps
      exact Nat.max_le.mpr ⟨hstep, ih hsteps⟩
  change max (max (max first.nesting (ParseSteps.comparisons steps).nesting) 0) 0 ≤ limit
  omega

end

/-- A chain of comparisons is read, whatever its operands are, and evaluating what was read is
comparing the operands in turn: each is evaluated once, the first step that fails ends it with its
error, and the first comparison that is false with false. -/
theorem Expr.eval_comparisons_eq_compareInTurn :
    (∀ (names : String → Option Scalar) (first : Expr) (next : Comparison × Expr)
        (steps : List (Comparison × Expr)),
      (foldChain first (comparisonSteps (next :: steps))).eval names =
        compareInTurn names first (next :: steps)) ∧
    ∀ (first : ParseTree Tier.comparison.operand)
        (next : Comparison × ParseTree Tier.comparison.operand)
        (steps : List (Comparison × ParseTree Tier.comparison.operand)) (ts : List Placed),
      ts.map Placed.token = first.tokens ++
          (next :: steps).flatMap (fun step ↦ .comparison step.1 :: step.2.tokens) →
      ts.length ≤ 1024 → first.nesting ≤ 64 → (∀ step ∈ next :: steps, step.2.nesting ≤ 64) →
      ∃ e, Expr.ofTokens ts = .ok e ∧ ∀ names, e.eval names =
        compareInTurn names first.expr
          ((next :: steps).map fun step ↦ (step.1, step.2.expr)) := by
  refine ⟨fun _ ↦ eval_foldChain, fun first next steps ts htokens hlength hfirst hsteps ↦ ?_⟩
  rw [← ParseTree.tokens_comparisons] at htokens
  have hread := (ParseTree.comparisons first (next :: steps)).ofTokens_eq_ok
    (by rintro rfl; simp [ParseTree.tokens_comparisons] at htokens) hlength htokens.symm
    (ParseTree.nesting_comparisons_le first (next :: steps) hfirst hsteps)
  refine ⟨_, hread, fun names ↦ ?_⟩
  rw [ParseTree.expr_comparisons]
  exact eval_foldChain _ _ _

/-- The quotient `1 / 0`. -/
def ParseTree.oneByZero : ParseTree Tier.comparison.operand :=
  let one : ParseTree (.unary .neg) := .plain (.atom (.number 1))
  let zero : ParseTree (.unary .neg) := .plain (.atom (.number 0))
  .chain (t := .sum) (.chain (t := .product) one (.cons (.arithmetic .div) rfl zero .nil)) .nil

/-- The tokens of a chain like `2 < 1 < 1 / 0`, with any comparison in the first place. -/
def oneByZeroCompared (op : Comparison) : List Placed :=
  [⟨.number 2, 0⟩, ⟨.comparison op, 2⟩, ⟨.number 1, 4⟩, ⟨.comparison .lt, 6⟩, ⟨.number 1, 8⟩,
    ⟨.slash, 10⟩, ⟨.number 0, 12⟩]

/-- In `2 < 1 < 1 / 0` the last operand is never evaluated, in `2 > 1 < 1 / 0` it is. -/
theorem Expr.eval_oneByZeroCompared :
    (∃ e, Expr.ofTokens (oneByZeroCompared .lt) = .ok e ∧
      ∀ names, e.eval names = .ok (.bool false)) ∧
    ∃ e, Expr.ofTokens (oneByZeroCompared .gt) = .ok e ∧
      ∀ names, e.eval names = .error .divisionByZero := by
  let one : ParseTree Tier.comparison.operand := .ofAtom (.number 1)
  let two : ParseTree Tier.comparison.operand := .ofAtom (.number 2)
  constructor
  · obtain ⟨e, hread, heval⟩ := eval_comparisons_eq_compareInTurn.2 two (.lt, one)
      [(.lt, .oneByZero)] (oneByZeroCompared .lt) rfl (by decide) (by decide) (by simp; decide)
    exact ⟨e, hread, fun names ↦ (heval names).trans rfl⟩
  · obtain ⟨e, hread, heval⟩ := eval_comparisons_eq_compareInTurn.2 two (.gt, one)
      [(.lt, .oneByZero)] (oneByZeroCompared .gt) rfl (by decide) (by decide) (by simp; decide)
    exact ⟨e, hread, fun names ↦ (heval names).trans rfl⟩

end DataQuality
