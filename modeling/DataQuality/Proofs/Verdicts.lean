import DataQuality.Proofs.CompiledTests
import DataQuality.Proofs.Computations
import DataQuality.Proofs.ReadingTexts
import DataQuality.Test.Evaluation

/-!
# Verdicts

What becomes of a test that is judged once. All its names are bound before its expression is looked
at, so a measurement that cannot be used makes it an error whatever the expression is; only when
every name has its scalar does the value of the expression decide.
-/

namespace DataQuality

/-! ### What a test can use of a measurement -/

/-- The scalar that a value is used as. -/
inductive Value.Is : Value → Scalar → Prop
  | null : Is .null .null
  | bool (b : Bool) : Is (.bool b) (.bool b)
  | int (i : Int) : Is (.int i) (.number (Number.ofInt i))
  | float (x : Float) : Is (.float x) (.number x)
  | text (s : String) : Is (.text s) (.text s)

/-- Why the measurement of a key cannot be used for a name: it was never taken, it failed, it was
skipped, or its value is no scalar. -/
inductive Unusable (ms : MeasurementSet) (key : MetricKey) (name : String) : EvaluationError → Prop
  | absent (h : ms.get? key = none) : Unusable ms key name (.unavailable name "not measured")
  | failed {m : Measurement} {reason : String} (h : ms.get? key = some m)
      (hreading : m.reading = .failed reason) : Unusable ms key name (.unavailable name reason)
  | skipped {m : Measurement} {reason : String} (h : ms.get? key = some m)
      (hreading : m.reading = .skipped reason) : Unusable ms key name (.unavailable name reason)
  | structured {m : Measurement} {v : Value} (h : ms.get? key = some m)
      (hreading : m.reading = .measured v) (hscalar : ∀ s, ¬ v.Is s) :
      Unusable ms key name (.nonScalar name v.kind)

namespace CompiledTest

/-- The name is bound to a measurement that cannot be used, with the error that this is. -/
def Lacks (t : CompiledTest) (ms : MeasurementSet) (name : String) (e : EvaluationError) : Prop :=
  ∃ key, t.bindings.get? name = some key ∧ Unusable ms key name e

/-- The name is bound to a measurement with the scalar as its value. -/
def Measures (t : CompiledTest) (ms : MeasurementSet) (name : String) (s : Scalar) : Prop :=
  ∃ key m v, t.bindings.get? name = some key ∧ ms.get? key = some m ∧ m.reading = .measured v ∧
    v.Is s

end CompiledTest

namespace Value

theorem Is.unique {v : Value} {s s' : Scalar} (h : v.Is s) (h' : v.Is s') : s = s' := by
  cases h <;> cases h' <;> rfl

theorem toScalar_eq_ok_iff {v : Value} {name : String} {s : Scalar} :
    v.toScalar name = .ok s ↔ v.Is s := by
  constructor
  · intro h
    cases v with
    | null => exact Except.ok.inj h ▸ .null
    | bool b => exact Except.ok.inj h ▸ .bool b
    | int i => exact Except.ok.inj h ▸ .int i
    | float x => exact Except.ok.inj h ▸ .float x
    | text t => exact Except.ok.inj h ▸ .text t
    | _ => cases h
  · intro h
    cases h <;> rfl

/-- Where there is no scalar, the kind of the value is reported. -/
theorem toScalar_eq_error {v : Value} {name : String} {e : EvaluationError}
    (h : v.toScalar name = .error e) : e = .nonScalar name v.kind := by
  cases v <;> first | exact (Except.error.inj h).symm | cases h

end Value

namespace BoundName

variable {ms : MeasurementSet} {key : MetricKey} {name : String}

/-- A name is bound to the scalar of what was measured. -/
theorem of_ofMeasurement_eq_ok {b : BoundName} (h : ofMeasurement ms name key = .ok b) :
    b.name = name ∧ ∃ m v, ms.get? key = some m ∧ m.reading = .measured v ∧ v.Is b.scalar := by
  unfold ofMeasurement at h
  cases hget : ms.get? key with
  | none => simp [hget] at h
  | some m =>
    cases hreading : m.reading with
    | measured v =>
      simp only [hget, Option.map_some, hreading] at h
      obtain ⟨s, hs, rfl⟩ := exists_of_map_eq_ok h
      exact ⟨rfl, m, v, rfl, hreading, Value.toScalar_eq_ok_iff.mp hs⟩
    | failed reason => simp [hget, hreading] at h
    | skipped reason => simp [hget, hreading] at h

/-- A name is not bound exactly if its measurement cannot be used, which is the error. -/
theorem ofMeasurement_eq_error_iff {e : EvaluationError} :
    ofMeasurement ms name key = .error e ↔ Unusable ms key name e := by
  constructor
  · intro h
    unfold ofMeasurement at h
    cases hget : ms.get? key with
    | none =>
      simp only [hget, Option.map_none] at h
      exact Except.error.inj h ▸ .absent hget
    | some m =>
      cases hreading : m.reading with
      | measured v =>
        simp only [hget, Option.map_some, hreading] at h
        cases hscalar : v.toScalar name with
        | ok s => simp [ofValue, hscalar, Except.map] at h
        | error e' =>
          simp only [ofValue, hscalar, Except.map, Except.error.injEq] at h
          rw [← h, Value.toScalar_eq_error hscalar]
          refine .structured hget hreading fun s hs ↦ ?_
          rw [Value.toScalar_eq_ok_iff.mpr hs] at hscalar
          cases hscalar
      | failed reason =>
        simp only [hget, Option.map_some, hreading] at h
        exact Except.error.inj h ▸ .failed hget hreading
      | skipped reason =>
        simp only [hget, Option.map_some, hreading] at h
        exact Except.error.inj h ▸ .skipped hget hreading
  · intro h
    cases h with
    | absent hget => simp [ofMeasurement, hget, notMeasured]
    | failed hget hreading => simp [ofMeasurement, hget, hreading]
    | skipped hget hreading => simp [ofMeasurement, hget, hreading]
    | @structured m v hget hreading hscalar =>
      cases hs : v.toScalar name with
      | ok s => exact absurd (Value.toScalar_eq_ok_iff.mp hs) (hscalar s)
      | error e =>
        simp [ofMeasurement, hget, hreading, ofValue, hs, Except.map, Value.toScalar_eq_error hs]

end BoundName

/-! ### Expressions and the names they refer to -/

/-- The value of an expression depends on the names that it refers to, and on no others. -/
theorem Expr.eval_congr {names names' : String → Option Scalar} {e : Expr}
    (h : ∀ name ∈ e.references, names name = names' name) : e.eval names = e.eval names' := by
  induction e with
  | number value => rfl
  | text value => rfl
  | bool value => rfl
  | null => rfl
  | identifier name => rw [eval, eval, h name (List.mem_singleton_self name)]
  | unary op operand ih => rw [eval, eval, ih h]
  | binary op left right ihl ihr =>
    have hl := ihl fun name hname ↦ h name (List.mem_append_left _ hname)
    have hr := ihr fun name hname ↦ h name (List.mem_append_right _ hname)
    cases op <;> simp only [eval, hl, hr]

/-! ### Names and what they are bound to -/

namespace Dict

variable {α : Type}

private theorem get?_foldl_insert (f : String → Option α) (names : List String) (name : String)
    (d : Dict α) :
    ((names.filterMap fun n ↦ (f n).map fun a ↦ (n, a)).foldl
        (fun d e ↦ d.insert e.1 e.2) d).get? name =
      if name ∈ names then (f name).or (d.get? name) else d.get? name := by
  induction names generalizing d with
  | nil => simp
  | cons n rest ih =>
    cases hn : f n with
    | none =>
      rw [List.filterMap_cons_none (by rw [hn]; rfl), ih]
      by_cases hname : name = n
      · subst hname
        simp [hn]
      · simp [hname]
    | some a =>
      rw [List.filterMap_cons_some (by rw [hn]; rfl), List.foldl_cons, ih, get?_insert]
      by_cases hname : name = n
      · subst hname
        simp [hn]
      · simp [hname]

/-- Of entries whose values depend on their keys, every key leads to its value. -/
theorem get?_ofList_filterMap (f : String → Option α) (names : List String) (name : String) :
    (ofList (names.filterMap fun n ↦ (f n).map fun a ↦ (n, a))).get? name =
      if name ∈ names then f name else none := by
  rw [ofList, get?_foldl_insert, get?_empty, Option.or_none]

end Dict

namespace TestScope

variable {scope : TestScope} {available : List MetricKey} {index : Nat} {source : String}
  {t : CompiledTest}

/-- In a compiled test that is judged once, the names it refers to are bound to what they stand
for, and no others are bound. -/
theorem get?_bindings_of_compileOne (h : scope.compileOne available index source = .ok t)
    (hsingle : t.grouped = none) (name : String) :
    t.bindings.get? name =
      if name ∈ t.expression.tree.references then scope.resolve? available name else none := by
  obtain ⟨expression, -, -, rfl⟩ := compileOne_eq_ok_iff.mp h
  have hgrouped : scope.grouped = none := hsingle
  simp only [bindings, hgrouped, Option.isSome_none, Bool.false_eq_true, if_false,
    Dict.get?_ofList_filterMap, TestExpression.identifiers, Expr.mem_identifiers]

/-- Every name of a compiled test that is judged once stands for something. -/
theorem isSome_resolve?_of_compileOne (h : scope.compileOne available index source = .ok t)
    (hsingle : t.grouped = none) :
    ∀ name ∈ t.expression.tree.references, (scope.resolve? available name).isSome := by
  obtain ⟨expression, -, hunresolved, rfl⟩ := compileOne_eq_ok_iff.mp h
  intro name hname
  exact unresolved_eq_nil_iff.mp hunresolved hsingle name (Expr.mem_identifiers.mpr hname)

end TestScope

/-! ### Results that are there and errors that are there -/

section

variable {α β ε : Type} {f : α → Except ε β} {l : List α}

theorem mem_successes_map {b : β} : b ∈ successes (l.map f) ↔ ∃ a ∈ l, f a = .ok b := by
  rw [mem_successes_iff, List.mem_map]

/-- The first error comes from the first member that gives one. -/
theorem exists_of_failures_map_eq_cons {e : ε} {es : List ε} (h : failures (l.map f) = e :: es) :
    ∃ before a after, l = before ++ a :: after ∧ f a = .error e ∧
      ∀ b ∈ before, ∃ r, f b = .ok r := by
  induction l with
  | nil => cases h
  | cons a rest ih =>
    cases hfa : f a with
    | error e' =>
      rw [List.map_cons, hfa] at h
      obtain ⟨rfl, -⟩ := List.cons.inj h
      exact ⟨[], a, rest, rfl, hfa, by simp⟩
    | ok r =>
      rw [List.map_cons, hfa] at h
      obtain ⟨before, b, after, rfl, hb, hbefore⟩ := ih h
      exact ⟨a :: before, b, after, rfl, hb, List.forall_mem_cons.mpr ⟨⟨r, hfa⟩, hbefore⟩⟩

/-- Without errors every member gives a result. -/
theorem forall_of_failures_map_eq_nil (h : failures (l.map f) = []) :
    ∀ a ∈ l, ∃ b, f a = .ok b := by
  intro a ha
  cases hfa : f a with
  | ok b => exact ⟨b, rfl⟩
  | error e =>
    have herror : e ∈ failures (l.map f) := mem_failures_iff.mpr (hfa ▸ List.mem_map_of_mem ha)
    rw [h] at herror
    cases herror

end

/-! ### Tests that are judged once -/

namespace CompiledTest

variable {t : CompiledTest} {ms : MeasurementSet}

/-- What binding the names of a test comes to. -/
def boundNames (t : CompiledTest) (ms : MeasurementSet) : List (Except EvaluationError BoundName) :=
  t.bindings.entries.map fun b ↦ BoundName.ofMeasurement ms b.1 b.2

/-- If some name lacks a measurement, the verdict is the error of the least name that does. -/
theorem exists_verdict_eq_error {name : String} {e : EvaluationError} (h : t.Lacks ms name e) :
    ∃ name e, t.Lacks ms name e ∧ t.verdict (t.boundNames ms) = .error e ∧
      ∀ other < name, ∀ e', ¬ t.Lacks ms other e' := by
  obtain ⟨key, hkey, hunusable⟩ := h
  cases hfail : failures (t.boundNames ms) with
  | nil =>
    obtain ⟨b, hb⟩ :=
      forall_of_failures_map_eq_nil hfail (name, key) (Dict.mem_entries_iff.mpr hkey)
    rw [BoundName.ofMeasurement_eq_error_iff.mpr hunusable] at hb
    cases hb
  | cons first rest =>
    obtain ⟨before, ⟨name', key'⟩, after, hentries, herror, hbefore⟩ :=
      exists_of_failures_map_eq_cons hfail
    have hascending := t.bindings.ascending
    have hget : t.bindings.get? name' = some key' :=
      Dict.mem_entries_iff.mp (by rw [hentries]; simp)
    refine ⟨name', first, ⟨key', hget, BoundName.ofMeasurement_eq_error_iff.mp herror⟩,
      by rw [verdict, hfail], ?_⟩
    rintro other hlt e' ⟨key₂, hkey₂, hunusable₂⟩
    have hmem := Dict.mem_entries_iff.mpr hkey₂
    rw [hentries] at hmem hascending
    obtain ⟨-, hbehind, -⟩ := List.pairwise_append.mp hascending
    obtain hmem | hmem := List.mem_append.mp hmem
    · obtain ⟨b, hb⟩ := hbefore _ hmem
      rw [BoundName.ofMeasurement_eq_error_iff.mpr hunusable₂] at hb
      cases hb
    · obtain heq | hmem := List.mem_cons.mp hmem
      · exact String.lt_irrefl _ ((Prod.mk.inj heq).1 ▸ hlt)
      · exact String.lt_irrefl _
          (String.lt_trans hlt ((List.pairwise_cons.mp hbehind).1 _ hmem))

/-- If no name lacks its measurement, the verdict is that on the expression, with every name bound
to the scalar that was measured. -/
theorem exists_verdict_eq_decide (h : ∀ name e, ¬ t.Lacks ms name e) :
    ∃ env, t.verdict (t.boundNames ms) = t.expression.tree.decide env ∧
      ∀ name key, t.bindings.get? name = some key →
        ∃ s, env name = some s ∧ t.Measures ms name s := by
  have hfail : failures (t.boundNames ms) = [] := by
    cases hfail : failures (t.boundNames ms) with
    | nil => rfl
    | cons e es =>
      obtain ⟨before, ⟨name, key⟩, after, hentries, herror, -⟩ :=
        exists_of_failures_map_eq_cons hfail
      refine absurd ⟨key, Dict.mem_entries_iff.mp ?_,
        BoundName.ofMeasurement_eq_error_iff.mp herror⟩ (h name e)
      rw [hentries]
      simp
  refine ⟨scalarOf (successes (t.boundNames ms)), by rw [verdict, hfail], fun name key hkey ↦ ?_⟩
  obtain ⟨b, hb⟩ := forall_of_failures_map_eq_nil hfail (name, key) (Dict.mem_entries_iff.mpr hkey)
  have hmem : b ∈ successes (t.boundNames ms) :=
    mem_successes_map.mpr ⟨_, Dict.mem_entries_iff.mpr hkey, hb⟩
  have hname := (BoundName.of_ofMeasurement_eq_ok hb).1
  cases hfound : (successes (t.boundNames ms)).find? fun b ↦ b.name == name with
  | none => exact absurd (by simpa using hname) (List.find?_eq_none.mp hfound b hmem)
  | some b' =>
    obtain ⟨⟨name', key'⟩, hentry, hb'⟩ :=
      mem_successes_map.mp (List.mem_of_find?_eq_some hfound)
    obtain ⟨hname', m, v, hm, hv, his⟩ := BoundName.of_ofMeasurement_eq_ok hb'
    obtain rfl : b'.name = name := by simpa using List.find?_some hfound
    refine ⟨b'.scalar, by rw [scalarOf, hfound]; rfl, key', m, v, ?_, hm, hv, his⟩
    rw [hname']
    exact Dict.mem_entries_iff.mp hentry

theorem Measures.unique {name : String} {s s' : Scalar} (h : t.Measures ms name s)
    (h' : t.Measures ms name s') : s = s' := by
  obtain ⟨key, m, v, hkey, hm, hv, hs⟩ := h
  obtain ⟨key', m', v', hkey', hm', hv', hs'⟩ := h'
  obtain rfl := Option.some.inj (hkey.symm.trans hkey')
  obtain rfl := Option.some.inj (hm.symm.trans hm')
  obtain rfl := Reading.measured.inj (hv.symm.trans hv')
  exact hs.unique hs'

/-- The names of the expression are given the scalars that were measured for them. -/
def Measured (t : CompiledTest) (ms : MeasurementSet) (env : String → Option Scalar) : Prop :=
  ∀ name ∈ t.expression.tree.references, ∃ s, env name = some s ∧ t.Measures ms name s

/-- Scalars that were measured for the names decide the expression in one way. -/
theorem Measured.eval_eq {env env' : String → Option Scalar} (h : t.Measured ms env)
    (h' : t.Measured ms env') : t.expression.tree.eval env = t.expression.tree.eval env' := by
  refine Expr.eval_congr fun name hname ↦ ?_
  obtain ⟨s, hs, hmeasures⟩ := h name hname
  obtain ⟨s', hs', hmeasures'⟩ := h' name hname
  rw [hs, hs', hmeasures.unique hmeasures']

/-- How a test ends, by the value of its expression. -/
structure EndsAs (outcome : TestOutcome) (value : Except EvaluationError Scalar) : Prop where
  passed : outcome = .passed ↔ value = .ok (.bool true)
  failed : outcome = .failed ↔ value = .ok (.bool false)
  error : outcome = .error ↔ (∃ e, value = .error e) ∨ ∃ s, value = .ok s ∧ ∀ b, s ≠ .bool b

/-- A test ends as the value of its expression decides. -/
theorem endsAs_conclude (values : Dict Value) (group : Option (List (String × Value)))
    (env : String → Option Scalar) :
    EndsAs (t.conclude values group (t.expression.tree.decide env)).outcome
      (t.expression.tree.eval env) := by
  unfold Expr.decide
  cases t.expression.tree.eval env with
  | error e => constructor <;> simp [conclude, Except.bind]
  | ok s =>
    cases s with
    | bool b => cases b <;> constructor <;> simp [conclude, Except.bind]
    | _ => constructor <;> simp [conclude, Except.bind]

/-- A compiled test that is judged once has one result. If any of its names lacks a measurement that
it could use, the result is an error, and it is about the least such name. Otherwise every name has
the scalar that was measured for it, and the value of the expression decides. -/
theorem exists_evaluate_eq_singleton {scope : TestScope} {available : List MetricKey} {index : Nat}
    {source : String} (h : scope.compileOne available index source = .ok t)
    (hsingle : t.grouped = none) (ms : MeasurementSet) :
    ∃ r, t.evaluate ms = [r] ∧
      ((∃ name ∈ t.expression.tree.references, ∃ e, t.Lacks ms name e) →
        r.outcome = .error ∧
          ∃ name ∈ t.expression.tree.references, ∃ e, t.Lacks ms name e ∧ r.error = some e.message ∧
            ∀ other ∈ t.expression.tree.references, other < name → ∀ e', ¬ t.Lacks ms other e') ∧
      ((∀ name ∈ t.expression.tree.references, ∀ e, ¬ t.Lacks ms name e) →
        (∃ env, t.Measured ms env) ∧
          ∀ env, t.Measured ms env → EndsAs r.outcome (t.expression.tree.eval env)) := by
  have hbound := TestScope.get?_bindings_of_compileOne h hsingle
  have hresolved := TestScope.isSome_resolve?_of_compileOne h hsingle
  have hreferred {name : String} {e : EvaluationError} (hlacks : t.Lacks ms name e) :
      name ∈ t.expression.tree.references := by
    obtain ⟨key, hkey, -⟩ := hlacks
    rw [hbound] at hkey
    by_contra hname
    simp [hname] at hkey
  refine ⟨t.resultOf (t.boundNames ms) none, by rw [evaluate, hsingle, boundNames], ?_, ?_⟩
  · rintro ⟨name, -, e, hlacks⟩
    obtain ⟨first, e', hfirst, hverdict, hleast⟩ := exists_verdict_eq_error hlacks
    rw [resultOf, hverdict]
    exact ⟨rfl, first, hreferred hfirst, e', hfirst, rfl, fun other _ ↦ hleast other⟩
  · intro hnone
    obtain ⟨env, hverdict, henv⟩ := exists_verdict_eq_decide fun name e hlacks ↦
      hnone name (hreferred hlacks) e hlacks
    have hmeasured : t.Measured ms env := by
      intro name hname
      obtain ⟨key, hkey⟩ := Option.isSome_iff_exists.mp (hresolved name hname)
      exact henv name key (by rw [hbound, if_pos hname, hkey])
    refine ⟨⟨env, hmeasured⟩, fun env' henv' ↦ ?_⟩
    rw [resultOf, hverdict, henv'.eval_eq hmeasured]
    exact endsAs_conclude _ _ env

/-- The test `a or b` of a table with both measured. -/
def alternative : CompiledTest where
  id := "orders#0"
  title := "orders a or b"
  column := none
  expression := ⟨"a or b", .binary (.connective .or) (.identifier "a") (.identifier "b")⟩
  bindings := .ofList [("a", .ofTable "a"), ("b", .ofTable "b")]
  grouped := none

theorem compileOne_alternative :
    (TestScope.ofTable "orders").compileOne [.ofTable "a", .ofTable "b"] 0 "a or b" =
      .ok alternative := by
  let operand (name : String) : ParseTree (.chain .conjunction) :=
    .chain (t := .conjunction) (.plain (.chain (.ofAtom (.identifier name)) .nil)) .nil
  let d : ParseTree .start :=
    .chain (operand "a") (.cons (.connective .or) rfl (operand "b") .nil)
  have hcuts : Token.Cuts "a or b".toList d.tokens [] :=
    (Token.Cuts.nameA (.space _)).trans <|
      .space (by decide) <| (Token.Cuts.keyword "or" (by simp) (.space _)).trans <|
      .space (by decide) (.nameB .nil)
  have hread : Expr.parse "a or b" = .ok alternative.expression.tree :=
    Expr.parse_eq_ok d hcuts (by decide) (by decide)
  rw [TestScope.compileOne, TestExpression.parse, hread]
  rfl

/-- With `a` measured as true the expression `a or b` holds whatever `b` is, and yet the test is an
error where `b` was not measured. -/
theorem evaluate_alternative :
    (TestScope.ofTable "orders").compileOne [.ofTable "a", .ofTable "b"] 0 "a or b" =
        .ok alternative ∧
      ∃ r, alternative.evaluate ⟨[⟨.ofTable "a", .measured (.bool true), false⟩], by simp⟩ = [r] ∧
        r.outcome = .error ∧ r.error = some "'b' has no value: not measured" := by
  let ms : MeasurementSet := ⟨[⟨.ofTable "a", .measured (.bool true), false⟩], by simp⟩
  obtain ⟨r, hr, herror, -⟩ := exists_evaluate_eq_singleton compileOne_alternative rfl ms
  have hlacks : alternative.Lacks ms "b" (.unavailable "b" "not measured") :=
    ⟨.ofTable "b", rfl, .absent rfl⟩
  obtain ⟨houtcome, name, hname, e, ⟨key, hkey, hunusable⟩, hmessage, -⟩ :=
    herror ⟨"b", by simp [alternative, Expr.references], _, hlacks⟩
  refine ⟨compileOne_alternative, r, hr, houtcome, hmessage.trans ?_⟩
  obtain rfl | rfl : name = "a" ∨ name = "b" := by
    simpa [alternative, Expr.references] using hname
  · -- The measurement of `a` can be used.
    obtain rfl : .ofTable "a" = key := Option.some.inj hkey
    have ha := BoundName.ofMeasurement_eq_error_iff.mpr hunusable
    cases ha
  · obtain rfl : .ofTable "b" = key := Option.some.inj hkey
    have hb := BoundName.ofMeasurement_eq_error_iff.mpr hunusable
    obtain rfl : .unavailable "b" "not measured" = e := Except.error.inj hb
    rfl

end CompiledTest

end DataQuality
