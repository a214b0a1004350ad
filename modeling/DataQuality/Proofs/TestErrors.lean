import DataQuality.Proofs.Reasons
import DataQuality.Proofs.Verdicts

/-!
# Errors of tests

What the error of a test may be about, if all its names are bound and everything it reads was
recorded: about the reason of a measurement, a value that is no scalar, or the expression itself,
and never about a name without a binding or a key that is not there. The texts of errors tell these
apart.
-/

namespace DataQuality

/-! ### Texts of errors -/

namespace EvaluationError

/-- Whether the error is about a name, rather than about the value of an expression. -/
def IsAboutName : EvaluationError → Prop
  | unbound _ | unavailable _ _ | nonScalar _ _ => True
  | _ => False

/-- The error is neither that of a name without a binding nor that of a key that is not there. -/
structure Grounded (e : EvaluationError) : Prop where
  bound : ∀ name, e ≠ unbound name
  recorded : ∀ name, e ≠ unavailable name BoundName.notMeasured

theorem Grounded.of_not_isAboutName {e : EvaluationError} (h : ¬ e.IsAboutName) : e.Grounded := by
  constructor
  · rintro name rfl
    exact h trivial
  · rintro name rfl
    exact h trivial

theorem grounded_nonScalar (name kind : String) : (nonScalar name kind).Grounded :=
  ⟨fun _ h ↦ (by cases h), fun _ h ↦ (by cases h)⟩

theorem grounded_unavailable (name : String) {reason : String}
    (h : reason ≠ BoundName.notMeasured) : (unavailable name reason).Grounded :=
  ⟨fun _ h ↦ (by cases h), fun _ heq ↦ h (unavailable.inj heq).2⟩

/-- The first character of the message. -/
def initial : EvaluationError → Char
  | unbound _ => 'i'
  | unavailable _ _ | nonScalar _ _ => '\''
  | divisionByZero => 'd'
  | typeMismatch _ _ _ | unaryTypeMismatch _ _ | connectiveTypeMismatch _ _ => 'c'
  | notBoolean _ => 't'

theorem head?_message (e : EvaluationError) : e.message.toList.head? = some e.initial := by
  have happend : ∀ {a b : String} {c : Char}, a.toList.head? = some c →
      (a ++ b).toList.head? = some c := by
    intro a b c h
    rw [String.toList_append, List.head?_append, h, Option.some_or]
  cases e with
  | unbound name => exact happend (happend rfl)
  | unavailable name reason => exact happend (happend (happend rfl))
  | nonScalar name kind => exact happend (happend (happend (happend rfl)))
  | divisionByZero => rfl
  | typeMismatch op left right => exact happend (happend (happend (happend (happend rfl))))
  | unaryTypeMismatch op operand => exact happend (happend (happend rfl))
  | connectiveTypeMismatch op operand => exact happend (happend (happend rfl))
  | notBoolean kind => exact happend rfl

theorem initial_eq_of_message_eq {e e' : EvaluationError} (h : e.message = e'.message) :
    e.initial = e'.initial := by
  have hhead := e.head?_message
  rw [h, head?_message] at hhead
  exact (Option.some.inj hhead).symm

/-- Only a name without a binding is reported as one. -/
theorem Grounded.message_ne_unbound {e : EvaluationError} (h : e.Grounded) (name : String) :
    e.message ≠ (unbound name).message := by
  intro hmessage
  have hinitial := initial_eq_of_message_eq hmessage
  cases e with
  | unbound name' => exact h.bound name' rfl
  | _ => simp [initial] at hinitial

/-- The message of an unavailable name, cut at the quote behind the name. -/
theorem toList_message_unavailable (name reason : String) :
    (unavailable name reason).message.toList =
      '\'' :: (name.toList ++ '\'' :: (" has no value: ".toList ++ reason.toList)) := by
  have hquote : "' has no value: ".toList = '\'' :: " has no value: ".toList := by decide
  have hopening : "'".toList = ['\''] := by decide
  change ("'" ++ name ++ "' has no value: " ++ reason).toList = _
  rw [String.toList_append, String.toList_append, String.toList_append, hquote, hopening]
  simp only [List.append_assoc, List.cons_append, List.nil_append]

theorem getLast?_append {a b : String} {c : Char} (h : b.toList.getLast? = some c) :
    (a ++ b).toList.getLast? = some c := by
  rw [String.toList_append, List.getLast?_append, h, Option.some_or]

theorem getLast?_message_notMeasured (name : String) :
    (unavailable name BoundName.notMeasured).message.toList.getLast? = some 'd' :=
  getLast?_append (by decide)

/-- The message of a name without a scalar ends otherwise. -/
theorem nonScalar_message_ne (name kind name' : String) :
    (nonScalar name kind).message ≠ (unavailable name' BoundName.notMeasured).message := by
  intro h
  have hscalar : (nonScalar name kind).message.toList.getLast? = some 'r' :=
    getLast?_append (by decide)
  rw [h, getLast?_message_notMeasured] at hscalar
  exact absurd hscalar (by decide)

/-- The message of a column that is missing ends otherwise. -/
theorem missingColumn_message_ne (name name' : String) :
    (unavailable name "not a column of the result").message ≠
      (unavailable name' BoundName.notMeasured).message := by
  intro h
  have hcolumn :
      (unavailable name "not a column of the result").message.toList.getLast? = some 't' :=
    getLast?_append (by decide)
  rw [h, getLast?_message_notMeasured] at hcolumn
  exact absurd hcolumn (by decide)

/-- Only a key that is not there is reported as one, for a name without quotes. -/
theorem Grounded.message_ne_notMeasured {e : EvaluationError} (h : e.Grounded) {name : String}
    (hname : '\'' ∉ name.toList) :
    e.message ≠ (unavailable name BoundName.notMeasured).message := by
  intro hmessage
  have hinitial := initial_eq_of_message_eq hmessage
  cases e with
  | unavailable name' reason =>
    have htexts := congrArg String.toList hmessage.symm
    rw [toList_message_unavailable, toList_message_unavailable, List.cons.injEq] at htexts
    obtain ⟨hfront, -, hback⟩ :=
      (List.append_cons_inj_of_notMem hname (by decide)).mp htexts.2
    obtain rfl := String.toList_inj.mp hfront
    exact h.recorded name (by rw [String.toList_inj.mp (List.append_cancel_left hback)])
  | nonScalar name' kind => exact nonScalar_message_ne name' kind name hmessage
  | _ => simp [initial] at hinitial

end EvaluationError

/-! ### Errors of expressions -/

section

variable {e : EvaluationError}

theorem UnaryOp.not_isAboutName {op : UnaryOp} {a : Scalar} (h : op.apply a = .error e) :
    ¬ e.IsAboutName := by
  unfold apply at h
  split at h <;> cases h
  exact id

theorem Comparison.not_isAboutName {op : Comparison} {a b : Scalar} (h : op.apply a b = .error e) :
    ¬ e.IsAboutName := by
  unfold apply at h
  split at h
  · cases h
  · cases h
  · split at h <;> cases h
    exact id

theorem Arithmetic.not_isAboutName {op : Arithmetic} {a b : Scalar} (h : op.apply a b = .error e) :
    ¬ e.IsAboutName := by
  unfold apply at h
  split at h
  · cases h
  · cases h
  · cases h
  · cases h
  · split at h <;> cases h
    exact id
  · cases h
    exact id

theorem Connective.not_isAboutName {op : Connective} {a : Scalar} (h : op.operand a = .error e) :
    ¬ e.IsAboutName := by
  unfold operand at h
  split at h <;> cases h
  exact id

/-- If all its names have scalars, an expression without a value is about its operators. -/
theorem Expr.not_isAboutName_of_eval {names : String → Option Scalar} {x : Expr}
    (hnames : ∀ name ∈ x.references, (names name).isSome) (h : x.eval names = .error e) :
    ¬ e.IsAboutName := by
  induction x generalizing e with
  | number value => cases h
  | text value => cases h
  | bool value => cases h
  | null => cases h
  | identifier name =>
    obtain ⟨s, hs⟩ := Option.isSome_iff_exists.mp (hnames name (List.mem_singleton_self name))
    simp [eval, hs] at h
  | unary op operand ih =>
    obtain h | ⟨a, -, h⟩ := error_cases_of_bind h
    · exact ih hnames h
    · exact op.not_isAboutName h
  | binary op left right ihl ihr =>
    have hl := fun name hname ↦ hnames name (List.mem_append_left _ hname)
    have hr := fun name hname ↦ hnames name (List.mem_append_right _ hname)
    cases op with
    | arithmetic op =>
      obtain h | ⟨a, -, h⟩ := error_cases_of_bind h
      · exact ihl hl h
      · obtain h | ⟨b, -, h⟩ := error_cases_of_bind h
        · exact ihr hr h
        · exact op.not_isAboutName h
    | comparison op =>
      obtain h | ⟨a, -, h⟩ := error_cases_of_bind h
      · exact ihl hl h
      · obtain h | ⟨b, -, h⟩ := error_cases_of_bind h
        · exact ihr hr h
        · exact op.not_isAboutName h
    | connective op =>
      obtain h | ⟨a, -, h⟩ := error_cases_of_bind h
      · exact ihl hl h
      · obtain h | ⟨truth, -, h⟩ := error_cases_of_bind h
        · exact op.not_isAboutName h
        · split at h
          · cases h
          · obtain h | ⟨b, -, h⟩ := error_cases_of_bind h
            · exact ihr hr h
            · exact op.not_isAboutName (eq_error_of_map_eq_error h)

theorem Expr.not_isAboutName_of_decide {names : String → Option Scalar} {x : Expr}
    (hnames : ∀ name ∈ x.references, (names name).isSome) (h : x.decide names = .error e) :
    ¬ e.IsAboutName := by
  obtain h | ⟨s, -, h⟩ := error_cases_of_bind h
  · exact not_isAboutName_of_eval hnames h
  · split at h <;> cases h
    exact id

end

/-! ### Errors of results -/

namespace CompiledTest

variable {t : CompiledTest} {ms : MeasurementSet}

/-- The error of a result is the one that the verdict on it is. -/
theorem exists_of_error_conclude {values : Dict Value} {group : Option (List (String × Value))}
    {verdict : Except EvaluationError Bool} {text : String}
    (h : (t.conclude values group verdict).error = some text) :
    ∃ e, verdict = .error e ∧ text = e.message := by
  cases verdict with
  | ok b => cases b <;> simp [conclude] at h
  | error e => exact ⟨e, rfl, (Option.some.inj h).symm⟩

/-- What is bound has a scalar. -/
theorem isSome_scalarOf {bound : List BoundName} {b : BoundName} (h : b ∈ bound) :
    (scalarOf bound b.name).isSome := by
  rw [scalarOf, Option.isSome_map, List.find?_isSome]
  exact ⟨b, h, beq_self_eq_true _⟩

/-- The measurements have what a test reads, and explain where they have no value. -/
structure Served (t : CompiledTest) (ms : MeasurementSet) : Prop where
  bound : t.grouped = none → ∀ name ∈ t.expression.tree.references, (t.bindings.get? name).isSome
  recorded : ∀ name key, t.bindings.get? name = some key → ms.contains key = true
  grouped : ∀ key, t.grouped = some key → ms.contains key = true
  explained : ∀ m ∈ ms.entries, m.reading.Explained

theorem Served.explained_of_get? (h : t.Served ms) {key : MetricKey} {m : Measurement}
    (hm : ms.get? key = some m) : m.reading.Explained :=
  h.explained m (List.mem_of_find?_eq_some hm)

/-- A test that is judged once has no error about a name but of what was measured for it. -/
theorem Served.grounded_verdict (h : t.Served ms) (hsingle : t.grouped = none)
    {e : EvaluationError} (he : t.verdict (t.boundNames ms) = .error e) : e.Grounded := by
  by_cases hlacks : ∃ name e, t.Lacks ms name e
  · obtain ⟨name, e', hlacks⟩ := hlacks
    obtain ⟨name, e', ⟨key, hkey, hunusable⟩, hverdict, -⟩ := exists_verdict_eq_error hlacks
    obtain rfl := Except.error.inj (hverdict.symm.trans he)
    cases hunusable with
    | absent hget =>
      have hcontains := h.recorded name key hkey
      rw [MeasurementSet.contains, hget] at hcontains
      cases hcontains
    | failed hget hreading =>
      refine EvaluationError.grounded_unavailable name fun heq ↦ ?_
      exact h.explained_of_get? hget (by rw [hreading, heq]; rfl)
    | skipped hget hreading =>
      refine EvaluationError.grounded_unavailable name fun heq ↦ ?_
      exact h.explained_of_get? hget (by rw [hreading, heq]; rfl)
    | structured hget hreading hscalar => exact EvaluationError.grounded_nonScalar name _
  · obtain ⟨env, hverdict, henv⟩ := exists_verdict_eq_decide fun name e hl ↦ hlacks ⟨name, e, hl⟩
    refine .of_not_isAboutName (Expr.not_isAboutName_of_decide (fun name hname ↦ ?_)
      (hverdict.symm.trans he))
    obtain ⟨key, hkey⟩ := Option.isSome_iff_exists.mp (h.bound hsingle name hname)
    obtain ⟨s, hs, -⟩ := henv name key hkey
    rw [hs]
    rfl

/-- The errors that a test that is judged by the rows of a key may have, if the key was recorded:
about the expression, a cell of a row or a column that is missing, or about the key itself with the
reason of its measurement. -/
inductive GroupError (key : MetricKey) : EvaluationError → Prop
  | calculation {e : EvaluationError} (h : ¬ e.IsAboutName) : GroupError key e
  | structured (name kind : String) : GroupError key (.nonScalar name kind)
  | column (name : String) : GroupError key (.unavailable name "not a column of the result")
  | whole {reason : String} (h : reason ≠ BoundName.notMeasured) :
    GroupError key (.unavailable key.text reason)

theorem GroupError.grounded {key : MetricKey} {e : EvaluationError} (h : GroupError key e) :
    e.Grounded := by
  cases h with
  | calculation h => exact .of_not_isAboutName h
  | structured name kind => exact EvaluationError.grounded_nonScalar name kind
  | column name => exact EvaluationError.grounded_unavailable name (by decide)
  | whole h => exact EvaluationError.grounded_unavailable _ h

/-- None of these errors is reported like one of a key that is not there, whatever the key is. -/
theorem GroupError.message_ne_notMeasured {key : MetricKey} {e : EvaluationError}
    (h : GroupError key e) :
    e.message ≠ (EvaluationError.unavailable key.text BoundName.notMeasured).message := by
  intro hmessage
  have hinitial := EvaluationError.initial_eq_of_message_eq hmessage
  cases h with
  | calculation h =>
    cases e with
    | unbound name => exact h trivial
    | unavailable name reason => exact h trivial
    | nonScalar name kind => exact h trivial
    | _ => simp [EvaluationError.initial] at hinitial
  | structured name kind => exact EvaluationError.nonScalar_message_ne name kind key.text hmessage
  | column name => exact EvaluationError.missingColumn_message_ne name key.text hmessage
  | whole h =>
    have htexts := congrArg String.toList hmessage
    rw [EvaluationError.toList_message_unavailable, EvaluationError.toList_message_unavailable,
      List.cons.injEq, List.append_cancel_left_eq, List.cons.injEq,
      List.append_cancel_left_eq] at htexts
    exact h (String.toList_inj.mp htexts.2.2)

/-- The errors of a row are about its cells, its columns or the expression. -/
theorem groupError_of_verdict {row : GroupRow Value} {e : EvaluationError} (key : MetricKey)
    (he : t.verdict (t.expression.identifiers.map (BoundName.ofRow row)) = .error e) :
    GroupError key e := by
  unfold verdict at he
  split at he
  · next e' rest hfail =>
    obtain ⟨before, name, after, -, herror, -⟩ := exists_of_failures_map_eq_cons hfail
    obtain rfl := Except.error.inj he
    unfold BoundName.ofRow at herror
    split at herror
    · next v _ =>
      rw [Value.toScalar_eq_error (eq_error_of_map_eq_error herror)]
      exact .structured name v.kind
    · exact Except.error.inj herror ▸ .column name
  · next hfail =>
    refine .calculation (Expr.not_isAboutName_of_decide (fun name hname ↦ ?_) he)
    have hidentifier : name ∈ t.expression.identifiers := Expr.mem_identifiers.mpr hname
    obtain ⟨b, hb⟩ := forall_of_failures_map_eq_nil hfail name hidentifier
    have hbound := isSome_scalarOf (mem_successes_map.mpr ⟨name, hidentifier, hb⟩)
    suffices hb' : b.name = name by rwa [hb'] at hbound
    unfold BoundName.ofRow at hb
    split at hb
    · obtain ⟨s, -, rfl⟩ := exists_of_map_eq_ok hb
      rfl
    · cases hb

/-- The errors of a grouped test are about its measurement as a whole, where that says why it has no
value, or about the cells of a row or the expression. -/
theorem Served.exists_groupError (h : t.Served ms) {key : MetricKey}
    (hgrouped : t.grouped = some key) {r : TestResult} (hr : r ∈ t.evaluateGroups ms key)
    {text : String} (htext : r.error = some text) :
    ∃ e, text = EvaluationError.message e ∧ GroupError key e := by
  obtain ⟨m, hm⟩ := Option.isSome_iff_exists.mp (h.grouped key hgrouped)
  have hexplained := h.explained_of_get? hm
  unfold evaluateGroups at hr
  rw [hm, Option.map_some] at hr
  split at hr
  · obtain ⟨row, -, rfl⟩ := List.mem_map.mp hr
    obtain ⟨e, hverdict, rfl⟩ := exists_of_error_conclude htext
    exact ⟨e, rfl, groupError_of_verdict key hverdict⟩
  · obtain rfl := List.mem_singleton.mp hr
    exact ⟨_, (Option.some.inj htext).symm, .structured _ _⟩
  · next reason hreading =>
    obtain rfl := List.mem_singleton.mp hr
    rw [Option.some.inj hreading] at hexplained
    exact ⟨_, (Option.some.inj htext).symm, .whole fun heq ↦ hexplained (congrArg some heq)⟩
  · next reason hreading =>
    obtain rfl := List.mem_singleton.mp hr
    rw [Option.some.inj hreading] at hexplained
    exact ⟨_, (Option.some.inj htext).symm, .whole fun heq ↦ hexplained (congrArg some heq)⟩
  · next hnone => cases hnone

/-- The test refers to the name, or is judged by the rows of a key with the name as its text. -/
def Mentions (t : CompiledTest) (name : String) : Prop :=
  name ∈ t.expression.tree.references ∨ ∃ key, t.grouped = some key ∧ name = key.text

/-- No result of a test that has what it reads is the error of a name without a binding or of a key
that is not there. -/
theorem Served.error_ne (h : t.Served ms)
    (hquotes : ∀ name ∈ t.expression.tree.references, '\'' ∉ name.toList) {r : TestResult}
    (hr : r ∈ t.evaluate ms) :
    (∀ name, r.error ≠ some (EvaluationError.unbound name).message) ∧
      ∀ name, t.Mentions name →
        r.error ≠ some (EvaluationError.unavailable name BoundName.notMeasured).message := by
  unfold evaluate at hr
  split at hr
  · next key hgrouped =>
    constructor
    · intro name herror
      obtain ⟨e, hmessage, he⟩ := h.exists_groupError hgrouped hr herror
      exact he.grounded.message_ne_unbound name hmessage.symm
    · intro name hname herror
      obtain ⟨e, hmessage, he⟩ := h.exists_groupError hgrouped hr herror
      obtain hname | ⟨key', hkey', rfl⟩ := hname
      · exact he.grounded.message_ne_notMeasured (hquotes name hname) hmessage.symm
      · obtain rfl := Option.some.inj (hgrouped.symm.trans hkey')
        exact he.message_ne_notMeasured hmessage.symm
  · next hsingle =>
    obtain rfl := List.mem_singleton.mp hr
    have hgrounded : ∀ {text}, (t.resultOf (t.boundNames ms) none).error = some text →
        ∃ e : EvaluationError, e.Grounded ∧ text = e.message := by
      intro text htext
      obtain ⟨e, he, hmessage⟩ := exists_of_error_conclude htext
      exact ⟨e, h.grounded_verdict hsingle he, hmessage⟩
    constructor
    · intro name herror
      obtain ⟨e, he, hmessage⟩ := hgrounded herror
      exact he.message_ne_unbound name hmessage.symm
    · intro name hname herror
      obtain ⟨e, he, hmessage⟩ := hgrounded herror
      obtain hname | ⟨key, hkey, -⟩ := hname
      · exact he.message_ne_notMeasured (hquotes name hname) hmessage.symm
      · rw [hsingle] at hkey
        cases hkey

end CompiledTest

end DataQuality
