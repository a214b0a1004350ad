import Mathlib.Logic.Basic
import DataQuality.Plan.Aggregate
import DataQuality.Proofs.Computations
import DataQuality.Proofs.SqlConditions
import DataQuality.Run.Derivation

/-!
# Missing and valid rows

The conditions of a column part the rows of the table: read by a database, each of them is decided
on every row, and no row meets both. So the counts of both come to no more than all rows, and the
number of rows that are neither is not negative.
-/

namespace DataQuality

open SqlFormula (Opens Reads)

/-! ### How clauses begin -/

theorem SqlFormula.Opens.append {a : String} (h : Opens a) (b : String) : Opens (a ++ b) := by
  obtain ⟨c, rest, ha, hparen, hnot⟩ := h
  exact ⟨c, rest ++ b.toList, by simp [ha], hparen, hnot⟩

namespace Warehouse

variable (w : Warehouse)

/-- Names begin with the quotation mark of the dialect. -/
theorem opens_quoteIdentifier (name : String) : Opens (w.quoteIdentifier name) := by
  refine ⟨w.identifierStyle.mark, _, String.toList_ofList, ?_, ?_⟩ <;> cases w <;> decide

theorem opens_cast (expr type : String) : Opens (cast expr type) :=
  (Opens.append (a := "CAST(") ⟨'C', _, rfl, by decide, by decide⟩ expr).append _ |>.append _
    |>.append _

theorem opens_lengthExpr (expr : String) : Opens (w.lengthExpr expr) := by
  have hchar : Opens "CHAR_LENGTH(" := ⟨'C', _, rfl, by decide, by decide⟩
  have hlength : Opens "LENGTH(" := ⟨'L', _, rfl, by decide, by decide⟩
  cases w
  case mySQL => exact (hchar.append _).append _
  all_goals exact (hlength.append _).append _

variable {w}

/-- A pattern is met by the text itself or by a call of a function. -/
theorem opens_regexPredicate {expr pattern sql : String} (hexpr : Opens expr)
    (h : w.regexPredicate expr pattern = .ok sql) : Opens sql := by
  obtain ⟨-, rfl⟩ := require_eq_ok_iff.mp h
  have hlike : Opens "REGEXP_LIKE(" := ⟨'R', _, rfl, by decide, by decide⟩
  have hinstr : Opens "REGEXP_INSTR(" := ⟨'R', _, rfl, by decide, by decide⟩
  have hcontains : Opens "REGEXP_CONTAINS(" := ⟨'R', _, rfl, by decide, by decide⟩
  cases w
  case mySQL => exact (((hlike.append _).append _).append _).append _
  case snowflake => exact (((hinstr.append _).append _).append _).append _
  case bigQuery => exact (((hcontains.append _).append _).append _).append _
  all_goals exact (hexpr.append _).append _

end Warehouse

namespace ColumnProfile

theorem opens_ofColumn (w : Warehouse) (column : TableColumn) (settings : Option ColumnSettings) :
    Opens (ofColumn w column settings).expr :=
  w.opens_quoteIdentifier column.name

variable {w : Warehouse} {p : ColumnProfile}

theorem opens_numericExpr (h : Opens p.expr) : Opens (p.numericExpr w) := by
  unfold numericExpr
  split
  · split
    · exact h
    · exact Warehouse.opens_cast _ _
  · exact h

theorem opens_textExpr (h : Opens p.expr) : Opens (p.textExpr w) := by
  unfold textExpr
  split
  · exact h
  · exact Warehouse.opens_cast _ _

end ColumnProfile

namespace ColumnConditions

variable {w : Warehouse} {p : ColumnProfile}

theorem opens_listClause (h : Opens p.expr) (values : List Literal) :
    ∀ clause ∈ listClause w p values, Opens clause := by
  unfold listClause
  split
  · simp
  · simpa using ((h.append _).append _).append _

theorem opens_boundClause {α : Type} {expr op : String} (h : Opens expr) (text : α → String)
    (bound : Option α) : ∀ clause ∈ boundClause expr op text bound, Opens clause := by
  cases bound with
  | none => simp [boundClause]
  | some b => simpa [boundClause] using (h.append _).append _

theorem opens_patternClauses (h : Opens p.expr) {patterns found : List String}
    (hfound : patternClauses w p patterns = .ok found) : ∀ clause ∈ found, Opens clause := by
  intro clause hclause
  obtain ⟨pattern, -, hpattern⟩ := exists_of_mem_of_mapM_eq_ok hfound hclause
  exact Warehouse.opens_regexPredicate (ColumnProfile.opens_textExpr h) hpattern

theorem opens_missingClausesOf (h : Opens p.expr) {m : MissingDefinition} {found : List String}
    (hfound : missingClausesOf w p m = .ok found) : ∀ clause ∈ found, Opens clause := by
  obtain ⟨patterns, hpatterns, rfl⟩ := exists_of_map_eq_ok hfound
  exact List.forall_mem_append.mpr ⟨opens_listClause h _, opens_patternClauses h hpatterns⟩

theorem opens_validityClausesOf (h : Opens p.expr) {v : ValidityDefinition} {found : List String}
    (hfound : validityClausesOf w p v = .ok found) : ∀ clause ∈ found, Opens clause := by
  obtain ⟨patterns, hpatterns, rfl⟩ := exists_of_map_eq_ok hfound
  have hnumber : Opens (p.numericExpr w) := ColumnProfile.opens_numericExpr h
  have hlength : Opens (w.lengthExpr (p.textExpr w)) := w.opens_lengthExpr _
  simp only [List.forall_mem_append]
  exact ⟨⟨⟨⟨⟨opens_patternClauses h hpatterns, opens_listClause h _⟩,
    opens_boundClause hnumber _ _⟩, opens_boundClause hnumber _ _⟩,
    opens_boundClause hlength _ _⟩, opens_boundClause hlength _ _⟩

/-- All clauses of the conditions, in the order in which they stand. -/
def clauses (c : ColumnConditions) : List String :=
  c.isNull :: (c.missingClauses ++ c.validityClauses)

/-- The clauses for missing values that the settings of a column come to. -/
def missingClausesFor (w : Warehouse) (p : ColumnProfile) (settings : Option ColumnSettings) :
    Except DialectError (List String) :=
  match settings with
  | some s => missingClausesOf w p s.missing
  | none => .ok []

/-- The clauses for valid values that the settings of a column come to. -/
def validityClausesFor (w : Warehouse) (p : ColumnProfile) (settings : Option ColumnSettings) :
    Except DialectError (List String) :=
  match settings.bind ColumnSettings.validity? with
  | some v => validityClausesOf w p v
  | none => .ok []

theorem build_eq (w : Warehouse) (p : ColumnProfile) (settings : Option ColumnSettings) :
    build w p settings =
      (missingClausesFor w p settings).bind fun missing ↦
        (validityClausesFor w p settings).map fun validity ↦
          ⟨p.expr ++ " IS NULL", missing, validity⟩ := by
  unfold build missingClausesFor validityClausesFor
  cases settings with
  | none => rfl
  | some s =>
    dsimp only [Option.bind]
    cases s.validity? <;> rfl

/-- No clause is taken for a parenthesis or for `NOT`. -/
theorem opens_of_build {settings : Option ColumnSettings} {c : ColumnConditions}
    (hexpr : Opens p.expr) (h : build w p settings = .ok c) :
    ∀ clause ∈ c.clauses, Opens clause := by
  rw [build_eq] at h
  obtain ⟨missing, hmissing, h⟩ := exists_of_bind_eq_ok h
  obtain ⟨validity, hvalidity, rfl⟩ := exists_of_map_eq_ok h
  refine List.forall_mem_cons.mpr ⟨hexpr.append _, List.forall_mem_append.mpr ⟨?_, ?_⟩⟩
  · unfold missingClausesFor at hmissing
    split at hmissing
    · exact opens_missingClausesOf hexpr hmissing
    · obtain rfl := Except.ok.inj hmissing
      simp
  · unfold validityClausesFor at hvalidity
    split at hvalidity
    · exact opens_validityClausesOf hexpr hvalidity
    · obtain rfl := Except.ok.inj hvalidity
      simp

/-! ### What the conditions mean -/

/-- The text of a condition, over the clauses as they stand in it, is read as the formula. -/
def Means (c : ColumnConditions) (text : String) (f : SqlFormula) : Prop :=
  ∃ clauses, clauses <+: c.clauses ∧ Reads .disjunction clauses text.toList f

/-- Missing is what is null or meets a clause for missing values. -/
def missingFormula (c : ColumnConditions) : SqlFormula :=
  (SqlFormula.clause c.isNull).anyOf (c.missingClauses.map .clause)

/-- Valid is what is not missing and meets every clause for valid values. -/
def validFormula (c : ColumnConditions) : SqlFormula :=
  (SqlFormula.negation c.missingFormula).allOf (c.validityClauses.map .clause)

variable {c : ColumnConditions}

/-- A text that can be read over the clauses can be read in one way. -/
theorem means_iff {text : String} {f : SqlFormula} {read : List String}
    (hopens : ∀ clause ∈ c.clauses, Opens clause) (hread : read <+: c.clauses)
    (h : Reads .disjunction read text.toList f) (g : SqlFormula) : c.Means text g ↔ g = f := by
  constructor
  · rintro ⟨read', ⟨more', hmore'⟩, h'⟩
    obtain ⟨more, hmore⟩ := hread
    have htext : text.toList ++ [] = text.toList ++ [] := rfl
    exact (h'.unique h (hmore' ▸ hopens) (hmore'.trans hmore.symm) htext
      (by simp [SqlFormula.EndedBy]) (by simp [SqlFormula.EndedBy])).1
  · rintro rfl
    exact ⟨read, hread, h⟩

theorem means_missing_iff (hopens : ∀ clause ∈ c.clauses, Opens clause) (f : SqlFormula) :
    c.Means c.missing.sql f ↔ f = c.missingFormula := by
  have hread : c.isNull :: c.missingClauses <+: c.clauses := ⟨c.validityClauses, rfl⟩
  exact means_iff hopens hread
    (.conjoined (.negated (.operand (.alternatives c.isNull c.missingClauses)))) f

/-- Negation only covers the condition behind it, and that stands in parentheses if it is made of
alternatives. -/
theorem means_valid_iff (hopens : ∀ clause ∈ c.clauses, Opens clause) (f : SqlFormula) :
    c.Means c.valid.sql f ↔ f = c.validFormula := by
  have hnegated := Reads.negation (.operand (.alternatives c.isNull c.missingClauses))
  have htext : c.valid.sql.toList = "NOT ".toList ++ c.missing.sql.toList ++
      (Condition.sqlBehind " AND " (c.validityClauses.map .clause)).toList := by
    simp [valid, Condition.sql]
  refine means_iff hopens (List.prefix_refl _) ?_ f
  rw [htext]
  exact .conjoined (hnegated.allOf c.validityClauses)

/-! ### Rows -/

/-- What the clauses come to on a row of the table: the database knows whether the column is null,
and every other clause is unknown just where it is. -/
structure Row (c : ColumnConditions) where
  truth : String → SqlTruth
  isNull_known : truth c.isNull ≠ .unknown
  unknown_iff : ∀ clause ∈ c.missingClauses ++ c.validityClauses,
    truth clause = .unknown ↔ truth c.isNull = .holds

namespace Row

/-- Where the column is not null every clause is decided. -/
theorem ne_unknown (r : c.Row) (h : r.truth c.isNull = .fails) :
    ∀ clause ∈ c.clauses, r.truth clause ≠ .unknown := by
  refine List.forall_mem_cons.mpr ⟨r.isNull_known, fun clause hclause hunknown ↦ ?_⟩
  rw [(r.unknown_iff clause hclause).mp hunknown] at h
  cases h

/-- Every row is missing or not: null rows are, and on all others every clause is decided. -/
theorem missing_ne_unknown (r : c.Row) : c.missingFormula.truth r.truth ≠ .unknown := by
  obtain hnull | hnull := SqlTruth.ne_unknown_iff.mp r.isNull_known
  · rw [SqlTruth.ne_unknown_iff, missingFormula, SqlFormula.truth_anyOf_eq_holds]
    exact .inl ⟨_, .head _, hnull⟩
  · have hknown := r.ne_unknown hnull
    refine SqlFormula.truth_anyOf_ne_unknown ?_
    simp_all [clauses, SqlFormula.truth]

/-- A row is missing just if it is null or meets a clause for missing values. -/
theorem missing_holds_iff (r : c.Row) :
    c.missingFormula.truth r.truth = .holds ↔
      ∃ clause ∈ c.isNull :: c.missingClauses, r.truth clause = .holds := by
  rw [missingFormula, SqlFormula.truth_anyOf_eq_holds, ← List.map_cons]
  simp only [List.mem_map, exists_exists_and_eq_and, SqlFormula.truth]

/-- A row is valid just if it is not missing and meets every clause for valid values. -/
theorem valid_holds_iff (r : c.Row) :
    c.validFormula.truth r.truth = .holds ↔
      c.missingFormula.truth r.truth = .fails ∧
        ∀ clause ∈ c.validityClauses, r.truth clause = .holds := by
  simp [validFormula, SqlFormula.truth_allOf_eq_holds, SqlFormula.truth]

/-- Every row is valid or not: what is null is missing, and so the negation decides. -/
theorem valid_ne_unknown (r : c.Row) : c.validFormula.truth r.truth ≠ .unknown := by
  obtain hnull | hnull := SqlTruth.ne_unknown_iff.mp r.isNull_known
  · have hmissing : c.missingFormula.truth r.truth = .holds :=
      SqlFormula.truth_anyOf_eq_holds.mpr ⟨_, .head _, hnull⟩
    rw [SqlTruth.ne_unknown_iff, validFormula, SqlFormula.truth_allOf_eq_fails]
    exact .inr ⟨_, .head _, SqlTruth.not_eq_fails.mpr hmissing⟩
  · have hknown := r.ne_unknown hnull
    refine SqlFormula.truth_allOf_ne_unknown (List.forall_mem_cons.mpr ⟨?_, ?_⟩)
    · rw [SqlTruth.ne_unknown_iff, SqlFormula.truth, SqlTruth.not_eq_holds, SqlTruth.not_eq_fails]
      exact (SqlTruth.ne_unknown_iff.mp r.missing_ne_unknown).symm
    · simp_all [clauses, SqlFormula.truth]

/-- No row is both missing and valid. -/
theorem not_missing_and_valid (r : c.Row) :
    ¬ (c.missingFormula.truth r.truth = .holds ∧ c.validFormula.truth r.truth = .holds) := by
  rintro ⟨hmissing, hvalid⟩
  rw [(r.valid_holds_iff.mp hvalid).1] at hmissing
  cases hmissing

end Row

/-! ### Counts -/

/-- The number that a database gives for a count over the rows of a table. -/
inductive Counts (c : ColumnConditions) (rows : List c.Row) : String → Nat → Prop
  | all : Counts c rows countRows rows.length
  | meeting {condition : String} {f : SqlFormula} (h : c.Means condition f) :
    Counts c rows (Warehouse.countIf condition)
      (rows.countP fun r ↦ f.truth r.truth = .holds)

/-- The number that a database gives for a metric that the aggregate query of a column asks for. -/
def Answers (w : Warehouse) (p : ColumnProfile) (c : ColumnConditions) (rows : List c.Row)
    (m : Metric) (n : Nat) : Prop :=
  ∃ form sql, m.aggregateForm? = some form ∧ form.sql w p c = .ok sql ∧ c.Counts rows sql n

variable {rows : List c.Row} {n : Nat}

theorem countIf_ne_countRows (condition : String) : Warehouse.countIf condition ≠ countRows := by
  intro h
  have hlength : (Warehouse.countIf condition).length =
      "COUNT(CASE WHEN ".length + condition.length + " THEN 1 END)".length := by
    unfold Warehouse.countIf
    rw [String.length_append, String.length_append]
  have hlong : countRows.length < "COUNT(CASE WHEN ".length := by decide
  rw [h] at hlength
  omega

theorem counts_countRows_iff : c.Counts rows countRows n ↔ n = rows.length := by
  refine ⟨fun h ↦ ?_, fun h ↦ h ▸ .all⟩
  generalize hsql : countRows = sql at h
  cases h with
  | all => rfl
  | meeting h => exact absurd hsql.symm (countIf_ne_countRows _)

theorem counts_countIf_iff {condition : String} {f : SqlFormula}
    (hmeans : ∀ g, c.Means condition g ↔ g = f) :
    c.Counts rows (Warehouse.countIf condition) n ↔
      n = rows.countP fun r ↦ f.truth r.truth = .holds := by
  refine ⟨fun h ↦ ?_, fun h ↦ h ▸ .meeting ((hmeans f).mpr rfl)⟩
  generalize hsql : Warehouse.countIf condition = sql at h
  cases h with
  | all => exact absurd hsql (countIf_ne_countRows _)
  | meeting h =>
    unfold Warehouse.countIf at hsql
    rw [String.append_left_inj, String.append_right_inj] at hsql
    subst hsql
    rw [(hmeans _).mp h]

theorem answers_iff {m : Metric} {form : AggregateForm} {sql : String}
    (hform : m.aggregateForm? = some form) (hsql : form.sql w p c = .ok sql) :
    Answers w p c rows m n ↔ c.Counts rows sql n := by
  constructor
  · rintro ⟨form', sql', hform', hsql', h⟩
    obtain rfl := Option.some.inj (hform.symm.trans hform')
    obtain rfl := Except.ok.inj (hsql.symm.trans hsql')
    exact h
  · exact fun h ↦ ⟨form, sql, hform, hsql, h⟩

theorem answers_rowCount_iff : Answers w p c rows .rowCount n ↔ n = rows.length :=
  (answers_iff rfl rfl).trans counts_countRows_iff

theorem answers_missingCount_iff (hopens : ∀ clause ∈ c.clauses, Opens clause) :
    Answers w p c rows .missingCount n ↔
      n = rows.countP fun r ↦ c.missingFormula.truth r.truth = .holds :=
  (answers_iff rfl rfl).trans (counts_countIf_iff (means_missing_iff hopens))

theorem answers_validCount_iff (hopens : ∀ clause ∈ c.clauses, Opens clause) :
    Answers w p c rows .validCount n ↔
      n = rows.countP fun r ↦ c.validFormula.truth r.truth = .holds :=
  (answers_iff rfl rfl).trans (counts_countIf_iff (means_valid_iff hopens))

/-- Rows that are missing and rows that are valid are different rows. -/
theorem countP_missing_add_countP_valid_le (rows : List c.Row) :
    (rows.countP fun r ↦ c.missingFormula.truth r.truth = .holds) +
      (rows.countP fun r ↦ c.validFormula.truth r.truth = .holds) ≤ rows.length := by
  rw [List.length_eq_countP_add_countP fun r : c.Row ↦ c.missingFormula.truth r.truth = .holds]
  refine Nat.add_le_add_left (List.countP_mono_left fun r _ hvalid ↦ ?_) _
  simp only [decide_eq_true_eq] at hvalid ⊢
  exact fun hmissing ↦ r.not_missing_and_valid ⟨hmissing, hvalid⟩

/-- What is neither missing nor valid is what is left of all rows. -/
theorem reading_invalidCount {d : DerivedMetric} {s : MeasurementSet} {total missed met : Int}
    (hmetric : d.metric = .invalidCount) (htotal : s.count (d.dependencyKey .rowCount) = .ok total)
    (hmissed : s.count (d.dependencyKey .missingCount) = .ok missed)
    (hmet : s.count (d.dependencyKey .validCount) = .ok met) :
    d.reading s = .measured (.int (total - missed - met)) := by
  simp [DerivedMetric.reading, DerivedMetric.counts, hmetric, Metric.dependencies, htotal, hmissed,
    hmet, Except.map, Metric.derive?]

/-- The conditions of a column part its rows. Each is read in one way; each is decided on every
row, and no row meets both. So the counts of both come to at most all rows, and the number of rows
that are neither, which is derived from these counts, is not negative. -/
theorem build_partitions_rows {column : TableColumn} {settings : Option ColumnSettings}
    (h : build w (.ofColumn w column settings) settings = .ok c) :
    ∃ missing valid : SqlFormula,
      (∀ f, c.Means c.missing.sql f ↔ f = missing) ∧
      (∀ f, c.Means c.valid.sql f ↔ f = valid) ∧
      (∀ r : c.Row,
        missing.truth r.truth ≠ .unknown ∧
        (missing.truth r.truth = .holds ↔
          ∃ clause ∈ c.isNull :: c.missingClauses, r.truth clause = .holds) ∧
        (valid.truth r.truth = .holds ↔ missing.truth r.truth = .fails ∧
          ∀ clause ∈ c.validityClauses, r.truth clause = .holds) ∧
        valid.truth r.truth ≠ .unknown ∧
        ¬ (missing.truth r.truth = .holds ∧ valid.truth r.truth = .holds)) ∧
      ∀ (rows : List c.Row) (total missed met : Nat),
        Answers w (.ofColumn w column settings) c rows .rowCount total →
        Answers w (.ofColumn w column settings) c rows .missingCount missed →
        Answers w (.ofColumn w column settings) c rows .validCount met →
        missed + met ≤ total ∧
        ∀ (d : DerivedMetric) (s : MeasurementSet), d.metric = .invalidCount →
          s.count (d.dependencyKey .rowCount) = .ok (total : Int) →
          s.count (d.dependencyKey .missingCount) = .ok (missed : Int) →
          s.count (d.dependencyKey .validCount) = .ok (met : Int) →
          ∃ left : Int, d.reading s = .measured (.int left) ∧ 0 ≤ left := by
  have hopens : ∀ clause ∈ c.clauses, Opens clause :=
    opens_of_build (ColumnProfile.opens_ofColumn w column settings) h
  refine ⟨c.missingFormula, c.validFormula, means_missing_iff hopens, means_valid_iff hopens,
    fun r ↦ ⟨r.missing_ne_unknown, r.missing_holds_iff, r.valid_holds_iff, r.valid_ne_unknown,
      r.not_missing_and_valid⟩, fun rows total missed met htotal hmissed hmet ↦ ?_⟩
  rw [answers_rowCount_iff] at htotal
  rw [answers_missingCount_iff hopens] at hmissed
  rw [answers_validCount_iff hopens] at hmet
  have hle : missed + met ≤ total := by
    rw [htotal, hmissed, hmet]
    exact countP_missing_add_countP_valid_le rows
  refine ⟨hle, fun d s hmetric htotal hmissed hmet ↦
    ⟨_, reading_invalidCount hmetric htotal hmissed hmet, ?_⟩⟩
  omega

/-! ### A column of addresses -/

/-- A text column. -/
def emailColumn : TableColumn := ⟨"Email", "text", true⟩

/-- A listed value is missing; a valid one matches a pattern and is not too long. -/
def emailSettings : ColumnSettings :=
  { ColumnSettings.empty with
    missingValues := some [.text "N/A"], validRegex := some "@", validMaxLength := some 254 }

/-- The conditions of the column. -/
def emailConditions : ColumnConditions :=
  ⟨"\"Email\" IS NULL", ["\"Email\" IN ('N/A')"], ["\"Email\" ~ '@'", "LENGTH(\"Email\") <= 254"]⟩

/-- A row with an address, listed as missing or not and matching the pattern or not. -/
def emailRow (listed matching : Bool) : emailConditions.Row where
  truth clause :=
    if clause = "\"Email\" IN ('N/A')" then if listed then .holds else .fails
    else if clause = "\"Email\" ~ '@'" then if matching then .holds else .fails
    else if clause = "LENGTH(\"Email\") <= 254" then .holds
    else .fails
  isNull_known := by simp [emailConditions]
  unknown_iff := by revert listed matching; decide

/-- A row without an address. -/
def emailNull : emailConditions.Row where
  truth clause := if clause = emailConditions.isNull then .holds else .unknown
  isNull_known := by simp
  unknown_iff := by decide

/-- What a scan has counted on four rows. -/
def emailCounts : MeasurementSet where
  entries :=
    [⟨.ofTable "row_count", .measured (.int 4), false⟩,
      ⟨.ofColumn "email" "missing_count", .measured (.int 2), false⟩,
      ⟨.ofColumn "email" "valid_count", .measured (.int 1), false⟩]
  distinct := by decide

/-- Of a null, a missing, a valid and an invalid row, the counts leave the last. -/
theorem build_partitions_email_rows :
    build .postgreSQL (.ofColumn .postgreSQL emailColumn emailSettings) emailSettings =
      .ok emailConditions ∧
    2 + 1 ≤ 4 ∧
    ∃ left : Int, 0 ≤ left ∧
      DerivedMetric.reading ⟨.ofColumn "email" "invalid_count", .invalidCount, false⟩ emailCounts =
        .measured (.int left) := by
  have hbuild : build .postgreSQL (.ofColumn .postgreSQL emailColumn emailSettings) emailSettings =
      .ok emailConditions := rfl
  have hopens := opens_of_build (ColumnProfile.opens_ofColumn _ _ _) hbuild
  obtain ⟨missing, valid, -, -, -, hcounts⟩ := build_partitions_rows hbuild
  obtain ⟨hle, hderived⟩ :=
    hcounts [emailNull, emailRow true false, emailRow false true, emailRow false false] 4 2 1
      (answers_rowCount_iff.mpr rfl)
      ((answers_missingCount_iff hopens).mpr (by decide +kernel))
      ((answers_validCount_iff hopens).mpr (by decide +kernel))
  obtain ⟨left, hleft, hnonneg⟩ :=
    hderived ⟨.ofColumn "email" "invalid_count", .invalidCount, false⟩ emailCounts rfl
      rfl rfl rfl
  exact ⟨hbuild, hle, left, hnonneg, hleft⟩

end ColumnConditions

end DataQuality
