import DataQuality.Proofs.MissingAndValid
import DataQuality.Proofs.Reasons
import DataQuality.Proofs.RequestedMetrics

/-!
# Capabilities

What a warehouse lacks is settled when a scan is planned. A metric is requested only where the
dialect has what it needs, and behind the check nothing fails any more: neither an aggregate while
the scan is planned nor a histogram while it runs.
-/

namespace DataQuality

/-! ### The check -/

section

variable {w : Warehouse} {p : ColumnProfile} {conditions : Except DialectError ColumnConditions}
  {c : ColumnConditions} {m : Metric} {available : List Metric}

/-- The check lets a metric pass just if the conditions can be expressed and the dialect has what
the metric needs. -/
theorem conditionsFor_eq_ok_iff :
    conditionsFor w conditions m = .ok c ↔
      conditions = .ok c ∧
        ∀ capability, m.capability = some capability → w.supports capability := by
  unfold conditionsFor
  cases conditions with
  | error e => simp [Except.bind]
  | ok found =>
    cases hm : m.capability with
    | none => simp [Except.bind]
    | some capability => simp [Except.bind, Warehouse.require_eq_ok_iff, and_comm]

/-- An aggregate needs what the catalog says of its metric. -/
theorem AggregateForm.exists_sql {form : AggregateForm} (hform : m.aggregateForm? = some form)
    (h : ∀ capability, m.capability = some capability → w.supports capability) :
    ∃ sql, form.sql w p c = .ok sql := by
  have hrequire : ∀ {capability} (sql : String), m.capability = some capability →
      ∃ text, w.require capability sql = .ok text :=
    fun sql hm ↦ ⟨sql, Warehouse.require_eq_ok_iff.mpr ⟨h _ hm, rfl⟩⟩
  cases m <;> cases hform
  case variance | stddev | median => exact hrequire _ rfl
  all_goals exact ⟨_, rfl⟩

/-- Behind the check every aggregate can be written. -/
theorem exists_sql_of_conditionsFor {form : AggregateForm}
    (hform : m.aggregateForm? = some form) (h : conditionsFor w conditions m = .ok c) :
    ∃ sql, form.sql w p c = .ok sql :=
  AggregateForm.exists_sql hform (conditionsFor_eq_ok_iff.mp h).2

/-- Only the check refuses a metric for want of a part of SQL. -/
theorem conditionsFor_eq_error_of_producer {e : DialectError}
    (h : producer w p conditions available m = .error (.unsupported e)) :
    conditionsFor w conditions m = .error e := by
  have hmap : ∀ {α : Type} {x : Except DialectError α},
      x.mapError Obstacle.unsupported = .error (.unsupported e) → x = .error e := by
    intro α x hx
    cases x with
    | error e' => exact congrArg _ (Obstacle.unsupported.inj (Except.error.inj hx))
    | ok a => cases hx
  unfold producer at h
  split at h
  · cases h
  · split at h
    · next form hform =>
      rcases error_cases_of_bind (hmap h) with hcheck | ⟨c, hc, hsql⟩
      · exact hcheck
      · obtain ⟨sql, hok⟩ := exists_sql_of_conditionsFor hform hc
        rw [hok] at hsql
        cases hsql
    · split at h
      · cases h
      · exact eq_error_of_map_eq_error (hmap h)

/-- What can be had of a column is supported; what is derived needs nothing itself. -/
theorem supports_of_producer {how : Producer} (h : producer w p conditions available m = .ok how)
    {capability : Capability} (hm : m.capability = some capability) : w.supports capability := by
  obtain ⟨-, ⟨_, _, _, -, hc, -⟩ | ⟨hderived, -⟩ | ⟨-, ⟨_, hc⟩, -⟩⟩ := producer_cases h
  · exact (conditionsFor_eq_ok_iff.mp hc).2 _ hm
  · cases m <;> cases hderived <;> cases hm
  · exact (conditionsFor_eq_ok_iff.mp hc).2 _ hm

end

/-- What is derived is computed from more than the number of rows. -/
theorem Metric.exists_mem_dependencies {m : Metric} (h : m.computation = .derived) :
    ∃ d ∈ m.dependencies, d ≠ .rowCount := by
  cases m <;> cases h <;> decide

namespace ColumnPlan

variable {w : Warehouse} {p : ColumnProfile} {conditions : Except DialectError ColumnConditions}
  {r : MetricRequest}

/-- What is requested of a column besides the number of rows has a producer. -/
theorem exists_producer_of_mem_requests {available : List Metric} {resolved : List ResolvedMetric}
    (h : r ∈ (ofMetrics w p conditions available resolved).findings.requests) :
    r = rowCountRequest true ∨ ∃ m internal known how,
      r = ⟨p.metricKey m, some m, internal⟩ ∧ producer w p conditions known m = .ok how := by
  induction resolved generalizing available with
  | nil => cases h
  | cons first rest ih =>
    unfold ofMetrics at h
    split at h
    · rcases List.mem_cons.mp h with rfl | h
      · exact .inl rfl
      · exact ih h
    · split at h
      · next how hhow =>
        rw [findings_produce] at h
        rcases List.mem_cons.mp h with rfl | h
        · exact .inr ⟨first.metric, first.internal, available, how, rfl, hhow⟩
        · exact ih h
      · rw [requests_drop] at h
        exact ih h

/-- Without conditions nothing is requested but the number of rows: what needs conditions cannot be
had, nor what is derived from it. -/
theorem requests_ofMetrics_error {e : DialectError} {available : List Metric}
    (havailable : ∀ m ∈ available, m = .rowCount) {resolved : List ResolvedMetric}
    (h : r ∈ (ofMetrics w p (.error e) available resolved).findings.requests) :
    r = rowCountRequest true := by
  induction resolved generalizing available with
  | nil => cases h
  | cons first rest ih =>
    unfold ofMetrics at h
    split at h
    · rcases List.mem_cons.mp h with rfl | h
      · rfl
      · exact ih (List.forall_mem_cons.mpr ⟨rfl, havailable⟩) h
    · split at h
      · next how hhow =>
        obtain ⟨hneeds, ⟨_, _, _, -, hc, -⟩ | ⟨hderived, -⟩ | ⟨-, ⟨_, hc⟩, -⟩⟩ :=
          producer_cases hhow
        · cases hc
        · obtain ⟨d, hd, hne⟩ := Metric.exists_mem_dependencies hderived
          exact absurd (havailable d (hneeds d hd)) hne
        · cases hc
      · rw [requests_drop] at h
        exact ih havailable h

/-- What is requested of a column is supported. -/
theorem supports_of_mem_requests {metrics : List Metric}
    (h : r ∈ (ofWanted w p conditions metrics).findings.requests) {m : Metric}
    (hm : r.metric = some m) {capability : Capability}
    (hcapability : m.capability = some capability) : w.supports capability := by
  unfold ofWanted at h
  split at h
  · rcases exists_producer_of_mem_requests h with rfl | ⟨n, internal, known, how, rfl, hhow⟩
    · obtain rfl : Metric.rowCount = m := Option.some.inj hm
      cases hcapability
    · obtain rfl : n = m := Option.some.inj hm
      exact supports_of_producer hhow hcapability
  · cases h

/-- Without conditions nothing is requested but the number of rows. -/
theorem requests_of_error {e : DialectError} {metrics : List Metric}
    (h : r ∈ (ofWanted w p (.error e) metrics).findings.requests) : r = rowCountRequest true := by
  unfold ofWanted at h
  split at h
  · exact requests_ofMetrics_error (by simp) h
  · cases h

end ColumnPlan

/-! ### Patterns -/

/-- Whether a pattern decides which values of the column are missing or which are valid. -/
def ColumnSettings.UsesPattern (s : ColumnSettings) : Prop :=
  s.missing.patterns ≠ [] ∨ ∃ v, s.validity? = some v ∧ v.patterns ≠ []

namespace ColumnConditions

variable {w : Warehouse} {p : ColumnProfile}

/-- Patterns need regular expressions. -/
theorem supports_of_patternClauses {patterns found : List String}
    (h : patternClauses w p patterns = .ok found) (hpatterns : patterns ≠ []) :
    w.supports .regexMatch := by
  cases patterns with
  | nil => exact absurd rfl hpatterns
  | cons first rest =>
    unfold patternClauses at h
    rw [List.mapM_cons] at h
    obtain ⟨_, hfirst, -⟩ := exists_of_bind_eq_ok h
    exact (Warehouse.require_eq_ok_iff.mp hfirst).1

/-- Conditions with patterns can be expressed only by a dialect that has regular expressions. -/
theorem supports_of_build {s : ColumnSettings} {c : ColumnConditions}
    (h : build w p (some s) = .ok c) (hpattern : s.UsesPattern) : w.supports .regexMatch := by
  rw [build_eq] at h
  obtain ⟨missing, hmissing, h⟩ := exists_of_bind_eq_ok h
  obtain ⟨validity, hvalidity, -⟩ := exists_of_map_eq_ok h
  rcases hpattern with hpatterns | ⟨v, hv, hpatterns⟩
  · obtain ⟨_, hclauses, -⟩ := exists_of_map_eq_ok hmissing
    exact supports_of_patternClauses hclauses hpatterns
  · simp only [validityClausesFor, Option.bind_some, hv] at hvalidity
    obtain ⟨_, hclauses, -⟩ := exists_of_map_eq_ok hvalidity
    exact supports_of_patternClauses hclauses hpatterns

end ColumnConditions

/-! ### Plans -/

namespace Draft

variable {d : Draft} {r : MetricRequest}

/-- A request for a metric of the catalog is for the number of rows, or the plan of a column makes
it. -/
theorem metric_cases_of_mem_requests (hr : r ∈ d.requests) (hmetric : r.metric.isSome = true) :
    (r.metric = some .rowCount ∧ r.key.column = none) ∨
      ∃ column ∈ d.columns, ∃ q ∈ (metricPlan d.warehouse d.config d.selection.metrics
        column).findings.requests, q.key = r.key ∧ q.metric = r.metric := by
  obtain ⟨q, hq, hkey, hsame⟩ := exists_of_mem_mergeRequests hr
  rw [← hkey, ← hsame]
  rcases List.mem_append.mp hq with hq | hq
  · rcases mem_measured_iff.mp hq with hq | ⟨column, hcolumn, hq⟩
    · unfold scanWideFindings at hq
      dsimp only at hq
      split at hq
      · obtain rfl := List.mem_singleton.mp hq
        exact .inl ⟨rfl, rfl⟩
      · cases hq
    · rcases List.mem_append.mp hq with hq | hq
      · rw [Wanted.eq_rowCountRequest hq]
        exact .inl ⟨rfl, rfl⟩
      · exact .inr ⟨column, hcolumn, q, hq, rfl, rfl⟩
  · obtain ⟨key, -, rfl⟩ := List.mem_map.mp hq
    rw [← hsame] at hmetric
    cases hmetric

/-- Every metric that is requested is supported. -/
theorem supports_of_mem_requests (hr : r ∈ d.requests) {m : Metric} (hm : r.metric = some m)
    {capability : Capability} (hcapability : m.capability = some capability) :
    d.warehouse.supports capability := by
  rcases metric_cases_of_mem_requests hr (by rw [hm]; rfl) with
    ⟨hrow, -⟩ | ⟨column, -, q, hq, -, hsame⟩
  · obtain rfl : Metric.rowCount = m := Option.some.inj (hrow.symm.trans hm)
    cases hcapability
  · exact ColumnPlan.supports_of_mem_requests hq (hsame.trans hm) hcapability

/-- Where patterns need what the dialect lacks, nothing of the catalog is requested of the column,
under whichever spelling of its name it is listed. -/
theorem column_ne_of_usesPattern (hregex : d.warehouse.supports .regexMatch = false)
    {column : TableColumn} {s : ColumnSettings} (hs : d.config.column? column.name = some s)
    (hpattern : s.UsesPattern) (hr : r ∈ d.requests) (hmetric : r.metric.isSome = true) :
    r.key.column ≠ some (Text.lower column.name) := by
  intro hcolumn
  rcases metric_cases_of_mem_requests hr hmetric with
    ⟨-, hnone⟩ | ⟨other, hother, q, hq, hkey, -⟩
  · rw [hnone] at hcolumn
    cases hcolumn
  · have hother : Text.lower other.name = Text.lower column.name := by
      rcases (coherent_metricPlan d.warehouse d.config d.selection.metrics other).requests q hq with
        rfl | ⟨m, internal, -, rfl⟩
      · rw [← hkey] at hcolumn
        cases hcolumn
      · exact Option.some.inj ((congrArg MetricKey.column hkey).trans hcolumn)
    have hsettings : d.config.column? other.name = some s := by
      rw [← hs, ScanConfiguration.column?, hother, ScanConfiguration.column?]
    cases hconditions : d.config.conditions d.warehouse other with
    | ok c =>
      rw [ScanConfiguration.conditions, hsettings] at hconditions
      rw [ColumnConditions.supports_of_build hconditions hpattern] at hregex
      cases hregex
    | error e =>
      change q ∈ (ColumnPlan.ofWanted _ _ (d.config.conditions d.warehouse other)
        _).findings.requests at hq
      rw [hconditions] at hq
      obtain rfl := ColumnPlan.requests_of_error hq
      rw [← hkey] at hcolumn
      cases hcolumn

/-- A histogram of a plan can be asked for between any bounds. -/
theorem exists_render {g : QueryGroup} (hg : g ∈ d.plan.groups) {q : HistogramQuery}
    (hquery : g.query = .histogram q) (low high : Float) :
    ∃ sql, q.render d.warehouse low high = .ok sql := by
  obtain ⟨column, -, c, -, hmem⟩ := exists_column_of_distribution hg (phase_of_histogram hg hquery)
  obtain ⟨-, -, ⟨text, -, htext⟩ | ⟨⟨internal, hinternal⟩, -⟩⟩ :=
    DistributionContext.cases_of_mem_groups hmem
  · rw [hquery] at htext
    cases htext
  · have hrequest := ((coherent_metricPlan d.warehouse d.config d.selection.metrics
      column).distributions _ (DistributionContext.mem_of_internal? hinternal)).2
    exact ⟨_, Warehouse.require_eq_ok_iff.mpr
      ⟨ColumnPlan.supports_of_mem_requests hrequest rfl rfl, rfl⟩⟩

end Draft

/-! ### Runs -/

/-- Whether a text has neither colons nor apostrophes. -/
def isBare (s : String) : Bool := s.toList.all fun c ↦ c ≠ ':' && c ≠ '\''

theorem isBare_append (a b : String) : isBare (a ++ b) = (isBare a && isBare b) := by
  simp [isBare]

namespace DialectError

variable (e : DialectError)

/-- What a dialect says of what it lacks has neither colons nor apostrophes. -/
theorem isBare_message : isBare e.message = true := by
  have hname : ∀ w : Warehouse, isBare w.name = true := by
    intro w
    cases w <;> decide
  have hdescribe : ∀ capability : Capability, isBare capability.describe = true := by
    intro capability
    cases capability <;> decide
  have hmethod : ∀ method : SampleMethod, isBare method.name = true := by
    intro method
    cases method <;> decide
  have hnot : isBare " not supported by the " = true := by decide
  have hsampling : isBare " sampling not supported by the " = true := by decide
  have hdialect : isBare " dialect" = true := by decide
  cases e <;> simp only [message, isBare_append, hname, hdescribe, hmethod, hnot, hsampling,
    hdialect, Bool.and_self]

/-- It ends with the last letter of "dialect". -/
theorem getLast?_message : e.message.toList.getLast? = some 't' := by
  have hlast : " dialect".toList.getLast? = some 't' := by decide
  cases e <;> rw [message, String.toList_append, List.getLast?_append, hlast, Option.some_or]

/-- It does not begin like what is said of queries. -/
theorem head?_message : e.message.toList.head? ≠ some 'Q' := by
  cases e with
  | unsupported capability w =>
    cases capability <;> simp [message, Capability.describe]
  | unsupportedSampleMethod method w =>
    cases method <;> simp [message, SampleMethod.name]

end DialectError

/-- The reading failed for want of a part of SQL. -/
def Reading.LacksSql (r : Reading) : Prop := ∃ e : DialectError, r = .failed e.message

namespace Reading

variable {message : String}

theorem not_lacksSql_of_mem {c : Char} (hc : c ∈ [':', '\'']) (h : c ∈ message.toList) :
    ¬ (failed message).LacksSql := by
  rintro ⟨e, he⟩
  have hbare := e.isBare_message
  rw [← Reading.failed.inj he, isBare, List.all_eq_true] at hbare
  have hne := hbare c h
  simp only [List.mem_cons, List.not_mem_nil, or_false] at hc
  rcases hc with rfl | rfl <;> cases hne

theorem not_lacksSql_of_getLast? {c : Char} (h : message.toList.getLast? = some c) (hc : c ≠ 't') :
    ¬ (failed message).LacksSql := by
  rintro ⟨e, he⟩
  rw [Reading.failed.inj he, e.getLast?_message] at h
  exact hc (Option.some.inj h).symm

theorem not_lacksSql_append {a b : String} {c : Char} (h : b.toList.getLast? = some c)
    (hc : c ≠ 't') : ¬ (failed (a ++ b)).LacksSql := by
  refine not_lacksSql_of_getLast? ?_ hc
  rw [String.toList_append, List.getLast?_append, h, Option.some_or]

end Reading

open BoundName in
/-- No warehouse answers with what a dialect says. -/
theorem ScanError.not_lacksSql (e : ScanError) : ¬ (Reading.failed e.message).LacksSql := by
  have hcolon : ':' ∈ [':', '\''] := .head _
  cases e with
  | connection cause =>
    have hmem : ':' ∈ "Warehouse connection failed: Warehouse connection failed".toList := by decide
    exact Reading.not_lacksSql_of_mem hcolon hmem
  | queryTimeout timeout =>
    have hhead : ∀ text, ("Query timed out after " ++ text).toList.head? = some 'Q' := by simp
    rintro ⟨e, he⟩
    exact e.head?_message (Reading.failed.inj he ▸ hhead timeout.text)
  | schemaDiscovery table context =>
    exact Reading.not_lacksSql_of_mem hcolon (mem_append_left (mem_append_right (by decide)))
  | configuration message => exact Reading.not_lacksSql_of_mem hcolon (mem_append_left (by decide))
  | queryExecution context => exact Reading.not_lacksSql_of_mem hcolon (mem_append_left (by decide))
  | unsupportedFeature feature w =>
    exact Reading.not_lacksSql_of_mem hcolon
      (mem_append_left (mem_append_left (mem_append_left (by decide))))
  | cancelled context => exact Reading.not_lacksSql_of_mem hcolon (mem_append_left (by decide))
  | internal fault => exact Reading.not_lacksSql_of_mem hcolon (mem_append_left (by decide))
  | io context cause => exact Reading.not_lacksSql_of_mem hcolon (mem_append_left (by decide))
  | serialization context cause =>
    exact Reading.not_lacksSql_of_mem hcolon (mem_append_left (by decide))

open BoundName in
/-- Nor does a result that cannot be read say it. -/
theorem Rows.Misses.not_lacksSql {message : String} (h : Misses message) :
    ¬ (Reading.failed message).LacksSql := by
  cases h with
  | rows => exact Reading.not_lacksSql_of_getLast? (c := 's') (by decide) (by decide)
  | bounds => exact Reading.not_lacksSql_of_getLast? (c := 'n') (by decide) (by decide)
  | column name =>
    exact Reading.not_lacksSql_append (b := "'") (c := '\'') (by decide) (by decide)
  | field name =>
    exact Reading.not_lacksSql_of_mem (c := '\'') (by decide)
      (mem_append_left (mem_append_left (by decide)))

/-- Where every histogram can be asked for, no measurement of a group lacks a part of SQL. -/
theorem QueryGroup.Gives.not_lacksSql {w : Warehouse} {g : QueryGroup} {reading : Reading}
    (h : g.Gives w reading)
    (hrender : ∀ q, g.query = .histogram q → ∀ low high, ∃ sql, q.render w low high = .ok sql) :
    ¬ reading.LacksSql := by
  cases h with
  | measured v =>
    rintro ⟨e, he⟩
    cases he
  | cancelled =>
    rintro ⟨e, he⟩
    cases he
  | unbounded h =>
    rintro ⟨e, he⟩
    cases he
  | unanswered e => exact e.not_lacksSql
  | misread h => exact h.not_lacksSql
  | unrendered hquery herror =>
    obtain ⟨sql, hsql⟩ := hrender _ hquery _ _
    rw [hsql] at herror
    cases herror

open BoundName in
theorem DerivedMetric.Gives.not_lacksSql {reading : Reading} (h : Gives reading) :
    ¬ reading.LacksSql := by
  cases h with
  | measured v =>
    rintro ⟨e, he⟩
    cases he
  | uncounted key shown =>
    exact Reading.not_lacksSql_of_mem (c := ':') (by decide)
      (mem_append_left (mem_append_right (by decide)))
  | skipped key =>
    rintro ⟨e, he⟩
    cases he
  | unavailable key =>
    exact Reading.not_lacksSql_append (b := " is unavailable") (c := 'e') (by decide) (by decide)
  | underived m =>
    exact Reading.not_lacksSql_append (b := " is not a derived metric") (c := 'c') (by decide)
      (by decide)

/-- What a plan for a dialect keeps to about the parts of SQL that the dialect lacks. -/
structure Plan.SettlesCapabilities (p : Plan) (w : Warehouse) (config : ScanConfiguration) :
    Prop where
  requests : ∀ r ∈ p.requests, ∀ m, r.metric = some m →
    ∀ capability, m.capability = some capability → w.supports capability
  patterns : w.supports .regexMatch = false → ∀ column ∈ p.columns, ∀ s,
    config.column? column.name = some s → s.UsesPattern →
      ∀ r ∈ p.requests, r.metric.isSome → r.key.column ≠ some (Text.lower column.name)
  aggregates : ∀ column ∈ p.columns, ∀ m form c, m.aggregateForm? = some form →
    conditionsFor w (config.conditions w column) m = .ok c →
      ∃ sql, form.sql w (config.profile w column) c = .ok sql
  refusals : ∀ column ∈ p.columns, ∀ available m e,
    producer w (config.profile w column) (config.conditions w column) available m =
      .error (.unsupported e) → conditionsFor w (config.conditions w column) m = .error e
  histograms : ∀ g ∈ p.groups, ∀ q, g.query = .histogram q →
    ∀ low high, ∃ sql, q.render w low high = .ok sql
  recorded : ∀ scan : Scan, scan.dialect = w → ∀ phases last,
    Run.Completes w p (scan.begun p) phases last →
      (last.ledger.derive p.derived).All fun reading ↦ ¬ reading.LacksSql
  reported : ∀ scan : Scan, scan.dialect = w → ∀ result, scan.ReportsOn p result →
    ∀ m ∈ result.measurements, ¬ m.reading.LacksSql

/-- What a warehouse lacks is settled by the time the plan is made: every metric of the plan is
supported, a column that needs patterns the dialect lacks is left out, behind the check no aggregate
and no histogram fails, and so whatever the warehouse answers no measurement of a scan fails for
want of a part of SQL. -/
theorem Plan.settles_capabilities {w : Warehouse} {cap : Nat} {config : ScanConfiguration}
    {columns : List TableColumn} {p : Plan} (hplan : config.plan w cap columns = .ok p) :
    p.SettlesCapabilities w config := by
  obtain ⟨-, source, -, rfl⟩ := ScanConfiguration.plan_eq_ok_iff.mp hplan
  have hrecorded : ∀ scan : Scan, scan.dialect = w → ∀ phases last,
      Run.Completes w (Draft.plan ⟨w, cap, config, columns, source⟩)
        (scan.begun (Draft.plan ⟨w, cap, config, columns, source⟩)) phases last →
      (last.ledger.derive (Draft.plan ⟨w, cap, config, columns, source⟩).derived).All
        fun reading ↦ ¬ reading.LacksSql := by
    intro scan _ phases last hrun
    have hbegun := scan.all_begun (P := fun reading ↦ ¬ reading.LacksSql)
      (p := Draft.plan ⟨w, cap, config, columns, source⟩) (by rintro ⟨e, he⟩; cases he)
    have hlast := hrun.all hbegun fun g hg measured t hturn m hm ↦
      (hturn.gives hm).not_lacksSql fun q hq ↦ Draft.exists_render hg hq
    exact hlast.derive (fun d ms ↦ (d.gives_reading ms).not_lacksSql) _
  exact {
    requests := fun r hr m hm capability hcapability ↦
      Draft.supports_of_mem_requests hr hm hcapability
    patterns := fun hregex column _ s hs hpattern r hr hmetric ↦
      Draft.column_ne_of_usesPattern hregex hs hpattern hr hmetric
    aggregates := fun column _ m form c hform h ↦ exists_sql_of_conditionsFor hform h
    refusals := fun column _ available m e h ↦ conditionsFor_eq_error_of_producer h
    histograms := fun g hg q hq ↦ Draft.exists_render hg hq
    recorded := hrecorded
    reported := by
      rintro scan rfl result hreports m hm
      obtain ⟨r, hrun, hmeasurements, -⟩ := hreports.exists_run
      rw [hmeasurements] at hm
      exact hrecorded scan rfl _ r hrun m (List.mem_of_mem_filter hm) }

/-- Addresses are checked against a pattern, and numbers spread over buckets. -/
def addressConfiguration : ScanConfiguration :=
  { ScanConfiguration.ofTable "customers" with
    metrics := ["missing_count", "median", "histogram"]
    columns := Dict.empty.insert "email" ColumnConditions.emailSettings }

/-- Without regular expressions and percentiles the addresses are left out and so is the median, and
the rest of the plan does not fail for want of them. -/
theorem addressConfiguration_settles_capabilities :
    ∃ p, addressConfiguration.plan .sqlite 0 [⟨"age", "INTEGER", true⟩,
        ColumnConditions.emailColumn] = .ok p ∧
      Warehouse.sqlite.supports .regexMatch = false ∧
      ColumnConditions.emailSettings.UsesPattern ∧
      p.SettlesCapabilities .sqlite addressConfiguration := by
  obtain ⟨p, hplan⟩ : ∃ p, addressConfiguration.plan .sqlite 0 [⟨"age", "INTEGER", true⟩,
      ColumnConditions.emailColumn] = .ok p := ScanConfiguration.exists_plan (by decide) rfl
  refine ⟨p, hplan, by decide, .inr ⟨_, rfl, by decide⟩, Plan.settles_capabilities hplan⟩

end DataQuality
