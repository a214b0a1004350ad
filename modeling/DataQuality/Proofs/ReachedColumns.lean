import DataQuality.Proofs.DeclaredColumns
import DataQuality.Proofs.Drafts

/-!
# Settings reach their columns

Settings are kept and looked up under the lowercase form of the name of a column, whereas planning
looks for a column that matches a key up to the case of ASCII letters. The two agree on names in
ASCII. A column with a capital letter that is not in ASCII is not found under its own key.
-/

namespace DataQuality

/-! ### Columns under settings -/

/-- What the metrics of a column come to under settings. -/
def metricsUnder (w : Warehouse) (p : ColumnProfile) (scanWide : List Metric)
    (settings : ColumnSettings) : ColumnPlan :=
  .ofWanted w p (ColumnConditions.build w p (some settings))
    (Wanted.ofColumn p scanWide (some settings)).metrics

/-- A column is planned by settings: the metrics asked of it, the conditions that its queries hold
rows to, its tests and its custom queries are those of the settings. -/
structure PlannedColumn.Follows (w : Warehouse) (config : ScanConfiguration) (source : QuerySource)
    (scanWide : List Metric) (column : TableColumn) (settings : ColumnSettings)
    (c : PlannedColumn) : Prop where
  profile : c.profile = .ofColumn w column (some settings)
  requests : c.findings.requests =
    (Wanted.ofColumn c.profile scanWide (some settings)).findings.requests ++
      (metricsUnder w c.profile scanWide settings).findings.requests
  issues : c.findings.issues =
    (Wanted.ofColumn c.profile scanWide (some settings)).findings.issues ++
      (metricsUnder w c.profile scanWide settings).findings.issues
  aggregates : c.aggregates = (metricsUnder w c.profile scanWide settings).aggregates
  groups : c.groups = distributionGroups w config source c.profile
    (ColumnConditions.build w c.profile (some settings))
    (metricsUnder w c.profile scanWide settings).distributions
  derived : c.derived = (metricsUnder w c.profile scanWide settings).derived
  tests : c.tests = columnTests config c.profile (some settings)
  customs : c.customs = declareMetrics (some c.profile.key) 0 settings.sqlMetrics

/-- A column is planned by the settings that are found under its name. -/
theorem follows_planColumn {w : Warehouse} {config : ScanConfiguration} {source : QuerySource}
    {scanWide : List Metric} {column : TableColumn} {settings : ColumnSettings}
    (h : config.column? column.name = some settings) :
    (planColumn w config source scanWide column).Follows w config source scanWide column
      settings := by
  unfold planColumn
  rw [h]
  exact ⟨rfl, rfl, rfl, rfl, rfl, rfl, rfl, rfl⟩

/-! ### Columns that are not found -/

namespace ScanConfiguration

variable {w : Warehouse} {cap : Nat} {config : ScanConfiguration} {columns : List TableColumn}
  {key table : String}

/-- Planning fails for the sake of a column only if it is the first that is not found. -/
theorem plan_eq_unknownColumn_iff :
    config.plan w cap columns = .error (.unknownColumn key table) ↔
      config.unknownColumn? columns = some key ∧ config.tableName = table := by
  unfold plan
  cases config.unknownColumn? columns with
  | some name => simp
  | none =>
    simp only [reduceCtorEq, false_and, iff_false]
    intro h
    replace h := eq_error_of_map_eq_error h
    unfold source at h
    dsimp only at h
    split at h
    · cases h
    · split at h <;> cases h

/-- A column is not found if planning fails for its sake. -/
theorem not_found_of_unknownColumn? (h : config.unknownColumn? columns = some key) :
    key ∈ config.columns.keys ∧
      ∀ c ∈ columns, Text.eqFoldingAscii c.name key = false := by
  refine ⟨List.mem_of_find?_eq_some h, ?_⟩
  simpa using List.find?_some h

/-- Some column is not found if one is not. -/
theorem exists_unknownColumn? (hkey : key ∈ config.columns.keys)
    (h : ∀ c ∈ columns, Text.eqFoldingAscii c.name key = false) :
    ∃ other, config.unknownColumn? columns = some other := by
  rw [← Option.isSome_iff_exists, unknownColumn?, List.find?_isSome]
  exact ⟨key, hkey, by simpa using h⟩

end ScanConfiguration

/-- What is promised of the settings of columns in plans for a table: settings that are declared
under some spelling of the name of a column are never reported as those of a column that is not
there, and the column is planned by them; and planning fails for the sake of a column exactly if
settings are kept under a key that is not the lowercase form of the name of any column. -/
structure SettingsReach (w : Warehouse) (cap : Nat) (columns : List TableColumn) : Prop where
  found : ∀ (config : ScanConfiguration) (spelling : String) (settings : ColumnSettings),
    config.Declares spelling settings → ∀ n ∈ columns, Text.lower spelling = Text.lower n.name →
      ∀ table, config.plan w cap columns ≠ .error (.unknownColumn (Text.lower spelling) table)
  applied : ∀ (config : ScanConfiguration) (p : Plan), config.plan w cap columns = .ok p →
    ∃ source planned, p = assemblePlan cap config columns source
        (scanWideFindings (.ofNames config.metrics config.metricGroups)) planned ∧
      List.Forall₂ (fun n c ↦ ∀ spelling settings, config.Declares spelling settings →
        Text.lower spelling = Text.lower n.name →
          c.Follows w config source (Selection.ofNames config.metrics config.metricGroups).metrics
            n settings) columns planned
  fails_iff : ∀ config : ScanConfiguration, config.Built →
    ((∃ key table, config.plan w cap columns = .error (.unknownColumn key table)) ↔
      ∃ key ∈ config.columns.keys, ∀ c ∈ columns, Text.lower c.name ≠ key)

/-- Each column, or another with the same key, matches its key up to the case of ASCII letters. -/
def NamesFold (columns : List TableColumn) : Prop :=
  ∀ n ∈ columns, ∃ c ∈ columns, Text.eqFoldingAscii c.name (Text.lower n.name) = true

/-- Names in ASCII match their keys. -/
theorem namesFold_of_ascii {columns : List TableColumn}
    (h : ∀ n ∈ columns, ∀ c ∈ n.name.toList, c.toNat < 0x80) : NamesFold columns :=
  fun n hn ↦ ⟨n, hn, Text.eqFoldingAscii_lower (h n hn)⟩

namespace SettingsReach

variable {w : Warehouse} {cap : Nat} {columns : List TableColumn}

/-- A column whose settings are never reported as missing is found under its key. -/
theorem namesFold (h : SettingsReach w cap columns) : NamesFold columns := by
  intro n hn
  by_contra hnone
  let config := (ScanConfiguration.ofTable "").withColumn n.name .empty
  have hunknown : config.unknownColumn? columns = some (Text.lower n.name) := by
    have hkeys : config.columns.keys = [Text.lower n.name] := rfl
    rw [ScanConfiguration.unknownColumn?, hkeys, List.find?_singleton, if_pos]
    rw [Bool.not_eq_true', Bool.eq_false_iff]
    intro hfound
    exact hnone (List.any_eq_true.mp hfound)
  exact h.found config n.name .empty (.withColumn _) n hn rfl _
    (ScanConfiguration.plan_eq_unknownColumn_iff.mpr ⟨hunknown, rfl⟩)

/-- Where columns are found under their keys, settings reach them. -/
theorem of_namesFold (h : NamesFold columns) : SettingsReach w cap columns where
  found := by
    intro config spelling settings _ n hn hspelling table hplan
    have hunknown := (ScanConfiguration.plan_eq_unknownColumn_iff.mp hplan).1
    obtain ⟨-, hnone⟩ := ScanConfiguration.not_found_of_unknownColumn? hunknown
    obtain ⟨c, hc, hfold⟩ := h n hn
    have hnot := hnone c hc
    rw [hspelling, hfold] at hnot
    cases hnot
  applied := by
    intro config p hplan
    obtain ⟨-, source, -, rfl⟩ := ScanConfiguration.plan_eq_ok_iff.mp hplan
    refine ⟨source, columns.map (planColumn w config source _), rfl, ?_⟩
    rw [List.forall₂_map_right_iff, List.forall₂_same]
    intro n hn spelling settings hdeclares hspelling
    apply follows_planColumn
    rw [ScanConfiguration.column?, ← hspelling]
    exact hdeclares.get?_eq
  fails_iff := by
    intro config hbuilt
    constructor
    · rintro ⟨key, table, hplan⟩
      have hunknown := (ScanConfiguration.plan_eq_unknownColumn_iff.mp hplan).1
      obtain ⟨hkey, hnone⟩ := ScanConfiguration.not_found_of_unknownColumn? hunknown
      refine ⟨key, hkey, ?_⟩
      rintro n hn rfl
      obtain ⟨c, hc, hfold⟩ := h n hn
      have hnot := hnone c hc
      rw [hfold] at hnot
      cases hnot
    · rintro ⟨key, hkey, hnone⟩
      have hmissed : ∀ c ∈ columns, Text.eqFoldingAscii c.name key = false := by
        intro c hc
        rw [Bool.eq_false_iff]
        intro hfold
        apply hnone c hc
        rw [Text.lower_eq_of_eqFoldingAscii hfold, hbuilt.lower_eq key hkey]
      obtain ⟨other, hother⟩ := ScanConfiguration.exists_unknownColumn? hkey hmissed
      exact ⟨other, _, ScanConfiguration.plan_eq_unknownColumn_iff.mpr ⟨hother, rfl⟩⟩

end SettingsReach

/-- Settings reach the columns of a table exactly if each column, or another with the same key,
matches its key up to the case of ASCII letters. -/
theorem settingsReach_iff_namesFold (w : Warehouse) (cap : Nat) (columns : List TableColumn) :
    SettingsReach w cap columns ↔ NamesFold columns :=
  ⟨SettingsReach.namesFold, SettingsReach.of_namesFold⟩

/-- Settings of a column that are declared under its very name do not reach it if the name begins
with a capital letter that is not in ASCII. -/
theorem settings_miss_capital_umlaut :
    let column : TableColumn := ⟨"Ärger", "text", true⟩
    let config := (ScanConfiguration.ofTable "t").withColumn "Ärger" .empty
    config.Declares "Ärger" .empty ∧
      config.plan .postgreSQL 0 [column] = .error (.unknownColumn "ärger" "t") ∧
      (PlanError.unknownColumn "ärger" "t").message =
        "column 'ärger' does not exist in table 't'" ∧
      ¬SettingsReach .postgreSQL 0 [column] := by
  intro column config
  have hdeclares : config.Declares "Ärger" .empty := .withColumn _
  have hlower : Text.lower "Ärger" = "ärger" := by decide +kernel
  have hplan : config.plan .postgreSQL 0 [column] = .error (.unknownColumn "ärger" "t") :=
    ScanConfiguration.plan_eq_unknownColumn_iff.mpr ⟨by decide +kernel, rfl⟩
  refine ⟨hdeclares, hplan, rfl, fun h ↦ ?_⟩
  exact h.found config "Ärger" .empty hdeclares column (.head _) rfl "t" (hlower ▸ hplan)

end DataQuality
