import Mathlib.Data.Option.Basic
import DataQuality.Proofs.Drafts

/-!
# Lists of names

What is asked of the catalog stands in lists of names, one of metrics and one of groups for the
whole scan and for each column. Everything else of a configuration is planned without a look at
them: which columns there are, how they are read, what is missing or valid in them, the custom
queries and the tests.
-/

namespace DataQuality

variable {R G : List String → List String → Prop}

/-- The settings of two columns are equal, but for their lists of names: `R` relates those of
metrics and `G` those of groups. -/
structure ColumnSettings.EqBesidesNames (R G : List String → List String → Prop)
    (s s' : ColumnSettings) : Prop where
  metrics : R s.metrics s'.metrics
  groups : G s.metricGroups s'.metricGroups
  rest : s' = { s with metrics := s'.metrics, metricGroups := s'.metricGroups }

/-- Two configurations are equal, but for their lists of names and those of their columns: `R`
relates those of metrics and `G` those of groups. -/
structure ScanConfiguration.EqBesidesNames (R G : List String → List String → Prop)
    (c c' : ScanConfiguration) : Prop where
  metrics : R c.metrics c'.metrics
  groups : G c.metricGroups c'.metricGroups
  columns : ∀ key, Option.Rel (ColumnSettings.EqBesidesNames R G) (c.columns.get? key)
    (c'.columns.get? key)
  rest : c' = { c with
    metrics := c'.metrics, metricGroups := c'.metricGroups, columns := c'.columns }

/-! ### Columns -/

section

variable {o o' : Option ColumnSettings} (h : Option.Rel (ColumnSettings.EqBesidesNames R G) o o')
  (w : Warehouse) (column : TableColumn)
include h

/-- A column is seen alike. -/
theorem ColumnProfile.ofColumn_congr : ofColumn w column o = ofColumn w column o' := by
  cases h with
  | none => rfl
  | some h =>
    rw [h.rest]
    simp only [ofColumn, Option.filter_some, ColumnSettings.hasNumericTextFormat]
    split <;> rfl

/-- The conditions on the rows of a column are the same. -/
theorem ColumnConditions.build_congr (p : ColumnProfile) : build w p o = build w p o' := by
  cases h with
  | none => rfl
  | some h =>
    rw [h.rest]
    rfl

/-- The custom queries of a column are the same. -/
theorem sqlMetrics_congr :
    (o.map ColumnSettings.sqlMetrics).getD [] = (o'.map ColumnSettings.sqlMetrics).getD [] := by
  cases h with
  | none => rfl
  | some h =>
    rw [h.rest]
    rfl

end

/-- Dictionaries with something under the same keys have these keys in the same order. -/
theorem Dict.keys_eq_of_isSome {α : Type} {d d' : Dict α}
    (h : ∀ key, (d.get? key).isSome = (d'.get? key).isSome) : d.keys = d'.keys := by
  have hkey : ∀ {d : Dict α} {key : String}, key ∈ d.keys ↔ (d.get? key).isSome = true := by
    intro d key
    rw [Option.isSome_iff_exists, keys, List.mem_map]
    constructor
    · rintro ⟨e, he, rfl⟩
      exact ⟨e.2, mem_entries_iff.mp he⟩
    · rintro ⟨value, hvalue⟩
      exact ⟨_, mem_entries_iff.mpr hvalue, rfl⟩
  have hperm : d.keys.Perm d'.keys := by
    rw [List.perm_ext_iff_of_nodup d.nodup_keys d'.nodup_keys]
    intro key
    rw [hkey, hkey, h]
  have hsorted : ∀ d : Dict α, d.keys.Pairwise (· < ·) := fun d ↦
    List.pairwise_map.mpr d.ascending
  exact hperm.eq_of_pairwise (fun a b _ _ hab hba ↦ absurd hab (String.lt_asymm hba)) (hsorted d)
    (hsorted d')

namespace ScanConfiguration.EqBesidesNames

variable {c c' : ScanConfiguration} (h : c.EqBesidesNames R G c')
include h

theorem tableName_eq : c.tableName = c'.tableName := by rw [h.rest]

theorem tests_eq : c.tests = c'.tests := by rw [h.rest]

theorem sqlMetrics_eq : c.sqlMetrics = c'.sqlMetrics := by rw [h.rest]

/-- The settings of a column are equal, but for their lists of names. -/
theorem column? (name : String) : Option.Rel (ColumnSettings.EqBesidesNames R G) (c.column? name)
    (c'.column? name) := h.columns (Text.lower name)

/-- The same columns have settings. -/
theorem keys_eq : c.columns.keys = c'.columns.keys := by
  refine Dict.keys_eq_of_isSome fun key ↦ ?_
  have hrel := h.columns key
  revert hrel
  cases c.columns.get? key <;> cases c'.columns.get? key <;> rintro ⟨⟩ <;> rfl

/-- The same column is missing. -/
theorem unknownColumn?_eq (columns : List TableColumn) :
    c.unknownColumn? columns = c'.unknownColumn? columns := by
  unfold unknownColumn?
  rw [h.keys_eq]

/-- The same rows are read. -/
theorem source_eq (w : Warehouse) : c.source w = c'.source w := by
  rw [h.rest]
  rfl

/-- The tests of a column are the same. -/
theorem columnTests_eq (p : ColumnProfile) (name : String) :
    columnTests c p (c.column? name) = columnTests c' p (c'.column? name) := by
  have hrel := h.column? name
  unfold columnTests
  rw [h.tableName_eq]
  revert hrel
  cases c.column? name <;> cases c'.column? name <;> rintro ⟨⟩
  · rfl
  · next hs =>
    rw [hs.rest]

end ScanConfiguration.EqBesidesNames

end DataQuality
