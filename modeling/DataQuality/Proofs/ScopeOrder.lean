import DataQuality.Test.Compiled

/-!
# The order of scopes

A name of a test is looked for at several places: among the outputs of the query that declares the
test, then among the metrics of its column, then among those of the table. A metric may be found
under the name as it is written or in lower case. What the name stands for comes from the nearest
place that has anything of the name, with one exception: as it is written, the name is looked for at
all places before it is looked for in lower case at any, so that a metric of the table with the name
as it is written passes over one of the column with the name in lower case.
-/

namespace DataQuality

/-! ### The nearest offer -/

/-- Something is chosen unless nothing is on offer anywhere, and what is chosen comes from the first
place that has an offer. -/
structure IsNearest {α : Type} (offers : List (List α)) (choice : Option α) : Prop where
  none_iff : choice = none ↔ ∀ keys ∈ offers, keys = []
  first (key : α) : choice = some key →
    ∃ nearer keys farther, offers = nearer ++ keys :: farther ∧ (∀ other ∈ nearer, other = []) ∧
      key ∈ keys

section IsNearest

variable {α : Type} {keys : List α} {offers : List (List α)} {choice : Option α}

/-- Where no place is left, nothing is chosen. -/
theorem isNearest_nil : IsNearest [] choice ↔ choice = none := by
  constructor
  · intro h
    exact h.none_iff.mpr (by simp)
  · rintro rfl
    exact ⟨by simp, by simp⟩

/-- A place without an offer does not matter. -/
theorem isNearest_cons_nil : IsNearest ([] :: offers) choice ↔ IsNearest offers choice := by
  constructor
  · rintro ⟨hnone, hfirst⟩
    refine ⟨by simpa using hnone, fun key hkey ↦ ?_⟩
    obtain ⟨nearer, keys, farther, hoffers, hempty, hmem⟩ := hfirst key hkey
    cases nearer with
    | nil =>
      obtain ⟨rfl, -⟩ := List.cons.inj hoffers
      cases hmem
    | cons other nearer =>
      exact ⟨nearer, keys, farther, (List.cons.inj hoffers).2,
        fun o ho ↦ hempty o (List.mem_cons_of_mem _ ho), hmem⟩
  · rintro ⟨hnone, hfirst⟩
    refine ⟨by simpa using hnone, fun key hkey ↦ ?_⟩
    obtain ⟨nearer, keys, farther, rfl, hempty, hmem⟩ := hfirst key hkey
    exact ⟨[] :: nearer, keys, farther, rfl, by simpa using hempty, hmem⟩

/-- A place with an offer is the one to choose from. -/
theorem isNearest_cons (hkeys : keys ≠ []) :
    IsNearest (keys :: offers) choice ↔ ∃ key ∈ keys, choice = some key := by
  constructor
  · rintro ⟨hnone, hfirst⟩
    obtain ⟨key, rfl⟩ : ∃ key, choice = some key := by
      refine Option.ne_none_iff_exists'.mp fun h ↦ hkeys ?_
      exact hnone.mp h keys List.mem_cons_self
    obtain ⟨nearer, chosen, farther, hoffers, hempty, hmem⟩ := hfirst key rfl
    cases nearer with
    | nil =>
      obtain ⟨rfl, -⟩ := List.cons.inj hoffers
      exact ⟨key, hmem, rfl⟩
    | cons other nearer =>
      obtain ⟨rfl, -⟩ := List.cons.inj hoffers
      exact absurd (hempty keys List.mem_cons_self) hkeys
  · rintro ⟨key, hmem, rfl⟩
    refine ⟨by simp [hkeys], fun other hother ↦ ⟨[], keys, offers, rfl, by simp, ?_⟩⟩
    obtain rfl := Option.some.inj hother
    exact hmem

/-- To go through the places one after the other is to choose the nearest. -/
theorem isNearest_find? (p : α → Bool) (places : List (List α)) :
    IsNearest (places.map fun keys ↦ keys.filter p) (places.flatten.find? p) := by
  induction places with
  | nil => exact isNearest_nil.mpr rfl
  | cons keys places ih =>
    rw [List.map_cons, List.flatten_cons, List.find?_append]
    cases hfind : keys.find? p with
    | none =>
      have hempty : keys.filter p = [] := by simpa using hfind
      rw [hempty, Option.none_or]
      exact isNearest_cons_nil.mpr ih
    | some key =>
      have hmem : key ∈ keys.filter p :=
        List.mem_filter.mpr ⟨List.mem_of_find?_eq_some hfind, List.find?_some hfind⟩
      rw [Option.some_or]
      exact (isNearest_cons (List.ne_nil_of_mem hmem)).mpr ⟨key, hmem, rfl⟩

end IsNearest

/-! ### The places of a name -/

namespace TestScope

/-- What a name stands for at one place: the measurement of that name, as it is written or in lower
case. -/
def spellings (column : Option String) (name : String) : List MetricKey :=
  [⟨column, name⟩, ⟨column, Text.lower name⟩]

/-- The places where a name is looked for that is no output of the scope, nearest first. A name with
a dot has its own column, and columns are known in lower case. -/
def places (scope : TestScope) (name : String) : List (List MetricKey) :=
  match Text.cut '.' name.toList with
  | some (column, metric) =>
    [spellings (some (Text.lower (String.ofList column))) (String.ofList metric)]
  | none =>
    (scope.column.map fun column ↦ spellings (some column) name).toList ++ [spellings none name]

/-- What there is for a name at each place, nearest first: the outputs of the scope with exactly the
name, and then what is available of the measurements that the places may have. -/
def offers (scope : TestScope) (available : List MetricKey) (name : String) :
    List (List MetricKey) :=
  (scope.outputs.filter fun key ↦ key.name == name) ::
    (scope.places name).map fun keys ↦ keys.filter fun key ↦ available.contains key

/-- The column of the scope has a metric with the name in lower case and none with the name as it is
written, and the table has one of the latter. -/
structure PassesOverColumn (scope : TestScope) (available : List MetricKey) (name : String) :
    Prop where
  outputs : ∀ key ∈ scope.outputs, key.name ≠ name
  undotted : Text.cut '.' name.toList = none
  passed : ∃ column, scope.column = some column ∧ .ofColumn column name ∉ available ∧
    .ofColumn column (Text.lower name) ∈ available ∧ .ofTable name ∈ available

variable {scope : TestScope} {available : List MetricKey} {name : String}

/-- Where the candidates take turns between a column and the table, the table passes over the column
that has the second candidate only. -/
theorem isNearest_alternating_iff {column n m : String} :
    IsNearest
        ([[.ofColumn column n, .ofColumn column m], [.ofTable n, .ofTable m]].map fun keys ↦
          keys.filter fun key ↦ available.contains key)
        ([.ofColumn column n, .ofTable n, .ofColumn column m, .ofTable m].find? fun key ↦
          available.contains key) ↔
      ¬ (.ofColumn column n ∉ available ∧ .ofColumn column m ∈ available ∧
        .ofTable n ∈ available) := by
  have hdiffer (n m : String) : MetricKey.ofTable n ≠ .ofColumn column m := by
    simp [MetricKey.ofTable, MetricKey.ofColumn]
  by_cases hwritten : .ofColumn column n ∈ available
  · have hkey : MetricKey.ofColumn column n ∈
        [.ofColumn column n, .ofColumn column m].filter fun key ↦ available.contains key := by
      simp [hwritten]
    rw [List.map_cons, isNearest_cons (List.ne_nil_of_mem hkey)]
    simp [hwritten]
  · by_cases hlowered : .ofColumn column m ∈ available
    · have hkeys : ([.ofColumn column n, .ofColumn column m].filter fun key ↦
          available.contains key) = [.ofColumn column m] := by
        simp [hwritten, hlowered]
      rw [List.map_cons, hkeys, isNearest_cons (by simp)]
      by_cases htable : .ofTable n ∈ available
      · simp [hwritten, hlowered, htable, hdiffer]
      · simp [hwritten, hlowered, htable]
    · have hkeys : ([.ofColumn column n, .ofColumn column m].filter fun key ↦
          available.contains key) = [] := by
        simp [hwritten, hlowered]
      have hfind : ([.ofColumn column n, .ofTable n, .ofColumn column m, .ofTable m].find? fun key ↦
          available.contains key) =
            [[.ofTable n, .ofTable m]].flatten.find? fun key ↦ available.contains key := by
        simp [List.find?_cons, hwritten, hlowered]
      rw [List.map_cons, hkeys, isNearest_cons_nil, hfind]
      exact iff_of_true (isNearest_find? _ _) fun h ↦ hlowered h.2.1

/-- A name stands for the nearest measurement on offer, unless a metric of the table passes over the
one of the column. -/
theorem isNearest_resolve?_iff (scope : TestScope) (available : List MetricKey) (name : String) :
    IsNearest (scope.offers available name) (scope.resolve? available name) ↔
      ¬ scope.PassesOverColumn available name := by
  unfold offers resolve?
  cases houtput : scope.outputs.find? fun key ↦ key.name == name with
  | some key =>
    have hname := List.find?_some houtput
    have hmem : key ∈ scope.outputs.filter fun key ↦ key.name == name :=
      List.mem_filter.mpr ⟨List.mem_of_find?_eq_some houtput, hname⟩
    rw [isNearest_cons (List.ne_nil_of_mem hmem)]
    exact iff_of_true ⟨key, hmem, rfl⟩ fun h ↦
      h.outputs key (List.mem_of_find?_eq_some houtput) (eq_of_beq hname)
  | none =>
    have hother : ∀ key ∈ scope.outputs, key.name ≠ name := by simpa using houtput
    have hempty : (scope.outputs.filter fun key ↦ key.name == name) = [] := by simpa using houtput
    rw [hempty, isNearest_cons_nil]
    unfold places candidates
    cases hcut : Text.cut '.' name.toList with
    | some parts =>
      -- A dotted name has one place, and its candidates are that place.
      refine iff_of_true (isNearest_find? _ [spellings _ _]) fun h ↦ ?_
      rw [h.undotted] at hcut
      cases hcut
    | none =>
      cases hcolumn : scope.column with
      | none =>
        refine iff_of_true (isNearest_find? _ [spellings none name]) fun h ↦ ?_
        obtain ⟨column, hsome, -⟩ := h.passed
        rw [hcolumn] at hsome
        cases hsome
      | some column =>
        refine isNearest_alternating_iff.trans (not_congr ⟨fun h ↦ ?_, ?_⟩)
        · exact ⟨hother, hcut, column, hcolumn, h⟩
        rintro ⟨-, -, other, hsome, hpassed⟩
        obtain rfl := Option.some.inj (hcolumn.symm.trans hsome)
        exact hpassed

/-- The column `id` has a metric `total` and the table one called `Total`. In a test of the column,
`Total` stands for the one of the table, although the one of the column is nearer. -/
theorem resolve?_passes_over_column :
    let scope := TestScope.ofColumn "orders" "id"
    let available := [MetricKey.ofTable "Total", .ofColumn "id" "total"]
    scope.offers available "Total" = [[], [.ofColumn "id" "total"], [.ofTable "Total"]] ∧
      scope.resolve? available "Total" = some (.ofTable "Total") ∧
      ¬ IsNearest (scope.offers available "Total") (scope.resolve? available "Total") := by
  intro scope available
  have hoffers : scope.offers available "Total" =
      [[], [.ofColumn "id" "total"], [.ofTable "Total"]] := by
    decide +kernel
  have hresolve : scope.resolve? available "Total" = some (.ofTable "Total") := by
    decide +kernel
  refine ⟨hoffers, hresolve, ?_⟩
  rw [hoffers, hresolve, isNearest_cons_nil, isNearest_cons (by simp)]
  decide

end TestScope

end DataQuality
