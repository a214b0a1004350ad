import Mathlib.Data.List.Induction
import Mathlib.Data.List.Nodup
import DataQuality.Run.Binding
import DataQuality.Test.Evaluation

/-!
# Rows of groups

What becomes of one row of a grouped result. Its cells are kept under the lowercase names of their
columns, those that name the group apart from those that were measured, and of cells with the same
name only the last one is kept. So a name stands for the last measured cell with that name, or else
for the last cell of the group that has it.
-/

namespace DataQuality

/-! ### Dictionaries of lists -/

namespace Dict

variable {α ι : Type} {entries : List (String × α)} {key : String} {value : α}

theorem ofList_append_singleton (entries : List (String × α)) (e : String × α) :
    ofList (entries ++ [e]) = (ofList entries).insert e.1 e.2 := by
  unfold ofList
  rw [List.foldl_append]
  rfl

/-- A new key adds an entry and changes no other. -/
theorem insertEntry_perm (h : key ∉ entries.map Prod.fst) :
    (insertEntry key value entries).Perm ((key, value) :: entries) := by
  induction entries with
  | nil => rfl
  | cons entry rest ih =>
    rw [List.map_cons, List.mem_cons, not_or] at h
    unfold insertEntry
    split
    · rfl
    · next hbelow =>
      split
      · exact ((ih h.2).cons entry).trans (.swap _ _ _)
      · next habove =>
        exact absurd (String.le_antisymm (String.not_lt.mp habove) (String.not_lt.mp hbelow)) h.1

/-- All entries of a list are kept exactly if no key comes twice. -/
theorem entries_ofList_perm_iff :
    (ofList entries).entries.Perm entries ↔ (entries.map Prod.fst).Nodup := by
  constructor
  · intro h
    exact (h.map Prod.fst).nodup_iff.mp (ofList entries).nodup_keys
  · intro h
    induction entries using List.reverseRecOn with
    | nil => rfl
    | append_singleton entries e ih =>
      rw [List.map_append, List.nodup_append] at h
      obtain ⟨hentries, -, hnew⟩ := h
      have hperm := ih hentries
      have habsent : e.1 ∉ (ofList entries).entries.map Prod.fst := fun hmem ↦
        hnew _ ((hperm.map Prod.fst).mem_iff.mp hmem) e.1 (.head _) rfl
      rw [ofList_append_singleton]
      exact (insertEntry_perm habsent).trans
        ((hperm.cons e).trans (List.perm_append_singleton e entries).symm)

/-- Of a list of entries, the last one with a key is found. -/
theorem get?_ofList_eq_some_iff :
    (ofList entries).get? key = some value ↔
      ∃ before after, entries = before ++ (key, value) :: after ∧ key ∉ after.map Prod.fst := by
  induction entries using List.reverseRecOn with
  | nil => simp [ofList]
  | append_singleton entries last ih =>
    obtain ⟨name, given⟩ := last
    rw [ofList_append_singleton, get?_insert]
    split
    · next hkey =>
      obtain rfl : key = name := hkey
      constructor
      · intro hvalue
        obtain rfl := Option.some.inj hvalue
        exact ⟨entries, [], rfl, List.not_mem_nil⟩
      · rintro ⟨before, after, hsplit, hlast⟩
        obtain rfl | ⟨after, e, rfl⟩ := after.eq_nil_or_concat'
        · exact congrArg some (Prod.mk.inj (List.append_singleton_inj.mp hsplit).2).2
        · rw [← List.cons_append, ← List.append_assoc, List.append_singleton_inj] at hsplit
          simp [← hsplit.2] at hlast
    · next hkey =>
      rw [ih]
      constructor
      · rintro ⟨before, after, rfl, hlast⟩
        refine ⟨before, after ++ [(name, given)], by simp, ?_⟩
        simpa [hkey] using hlast
      · rintro ⟨before, after, hsplit, hlast⟩
        obtain rfl | ⟨after, e, rfl⟩ := after.eq_nil_or_concat'
        · exact absurd (Prod.mk.inj (List.append_singleton_inj.mp hsplit).2).1.symm hkey
        · rw [← List.cons_append, ← List.append_assoc, List.append_singleton_inj] at hsplit
          exact ⟨before, after, hsplit.1, fun hmem ↦ hlast (by simp_all)⟩

/-- Among entries that come in an order, the last one with a key is found. -/
theorem get?_ofList_map_eq_some_iff {l : List ι} {rank : ι → Nat}
    (h : l.Pairwise fun a b ↦ rank a < rank b) (name : ι → String) (f : ι → α) :
    (ofList (l.map fun a ↦ (name a, f a))).get? key = some value ↔
      ∃ a ∈ l, name a = key ∧ f a = value ∧ ∀ b ∈ l, name b = key → rank b ≤ rank a := by
  induction l using List.reverseRecOn with
  | nil => simp [ofList]
  | append_singleton l last ih =>
    obtain ⟨hl, -, hlast⟩ := List.pairwise_append.mp h
    have hbelow : ∀ a ∈ l, rank a < rank last := fun a ha ↦ hlast a ha last (.head _)
    rw [List.map_append, List.map_singleton, ofList_append_singleton, get?_insert]
    split
    · next hkey =>
      constructor
      · intro hvalue
        refine ⟨last, by simp, hkey.symm, Option.some.inj hvalue, fun b hb _ ↦ ?_⟩
        obtain hb | hb := List.mem_append.mp hb
        · exact Nat.le_of_lt (hbelow b hb)
        · exact Nat.le_of_eq (congrArg rank (List.mem_singleton.mp hb))
      · rintro ⟨a, ha, -, rfl, hmax⟩
        obtain ha | ha := List.mem_append.mp ha
        · have hle := hmax last (by simp) hkey.symm
          exact absurd (hbelow a ha) (Nat.not_lt.mpr hle)
        · rw [List.mem_singleton.mp ha]
    · next hkey =>
      have hother : name last ≠ key := fun heq ↦ hkey heq.symm
      rw [ih hl]
      simp [or_and_right, exists_or, hother, or_imp, forall_and]

/-- Nothing is found exactly if no entry has the key. -/
theorem get?_ofList_map_eq_none_iff {l : List ι} (name : ι → String) (f : ι → α) :
    (ofList (l.map fun a ↦ (name a, f a))).get? key = none ↔ ∀ a ∈ l, name a ≠ key := by
  induction l using List.reverseRecOn with
  | nil => simp [ofList]
  | append_singleton l last ih =>
    rw [List.map_append, List.map_singleton, ofList_append_singleton, get?_insert]
    split
    · next hkey => simp [hkey]
    · next hkey =>
      have hother : name last ≠ key := fun heq ↦ hkey heq.symm
      rw [ih]
      simp [or_imp, forall_and, hother]

end Dict

/-! ### Cells with names -/

/-- The cell that a name stands for in a row: one that was measured, or else one that names the
group. -/
def GroupRow.cell? {V : Type} (row : GroupRow V) (name : String) : Option V :=
  (row.values.lookup name).or (row.group.lookup name)

namespace Rows

variable {r : Rows} {row : List Value} {c : NamedCell}

/-- The named cells of a row are those that have a column, under its name in lower case. -/
theorem mem_namedCells : c ∈ r.namedCells row ↔
    ∃ column, r.columns[c.position]? = some column ∧ row[c.position]? = some c.value ∧
      c.name = Text.lower column := by
  obtain ⟨name, position, value⟩ := c
  unfold namedCells
  rw [List.mem_map]
  constructor
  · rintro ⟨⟨⟨column, v⟩, i⟩, hx, heq⟩
    cases heq
    rw [List.mem_zipIdx_iff_getElem?, List.getElem?_zip_eq_some] at hx
    exact ⟨column, hx.1, hx.2, rfl⟩
  · rintro ⟨column, hcolumn, hvalue, hname⟩
    refine ⟨⟨⟨column, value⟩, position⟩, ?_, ?_⟩
    · rw [List.mem_zipIdx_iff_getElem?, List.getElem?_zip_eq_some]
      exact ⟨hcolumn, hvalue⟩
    · dsimp only at hname
      rw [hname]

/-- The named cells of a row come in the order of their columns. -/
theorem pairwise_namedCells (r : Rows) (row : List Value) :
    (r.namedCells row).Pairwise fun a b ↦ a.position < b.position := by
  unfold namedCells
  rw [List.pairwise_map]
  have hpositions : ((r.columns.zip row).zipIdx.map Prod.snd).Pairwise (· < ·) := by
    rw [List.zipIdx_map_snd]
    exact List.pairwise_lt_range'
  exact List.pairwise_map.mp hpositions

/-- A cell hides another of the same name if it was measured and the other one names the group, or
if it comes later and both are of the same kind. -/
def NamedCell.Hides (isField : Nat → Bool) (other c : NamedCell) : Prop :=
  other.name = c.name ∧
    (isField other.position = false ∧ isField c.position = true ∨
      isField other.position = isField c.position ∧ c.position < other.position)

variable {fields : List Nat}

/-- What names the group of a row are the cells in the columns of the group fields. -/
theorem group_groupRow (r : Rows) (fields : List Nat) (row : List Value) :
    (r.groupRow fields row).group =
      (Dict.ofList (((r.namedCells row).filter fun c ↦ fields.contains c.position).map fun c ↦
        (c.name, c.value))).entries := by
  unfold groupRow
  rw [List.partition_eq_filter_filter]

/-- What was measured in a row are the cells in all other columns. -/
theorem values_groupRow (r : Rows) (fields : List Nat) (row : List Value) :
    (r.groupRow fields row).values =
      (Dict.ofList (((r.namedCells row).filter fun c ↦ !fields.contains c.position).map fun c ↦
        (c.name, c.value.retyped true))).entries := by
  unfold groupRow
  rw [List.partition_eq_filter_filter]
  rfl

/-- Rows are grouped alike by fields at the same positions. -/
theorem groupRow_congr {fields' : List Nat}
    (h : ∀ i, fields.contains i = fields'.contains i) (r : Rows) (row : List Value) :
    r.groupRow fields row = r.groupRow fields' row := by
  unfold groupRow
  simp only [h]

/-- In a row a name stands for the cell of that name that is not hidden. -/
theorem cell?_groupRow_eq_some_iff {name : String} {v : Value} :
    (r.groupRow fields row).cell? name = some v ↔
      ∃ c ∈ r.namedCells row, c.name = name ∧
        c.value.retyped (!fields.contains c.position) = v ∧
        ∀ other ∈ r.namedCells row, ¬ other.Hides fields.contains c := by
  have hordered := r.pairwise_namedCells row
  rw [GroupRow.cell?, values_groupRow, group_groupRow]
  change ((Dict.ofList _).get? name).or ((Dict.ofList _).get? name) = _ ↔ _
  rw [Option.or_eq_some_iff, Dict.get?_ofList_map_eq_none_iff,
    Dict.get?_ofList_map_eq_some_iff (hordered.filter _) NamedCell.name,
    Dict.get?_ofList_map_eq_some_iff (hordered.filter _) NamedCell.name]
  simp only [List.mem_filter, Bool.not_eq_true']
  constructor
  · rintro (⟨c, ⟨hc, hvalue⟩, hname, hv, hlast⟩ | ⟨hnone, c, ⟨hc, hfield⟩, hname, hv, hlast⟩)
    · refine ⟨c, hc, hname, by rw [hvalue]; exact hv, ?_⟩
      rintro other hother ⟨hsame, ⟨-, hfield⟩ | ⟨hkind, hlater⟩⟩
      · rw [hvalue] at hfield
        cases hfield
      · have hle := hlast other ⟨hother, hkind.trans hvalue⟩ (hsame.trans hname)
        omega
    · refine ⟨c, hc, hname, by rw [hfield, Bool.not_true, Value.retyped_false]; exact hv, ?_⟩
      rintro other hother ⟨hsame, ⟨hvalue, -⟩ | ⟨hkind, hlater⟩⟩
      · exact hnone other ⟨hother, hvalue⟩ (hsame.trans hname)
      · have hle := hlast other ⟨hother, hkind.trans hfield⟩ (hsame.trans hname)
        omega
  · rintro ⟨c, hc, hname, hv, hshown⟩
    cases hkind : fields.contains c.position with
    | false =>
      rw [hkind] at hv
      refine .inl ⟨c, ⟨hc, hkind⟩, hname, hv, fun other ⟨hother, hvalue⟩ hsame ↦ ?_⟩
      by_contra hlater
      exact hshown other hother
        ⟨hsame.trans hname.symm, .inr ⟨hvalue.trans hkind.symm, Nat.lt_of_not_le hlater⟩⟩
    | true =>
      rw [hkind, Bool.not_true, Value.retyped_false] at hv
      refine .inr ⟨fun other ⟨hother, hvalue⟩ hsame ↦ ?_, c, ⟨hc, hkind⟩, hname, hv,
        fun other ⟨hother, hfield⟩ hsame ↦ ?_⟩
      · exact hshown other hother ⟨hsame.trans hname.symm, .inl ⟨hvalue, hkind⟩⟩
      · by_contra hlater
        exact hshown other hother
          ⟨hsame.trans hname.symm, .inr ⟨hfield.trans hkind.symm, Nat.lt_of_not_le hlater⟩⟩

end Rows

/-! ### Group fields -/

/-- Whether the column in a position is the first one that a group field names, up to the case of
ASCII letters. -/
def isFieldAt (fields header : List String) (i : Nat) : Bool :=
  fields.any fun f ↦ (header.findIdx? fun c ↦ Text.eqFoldingAscii c f) == some i

/-- Every group field names a column, up to the case of ASCII letters. -/
def HasFields (fields header : List String) : Prop :=
  ∀ f ∈ fields, ∃ c ∈ header, Text.eqFoldingAscii c f = true

instance {fields header : List String} : Decidable (HasFields fields header) :=
  inferInstanceAs (Decidable (∀ f ∈ fields, ∃ c ∈ header, Text.eqFoldingAscii c f = true))

/-- The cells of a row in the columns that group fields name, with the lowercase names of these
columns. -/
def fieldCells (fields header : List String) (row : List Value) : List (String × Value) :=
  ((header.zip row).zipIdx.filter fun x ↦ isFieldAt fields header x.2).map fun x ↦
    (Text.lower x.1.1, x.1.2)

/-- A row as it is grouped under a header that has the group fields. -/
def groupedRow (fields header : List String) (row : List Value) : GroupRow Value :=
  (⟨header, []⟩ : Rows).groupRow ((List.range header.length).filter (isFieldAt fields header)) row

section GroupFields

variable {fields header : List String} {i : Nat}

theorem lt_length_of_isFieldAt (h : isFieldAt fields header i = true) : i < header.length := by
  obtain ⟨f, -, hf⟩ := List.any_eq_true.mp h
  exact (List.findIdx?_eq_some_iff_findIdx_eq.mp (eq_of_beq hf)).1

/-- The fields of a header as a list of positions. -/
theorem contains_filter_isFieldAt (fields header : List String) (i : Nat) :
    ((List.range header.length).filter (isFieldAt fields header)).contains i =
      isFieldAt fields header i := by
  rw [Bool.eq_iff_iff, List.contains_iff_mem, List.mem_filter, List.mem_range]
  exact and_iff_right_of_imp lt_length_of_isFieldAt

/-- What names the group of a row are exactly the cells in the columns of the group fields, if no
two of these columns have the same name in lower case. -/
theorem group_groupedRow_perm_iff (fields header : List String) (row : List Value) :
    (groupedRow fields header row).group.Perm (fieldCells fields header row) ↔
      ((fieldCells fields header row).map Prod.fst).Nodup := by
  have hcells : (((⟨header, []⟩ : Rows).namedCells row).filter fun c ↦
      ((List.range header.length).filter (isFieldAt fields header)).contains c.position).map
        (fun c ↦ (c.name, c.value)) = fieldCells fields header row := by
    simp only [contains_filter_isFieldAt]
    unfold Rows.namedCells fieldCells
    rw [List.filter_map, List.map_map]
    rfl
  rw [groupedRow, Rows.group_groupRow, hcells]
  exact Dict.entries_ofList_perm_iff

namespace Rows

variable {r : Rows}

/-- The group fields of a header that has them all are found in their positions. -/
theorem exists_fieldPositions (h : HasFields fields r.columns) :
    ∃ positions, r.fieldPositions fields = .ok positions ∧
      ∀ i, positions.contains i = isFieldAt fields r.columns i := by
  induction fields with
  | nil => exact ⟨[], rfl, fun i ↦ rfl⟩
  | cons f rest ih =>
    obtain ⟨⟨c, hc, hnamed⟩, hrest⟩ := List.forall_mem_cons.mp h
    obtain ⟨positions, hpositions, hcontains⟩ := ih hrest
    obtain ⟨j, hj⟩ : ∃ j, r.columnIndex? f = some j := by
      refine Option.isSome_iff_exists.mp ?_
      unfold columnIndex?
      rw [List.findIdx?_isSome, List.any_eq_true]
      exact ⟨c, hc, hnamed⟩
    refine ⟨j :: positions, by rw [fieldPositions, hj, hpositions]; rfl, fun i ↦ ?_⟩
    have hcons : isFieldAt (f :: rest) r.columns i =
        ((r.columnIndex? f == some i) || isFieldAt rest r.columns i) := rfl
    rw [hcons, ← hcontains, hj, List.contains_cons, Bool.eq_iff_iff]
    simp only [Bool.or_eq_true, beq_iff_eq, Option.some.injEq, @eq_comm _ i j]

/-- A header that lacks a group field is an error. -/
theorem exists_fieldPositions_eq_error (h : ¬ HasFields fields r.columns) :
    ∃ message, r.fieldPositions fields = .error message := by
  induction fields with
  | nil => exact absurd (fun f hf ↦ by cases hf) h
  | cons f rest ih =>
    unfold fieldPositions
    cases hj : r.columnIndex? f with
    | none => exact ⟨_, rfl⟩
    | some j =>
      have hfound : ∃ c ∈ r.columns, Text.eqFoldingAscii c f = true := by
        have hsome : (r.columnIndex? f).isSome = true := by rw [hj]; rfl
        rwa [columnIndex?, List.findIdx?_isSome, List.any_eq_true] at hsome
      obtain ⟨message, hmessage⟩ := ih fun hrest ↦ h (List.forall_mem_cons.mpr ⟨hfound, hrest⟩)
      exact ⟨message, by rw [hmessage]; rfl⟩

/-- Without rows, or with all group fields, every row is grouped by itself, in order. -/
theorem groupRows_of_hasFields (h : r.rows = [] ∨ HasFields fields r.columns) :
    r.groupRows fields = .ok (r.rows.map (groupedRow fields r.columns)) := by
  unfold groupRows
  by_cases hempty : r.rows = []
  · rw [hempty]
    rfl
  · obtain ⟨positions, hpositions, hcontains⟩ :=
      exists_fieldPositions (h.resolve_left hempty)
    have hsome : r.rows.isEmpty = false := by simpa using hempty
    rw [hsome, hpositions]
    change Except.ok (r.rows.map (r.groupRow positions)) = _
    refine congrArg _ (List.map_congr_left fun row _ ↦ groupRow_congr (fun i ↦ ?_) r row)
    rw [hcontains, contains_filter_isFieldAt]

/-- Rows that lack a group field are an error. -/
theorem exists_groupRows_eq_error (h : ¬ (r.rows = [] ∨ HasFields fields r.columns)) :
    ∃ message, r.groupRows fields = .error message := by
  obtain ⟨hempty, hfields⟩ := not_or.mp h
  obtain ⟨message, hmessage⟩ := exists_fieldPositions_eq_error hfields
  have hsome : r.rows.isEmpty = false := by simpa using hempty
  refine ⟨message, ?_⟩
  unfold groupRows
  rw [hsome, hmessage]
  rfl

end Rows

end GroupFields

end DataQuality
