/-!
# Ordered dictionaries

Text-keyed entries in ascending order of their keys, each key once. Order and uniqueness are part
of the type, so two dictionaries that answer every look-up alike are equal lists.
-/

namespace DataQuality

/-- Inserts a name into ascending names, once. -/
def insertName (name : String) : List String → List String
  | [] => [name]
  | other :: rest =>
    if name < other then name :: other :: rest
    else if other < name then other :: insertName name rest
    else other :: rest

/-- The names in ascending order, each once. -/
def sortNames (names : List String) : List String :=
  names.foldl (fun sorted n ↦ insertName n sorted) []

theorem mem_insertName {name x : String} {names : List String} :
    x ∈ insertName name names ↔ x = name ∨ x ∈ names := by
  induction names with
  | nil => simp [insertName]
  | cons other rest ih =>
    simp only [insertName]
    split
    · simp
    · split
      · simp only [List.mem_cons, ih]
        exact ⟨fun h ↦ by rcases h with h | h | h <;> simp [h],
          fun h ↦ by rcases h with h | h | h <;> simp [h]⟩
      · next h1 h2 =>
        have : name = other := String.le_antisymm (String.not_lt.mp h2) (String.not_lt.mp h1)
        simp [this]

theorem pairwise_insertName {name : String} {names : List String}
    (h : names.Pairwise (· < ·)) : (insertName name names).Pairwise (· < ·) := by
  induction names with
  | nil => simp [insertName]
  | cons other rest ih =>
    obtain ⟨hother, hrest⟩ := List.pairwise_cons.mp h
    simp only [insertName]
    split
    · next hlt =>
      refine List.pairwise_cons.mpr ⟨fun x hx ↦ ?_, h⟩
      rcases List.mem_cons.mp hx with rfl | hx
      · exact hlt
      · exact String.lt_trans hlt (hother x hx)
    · split
      · next hlt =>
        refine List.pairwise_cons.mpr ⟨fun x hx ↦ ?_, ih hrest⟩
        rcases mem_insertName.mp hx with rfl | hx
        · exact hlt
        · exact hother x hx
      · exact h

private theorem sortNames_from (names sorted : List String) (h : sorted.Pairwise (· < ·)) :
    (names.foldl (fun s n ↦ insertName n s) sorted).Pairwise (· < ·) ∧
      ∀ x, x ∈ names.foldl (fun s n ↦ insertName n s) sorted ↔ x ∈ names ∨ x ∈ sorted := by
  induction names generalizing sorted with
  | nil => exact ⟨h, fun x ↦ by simp only [List.foldl_nil, List.not_mem_nil, false_or]⟩
  | cons n rest ih =>
    obtain ⟨hp, hm⟩ := ih (insertName n sorted) (pairwise_insertName h)
    refine ⟨hp, fun x ↦ ?_⟩
    simp only [List.foldl_cons, hm, mem_insertName, List.mem_cons]
    exact ⟨fun h ↦ by rcases h with h | h | h <;> simp [h],
      fun h ↦ by rcases h with (h | h) | h <;> simp [h]⟩

/-- Sorted names ascend strictly. -/
theorem pairwise_sortNames (names : List String) : (sortNames names).Pairwise (· < ·) :=
  (sortNames_from names [] List.Pairwise.nil).1

/-- Sorting neither adds nor loses a name. -/
@[simp] theorem mem_sortNames {x : String} {names : List String} :
    x ∈ sortNames names ↔ x ∈ names := by
  have h := (sortNames_from names [] List.Pairwise.nil).2 x
  unfold sortNames
  simpa only [List.not_mem_nil, or_false] using h

/-- Entries in ascending order of their keys, each key once. -/
structure Dict (α : Type) where
  entries : List (String × α)
  ascending : entries.Pairwise fun a b ↦ a.1 < b.1

namespace Dict

variable {α β : Type}

/-- No entries. -/
def empty : Dict α := ⟨[], List.Pairwise.nil⟩

instance : Inhabited (Dict α) := ⟨empty⟩

instance : EmptyCollection (Dict α) := ⟨empty⟩

@[ext] theorem ext {a b : Dict α} (h : a.entries = b.entries) : a = b := by
  cases a
  cases b
  simp_all

instance [DecidableEq α] : DecidableEq (Dict α) := fun a b ↦
  decidable_of_iff (a.entries = b.entries) ⟨ext, fun h ↦ h ▸ rfl⟩

/-- The value at a key. -/
def get? (d : Dict α) (key : String) : Option α := d.entries.lookup key

/-- Whether there is a value at the key. -/
def contains (d : Dict α) (key : String) : Bool := (d.get? key).isSome

/-- The keys in ascending order. -/
def keys (d : Dict α) : List String := d.entries.map Prod.fst

/-- Puts a value at a key of ascending entries, in the place of an earlier one. -/
def insertEntry (key : String) (value : α) : List (String × α) → List (String × α)
  | [] => [(key, value)]
  | entry :: rest =>
    if key < entry.1 then (key, value) :: entry :: rest
    else if entry.1 < key then entry :: insertEntry key value rest
    else (key, value) :: rest

theorem mem_insertEntry {key : String} {value : α} {entries : List (String × α)}
    {x : String × α} (h : x ∈ insertEntry key value entries) : x = (key, value) ∨ x ∈ entries := by
  induction entries with
  | nil => simpa [insertEntry] using h
  | cons entry rest ih =>
    simp only [insertEntry] at h
    split at h
    · simpa using h
    · split at h
      · rcases List.mem_cons.mp h with rfl | h
        · simp
        · rcases ih h with h | h <;> simp [h]
      · rcases List.mem_cons.mp h with rfl | h
        · simp
        · simp [h]

theorem pairwise_insertEntry {key : String} {value : α} {entries : List (String × α)}
    (h : entries.Pairwise fun a b ↦ a.1 < b.1) :
    (insertEntry key value entries).Pairwise fun a b ↦ a.1 < b.1 := by
  induction entries with
  | nil => simp [insertEntry]
  | cons entry rest ih =>
    obtain ⟨hentry, hrest⟩ := List.pairwise_cons.mp h
    simp only [insertEntry]
    split
    · next hlt =>
      refine List.pairwise_cons.mpr ⟨fun x hx ↦ ?_, h⟩
      rcases List.mem_cons.mp hx with rfl | hx
      · exact hlt
      · exact String.lt_trans hlt (hentry x hx)
    · next hnlt =>
      split
      · next hlt =>
        refine List.pairwise_cons.mpr ⟨fun x hx ↦ ?_, ih hrest⟩
        rcases mem_insertEntry hx with rfl | hx
        · exact hlt
        · exact hentry x hx
      · next hnlt' =>
        have heq : key = entry.1 :=
          String.le_antisymm (String.not_lt.mp hnlt') (String.not_lt.mp hnlt)
        exact List.pairwise_cons.mpr ⟨fun x hx ↦ heq ▸ hentry x hx, hrest⟩

/-- Puts a value at a key, in the place of an earlier one. -/
def insert (d : Dict α) (key : String) (value : α) : Dict α :=
  ⟨insertEntry key value d.entries, pairwise_insertEntry d.ascending⟩

/-- The dictionary of a list of entries; of a repeated key the last value stays. -/
def ofList (entries : List (String × α)) : Dict α :=
  entries.foldl (fun d e ↦ d.insert e.1 e.2) empty

/-- The same keys with other values. -/
def map (f : α → β) (d : Dict α) : Dict β :=
  ⟨d.entries.map fun e ↦ (e.1, f e.2), by
    rw [List.pairwise_map]
    exact d.ascending⟩

private theorem lookup_insertEntry (key other : String) (value : α) (entries : List (String × α)) :
    (insertEntry key value entries).lookup other =
      if other = key then some value else entries.lookup other := by
  induction entries with
  | nil =>
    by_cases h : other = key
    · simp [insertEntry, h]
    · simp [insertEntry, List.lookup_cons, h, beq_eq_false_iff_ne.mpr h]
  | cons entry rest ih =>
    obtain ⟨k, v⟩ := entry
    simp only [insertEntry]
    split
    · by_cases h : other = key
      · simp [h]
      · simp [List.lookup_cons, h, beq_eq_false_iff_ne.mpr h]
    · split
      · next hlt =>
        by_cases h : other = k
        · have hk : ¬ k = key := fun he ↦ String.lt_irrefl key (he ▸ hlt)
          simp [h, hk]
        · simp [List.lookup_cons, beq_eq_false_iff_ne.mpr h, ih]
      · next h1 h2 =>
        have heq : key = k := String.le_antisymm (String.not_lt.mp h2) (String.not_lt.mp h1)
        by_cases h : other = key
        · simp [h]
        · have hk : ¬ other = k := fun he ↦ h (he.trans heq.symm)
          simp [List.lookup_cons, h, beq_eq_false_iff_ne.mpr h, beq_eq_false_iff_ne.mpr hk]

/-- A look-up after an insertion. -/
@[simp] theorem get?_insert (d : Dict α) (key other : String) (value : α) :
    (d.insert key value).get? other = if other = key then some value else d.get? other :=
  lookup_insertEntry key other value d.entries

@[simp] theorem get?_empty (key : String) : (empty : Dict α).get? key = none := rfl

private theorem mem_iff_lookup {key : String} {value : α} {entries : List (String × α)}
    (h : entries.Pairwise fun a b ↦ a.1 < b.1) :
    (key, value) ∈ entries ↔ entries.lookup key = some value := by
  induction entries with
  | nil => simp
  | cons entry rest ih =>
    obtain ⟨k, v⟩ := entry
    obtain ⟨hentry, hrest⟩ := List.pairwise_cons.mp h
    rw [List.mem_cons, ih hrest, Prod.mk.injEq]
    by_cases hk : key = k
    · subst hk
      have habsent : ¬ rest.lookup key = some value := by
        rw [← ih hrest]
        intro hmem
        exact String.lt_irrefl key (hentry _ hmem)
      simp [habsent, eq_comm]
    · simp [List.lookup_cons, hk, beq_eq_false_iff_ne.mpr hk]

/-- The entries are what look-ups find. -/
theorem mem_entries_iff {d : Dict α} {key : String} {value : α} :
    (key, value) ∈ d.entries ↔ d.get? key = some value := mem_iff_lookup d.ascending

/-- No key comes twice. -/
theorem nodup_keys (d : Dict α) : d.keys.Nodup :=
  List.pairwise_map.mpr (d.ascending.imp String.ne_of_lt)

/-- An entry whose key is above the others comes last. -/
theorem insertEntry_of_forall_lt {key : String} {entries : List (String × α)}
    (h : ∀ e ∈ entries, e.1 < key) (value : α) :
    insertEntry key value entries = entries ++ [(key, value)] := by
  induction entries with
  | nil => rfl
  | cons entry rest ih =>
    obtain ⟨hentry, hrest⟩ := List.forall_mem_cons.mp h
    rw [insertEntry, if_neg (String.lt_asymm hentry), if_pos hentry, ih hrest, List.cons_append]

private theorem entries_foldl_insert (rest : List (String × α)) (d : Dict α)
    (h : (d.entries ++ rest).Pairwise fun a b ↦ a.1 < b.1) :
    (rest.foldl (fun d e ↦ d.insert e.1 e.2) d).entries = d.entries ++ rest := by
  induction rest generalizing d with
  | nil => exact (List.append_nil _).symm
  | cons e rest ih =>
    have habove : ∀ x ∈ d.entries, x.1 < e.1 := fun x hx ↦
      (List.pairwise_append.mp h).2.2 x hx e (.head _)
    have hinsert : (d.insert e.1 e.2).entries = d.entries ++ [e] :=
      insertEntry_of_forall_lt habove e.2
    rw [List.append_cons, ← hinsert] at h
    rw [List.foldl_cons, ih _ h, hinsert, ← List.append_cons]

/-- A dictionary is made again from its entries. -/
theorem ofList_entries (d : Dict α) : ofList d.entries = d :=
  ext (entries_foldl_insert d.entries empty d.ascending)

end Dict

end DataQuality
