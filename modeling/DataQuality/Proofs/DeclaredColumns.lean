import DataQuality.Document.Load
import DataQuality.Proofs.CaseFolding
import DataQuality.Proofs.Computations

/-!
# Declared columns

What a document or a program declares for a column is kept under the lowercase form of the name,
however the name is spelled, and found there as long as nothing else is declared for it.
-/

namespace DataQuality

variable {P σ α : Type}

/-! ### Fields of records -/

namespace RecordForm

/-- A part of a record comes from one field: that one sets it, and no other field changes it. -/
structure SetBy (k : RecordForm P σ) (name : String) (decode : Decoder P α) (part : σ → α) :
    Prop where
  distinct : (k.fields.map Field.name).Nodup
  field : ∀ f ∈ k.fields, f.name = name → ∀ s n s', f.decode s n = .ok s' →
    decode n = .ok (part s')
  others : ∀ f ∈ k.fields, f.name ≠ name → ∀ s n s', f.decode s n = .ok s' → part s' = part s

/-- What a document gives for a field of a record: the value of a member, or where records may be
lists, the item in the place of the field. -/
def GivesField (k : RecordForm P σ) (positional : Bool) (name : String) (value : Node P) :
    Node P → Prop
  | .record _ members => ∃ key, (key, value) ∈ members ∧ key.asText "field identifier" = .ok name
  | .list _ items => positional = true ∧ ∃ f, (f, value) ∈ k.fields.zip items ∧ f.name = name
  | _ => False

/-- What decoding does to a part between two values of a record: what is given for the part becomes
it, it stays where nothing more is taken for it, and it comes from a document if it changes. -/
structure Carries (decode : Decoder P α) (part : σ → α) (closed : Prop) (gives : Node P → Prop)
    (s s' : σ) : Prop where
  kept : closed → part s' = part s
  given : ∀ value, gives value → decode value = .ok (part s')
  source : part s' = part s ∨ ∃ value, decode value = .ok (part s')

namespace Carries

variable {decode : Decoder P α} {part : σ → α} {closed closed' : Prop}
  {gives gives' : Node P → Prop} {s next s' : σ} {value : Node P}

theorem refl (hgives : ∀ value, ¬gives value) : Carries decode part closed gives s s :=
  ⟨fun _ ↦ rfl, fun value h ↦ (hgives value h).elim, .inl rfl⟩

theorem mono (h : Carries decode part closed gives s s') (hclosed : closed' → closed)
    (hgives : ∀ value, gives' value → gives value) : Carries decode part closed' gives' s s' :=
  ⟨fun hc ↦ h.kept (hclosed hc), fun value hv ↦ h.given value (hgives value hv), h.source⟩

/-- A value that is taken for the part is the one, as no other is taken behind it. -/
theorem own (h : Carries decode part closed gives next s') (hclosed : closed)
    (hvalue : decode value = .ok (part next)) :
    Carries decode part False (fun v ↦ v = value ∨ gives v) s s' := by
  rw [← h.kept hclosed] at hvalue
  refine ⟨False.elim, ?_, .inr ⟨value, hvalue⟩⟩
  rintro v (rfl | hv)
  · exact hvalue
  · exact h.given v hv

/-- A value that is taken for another part changes nothing. -/
theorem other (h : Carries decode part closed gives next s') (hkept : part next = part s) :
    Carries decode part closed gives s s' := by
  refine ⟨fun hc ↦ (h.kept hc).trans hkept, h.given, ?_⟩
  rw [← hkept]
  exact h.source

end Carries

namespace SetBy

variable {k : RecordForm P σ} {name : String} {decode : Decoder P α} {part : σ → α}
  {e : Extent P} {s s' : σ} {value : Node P}

/-- A part comes from the member with the name of its field, and stays if that was met before. -/
theorem carries_decodeMembers (hk : k.SetBy name decode part) {seen seen' : List String}
    {members : List (Node P × Node P)} (h : k.decodeMembers e seen s members = .ok (s', seen')) :
    Carries decode part (name ∈ seen)
      (fun value ↦ ∃ key, (key, value) ∈ members ∧ key.asText "field identifier" = .ok name)
      s s' := by
  induction members generalizing seen s with
  | nil =>
    obtain ⟨rfl, -⟩ := Prod.mk.inj (Except.ok.inj h)
    exact .refl (by simp)
  | cons member rest ih =>
    obtain ⟨first, given⟩ := member
    rw [decodeMembers] at h
    obtain ⟨other, hother, h⟩ := exists_of_bind_eq_ok h
    cases hfield : k.fields.find? fun f ↦ f.name == other with
    | none => simp [hfield] at h
    | some f =>
      have hname : f.name = other := by simpa using List.find?_some hfield
      have hf := List.mem_of_find?_eq_some hfield
      simp only [hfield] at h
      split at h
      · cases h
      · next hseen =>
        obtain ⟨next, hnext, h⟩ := exists_of_bind_eq_ok h
        replace hnext := eq_ok_of_mapError_eq_ok hnext
        by_cases hown : other = name
        · subst hown
          refine ((ih h).own (.head _) (hk.field f hf hname s given next hnext)).mono ?_ ?_
          · exact fun hmem ↦ hseen (by simpa using hmem)
          · rintro value ⟨key, hmem, hkey⟩
            rcases List.mem_cons.mp hmem with heq | hmem
            · exact .inl (Prod.mk.inj heq).2
            · exact .inr ⟨key, hmem, hkey⟩
        · refine ((ih h).other (hk.others f hf (hname ▸ hown) s given next hnext)).mono ?_ ?_
          · exact .tail _
          · rintro value ⟨key, hmem, hkey⟩
            rcases List.mem_cons.mp hmem with heq | hmem
            · cases heq
              exact absurd (Except.ok.inj (hother.symm.trans hkey)) hown
            · exact ⟨key, hmem, hkey⟩

/-- A part comes from the item in the place of its field, and stays if the field is not among those
that are left. -/
theorem carries_decodePositions (hk : k.SetBy name decode part) {index : Nat} {reached : P}
    {fields : List (Field P σ)} (hfields : fields.Sublist k.fields) {items : List (Node P)}
    (h : k.decodePositions e index reached s fields items = .ok s') :
    Carries decode part (name ∉ fields.map Field.name)
      (fun value ↦ ∃ f, (f, value) ∈ fields.zip items ∧ f.name = name) s s' := by
  induction fields generalizing index reached s items with
  | nil =>
    cases items with
    | nil =>
      obtain rfl := Except.ok.inj h
      exact .refl (by simp)
    | cons => cases h
  | cons f fields ih =>
    have hf := hfields.subset (.head _)
    have hleftover := (List.sublist_cons_self f fields).trans hfields
    have hleft : name ∉ (f :: fields).map Field.name → name ∉ fields.map Field.name :=
      fun hname hmem ↦ hname (.tail _ hmem)
    cases items with
    | nil =>
      rw [decodePositions] at h
      split at h
      · cases h
      · exact (ih hleftover h).mono hleft (by simp)
    | cons given items =>
      rw [decodePositions] at h
      obtain ⟨next, hnext, h⟩ := exists_of_bind_eq_ok h
      replace hnext := eq_ok_of_mapError_eq_ok hnext
      by_cases hown : f.name = name
      · have hdistinct : name ∉ fields.map Field.name := by
          rw [← hown]
          exact (List.nodup_cons.mp (hk.distinct.sublist (hfields.map Field.name))).1
        have hgiven := hk.field f hf hown s given next hnext
        refine ((ih hleftover h).own hdistinct hgiven).mono ?_ ?_
        · exact fun hname ↦ hname (hown ▸ .head _)
        · rintro value ⟨g, hmem, hname⟩
          rcases List.mem_cons.mp hmem with heq | hmem
          · exact .inl (Prod.mk.inj heq).2
          · exact .inr ⟨g, hmem, hname⟩
      · refine ((ih hleftover h).other (hk.others f hf hown s given next hnext)).mono hleft ?_
        rintro value ⟨g, hmem, hname⟩
        rcases List.mem_cons.mp hmem with heq | hmem
        · cases heq
          exact absurd hname hown
        · exact ⟨g, hmem, hname⟩

/-- A part of a record that is decoded is what the document gives for its field; without that it is
the blank one. -/
theorem of_decode (hk : k.SetBy name decode part) {positional : Bool} {n : Node P}
    (h : k.decode positional n = .ok s) :
    (∀ value, k.GivesField positional name value n → decode value = .ok (part s)) ∧
      (part s = part k.blank ∨ ∃ value, decode value = .ok (part s)) := by
  have hmembers : ∀ {e members}, k.ofMembers e members = .ok s →
      Carries decode part (name ∈ [])
        (fun value ↦ ∃ key, (key, value) ∈ members ∧ key.asText "field identifier" = .ok name)
        k.blank s := by
    intro e members h
    obtain ⟨⟨decoded, seen⟩, hdecoded, h⟩ := exists_of_bind_eq_ok h
    dsimp only at h
    split at h
    · cases h
    · obtain rfl := Except.ok.inj h
      exact hk.carries_decodeMembers hdecoded
  cases n with
  | list extent items =>
    cases positional with
    | false => cases h
    | true =>
      have hcarries := hk.carries_decodePositions (.refl _) h
      exact ⟨fun value hgives ↦ hcarries.given value hgives.2, hcarries.source⟩
  | record extent members => exact ⟨(hmembers h).given, (hmembers h).source⟩
  | leaf extent value =>
    obtain ⟨members, -, h⟩ := exists_of_bind_eq_ok h
    exact ⟨fun _ hgives ↦ hgives.elim, (hmembers h).source⟩
  | broken fault => cases h

end SetBy

end RecordForm

/-! ### Columns of documents -/

namespace ScanConfiguration

variable {positional : Bool} {n : Node P} {c : ScanConfiguration} {name key : String}
  {settings : ColumnSettings}

/-- Whether a column has settings under a key. -/
theorem mem_keys_columns_iff :
    key ∈ c.columns.keys ↔ ∃ settings, c.columns.get? key = some settings := by
  simp only [Dict.keys, List.mem_map, ← Dict.mem_entries_iff]
  constructor
  · rintro ⟨e, he, rfl⟩
    exact ⟨e.2, he⟩
  · rintro ⟨settings, he⟩
    exact ⟨_, he, rfl⟩

/-- Of the fields of a scan document one alone sets the columns. -/
theorem setBy_columns (positional : Bool) :
    (form (P := P) positional).SetBy "columns" (decodeColumns positional) columns where
  distinct := by simp [form, Field.free, Field.needed]
  field := by
    intro f hf hname s n s' h
    simp only [form, List.mem_cons, List.not_mem_nil, or_false] at hf
    rcases hf with rfl | rfl | rfl | rfl | rfl | rfl | rfl | rfl | rfl | rfl | rfl | rfl
    case inr.inr.inr.inr.inl =>
      obtain ⟨_, hdecoded, rfl⟩ := exists_of_map_eq_ok h
      exact hdecoded
    all_goals exact absurd hname (by simp [Field.free, Field.needed])
  others := by
    intro f hf hname s n s' h
    simp only [form, List.mem_cons, List.not_mem_nil, or_false] at hf
    rcases hf with rfl | rfl | rfl | rfl | rfl | rfl | rfl | rfl | rfl | rfl | rfl | rfl
    case inr.inr.inr.inr.inl => exact absurd rfl hname
    all_goals
      obtain ⟨_, -, rfl⟩ := exists_of_map_eq_ok h
      rfl

/-- Columns are declared one by one, each under a lowercase name that is new. -/
theorem of_foldColumns_cons_eq_ok {declared : Dict String} {columns result : Dict ColumnSettings}
    {name : String} {settings : ColumnSettings} {rest : List (String × ColumnSettings)}
    (h : foldColumns declared columns ((name, settings) :: rest) = .ok result) :
    declared.get? (Text.lower name) = none ∧
      foldColumns (declared.insert (Text.lower name) name)
        (columns.insert (Text.lower name) settings) rest = .ok result := by
  simp only [foldColumns] at h
  cases hnew : declared.get? (Text.lower name) with
  | some earlier =>
    rw [hnew] at h
    cases h
  | none =>
    rw [hnew] at h
    exact ⟨rfl, h⟩

/-- Each column is listed under the lowercase form of its name, with the settings it came with, and
nothing else is listed. -/
theorem get?_of_foldColumns {declared : Dict String} {columns result : Dict ColumnSettings}
    {entries : List (String × ColumnSettings)}
    (h : foldColumns declared columns entries = .ok result) :
    (∀ key spelling, declared.get? key = some spelling → result.get? key = columns.get? key) ∧
      (∀ e ∈ entries, result.get? (Text.lower e.1) = some e.2) ∧
      ∀ key settings, result.get? key = some settings →
        columns.get? key = some settings ∨ ∃ e ∈ entries, key = Text.lower e.1 := by
  induction entries generalizing declared columns with
  | nil =>
    obtain rfl := Except.ok.inj h
    exact ⟨fun _ _ _ ↦ rfl, by simp, fun _ _ ↦ .inl⟩
  | cons e rest ih =>
    obtain ⟨name, settings⟩ := e
    obtain ⟨hnew, h⟩ := of_foldColumns_cons_eq_ok h
    obtain ⟨hmet, hrest, hsource⟩ := ih h
    have hown : result.get? (Text.lower name) = some settings := by
      simpa using hmet (Text.lower name) name (by simp)
    refine ⟨?_, List.forall_mem_cons.mpr ⟨hown, hrest⟩, ?_⟩
    · intro key spelling hkey
      have hne : key ≠ Text.lower name := by
        rintro rfl
        simp [hnew] at hkey
      simpa [hne] using hmet key spelling (by simp [hne, hkey])
    · intro key found hfound
      by_cases hkey : key = Text.lower name
      · exact .inr ⟨_, .head _, hkey⟩
      · rcases hsource key found hfound with hearlier | ⟨e, he, heq⟩
        · exact .inl (by simpa [hkey] using hearlier)
        · exact .inr ⟨e, .tail _ he, heq⟩

end ScanConfiguration

/-- A document declares settings for a column under a name as it spells it; where a name is repeated
as it is, the last settings count. -/
def Node.DeclaresColumn (positional : Bool) (name : String) (settings : ColumnSettings)
    (n : Node P) : Prop :=
  ∃ value members declared,
    (ScanConfiguration.form positional).GivesField positional "columns" value n ∧
      value.asMembers "a map" = .ok members ∧
      ScanConfiguration.decodeSettings positional value.extent members = .ok declared ∧
      (Dict.ofList declared).get? name = some settings

namespace ScanConfiguration

variable {positional : Bool} {n : Node P} {c : ScanConfiguration} {name key : String}
  {settings : ColumnSettings}

/-- The columns of a document that is decoded are those of its map of columns, the last of each
name. -/
theorem foldColumns_of_decode (h : decode positional n = .ok c) {value : Node P}
    {members : List (Node P × Node P)} {declared : List (String × ColumnSettings)}
    (hgives : (form positional).GivesField positional "columns" value n)
    (hmembers : value.asMembers "a map" = .ok members)
    (hdeclared : decodeSettings positional value.extent members = .ok declared) :
    foldColumns Dict.empty Dict.empty (Dict.ofList declared).entries = .ok c.columns := by
  have hcolumns := ((setBy_columns positional).of_decode h).1 value hgives
  unfold decodeColumns at hcolumns
  rw [hmembers, Except.bind, hdeclared, Except.bind] at hcolumns
  exact eq_ok_of_mapError_eq_ok hcolumns

/-- What a document declares for a column is kept under the lowercase form of the name. -/
theorem get?_of_declaresColumn (h : decode positional n = .ok c)
    (hn : n.DeclaresColumn positional name settings) :
    c.columns.get? (Text.lower name) = some settings := by
  obtain ⟨value, members, declared, hgives, hmembers, hdeclared, hsettings⟩ := hn
  have hfold := foldColumns_of_decode h hgives hmembers hdeclared
  exact (get?_of_foldColumns hfold).2.1 (name, settings) (Dict.mem_entries_iff.mpr hsettings)

/-- The names of columns that a document comes to are in lower case. -/
theorem lower_eq_of_decode (h : decode positional n = .ok c) :
    ∀ key ∈ c.columns.keys, Text.lower key = key := by
  intro key hkey
  rcases ((setBy_columns positional).of_decode h).2 with hblank | ⟨value, hcolumns⟩
  · rw [hblank] at hkey
    cases hkey
  · obtain ⟨members, hmembers, hcolumns⟩ := exists_of_bind_eq_ok hcolumns
    obtain ⟨declared, hdeclared, hcolumns⟩ := exists_of_bind_eq_ok hcolumns
    obtain ⟨settings, hsettings⟩ := mem_keys_columns_iff.mp hkey
    have hsource := (get?_of_foldColumns (eq_ok_of_mapError_eq_ok hcolumns)).2.2 key settings
    rcases hsource hsettings with hempty | ⟨e, -, rfl⟩
    · cases hempty
    · exact Text.lower_lower e.1

/-! ### Configurations and what they declare -/

/-- A configuration that a document or a program comes to: one without columns, one that a document
describes, and any such one once columns are declared or something else than columns is set. -/
inductive Built : ScanConfiguration → Prop
  | ofTable (table : String) : Built (.ofTable table)
  | document {P : Type} {positional : Bool} {n : Node P} {c : ScanConfiguration}
    (h : decode positional n = .ok c) : Built c
  | withColumn {c : ScanConfiguration} (name : String) (settings : ColumnSettings) (h : Built c) :
    Built (c.withColumn name settings)
  | besideColumns {c c' : ScanConfiguration} (hcolumns : c'.columns = c.columns) (h : Built c) :
    Built c'

/-- A configuration declares settings for a column under a name as it spells it: a document does, or
they were set last of all under names with the same lowercase form. -/
inductive Declares (name : String) (settings : ColumnSettings) : ScanConfiguration → Prop
  | document {P : Type} {positional : Bool} {n : Node P} {c : ScanConfiguration}
    (h : decode positional n = .ok c) (hn : n.DeclaresColumn positional name settings) :
    Declares name settings c
  | withColumn (c : ScanConfiguration) : Declares name settings (c.withColumn name settings)
  | withOther {c : ScanConfiguration} {other : String} (more : ColumnSettings)
    (hother : Text.lower other ≠ Text.lower name) (h : Declares name settings c) :
    Declares name settings (c.withColumn other more)
  | besideColumns {c c' : ScanConfiguration} (hcolumns : c'.columns = c.columns)
    (h : Declares name settings c) : Declares name settings c'

/-- What a text is loaded as is decoded from the root of what was read. -/
theorem decode_of_parse {format : DocumentFormat} {source : String}
    (h : parse format source = .ok c) :
    match format with
    | .json => decode true (Json.read .scaled source).root = .ok c
    | .yaml => decode false (Yaml.read source).root = .ok c := by
  obtain ⟨loaded, hloaded, h⟩ := exists_of_bind_eq_ok h
  obtain rfl : loaded = c := by
    unfold checked at h
    split at h
    · cases h
    · exact Except.ok.inj h
  cases format with
  | json =>
    obtain ⟨decoded, hdecoded, h⟩ := exists_of_bind_eq_ok (eq_ok_of_mapError_eq_ok hloaded)
    split at h
    · cases h
    · exact Except.ok.inj h ▸ hdecoded
  | yaml =>
    obtain ⟨decoded, hdecoded, h⟩ := exists_of_bind_eq_ok (eq_ok_of_mapError_eq_ok hloaded)
    split at h
    · cases h
    · exact Except.ok.inj h ▸ hdecoded

/-- A configuration that was loaded from a text is one that a document comes to. -/
theorem Built.of_parse {format : DocumentFormat} {source : String}
    (h : parse format source = .ok c) : c.Built := by
  cases format with
  | json => exact .document (decode_of_parse h)
  | yaml => exact .document (decode_of_parse h)

/-- The names of columns are kept in lower case. -/
theorem Built.lower_eq (h : c.Built) : ∀ key ∈ c.columns.keys, Text.lower key = key := by
  induction h with
  | ofTable => nofun
  | document h => exact lower_eq_of_decode h
  | @withColumn c name settings _ ih =>
    intro key hkey
    obtain ⟨found, hfound⟩ := mem_keys_columns_iff.mp hkey
    by_cases hname : key = Text.lower name
    · rw [hname, Text.lower_lower]
    · have hearlier : c.columns.get? key = some found := by
        simpa [ScanConfiguration.withColumn, hname] using hfound
      exact ih key (mem_keys_columns_iff.mpr ⟨found, hearlier⟩)
  | besideColumns hcolumns _ ih => exact hcolumns ▸ ih

/-- Declared settings are kept under the lowercase form of the name they were declared under. -/
theorem Declares.get?_eq (h : c.Declares name settings) :
    c.columns.get? (Text.lower name) = some settings := by
  induction h with
  | document h hn => exact get?_of_declaresColumn h hn
  | withColumn => simp [ScanConfiguration.withColumn]
  | withOther more hother _ ih => simpa [ScanConfiguration.withColumn, hother.symm] using ih
  | besideColumns hcolumns _ ih => exact hcolumns ▸ ih

end ScanConfiguration

end DataQuality
