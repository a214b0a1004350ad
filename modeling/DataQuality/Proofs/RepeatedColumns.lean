import DataQuality.Proofs.DeclaredColumns
import DataQuality.Proofs.GroupRows
import DataQuality.Proofs.Reloading

/-!
# Repeated columns

A document lists the settings of columns under their names. Names that differ in letter case only
are refused, so none of their settings are lost unnoticed. A name that is repeated as it is,
however, is taken for one: the settings that are listed last under it stay, the others are lost.
-/

namespace DataQuality

variable {P : Type}

/-- What a document lists under the names of columns, in its order and with its repetitions. -/
def Node.ListsColumns (positional : Bool) (listed : List (String × ColumnSettings))
    (n : Node P) : Prop :=
  ∃ value members, (ScanConfiguration.form positional).GivesField positional "columns" value n ∧
    value.asMembers "a map" = .ok members ∧
    ScanConfiguration.decodeSettings positional value.extent members = .ok listed

/-- What a text lists under the names of columns. -/
def DocumentFormat.ListsColumns (source : String) (listed : List (String × ColumnSettings)) :
    DocumentFormat → Prop
  | .json => (Json.read .scaled source).root.ListsColumns true listed
  | .yaml => (Yaml.read source).root.ListsColumns false listed

namespace ScanConfiguration

/-- A configuration keeps the settings that were listed: under each name those are found that were
listed with it, and no two names have the same lowercase form. -/
structure KeepsColumns (c : ScanConfiguration) (listed : List (String × ColumnSettings)) :
    Prop where
  found : ∀ e ∈ listed, c.column? e.1 = some e.2
  apart : (listed.map fun e ↦ Text.lower e.1).Nodup

variable {positional : Bool} {n : Node P} {c : ScanConfiguration}
  {listed : List (String × ColumnSettings)}

/-! ### What decoding keeps -/

/-- Columns can be listed only if their names differ in more than letter case. -/
theorem nodup_lower_of_foldColumns {declared : Dict String} {columns result : Dict ColumnSettings}
    {entries : List (String × ColumnSettings)}
    (h : foldColumns declared columns entries = .ok result) :
    (entries.map fun e ↦ Text.lower e.1).Nodup ∧
      ∀ e ∈ entries, declared.get? (Text.lower e.1) = none := by
  induction entries generalizing declared columns with
  | nil => simp
  | cons e rest ih =>
    obtain ⟨name, settings⟩ := e
    obtain ⟨hnew, h⟩ := of_foldColumns_cons_eq_ok h
    obtain ⟨hnodup, hfresh⟩ := ih h
    have hother : ∀ e ∈ rest, Text.lower e.1 ≠ Text.lower name ∧
        declared.get? (Text.lower e.1) = none := by
      intro e he
      have hnone := hfresh e he
      rw [Dict.get?_insert] at hnone
      split at hnone
      · cases hnone
      · next hne => exact ⟨hne, hnone⟩
    refine ⟨List.nodup_cons.mpr ⟨?_, hnodup⟩,
      List.forall_mem_cons.mpr ⟨hnew, fun e he ↦ (hother e he).2⟩⟩
    intro hmem
    obtain ⟨e, he, heq⟩ := List.mem_map.mp hmem
    exact (hother e he).1 heq

/-- If a document with columns is decoded, it lists them. -/
theorem exists_listsColumns (h : decode positional n = .ok c) {value : Node P}
    (hgives : (form positional).GivesField positional "columns" value n) :
    ∃ listed, n.ListsColumns positional listed := by
  have hcolumns := ((setBy_columns positional).of_decode h).1 value hgives
  obtain ⟨members, hmembers, hcolumns⟩ := exists_of_bind_eq_ok hcolumns
  obtain ⟨listed, hlisted, -⟩ := exists_of_bind_eq_ok hcolumns
  exact ⟨listed, value, members, hgives, hmembers, hlisted⟩

/-- The columns of a document that is decoded are those that it lists, the last of each name. -/
theorem foldColumns_of_listsColumns (h : decode positional n = .ok c)
    (hlisted : n.ListsColumns positional listed) :
    foldColumns Dict.empty Dict.empty (Dict.ofList listed).entries = .ok c.columns := by
  obtain ⟨value, members, hgives, hmembers, hdecoded⟩ := hlisted
  exact foldColumns_of_decode h hgives hmembers hdecoded

/-- A name that is listed has settings in the end. -/
theorem exists_mem_entries_ofList {name : String} (h : name ∈ listed.map Prod.fst) :
    ∃ settings, (name, settings) ∈ (Dict.ofList listed).entries := by
  obtain ⟨e, he, rfl⟩ := List.mem_map.mp h
  simp only [Dict.mem_entries_iff, ← Option.ne_none_iff_exists']
  intro hnone
  have hmap : listed.map (fun a ↦ (a.1, a.2)) = listed := List.map_id listed
  rw [← hmap, Dict.get?_ofList_map_eq_none_iff Prod.fst Prod.snd] at hnone
  exact hnone e he rfl

section

variable (h : foldColumns Dict.empty Dict.empty (Dict.ofList listed).entries = .ok c.columns)
include h

/-- Different names that are listed differ in more than letter case. -/
theorem eq_of_lower_eq_of_foldColumns {name name' : String} (hname : name ∈ listed.map Prod.fst)
    (hname' : name' ∈ listed.map Prod.fst) (hlower : Text.lower name = Text.lower name') :
    name = name' := by
  obtain ⟨settings, hmem⟩ := exists_mem_entries_ofList hname
  obtain ⟨settings', hmem'⟩ := exists_mem_entries_ofList hname'
  have heq := List.inj_on_of_nodup_map (nodup_lower_of_foldColumns h).1 hmem hmem' hlower
  exact (Prod.mk.inj heq).1

/-- The settings of a column are those that were listed last under the spelling of its name. -/
theorem column?_eq_some_iff_of_foldColumns {name : String} {settings : ColumnSettings} :
    c.column? name = some settings ↔ ∃ before spelling after,
      listed = before ++ (spelling, settings) :: after ∧ Text.lower spelling = Text.lower name ∧
        spelling ∉ after.map Prod.fst := by
  obtain ⟨-, hkept, hsource⟩ := get?_of_foldColumns h
  have hlast : c.column? name = some settings ↔ ∃ spelling,
      (Dict.ofList listed).get? spelling = some settings ∧
        Text.lower spelling = Text.lower name := by
    constructor
    · intro hsettings
      rcases hsource _ _ hsettings with hempty | ⟨e, he, hkey⟩
      · cases hempty
      · have hown := hkept e he
        rw [← hkey] at hown
        obtain rfl : settings = e.2 := Option.some.inj (hsettings.symm.trans hown)
        exact ⟨e.1, Dict.mem_entries_iff.mp he, hkey.symm⟩
    · rintro ⟨spelling, hget, hlower⟩
      have hown := hkept (spelling, settings) (Dict.mem_entries_iff.mpr hget)
      rwa [hlower] at hown
  rw [hlast]
  simp only [Dict.get?_ofList_eq_some_iff]
  constructor
  · rintro ⟨spelling, ⟨before, after, hsplit, hafter⟩, hlower⟩
    exact ⟨before, spelling, after, hsplit, hlower, hafter⟩
  · rintro ⟨before, spelling, after, hsplit, hlower, hafter⟩
    exact ⟨spelling, ⟨before, after, hsplit, hafter⟩, hlower⟩

end

/-- The columns of a document that was loaded are those that its text lists. -/
theorem foldColumns_of_parse {format : DocumentFormat} {source : String}
    (h : parse format source = .ok c) (hlisted : format.ListsColumns source listed) :
    foldColumns Dict.empty Dict.empty (Dict.ofList listed).entries = .ok c.columns := by
  cases format with
  | json => exact foldColumns_of_listsColumns (decode_of_parse h) hlisted
  | yaml => exact foldColumns_of_listsColumns (decode_of_parse h) hlisted

/-- A document that was loaded keeps the settings of its columns exactly if it repeats no name as it
is. It has no names that differ in letter case only, and each column has the settings that are
listed last under the spelling of its name. -/
theorem keepsColumns_iff_nodup {format : DocumentFormat} {source : String}
    (h : parse format source = .ok c) (hlisted : format.ListsColumns source listed) :
    (c.KeepsColumns listed ↔ (listed.map Prod.fst).Nodup) ∧
      (∀ name ∈ listed.map Prod.fst, ∀ name' ∈ listed.map Prod.fst,
        Text.lower name = Text.lower name' → name = name') ∧
      ∀ name settings, c.column? name = some settings ↔ ∃ before spelling after,
        listed = before ++ (spelling, settings) :: after ∧ Text.lower spelling = Text.lower name ∧
          spelling ∉ after.map Prod.fst := by
  have hfold := foldColumns_of_parse h hlisted
  have hspelling : ∀ name ∈ listed.map Prod.fst, ∀ name' ∈ listed.map Prod.fst,
      Text.lower name = Text.lower name' → name = name' :=
    fun _ hname _ hname' ↦ eq_of_lower_eq_of_foldColumns hfold hname hname'
  have hlast : ∀ name settings, c.column? name = some settings ↔ ∃ before spelling after,
      listed = before ++ (spelling, settings) :: after ∧ Text.lower spelling = Text.lower name ∧
        spelling ∉ after.map Prod.fst :=
    fun _ _ ↦ column?_eq_some_iff_of_foldColumns hfold
  refine ⟨⟨fun hkeeps ↦ ?_, fun hnodup ↦ ⟨fun e he ↦ ?_, ?_⟩⟩, hspelling, hlast⟩
  · have hlower : ((listed.map Prod.fst).map Text.lower).Nodup := by
      rw [List.map_map]
      exact hkeeps.apart
    exact hlower.of_map
  · obtain ⟨before, after, rfl⟩ := List.append_of_mem he
    refine (hlast e.1 e.2).mpr ⟨before, e.1, after, rfl, rfl, ?_⟩
    rw [List.map_append, List.map_cons] at hnodup
    exact (List.nodup_cons.mp hnodup.of_append_right).1
  · have hlower : ((listed.map Prod.fst).map Text.lower).Nodup :=
      hnodup.map_on fun name hname name' hname' ↦ hspelling name hname name' hname'
    rwa [List.map_map] at hlower

/-! ### Lists of columns as documents -/

/-- The document of a table that lists columns. -/
def listing (table : String) (listed : List (String × ColumnSettings)) : Json :=
  .object [("table_name", .text table), ("columns", .object (listed.map fun e ↦ (e.1, e.2.toJson)))]

theorem readable_listing {rule : Json.FloatRule} {depth : Nat} (table : String)
    (hfloats : ∀ e ∈ listed, ∀ x ∈ e.2.floats, rule.Recovers x) :
    Json.Readable rule (depth + 6) (listing table listed) := by
  refine .object ?_
  simp only [List.forall_mem_cons]
  refine ⟨.text, .object fun member hmember ↦ ?_, List.forall_mem_nil _⟩
  obtain ⟨e, he, rfl⟩ := List.mem_map.mp hmember
  exact e.2.readable_toJson (hfloats e he)

/-- Columns are listed by what they are written as. -/
theorem listsColumns_of_toJson?_listing {table : String}
    (h : n.toJson? = some (listing table listed)) : n.ListsColumns positional listed := by
  obtain ⟨e, members, rfl, hmembers⟩ := Node.exists_of_toJson?_object h
  obtain ⟨place, value, rest, rfl, -, hrest⟩ := Node.exists_of_toMembers?_cons hmembers
  obtain ⟨place', columns, rest, rfl, hcolumns, -⟩ := Node.exists_of_toMembers?_cons hrest
  obtain ⟨e', members', rfl, hmembers'⟩ := Node.exists_of_toJson?_object hcolumns
  exact ⟨_, members', ⟨_, .tail _ (.head _), rfl⟩, rfl,
    decodeSettings_toJson positional e' listed hmembers'⟩

/-- Of columns under lowercase names, the last of each name stay. -/
theorem foldColumns_entries_ofList (hlower : ∀ e ∈ listed, Text.lower e.1 = e.1) :
    foldColumns Dict.empty Dict.empty (Dict.ofList listed).entries = .ok (Dict.ofList listed) := by
  have hkept : ∀ e ∈ (Dict.ofList listed).entries, Text.lower e.1 = e.1 := by
    intro e he
    obtain ⟨before, after, rfl, -⟩ := Dict.get?_ofList_eq_some_iff.mp (Dict.mem_entries_iff.mp he)
    exact hlower e (by simp)
  rw [foldColumns_eq_ok Dict.empty hkept (fun e _ ↦ Dict.get?_empty e.1)
    (Dict.ofList listed).nodup_keys]
  exact congrArg Except.ok (Dict.ofList listed).ofList_entries

/-- Columns listed under lowercase names are decoded as the last of each name. -/
theorem decodes_listing {table : String} (hlower : ∀ e ∈ listed, Text.lower e.1 = e.1) :
    Decodes (P := P) (decode positional) (listing table listed)
      { ofTable table with columns := Dict.ofList listed } := by
  have htakes : TakeInOrder (form (P := P) positional).fields (ofTable "") _
      { ofTable table with columns := Dict.ofList listed } :=
    .cons (.needed (.text table)) <|
    .cons (.omitted rfl) <|
    .cons (.omitted rfl) <|
    .cons (.omitted rfl) <|
    .cons (.free (decodes_listed (foldColumns_entries_ofList hlower) positional)) <|
    .cons (.omitted rfl) <|
    .cons (.omitted rfl) <|
    .cons (.omitted rfl) <|
    .cons (.omitted rfl) <|
    .cons (.omitted rfl) <|
    .cons (.omitted rfl) <|
    .cons (.omitted rfl) .nil
  have hnodup : ((form (P := P) positional).fields.map Field.name).Nodup := by
    simp [form, Field.free, Field.needed]
  exact RecordForm.decodes_of_takeInOrder hnodup htakes positional

/-- The document that lists columns under lowercase names is loaded as a scan of the last of each
name. -/
theorem parse_render_listing (table : String) (hlower : ∀ e ∈ listed, Text.lower e.1 = e.1)
    (hsound : { ofTable table with columns := Dict.ofList listed }.error? = none)
    (hfloats : ∀ e ∈ listed, ∀ x ∈ e.2.floats, Json.FloatRule.scaled.Recovers x)
    (layout : Json.Layout) :
    parse .json ((listing table listed).render layout) =
        .ok { ofTable table with columns := Dict.ofList listed } ∧
      DocumentFormat.json.ListsColumns ((listing table listed).render layout) listed := by
  have hreadable : Json.Readable .scaled Json.deepest (listing table listed) :=
    readable_listing table hfloats
  obtain ⟨root, hread, hroot⟩ := hreadable.exists_read_render layout
  have hdecode : ofJsonText .scaled ((listing table listed).render layout) =
      .ok { ofTable table with columns := Dict.ofList listed } := by
    rw [ofJsonText, hread, Document.decode, decodes_listing hlower root hroot]
    rfl
  constructor
  · rw [parse, ofDocument, hdecode]
    simp only [Except.mapError, Except.bind, checked, hsound]
  · rw [DocumentFormat.ListsColumns, hread]
    exact listsColumns_of_toJson?_listing hroot

end ScanConfiguration

/-- Columns of orders, each listed once. -/
def orderColumns : List (String × ColumnSettings) :=
  [("id", { ColumnSettings.empty with metrics := ["min"] }),
    ("status", { ColumnSettings.empty with tests := ["missing_count == 0"] })]

/-- The document that lists the columns of orders. -/
def orderListing : String := (ScanConfiguration.listing "orders" orderColumns).render .compact

/-- Columns that are listed once are loaded and kept. -/
theorem orderListing_kept :
    ∃ c, ScanConfiguration.parse .json orderListing = .ok c ∧
      DocumentFormat.json.ListsColumns orderListing orderColumns ∧ c.KeepsColumns orderColumns := by
  have hfloats : ∀ e ∈ orderColumns, ∀ x ∈ e.2.floats, Json.FloatRule.scaled.Recovers x := by
    simp [orderColumns, ColumnSettings.floats, ColumnSettings.empty]
  obtain ⟨hparse, hlisted⟩ := ScanConfiguration.parse_render_listing "orders"
    (by decide +kernel) (Option.isNone_iff_eq_none.mp (by decide +kernel)) hfloats .compact
  exact ⟨_, hparse, hlisted,
    (ScanConfiguration.keepsColumns_iff_nodup hparse hlisted).1.mpr (by decide)⟩

/-- A column of orders that is listed twice, under the very same name. -/
def repeatedColumns : List (String × ColumnSettings) :=
  [("id", { ColumnSettings.empty with metrics := ["min"] }),
    ("id", { ColumnSettings.empty with metrics := ["max"] })]

/-- The document that lists a column of orders twice. -/
def repeatedListing : String :=
  (ScanConfiguration.listing "orders" repeatedColumns).render .compact

/-- A document that lists a column twice is loaded, and what it lists first is lost. -/
theorem repeatedListing_loses_settings :
    ∃ c, ScanConfiguration.parse .json repeatedListing = .ok c ∧
      DocumentFormat.json.ListsColumns repeatedListing repeatedColumns ∧
      c.column? "id" = some { ColumnSettings.empty with metrics := ["max"] } ∧
      ¬ c.KeepsColumns repeatedColumns := by
  have hfloats : ∀ e ∈ repeatedColumns, ∀ x ∈ e.2.floats, Json.FloatRule.scaled.Recovers x := by
    simp [repeatedColumns, ColumnSettings.floats, ColumnSettings.empty]
  obtain ⟨hparse, hlisted⟩ := ScanConfiguration.parse_render_listing "orders"
    (by decide +kernel) (Option.isNone_iff_eq_none.mp (by decide +kernel)) hfloats .compact
  have hlast := (ScanConfiguration.column?_eq_some_iff_of_foldColumns
    (ScanConfiguration.foldColumns_of_parse hparse hlisted)).mpr
      ⟨repeatedColumns.take 1, "id", [], rfl, rfl, List.not_mem_nil⟩
  refine ⟨_, hparse, hlisted, hlast, fun hkeeps ↦ ?_⟩
  have hfirst := (hkeeps.found _ (.head _)).symm.trans hlast
  simp at hfirst

end DataQuality
