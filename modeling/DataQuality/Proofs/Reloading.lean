import DataQuality.Document.Load
import DataQuality.Proofs.Decoding
import DataQuality.Proofs.ReadingJson

/-!
# Loading what was written

A configuration that is written as a JSON document and loaded again is the same configuration: every
field is written in a form that its decoder takes, and reading the text gives back the values that
were written.
-/

namespace DataQuality

variable {P : Type}

/-! ### Decoding what records are written as -/

theorem Decodes.texts (ss : List String) : Decodes (P := P) (.list .text) (Json.ofTexts ss) ss :=
  .list fun s _ ↦ .text s

theorem Decodes.literals (ls : List Literal) :
    Decodes (P := P) (.list Literal.decode) (.list (ls.map Literal.toJson)) ls :=
  .list fun l _ ↦ .literal l

/-- A custom query is decoded from what it is written as. -/
theorem SqlMetric.decodes_toJson (m : SqlMetric) (positional : Bool) :
    Decodes (P := P) (SqlMetric.decode positional) m.toJson m := by
  have hkind : [("numeric", Kind.numeric), ("failed_rows", Kind.failedRows)].lookup m.kind.name =
      some m.kind := by
    cases m.kind <;> rfl
  refine RecordForm.decodes_of_takeInOrder (by simp [form, Field.free, Field.needed]) ?_ positional
  exact .cons (.free (.oneOf hkind)) <|
    .cons (.optional rfl nofun fun s _ ↦ .text s) <|
    .cons (.needed (.text m.sql)) <|
    .cons (.optional rfl nofun fun ss _ ↦ .texts ss) <|
    .cons (.optional rfl nofun fun ss _ ↦ .texts ss) <|
    .cons (.free (.texts m.tests)) .nil

/-- The settings of a column are decoded from what they are written as. -/
theorem ColumnSettings.decodes_toJson (c : ColumnSettings) (positional : Bool) :
    Decodes (P := P) (ColumnSettings.decode positional) c.toJson c := by
  refine RecordForm.decodes_of_takeInOrder (by simp [form, Field.free]) ?_ positional
  exact .cons (.free (.texts c.metrics)) <|
    .cons (.free (.texts c.metricGroups)) <|
    .cons (.optional rfl nofun fun ls _ ↦ .literals ls) <|
    .cons (.optional rfl nofun fun s _ ↦ .text s) <|
    .cons (.optional rfl nofun fun s _ ↦ .text s) <|
    .cons (.optional rfl nofun fun s _ ↦ .text s) <|
    .cons (.optional rfl nofun fun s _ ↦ .text s) <|
    .cons (.optional rfl nofun fun ls _ ↦ .literals ls) <|
    .cons (.optional rfl nofun fun x _ ↦ .float x) <|
    .cons (.optional rfl nofun fun x _ ↦ .float x) <|
    .cons (.optional rfl nofun fun n _ ↦ .word32 n) <|
    .cons (.optional rfl nofun fun n _ ↦ .word32 n) <|
    .cons (.free (.texts c.tests)) <|
    .cons (.free (.list fun m _ ↦ m.decodes_toJson positional)) .nil

namespace ScanConfiguration

/-! ### Decoding columns -/

theorem decodeSettings_toJson (positional : Bool) (e : Extent P)
    (columns : List (String × ColumnSettings)) {members : List (Node P × Node P)}
    (h : Node.toMembers? members = some (columns.map fun e ↦ (e.1, e.2.toJson))) :
    decodeSettings positional e members = .ok columns := by
  induction columns generalizing members with
  | nil =>
    obtain rfl := Node.eq_nil_of_toMembers? h
    rfl
  | cons column columns ih =>
    obtain ⟨place, value, rest, rfl, hvalue, hrest⟩ := Node.exists_of_toMembers?_cons h
    simp only [decodeSettings, Node.asText, Leaf.asText?, Except.bind,
      column.2.decodes_toJson positional value hvalue, Except.mapError, ih hrest]
    rfl

/-- Names in lowercase that differ are listed as they are. -/
theorem foldColumns_eq_ok {declared : Dict String} (columns : Dict ColumnSettings)
    {rest : List (String × ColumnSettings)} (hlower : ∀ e ∈ rest, Text.lower e.1 = e.1)
    (hnew : ∀ e ∈ rest, declared.get? e.1 = none) (hnodup : (rest.map Prod.fst).Nodup) :
    foldColumns declared columns rest =
      .ok (rest.foldl (fun d e ↦ d.insert e.1 e.2) columns) := by
  induction rest generalizing declared columns with
  | nil => rfl
  | cons e rest ih =>
    obtain ⟨name, settings⟩ := e
    obtain ⟨hname, hlower⟩ := List.forall_mem_cons.mp hlower
    obtain ⟨hfresh, hnew⟩ := List.forall_mem_cons.mp hnew
    obtain ⟨hnotMem, hnodup⟩ := List.nodup_cons.mp hnodup
    have hnew' : ∀ e ∈ rest, (declared.insert name name).get? e.1 = none := by
      intro e he
      have hne : e.1 ≠ name := fun heq ↦ hnotMem (List.mem_map.mpr ⟨e, he, heq⟩)
      rw [Dict.get?_insert, if_neg hne, hnew e he]
    dsimp only at hname hfresh
    simp only [foldColumns, hname, hfresh]
    exact ih _ hlower hnew' hnodup

/-- Columns are decoded from what they are written as, as far as they stay. -/
theorem decodes_listed {listed : List (String × ColumnSettings)} {columns : Dict ColumnSettings}
    (h : foldColumns Dict.empty Dict.empty (Dict.ofList listed).entries = .ok columns)
    (positional : Bool) :
    Decodes (P := P) (decodeColumns positional)
      (.object (listed.map fun e ↦ (e.1, e.2.toJson))) columns := by
  intro n hn
  obtain ⟨e, members, rfl, hmembers⟩ := Node.exists_of_toJson?_object hn
  simp only [decodeColumns, Node.asMembers, Except.bind,
    decodeSettings_toJson positional _ listed hmembers, h]
  rfl

/-- Columns under lowercase names are decoded from what they are written as. -/
theorem decodes_columns {columns : Dict ColumnSettings}
    (hlower : ∀ key ∈ columns.keys, Text.lower key = key) (positional : Bool) :
    Decodes (P := P) (decodeColumns positional)
      (.object (columns.entries.map fun e ↦ (e.1, e.2.toJson))) columns := by
  refine decodes_listed ?_ positional
  rw [columns.ofList_entries, foldColumns_eq_ok Dict.empty
    (fun e he ↦ hlower e.1 (List.mem_map_of_mem he)) (fun e _ ↦ Dict.get?_empty e.1)
    columns.nodup_keys]
  exact congrArg Except.ok columns.ofList_entries

/-! ### Decoding configurations -/

/-- A configuration is decoded from what it is written as. -/
theorem decodes_toJson {c : ScanConfiguration}
    (hlower : ∀ key ∈ c.columns.keys, Text.lower key = key) (positional : Bool) :
    Decodes (P := P) (ScanConfiguration.decode positional) c.toJson c := by
  have hmethod : [("SYSTEM", SampleMethod.system), ("BERNOULLI", SampleMethod.bernoulli)].lookup
      c.sampleMethod.name = some c.sampleMethod := by
    cases c.sampleMethod <;> rfl
  refine RecordForm.decodes_of_takeInOrder (by simp [form, Field.free, Field.needed]) ?_ positional
  exact .cons (.needed (.text c.tableName)) <|
    .cons (.free (.texts c.metrics)) <|
    .cons (.free (.texts c.metricGroups)) <|
    .cons (.free (.texts c.tests)) <|
    .cons (.free (decodes_columns hlower positional)) <|
    .cons (.free (.list fun m _ ↦ m.decodes_toJson positional)) <|
    .cons (.free (.word32 c.minsMaxsLimit)) <|
    .cons (.free (.word32 c.frequentValuesLimit)) <|
    .cons (.free (.word32 c.histogramBuckets)) <|
    .cons (.optional rfl nofun fun s _ ↦ .text s) <|
    .cons (.optional rfl nofun fun x _ ↦ .float x) <|
    .cons (.free (.oneOf hmethod)) .nil

end ScanConfiguration

/-! ### Floats -/

/-- The floats of a literal. -/
def Literal.floats : Literal → List Float
  | float x => [x]
  | _ => []

/-- The floats of the settings of a column. -/
def ColumnSettings.floats (c : ColumnSettings) : List Float :=
  (c.missingValues.getD [] ++ c.validValues.getD []).flatMap Literal.floats ++ c.validMin.toList ++
    c.validMax.toList

/-- The floats of a configuration. -/
def ScanConfiguration.floats (c : ScanConfiguration) : List Float :=
  c.columns.entries.flatMap (fun e ↦ e.2.floats) ++ c.samplePercentage.toList

/-! ### Reading what records are written as -/

section

open Json (Readable)

variable {rule : Json.FloatRule} {depth : Nat}

namespace Json.Readable

theorem ofNat (n : UInt32) : Readable rule depth (.ofNat n.toNat) := by
  have hlt := n.toNat_lt
  exact .int (by omega) (by omega)

theorem literal {l : Literal} (h : ∀ x ∈ l.floats, rule.Recovers x) :
    Readable rule depth l.toJson := by
  cases l with
  | int i => exact .int i.le_toInt (by have := i.toInt_lt; omega)
  | float x => exact .float (h x (.head _))
  | text s => exact .text

/-- A list of records. -/
theorem listOf {α : Type} {f : α → Json} {as : List α} (h : ∀ a ∈ as, Readable rule depth (f a)) :
    Readable rule (depth + 1) (.list (as.map f)) := by
  refine .list fun item hitem ↦ ?_
  obtain ⟨a, ha, rfl⟩ := List.mem_map.mp hitem
  exact h a ha

theorem ofTexts (ss : List String) : Readable rule (depth + 1) (.ofTexts ss) :=
  listOf fun _ _ ↦ .text

/-- A member that is there. -/
theorem given {v : Json} (h : Readable rule depth v) : ∀ w ∈ some v, Readable rule depth w := by
  rintro w ⟨⟩
  exact h

/-- A member that may be left out. -/
theorem optional {α : Type} {f : α → Json} {o : Option α} (h : ∀ a ∈ o, Readable rule depth (f a)) :
    ∀ w ∈ o.map f, Readable rule depth w := by
  intro w hw
  obtain ⟨a, ha, rfl⟩ := Option.mem_map.mp hw
  exact h a ha

theorem record {table : List (String × Option Json)}
    (h : ∀ m ∈ table, ∀ v ∈ m.2, Readable rule depth v) :
    Readable rule (depth + 1) (.object (givenMembers table)) := by
  refine .object fun member hmember ↦ ?_
  obtain ⟨m, hm, hsome⟩ := List.mem_filterMap.mp hmember
  obtain ⟨v, hv, rfl⟩ := Option.map_eq_some_iff.mp hsome
  exact h m hm v hv

end Json.Readable

open Json.Readable

theorem SqlMetric.readable_toJson (m : SqlMetric) : Readable rule (depth + 2) m.toJson := by
  refine record ?_
  simp only [List.forall_mem_cons]
  exact ⟨given .text, optional fun s _ ↦ .text, given .text, optional fun ss _ ↦ ofTexts ss,
    optional fun ss _ ↦ ofTexts ss, given (ofTexts m.tests), List.forall_mem_nil _⟩

theorem ColumnSettings.readable_toJson {c : ColumnSettings}
    (h : ∀ x ∈ c.floats, rule.Recovers x) : Readable rule (depth + 4) c.toJson := by
  simp only [floats, List.mem_append, List.mem_flatMap, Option.mem_toList] at h
  have hliteral : ∀ l, l ∈ c.missingValues.getD [] ∨ l ∈ c.validValues.getD [] →
      ∀ x ∈ l.floats, rule.Recovers x :=
    fun l hl x hx ↦ h x (.inl (.inl ⟨l, hl, hx⟩))
  refine record ?_
  simp only [List.forall_mem_cons]
  exact ⟨given (ofTexts c.metrics), given (ofTexts c.metricGroups),
    optional fun ls hls ↦ listOf fun l hl ↦ literal (hliteral l (.inl (by rw [hls]; exact hl))),
    optional fun _ _ ↦ .text, optional fun _ _ ↦ .text, optional fun _ _ ↦ .text,
    optional fun _ _ ↦ .text,
    optional fun ls hls ↦ listOf fun l hl ↦ literal (hliteral l (.inr (by rw [hls]; exact hl))),
    optional fun x hx ↦ .float (h x (.inl (.inr hx))), optional fun x hx ↦ .float (h x (.inr hx)),
    optional fun n _ ↦ ofNat n, optional fun n _ ↦ ofNat n, given (ofTexts c.tests),
    given (listOf fun m _ ↦ m.readable_toJson), List.forall_mem_nil _⟩

theorem ScanConfiguration.readable_toJson {c : ScanConfiguration}
    (h : ∀ x ∈ c.floats, rule.Recovers x) : Readable rule (depth + 6) c.toJson := by
  simp only [floats, List.mem_append, List.mem_flatMap, Option.mem_toList] at h
  have hcolumns : Readable rule (depth + 5)
      (.object (c.columns.entries.map fun e ↦ (e.1, e.2.toJson))) := by
    refine .object fun member hmember ↦ ?_
    obtain ⟨e, he, rfl⟩ := List.mem_map.mp hmember
    exact e.2.readable_toJson fun x hx ↦ h x (.inl ⟨e, he, hx⟩)
  refine record ?_
  simp only [List.forall_mem_cons]
  exact ⟨given .text, given (ofTexts c.metrics), given (ofTexts c.metricGroups),
    given (ofTexts c.tests), given hcolumns, given (listOf fun m _ ↦ m.readable_toJson),
    given (ofNat c.minsMaxsLimit), given (ofNat c.frequentValuesLimit),
    given (ofNat c.histogramBuckets), optional fun _ _ ↦ .text,
    optional fun x hx ↦ .float (h x (.inr hx)), given .text, List.forall_mem_nil _⟩

end

/-! ### Loading -/

namespace ScanConfiguration

/-- Loads the configuration that a JSON text describes when its numbers are read by a rule. -/
def loadJson (rule : Json.FloatRule) (source : String) : Except LoadError ScanConfiguration :=
  ((ofJsonText rule source).mapError (.json source)).bind checked

/-- What a sound configuration is written as is loaded as the same configuration, by every rule that
recovers its floats. -/
theorem loadJson_render {c : ScanConfiguration} {rule : Json.FloatRule} (hsound : c.error? = none)
    (hlower : ∀ key ∈ c.columns.keys, Text.lower key = key)
    (hfloats : ∀ x ∈ c.floats, rule.Recovers x) (layout : Json.Layout) :
    loadJson rule (c.toJson.render layout) = .ok c := by
  have hreadable : Json.Readable rule Json.deepest c.toJson := c.readable_toJson hfloats
  obtain ⟨root, hread, hroot⟩ := hreadable.exists_read_render layout
  have hdecode : ofJsonText rule (c.toJson.render layout) = .ok c := by
    rw [ofJsonText, hread, Document.decode, decodes_toJson hlower true root hroot]
    rfl
  rw [loadJson, hdecode]
  simp only [Except.mapError, Except.bind, checked, hsound]

/-- The parser scales numbers, which need not recover every float; nothing else stands in the
way. -/
theorem parse_render {c : ScanConfiguration} (hsound : c.error? = none)
    (hlower : ∀ key ∈ c.columns.keys, Text.lower key = key)
    (hfloats : ∀ x ∈ c.floats, Json.FloatRule.scaled.Recovers x) (layout : Json.Layout) :
    parse .json (c.toJson.render layout) = .ok c := by
  have hparse : ∀ source, parse .json source = loadJson .scaled source := fun _ ↦ rfl
  rw [hparse]
  exact loadJson_render hsound hlower hfloats layout

/-- What a sound configuration is written as is loaded as the same configuration, if its floats are
finite and numbers are read as the nearest floats. -/
theorem loadJson_nearest_render {c : ScanConfiguration} (hsound : c.error? = none)
    (hlower : ∀ key ∈ c.columns.keys, Text.lower key = key)
    (hfinite : ∀ x ∈ c.floats, Number.isFinite x = true) (layout : Json.Layout) :
    loadJson .nearest (c.toJson.render layout) = .ok c :=
  loadJson_render hsound hlower (fun x hx ↦ Json.FloatRule.nearest_recovers (hfinite x hx)) layout

end ScanConfiguration

/-- A scan of a sample of a table of orders, with a literal of each kind and with options that are
given and left out. -/
def orderSample : ScanConfiguration :=
  { ScanConfiguration.ofTable "orders" with
    metrics := ["row_count"]
    tests := ["row_count > 0"]
    columns := Dict.ofList
      [("amount",
        { ColumnSettings.empty with
          missingValues := some [.int (-1), .float 0.5, .text "n/a"]
          validMin := some 0.01
          validMax := some 1e9 }),
        ("status",
        { ColumnSettings.empty with
          metricGroups := ["missing"]
          validRegex := some "^(open|closed)$"
          validMaxLength := some 6
          sqlMetrics := [.failedRows "unpaid" "SELECT id FROM orders WHERE paid IS NULL"] })]
    histogramBuckets := 10
    samplePercentage := some 12.5
    sampleMethod := .bernoulli }

/-- The scan of a sample of orders is loaded from what it is written as. -/
theorem loadJson_orderSample :
    orderSample.error? = none ∧ (∀ key ∈ orderSample.columns.keys, Text.lower key = key) ∧
      (∀ x ∈ orderSample.floats, Number.isFinite x = true) ∧
        ScanConfiguration.loadJson .nearest (orderSample.toJson.render .compact) =
          .ok orderSample := by
  have hsound : orderSample.error? = none :=
    Option.isNone_iff_eq_none.mp (by decide +kernel)
  have hlower : ∀ key ∈ orderSample.columns.keys, Text.lower key = key := by decide +kernel
  have hfinite : ∀ x ∈ orderSample.floats, Number.isFinite x = true := by decide +kernel
  exact ⟨hsound, hlower, hfinite,
    ScanConfiguration.loadJson_nearest_render hsound hlower hfinite .compact⟩

end DataQuality
