import DataQuality.Proofs.MissingAndValid
import DataQuality.Proofs.Quotations
import DataQuality.Proofs.SameRows

/-!
# Text literals

A text that becomes a literal is read back as it is and ends where its literal ends, whatever
characters it holds. The texts of a document that go into conditions and into the query for the
columns of a table stand there as such literals, so none of them can become SQL.
-/

namespace DataQuality

namespace Warehouse

variable {w : Warehouse} {sql text : String}

/-- SQL embeds a text: it stands there as a literal, and reading that yields the text and ends where
the rest of the SQL goes on. -/
def Embeds (w : Warehouse) (sql text : String) : Prop :=
  ∃ before after, sql = before ++ w.stringLiteral text ++ after ∧
    w.readLiteral (w.stringLiteral text ++ after) = some (text, after)

/-- SQL quotes a text: it stands there as a literal, and no quotation mark follows. -/
def Quotes (w : Warehouse) (sql text : String) : Prop :=
  ∃ before after, sql = before ++ w.stringLiteral text ++ after ∧
    after.toList.head? ≠ some '\''

/-- Whether a text begins with something other than a quotation mark. -/
def setsApart (s : String) : Bool := s.toList.head?.any fun c ↦ c ≠ '\''

theorem head?_append_of_setsApart {s : String} (h : setsApart s) (more : String) :
    (s ++ more).toList.head? ≠ some '\'' := by
  rw [String.toList_append, List.head?_append]
  unfold setsApart at h
  cases hhead : s.toList.head? with
  | none => simp [hhead] at h
  | some c => simpa [hhead] using h

/-- A literal is read as the text that it was made of, and ends where it was ended. -/
theorem readLiteral_stringLiteral (text : String) {t : String}
    (ht : t.toList.head? ≠ some '\'') :
    w.readLiteral (w.stringLiteral text ++ t) = some (text, t) := by
  have hmark : w.literalRule.mark = '\'' := by cases w <;> rfl
  rw [← hmark] at ht
  have hread := (w.fits_literalStyle.read_quoteChars_iff fun _ ↦ ht).mpr
    (w.keepsBackslashes_literalStyle text.toList)
  rw [readLiteral_eq_some_iff]
  simpa [stringLiteral, QuoteStyle.quote] using hread

namespace Quotes

theorem embeds (h : w.Quotes sql text) : w.Embeds sql text := by
  obtain ⟨before, after, hsql, hafter⟩ := h
  exact ⟨before, after, hsql, readLiteral_stringLiteral text hafter⟩

theorem literal (w : Warehouse) (text : String) : w.Quotes (w.stringLiteral text) text :=
  ⟨"", "", by simp, by simp⟩

theorem prepend (h : w.Quotes sql text) (before : String) : w.Quotes (before ++ sql) text := by
  obtain ⟨front, after, rfl, hafter⟩ := h
  exact ⟨before ++ front, after, by simp [String.append_assoc], hafter⟩

theorem append (h : w.Quotes sql text) {more : String} (hmore : more.toList.head? ≠ some '\'') :
    w.Quotes (sql ++ more) text := by
  obtain ⟨before, after, rfl, hafter⟩ := h
  refine ⟨before, after ++ more, by simp [String.append_assoc], ?_⟩
  rw [String.toList_append, List.head?_append]
  cases hhead : after.toList.head? with
  | none => simpa using hmore
  | some c => simpa [hhead] using hafter

/-- Behind a text that sets apart anything may stand. -/
theorem append_append (h : w.Quotes sql text) {start : String} (hstart : setsApart start)
    (more : String) : w.Quotes (sql ++ start ++ more) text := by
  rw [String.append_assoc]
  exact h.append (head?_append_of_setsApart hstart more)

/-- Parts behind a separator begin with it. -/
private theorem exists_join_eq (separator part : String) (parts : List String) :
    ∃ more, Text.join separator (part :: parts) = part ++ more ∧
      (more = "" ∨ ∃ others, more = separator ++ others) := by
  cases parts with
  | nil => exact ⟨"", by simp [Text.join], .inl rfl⟩
  | cons other parts =>
    exact ⟨_, (Text.join_cons_cons ..).trans String.append_assoc, .inr ⟨_, rfl⟩⟩

/-- What one of the parts quotes is quoted by all of them together. -/
theorem join (h : w.Quotes sql text) {separator : String} (hseparator : setsApart separator)
    {parts : List String} (hsql : sql ∈ parts) :
    w.Quotes (Text.join separator parts) text := by
  induction parts with
  | nil => cases hsql
  | cons part parts ih =>
    by_cases hpart : sql = part
    · obtain ⟨more, hjoin, hmore⟩ := exists_join_eq separator part parts
      rw [hjoin, ← hpart]
      apply h.append
      rcases hmore with rfl | ⟨others, rfl⟩
      · simp
      · exact head?_append_of_setsApart hseparator others
    · have hothers : sql ∈ parts := by simpa [hpart] using hsql
      cases parts with
      | nil => cases hothers
      | cons other parts =>
        rw [Text.join_cons_cons]
        exact (ih hothers).prepend _

end Quotes

/-! ### Conditions -/

/-- What goes into SQL as a literal of a list: a text does, and so do numbers that are written as
texts. -/
def quotedText? (asText : Bool) (l : Literal) : Option String :=
  match l with
  | .text s => some s
  | l => if asText then some l.display else none

theorem literal_of_quotedText? {asText : Bool} {l : Literal}
    (h : quotedText? asText l = some text) :
    w.literal asText l = w.stringLiteral text := by
  cases l with
  | text s =>
    cases h
    rfl
  | int i =>
    cases asText with
    | true =>
      cases h
      rfl
    | false => cases h
  | float x =>
    cases asText with
    | true =>
      cases h
      rfl
    | false => cases h

theorem quotes_literalList {asText : Bool} {values : List Literal} {l : Literal}
    (hl : l ∈ values) (h : quotedText? asText l = some text) :
    w.Quotes (w.literalList values asText) text := by
  have hliteral : w.Quotes (w.literal asText l) text := by
    rw [literal_of_quotedText? h]
    exact .literal w text
  exact hliteral.join (by decide) (List.mem_map_of_mem hl)

theorem quotes_regexPredicate {expr pattern : String}
    (h : w.regexPredicate expr pattern = .ok sql) :
    w.Quotes sql pattern := by
  obtain ⟨-, rfl⟩ := require_eq_ok_iff.mp h
  have hliteral := Quotes.literal w pattern
  cases w with
  | postgreSQL | sqlite => exact hliteral.prepend _
  | mySQL | bigQuery => exact (hliteral.prepend _).append (by decide)
  | snowflake => exact (hliteral.prepend _).append (by decide)

end Warehouse

namespace Condition

open Warehouse

variable {w : Warehouse} {text : String} {c : Condition} {cs : List Condition}

/-- Conditions behind a connective begin with it. -/
theorem head?_sqlBehind {connective : String} (hconnective : setsApart connective) :
    (sqlBehind connective cs).toList.head? ≠ some '\'' := by
  cases cs with
  | nil => simp [sqlBehind]
  | cons =>
    rw [sqlBehind, String.append_assoc]
    exact head?_append_of_setsApart hconnective _

/-- What a condition quotes is quoted by all those behind a connective together. -/
theorem quotes_sqlBehind {connective : String} (hconnective : setsApart connective) (hc : c ∈ cs)
    (h : w.Quotes c.sql text) : w.Quotes (sqlBehind connective cs) text := by
  induction cs with
  | nil => cases hc
  | cons first cs ih =>
    rw [sqlBehind]
    by_cases hfirst : c = first
    · rw [← hfirst]
      exact (h.prepend _).append (head?_sqlBehind hconnective)
    · exact (ih (by simpa [hfirst] using hc)).prepend _

end Condition

/-- The texts that lists of literals and patterns put into SQL. -/
def quotedTexts (asText : Bool) (values : List Literal) (patterns : List String) : List String :=
  values.filterMap (Warehouse.quotedText? asText) ++ patterns

namespace ColumnSettings

/-- The texts that the settings of a column put into the condition for missing values. -/
def missingTexts (asText : Bool) (settings : ColumnSettings) : List String :=
  quotedTexts asText settings.missing.values settings.missing.patterns

/-- The texts that the settings of a column put into the condition for valid values. -/
def validTexts (asText : Bool) (settings : ColumnSettings) : List String :=
  quotedTexts asText settings.validityConditions.values settings.validityConditions.patterns

end ColumnSettings

namespace ColumnConditions

open Warehouse

variable {w : Warehouse} {p : ColumnProfile} {c : ColumnConditions} {clause text : String}

theorem quotes_missing (hclause : clause ∈ c.missingClauses) (h : w.Quotes clause text) :
    w.Quotes c.missing.sql text := by
  have hbehind : w.Quotes (Condition.sqlBehind " OR " (c.missingClauses.map .clause)) text :=
    Condition.quotes_sqlBehind (by decide) (List.mem_map_of_mem hclause)
      (by simpa [Condition.sql] using h)
  rw [missing, List.map_cons]
  cases hclauses : c.missingClauses.map Condition.clause with
  | nil => simp [List.map_eq_nil_iff.mp hclauses] at hclause
  | cons first rest =>
    rw [hclauses] at hbehind
    rw [Condition.sql]
    exact (hbehind.prepend _).append (by decide)

theorem quotes_valid (hclause : clause ∈ c.validityClauses) (h : w.Quotes clause text) :
    w.Quotes c.valid.sql text := by
  have hbehind : w.Quotes (Condition.sqlBehind " AND " (c.validityClauses.map .clause)) text :=
    Condition.quotes_sqlBehind (by decide) (List.mem_map_of_mem hclause)
      (by simpa [Condition.sql] using h)
  rw [valid, Condition.sql]
  exact hbehind.prepend _

/-- A valid value is not missing, so what makes values missing is quoted there too. -/
theorem quotes_valid_of_missing (h : w.Quotes c.missing.sql text) :
    w.Quotes c.valid.sql text := by
  rw [valid, Condition.sql, Condition.sql]
  exact (h.prepend _).append (Condition.head?_sqlBehind (by decide))

/-- Clauses for values in a list and for patterns quote every text of them. -/
theorem exists_clause_of_mem_quotedTexts {values : List Literal} {patterns found : List String}
    (hfound : patternClauses w p patterns = .ok found)
    (htext : text ∈ quotedTexts p.isText values patterns) :
    ∃ clause ∈ listClause w p values ++ found, w.Quotes clause text := by
  rcases List.mem_append.mp htext with hvalue | hpattern
  · obtain ⟨l, hl, hquoted⟩ := List.mem_filterMap.mp hvalue
    have hsome : values.isEmpty = false := by
      cases values with
      | nil => cases hl
      | cons => rfl
    refine ⟨_, List.mem_append_left _ (by rw [listClause, hsome]; exact .head _), ?_⟩
    exact ((quotes_literalList hl hquoted).prepend _).append (by decide)
  · obtain ⟨clause, hclause, h⟩ := exists_mem_of_mapM_eq_ok hfound hpattern
    exact ⟨clause, List.mem_append_right _ hclause, quotes_regexPredicate h⟩

/-- The conditions of a column quote every text that its settings hold for missing values, and every
one for valid values. -/
theorem quotes_of_build {settings : ColumnSettings} (h : build w p (some settings) = .ok c) :
    (∀ text ∈ settings.missingTexts p.isText, w.Quotes c.missing.sql text) ∧
      ∀ text ∈ settings.validTexts p.isText, w.Quotes c.valid.sql text := by
  rw [build_eq] at h
  obtain ⟨missing, hmissing, h⟩ := exists_of_bind_eq_ok h
  obtain ⟨validity, hvalidity, rfl⟩ := exists_of_map_eq_ok h
  constructor
  · intro text htext
    obtain ⟨patterns, hpatterns, rfl⟩ := exists_of_map_eq_ok hmissing
    obtain ⟨clause, hclause, hquotes⟩ := exists_clause_of_mem_quotedTexts hpatterns htext
    exact quotes_missing hclause hquotes
  · intro text htext
    have hdeclared : settings.validityConditions.isTrivial = false := by
      rw [Bool.eq_false_iff]
      intro htrivial
      simp only [ValidityDefinition.isTrivial, Bool.and_eq_true, List.isEmpty_iff] at htrivial
      simp [ColumnSettings.validTexts, quotedTexts, htrivial] at htext
    have hsome : settings.validity? = some settings.validityConditions := by
      simp [ColumnSettings.validity?, hdeclared]
    simp only [validityClausesFor, Option.bind_some, hsome] at hvalidity
    obtain ⟨patterns, hpatterns, rfl⟩ := exists_of_map_eq_ok hvalidity
    obtain ⟨clause, hclause, hquotes⟩ := exists_clause_of_mem_quotedTexts hpatterns htext
    refine quotes_valid ?_ hquotes
    simp only [List.mem_append] at hclause ⊢
    simp [hclause.symm]

end ColumnConditions

/-! ### Queries about columns -/

namespace Warehouse

theorem head?_around (w : Warehouse) (f : AggregateFunction) :
    (w.around f).2.toList.head? ≠ some '\'' := by
  cases w <;> simp [around]

theorem head?_aroundMedian (w : Warehouse) : w.aroundMedian.2.toList.head? ≠ some '\'' := by
  unfold aroundMedian
  -- Neither the share nor the offset is computed.
  generalize Number.plainText 0.5 = share
  generalize (quantileOffset 0.5).toNat = offset
  cases w <;> simp

end Warehouse

namespace Metric.TakenOver

open Warehouse

variable {w : Warehouse} {p : ColumnProfile} {c : ColumnConditions} {m : Metric}
  {sql text : String}

/-- All metrics but the number of missing values go by what makes values valid. -/
theorem quotes_of_valid (h : m.TakenOver w p c sql) (hm : m ≠ .missingCount)
    (htext : w.Quotes c.valid.sql text) : w.Quotes sql text := by
  have hvalue : ∀ expr, w.Quotes (valueIf c.valid.sql expr) text := fun expr ↦
    ((htext.prepend _).append_append (by decide) expr).append (by decide)
  cases h with
  | missing => exact absurd rfl hm
  | valid => exact (htext.prepend _).append (by decide)
  | numbers => exact ((hvalue _).prepend _).append (w.head?_around _)
  | lengths => exact ((hvalue _).prepend _).append (w.head?_around _)
  | median => exact ((hvalue _).prepend _).append w.head?_aroundMedian

/-- All metrics go by what makes values missing. -/
theorem quotes_of_missing (h : m.TakenOver w p c sql) (htext : w.Quotes c.missing.sql text) :
    w.Quotes sql text := by
  by_cases hm : m = .missingCount
  · subst hm
    cases h with
    | missing => exact (htext.prepend _).append (by decide)
    | numbers hform => cases hform
    | lengths hform => cases hform
  · exact h.quotes_of_valid hm (ColumnConditions.quotes_valid_of_missing htext)

end Metric.TakenOver

/-- A group whose query is known asks that one only. -/
theorem GroupSpec.Renders.eq_of_query {w : Warehouse} {g : GroupSpec} {sql text : String}
    (h : g.Renders w sql) (hquery : g.query = .sql text) : sql = text := by
  cases h with
  | known h => exact GroupQuery.sql.inj (h.symm.trans hquery)
  | between h => exact absurd (h.symm.trans hquery) (by simp)

/-- A query over the values of a column quotes what the last of its conditions does. -/
theorem ColumnProfile.SelectsRows.quotes {w : Warehouse} {p : ColumnProfile} {table sql : String}
    {config : ScanConfiguration} {condition text : String}
    (h : p.SelectsRows w table (config.rowFilter ++ [condition]) sql)
    (htext : w.Quotes condition text) : w.Quotes sql text := by
  obtain ⟨selected, start, rest, -, hstart, rfl⟩ := h
  have hrestriction : w.Quotes (restriction (config.rowFilter ++ [condition])) text := by
    unfold ScanConfiguration.rowFilter
    cases config.filter.filter fun f ↦ !Text.isBlank f with
    | none => exact htext.prepend _
    | some filter =>
      have hparts : w.Quotes ("(" ++ condition ++ ")") text :=
        (htext.prepend _).append (by decide)
      exact (hparts.join (by decide) (.tail _ (.head _))).prepend _
  have hfrom := (hrestriction.prepend ("FROM " ++ table)).prepend selected
  have hregrouping : ∀ start ∈ regroupings, Warehouse.setsApart start := by decide
  exact hfrom.append_append (hregrouping start hstart) rest

/-- The texts that a query for a metric of a column holds by the settings of the column: those for
missing values, and unless it counts missing values, those for valid ones. -/
def ScanConfiguration.textsBehind (w : Warehouse) (config : ScanConfiguration)
    (column : TableColumn) (metric : String) : List String :=
  match config.column? column.name with
  | none => []
  | some settings =>
    let asText := (config.profile w column).isText
    settings.missingTexts asText ++
      if metric = Metric.missingCount.name then [] else settings.validTexts asText

namespace ScanConfiguration

variable {w : Warehouse} {config : ScanConfiguration} {column : TableColumn}
  {c : ColumnConditions} {metric sql text : String}

/-- What quotes whatever makes values of the column missing or, where it goes by that, valid, quotes
the texts of its settings. -/
theorem quotes_of_mem_textsBehind (hc : config.conditions w column = .ok c)
    (htext : text ∈ config.textsBehind w column metric)
    (hmissing : w.Quotes c.missing.sql text → w.Quotes sql text)
    (hvalid : metric ≠ Metric.missingCount.name → w.Quotes c.valid.sql text → w.Quotes sql text) :
    w.Quotes sql text := by
  unfold textsBehind at htext
  unfold conditions at hc
  cases hsettings : config.column? column.name with
  | none => simp [hsettings] at htext
  | some settings =>
    rw [hsettings] at hc htext
    obtain ⟨hmissings, hvalids⟩ := ColumnConditions.quotes_of_build hc
    rcases List.mem_append.mp htext with h | h
    · exact hmissing (hmissings text h)
    · split at h
      · cases h
      · next hmetric => exact hvalid hmetric (hvalids text h)

end ScanConfiguration

/-- Each key that a batch measures has its expression among those selected. -/
theorem exists_selects_of_forall₂ {R : MetricKey → String → Prop} {bindings : List Binding}
    {exprs : List String} (h : List.Forall₂ R (bindings.map Binding.key) exprs) {key : MetricKey}
    (hkey : key ∈ bindings.map Binding.key) :
    ∃ (b : Binding) (expr : String), R key expr ∧
      b.selects expr ∈ List.zipWith Binding.selects bindings exprs := by
  induction bindings generalizing exprs with
  | nil => cases hkey
  | cons b bindings ih =>
    cases exprs with
    | nil => cases h
    | cons expr exprs =>
      obtain ⟨hfirst, hrest⟩ := List.forall₂_cons.mp h
      rcases List.mem_cons.mp hkey with rfl | hkey
      · exact ⟨b, expr, hfirst, .head _⟩
      · obtain ⟨b', expr', hexpr, hmem⟩ := ih hrest hkey
        exact ⟨b', expr', hexpr, .tail _ hmem⟩

/-- Any query that a plan has for metrics of columns embeds the texts of their settings. Numbers of
all rows go by no settings, and custom queries are written as they are. -/
def Plan.EmbedsTexts (p : Plan) (w : Warehouse) (config : ScanConfiguration) : Prop :=
  ∀ g ∈ p.groups, g.phase ≠ .custom → ∀ sql, g.Renders w sql → ∀ key ∈ g.keys,
    key = .ofTable Metric.rowCount.name ∨
      ∃ column ∈ p.columns, key.column = some (Text.lower column.name) ∧
        ∀ text ∈ config.textsBehind w column key.name, w.Embeds sql text

namespace Draft

variable {d : Draft} {g : QueryGroup} {key : MetricKey} {sql : String}

theorem embeds_of_aggregate (hg : g ∈ d.plan.groups) (hphase : g.phase = .aggregate)
    (hsql : g.Renders d.warehouse sql) (hkey : key ∈ g.keys) :
    key = .ofTable Metric.rowCount.name ∨
      ∃ column ∈ d.columns, key.column = some (Text.lower column.name) ∧
        ∀ text ∈ d.config.textsBehind d.warehouse column key.name, d.warehouse.Embeds sql text := by
  obtain ⟨exprs, hexprs, hquery⟩ :=
    exists_of_mem_aggregateGroups (mem_aggregateGroups_of_phase hg hphase)
  obtain ⟨b, expr, hexpr, hselects⟩ := exists_selects_of_forall₂ hexprs hkey
  rcases measures_of_mem_allAggregates hexpr with
    ⟨hrow, -⟩ | ⟨column, hcolumn, m, c, hm, hc, htaken⟩
  · exact .inl hrow
  · obtain rfl : key = .ofColumn (Text.lower column.name) m.name := hm
    refine .inr ⟨column, hcolumn, rfl, fun text htext ↦ ?_⟩
    have hexpr : d.warehouse.Quotes expr text := by
      apply ScanConfiguration.quotes_of_mem_textsBehind hc htext htaken.quotes_of_missing
      intro hmetric
      apply htaken.quotes_of_valid
      rintro rfl
      exact hmetric rfl
    rw [hsql.eq_of_query hquery]
    have hitem : d.warehouse.Quotes (b.selects expr) text :=
      (hexpr.prepend _).append_append (by decide) _
    have hitems := hitem.join (show Warehouse.setsApart ",\n" by decide) hselects
    exact ((hitems.prepend "SELECT\n").append_append (by decide) _).embeds

theorem embeds_of_distribution (hg : g ∈ d.plan.groups) (hphase : g.phase = .distribution)
    (hsql : g.Renders d.warehouse sql) (hkey : key ∈ g.keys) {table : String}
    (hsource : d.source = .withFilter table d.config.filter) :
    ∃ column ∈ d.columns, key.column = some (Text.lower column.name) ∧
      ∀ text ∈ d.config.textsBehind d.warehouse column key.name, d.warehouse.Embeds sql text := by
  obtain ⟨column, hcolumn, c, hc, hmem⟩ := exists_column_of_distribution hg hphase
  refine ⟨column, hcolumn, ?_, fun text htext ↦ ?_⟩
  · obtain ⟨m, rfl⟩ := (DistributionContext.cases_of_mem_groups hmem).2.1 key hkey
    rfl
  · have hrows := DistributionContext.selectsRows_of_renders hsource hmem hsql
    have hquotes := ScanConfiguration.quotes_of_mem_textsBehind hc htext
      (fun h ↦ hrows.quotes (ColumnConditions.quotes_valid_of_missing h))
      fun _ h ↦ hrows.quotes h
    exact hquotes.embeds

end Draft

theorem ScanConfiguration.embedsTexts_of_plan {w : Warehouse} {cap : Nat}
    {config : ScanConfiguration} {columns : List TableColumn} {p : Plan}
    (hplan : config.plan w cap columns = .ok p) : p.EmbedsTexts w config := by
  obtain ⟨-, source, hsource, rfl⟩ := plan_eq_ok_iff.mp hplan
  obtain ⟨table, -, rfl⟩ := exists_readsFrom hsource
  intro g hg hcustom sql hsql key hkey
  cases hphase : g.phase with
  | aggregate => exact Draft.embeds_of_aggregate hg hphase hsql hkey
  | distribution => exact .inr (Draft.embeds_of_distribution hg hphase hsql hkey rfl)
  | custom => exact absurd hphase hcustom

/-! ### The query for the columns -/

namespace Warehouse

variable {w : Warehouse} {text table : String}

/-- The texts that go into the query for the columns of a table: its name and that of its schema;
SQLite is asked for both together, and in BigQuery the schema is a part of what is read. -/
def schemaTexts (w : Warehouse) (table : String) : List String :=
  match w with
  | .sqlite => [table]
  | .bigQuery => [(splitTable table).2]
  | .postgreSQL | .mySQL | .snowflake => (splitTable table).2 :: (splitTable table).1.toList

/-- A query about the catalog embeds what one of its conditions compares with. -/
theorem embeds_catalogQuery {view : String} {conditions : List String} (start stop : String)
    (hstop : stop.toList.head? ≠ some '\'')
    (hcondition : start ++ w.stringLiteral text ++ stop ∈ conditions) :
    w.Embeds (catalogQuery view conditions) text := by
  have hquotes : w.Quotes (start ++ w.stringLiteral text ++ stop) text :=
    ((Quotes.literal w text).prepend start).append hstop
  exact (((hquotes.join (by decide) hcondition).prepend _).append (by decide)).embeds

/-- The query for the columns of a table embeds the names that it asks for. -/
theorem embeds_columnsQuery (htext : text ∈ w.schemaTexts table) :
    w.Embeds (w.columnsQuery table) text := by
  unfold columnsQuery
  dsimp only
  cases w with
  | sqlite =>
    obtain rfl := List.mem_singleton.mp htext
    exact (((Quotes.literal .sqlite text).prepend _).append (by decide)).embeds
  | bigQuery =>
    obtain rfl := List.mem_singleton.mp htext
    exact embeds_catalogQuery "table_name = " "" (by decide) (by simp)
  | postgreSQL =>
    rcases List.mem_cons.mp htext with rfl | hschema
    · exact embeds_catalogQuery "lower(table_name) = lower(" ")" (by decide) (by simp)
    · rw [Option.mem_toList.mp hschema]
      exact embeds_catalogQuery "lower(table_schema) = lower(" ")" (by decide) (by simp)
  | mySQL =>
    rcases List.mem_cons.mp htext with rfl | hschema
    · exact embeds_catalogQuery "table_name = " "" (by decide) (by simp)
    · rw [Option.mem_toList.mp hschema]
      exact embeds_catalogQuery "table_schema = " "" (by decide) (by simp)
  | snowflake =>
    rcases List.mem_cons.mp htext with rfl | hschema
    · exact embeds_catalogQuery "table_name = UPPER(" ")" (by decide) (by simp)
    · rw [Option.mem_toList.mp hschema]
      exact embeds_catalogQuery "table_schema = UPPER(" ")" (by decide) (by simp)

/-- A text literal is read as its text and ends where it was ended, unless another quotation mark
follows. So no query that a scan plans for metrics of a column, and no query for the columns of a
table, can have a missing or valid value, a pattern or a name of a table or schema end its literal
early or become another text. -/
theorem texts_stand_as_literals (w : Warehouse) :
    (∀ text t : String, t.toList.head? ≠ some '\'' →
      w.readLiteral (w.stringLiteral text ++ t) = some (text, t)) ∧
    (∀ (cap : Nat) (config : ScanConfiguration) (columns : List TableColumn) (p : Plan),
      config.plan w cap columns = .ok p → p.EmbedsTexts w config) ∧
    ∀ (table : String), ∀ text ∈ w.schemaTexts table, w.Embeds (w.columnsQuery table) text :=
  ⟨fun text _ ht ↦ readLiteral_stringLiteral text ht,
    fun _ _ _ _ hplan ↦ ScanConfiguration.embedsTexts_of_plan hplan,
    fun _ _ htext ↦ embeds_columnsQuery htext⟩

/-- Orders with a comment, in which texts with quotation marks and backslashes count as missing or
as valid. -/
def commentConfiguration : ScanConfiguration :=
  { ScanConfiguration.ofTable "shop's.orders" with
    metrics := ["missing_count", "valid_count"]
    columns := Dict.empty.insert "comment"
      { ColumnSettings.empty with
        missingValues := some [.text "\\'"], validRegex := some "^it's\\b" } }

/-- In MySQL a text that ends in a backslash and a quotation mark ends where its literal does, and
so do the texts of settings and the names of a schema and a table. -/
theorem texts_stand_as_literals_of_mySQL :
    ")".toList.head? ≠ some '\'' ∧
      readLiteral .mySQL (stringLiteral .mySQL "\\'" ++ ")") = some ("\\'", ")") ∧
      (∃ p, commentConfiguration.plan .mySQL 0 [⟨"Comment", "text", true⟩] = .ok p ∧
        commentConfiguration.textsBehind .mySQL ⟨"Comment", "text", true⟩ "valid_count" =
          ["\\'", "^it's\\b"] ∧
        p.EmbedsTexts .mySQL commentConfiguration) ∧
      schemaTexts .mySQL "shop's.orders" = ["orders", "shop's"] ∧
      Embeds .mySQL (columnsQuery .mySQL "shop's.orders") "shop's" := by
  obtain ⟨hread, hplans, hschema⟩ := texts_stand_as_literals .mySQL
  have hparen : ")".toList.head? ≠ some '\'' := by decide
  have htexts : schemaTexts .mySQL "shop's.orders" = ["orders", "shop's"] := by decide +kernel
  obtain ⟨p, hplan⟩ :
      ∃ p, commentConfiguration.plan .mySQL 0 [⟨"Comment", "text", true⟩] = .ok p :=
    ScanConfiguration.exists_plan (by decide) rfl
  refine ⟨hparen, hread _ _ hparen, ⟨p, hplan, by decide, hplans _ _ _ _ hplan⟩, htexts, ?_⟩
  apply hschema
  rw [htexts]
  exact .tail _ (.head _)

end Warehouse

end DataQuality
