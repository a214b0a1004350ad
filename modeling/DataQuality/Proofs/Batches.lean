import Mathlib
import DataQuality.Proofs.Cancellation
import DataQuality.Proofs.PhaseOrder

/-!
# Batches of aggregates

How many aggregates fit into one query decides nothing but the queries. Aggregates are named before
they are cut into batches, so a batch keeps the names of the whole, and it binds each aggregate by
name and by its position in the batch. Whether a warehouse gives the columns of its answer these
names or others, each binding reads the cell of its own aggregate, and the batches together measure
what one query over all aggregates measures.
-/

namespace DataQuality

/-! ### Cutting into batches -/

/-- The parts of a list are not empty and not longer than they may be. -/
theorem length_of_mem_chunksOf {α : Type} {size : Nat} {as part : List α}
    (h : part ∈ chunksOf size as) : 1 ≤ part.length ∧ (0 < size → part.length ≤ size) := by
  fun_induction chunksOf size as with
  | case1 => cases h
  | case2 a rest ih =>
    rcases List.mem_cons.mp h with rfl | h
    · rw [List.length_cons, List.length_take]
      omega
    · exact ih h

/-- A list that is no longer than a part may be is not cut. -/
theorem length_chunksOf_le_one {α : Type} {size : Nat} {as : List α} (h : as.length ≤ size) :
    (chunksOf size as).length ≤ 1 := by
  cases as with
  | nil => simp [chunksOf]
  | cons a rest =>
    rw [List.length_cons] at h
    rw [chunksOf, List.drop_eq_nil_of_le (by omega)]
    simp [chunksOf]

/-- Batches are not empty, and not longer than the cap if there is one. -/
theorem length_of_mem_batches {cap : Nat} {as part : List NamedAggregate}
    (h : part ∈ batches cap as) : 1 ≤ part.length ∧ (0 < cap → part.length ≤ cap) := by
  obtain ⟨hsome, hsize⟩ := length_of_mem_chunksOf h
  refine ⟨hsome, fun hcap ↦ ?_⟩
  rw [if_neg (Nat.pos_iff_ne_zero.mp hcap)] at hsize
  exact hsize hcap

/-- Without a cap there is at most one batch. -/
theorem length_batches_zero (as : List NamedAggregate) : (batches 0 as).length ≤ 1 :=
  length_chunksOf_le_one (Nat.le_refl as.length)

/-- Batches of aggregates hold all of them, so some if there are any. -/
theorem flatten_batches_ne_nil {as : List AggregateExpr} (h : as ≠ []) (cap : Nat) :
    (batches cap (nameAggregates 0 as)).flatten ≠ [] := by
  intro hnil
  have hnamed : nameAggregates 0 as = [] := (flatten_chunksOf _ _).symm.trans hnil
  rw [← map_expr_nameAggregates 0 as, hnamed] at h
  exact h rfl

/-! ### Names -/

/-- The name of the aggregate in a position. -/
def aggregateName (position : Nat) : String := "m" ++ Number.natText position

/-- Aggregates are named in order. -/
theorem map_resultColumn_nameAggregates (position : Nat) (as : List AggregateExpr) :
    (nameAggregates position as).map NamedAggregate.resultColumn =
      (List.range' position (nameAggregates position as).length).map aggregateName := by
  induction as generalizing position with
  | nil => rfl
  | cons a rest ih =>
    rw [nameAggregates, List.map_cons, ih, List.length_cons, List.range'_succ, List.map_cons]
    rfl

/-- A name without its case. -/
def foldedName (name : String) : List Char := name.toList.map Text.foldAscii

private theorem foldAscii_of_isDigit {c : Char} (h : c.isDigit = true) : Text.foldAscii c = c := by
  unfold Text.foldAscii
  split
  · next hcapital =>
    simp only [Char.isDigit, Bool.and_eq_true, decide_eq_true_eq, Char.le_def] at h hcapital
    have hlow : 0x41 ≤ c.toNat := hcapital.1
    have hhigh : c.toNat ≤ 0x39 := h.2
    omega
  · rfl

/-- A small letter and digits stay as they are when case is folded. -/
private theorem foldedName_aggregateName (position : Nat) :
    foldedName (aggregateName position) = (aggregateName position).toList := by
  have hdigits : (Number.natText position).toList.map Text.foldAscii =
      (Number.natText position).toList := by
    unfold Number.natText
    rw [String.toList_ofList]
    refine (List.map_congr_left fun c hc ↦ ?_).trans (List.map_id' _)
    exact foldAscii_of_isDigit (Nat.isDigit_of_mem_toDigits (by decide) (by decide) hc)
  unfold foldedName aggregateName
  rw [String.toList_append, List.map_append, hdigits]
  rfl

/-- Names of different aggregates differ in more than case. -/
theorem foldedName_aggregateName_inj {i j : Nat}
    (h : foldedName (aggregateName i) = foldedName (aggregateName j)) : i = j := by
  rw [foldedName_aggregateName, foldedName_aggregateName, String.toList_inj] at h
  unfold aggregateName Number.natText at h
  rw [String.append_right_inj, String.ofList_inj] at h
  rw [← Nat.ofDigitChars_ten_toDigits (n := i), h, Nat.ofDigitChars_ten_toDigits]

/-- No two aggregates that are named in order have names that differ in case only. -/
theorem nodup_foldedName {as : List NamedAggregate}
    (h : as.map NamedAggregate.resultColumn = (List.range as.length).map aggregateName) :
    ((as.map NamedAggregate.resultColumn).map foldedName).Nodup := by
  rw [h, List.map_map]
  exact List.Nodup.map (fun _ _ ↦ foldedName_aggregateName_inj) List.nodup_range

/-! ### Reading a batch -/

/-- An answer with one row that holds the values of bindings in order. Each of its columns is called
as the binding in its position, in whichever case, or as none of them. -/
structure Rows.Holds (value : String → Value) (bs : List Binding) (rows : Rows) : Prop where
  row : rows.rows = [bs.map fun b ↦ value b.resultColumn]
  width : rows.columns.length = bs.length
  names : ∀ (i : Nat) (b : Binding) (name : String),
    bs[i]? = some b → rows.columns[i]? = some name →
      Text.eqFoldingAscii name b.resultColumn = true ∨
        ∀ c ∈ bs, Text.eqFoldingAscii name c.resultColumn = false

namespace Rows.Holds

variable {value : String → Value} {bs : List Binding} {rows : Rows} {i : Nat} {b : Binding}

/-- If no two bindings are called alike, a column that is called as one of them stands in its
position. -/
theorem index_eq (h : rows.Holds value bs)
    (hnames : ((bs.map Binding.resultColumn).map foldedName).Nodup) (hb : bs[i]? = some b)
    {j : Nat} (hfound : rows.columnIndex? b.resultColumn = some j) : j = i := by
  obtain ⟨hj, hnamed, _⟩ := List.findIdx?_eq_some_iff_getElem.mp hfound
  have hlt : j < bs.length := h.width ▸ hj
  -- The column is called as one of the bindings, so it is called as the one in its own position.
  have hown := (h.names j bs[j] rows.columns[j] (List.getElem?_eq_getElem hlt)
    (List.getElem?_eq_getElem hj)).resolve_right fun hnone ↦ by
      rw [hnone b (List.mem_of_getElem? hb)] at hnamed
      cases hnamed
  have hfolded : foldedName bs[j].resultColumn = foldedName b.resultColumn :=
    (beq_iff_eq.mp hown).symm.trans (beq_iff_eq.mp hnamed)
  refine (List.getElem?_inj (by simpa using hlt) hnames).mp ?_
  simp only [List.getElem?_map, hb, List.getElem?_eq_getElem hlt, Option.map_some, hfolded]

/-- If no two bindings are called alike, each reads its own cell, by name or by position. -/
theorem read (h : rows.Holds value bs)
    (hnames : ((bs.map Binding.resultColumn).map foldedName).Nodup)
    (hb : bs[i]? = some b) (hposition : b.position = some i) (range : Option BucketRange) :
    rows.read .singleRow range b = .ok ((value b.resultColumn).retyped true) := by
  have hindex : (rows.columnIndex? b.resultColumn).or b.position = some i := by
    cases hfound : rows.columnIndex? b.resultColumn with
    | none => exact hposition
    | some j => exact congrArg some (h.index_eq hnames hb hfound)
  unfold Rows.read cell
  rw [h.row]
  simp only [hindex, Option.bind_some, List.getElem?_map, hb, Option.map_some]
  rfl

end Rows.Holds

/-- One row of values under their names. -/
def Rows.named (value : String → Value) (names : List String) : Rows := ⟨names, [names.map value]⟩

/-- Values under the names of bindings are those of the bindings. -/
theorem Rows.holds_named (value : String → Value) (bs : List Binding) :
    (Rows.named value (bs.map Binding.resultColumn)).Holds value bs where
  row := by
    unfold named
    rw [List.map_map]
    rfl
  width := List.length_map _
  names := by
    intro i b name hb hname
    left
    change (bs.map Binding.resultColumn)[i]? = some name at hname
    rw [List.getElem?_map, hb, Option.map_some, Option.some.injEq] at hname
    rw [hname, Text.eqFoldingAscii_self]

/-- The binding of an aggregate stands where the aggregate does. -/
theorem getElem?_batchBindings (internal : MetricKey → Bool) (position : Nat)
    (batch : List NamedAggregate) (i : Nat) :
    (batchBindings internal position batch)[i]? = batch[i]?.map fun a ↦
      ⟨a.expr.key, a.resultColumn, some (position + i), internal a.expr.key⟩ := by
  induction batch generalizing position i with
  | nil => rfl
  | cons a rest ih =>
    cases i with
    | zero => rfl
    | succ i =>
      rw [batchBindings, List.getElem?_cons_succ, ih, List.getElem?_cons_succ, Nat.add_assoc,
        Nat.add_comm 1]

/-- A batch binds its aggregates by name. -/
theorem map_resultColumn_batchBindings (internal : MetricKey → Bool) (position : Nat)
    (batch : List NamedAggregate) :
    (batchBindings internal position batch).map Binding.resultColumn =
      batch.map NamedAggregate.resultColumn := by
  apply List.ext_getElem?
  intro i
  rw [List.getElem?_map, getElem?_batchBindings, List.getElem?_map, Option.map_map]
  rfl

/-- A batch binds each of its aggregates. -/
theorem length_batchBindings (internal : MetricKey → Bool) (position : Nat)
    (batch : List NamedAggregate) :
    (batchBindings internal position batch).length = batch.length := by
  simpa using congrArg List.length (map_resultColumn_batchBindings internal position batch)

/-- A group asks for the aggregates of a batch in one query, and binds each by name and position. -/
structure GroupSpec.Selects (source : QuerySource) (internal : MetricKey → Bool)
    (batch : List NamedAggregate) (g : GroupSpec) : Prop where
  query : g.query = .sql (batchQuery source batch)
  shape : g.shape = .singleRow
  bindings : g.bindings = batchBindings internal 0 batch

/-- The measurement of an aggregate with a value. -/
def NamedAggregate.measurement (internal : MetricKey → Bool) (value : String → Value)
    (a : NamedAggregate) : Measurement :=
  ⟨a.expr.key, .measured ((value a.resultColumn).retyped true), internal a.expr.key⟩

/-- A batch measures each of its aggregates, whatever the columns of the answer are called. -/
theorem GroupSpec.Selects.measure {source : QuerySource} {internal : MetricKey → Bool}
    {batch : List NamedAggregate} {g : GroupSpec} (h : g.Selects source internal batch)
    (hnames : ((batch.map NamedAggregate.resultColumn).map foldedName).Nodup)
    {value : String → Value} {rows : Rows} (hrows : rows.Holds value g.bindings)
    (range : Option BucketRange) :
    g.measure rows range = batch.map (NamedAggregate.measurement internal value) := by
  rw [← map_resultColumn_batchBindings internal 0 batch, ← h.bindings] at hnames
  unfold GroupSpec.measure
  rw [h.shape]
  apply List.ext_getElem?
  intro i
  rw [List.getElem?_map, List.getElem?_map, h.bindings, getElem?_batchBindings, Option.map_map]
  cases ha : batch[i]? with
  | none => rfl
  | some a =>
    have hb : g.bindings[i]? =
        some ⟨a.expr.key, a.resultColumn, some i, internal a.expr.key⟩ := by
      rw [h.bindings, getElem?_batchBindings, ha, Option.map_some, Nat.zero_add]
    have hread := hrows.read hnames hb rfl range
    rw [Nat.zero_add, Option.map_some, Option.map_some]
    change some (Binding.measure _ (rows.read .singleRow range _)) = _
    rw [hread]
    rfl

/-! ### Plans with and without a cap -/

/-- The aggregate groups of a plan ask for batches, one each. -/
def Plan.AsksFor (p : Plan) (source : QuerySource) (internal : MetricKey → Bool)
    (parts : List (List NamedAggregate)) : Prop :=
  List.Forall₂ (fun part g ↦ g.toGroupSpec.Selects source internal part) parts
    (p.groupsIn .aggregate)

/-- The groups of a plan that answer no aggregates, without their numbers. -/
def Plan.otherGroups (p : Plan) : List GroupSpec :=
  (p.groups.map QueryGroup.toGroupSpec).filter fun g ↦ g.phase ≠ .aggregate

/-- A plan `p'` that asks for the aggregates of a plan `p` in batches of at most `n`, or all at once
if `n` is zero. The batches together are the same aggregates, named in the same order, and nothing
else differs but the numbers of other groups. -/
structure Plan.Splits (n : Nat) (p p' : Plan) : Prop where
  table : p'.table = p.table
  columns : p'.columns = p.columns
  requests : p'.requests = p.requests
  derived : p'.derived = p.derived
  tests : p'.tests = p.tests
  issues : p'.issues = p.issues
  others : p'.otherGroups = p.otherGroups
  sizes : ∀ g ∈ p'.groupsIn .aggregate,
    1 ≤ g.bindings.length ∧ (0 < n → g.bindings.length ≤ n)
  whole : n = 0 → (p'.groupsIn .aggregate).length ≤ 1
  aggregates : ∃ (source : QuerySource) (internal : MetricKey → Bool)
    (named : List NamedAggregate) (parts parts' : List (List NamedAggregate)),
      named.map NamedAggregate.resultColumn = (List.range named.length).map aggregateName ∧
      p.AsksFor source internal parts ∧ parts.flatten = named ∧
      p'.AsksFor source internal parts' ∧ parts'.flatten = named

/-- The groups of a phase are those that are planned for it. -/
theorem Plan.map_toGroupSpec_groupsIn (p : Plan) (phase : Phase) :
    (p.groupsIn phase).map QueryGroup.toGroupSpec =
      (p.groups.map QueryGroup.toGroupSpec).filter fun g ↦ g.phase = phase := by
  unfold groupsIn
  rw [List.filter_map]
  rfl

/-- The groups of a later phase are those planned for it that answer no aggregates. -/
theorem Plan.map_toGroupSpec_groupsIn_of_ne (p : Plan) {phase : Phase} (h : phase ≠ .aggregate) :
    (p.groupsIn phase).map QueryGroup.toGroupSpec =
      p.otherGroups.filter fun g ↦ g.phase = phase := by
  rw [map_toGroupSpec_groupsIn, otherGroups, List.filter_filter]
  refine List.filter_congr fun g _ ↦ ?_
  by_cases hphase : g.phase = phase <;> simp [hphase, h]

/-- No aggregates take no group. -/
theorem aggregateGroups_nil (cap : Nat) (source : QuerySource) (internal : MetricKey → Bool) :
    aggregateGroups cap source internal [] = [] := by
  simp [aggregateGroups, batches, nameAggregates, chunksOf]

/-- Each aggregate group of a plan asks for one of its batches. -/
theorem Plan.AsksFor.exists_part {p : Plan} {source : QuerySource} {internal : MetricKey → Bool}
    {parts : List (List NamedAggregate)} (h : p.AsksFor source internal parts) {g : QueryGroup}
    (hg : g ∈ p.groupsIn .aggregate) :
    ∃ part ∈ parts, g.toGroupSpec.Selects source internal part := by
  obtain ⟨i, hi, rfl⟩ := List.getElem_of_mem hg
  exact ⟨parts.get ⟨i, h.length_eq ▸ hi⟩, List.get_mem _ _, h.get _ hi⟩

/-- Each aggregate group asks for its batch. -/
theorem forall₂_aggregateGroups (cap : Nat) (source : QuerySource) (internal : MetricKey → Bool)
    (as : List AggregateExpr) :
    List.Forall₂ (fun part g ↦ GroupSpec.Selects source internal part g)
      (batches cap (nameAggregates 0 as)) (aggregateGroups cap source internal as) := by
  have hparts : ∀ (total n : Nat) (parts : List (List NamedAggregate)),
      List.Forall₂ (fun part g ↦ GroupSpec.Selects source internal part g) parts
        ((parts.zipIdx n).map fun x ↦
          batchGroup source internal (batchLabel total x.2) x.1) := by
    intro total n parts
    induction parts generalizing n with
    | nil => exact .nil
    | cons part rest ih => exact .cons ⟨rfl, rfl, rfl⟩ (ih (n + 1))
  exact hparts _ 0 _

/-- A draft with another cap. -/
def Draft.capped (d : Draft) (n : Nat) : Draft := { d with cap := n }

namespace Draft

variable (d : Draft)

private theorem map_toGroupSpec_groups :
    d.plan.groups.map QueryGroup.toGroupSpec =
      aggregateGroups d.cap d.source (isInternal d.requests) (allAggregates d.requests d.planned) ++
        (d.planned.flatMap PlannedColumn.groups ++ d.customGroups) := by
  rw [plan_groups, map_toGroupSpec_numberGroups, catalogGroups, List.append_assoc]

private theorem phase_of_mem_others {g : GroupSpec}
    (h : g ∈ d.planned.flatMap PlannedColumn.groups ++ d.customGroups) : g.phase ≠ .aggregate := by
  rcases List.mem_append.mp h with hg | hg
  · obtain ⟨c, hc, hg⟩ := List.mem_flatMap.mp hg
    obtain ⟨column, _, rfl⟩ := List.mem_map.mp hc
    rw [phase_of_mem_planColumn hg]
    decide
  · rw [(phase_of_mem_customGroups hg).1]
    decide

/-- The first phase of a plan is for its aggregates. -/
theorem map_toGroupSpec_groupsIn_aggregate :
    (d.plan.groupsIn .aggregate).map QueryGroup.toGroupSpec =
      aggregateGroups d.cap d.source (isInternal d.requests)
        (allAggregates d.requests d.planned) := by
  rw [Plan.map_toGroupSpec_groupsIn, map_toGroupSpec_groups, List.filter_append,
    List.filter_eq_self.mpr fun g hg ↦ by simp [(phase_of_mem_aggregateGroups hg).1],
    List.filter_eq_nil_iff.mpr fun g hg ↦ by simpa using d.phase_of_mem_others hg,
    List.append_nil]

/-- The later phases of a plan are for its columns and custom queries. -/
theorem otherGroups_eq :
    d.plan.otherGroups = d.planned.flatMap PlannedColumn.groups ++ d.customGroups := by
  rw [Plan.otherGroups, map_toGroupSpec_groups, List.filter_append,
    List.filter_eq_nil_iff.mpr fun g hg ↦ by simp [(phase_of_mem_aggregateGroups hg).1],
    List.filter_eq_self.mpr fun g hg ↦ by simpa using d.phase_of_mem_others hg, List.nil_append]

/-- The aggregate groups of a plan ask for its batches. -/
theorem asksFor :
    d.plan.AsksFor d.source (isInternal d.requests)
      (batches d.cap (nameAggregates 0 (allAggregates d.requests d.planned))) := by
  unfold Plan.AsksFor
  rw [← List.forall₂_map_right_iff, map_toGroupSpec_groupsIn_aggregate]
  exact forall₂_aggregateGroups d.cap d.source _ _

/-- A cap splits the aggregates of a plan and changes nothing else. -/
theorem splits (n : Nat) : d.plan.Splits n (d.capped n).plan where
  table := rfl
  columns := rfl
  requests := rfl
  derived := rfl
  tests := rfl
  issues := rfl
  others := by
    rw [otherGroups_eq, otherGroups_eq]
    rfl
  sizes := by
    intro g hg
    obtain ⟨part, hpart, hselects⟩ := (d.capped n).asksFor.exists_part hg
    rw [hselects.bindings, length_batchBindings]
    exact length_of_mem_batches hpart
  whole := by
    rintro rfl
    rw [← (d.capped 0).asksFor.length_eq]
    exact length_batches_zero _
  aggregates := by
    refine ⟨d.source, isInternal d.requests, nameAggregates 0 (allAggregates d.requests d.planned),
      _, _, ?_, d.asksFor, flatten_chunksOf _ _, (d.capped n).asksFor, flatten_chunksOf _ _⟩
    rw [List.range_eq_range']
    exact map_resultColumn_nameAggregates 0 _

/-- Without aggregates a cap changes nothing. -/
theorem plan_of_no_aggregates (h : allAggregates d.requests d.planned = []) (n : Nat) :
    (d.capped n).plan = d.plan := by
  have hgroups : (d.capped n).plan.groups = d.plan.groups := by
    rw [plan_groups, plan_groups, catalogGroups, catalogGroups]
    change numberGroups 0 (aggregateGroups n _ _ (allAggregates d.requests d.planned) ++ _ ++ _) = _
    rw [h, aggregateGroups_nil, aggregateGroups_nil]
    rfl
  change d.plan.withGroups (d.capped n).plan.groups = d.plan
  rw [hgroups]
  rfl

end Draft

/-! ### Running both plans -/

/-- Every aggregate query of a plan is answered with the values of its bindings. -/
def Plan.Answered (p : Plan) (answer : String → Except ScanError Rows)
    (value : String → Value) : Prop :=
  ∀ g ∈ p.groupsIn .aggregate, ∀ sql, g.query = .sql sql →
    ∃ rows, answer sql = .ok rows ∧ rows.Holds value g.bindings

section

variable {w : Warehouse} {answer : String → Except ScanError Rows} {value : String → Value}
  {measured : MeasurementSet} {source : QuerySource} {internal : MetricKey → Bool}

/-- What groups measure does not depend on their numbers. -/
theorem flatMap_measurements_congr {gs hs : List QueryGroup}
    (h : gs.map QueryGroup.toGroupSpec = hs.map QueryGroup.toGroupSpec) :
    (gs.flatMap fun g ↦ (g.run w answer measured).measurements) =
      hs.flatMap fun g ↦ (g.run w answer measured).measurements := by
  -- A group measures what it would if its number were zero.
  have hzero : ∀ gs : List QueryGroup,
      (gs.flatMap fun g ↦ (g.run w answer measured).measurements) =
        (gs.map QueryGroup.toGroupSpec).flatMap fun g ↦
          ((⟨g, 0⟩ : QueryGroup).run w answer measured).measurements := by
    intro gs
    rw [List.flatMap_map]
    refine List.flatMap_congr fun g _ ↦ ?_
    unfold QueryGroup.run
    cases g.step w measured with
    | ask sql range =>
      change (g.answered sql range (answer sql)).measurements =
        ((⟨g.toGroupSpec, 0⟩ : QueryGroup).answered sql range (answer sql)).measurements
      cases answer sql <;> rfl
    | settle reading => rfl
  rw [hzero gs, hzero hs, h]

/-- A group that asks for a batch takes the answer to its query. -/
theorem GroupSpec.Selects.run {batch : List NamedAggregate} {g : QueryGroup}
    (h : g.toGroupSpec.Selects source internal batch) {rows : Rows}
    (hanswer : answer (batchQuery source batch) = .ok rows) :
    g.run w answer measured = g.answered (batchQuery source batch) none (.ok rows) := by
  have hstep : g.step w measured = .ask (batchQuery source batch) none := by
    unfold GroupSpec.step
    rw [h.query]
  unfold QueryGroup.run
  simp only [hstep, hanswer]

/-- To answer the query of each batch with the values of its names is to answer the aggregate
queries. -/
theorem Plan.AsksFor.answered {p : Plan} {parts : List (List NamedAggregate)}
    (h : p.AsksFor source internal parts)
    (hanswer : ∀ part ∈ parts, answer (batchQuery source part) =
      .ok (.named value (part.map NamedAggregate.resultColumn))) : p.Answered answer value := by
  intro g hg sql hsql
  obtain ⟨part, hpart, hselects⟩ := h.exists_part hg
  rw [hselects.query] at hsql
  cases hsql
  refine ⟨_, hanswer part hpart, ?_⟩
  rw [← map_resultColumn_batchBindings internal 0 part, ← hselects.bindings]
  exact Rows.holds_named value g.bindings

/-- All batches of a plan together measure its aggregates in order. -/
theorem Plan.AsksFor.measurements {p : Plan} {parts : List (List NamedAggregate)}
    (h : p.AsksFor source internal parts) (hanswered : p.Answered answer value)
    (hnames : ((parts.flatten.map NamedAggregate.resultColumn).map foldedName).Nodup) :
    ((p.groupsIn .aggregate).flatMap fun g ↦ (g.run w answer measured).measurements) =
      parts.flatten.map (NamedAggregate.measurement internal value) := by
  unfold Answered at hanswered
  unfold AsksFor at h
  generalize p.groupsIn .aggregate = gs at h hanswered ⊢
  induction h with
  | nil => rfl
  | @cons part g _ _ hselects _ ih =>
    rw [List.flatten_cons, List.map_append, List.map_append] at hnames
    obtain ⟨hfirst, hrest⟩ := List.forall_mem_cons.mp hanswered
    obtain ⟨rows, hanswer, hrows⟩ := hfirst _ hselects.query
    rw [List.flatMap_cons, ih hnames.of_append_right hrest, hselects.run hanswer,
      List.flatten_cons, List.map_append]
    exact congrArg (· ++ _) (hselects.measure hnames.of_append_left hrows none)

/-- A plan that is split measures in each phase what the whole one does. -/
theorem Plan.Splits.measurements {n : Nat} {p p' : Plan} (h : p.Splits n p')
    (hanswered : p.Answered answer value) (hanswered' : p'.Answered answer value) (phase : Phase) :
    ((p'.groupsIn phase).flatMap fun g ↦ (g.run w answer measured).measurements) =
      (p.groupsIn phase).flatMap fun g ↦ (g.run w answer measured).measurements := by
  by_cases hphase : phase = .aggregate
  · subst hphase
    obtain ⟨source, internal, named, parts, parts', hnamed, hparts, hall, hparts', hall'⟩ :=
      h.aggregates
    have hnames := nodup_foldedName hnamed
    rw [hparts.measurements hanswered (hall.symm ▸ hnames),
      hparts'.measurements hanswered' (hall'.symm ▸ hnames), hall, hall']
  · refine flatMap_measurements_congr ?_
    rw [Plan.map_toGroupSpec_groupsIn_of_ne p' hphase, Plan.map_toGroupSpec_groupsIn_of_ne p hphase,
      h.others]

/-- Plans that measure the same in each phase come to the same ledger. -/
theorem Run.ledger_takePhases_congr {p p' : Plan}
    (h : ∀ (phase : Phase) (measured : MeasurementSet),
      ((p'.groupsIn phase).flatMap fun g ↦ (g.run w answer measured).measurements) =
        (p.groupsIn phase).flatMap fun g ↦ (g.run w answer measured).measurements)
    {r r' : Run} (hstart : r'.ledger = r.ledger) (phases : List Phase) :
    (r'.takePhases (.ofAnswers answer) w p' phases).ledger =
      (r.takePhases (.ofAnswers answer) w p phases).ledger := by
  induction phases generalizing r r' with
  | nil => exact hstart
  | cons phase rest ih =>
    refine ih ?_
    rw [Run.ledger_takeAll_ofAnswers, Run.ledger_takeAll_ofAnswers, hstart, h]

/-- When there are aggregates and their queries are answered, the connection is not lost before a
query succeeded. -/
theorem Plan.AsksFor.firstLoss?_turnsOf {p : Plan} {parts : List (List NamedAggregate)}
    (h : p.AsksFor source internal parts) (hanswered : p.Answered answer value)
    (hsome : parts.flatten ≠ []) (scan : Scan) :
    firstLoss? false (scan.turnsOf (.ofAnswers answer) p) = none := by
  obtain ⟨part, rest, rfl⟩ : ∃ part rest, parts = part :: rest :=
    List.exists_cons_of_ne_nil fun hnil ↦ hsome (by rw [hnil, List.flatten_nil])
  obtain ⟨g, gs, hselects, _, hgroups⟩ := List.forall₂_cons_left_iff.mp h
  obtain ⟨rows, hanswer, _⟩ := hanswered g (hgroups ▸ List.mem_cons_self) _ hselects.query
  obtain ⟨ts, hrun, _⟩ := Run.exists_takePhases (.ofAnswers answer) scan.dialect p
    ((scan.begun p).takeAll (.ofAnswers answer) scan.dialect (p.groupsIn .aggregate))
    [.distribution, .custom]
  have hturns : scan.turnsOf (.ofAnswers answer) p = (Session.ofAnswers answer).allTurns
      scan.dialect (scan.begun p).ledger.measurements (scan.begun p).asked (g :: gs) ++ ts := by
    rw [← hgroups]
    exact congrArg Run.turns hrun
  rw [hturns, Session.allTurns_ofAnswers, List.map_cons, List.cons_append]
  refine firstLoss?_cons_of_succeeded ?_ _
  rw [hselects.run hanswer]
  rfl

end

/-! ### Results -/

/-- A result without the list of queries that were asked. -/
def ScanResult.untimed (r : ScanResult) : ScanResult := { r with timings := [] }

namespace Scan

variable {scan : Scan} {answer : String → Except ScanError Rows} {value : String → Value}

/-- A scan records the same in two plans, and has the same result but for the queries it asked. -/
structure SameRecords (scan : Scan) (s : Session) (p p' : Plan) : Prop where
  ledger : (scan.runPlan s p').ledger = (scan.runPlan s p).ledger
  result : (scan.execute s p').2.map ScanResult.untimed =
    (scan.execute s p).2.map ScanResult.untimed

/-- A plan whose aggregates are split records what the whole one does. -/
theorem sameRecords_of_splits {n : Nat} {p p' : Plan} (h : p.Splits n p')
    (hfresh : scan.stage = .initialized) (hanswered : p.Answered answer value)
    (hanswered' : p'.Answered answer value)
    (hkept : firstLoss? false (scan.turnsOf (.ofAnswers answer) p) = none)
    (hkept' : firstLoss? false (scan.turnsOf (.ofAnswers answer) p') = none) :
    scan.SameRecords (.ofAnswers answer) p p' := by
  have hbegun : (scan.begun p').ledger = (scan.begun p).ledger := by
    unfold begun
    rw [h.columns]
  have hledger : (scan.runPlan (.ofAnswers answer) p').ledger =
      (scan.runPlan (.ofAnswers answer) p).ledger := by
    rw [runPlan_of_lost? ((lost?_runPlan _ _ _).trans hkept),
      runPlan_of_lost? ((lost?_runPlan _ _ _).trans hkept')]
    exact Run.ledger_takePhases_congr (fun phase _ ↦ h.measurements hanswered hanswered' phase)
      hbegun Phase.all
  refine ⟨hledger, ?_⟩
  obtain ⟨result, hresult⟩ := exists_result_of_kept hfresh hkept
  obtain ⟨result', hresult'⟩ := exists_result_of_kept hfresh hkept'
  rw [hresult, hresult', (of_execute hresult).2, (of_execute hresult').2]
  change Except.ok _ = Except.ok _
  unfold report ScanResult.untimed
  rw [hledger, h.derived, h.tests, h.issues, cancelled_runPlan rfl (of_execute hresult).1,
    cancelled_runPlan rfl (of_execute hresult').1]

end Scan

/-- How many aggregates fit into one query decides nothing but the queries: a plan for another cap
differs in its batches only, and whenever the warehouse answers the aggregate queries of both plans
with the values of their own aggregates, a scan records the same in both. -/
theorem ScanConfiguration.same_records_for_every_cap {w : Warehouse} {cap : Nat}
    {config : ScanConfiguration} {columns : List TableColumn} {p : Plan}
    (hplan : config.plan w cap columns = .ok p) (n : Nat) :
    ∃ p', config.plan w n columns = .ok p' ∧ p.Splits n p' ∧
      ∀ (scan : Scan) (answer : String → Except ScanError Rows) (value : String → Value),
        scan.stage = .initialized → p.Answered answer value → p'.Answered answer value →
          scan.SameRecords (.ofAnswers answer) p p' := by
  obtain ⟨hknown, source, hsource, rfl⟩ := plan_eq_ok_iff.mp hplan
  let d : Draft := ⟨w, cap, config, columns, source⟩
  refine ⟨(d.capped n).plan, plan_eq_ok_iff.mpr ⟨hknown, source, hsource, rfl⟩, d.splits n, ?_⟩
  intro scan answer value hfresh hanswered hanswered'
  by_cases hnone : allAggregates d.requests d.planned = []
  · rw [d.plan_of_no_aggregates hnone n]
    exact ⟨rfl, rfl⟩
  · have hsome := flatten_batches_ne_nil hnone
    exact Scan.sameRecords_of_splits (d.splits n) hfresh hanswered hanswered'
      (d.asksFor.firstLoss?_turnsOf hanswered (hsome cap) scan)
      ((d.capped n).asksFor.firstLoss?_turnsOf hanswered' (hsome n) scan)

/-- A configuration that asks how many orders there are and how long their texts are. -/
def lengthsConfiguration : ScanConfiguration :=
  { ScanConfiguration.ofTable "orders" with metrics := ["row_count", "avg_length"] }

/-- A table of orders with a text. -/
def lengthsColumns : List TableColumn := [⟨"status", "text", false⟩]

/-- Three orders, whose texts have five letters each. -/
def lengthsValue (name : String) : Value := .int (if name = "m0" then 3 else 5)

/-- Both numbers. -/
def lengthsAggregates : List AggregateExpr :=
  [⟨.ofTable "row_count", "COUNT(*)"⟩,
    ⟨.ofColumn "status" "avg_length", "CAST(AVG(CASE WHEN NOT \"status\" IS NULL THEN " ++
      "LENGTH(\"status\") END) AS DOUBLE PRECISION)"⟩]

/-- The plan asks for both numbers in batches. -/
theorem asksFor_lengths {cap : Nat} {p : Plan}
    (h : lengthsConfiguration.plan .postgreSQL cap lengthsColumns = .ok p) :
    ∃ internal, p.AsksFor ⟨"\"orders\"", none⟩ internal
      (batches cap (nameAggregates 0 lengthsAggregates)) := by
  obtain ⟨_, source, hsource, rfl⟩ := ScanConfiguration.plan_eq_ok_iff.mp h
  cases hsource
  let d : Draft := ⟨.postgreSQL, cap, lengthsConfiguration, lengthsColumns, ⟨"\"orders\"", none⟩⟩
  have haggregates : allAggregates d.requests d.planned = lengthsAggregates := by cbv
  refine ⟨isInternal d.requests, ?_⟩
  rw [← haggregates]
  exact d.asksFor

/-- The answers to a query for both numbers and to a query for each. -/
def lengthsAnswer (sql : String) : Except ScanError Rows :=
  .ok (.named lengthsValue (
    if sql = batchQuery ⟨"\"orders\"", none⟩ (nameAggregates 0 lengthsAggregates) then ["m0", "m1"]
    else if sql = "SELECT\n  COUNT(*) AS m0\nFROM \"orders\"" then ["m0"]
    else ["m1"]))

/-- Both numbers of the table of orders are recorded alike, asked for at once or one by one. -/
theorem lengthsConfiguration_same_records_for_every_cap :
    let scan := Scan.ofConfiguration .postgreSQL lengthsConfiguration
    ∃ p p', lengthsConfiguration.plan .postgreSQL 0 lengthsColumns = .ok p ∧
      lengthsConfiguration.plan .postgreSQL 1 lengthsColumns = .ok p' ∧ p.Splits 1 p' ∧
      (p.groupsIn .aggregate).length = 1 ∧ (p'.groupsIn .aggregate).length = 2 ∧
      scan.stage = .initialized ∧ p.Answered lengthsAnswer lengthsValue ∧
      p'.Answered lengthsAnswer lengthsValue ∧
      scan.SameRecords (.ofAnswers lengthsAnswer) p p' := by
  intro scan
  obtain ⟨p, hplan⟩ : ∃ p, lengthsConfiguration.plan .postgreSQL 0 lengthsColumns = .ok p :=
    ScanConfiguration.exists_plan (by decide) rfl
  obtain ⟨p', hplan', hsplits, hsame⟩ := ScanConfiguration.same_records_for_every_cap hplan 1
  obtain ⟨internal, hparts⟩ := asksFor_lengths hplan
  obtain ⟨internal', hparts'⟩ := asksFor_lengths hplan'
  have hwhole : batches 0 (nameAggregates 0 lengthsAggregates) =
      [nameAggregates 0 lengthsAggregates] := by cbv
  have hsplit : batches 1 (nameAggregates 0 lengthsAggregates) =
      (nameAggregates 0 lengthsAggregates).map fun a ↦ [a] := by cbv
  rw [hwhole] at hparts
  rw [hsplit] at hparts'
  have hanswered : p.Answered lengthsAnswer lengthsValue :=
    hparts.answered (by simp only [List.forall_mem_singleton]; rfl)
  have hanswered' : p'.Answered lengthsAnswer lengthsValue :=
    hparts'.answered (List.forall_mem_cons.mpr ⟨rfl, List.forall_mem_singleton.mpr rfl⟩)
  exact ⟨p, p', hplan, hplan', hsplits, hparts.length_eq.symm, hparts'.length_eq.symm, rfl,
    hanswered, hanswered', hsame scan lengthsAnswer lengthsValue rfl hanswered hanswered'⟩

end DataQuality
