import DataQuality.Document.Scan
import DataQuality.Proofs.KeyedLists

/-!
# Decoding what was written

A decoder gets a value from every node that says the JSON value it is written as. For records it is
enough to go through the fields in order and to say what each of them adds.
-/

namespace DataQuality

variable {P α β σ : Type}

/-! ### Nodes that say a value -/

namespace Node

/-- A node that says what a leaf does is the leaf. -/
theorem exists_leaf_of_toJson? {n : Node P} {l : Leaf} {v : Json} (hl : jsonOfLeaf? l = some v)
    (h : n.toJson? = some v) : ∃ e, n = .leaf e l := by
  cases n with
  | leaf e k =>
    refine ⟨e, congrArg (Node.leaf e) ?_⟩
    rw [toJson?, ← hl] at h
    cases l <;> cases k <;> cases h <;> first | rfl | cases hl
  | list e items =>
    obtain ⟨vs, -, rfl⟩ := Option.map_eq_some_iff.mp h
    cases l <;> cases hl
  | record e members =>
    obtain ⟨ms, -, rfl⟩ := Option.map_eq_some_iff.mp h
    cases l <;> cases hl
  | broken f => cases h

theorem exists_of_toJson?_list {n : Node P} {vs : List Json} (h : n.toJson? = some (.list vs)) :
    ∃ e items, n = .list e items ∧ toItems? items = some vs := by
  cases n with
  | leaf e l => cases l <;> cases h
  | list e items =>
    obtain ⟨ws, hws, heq⟩ := Option.map_eq_some_iff.mp h
    exact ⟨e, items, rfl, Json.list.inj heq ▸ hws⟩
  | record e members =>
    obtain ⟨ms, -, heq⟩ := Option.map_eq_some_iff.mp h
    cases heq
  | broken f => cases h

theorem exists_of_toJson?_object {n : Node P} {ms : List (String × Json)}
    (h : n.toJson? = some (.object ms)) :
    ∃ e members, n = .record e members ∧ toMembers? members = some ms := by
  cases n with
  | leaf e l => cases l <;> cases h
  | list e items =>
    obtain ⟨ws, -, heq⟩ := Option.map_eq_some_iff.mp h
    cases heq
  | record e members =>
    obtain ⟨ws, hws, heq⟩ := Option.map_eq_some_iff.mp h
    exact ⟨e, members, rfl, Json.object.inj heq ▸ hws⟩
  | broken f => cases h

theorem exists_of_toItems?_cons {items : List (Node P)} {v : Json} {vs : List Json}
    (h : toItems? items = some (v :: vs)) :
    ∃ item rest, items = item :: rest ∧ item.toJson? = some v ∧ toItems? rest = some vs := by
  cases items with
  | nil => cases h
  | cons item rest =>
    obtain ⟨w, hw, hrest⟩ := Option.bind_eq_some_iff.mp h
    obtain ⟨ws, hws, heq⟩ := Option.map_eq_some_iff.mp hrest
    obtain ⟨rfl, rfl⟩ := List.cons.inj heq
    exact ⟨item, rest, rfl, hw, hws⟩

theorem eq_nil_of_toItems? {items : List (Node P)} (h : toItems? items = some []) : items = [] := by
  cases items with
  | nil => rfl
  | cons item rest =>
    obtain ⟨w, -, hrest⟩ := Option.bind_eq_some_iff.mp h
    obtain ⟨ws, -, heq⟩ := Option.map_eq_some_iff.mp hrest
    cases heq

theorem exists_of_toMembers?_cons {members : List (Node P × Node P)} {name : String} {v : Json}
    {ms : List (String × Json)} (h : toMembers? members = some ((name, v) :: ms)) :
    ∃ e value rest, members = (.leaf e (.text name), value) :: rest ∧ value.toJson? = some v ∧
      toMembers? rest = some ms := by
  unfold toMembers? at h
  split at h
  · cases h
  · obtain ⟨w, hw, hrest⟩ := Option.bind_eq_some_iff.mp h
    obtain ⟨ws, hws, heq⟩ := Option.map_eq_some_iff.mp hrest
    cases heq
    exact ⟨_, _, _, rfl, hw, hws⟩
  · cases h

theorem eq_nil_of_toMembers? {members : List (Node P × Node P)} (h : toMembers? members = some []) :
    members = [] := by
  unfold toMembers? at h
  split at h
  · rfl
  · obtain ⟨w, -, hrest⟩ := Option.bind_eq_some_iff.mp h
    obtain ⟨ws, -, heq⟩ := Option.map_eq_some_iff.mp hrest
    cases heq
  · cases h

end Node

/-! ### Values -/

/-- Whether a decoder gets a value from all nodes that say the given JSON value. -/
def Decodes (d : Decoder P α) (v : Json) (a : α) : Prop := ∀ n, n.toJson? = some v → d n = .ok a

namespace Decodes

theorem text (s : String) : Decodes (P := P) .text (.text s) s := by
  intro n h
  obtain ⟨e, rfl⟩ := Node.exists_leaf_of_toJson? (l := .text s) rfl h
  rfl

theorem float (x : Float) : Decodes (P := P) .float (.float x) x := by
  intro n h
  obtain ⟨e, rfl⟩ := Node.exists_leaf_of_toJson? (l := .float x) rfl h
  rfl

theorem word32 (n : UInt32) : Decodes (P := P) .word32 (.ofNat n.toNat) n := by
  intro node h
  obtain ⟨e, rfl⟩ := Node.exists_leaf_of_toJson? (l := .int n.toNat) rfl h
  have hlt : (n.toNat : Int) < UInt32.size := by exact_mod_cast n.toNat_lt
  simp only [Decoder.word32, Leaf.asCount?]
  rw [if_pos ⟨Int.natCast_nonneg _, hlt⟩, Int.toNat_natCast, UInt32.ofNat_toNat]

theorem literal (l : Literal) : Decodes (P := P) Literal.decode l.toJson l := by
  intro n h
  cases l with
  | int i =>
    obtain ⟨e, rfl⟩ := Node.exists_leaf_of_toJson? (l := .int i.toInt) rfl h
    have hfits : Literal.fitsInt64 i.toInt = true := by
      have hmin := i.le_toInt
      have hmax := i.toInt_lt
      have hrange : Number.minInt64 ≤ i.toInt ∧ i.toInt ≤ Number.maxInt64 := by
        simp only [Number.minInt64, Number.maxInt64, Nat.pow_eq]
        omega
      simpa [Literal.fitsInt64] using hrange
    have hfound : Literal.ofFound? (.integer i.toInt) = some (.int i) := by
      rw [Literal.ofFound?, if_pos hfits, Int64.ofInt_toInt]
    simp [Literal.decode, Node.fault?, Literal.hasLocalTag, Literal.ofNode, Node.found, Leaf.found,
      hfound]
  | float x =>
    obtain ⟨e, rfl⟩ := Node.exists_leaf_of_toJson? (l := .float x) rfl h
    rfl
  | text s =>
    obtain ⟨e, rfl⟩ := Node.exists_leaf_of_toJson? (l := .text s) rfl h
    rfl

/-- An optional value that is there. -/
theorem optional {d : Decoder P α} {v : Json} {a : α} (h : Decodes d v a) (hv : v ≠ .null) :
    Decodes (.optional d) v (some a) := by
  intro n hn
  have hmap : (d n).map some = .ok (some a) := by rw [h n hn]; rfl
  unfold Decoder.optional
  split
  · next e l =>
    have habsent : l.isAbsent = .ok false := by
      cases l <;> first | rfl | exact absurd (Option.some.inj hn).symm hv | cases hn
    rw [habsent]
    exact hmap
  · exact hmap

theorem oneOf {choices : List (String × α)} {name : String} {a : α}
    (h : choices.lookup name = some a) : Decodes (P := P) (.oneOf choices) (.text name) a := by
  intro n hn
  obtain ⟨e, rfl⟩ := Node.exists_leaf_of_toJson? (l := .text name) rfl hn
  simp [Decoder.oneOf, Decoder.choice, h]

theorem items {d : Decoder P α} {f : α → Json} {as : List α} (h : ∀ a ∈ as, Decodes d (f a) a)
    (e : Extent P) (index : Nat) {nodes : List (Node P)}
    (hnodes : Node.toItems? nodes = some (as.map f)) : Decoder.items d e index nodes = .ok as := by
  induction as generalizing nodes index with
  | nil =>
    obtain rfl := Node.eq_nil_of_toItems? hnodes
    rfl
  | cons a as ih =>
    obtain ⟨ha, has⟩ := List.forall_mem_cons.mp h
    obtain ⟨node, rest, rfl, hnode, hrest⟩ := Node.exists_of_toItems?_cons hnodes
    rw [Decoder.items, ha node hnode, ih has (index + 1) hrest]
    rfl

theorem list {d : Decoder P α} {f : α → Json} {as : List α} (h : ∀ a ∈ as, Decodes d (f a) a) :
    Decodes (.list d) (.list (as.map f)) as := by
  intro n hn
  obtain ⟨e, nodes, rfl, hnodes⟩ := Node.exists_of_toJson?_list hn
  exact items h e 0 hnodes

end Decodes

/-! ### Records -/

/-- Whether a field takes a member to a further record, or is left out and may be. -/
inductive Field.Takes (f : Field P σ) (s : σ) : Option Json → σ → Prop where
  | given {v : Json} {t : σ} (h : Decodes (f.decode s) v t) : f.Takes s (some v) t
  | omitted (h : f.required = false) : f.Takes s none s

/-- Whether fields take members one after the other, each the one with its name. -/
inductive TakeInOrder : List (Field P σ) → σ → List (String × Option Json) → σ → Prop where
  | nil {s : σ} : TakeInOrder [] s [] s
  | cons {f : Field P σ} {fields : List (Field P σ)} {s t u : σ} {o : Option Json}
      {table : List (String × Option Json)} (h : f.Takes s o t)
      (hrest : TakeInOrder fields t table u) : TakeInOrder (f :: fields) s ((f.name, o) :: table) u

namespace Field.Takes

theorem free {name : String} {d : Decoder P α} {put : σ → α → σ} {s : σ} {v : Json} {a : α}
    (h : Decodes d v a) : (Field.free name d put).Takes s (some v) (put s a) := by
  refine .given fun n hn ↦ ?_
  show (d n).map (put s) = _
  rw [h n hn]
  rfl

theorem needed {name : String} {d : Decoder P α} {put : σ → α → σ} {s : σ} {v : Json} {a : α}
    (h : Decodes d v a) : (Field.needed name d put).Takes s (some v) (put s a) := by
  refine .given fun n hn ↦ ?_
  show (d n).map (put s) = _
  rw [h n hn]
  rfl

/-- A field that may be left out, where the value is none to begin with. -/
theorem optional {name : String} {d : Decoder P α} {put : σ → Option α → σ} {s : σ}
    {f : α → Json} {o : Option α} (hput : put s none = s) (hnull : ∀ a, f a ≠ .null)
    (h : ∀ a ∈ o, Decodes d (f a) a) :
    (Field.free name (.optional d) put).Takes s (o.map f) (put s o) := by
  cases o with
  | none =>
    rw [hput]
    exact .omitted rfl
  | some a => exact free ((h a rfl).optional (hnull a))

end Field.Takes

namespace RecordForm

variable {k : RecordForm P σ}

/-- Members that a field takes are decoded by this field. -/
theorem find?_field {f : Field P σ} (hnodup : (k.fields.map Field.name).Nodup)
    (hf : f ∈ k.fields) : k.fields.find? (fun g ↦ g.name == f.name) = some f :=
  find?_key_of_mem hnodup hf

theorem decodeMembers_of_takeInOrder {fields : List (Field P σ)} {s u : σ}
    {table : List (String × Option Json)} (h : TakeInOrder fields s table u)
    (hnodup : (k.fields.map Field.name).Nodup) (hfields : ∀ f ∈ fields, f ∈ k.fields)
    (hapart : (fields.map Field.name).Nodup) (e : Extent P) {seen : List String}
    (hseen : ∀ f ∈ fields, f.name ∉ seen) {members : List (Node P × Node P)}
    (hmembers : Node.toMembers? members = some (givenMembers table)) :
    ∃ names, k.decodeMembers e seen s members = .ok (u, names) ∧ (∀ name ∈ seen, name ∈ names) ∧
      ∀ f ∈ fields, f.required = true → f.name ∈ names := by
  induction h generalizing seen members with
  | nil =>
    obtain rfl := Node.eq_nil_of_toMembers? hmembers
    exact ⟨seen, rfl, fun _ h ↦ h, List.forall_mem_nil _⟩
  | @cons f fields s t u o table htakes hrest ih =>
    obtain ⟨hf, hfields⟩ := List.forall_mem_cons.mp hfields
    obtain ⟨hfresh, hseen⟩ := List.forall_mem_cons.mp hseen
    obtain ⟨hnotMem, hapart⟩ := List.nodup_cons.mp hapart
    cases htakes with
    | omitted hrequired =>
      obtain ⟨names, hdecode, hsub, hnames⟩ := ih hfields hapart hseen hmembers
      refine ⟨names, hdecode, hsub, List.forall_mem_cons.mpr ⟨fun h ↦ ?_, hnames⟩⟩
      rw [hrequired] at h
      cases h
    | given hdecodes =>
      obtain ⟨place, value, rest, rfl, hvalue, hmembers⟩ :=
        Node.exists_of_toMembers?_cons hmembers
      have hseen' : ∀ g ∈ fields, g.name ∉ f.name :: seen := fun g hg hmem ↦
        (List.mem_cons.mp hmem).elim (fun heq ↦ hnotMem (heq ▸ List.mem_map_of_mem hg)) (hseen g hg)
      obtain ⟨names, hdecode, hsub, hnames⟩ := ih hfields hapart hseen' hmembers
      refine ⟨names, ?_, fun name h ↦ hsub name (.tail _ h),
        List.forall_mem_cons.mpr ⟨fun _ ↦ hsub _ (.head _), hnames⟩⟩
      have hcontains : seen.contains f.name = false := by simpa using hfresh
      rw [decodeMembers]
      simp only [Node.asText, Leaf.asText?, Except.bind, find?_field hnodup hf, hcontains,
        hdecodes value hvalue, Except.mapError]
      exact hdecode

/-- A record is decoded from its members in the order of the fields. -/
theorem decodes_of_takeInOrder {u : σ} {table : List (String × Option Json)}
    (hnodup : (k.fields.map Field.name).Nodup) (h : TakeInOrder k.fields k.blank table u)
    (positional : Bool) : Decodes (k.decode positional) (.object (givenMembers table)) u := by
  intro n hn
  obtain ⟨e, members, rfl, hmembers⟩ := Node.exists_of_toJson?_object hn
  obtain ⟨names, hdecode, -, hnames⟩ := decodeMembers_of_takeInOrder h hnodup (fun _ h ↦ h) hnodup e
    (fun _ _ ↦ List.not_mem_nil) hmembers
  have hcomplete : (k.fields.find? fun f ↦ f.required && !names.contains f.name) = none := by
    refine List.find?_eq_none.mpr fun f hf hmissing ↦ ?_
    obtain ⟨hrequired, habsent⟩ : f.required = true ∧ f.name ∉ names := by simpa using hmissing
    exact habsent (hnames f hf hrequired)
  show k.ofMembers e members = _
  rw [ofMembers, hdecode]
  simp only [Except.bind, hcomplete]

end RecordForm

end DataQuality
