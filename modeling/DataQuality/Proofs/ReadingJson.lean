import DataQuality.Proofs.JsonLeaves

/-!
# Reading written JSON

A JSON value that is written out reads back as itself, however its lines are broken, if its floats
are recovered from what they are written as, its integers fit 64 bits and its collections do not
nest too deep.
-/

namespace DataQuality.Json

open Text (Reads)

/-! ### Blanks -/

section

variable {cs ds rest : List Char} {c : Char}

theorem skipBlanks_append (h : ∀ c ∈ ds, isBlank c = true) :
    skipBlanks (ds ++ cs) = skipBlanks cs := List.dropWhile_append_of_pos h

theorem skipBlanks_cons (h : isBlank c = false) : skipBlanks (c :: cs) = c :: cs :=
  List.dropWhile_cons_of_neg (by rw [h]; decide)

theorem isBlank_of_mem_line {count : Nat}
    (h : c ∈ ("\n" ++ String.ofList (List.replicate count ' ')).toList) : isBlank c = true := by
  simp only [String.toList_append, String.toList_ofList, List.mem_append, List.mem_replicate] at h
  rcases h with h | ⟨-, rfl⟩
  · obtain rfl : c = '\n' := by simpa using h
    rfl
  · rfl

theorem skipBlanks_inner (layout : Layout) :
    skipBlanks (layout.inner.toList ++ cs) = skipBlanks cs := by
  cases layout with
  | compact => rfl
  | indented level => exact skipBlanks_append fun c ↦ isBlank_of_mem_line

theorem skipBlanks_outer (layout : Layout) :
    skipBlanks (layout.outer.toList ++ cs) = skipBlanks cs := by
  cases layout with
  | compact => rfl
  | indented level => exact skipBlanks_append fun c ↦ isBlank_of_mem_line

/-! ### What comes next -/

theorem nextItem_finish (h : skipBlanks cs = ']' :: rest) (first : Bool) :
    ∃ hlt, nextItem first cs = .finish ⟨rest, hlt⟩ := by
  refine ⟨length_skip_lt h, ?_⟩
  unfold nextItem
  split
  · next heq => cases heq.symm.trans h
  · next heq =>
    cases heq.symm.trans h
    rfl
  · next hne heq => exact absurd (List.cons.inj (heq.symm.trans h)).1 hne

theorem nextItem_first (h : skipBlanks cs = c :: ds) (hc : c ≠ ']') :
    ∃ hle, nextItem true cs = .more ⟨cs, hle⟩ := by
  refine ⟨Nat.le_refl _, ?_⟩
  unfold nextItem
  split
  · next heq => cases heq.symm.trans h
  · next heq =>
    cases heq.symm.trans h
    exact absurd rfl hc
  · rfl

theorem nextItem_more (h : skipBlanks cs = ',' :: ds) (hds : skipBlanks ds = c :: rest)
    (hc : c ≠ ']') : ∃ hle, nextItem false cs = .more ⟨ds, hle⟩ := by
  refine ⟨Nat.le_of_lt (length_skip_lt h), ?_⟩
  unfold nextItem
  split
  · next heq => cases heq.symm.trans h
  · next heq => cases heq.symm.trans h
  · next heq =>
    cases heq.symm.trans h
    rw [if_neg (by decide), if_pos rfl]
    split
    · next hnil => cases hnil.symm.trans hds
    · next hend =>
      cases hend.symm.trans hds
      exact absurd rfl hc
    · rfl

theorem nextMember_finish (h : skipBlanks cs = '\x7d' :: rest) (first : Bool) :
    ∃ hlt, nextMember first cs = .finish ⟨rest, hlt⟩ := by
  refine ⟨length_skip_lt h, ?_⟩
  unfold nextMember
  split
  · next heq => cases heq.symm.trans h
  · next heq =>
    cases heq.symm.trans h
    rfl
  · next hne heq => exact absurd (List.cons.inj (heq.symm.trans h)).1 hne

theorem nextMember_first (h : skipBlanks cs = '"' :: ds) :
    ∃ hle, nextMember true cs = .more ⟨'"' :: ds, hle⟩ := by
  refine ⟨h ▸ length_skipBlanks_le cs, ?_⟩
  unfold nextMember
  split
  · next heq => cases heq.symm.trans h
  · next heq => cases heq.symm.trans h
  · next heq =>
    cases heq.symm.trans h
    rw [if_pos rfl, if_pos rfl]

theorem nextMember_more (h : skipBlanks cs = ',' :: ds) (hds : skipBlanks ds = '"' :: rest) :
    ∃ hle, nextMember false cs = .more ⟨'"' :: rest, hle⟩ := by
  refine ⟨(hds ▸ length_skipBlanks_le ds).trans (Nat.le_of_lt (length_skip_lt h)), ?_⟩
  unfold nextMember
  split
  · next heq => cases heq.symm.trans h
  · next heq => cases heq.symm.trans h
  · next heq =>
    cases heq.symm.trans h
    rw [if_neg (by decide), if_pos rfl]
    split
    · next hnil => cases hnil.symm.trans hds
    · next hend => cases hend.symm.trans hds
    · next hquote =>
      cases hquote.symm.trans hds
      rw [if_pos rfl]

theorem readColon_of_skip (h : skipBlanks cs = ':' :: rest) :
    ∃ hlt, readColon cs = .ok ⟨rest, hlt⟩ := by
  refine ⟨length_skip_lt h, ?_⟩
  unfold readColon
  split
  · next heq => cases heq.symm.trans h
  · next heq =>
    cases heq.symm.trans h
    rw [if_pos rfl]

end

/-! ### Values -/

/-- Whether a reader got something in which a value is seen, and left the rest. -/
def Got.Yields {α β : Type} {cs : List Char} (g : Got α cs) (view : α → Option β) (b : β)
    (rest : List Char) : Prop := ∃ a h, g = ⟨a, some ⟨rest, h⟩⟩ ∧ view a = some b

section

variable {rule : FloatRule} {close : List Char → List Char} {depth : Nat} {cs ds rest : List Char}

theorem readValue_of_leaf {v : Leaf} {j : Json} (h : skipBlanks cs = ds)
    (hlist : ∀ more, ds ≠ '[' :: more) (hobject : ∀ more, ds ≠ '\x7b' :: more)
    (hread : Reads (readLeaf rule ds) v rest) (hv : Node.jsonOfLeaf? v = some j) :
    (readValue rule close depth cs).Yields Node.toJson? j rest := by
  subst h
  obtain ⟨hlt, hread⟩ := hread
  rw [readValue]
  split
  · next heq => exact absurd heq (hlist _)
  · next heq => exact absurd heq (hobject _)
  · rw [hread]
    exact ⟨_, _, rfl, hv⟩

theorem readValue_of_list {items : List Json} (h : skipBlanks cs = '[' :: ds)
    (hitems : (readItems rule true depth ds).Yields Node.toItems? items rest) :
    (readValue rule close (depth + 1) cs).Yields Node.toJson? (.list items) rest := by
  obtain ⟨nodes, hlt, hread, hview⟩ := hitems
  rw [readValue]
  split
  · next heq =>
    cases heq.symm.trans h
    simp only [hread]
    exact ⟨_, _, rfl, by rw [Node.toJson?, hview, Option.map_some]⟩
  · next heq => cases heq.symm.trans h
  · next hne _ => exact (hne _ h).elim

theorem readItems_of_finish {first : Bool} (h : ∃ hlt, nextItem first cs = .finish ⟨rest, hlt⟩) :
    (readItems rule first depth cs).Yields Node.toItems? [] rest := by
  obtain ⟨hlt, hnext⟩ := h
  rw [readItems, hnext]
  exact ⟨[], hlt, rfl, rfl⟩

theorem readItems_of_more {first : Bool} {v : Json} {vs : List Json} {more : List Char}
    (h : ∃ hle, nextItem first cs = .more ⟨ds, hle⟩)
    (hitem : (readValue rule afterItem depth ds).Yields Node.toJson? v more)
    (hitems : (readItems rule false depth more).Yields Node.toItems? vs rest) :
    (readItems rule first depth cs).Yields Node.toItems? (v :: vs) rest := by
  obtain ⟨hle, hnext⟩ := h
  obtain ⟨node, hlt, hread, hv⟩ := hitem
  obtain ⟨nodes, hlt', hreads, hvs⟩ := hitems
  rw [readItems, hnext]
  simp only [hread, hreads]
  exact ⟨node :: nodes, _, rfl, by rw [Node.toItems?, hv, hvs]; rfl⟩

theorem readValue_of_object {members : List (String × Json)} (h : skipBlanks cs = '\x7b' :: ds)
    (hmembers : (readMembers rule true depth ds).Yields Node.toMembers? members rest) :
    (readValue rule close (depth + 1) cs).Yields Node.toJson? (.object members) rest := by
  obtain ⟨nodes, hlt, hread, hview⟩ := hmembers
  rw [readValue]
  split
  · next heq => cases heq.symm.trans h
  · next heq =>
    cases heq.symm.trans h
    simp only [hread]
    exact ⟨_, _, rfl, by rw [Node.toJson?, hview, Option.map_some]⟩
  · next hne => exact (hne _ h).elim

theorem readMembers_of_finish {first : Bool}
    (h : ∃ hlt, nextMember first cs = .finish ⟨rest, hlt⟩) :
    (readMembers rule first depth cs).Yields Node.toMembers? [] rest := by
  obtain ⟨hlt, hnext⟩ := h
  rw [readMembers, hnext]
  exact ⟨[], hlt, rfl, rfl⟩

theorem readMembers_of_more {first : Bool} {name : String} {v : Json} {vs : List (String × Json)}
    {colon value more : List Char} (h : ∃ hle, nextMember first cs = .more ⟨ds, hle⟩)
    (hname : Reads (readName ds) name colon) (hcolon : ∃ hlt, readColon colon = .ok ⟨value, hlt⟩)
    (hmember : (readValue rule afterMember depth value).Yields Node.toJson? v more)
    (hmembers : (readMembers rule false depth more).Yields Node.toMembers? vs rest) :
    (readMembers rule first depth cs).Yields Node.toMembers? ((name, v) :: vs) rest := by
  obtain ⟨hle, hnext⟩ := h
  obtain ⟨hnameLt, hname⟩ := hname
  obtain ⟨hcolonLt, hcolon⟩ := hcolon
  obtain ⟨node, hlt, hread, hv⟩ := hmember
  obtain ⟨nodes, hlt', hreads, hvs⟩ := hmembers
  rw [readMembers, hnext]
  simp only [hname, hcolon, hread, hreads]
  exact ⟨(.leaf (extentOf afterMember ds colon) (.text name), node) :: nodes, _, rfl, by
    rw [Node.toMembers?, hv, hvs]; rfl⟩

end

/-- Whether a rule recovers the floats, integers fit 64 bits, and nesting is at most so deep. -/
inductive Readable (rule : FloatRule) : Nat → Json → Prop where
  | null {depth : Nat} : Readable rule depth .null
  | bool {depth : Nat} {b : Bool} : Readable rule depth (.bool b)
  | int {depth : Nat} {i : Int} (hmin : -(2 ^ 63) ≤ i) (hmax : i < 2 ^ 64) :
      Readable rule depth (.int i)
  | float {depth : Nat} {x : Float} (h : rule.Recovers x) : Readable rule depth (.float x)
  | text {depth : Nat} {s : String} : Readable rule depth (.text s)
  | list {depth : Nat} {items : List Json} (h : ∀ item ∈ items, Readable rule depth item) :
      Readable rule (depth + 1) (.list items)
  | object {depth : Nat} {members : List (String × Json)}
      (h : ∀ member ∈ members, Readable rule depth member.2) :
      Readable rule (depth + 1) (.object members)

section

variable {rule : FloatRule} {depth : Nat} {rest : List Char}

/-- What a number is written as begins with a sign or with a digit. -/
theorem exists_intText_eq (i : Int) :
    ∃ c cs, (Number.intText i).toList = c :: cs ∧ (c = '-' ∨ Text.isDigit c = true) :=
  WrittenNumber.characters_ofInt i ▸ exists_characters_eq (WrittenNumber.isProper_ofInt i)

theorem FloatRule.Recovers.exists_floatText_eq {x : Float} (h : rule.Recovers x) :
    ∃ c cs, (floatText x).toList = c :: cs ∧ (c = '-' ∨ Text.isDigit c = true) := by
  obtain ⟨w, hcharacters, hproper, -⟩ := h
  exact hcharacters ▸ exists_characters_eq hproper

/-- What a value is written as begins with neither a blank nor a closing bracket. -/
theorem Readable.exists_render_eq {v : Json} (h : Readable rule depth v) (layout : Layout) :
    ∃ c cs, (render layout v).toList = c :: cs ∧ isBlank c = false ∧ c ≠ ']' := by
  have hnumber : ∀ {s : String}, (∃ c cs, s.toList = c :: cs ∧ (c = '-' ∨ Text.isDigit c = true)) →
      ∃ c cs, s.toList = c :: cs ∧ isBlank c = false ∧ c ≠ ']' := by
    rintro s ⟨c, cs, hcs, hc⟩
    obtain ⟨hblank, hne⟩ := ne_of_startsNumber hc
    exact ⟨c, cs, hcs, hblank, fun h ↦ hne (h ▸ by simp)⟩
  cases h with
  | null => exact ⟨'n', _, by rw [render]; rfl, by decide, by decide⟩
  | @bool _ b =>
    cases b with
    | false => exact ⟨'f', _, by rw [render]; rfl, by decide, by decide⟩
    | true => exact ⟨'t', _, by rw [render]; rfl, by decide, by decide⟩
  | @int _ i => exact render.eq_4 layout i ▸ hnumber (exists_intText_eq i)
  | @float _ x h => exact render.eq_5 layout x ▸ hnumber h.exists_floatText_eq
  | @text _ s => exact ⟨'"', _, by rw [render, quote, String.toList_ofList], by decide, by decide⟩
  | @list _ items =>
    cases items with
    | nil => exact ⟨'[', _, by rw [render]; rfl, by decide, by decide⟩
    | cons item items => exact ⟨'[', _, by simp [render]; rfl, by decide, by decide⟩
  | @object _ members =>
    cases members with
    | nil => exact ⟨'\x7b', _, by rw [render]; rfl, by decide, by decide⟩
    | cons member members => exact ⟨'\x7b', _, by simp [render]; rfl, by decide, by decide⟩

/-- Whether a reader of values gets a value wherever it is written, and leaves what is behind it. -/
def ReadsBack (rule : FloatRule) (depth : Nat) (v : Json) : Prop :=
  ∀ (layout : Layout) (close : List Char → List Char) (cs rest : List Char),
    skipBlanks cs = (render layout v).toList ++ rest → EndNumber rest →
      (readValue rule close depth cs).Yields Node.toJson? v rest

theorem endNumber_cons {c : Char} (h : c ∈ [',', ']', '\x7d', '\n']) : EndNumber (c :: rest) := by
  rintro d ⟨⟩
  simp only [List.mem_cons, List.not_mem_nil, or_false] at h
  rcases h with rfl | rfl | rfl | rfl <;> decide

theorem endNumber_outer (layout : Layout) {c : Char} (h : c ∈ [',', ']', '\x7d', '\n']) :
    EndNumber (layout.outer.toList ++ c :: rest) := by
  cases layout with
  | compact => exact endNumber_cons h
  | indented level =>
    have hline : (Layout.indented level).outer.toList ++ c :: rest =
        '\n' :: (List.replicate (2 * level) ' ' ++ c :: rest) := by
      simp [Layout.outer]
    exact hline ▸ endNumber_cons (by simp)

theorem toList_render_list (layout : Layout) (item : Json) (items : List Json) (more : List Char) :
    (render layout (.list (item :: items))).toList ++ more =
      '[' :: (layout.inner.toList ++ ((render layout.deeper item).toList ++
        ((renderItems layout items).toList ++ (layout.outer.toList ++ ']' :: more)))) := by
  simp [render]

theorem toList_render_object (layout : Layout) (name : String) (v : Json)
    (members : List (String × Json)) (more : List Char) :
    (render layout (.object ((name, v) :: members))).toList ++ more =
      '\x7b' :: (layout.inner.toList ++ ((quote name).toList ++ (layout.colon.toList ++
        ((render layout.deeper v).toList ++ ((renderMembers layout members).toList ++
          (layout.outer.toList ++ '\x7d' :: more)))))) := by
  simp [render]

theorem toList_renderItems_cons (layout : Layout) (item : Json) (items : List Json)
    (more : List Char) :
    (renderItems layout (item :: items)).toList ++ more =
      ',' :: (layout.inner.toList ++ ((render layout.deeper item).toList ++
        ((renderItems layout items).toList ++ more))) := by
  simp [renderItems]

theorem toList_renderMembers_cons (layout : Layout) (name : String) (v : Json)
    (members : List (String × Json)) (more : List Char) :
    (renderMembers layout ((name, v) :: members)).toList ++ more =
      ',' :: (layout.inner.toList ++ ((quote name).toList ++ (layout.colon.toList ++
        ((render layout.deeper v).toList ++
          ((renderMembers layout members).toList ++ more))))) := by
  simp [renderMembers]

theorem endNumber_renderItems (layout : Layout) (items : List Json) :
    EndNumber ((renderItems layout items).toList ++ (layout.outer.toList ++ ']' :: rest)) := by
  cases items with
  | nil =>
    rw [renderItems]
    exact endNumber_outer layout (by simp)
  | cons item items => exact toList_renderItems_cons layout item items _ ▸ endNumber_cons (by simp)

theorem endNumber_renderMembers (layout : Layout) (members : List (String × Json)) :
    EndNumber
      ((renderMembers layout members).toList ++ (layout.outer.toList ++ '\x7d' :: rest)) := by
  cases members with
  | nil =>
    rw [renderMembers]
    exact endNumber_outer layout (by simp)
  | cons member members =>
    exact toList_renderMembers_cons layout member.1 member.2 members _ ▸ endNumber_cons (by simp)

/-- An item behind its line break. -/
theorem Readable.skipBlanks_item {v : Json} (h : Readable rule depth v) (layout : Layout)
    (more : List Char) :
    skipBlanks (layout.inner.toList ++ ((render layout.deeper v).toList ++ more)) =
      (render layout.deeper v).toList ++ more := by
  obtain ⟨c, cs, hcs, hblank, -⟩ := h.exists_render_eq layout.deeper
  rw [skipBlanks_inner, hcs, List.cons_append, skipBlanks_cons hblank]

/-- The items behind the first one of a list. -/
theorem readItems_renderItems {items : List Json} (layout : Layout)
    (hreadable : ∀ item ∈ items, Readable rule depth item)
    (h : ∀ item ∈ items, ReadsBack rule depth item) :
    (readItems rule false depth
      ((renderItems layout items).toList ++ (layout.outer.toList ++ ']' :: rest))).Yields
        Node.toItems? items rest := by
  induction items with
  | nil =>
    refine readItems_of_finish (nextItem_finish ?_ false)
    rw [renderItems]
    exact (skipBlanks_outer layout).trans (skipBlanks_cons (by decide))
  | cons item items ih =>
    obtain ⟨hitem, hitems⟩ := List.forall_mem_cons.mp h
    obtain ⟨hfirst, hrest⟩ := List.forall_mem_cons.mp hreadable
    obtain ⟨c, cs, hcs, -, hc⟩ := hfirst.exists_render_eq layout.deeper
    have hskip := hfirst.skipBlanks_item layout
      ((renderItems layout items).toList ++ (layout.outer.toList ++ ']' :: rest))
    rw [toList_renderItems_cons]
    exact readItems_of_more
      (nextItem_more (skipBlanks_cons (by decide)) (hskip.trans (by rw [hcs]; rfl)) hc)
      (hitem _ _ _ _ hskip (endNumber_renderItems layout items)) (ih hrest hitems)

/-- The colon of a member, and the blank that may stand behind it. -/
theorem exists_readColon (layout : Layout) {v : Json} (h : Readable rule depth v)
    (more : List Char) :
    ∃ value, skipBlanks value = (render layout.deeper v).toList ++ more ∧
      ∃ hlt, readColon (layout.colon.toList ++ ((render layout.deeper v).toList ++ more)) =
        .ok ⟨value, hlt⟩ := by
  obtain ⟨c, cs, hcs, hblank, -⟩ := h.exists_render_eq layout.deeper
  have hskip : skipBlanks ((render layout.deeper v).toList ++ more) =
      (render layout.deeper v).toList ++ more := by
    rw [hcs, List.cons_append, skipBlanks_cons hblank]
  cases layout with
  | compact => exact ⟨_, hskip, readColon_of_skip (skipBlanks_cons (by decide))⟩
  | indented level =>
    have hcolon : (Layout.indented level).colon.toList = [':', ' '] := by
      simp [Layout.colon]
    rw [hcolon]
    exact ⟨' ' :: _, hskip, readColon_of_skip (skipBlanks_cons (by decide))⟩

/-- A member from its name on. -/
theorem readMembers_of_name {first : Bool} {cs more : List Char} {name : String} {v : Json}
    {members : List (String × Json)} (layout : Layout)
    (h : ∃ hle, nextMember first cs = .more ⟨(quote name).toList ++ (layout.colon.toList ++
      ((render layout.deeper v).toList ++ more)), hle⟩)
    (hreadable : Readable rule depth v) (hv : ReadsBack rule depth v) (hmore : EndNumber more)
    (hmembers : (readMembers rule false depth more).Yields Node.toMembers? members rest) :
    (readMembers rule first depth cs).Yields Node.toMembers? ((name, v) :: members) rest := by
  obtain ⟨value, hskip, hcolon⟩ := exists_readColon layout hreadable more
  exact readMembers_of_more h (readName_quote name) hcolon (hv _ _ _ _ hskip hmore) hmembers

/-- The members behind the first one of an object. -/
theorem readMembers_renderMembers {members : List (String × Json)} (layout : Layout)
    (hreadable : ∀ m ∈ members, Readable rule depth m.2)
    (h : ∀ m ∈ members, ReadsBack rule depth m.2) :
    (readMembers rule false depth
      ((renderMembers layout members).toList ++ (layout.outer.toList ++ '\x7d' :: rest))).Yields
        Node.toMembers? members rest := by
  induction members with
  | nil =>
    refine readMembers_of_finish (nextMember_finish ?_ false)
    rw [renderMembers]
    exact (skipBlanks_outer layout).trans (skipBlanks_cons (by decide))
  | cons member members ih =>
    obtain ⟨hmember, hmembers⟩ := List.forall_mem_cons.mp h
    obtain ⟨hfirst, hrest⟩ := List.forall_mem_cons.mp hreadable
    rw [toList_renderMembers_cons layout member.1 member.2]
    refine readMembers_of_name layout ?_ hfirst hmember (endNumber_renderMembers layout members)
      (ih hrest hmembers)
    rw [toList_quote_append]
    exact nextMember_more (skipBlanks_cons (by decide))
      ((skipBlanks_inner layout).trans (skipBlanks_cons (by decide)))

/-- A readable value reads back wherever it is written. -/
theorem Readable.readsBack {v : Json} (h : Readable rule depth v) : ReadsBack rule depth v := by
  induction h with
  | null =>
    intro layout close cs rest hskip _
    rw [render] at hskip
    exact readValue_of_leaf hskip (by simp) (by simp) (readLeaf_null _) rfl
  | @bool _ b =>
    intro layout close cs rest hskip _
    exact readValue_of_leaf hskip (by cases b <;> simp [render]) (by cases b <;> simp [render])
      (readLeaf_bool _ layout b) rfl
  | @int _ i hmin hmax =>
    intro layout close cs rest hskip hrest
    have hproper := WrittenNumber.isProper_ofInt i
    rw [render, ← WrittenNumber.characters_ofInt] at hskip
    exact readValue_of_leaf hskip (characters_append_ne hproper (by simp))
      (characters_append_ne hproper (by simp))
      (readLeaf_number hproper (WrittenNumber.value?_ofInt _ hmin hmax) hrest) rfl
  | @float _ x h =>
    intro layout close cs rest hskip hrest
    obtain ⟨w, hcharacters, hproper, hvalue⟩ := h
    rw [render, ← hcharacters] at hskip
    exact readValue_of_leaf hskip (characters_append_ne hproper (by simp))
      (characters_append_ne hproper (by simp)) (readLeaf_number hproper hvalue hrest) rfl
  | @text _ s =>
    intro layout close cs rest hskip _
    rw [render] at hskip
    exact readValue_of_leaf hskip (by simp [quote]) (by simp [quote]) (readLeaf_quote _ s) rfl
  | @list depth items hreadable ih =>
    intro layout close cs rest hskip _
    cases items with
    | nil =>
      rw [render] at hskip
      exact readValue_of_list hskip
        (readItems_of_finish (nextItem_finish (skipBlanks_cons (by decide)) true))
    | cons item items =>
      obtain ⟨hfirst, hrest⟩ := List.forall_mem_cons.mp hreadable
      obtain ⟨hitem, hitems⟩ := List.forall_mem_cons.mp ih
      obtain ⟨c, ds, hds, -, hc⟩ := hfirst.exists_render_eq layout.deeper
      rw [toList_render_list] at hskip
      have hinner := hfirst.skipBlanks_item layout
        ((renderItems layout items).toList ++ (layout.outer.toList ++ ']' :: rest))
      exact readValue_of_list hskip (readItems_of_more
        (nextItem_first (hinner.trans (by rw [hds]; rfl)) hc)
        (hitem _ _ _ _ hinner (endNumber_renderItems layout items))
        (readItems_renderItems layout hrest hitems))
  | @object depth members hreadable ih =>
    intro layout close cs rest hskip _
    cases members with
    | nil =>
      rw [render] at hskip
      exact readValue_of_object hskip
        (readMembers_of_finish (nextMember_finish (skipBlanks_cons (by decide)) true))
    | cons member members =>
      obtain ⟨hfirst, hrest⟩ := List.forall_mem_cons.mp hreadable
      obtain ⟨hmember, hmembers⟩ := List.forall_mem_cons.mp ih
      rw [toList_render_object layout member.1 member.2] at hskip
      refine readValue_of_object hskip (readMembers_of_name layout ?_ hfirst hmember
        (endNumber_renderMembers layout members) (readMembers_renderMembers layout hrest hmembers))
      rw [toList_quote_append]
      exact nextMember_first ((skipBlanks_inner layout).trans (skipBlanks_cons (by decide)))

/-- A readable value that is written out reads back as itself, with nothing behind it. -/
theorem Readable.exists_read_render {v : Json} (h : Readable rule deepest v) (layout : Layout) :
    ∃ root, read rule (render layout v) = ⟨root, none⟩ ∧ root.toJson? = some v := by
  obtain ⟨c, cs, hcs, hblank, -⟩ := h.exists_render_eq layout
  have hskip : skipBlanks (render layout v).toList = (render layout v).toList ++ [] := by
    rw [List.append_nil, hcs, skipBlanks_cons hblank]
  obtain ⟨root, hlt, hread, hroot⟩ := h.readsBack layout id _ _ hskip (by simp [EndNumber])
  refine ⟨root, ?_, hroot⟩
  unfold read
  simp only [hread]
  rfl

end

end DataQuality.Json
