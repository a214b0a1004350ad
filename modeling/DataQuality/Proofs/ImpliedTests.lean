import DataQuality.Proofs.BoundTests
import DataQuality.Proofs.CaseFolding
import DataQuality.Proofs.Isolation
import DataQuality.Proofs.TrimmedSources
import DataQuality.Proofs.Verdicts

/-!
# Tests made of names

Rows that should not be there are tested by a text that is put together from the name of their
query. Where the name is a word and no keyword, the text is read as the test that is meant. Whatever
else the name is, the test refers to parts of the name only, and none of them stands for the key of
the name.
-/

namespace DataQuality

namespace Token

/-! ### Names as parts of a text -/

/-- Every token of characters is spelled by some of them that stand together. -/
theorem Cuts.exists_lexeme {cs rest : List Char} {ts : List Token} (h : Cuts cs ts rest) {t : Token}
    (ht : t ∈ ts) : ∃ lexeme, lexeme <:+: cs ∧ Spells lexeme t := by
  induction h with
  | nil => cases ht
  | @space c cs rest ts _ _ ih =>
    obtain ⟨lexeme, hstands, hspells⟩ := ih ht
    exact ⟨lexeme, hstands.trans (List.suffix_cons c cs).isInfix, hspells⟩
  | @token c cs after rest t' ts hc hscan _ ih =>
    obtain ⟨fits, hscan⟩ := hscan 0
    have hscanned := scanned 0 c cs
    rw [hscan] at hscanned
    obtain ⟨lexeme, happend, hspells⟩ := hscanned
    obtain rfl | ht := List.mem_cons.mp ht
    · exact ⟨lexeme, ⟨[], after, by rw [happend]; rfl⟩, hspells⟩
    · obtain ⟨lexeme', hstands, hspells'⟩ := ih ht
      exact ⟨lexeme', hstands.trans ⟨lexeme, [], by rw [happend, List.append_nil]⟩, hspells'⟩

/-- There is no white space in a word. -/
theorem WordTail.isSpace_eq_false {cs : List Char} (h : WordTail cs) {c : Char} (hc : c ∈ cs) :
    Text.isSpace c = false := by
  induction h with
  | nil => cases hc
  | character hgoes _ ih =>
    obtain rfl | hc := List.mem_cons.mp hc
    · obtain hletter | rfl := hgoes
      · rw [Bool.eq_false_iff]
        intro hspace
        rw [Text.isLetterOrNumeric_of_isSpace hspace] at hletter
        cases hletter
      · decide
    · exact ih hc
  | point _ _ ih =>
    obtain rfl | hc := List.mem_cons.mp hc
    · decide
    · exact ih hc

/-- A name is spelled by its own characters, which begin a word and hold no white space. -/
theorem Spells.eq_toList {lexeme : List Char} {name : String}
    (h : Spells lexeme (.identifier name)) :
    lexeme = name.toList ∧ lexeme.head?.any startsWord = true ∧
      ∀ c ∈ lexeme, Text.isSpace c = false := by
  generalize ht : Token.identifier name = t at h
  cases h with
  | name hc htail _ =>
    obtain rfl := Token.identifier.inj ht
    exact ⟨String.toList_ofList.symm, hc, fun c hmem ↦
      (WordTail.character (goesOn_of_startsWord hc) htail).isSpace_eq_false hmem⟩
  | symbol hmem => subst ht; simp [symbols] at hmem
  | keyword _ _ hmem => subst ht; simp [keywords] at hmem
  | comparison op => cases ht
  | quotation _ _ => cases ht
  | numeral _ _ => cases ht

end Token

/-- Every name in an expression is a word, and it is spelled in the text that the expression was
read from. -/
theorem Expr.spelled_of_mem_references {source : String} {e : Expr} (h : parse source = .ok e)
    {name : String} (hname : name ∈ e.references) :
    name.toList <:+: source.toList ∧ name.toList.head?.any Token.startsWord = true ∧
      ∀ c ∈ name.toList, Text.isSpace c = false := by
  obtain ⟨placed, hplaced, htree⟩ := exists_of_bind_eq_ok h
  obtain ⟨-, -, d, htokens, -, rfl⟩ := exists_of_ofTokens_eq_ok htree
  have hmem := d.token_mem_tokens _ (Expr.identifier_mem_leaves hname)
  rw [htokens] at hmem
  obtain ⟨lexeme, hstands, hspells⟩ := (Token.cuts_of_scanAll hplaced).exists_lexeme hmem
  obtain ⟨rfl, hbegins, hspaces⟩ := hspells.eq_toList
  exact ⟨hstands, hbegins, hspaces⟩

/-! ### A name compared with zero -/

/-- A word that stands in a text with a comparison with zero at its end, stands before the
comparison. -/
theorem infix_of_infix_append_zero {word name : List Char}
    (hbegins : word.head?.any Token.startsWord = true)
    (hspaces : ∀ c ∈ word, Text.isSpace c = false) (h : word <:+: name ++ " == 0".toList) :
    word <:+: name := by
  obtain ⟨before, after, happend⟩ := h
  obtain ⟨middle, hname, -⟩ | ⟨middle, hword, hcomparison⟩ := List.append_eq_append_iff.mp happend
  · exact ⟨before, middle, hname.symm⟩
  cases middle with
  | nil => exact ⟨before, [], by rw [List.append_nil, hword, List.append_nil]⟩
  | cons c middle =>
    obtain ⟨hc, -⟩ := List.cons.inj hcomparison
    obtain ⟨inside, -, hinside⟩ | ⟨inside, -, hinside⟩ := List.append_eq_append_iff.mp hword
    · -- The word would go on with the space in front of the comparison.
      exact absurd (hspaces c (by rw [hinside]; simp)) (by rw [← hc]; decide)
    · -- The word would begin within the comparison.
      have hlow : (" == 0".toList.all fun c ↦ c.toNat < 0x41) = true := by decide
      cases word with
      | nil => cases hbegins
      | cons c word =>
        have hmem : c ∈ " == 0".toList := by rw [hcomparison, hinside]; simp
        have hnot := Token.startsWord_of_lt (of_decide_eq_true (List.all_eq_true.mp hlow c hmem))
        simp only [List.head?_cons, Option.any_some] at hbegins
        rw [hnot] at hbegins
        cases hbegins

namespace Token

/-- What a word stands for is found in the table of keywords. -/
theorem ofWord_eq_lookup (word : String) :
    ofWord word = (keywords.lookup (Text.lower word)).getD (.identifier word) := by
  unfold ofWord
  split
  case h_8 hand hor hnot htrue hfalse hnull hnone =>
    have habsent : keywords.lookup (Text.lower word) = none := by
      rw [List.lookup_eq_none_iff]
      simpa [keywords] using ⟨hand, hor, hnot, htrue, hfalse, hnull, hnone⟩
    rw [habsent, Option.getD_none]
  all_goals next h => rw [h]; rfl

/-- The characters that spell a name are a word and no keyword. -/
theorem spells_identifier_iff {name : String} :
    Spells name.toList (.identifier name) ↔ IsWord name ∧ ofWord name = .identifier name := by
  constructor
  · intro h
    generalize hcs : name.toList = cs at h
    generalize ht : Token.identifier name = t at h
    cases h with
    | @name c hc tail htail hkeywords =>
      obtain rfl := Token.identifier.inj ht
      have hspace : Text.isSpace c = false := by
        rw [Bool.eq_false_iff]
        intro hspace
        rw [startsWord_of_isSpace hspace] at hc
        cases hc
      have hspan : (spanWord tail).1 = tail := by
        have hlength := length_le_spanWord htail []
        rw [List.append_nil] at hlength
        exact (List.IsPrefix.eq_of_length_le ⟨_, fst_append_snd_spanWord tail⟩ hlength)
      refine ⟨⟨c, tail, beginsWord_of_startsWord hspace hc, by rw [hspan]⟩, ?_⟩
      have hnone : keywords.lookup (Text.lower (String.ofList (c :: tail))) = none := by
        rw [List.lookup_eq_none_iff]
        rintro ⟨word, t⟩ hmem
        rw [bne_iff_ne]
        rintro rfl
        exact hkeywords t hmem
      rw [ofWord_eq_lookup, hnone, Option.getD_none]
    | symbol hmem => subst ht; simp [symbols] at hmem
    | keyword _ _ hmem => subst ht; simp [keywords] at hmem
    | comparison op => cases ht
    | quotation _ _ => cases ht
    | numeral _ _ => cases ht
  · rintro ⟨⟨c, cs, hc, hword⟩, hname⟩
    have hspells := spells_ofWord hc.2.2.2.2.2 (wordTail_spanWord cs)
    rw [← hword, hname] at hspells
    rw [hword, String.toList_ofList, ← hword]
    exact hspells

theorem Cuts.zero {rest : List Char} (hrest : Delimits rest) :
    Cuts ('0' :: rest) [.number 0] rest := by
  have hfrom : Token.FromText (.number 0) :=
    ⟨fun value hvalue _ ↦ ⟨0, by decide,
      (Token.number.inj hvalue).symm.trans (by decide)⟩, fun _ h ↦ by cases h⟩
  have hcuts := Cuts.number hfrom (by decide) hrest
  rwa [show Number.plainText 0 = "0" by decide +kernel] at hcuts

end Token

/-- The expression that compares a name with zero. -/
def zeroTree (name : String) : Expr :=
  .binary (.comparison .eq) (.identifier name) (.number 0)

/-- A name with a comparison with zero behind it is read as that. -/
theorem Expr.parse_append_zero {name : String}
    (h : Token.Spells name.toList (.identifier name)) :
    parse (name ++ " == 0") = .ok (zeroTree name) := by
  obtain ⟨hword, hname⟩ := Token.spells_identifier_iff.mp h
  let d : ParseTree (.chain .comparison) :=
    .chain (.ofAtom (.identifier name)) (.cons (.comparison .eq) rfl (.ofAtom (.number 0)) .nil)
  have hcuts : Token.Cuts (name ++ " == 0").toList d.tokens [] := by
    have hfirst := Token.Cuts.ofWord hword (.space ['=', '=', ' ', '0'])
    rw [hname] at hfirst
    rw [String.toList_append]
    exact hfirst.trans <| .space (by decide) <| (Token.Cuts.comparison .eq _).trans <|
      .space (by decide) (.zero .nil)
  exact parse_eq_ok d hcuts (show 3 ≤ maxTokens by decide) (show 0 ≤ maxNesting by decide)

/-- What is read from a text refers to a name only if that is a word and no keyword. -/
theorem Expr.spells_of_mem_references {source : String} {e : Expr} (h : parse source = .ok e)
    {name : String} (hname : name ∈ e.references) :
    Token.Spells name.toList (.identifier name) := by
  have hleaf := Expr.fromText_of_parse h _ (Expr.identifier_mem_leaves hname)
  obtain ⟨hidentifier, hword⟩ := hleaf.identifier name rfl
  exact Token.spells_identifier_iff.mpr ⟨hword, hidentifier⟩

/-- What is put together from characters of a lowercase form is in lower case. -/
theorem Text.lower_eq_self {s t : String} (h : s.toList ⊆ (lower t).toList) : lower s = s := by
  refine lower_of_settled fun c hc ↦ ?_
  have hmem := h hc
  rw [lower, String.toList_ofList] at hmem
  exact settled_of_mem_lowerFrom hmem

/-- A proper part of a name does not become the name in lower case. -/
theorem Text.lower_ne_of_infix {part name : String} (h : part.toList <:+: name.toList)
    (hne : part ≠ name) : lower part ≠ name := by
  rintro rfl
  exact hne (lower_eq_self h.subset).symm

namespace TestScope

/-- A name with another one as its part does not stand among the candidates for the part. -/
theorem name_ne_of_mem_candidates {scope : TestScope} {part name : String}
    (h : part.toList <:+: name.toList) (hne : part ≠ name) {key : MetricKey}
    (hkey : key ∈ scope.candidates part) : key.name ≠ name := by
  unfold candidates at hkey
  split at hkey
  · next column metric hcut =>
    have hpart := Text.cut_eq_some hcut
    have hmetric : (String.ofList metric).toList <:+: name.toList := by
      rw [String.toList_ofList]
      refine .trans ?_ h
      exact ⟨column ++ ['.'], [], by rw [hpart]; simp⟩
    have hshort : String.ofList metric ≠ name := by
      rintro rfl
      have hlength := h.length_le
      rw [hpart, String.toList_ofList] at hlength
      simp only [List.length_append, List.length_cons] at hlength
      omega
    simp only [List.mem_cons, List.not_mem_nil, or_false] at hkey
    obtain rfl | rfl := hkey
    · exact hshort
    · exact Text.lower_ne_of_infix hmetric hshort
  · simp only [List.mem_flatMap, List.mem_cons, List.not_mem_nil, or_false, List.mem_append,
      Option.mem_toList, Option.map_eq_some_iff] at hkey
    obtain ⟨n, hn, hkey⟩ := hkey
    have hname : key.name = n := by
      obtain ⟨column, -, rfl⟩ | rfl := hkey <;> rfl
    rw [hname]
    obtain rfl | rfl := hn
    · exact hne
    · exact Text.lower_ne_of_infix h hne

/-- A proper part of a name stands for nothing with the name, if the outputs of its scope have the
name too. -/
theorem name_ne_of_resolve? {scope : TestScope} {available : List MetricKey} {part name : String}
    (houtputs : ∀ key ∈ scope.outputs, key.name = name) (h : part.toList <:+: name.toList)
    (hne : part ≠ name) {key : MetricKey} (hkey : scope.resolve? available part = some key) :
    key.name ≠ name := by
  unfold resolve? at hkey
  split at hkey
  · next found hfound =>
    have hpart : found.name = part := by simpa using List.find?_some hfound
    exact absurd (hpart.symm.trans (houtputs found (List.mem_of_find?_eq_some hfound))) hne
  · exact name_ne_of_mem_candidates h hne (List.mem_of_find?_eq_some hkey)

variable {scope : TestScope} {available : List MetricKey} {index : Nat} {name : String}
  {t : CompiledTest}

/-- Where the name is a word and no keyword, the compiled test compares what the name stands for
with zero. -/
theorem compileOne_zero (h : scope.compileOne available index (name ++ " == 0") = .ok t)
    (hsingle : t.grouped = none) (hspells : Token.Spells name.toList (.identifier name)) :
    t.expression.tree = zeroTree name ∧
      ∀ n, t.bindings.get? n = if n = name then scope.resolve? available name else none := by
  have hread := (standsFor_of_compileOne h).expression
  have htree : t.expression.tree = zeroTree name := by
    obtain ⟨tree, htree, hsame⟩ := exists_of_map_eq_ok hread
    rw [Expr.parse_append_zero hspells] at htree
    rw [← hsame, Except.ok.inj htree]
  refine ⟨htree, fun n ↦ ?_⟩
  rw [get?_bindings_of_compileOne h hsingle, htree]
  by_cases hn : n = name <;> simp [zeroTree, Expr.references, hn]

/-- Where it is not, the compiled test looks at nothing with the name. -/
theorem name_ne_of_mem_reads (h : scope.compileOne available index (name ++ " == 0") = .ok t)
    (hsingle : t.grouped = none) (houtputs : ∀ key ∈ scope.outputs, key.name = name)
    (hspells : ¬ Token.Spells name.toList (.identifier name)) {key : MetricKey}
    (hkey : key ∈ t.reads) : key.name ≠ name := by
  rw [CompiledTest.reads, hsingle] at hkey
  obtain ⟨⟨part, key⟩, hentry, rfl⟩ := List.mem_map.mp hkey
  have hbound := Dict.mem_entries_iff.mp hentry
  rw [get?_bindings_of_compileOne h hsingle] at hbound
  split at hbound
  · next hreferred =>
    obtain ⟨tree, htree, hsame⟩ := exists_of_map_eq_ok (standsFor_of_compileOne h).expression
    rw [← hsame] at hreferred
    obtain ⟨hstands, hbegins, hspaces⟩ := Expr.spelled_of_mem_references htree hreferred
    rw [String.toList_append] at hstands
    have hpart := infix_of_infix_append_zero hbegins hspaces hstands
    refine name_ne_of_resolve? houtputs hpart ?_ hbound
    rintro rfl
    exact hspells (Expr.spells_of_mem_references htree hreferred)
  · cases hbound

end TestScope

/-! ### The verdict on a count -/

namespace CompiledTest

variable {t : CompiledTest} {ms : MeasurementSet} {name : String} {key : MetricKey}
  {m : Measurement}

/-- A test that compares a count with zero passes if the count is zero and fails if not. -/
theorem evaluate_zero_of_count (hsingle : t.grouped = none)
    (htree : t.expression.tree = zeroTree name)
    (hbound : ∀ n, t.bindings.get? n = if n = name then some key else none)
    (hm : ms.get? key = some m) {count : Nat} (hreading : m.reading = .measured (.int count)) :
    ∃ r, t.evaluate ms = [r] ∧ r.outcome = if count = 0 then .passed else .failed := by
  have hlacks : ∀ n e, ¬ t.Lacks ms n e := by
    rintro n e ⟨key', hkey, hunusable⟩
    rw [hbound] at hkey
    split at hkey
    · obtain rfl := Option.some.inj hkey
      have hsome := BoundName.ofMeasurement_eq_error_iff.mpr hunusable
      unfold BoundName.ofMeasurement at hsome
      rw [hm, Option.map_some, hreading] at hsome
      cases hsome
    · cases hkey
  obtain ⟨env, hverdict, henv⟩ := exists_verdict_eq_decide hlacks
  obtain ⟨s, hs, key', m', v, hkey, hm', hv, his⟩ := henv name key (by rw [hbound, if_pos rfl])
  rw [hbound, if_pos rfl] at hkey
  obtain rfl := Option.some.inj hkey
  obtain rfl := Option.some.inj (hm.symm.trans hm')
  obtain rfl := Reading.measured.inj (hreading.symm.trans hv)
  obtain rfl := his.unique (.int count)
  refine ⟨t.resultOf (t.boundNames ms) none, by rw [evaluate, hsingle, boundNames], ?_⟩
  have hdecide : t.expression.tree.decide env = .ok (Number.ofInt count == 0) := by
    rw [htree, zeroTree, Expr.decide, Expr.eval, Expr.eval, Expr.eval, hs]
    rfl
  rw [resultOf, hverdict, hdecide]
  by_cases hzero : count = 0
  · have hequal := Number.ofInt_beq_zero_iff.mpr hzero
    rw [hequal, if_pos hzero]
    rfl
  · have hdiffers := Bool.eq_false_iff.mpr (mt Number.ofInt_beq_zero_iff.mp hzero)
    rw [hdiffers, if_neg hzero]
    rfl

/-- A test is an error if one of its names stands for a measurement without a value. -/
theorem evaluate_of_no_value (hsingle : t.grouped = none)
    (hbound : t.bindings.get? name = some key) (hm : ms.get? key = some m)
    (hreading : m.reading.value? = none) : ∃ r, t.evaluate ms = [r] ∧ r.outcome = .error := by
  have hlacks : ∃ e, t.Lacks ms name e := by
    cases hr : m.reading with
    | measured v => rw [hr] at hreading; cases hreading
    | failed reason => exact ⟨_, key, hbound, .failed hm hr⟩
    | skipped reason => exact ⟨_, key, hbound, .skipped hm hr⟩
  obtain ⟨e, hlacks⟩ := hlacks
  obtain ⟨_, e, -, hverdict, -⟩ := exists_verdict_eq_error hlacks
  refine ⟨t.resultOf (t.boundNames ms) none, by rw [evaluate, hsingle, boundNames], ?_⟩
  rw [resultOf, hverdict]
  rfl

end CompiledTest

end DataQuality
