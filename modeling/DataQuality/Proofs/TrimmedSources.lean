import DataQuality.Proofs.ReadingTexts
import DataQuality.Proofs.Tokenization
import DataQuality.Test.Evaluation

/-!
# Trimmed sources

White space around a text adds nothing to the tokens that it is cut into: each scanner that
succeeds leaves white space at the end of the characters over. A test is therefore read from its
trimmed source, which results carry, as it was read from the text it was declared with.
-/

namespace DataQuality

/-! ### White space -/

namespace Text

/-- White space belongs to no word and to no numeral. -/
theorem isLetterOrNumeric_of_isSpace {c : Char} (h : isSpace c = true) :
    isLetterOrNumeric c = false := by
  have hcodes : spaceRanges.all (fun r ↦ (List.range' r.1 (r.2 + 1 - r.1)).all fun code ↦
      !(inRanges alphabeticRanges code || inRanges numericRanges code)) = true := by
    decide +kernel
  obtain ⟨r, hr, hrange⟩ := List.any_eq_true.mp h
  simp only [Bool.and_eq_true, decide_eq_true_eq] at hrange
  have hmem : c.toNat ∈ List.range' r.1 (r.2 + 1 - r.1) := by
    rw [List.mem_range'_1]
    omega
  have hcode := List.all_eq_true.mp (List.all_eq_true.mp hcodes r hr) _ hmem
  simpa [isLetterOrNumeric, isLetter, isNumeric] using hcode

theorem isDigit_of_isSpace {c : Char} (h : isSpace c = true) : isDigit c = false := by
  rw [Bool.eq_false_iff]
  intro hdigit
  simp only [isDigit, Bool.and_eq_true, decide_eq_true_eq, Char.le_def] at hdigit
  have hlow : 0x30 ≤ c.toNat := hdigit.1
  have hhigh : c.toNat ≤ 0x39 := hdigit.2
  simp [isSpace, inRanges, spaceRanges] at h
  omega

/-- Trimming takes white space away at either end. -/
theorem exists_append_trimChars (cs : List Char) :
    ∃ before after, cs = before ++ (trimChars cs ++ after) ∧
      (∀ c ∈ before, isSpace c = true) ∧ ∀ c ∈ after, isSpace c = true := by
  let behind := (cs.dropWhile isSpace).reverse
  refine ⟨cs.takeWhile isSpace, (behind.takeWhile isSpace).reverse, ?_, ?_, ?_⟩
  · have hbehind : cs.dropWhile isSpace =
        (behind.dropWhile isSpace).reverse ++ (behind.takeWhile isSpace).reverse := by
      rw [← List.reverse_append, List.takeWhile_append_dropWhile, List.reverse_reverse]
    rw [trimChars, ← hbehind, List.takeWhile_append_dropWhile]
  · exact fun _ ↦ List.mem_takeWhile_imp
  · intro c hc
    exact List.mem_takeWhile_imp (List.mem_reverse.mp hc)

/-- White space around characters is taken away with their own. -/
theorem trimChars_append {before after : List Char} (hbefore : ∀ c ∈ before, isSpace c = true)
    (hafter : ∀ c ∈ after, isSpace c = true) (cs : List Char) :
    trimChars (before ++ (cs ++ after)) = trimChars cs := by
  have hnone : after.dropWhile isSpace = [] := List.dropWhile_eq_nil_iff.mpr hafter
  have hreverse : ∀ c ∈ after.reverse, isSpace c = true := by simpa using hafter
  unfold trimChars
  rw [List.dropWhile_append_of_pos hbefore, List.dropWhile_append]
  split
  · next hempty =>
    rw [List.isEmpty_iff.mp hempty, hnone]
  · rw [List.reverse_append, List.dropWhile_append_of_pos hreverse]

/-- Trimming twice is trimming once. -/
theorem trim_trim (s : String) : trim (trim s) = trim s := by
  obtain ⟨before, after, hs, hbefore, hafter⟩ := exists_append_trimChars s.toList
  have htrimmed := trimChars_append hbefore hafter (trimChars s.toList)
  rw [← hs] at htrimmed
  rw [trim, trim, String.toList_ofList, ← htrimmed]

end Text

namespace Token

/-! ### White space behind a lexeme -/

theorem startsWord_of_isSpace {c : Char} (h : Text.isSpace c = true) : startsWord c = false := by
  have hletter := Text.isLetterOrNumeric_of_isSpace h
  rw [Text.isLetterOrNumeric, Bool.or_eq_false_iff] at hletter
  have hunderscore : c ≠ '_' := by
    rintro rfl
    revert h
    decide
  simp [startsWord, hletter.1, hunderscore]

section Blank

variable {blank : List Char} (hblank : ∀ c ∈ blank, Text.isSpace c = true)
include hblank

/-- What holds of no white space is not found at its beginning. -/
theorem any_head?_append_blank {p : Char → Bool} (hp : ∀ c, Text.isSpace c = true → p c = false)
    (cs : List Char) : (cs ++ blank).head?.any p = cs.head?.any p := by
  cases cs with
  | cons c cs => rfl
  | nil =>
    cases blank with
    | nil => rfl
    | cons c blank => exact hp c (hblank c (.head blank))

theorem spanWord_append_blank (cs : List Char) :
    spanWord (cs ++ blank) = ((spanWord cs).1, (spanWord cs).2 ++ blank) := by
  induction cs with
  | nil =>
    cases blank with
    | nil => rfl
    | cons c blank =>
      have hspace := hblank c (.head blank)
      have hletter := Text.isLetterOrNumeric_of_isSpace hspace
      have hends : c ≠ '_' ∧ c ≠ '.' := by
        constructor <;> (rintro rfl; revert hspace; decide)
      simp [spanWord, hletter, hends]
  | cons c cs ih =>
    rw [List.cons_append, spanWord, spanWord,
      any_head?_append_blank hblank fun _ ↦ startsWord_of_isSpace, ih]
    split <;> rfl

theorem spanDigits_append_blank (cs : List Char) :
    Number.spanDigits (cs ++ blank) =
      ((Number.spanDigits cs).1, (Number.spanDigits cs).2 ++ blank) := by
  have hends : ((Number.spanDigits cs).2 ++ blank).head?.any Text.isDigit = false := by
    have hbehind := List.head?_dropWhile_not Text.isDigit cs
    rw [any_head?_append_blank hblank fun _ ↦ Text.isDigit_of_isSpace, Number.spanDigits]
    cases hhead : (cs.dropWhile Text.isDigit).head? with
    | none => rfl
    | some c => simpa [hhead] using hbehind
  conv_lhs => rw [← fst_append_snd_spanDigits cs, List.append_assoc]
  exact Number.spanDigits_append (areDigits_spanDigits cs) fun c hc ↦ by
    simpa [Option.mem_def.mp hc] using hends

theorem spanFraction_append_blank (cs : List Char) :
    spanFraction (cs ++ blank) = ((spanFraction cs).1, (spanFraction cs).2 ++ blank) := by
  have hpoint {c : Char} (hc : c ≠ '.') (rest : List Char) :
      spanFraction (c :: rest) = ([], c :: rest) := by
    unfold spanFraction
    split
    · next heq => exact absurd (List.cons.inj heq).1 hc
    · rfl
  cases cs with
  | nil =>
    cases blank with
    | nil => rfl
    | cons c blank =>
      refine hpoint ?_ blank
      rintro rfl
      exact absurd (hblank '.' (.head blank)) (by decide)
  | cons c cs =>
    by_cases hc : c = '.'
    · subst hc
      rw [List.cons_append, spanFraction, spanFraction,
        any_head?_append_blank hblank fun _ ↦ Text.isDigit_of_isSpace,
        spanDigits_append_blank hblank]
      split <;> rfl
    · rw [List.cons_append, hpoint hc, hpoint hc]
      rfl

theorem spanExponentSign_append_blank (cs : List Char) :
    spanExponentSign (cs ++ blank) =
      ((spanExponentSign cs).1, (spanExponentSign cs).2 ++ blank) := by
  cases cs with
  | nil =>
    cases blank with
    | nil => rfl
    | cons c blank =>
      refine if_neg ?_
      rintro (rfl | rfl) <;> exact absurd (hblank _ (.head blank)) (by decide)
  | cons c cs =>
    rw [List.cons_append, spanExponentSign, spanExponentSign]
    split <;> rfl

theorem spanExponent_append_blank (cs : List Char) :
    spanExponent (cs ++ blank) = ((spanExponent cs).1, (spanExponent cs).2 ++ blank) := by
  cases cs with
  | nil =>
    cases blank with
    | nil => rfl
    | cons c blank =>
      refine if_neg ?_
      rintro ⟨rfl | rfl, -⟩ <;> exact absurd (hblank _ (.head blank)) (by decide)
  | cons c cs =>
    rw [List.cons_append, spanExponent, spanExponent, spanExponentSign_append_blank hblank]
    dsimp only
    rw [any_head?_append_blank hblank fun _ ↦ Text.isDigit_of_isSpace,
      spanDigits_append_blank hblank]
    split <;> rfl

theorem spanNumeral_append_blank (cs : List Char) :
    spanNumeral (cs ++ blank) = ((spanNumeral cs).1, (spanNumeral cs).2 ++ blank) := by
  simp only [spanNumeral, spanDigits_append_blank hblank, spanFraction_append_blank hblank,
    spanExponent_append_blank hblank]

theorem equals_append_blank (cs : List Char) :
    ((cs ++ blank).head? == some '=') = (cs.head? == some '=') ∧
      (if (cs ++ blank).head? == some '=' then (cs ++ blank).tail else cs ++ blank) =
        (if cs.head? == some '=' then cs.tail else cs) ++ blank := by
  cases cs with
  | nil =>
    cases blank with
    | nil => exact ⟨rfl, rfl⟩
    | cons c blank =>
      have hequals : c ≠ '=' := by
        rintro rfl
        exact absurd (hblank '=' (.head blank)) (by decide)
      simp [hequals]
  | cons c cs =>
    refine ⟨rfl, ?_⟩
    by_cases hequals : c = '=' <;> simp [hequals]

/-- A quotation ends before white space that stands at the end. -/
theorem exists_quoted?_of_append_blank {quote : Char} (hquote : quote = '\'' ∨ quote = '"')
    {cs : List Char} {r : List Char × List Char} (h : quoted? quote (cs ++ blank) = some r) :
    ∃ behind, quoted? quote cs = some (r.1, behind) ∧ r.2 = behind ++ blank := by
  have hbackslash : quote ≠ '\\' := by obtain rfl | rfl := hquote <;> decide
  have hspace : Text.isSpace quote = false := by obtain rfl | rfl := hquote <;> decide
  obtain ⟨content, hcs, hcontent⟩ := (quoted?_eq_some_iff hbackslash).mp h
  obtain ⟨behind, hbehind, hrest⟩ | ⟨inside, hinside, hrest⟩ := List.append_eq_append_iff.mp hcs
  · -- The closing quote would be white space.
    exact absurd (hblank quote (by rw [hrest]; simp)) (by simp [hspace])
  · cases inside with
    | nil =>
      rw [List.nil_append] at hrest
      exact absurd (hblank quote (by rw [← hrest]; simp)) (by simp [hspace])
    | cons d behind =>
      rw [List.cons_append] at hrest
      obtain ⟨rfl, hbehind⟩ := List.cons.inj hrest
      exact ⟨behind, (quoted?_eq_some_iff hbackslash).mpr ⟨content, hinside, hcontent⟩, hbehind⟩

/-- What is scanned in front of white space is scanned without it. -/
theorem exists_scans_of_append_blank {position : Nat} {c : Char} {cs all : List Char}
    (hall : cs ++ blank = all) {s : Scan all} (hspace : Text.isSpace c = false)
    (h : scan position c all = .ok s) :
    ∃ after, Scans c cs s.token after ∧ s.rest = after ++ blank := by
  subst hall
  unfold scan at h
  split at h
  · next token hsymbol =>
    obtain rfl := Except.ok.inj h
    exact ⟨cs, scans_symbol hsymbol, rfl⟩
  · next hsymbol =>
    split at h
    · next hcompare =>
      obtain ⟨hequals, hrest⟩ := equals_append_blank hblank cs
      split at h
      · next op hop =>
        obtain rfl := Except.ok.inj h
        rw [hequals] at hop
        exact ⟨_, scans_comparison hcompare hop, hrest⟩
      · cases h
    · next hcompare =>
      split at h
      · next hquote =>
        split at h
        · next r hr =>
          obtain rfl := Except.ok.inj h
          obtain ⟨behind, hbehind, hrest⟩ := exists_quoted?_of_append_blank hblank hquote hr
          exact ⟨behind, scans_quotation hquote hbehind, hrest⟩
        · cases h
      · next hquote =>
        split at h
        · next hdigit =>
          simp only [spanNumeral_append_blank hblank] at h
          split at h
          · next value hvalue =>
            obtain rfl := Except.ok.inj h
            exact ⟨_, scans_numeral hdigit hvalue, rfl⟩
          · cases h
        · next hdigit =>
          split at h
          · next hword =>
            simp only [spanWord_append_blank hblank] at h
            obtain rfl := Except.ok.inj h
            exact ⟨_, scans_word hspace hword, rfl⟩
          · cases h

/-- So are the tokens of characters with white space at their end. -/
theorem Cuts.of_append_blank {cs : List Char} {ts : List Token} (h : Cuts (cs ++ blank) ts []) :
    Cuts cs ts [] := by
  generalize hall : cs ++ blank = all at h
  generalize hend : ([] : List Char) = rest at h
  induction h generalizing cs blank with
  | nil all =>
    subst hend
    obtain ⟨rfl, -⟩ := List.append_eq_nil_iff.mp hall
    exact .nil []
  | @space c all rest ts hc h ih =>
    cases cs with
    | nil =>
      rw [List.nil_append] at hall
      subst hall
      exact ih (fun d hd ↦ hblank d (.tail c hd)) (List.nil_append all) hend
    | cons d cs =>
      obtain ⟨rfl, rfl⟩ := List.cons.inj hall
      exact .space hc (ih hblank rfl hend)
  | @token c all after rest t ts hc hscan h ih =>
    cases cs with
    | nil =>
      rw [List.nil_append] at hall
      subst hall
      rw [hblank c (.head all)] at hc
      cases hc
    | cons d cs =>
      obtain ⟨rfl, rfl⟩ := List.cons.inj hall
      obtain ⟨fits, hscan⟩ := hscan 0
      obtain ⟨behind, hscans, hafter⟩ := exists_scans_of_append_blank hblank rfl hc hscan
      exact .token hc hscans (ih hblank hafter.symm hend)

/-- White space in front adds no token either. -/
theorem Cuts.of_blank_append {cs : List Char} {ts : List Token} (h : Cuts (blank ++ cs) ts []) :
    Cuts cs ts [] := by
  induction blank with
  | nil => exact h
  | cons c blank ih =>
    obtain ⟨hc, hblank⟩ := List.forall_mem_cons.mp hblank
    cases h with
    | space _ h => exact ih hblank h
    | token hc' _ _ =>
      rw [hc] at hc'
      cases hc'

end Blank

/-- What is scanned does not depend on where it stands. -/
theorem scans_of_scan {position : Nat} {c : Char} {cs : List Char} {s : Scan cs}
    (hspace : Text.isSpace c = false) (h : scan position c cs = .ok s) :
    Scans c cs s.token s.rest := by
  have hblank : ∀ c ∈ ([] : List Char), Text.isSpace c = true := fun _ hc ↦ by cases hc
  obtain ⟨after, hscans, hrest⟩ :=
    exists_scans_of_append_blank hblank (List.append_nil cs) hspace h
  rwa [hrest, List.append_nil]

/-- Characters that are cut into tokens begin with their lexemes and have nothing behind them. -/
theorem cuts_of_scanAll {position : Nat} {cs : List Char} {placed : List Placed}
    (h : scanAll position cs = .ok placed) : Cuts cs (placed.map Placed.token) [] := by
  fun_induction scanAll position cs generalizing placed with
  | case1 =>
    obtain rfl := Except.ok.inj h
    exact .nil []
  | case2 position c rest hspace ih => exact .space hspace (ih h)
  | case3 position c rest hspace ih =>
    obtain ⟨s, hs, h⟩ := exists_of_bind_eq_ok h
    obtain ⟨behind, hbehind, rfl⟩ := exists_of_map_eq_ok h
    have hspace : Text.isSpace c = false := Bool.eq_false_iff.mpr hspace
    exact .token hspace (scans_of_scan hspace hs) (ih s hbehind)

/-- A text without the white space around it is cut into the same tokens. -/
theorem cuts_trim {source : String} {ts : List Token} (h : Cuts source.toList ts []) :
    Cuts (Text.trim source).toList ts [] := by
  obtain ⟨before, after, hsource, hbefore, hafter⟩ := Text.exists_append_trimChars source.toList
  rw [hsource] at h
  rw [Text.trim, String.toList_ofList]
  exact (h.of_blank_append hbefore).of_append_blank hafter

end Token

/-! ### Tests -/

/-- What is read from a text is read from it without the white space around it. -/
theorem Expr.parse_trim {source : String} {e : Expr} (h : parse source = .ok e) :
    parse (Text.trim source) = .ok e := by
  obtain ⟨placed, hplaced, htree⟩ := exists_of_bind_eq_ok h
  obtain ⟨-, hlength, d, htokens, hnesting, rfl⟩ := exists_of_ofTokens_eq_ok htree
  refine parse_eq_ok d ?_ ?_ hnesting
  · rw [htokens]
    exact Token.cuts_trim (Token.cuts_of_scanAll hplaced)
  · rw [htokens, List.length_map]
    exact hlength

/-- The results of a test carry its source. -/
theorem CompiledTest.expression_of_mem_evaluate {c : CompiledTest} {ms : MeasurementSet}
    {r : TestResult} (h : r ∈ c.evaluate ms) : r.expression = c.expression.source := by
  unfold evaluate evaluateGroups at h
  split at h
  · split at h
    · obtain ⟨row, -, rfl⟩ := List.mem_map.mp h
      rfl
    all_goals
      obtain rfl := List.mem_singleton.mp h
      rfl
  · obtain rfl := List.mem_singleton.mp h
    rfl

/-- The source of a test is the test: what is read from a text is read again, as it is, from the
trimmed text that is kept of it, and each result of a test carries a text that the test is read
from. -/
theorem TestExpression.parse_source {source : String} {t : TestExpression}
    (h : parse source = .ok t) :
    t.source = Text.trim source ∧ parse t.source = .ok t ∧
      ∀ c : CompiledTest, c.expression = t → ∀ (ms : MeasurementSet), ∀ r ∈ c.evaluate ms,
        parse r.expression = .ok t := by
  obtain ⟨tree, htree, rfl⟩ := exists_of_map_eq_ok h
  have hagain : parse (Text.trim source) = .ok ⟨Text.trim source, tree⟩ := by
    rw [parse, Expr.parse_trim htree, Text.trim_trim]
    rfl
  refine ⟨rfl, hagain, fun c hc ms r hr ↦ ?_⟩
  rw [CompiledTest.expression_of_mem_evaluate hr, hc]
  exact hagain

/-- A test with white space around it is read again from what its results show of it. -/
theorem TestExpression.parse_source_of_blanks :
    ∃ t : TestExpression, parse "\t a < 5 \n" = .ok t ∧ t.source = "a < 5" ∧
      parse "a < 5" = .ok t := by
  let d : ParseTree (.chain .comparison) :=
    .chain (.ofAtom (.identifier "a")) (.cons (.comparison .lt) rfl (.ofAtom (.number 5)) .nil)
  have hcuts : Token.Cuts "\t a < 5 \n".toList d.tokens [] :=
    .space (by decide) <| .space (by decide) <| (Token.Cuts.nameA (.space _)).trans <|
      .space (by decide) <| (Token.Cuts.comparison .lt _).trans <|
      .space (by decide) <| (Token.Cuts.five (.space _)).trans <|
      .space (by decide) <| .space (by decide) <| .nil []
  have hread : parse "\t a < 5 \n" = .ok ⟨Text.trim "\t a < 5 \n", d.expr⟩ := by
    rw [parse, Expr.parse_eq_ok d hcuts (by decide) (by decide)]
    rfl
  have hsource : Text.trim "\t a < 5 \n" = "a < 5" := by decide +kernel
  have hagain := (parse_source hread).2.1
  rw [hsource] at hread hagain
  exact ⟨_, hread, rfl, hagain⟩

end DataQuality
