import Mathlib.Algebra.BigOperators.Group.List.Basic
import Mathlib.Data.Rat.Defs
import Mathlib.Tactic.FieldSimp
import DataQuality.Dialect.Expression
import DataQuality.Proofs.NumberStyles

/-!
# Number formats

What the casts make of the texts that the number formats are found in. The replacements leave a
plain numeral for the number that the text denotes, but not in the formats for money where a point
separates groups or a comma the cents.
-/

namespace DataQuality

/-! ### Plain numerals -/

/-- Digits, and a point with digits behind it where there is a fraction. -/
def withPoint (whole : List Char) (fraction : Option (List Char)) : List Char :=
  whole ++ fraction.elim [] ('.' :: ·)

/-- Whether the characters are a plain decimal numeral for the number: a sign or none, and digits
with at most one point among them. Blanks may stand around it. -/
def PlainNumeral (cs : List Char) (q : ℚ) : Prop :=
  ∃ before sign whole fraction after,
    cs = before ++ (sign ++ (withPoint whole fraction ++ after)) ∧
    (∀ c ∈ before, c = ' ') ∧ (∀ c ∈ after, c = ' ') ∧ sign ∈ [[], ['-'], ['+']] ∧
    (∀ c ∈ whole, Text.isDigit c = true) ∧ (∀ cs ∈ fraction, ∀ c ∈ cs, Text.isDigit c = true) ∧
    whole ++ fraction.getD [] ≠ [] ∧
    q = signedDecimal sign (whole ++ fraction.getD []) (fraction.getD []).length

/-- How many characters stand behind the first point. -/
def behindPoint (body : List Char) : Nat := (body.dropWhile (· ≠ '.')).tail.length

section

variable {body whole sign after : List Char} {fraction : Option (List Char)}

theorem ne_point_of_isDigit {c : Char} (h : Text.isDigit c = true) : c ≠ '.' := by
  rintro rfl
  exact absurd h (by decide)

theorem mem_withPoint (hwhole : ∀ c ∈ whole, Text.isDigit c = true)
    (hfraction : ∀ cs ∈ fraction, ∀ c ∈ cs, Text.isDigit c = true) :
    ∀ c ∈ withPoint whole fraction, Text.isDigit c = true ∨ c = '.' := by
  intro c hc
  rcases List.mem_append.mp hc with hc | hc
  · exact .inl (hwhole c hc)
  · cases fraction with
    | none => cases hc
    | some cs => exact (List.mem_cons.mp hc).symm.imp_left (hfraction cs rfl c)

theorem filter_withPoint (hwhole : ∀ c ∈ whole, Text.isDigit c = true)
    (hfraction : ∀ cs ∈ fraction, ∀ c ∈ cs, Text.isDigit c = true) :
    (withPoint whole fraction).filter Text.isDigit = whole ++ fraction.getD [] := by
  cases fraction with
  | none => simpa [withPoint] using hwhole
  | some cs =>
    have hpoint : Text.isDigit '.' = false := by decide
    simp [withPoint, hpoint, List.filter_eq_self.mpr hwhole,
      List.filter_eq_self.mpr (hfraction cs rfl)]

theorem count_withPoint (hwhole : ∀ c ∈ whole, Text.isDigit c = true)
    (hfraction : ∀ cs ∈ fraction, ∀ c ∈ cs, Text.isDigit c = true) :
    (withPoint whole fraction).count '.' ≤ 1 := by
  have hzero : ∀ {cs : List Char}, (∀ c ∈ cs, Text.isDigit c = true) → cs.count '.' = 0 :=
    fun h ↦ List.count_eq_zero.mpr fun hmem ↦ ne_point_of_isDigit (h _ hmem) rfl
  cases fraction with
  | none => simp [withPoint, hzero hwhole]
  | some cs => simp [withPoint, hzero hwhole, hzero (hfraction cs rfl)]

theorem behindPoint_withPoint (hwhole : ∀ c ∈ whole, Text.isDigit c = true) :
    behindPoint (withPoint whole fraction) = (fraction.getD []).length := by
  have hdrop : ∀ rest : List Char,
      (whole ++ rest).dropWhile (· ≠ '.') = rest.dropWhile (· ≠ '.') := fun rest ↦
    List.dropWhile_append_of_pos fun c hc ↦ by simpa using ne_point_of_isDigit (hwhole c hc)
  rw [behindPoint, withPoint, hdrop]
  cases fraction <;> rfl

/-- Digits with at most one point among them. -/
theorem exists_eq_withPoint (hbody : ∀ c ∈ body, Text.isDigit c = true ∨ c = '.')
    (hcount : body.count '.' ≤ 1) : ∃ whole fraction, body = withPoint whole fraction ∧
      (∀ c ∈ whole, Text.isDigit c = true) ∧
      ∀ cs ∈ fraction, ∀ c ∈ cs, Text.isDigit c = true := by
  have hdigits : ∀ cs : List Char, (∀ c ∈ cs, c ∈ body) → '.' ∉ cs →
      ∀ c ∈ cs, Text.isDigit c = true := fun cs hmem hpoint c hc ↦
    (hbody c (hmem c hc)).resolve_right fun heq ↦ hpoint (heq ▸ hc)
  by_cases hmem : '.' ∈ body
  · obtain ⟨whole, cs, rfl⟩ := List.append_of_mem hmem
    rw [List.count_append, List.count_cons_self] at hcount
    refine ⟨whole, some cs, rfl, hdigits whole (fun c hc ↦ List.mem_append_left _ hc)
      (List.count_eq_zero.mp (by omega)), fun _ hcs ↦ ?_⟩
    obtain rfl := Option.some.inj hcs
    exact hdigits _ (fun c hc ↦ List.mem_append_right _ (.tail _ hc))
      (List.count_eq_zero.mp (by omega))
  · exact ⟨body, none, (List.append_nil _).symm, hdigits body (fun _ hc ↦ hc) hmem, by simp⟩

/-- Digits and points behind a sign are a plain numeral if there is at most one point, and then for
one number only. -/
theorem plainNumeral_iff {q : ℚ} (hsign : sign ∈ [[], ['-'], ['+']])
    (hbody : ∀ c ∈ body, Text.isDigit c = true ∨ c = '.')
    (hne : body.filter Text.isDigit ≠ []) (hafter : ∀ c ∈ after, c = ' ') :
    PlainNumeral (sign ++ (body ++ after)) q ↔
      body.count '.' ≤ 1 ∧
        q = signedDecimal sign (body.filter Text.isDigit) (behindPoint body) := by
  constructor
  · rintro ⟨before, sign', whole, fraction, after', heq, hbefore, hafter', hsign', hwhole,
      hfraction, -, rfl⟩
    -- without the blanks, what is left is the sign and the digits with their points
    have hkeep : ∀ {cs : List Char}, (∀ c ∈ cs, Text.isDigit c = true ∨ c = '.') →
        cs.filter (· ≠ ' ') = cs := fun h ↦ List.filter_eq_self.mpr fun c hc ↦ by
      rcases h c hc with hdigit | rfl
      · exact decide_eq_true fun hblank ↦ absurd (hblank ▸ hdigit) (by decide)
      · rfl
    have hdrop : ∀ {cs : List Char}, (∀ c ∈ cs, c = ' ') → cs.filter (· ≠ ' ') = [] :=
      fun h ↦ List.filter_eq_nil_iff.mpr fun c hc ↦ by simp [h c hc]
    have hsigns : ∀ cs ∈ [[], ['-'], ['+']], cs.filter (· ≠ ' ') = cs := by decide
    have hwithPoint := mem_withPoint hwhole hfraction
    have hends : ∀ {cs : List Char}, (∀ c ∈ cs, Text.isDigit c = true ∨ c = '.') →
        ∀ c ∈ cs.head?, ['-', '+'].contains c = false := fun h c hc ↦ by
      rcases h c (List.mem_of_mem_head? hc) with hdigit | rfl
      · simp only [List.contains_cons, Bool.or_eq_false_iff, beq_eq_false_iff_ne]
        exact ⟨fun h ↦ absurd (h ▸ hdigit) (by decide),
          fun h ↦ absurd (h ▸ hdigit) (by decide), rfl⟩
      · rfl
    have heq := congrArg (List.filter (· ≠ ' ')) heq
    simp only [List.filter_append, hkeep hbody, hkeep hwithPoint, hdrop hafter, hdrop hafter',
      hdrop hbefore, hsigns _ hsign, hsigns _ hsign', List.append_nil, List.nil_append] at heq
    obtain ⟨rfl, rfl⟩ := NumberStyle.eq_and_eq_of_append_eq ['-', '+'].contains
      (NumberStyle.isSign_of_mem hsign) (NumberStyle.isSign_of_mem hsign') (hends hbody)
      (hends hwithPoint) heq
    exact ⟨count_withPoint hwhole hfraction, by
      rw [filter_withPoint hwhole hfraction, behindPoint_withPoint hwhole]⟩
  · rintro ⟨hcount, rfl⟩
    obtain ⟨whole, fraction, rfl, hwhole, hfraction⟩ := exists_eq_withPoint hbody hcount
    rw [filter_withPoint hwhole hfraction] at hne ⊢
    rw [behindPoint_withPoint hwhole]
    exact ⟨[], sign, whole, fraction, after, rfl, List.forall_mem_nil _, hafter, hsign, hwhole,
      hfraction, hne, rfl⟩

end

/-! ### Where the point stands -/

theorem signedDecimal_eq_zero_iff {sign digits : List Char} {places : Nat} :
    signedDecimal sign digits places = 0 ↔ Number.digitsValue digits = 0 := by
  unfold signedDecimal
  split <;> simp

/-- Where the point stands makes a difference, but not for zero. -/
theorem signedDecimal_eq_iff {sign digits : List Char} {a b : Nat} :
    signedDecimal sign digits a = signedDecimal sign digits b ↔
      signedDecimal sign digits a = 0 ∨ a = b := by
  rw [signedDecimal_eq_zero_iff]
  constructor
  · intro h
    by_cases hzero : Number.digitsValue digits = 0
    · exact .inl hzero
    · right
      have hvalue : (Number.digitsValue digits : ℚ) ≠ 0 := Nat.cast_ne_zero.mpr hzero
      have hsign : (if sign = ['-'] then -1 else 1 : ℚ) ≠ 0 := by split <;> norm_num
      rw [signedDecimal, signedDecimal, div_eq_mul_inv, div_eq_mul_inv] at h
      have hpow : (10 : ℚ) ^ a = 10 ^ b :=
        inv_injective (mul_left_cancel₀ (mul_ne_zero hsign hvalue) h)
      exact Nat.pow_right_injective (by norm_num : 2 ≤ 10) (by exact_mod_cast hpow)
  · rintro (hzero | rfl)
    · simp [signedDecimal, hzero]
    · rfl


/-! ### Cleaned numbers -/

/-- What is made of characters one by one, where the numbers are in the style: digits and signs are
kept, what separates digits is dropped or becomes a point, and only blanks are left of the rest. -/
structure Cleans (clean : Char → List Char) (style : NumberStyle) : Prop where
  digit : ∀ c, Text.isDigit c = true → clean c = [c]
  sign : ∀ c ∈ ['-', '+'], clean c = [c]
  separator : ∀ c ∈ style.separators, clean c = [] ∨ clean c = ['.']
  decimal : ∀ c ∈ style.decimals, clean c = [] ∨ clean c = ['.']
  lead : ∀ x ∈ style.leads, x.flatMap clean = []
  tail : ∀ x ∈ style.tails, ∀ c ∈ x.flatMap clean, c = ' '

namespace StyledNumber

/-- What is left of the digits and of what separates them. -/
def cleanedBody (clean : Char → List Char) (n : StyledNumber) : List Char :=
  n.head ++ (n.groups.flatMap (fun g ↦ clean g.1 ++ g.2) ++
    n.fraction.elim [] fun f ↦ clean f.1 ++ f.2)

/-- Whether groups are not kept apart and a fraction is. -/
def KeepsPoint (clean : Char → List Char) (n : StyledNumber) : Prop :=
  (∀ g ∈ n.groups, clean g.1 = []) ∧ ∀ f ∈ n.fraction, clean f.1 = ['.']

end StyledNumber

section

variable {clean : Char → List Char} {style : NumberStyle} {n : StyledNumber}

theorem flatMap_eq_self {cs : List Char} (h : ∀ c ∈ cs, clean c = [c]) : cs.flatMap clean = cs := by
  rw [List.flatMap_congr h, List.flatMap_singleton']

theorem Cleans.digits (h : Cleans clean style) {cs : List Char}
    (hcs : ∀ c ∈ cs, Text.isDigit c = true) : cs.flatMap clean = cs :=
  flatMap_eq_self fun c hc ↦ h.digit c (hcs c hc)

theorem Cleans.flatMap_text (h : Cleans clean style) (hn : style.Writes n) :
    n.text.flatMap clean = n.sign ++ (n.cleanedBody clean ++ n.tail.flatMap clean) := by
  have hsign : n.sign.flatMap clean = n.sign := flatMap_eq_self fun c hc ↦
    h.sign c (List.contains_iff_mem.mp (NumberStyle.isSign_of_mem hn.sign c hc))
  have hgroups : (n.groups.flatMap StyledNumber.separated).flatMap clean =
      n.groups.flatMap fun g ↦ clean g.1 ++ g.2 := by
    rw [List.flatMap_assoc]
    refine List.flatMap_congr fun g hg ↦ ?_
    rw [StyledNumber.separated, List.flatMap_cons, h.digits (hn.groups g hg).digits]
  have hfraction : (n.fraction.elim [] StyledNumber.separated).flatMap clean =
      n.fraction.elim [] fun f ↦ clean f.1 ++ f.2 := by
    cases hf : n.fraction with
    | none => rfl
    | some f =>
      rw [Option.elim_some, Option.elim_some, StyledNumber.separated, List.flatMap_cons,
        h.digits (hn.fraction f hf).digits]
  simp only [StyledNumber.text, StyledNumber.cleanedBody, List.flatMap_append, hsign,
    h.lead _ hn.lead, h.digits hn.head, hgroups, hfraction, List.nil_append, List.append_assoc]

theorem Cleans.mem_cleanedBody (h : Cleans clean style) (hn : style.Writes n) :
    ∀ c ∈ n.cleanedBody clean, Text.isDigit c = true ∨ c = '.' := by
  have hmark : ∀ {d : Char}, clean d = [] ∨ clean d = ['.'] → ∀ c ∈ clean d, c = '.' := by
    rintro d (hd | hd) c hc
    · cases hd ▸ hc
    · exact List.mem_singleton.mp (hd ▸ hc)
  simp only [StyledNumber.cleanedBody, List.mem_append, List.mem_flatMap]
  rintro c (hc | ⟨g, hg, hc | hc⟩ | hc)
  · exact .inl (hn.head c hc)
  · exact .inr (hmark (h.separator _ (hn.groups g hg).separator) c hc)
  · exact .inl ((hn.groups g hg).digits c hc)
  · cases hf : n.fraction with
    | none =>
      rw [hf] at hc
      cases hc
    | some f =>
      rw [hf] at hc
      obtain hc | hc := List.mem_append.mp hc
      · exact .inr (hmark (h.decimal _ (hn.fraction f hf).separator) c hc)
      · exact .inl ((hn.fraction f hf).digits c hc)

theorem Cleans.filter_cleanedBody (h : Cleans clean style) (hn : style.Writes n) :
    (n.cleanedBody clean).filter Text.isDigit = n.digits := by
  have hmark : ∀ {d : Char}, clean d = [] ∨ clean d = ['.'] →
      (clean d).filter Text.isDigit = [] := by
    rintro d (hd | hd) <;> rw [hd] <;> rfl
  have hgroups : (n.groups.flatMap fun g ↦ clean g.1 ++ g.2).filter Text.isDigit =
      n.groups.flatMap Prod.snd := by
    rw [List.filter_flatMap]
    refine List.flatMap_congr fun g hg ↦ ?_
    rw [List.filter_append, hmark (h.separator _ (hn.groups g hg).separator), List.nil_append,
      List.filter_eq_self.mpr (hn.groups g hg).digits]
  have hfraction : (n.fraction.elim [] fun f ↦ clean f.1 ++ f.2).filter Text.isDigit =
      n.fraction.elim [] Prod.snd := by
    cases hf : n.fraction with
    | none => rfl
    | some f =>
      rw [Option.elim_some, Option.elim_some, List.filter_append,
        hmark (h.decimal _ (hn.fraction f hf).separator), List.nil_append,
        List.filter_eq_self.mpr (hn.fraction f hf).digits]
  simp only [StyledNumber.cleanedBody, StyledNumber.digits, List.filter_append, hgroups,
    hfraction, List.filter_eq_self.mpr hn.head]

theorem NumberStyle.Writes.digits_ne_nil (hn : style.Writes n) : n.digits ≠ [] := by
  obtain hhead | ⟨-, hfraction⟩ := hn.head_ne
  · exact List.append_ne_nil_of_left_ne_nil hhead _
  · obtain ⟨f, hf⟩ := Option.isSome_iff_exists.mp hfraction
    have hne := (hn.fraction f hf).ne_nil
    simp [StyledNumber.digits, hf, hne]

theorem NumberStyle.Writes.isDigit_of_mem_digits (hn : style.Writes n) :
    ∀ c ∈ n.digits, Text.isDigit c = true := by
  simp only [StyledNumber.digits, List.mem_append, List.mem_flatMap]
  rintro c (hc | ⟨g, hg, hc⟩ | hc)
  · exact hn.head c hc
  · exact (hn.groups g hg).digits c hc
  · cases hf : n.fraction with
    | none =>
      rw [hf] at hc
      cases hc
    | some f =>
      rw [hf] at hc
      exact (hn.fraction f hf).digits c hc

/-- What the point of a cleaned number has to do for it to be the number that was written. -/
theorem Cleans.plainNumeral_iff (h : Cleans clean style) (hn : style.Writes n) :
    PlainNumeral (n.text.flatMap clean) n.value ↔ (n.cleanedBody clean).count '.' ≤ 1 ∧
      (n.value = 0 ∨ behindPoint (n.cleanedBody clean) = n.places) := by
  rw [h.flatMap_text hn, DataQuality.plainNumeral_iff hn.sign (h.mem_cleanedBody hn)
    (by rw [h.filter_cleanedBody hn]; exact hn.digits_ne_nil) (h.tail _ hn.tail),
    h.filter_cleanedBody hn, StyledNumber.value, signedDecimal_eq_iff, eq_comm (a := n.places)]

/-- Where the cleaning keeps the point, the cleaned number is one with a point. -/
theorem StyledNumber.KeepsPoint.cleanedBody_eq (h : n.KeepsPoint clean) :
    n.cleanedBody clean =
      withPoint (n.head ++ n.groups.flatMap Prod.snd) (n.fraction.map Prod.snd) := by
  have hgroups : (n.groups.flatMap fun g ↦ clean g.1 ++ g.2) = n.groups.flatMap Prod.snd :=
    List.flatMap_congr fun g hg ↦ by rw [h.1 g hg, List.nil_append]
  rw [StyledNumber.cleanedBody, hgroups, withPoint, List.append_assoc]
  cases hf : n.fraction with
  | none => rfl
  | some f =>
    simp [h.2 f hf]

theorem le_behindPoint (before after : List Char) :
    after.length ≤ behindPoint (before ++ '.' :: after) := by
  induction before with
  | nil => exact le_of_eq rfl
  | cons c rest ih =>
    by_cases hc : c = '.'
    · simp [behindPoint, hc]
      omega
    · simpa [behindPoint, hc] using ih

/-- A cleaned number has its point where the written one has it if the cleaning keeps it. -/
theorem Cleans.keepsPoint_iff (h : Cleans clean style) (hn : style.Writes n) :
    n.KeepsPoint clean ↔ (n.cleanedBody clean).count '.' ≤ 1 ∧
      behindPoint (n.cleanedBody clean) = n.places := by
  constructor
  · intro hkeeps
    have hwhole : ∀ c ∈ n.head ++ n.groups.flatMap Prod.snd, Text.isDigit c = true := by
      refine List.forall_mem_append.mpr ⟨hn.head, fun c hc ↦ ?_⟩
      obtain ⟨g, hg, hc⟩ := List.mem_flatMap.mp hc
      exact (hn.groups g hg).digits c hc
    have hfraction : ∀ cs ∈ n.fraction.map Prod.snd, ∀ c ∈ cs, Text.isDigit c = true := by
      intro cs hcs
      obtain ⟨f, hf, rfl⟩ := Option.map_eq_some_iff.mp hcs
      exact (hn.fraction f hf).digits
    rw [hkeeps.cleanedBody_eq, behindPoint_withPoint hwhole]
    refine ⟨count_withPoint hwhole hfraction, ?_⟩
    cases hf : n.fraction <;> simp [StyledNumber.places, hf]
  · rintro ⟨-, hplaces⟩
    have hlength : n.places ≤ (n.fraction.elim [] fun f ↦ clean f.1 ++ f.2).length := by
      cases hf : n.fraction <;> simp [StyledNumber.places, hf]
    have hgroups : ∀ g ∈ n.groups, clean g.1 = [] := by
      -- behind a point that was kept from a group, there would be the group and the fraction
      intro g hg
      refine (h.separator _ (hn.groups g hg).separator).resolve_right fun hpoint ↦ ?_
      obtain ⟨before, after, hsplit⟩ := List.append_of_mem hg
      have hle := le_behindPoint (n.head ++ before.flatMap fun g ↦ clean g.1 ++ g.2)
        (g.2 ++ (after.flatMap (fun g ↦ clean g.1 ++ g.2) ++
          n.fraction.elim [] fun f ↦ clean f.1 ++ f.2))
      have hbody : n.cleanedBody clean = (n.head ++ before.flatMap fun g ↦ clean g.1 ++ g.2) ++
          '.' :: (g.2 ++ (after.flatMap (fun g ↦ clean g.1 ++ g.2) ++
            n.fraction.elim [] fun f ↦ clean f.1 ++ f.2)) := by
        simp [StyledNumber.cleanedBody, hsplit, hpoint]
      rw [← hbody, hplaces, List.length_append, List.length_append,
        (hn.groups g hg).length] at hle
      omega
    refine ⟨hgroups, fun f hmem ↦ ?_⟩
    have hf : n.fraction = some f := hmem
    refine (h.decimal _ (hn.fraction f hf).separator).resolve_left fun hnone ↦ ?_
    -- if all that separates digits is dropped, there is no point for the fraction to stand behind
    have hbody : n.cleanedBody clean = withPoint n.digits none := by
      have hdigits := List.flatMap_congr (l := n.groups) fun g hg ↦
        show clean g.1 ++ g.2 = g.2 by rw [hgroups g hg, List.nil_append]
      simp [StyledNumber.cleanedBody, StyledNumber.digits, withPoint, hdigits, hf, hnone]
    rw [hbody, behindPoint_withPoint hn.isDigit_of_mem_digits] at hplaces
    rw [StyledNumber.places, hf] at hplaces
    exact (hn.fraction f hf).ne_nil (List.length_eq_zero_iff.mp hplaces.symm)

/-- What is left of a number is a plain numeral for it if the point is kept, or for zero. -/
theorem Cleans.plainNumeral_iff_keepsPoint (h : Cleans clean style) (hn : style.Writes n) :
    PlainNumeral (n.text.flatMap clean) n.value ↔
      n.KeepsPoint clean ∨ n.value = 0 ∧ (n.text.flatMap clean).count '.' ≤ 1 := by
  have hcount : (n.text.flatMap clean).count '.' = (n.cleanedBody clean).count '.' := by
    have hsign : '.' ∉ n.sign := fun hmem ↦
      absurd (NumberStyle.isSign_of_mem hn.sign _ hmem) (by decide)
    have htail : '.' ∉ n.tail.flatMap clean := fun hmem ↦
      absurd (h.tail _ hn.tail _ hmem) (by decide)
    rw [h.flatMap_text hn, List.count_append, List.count_append, List.count_eq_zero.mpr hsign,
      List.count_eq_zero.mpr htail, Nat.zero_add, Nat.add_zero]
  rw [h.plainNumeral_iff hn, h.keepsPoint_iff hn, hcount, and_or_left, or_comm,
    and_comm (a := n.value = 0)]

end

/-! ### Replacements -/

/-- What replacing one character after the other makes of a character. -/
def cleanedChar (replacements : List Replacement) (c : Char) : List Char :=
  replacements.foldl (fun cs r ↦ cs.flatMap fun d ↦ if d = r.old then r.new else [d]) [c]

theorem cleanedChar_eq_singleton {replacements : List Replacement} {c : Char}
    (h : ∀ r ∈ replacements, c ≠ r.old) : cleanedChar replacements c = [c] := by
  induction replacements with
  | nil => rfl
  | cons r rest ih =>
    obtain ⟨hne, hrest⟩ := List.forall_mem_cons.mp h
    rw [cleanedChar, List.foldl_cons, List.flatMap_singleton, if_neg hne]
    exact ih hrest

theorem foldl_flatMap_replacement (replacements : List Replacement) (cs : List Char) :
    replacements.foldl (fun cs r ↦ cs.flatMap fun d ↦ if d = r.old then r.new else [d]) cs =
      cs.flatMap (cleanedChar replacements) := by
  induction replacements generalizing cs with
  | nil => exact (List.flatMap_singleton' cs).symm
  | cons r rest ih =>
    rw [List.foldl_cons, ih, List.flatMap_assoc]
    refine List.flatMap_congr fun c _ ↦ ?_
    rw [cleanedChar, List.foldl_cons, ih, List.flatMap_singleton]

/-- Replacements are made character by character. -/
theorem toList_foldl_apply (replacements : List Replacement) (s : String) :
    (replacements.foldl (fun t r ↦ r.apply t) s).toList =
      s.toList.flatMap (cleanedChar replacements) := by
  rw [← foldl_flatMap_replacement]
  refine (List.foldl_hom String.toList fun t r ↦ ?_).symm
  rw [Replacement.apply, Text.substitute, String.toList_ofList]

namespace Warehouse

/-- What a text of nested replacements makes of the value of an expression: each replaces every
occurrence of its first character by the second text. -/
inductive Replaces (w : Warehouse) (expr : String) : String → (String → String) → Prop where
  | value : w.Replaces expr expr id
  | call {sql : String} {f : String → String} (h : w.Replaces expr sql f) (old : Char)
      (new : List Char) :
      w.Replaces expr
        ("REPLACE(" ++ sql ++ ", " ++ w.stringLiteral (String.singleton old) ++ ", " ++
          w.stringLiteral (String.ofList new) ++ ")")
        fun s ↦ Text.substitute old new (f s)

theorem Replaces.foldl {w : Warehouse} {expr sql : String} {f : String → String}
    (h : w.Replaces expr sql f) (replacements : List Replacement) :
    w.Replaces expr (replacements.foldl w.replace sql)
      fun s ↦ replacements.foldl (fun t r ↦ r.apply t) (f s) := by
  induction replacements generalizing sql f with
  | nil => exact h
  | cons r rest ih => exact ih (h.call r.old r.new)

end Warehouse

/-! ### The casts of the number formats -/

theorem numberCleaning_old (format : String) :
    ∀ r ∈ numberCleaning format, Text.isDigit r.old = false ∧ r.old ∉ ['-', '+'] := by
  unfold numberCleaning
  split
  · decide
  · split
    · decide
    · split
      · decide
      · exact List.forall_mem_nil _

/-- The cleaning of each number format suits the numbers in its style. -/
theorem cleans_of_mem_table {format : String} {style : NumberStyle}
    (h : (format, style) ∈ NumberStyle.table) :
    Cleans (cleanedChar (numberCleaning format)) style := by
  have hdigit : ∀ c, Text.isDigit c = true → cleanedChar (numberCleaning format) c = [c] :=
    fun c hc ↦ cleanedChar_eq_singleton fun r hr heq ↦
      absurd hc (by rw [heq, (numberCleaning_old format r hr).1]; decide)
  have hsign : ∀ c ∈ ['-', '+'], cleanedChar (numberCleaning format) c = [c] :=
    fun c hc ↦ cleanedChar_eq_singleton fun r hr heq ↦
      (numberCleaning_old format r hr).2 (heq ▸ hc)
  have hrest : ∀ entry ∈ NumberStyle.table,
      (∀ cs ∈ (entry.2.separators ++ entry.2.decimals).map (cleanedChar (numberCleaning entry.1)),
        cs = [] ∨ cs = ['.']) ∧
      (∀ x ∈ entry.2.leads, x.flatMap (cleanedChar (numberCleaning entry.1)) = []) ∧
      ∀ x ∈ entry.2.tails, x.flatMap (cleanedChar (numberCleaning entry.1)) ∈ [[], [' ']] := by
    decide
  obtain ⟨hmarks, hleads, htails⟩ := hrest _ h
  rw [List.forall_mem_map, List.forall_mem_append] at hmarks
  refine ⟨hdigit, hsign, hmarks.1, hmarks.2, hleads, fun x hx c hc ↦ ?_⟩
  have hblanks : ∀ cs ∈ [[], [' ']], c ∈ cs → c = ' ' := by simp
  exact hblanks _ (htails x hx) hc

/-- Whether the casts read the amount as it is written: no point separates groups and no comma the
cents, or it is zero with one point at most. -/
def StyledNumber.ReadsAsAmount (n : StyledNumber) : Prop :=
  (∀ g ∈ n.groups, g.1 ≠ '.') ∧ (∀ f ∈ n.fraction, f.1 = '.') ∨
    n.value = 0 ∧ n.text.count '.' ≤ 1

/-- The replacements for amounts of money neither make points nor drop them. -/
theorem count_point_cleanedChar {format : String} {style : NumberStyle}
    (h : (format, style) ∈ NumberStyle.table)
    (hmoney : Text.startsWith format "number_money" = true) (c : Char) :
    (cleanedChar (numberCleaning format) c).count '.' = [c].count '.' := by
  have hpoint : ∀ entry ∈ NumberStyle.table, Text.startsWith entry.1 "number_money" = true →
      ∀ r ∈ numberCleaning entry.1, r.old ≠ '.' ∧
        (cleanedChar (numberCleaning entry.1) r.old).count '.' = 0 := by decide
  by_cases hold : ∀ r ∈ numberCleaning format, c ≠ r.old
  · rw [cleanedChar_eq_singleton hold]
  · push Not at hold
    obtain ⟨r, hr, rfl⟩ := hold
    obtain ⟨hne, hcount⟩ := hpoint _ h hmoney r hr
    rw [hcount, List.count_singleton, if_neg (by simpa using hne)]

/-- Amounts of money are cleaned to numerals for them if points are nothing but decimal points. -/
theorem plainNumeral_of_money {format : String} {style : NumberStyle} {n : StyledNumber}
    (h : (format, style) ∈ NumberStyle.table)
    (hmoney : Text.startsWith format "number_money" = true) (hn : style.Writes n) :
    PlainNumeral (n.text.flatMap (cleanedChar (numberCleaning format))) n.value ↔
      n.ReadsAsAmount := by
  have hmarks : ∀ entry ∈ NumberStyle.table, Text.startsWith entry.1 "number_money" = true →
      ∀ mark ∈ (entry.2.separators ++ entry.2.decimals).map fun c ↦
        (c, cleanedChar (numberCleaning entry.1) c),
        (mark.2 = [] ↔ mark.1 ≠ '.') ∧ (mark.2 = ['.'] ↔ mark.1 = '.') := by
    decide
  have hcount : (n.text.flatMap (cleanedChar (numberCleaning format))).count '.' =
      n.text.count '.' := by
    conv_rhs => rw [← List.flatMap_singleton' n.text]
    rw [List.count_flatMap, List.count_flatMap]
    exact congrArg List.sum (List.map_congr_left fun c _ ↦ count_point_cleanedChar h hmoney c)
  have hmark := hmarks _ h hmoney
  rw [List.forall_mem_map, List.forall_mem_append] at hmark
  rw [(cleans_of_mem_table h).plainNumeral_iff_keepsPoint hn, hcount,
    StyledNumber.KeepsPoint, StyledNumber.ReadsAsAmount]
  exact or_congr_left (and_congr
    (forall₂_congr fun g hg ↦ (hmark.1 _ (hn.groups g hg).separator).1)
    (forall₂_congr fun f hf ↦ (hmark.2 _ (hn.fraction f hf).separator).2))

/-- Numbers other than amounts of money are cleaned to numerals for them. -/
theorem plainNumeral_of_not_money {format : String} {style : NumberStyle} {n : StyledNumber}
    (h : (format, style) ∈ NumberStyle.table)
    (hmoney : Text.startsWith format "number_money" = false) (hn : style.Writes n) :
    PlainNumeral (n.text.flatMap (cleanedChar (numberCleaning format))) n.value := by
  have hplain : ∀ entry ∈ NumberStyle.table, Text.startsWith entry.1 "number_money" = false →
      entry.2.separators = [] ∧
        ∀ cs ∈ entry.2.decimals.map (cleanedChar (numberCleaning entry.1)), cs = ['.'] := by
    decide
  obtain ⟨hseparators, hdecimals⟩ := hplain _ h hmoney
  rw [List.forall_mem_map] at hdecimals
  refine ((cleans_of_mem_table h).plainNumeral_iff_keepsPoint hn).mpr (.inl ⟨?_, ?_⟩)
  · rw [hn.groups_eq_nil hseparators]
    exact List.forall_mem_nil _
  · exact fun f hf ↦ hdecimals _ (hn.fraction f hf).separator

/-- A cast reads the texts that its number format is found in: each of them is written in the style
of the format in one way, and the replacements leave a plain numeral for the number that is written.
Of amounts of money that holds just where points are nothing but decimal points. -/
theorem Warehouse.castTextToNumber_reads (w : Warehouse) (expr : String) {format pattern : String}
    (hpattern : Format.validityPattern? format = some pattern)
    (hformat : Text.startsWith format "number_" = true) :
    ∃ style p sql clean, (format, style) ∈ NumberStyle.table ∧ Pattern.parse? pattern = some p ∧
      w.castTextToNumber expr format = "CAST(" ++ sql ++ " AS " ++ w.numericType ++ ")" ∧
      w.Replaces expr sql clean ∧
      ∀ s, p.FoundIn s → ∃ n, (∀ m, style.Writes m ∧ m.text = s.toList ↔ m = n) ∧
        (PlainNumeral (clean s).toList n.value ↔
          (Text.startsWith format "number_money" = true → n.ReadsAsAmount)) := by
  obtain ⟨style, hstyle⟩ := Format.exists_style hpattern hformat
  obtain ⟨p, hparse, hfound⟩ := NumberStyle.describes_of_mem_table hstyle hpattern
  refine ⟨style, p, _, _, hstyle, hparse, rfl,
    Replaces.value.foldl (numberCleaning format), fun s hs ↦ ?_⟩
  obtain ⟨n, hn, htext⟩ := (hfound s).mp hs
  refine ⟨n, fun m ↦ ⟨fun ⟨hm, hsame⟩ ↦ ?_, ?_⟩, ?_⟩
  · exact hm.eq_of_text_eq (NumberStyle.separates_of_mem_table hstyle) hn (hsame.trans htext.symm)
  · rintro rfl
    exact ⟨hn, htext⟩
  · rw [toList_foldl_apply, id_eq, ← htext]
    cases hmoney : Text.startsWith format "number_money" with
    | true => simpa using plainNumeral_of_money hstyle hmoney hn
    | false => simpa using plainNumeral_of_not_money hstyle hmoney hn

/-- An amount in dollars with a group of thousands and with cents is read as it is written. -/
theorem dollars_with_cents_read :
    ∃ sql clean, Warehouse.castTextToNumber .mySQL "price" "number_money_usd" =
        "CAST(" ++ sql ++ " AS " ++ "DOUBLE" ++ ")" ∧
      Warehouse.Replaces .mySQL "price" sql clean ∧
      PlainNumeral (clean "$1,234.50").toList (2469 / 2) := by
  have hpattern : Format.validityPattern? "number_money_usd" = some _ := rfl
  obtain ⟨style, p, sql, clean, hstyle, hparse, hcast, hreplaces, hread⟩ :=
    Warehouse.castTextToNumber_reads .mySQL "price" hpattern (by decide +kernel)
  obtain rfl : style = NumberStyle.signFirst '$' := by
    simpa [NumberStyle.table] using hstyle
  let n : StyledNumber :=
    ⟨[], ['$'], ['1'], [(',', ['2', '3', '4'])], some ('.', ['5', '0']), []⟩
  have hn : (NumberStyle.signFirst '$').Writes n ∧ n.text = "$1,234.50".toList := by
    decide +kernel
  obtain ⟨q, hq, hfound⟩ := NumberStyle.describes_of_mem_table hstyle hpattern
  obtain rfl : p = q := Option.some.inj (hparse.symm.trans hq)
  obtain ⟨m, hm, hplain⟩ := hread "$1,234.50" ((hfound _).mpr ⟨n, hn⟩)
  obtain rfl : n = m := (hm n).mp hn
  have hvalue : n.value = 2469 / 2 := by decide +kernel
  exact ⟨sql, clean, hcast, hreplaces, hvalue ▸ hplain.mpr fun _ ↦ .inl (by simp [n])⟩

/-- The cents of an amount in euros are read as euros. -/
theorem euro_cents_read_as_euros :
    ∃ pattern p sql clean n, Format.validityPattern? "number_money_eur" = some pattern ∧
      Pattern.parse? pattern = some p ∧ p.FoundIn "1,50€" ∧
      (NumberStyle.signLast '€').Writes n ∧ n.text = "1,50€".toList ∧ n.value = 3 / 2 ∧
      Warehouse.castTextToNumber .postgreSQL "price" "number_money_eur" =
        "CAST(" ++ sql ++ " AS " ++ "DOUBLE PRECISION" ++ ")" ∧
      Warehouse.Replaces .postgreSQL "price" sql clean ∧ clean "1,50€" = "150" ∧
      ¬ PlainNumeral (clean "1,50€").toList n.value := by
  have hpattern : Format.validityPattern? "number_money_eur" = some _ := rfl
  have hstyle : ("number_money_eur", NumberStyle.signLast '€') ∈ NumberStyle.table := by
    simp [NumberStyle.table]
  obtain ⟨p, hparse, hfound⟩ := NumberStyle.describes_of_mem_table hstyle hpattern
  let n : StyledNumber := ⟨[], [], ['1'], [], some (',', ['5', '0']), ['€']⟩
  have hn : (NumberStyle.signLast '€').Writes n ∧ n.text = "1,50€".toList := by decide +kernel
  have hvalue : n.value = 3 / 2 := by decide +kernel
  refine ⟨_, p, _, _, n, hpattern, hparse, (hfound _).mpr ⟨n, hn⟩, hn.1, hn.2, hvalue, rfl,
    Warehouse.Replaces.value.foldl (numberCleaning "number_money_eur"), by decide +kernel, ?_⟩
  rw [toList_foldl_apply, id_eq, ← hn.2, plainNumeral_of_money hstyle (by decide +kernel) hn.1]
  rintro (⟨-, hpoint⟩ | ⟨hzero, -⟩)
  · exact absurd (hpoint _ rfl) (by decide)
  · exact absurd (hvalue.symm.trans hzero) (by norm_num)

end DataQuality
