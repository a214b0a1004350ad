import DataQuality.Json.Reader
import DataQuality.Proofs.ScientificNumbers

/-!
# Reading JSON leaves

Numbers, texts in quotes and words read back as they are written: a number if nothing behind it
belongs to a number, a text whatever characters it has, since what would end it is escaped.
-/

namespace DataQuality

/-- Whether a reader got a value and left the rest. -/
def Text.Reads {ε α : Type} {cs : List Char} (r : Except ε (Text.Read α cs)) (a : α)
    (rest : List Char) : Prop := ∃ h, r = .ok ⟨a, rest, h⟩

namespace Json

open Text (Reads)
open WrittenNumber (AreDigits IsProper fractionPart exponentPart)

/-! ### Numbers -/

/-- Whether characters end a number that stands in front of them. -/
def EndNumber (rest : List Char) : Prop :=
  ∀ c ∈ rest.head?, Text.isDigit c = false ∧ c ≠ '.' ∧ c ≠ 'e' ∧ c ≠ 'E'

section

variable {digits rest : List Char}

theorem readDigits_append (h : AreDigits digits)
    (hrest : ∀ c ∈ rest.head?, Text.isDigit c = false) :
    Reads (readDigits (digits ++ rest)) digits rest := by
  obtain ⟨d, ds, rfl⟩ := List.exists_cons_of_ne_nil h.1
  obtain ⟨hd, hds⟩ := List.forall_mem_cons.mp h.2
  have hspan := Number.spanDigits_append hds hrest
  have htake : (ds ++ rest).takeWhile Text.isDigit = ds := congrArg Prod.fst hspan
  have hdrop : (ds ++ rest).dropWhile Text.isDigit = rest := congrArg Prod.snd hspan
  refine ⟨by simp, ?_⟩
  simp only [List.cons_append, readDigits, hd, if_true, htake, hdrop]

theorem readWhole_append (h : AreDigits digits) (hfirst : digits = ['0'] ∨ digits.head? ≠ some '0')
    (hrest : ∀ c ∈ rest.head?, Text.isDigit c = false) :
    Reads (readWhole (digits ++ rest)) digits rest := by
  obtain ⟨d, ds, rfl⟩ := List.exists_cons_of_ne_nil h.1
  generalize hcs : d :: ds ++ rest = cs
  unfold readWhole
  split
  · next e more =>
    obtain ⟨rfl, htail⟩ := List.cons.inj hcs
    obtain rfl : ds = [] := by simpa using hfirst
    obtain rfl : rest = e :: more := htail
    rw [if_neg (by simp [hrest e rfl])]
    exact ⟨Nat.lt_succ_self _, rfl⟩
  · exact hcs ▸ readDigits_append h hrest

theorem readFraction_append {fraction : Option (List Char)} (h : ∀ cs ∈ fraction, AreDigits cs)
    (hrest : ∀ c ∈ rest.head?, Text.isDigit c = false ∧ c ≠ '.') :
    ∃ hle, readFraction (fractionPart fraction ++ rest) = .ok (fraction, ⟨rest, hle⟩) := by
  cases fraction with
  | none =>
    refine ⟨Nat.le_refl _, ?_⟩
    show readFraction rest = _
    unfold readFraction
    split
    · exact absurd rfl (hrest _ rfl).2
    · rfl
  | some cs =>
    obtain ⟨hlt, hread⟩ := readDigits_append (h cs rfl) fun c hc ↦ (hrest c hc).1
    refine ⟨by simp [fractionPart]; omega, ?_⟩
    show (readDigits (cs ++ rest)).map _ = _
    rw [hread]
    rfl

theorem readExponent_append {exponent : Option (Bool × List Char)}
    (h : ∀ e ∈ exponent, AreDigits e.2)
    (hrest : ∀ c ∈ rest.head?, Text.isDigit c = false ∧ c ≠ 'e' ∧ c ≠ 'E') :
    ∃ hle, readExponent (exponentPart exponent ++ rest) = .ok (exponent, ⟨rest, hle⟩) := by
  cases exponent with
  | none =>
    refine ⟨Nat.le_refl _, ?_⟩
    show readExponent rest = _
    unfold readExponent
    split
    · next c more =>
      obtain ⟨-, he, hE⟩ := hrest c rfl
      rw [if_neg (not_or.mpr ⟨he, hE⟩)]
      rfl
    · rfl
  | some e =>
    obtain ⟨negative, digits⟩ := e
    obtain ⟨hlt, hread⟩ := readDigits_append (h _ rfl) fun c hc ↦ (hrest c hc).1
    refine ⟨by simp [exponentPart]; omega, ?_⟩
    cases negative <;>
    · show (readDigits (digits ++ rest)).map _ = _
      rw [hread]
      rfl

theorem head?_exponentPart (exponent : Option (Bool × List Char)) (hrest : EndNumber rest) :
    ∀ c ∈ (exponentPart exponent ++ rest).head?, Text.isDigit c = false ∧ c ≠ '.' := by
  cases exponent with
  | none => exact fun c hc ↦ ⟨(hrest c hc).1, (hrest c hc).2.1⟩
  | some e =>
    rintro c ⟨⟩
    decide

theorem head?_fractionPart (fraction : Option (List Char)) {more : List Char}
    (hmore : ∀ c ∈ more.head?, Text.isDigit c = false ∧ c ≠ '.') :
    ∀ c ∈ (fractionPart fraction ++ more).head?, Text.isDigit c = false := by
  cases fraction with
  | none => exact fun c hc ↦ (hmore c hc).1
  | some cs =>
    rintro c ⟨⟩
    decide

theorem readNumber_of_isDigit {rule : FloatRule} (h : AreDigits digits) (more : List Char) :
    readNumber rule (digits ++ more) = readUnsigned rule false (digits ++ more) := by
  obtain ⟨d, ds, rfl⟩ := List.exists_cons_of_ne_nil h.1
  refine readNumber.eq_2 rule _ fun cs heq ↦ ?_
  obtain ⟨rfl, -⟩ := List.cons.inj heq
  exact absurd (h.2 '-' (.head _)) (by decide)

/-- A number that is written properly is read. -/
theorem readNumber_append {rule : FloatRule} {w : WrittenNumber} {v : Leaf} (hw : w.IsProper)
    (hv : w.value? rule = some v) (hrest : EndNumber rest) :
    Reads (readNumber rule (w.characters ++ rest)) v rest := by
  obtain ⟨negative, whole, fraction, exponent⟩ := w
  have hbehind := head?_exponentPart exponent hrest
  obtain ⟨hwholeLt, hwhole⟩ := readWhole_append hw.whole hw.first
    (head?_fractionPart fraction hbehind)
  obtain ⟨hfractionLe, hfraction⟩ := readFraction_append hw.fraction hbehind
  obtain ⟨hexponentLe, hexponent⟩ := readExponent_append hw.exponent fun c hc ↦
    ⟨(hrest c hc).1, (hrest c hc).2.2⟩
  have hunsigned : Reads (readUnsigned rule negative
      (whole ++ (fractionPart fraction ++ (exponentPart exponent ++ rest)))) v rest := by
    unfold readUnsigned
    rw [hwhole]
    simp only [Except.bind]
    rw [hfraction]
    simp only []
    rw [hexponent]
    simp only [hv]
    exact ⟨Nat.lt_of_le_of_lt (hexponentLe.trans hfractionLe) hwholeLt, rfl⟩
  obtain ⟨hlt, hread⟩ := hunsigned
  have hcharacters : (WrittenNumber.mk negative whole fraction exponent).characters ++ rest =
      (if negative then ['-'] else []) ++
        (whole ++ (fractionPart fraction ++ (exponentPart exponent ++ rest))) := by
    simp [WrittenNumber.characters]
  rw [hcharacters]
  cases negative with
  | true => exact ⟨Nat.lt_succ_of_lt hlt, congrArg (Except.map Text.Read.behind) hread⟩
  | false => exact ⟨hlt, (readNumber_of_isDigit hw.whole _).trans hread⟩

end

/-! ### Texts in quotes -/

theorem hexDigits_control : ∀ code < 0x20, (hexDigits code).length = 4 ∧
    Text.naturalIn? 16 (hexDigits code) = some code := by decide

/-- The three ways to write a character: with a short escape, with its code, and as it is. -/
theorem escapeChar_cases (c : Char) :
    (∃ e, e ≠ 'u' ∧ shortEscape? e = some c ∧ escapeChar c = ['\\', e]) ∨
      c.toNat < 0x20 ∧ escapeChar c = '\\' :: 'u' :: hexDigits c.toNat ∨
      c ≠ '"' ∧ c ≠ '\\' ∧ ¬ c.toNat < 0x20 ∧ escapeChar c = [c] := by
  unfold escapeChar
  split_ifs with hquote hslash hn hr ht hb hf hcontrol
  · exact .inl ⟨'"', by decide, by rw [hquote]; rfl, rfl⟩
  · exact .inl ⟨'\\', by decide, by rw [hslash]; rfl, rfl⟩
  · exact .inl ⟨'n', by decide, hn ▸ rfl, rfl⟩
  · exact .inl ⟨'r', by decide, hr ▸ rfl, rfl⟩
  · exact .inl ⟨'t', by decide, ht ▸ rfl, rfl⟩
  · exact .inl ⟨'b', by decide, hb ▸ rfl, rfl⟩
  · exact .inl ⟨'f', by decide, hf ▸ rfl, rfl⟩
  · exact .inr (.inl ⟨hcontrol, rfl⟩)
  · exact .inr (.inr ⟨hquote, hslash, hcontrol, rfl⟩)

/-- An escaped control character is read. -/
theorem readCode_hexDigits {c : Char} (h : c.toNat < 0x20) (rest : List Char) :
    Reads (readCode (hexDigits c.toNat ++ rest)) c rest := by
  obtain ⟨hlength, hvalue⟩ := hexDigits_control c.toNat h
  match hdigits : hexDigits c.toNat, hlength with
  | [x, y, z, w], _ =>
    rw [hdigits] at hvalue
    have hlow : isLowSurrogate c.toNat = false := by
      simp [isLowSurrogate]
      omega
    have hhigh : isHighSurrogate c.toNat = false := by
      simp [isHighSurrogate]
      omega
    refine ⟨by simp; omega, ?_⟩
    show readCode (x :: y :: z :: w :: rest) = _
    rw [readCode, readUnit]
    simp [hvalue, Except.bind, hlow, hhigh, Text.Read.map, Char.ofNat_toNat]

/-- A character reads back, whether it is escaped or not. -/
theorem readChar_escapeChar (c : Char) (rest : List Char) :
    Reads (readChar (escapeChar c ++ rest)) c rest := by
  rcases escapeChar_cases c with ⟨e, hmark, he, hcs⟩ | ⟨hcontrol, hcs⟩ | ⟨-, hslash, hcontrol, hcs⟩
  · rw [hcs]
    have hread : readEscape (e :: rest) = .ok ⟨c, rest, Nat.lt_succ_self _⟩ := by
      rw [readEscape.eq_3 e rest hmark, he]
      rfl
    exact ⟨by simp, congrArg (Except.map Text.Read.behind) hread⟩
  · rw [hcs]
    obtain ⟨hlt, hread⟩ := readCode_hexDigits hcontrol rest
    have hescape : readEscape ('u' :: (hexDigits c.toNat ++ rest)) =
        .ok ⟨c, rest, Nat.lt_succ_of_lt hlt⟩ := congrArg (Except.map Text.Read.behind) hread
    exact ⟨Nat.lt_succ_of_lt (Nat.lt_succ_of_lt hlt),
      congrArg (Except.map Text.Read.behind) hescape⟩
  · rw [hcs]
    refine ⟨Nat.lt_succ_self _, (readChar.eq_3 c rest hslash).trans ?_⟩
    rw [if_neg hcontrol]
    rfl

/-- A text in quotes reads back. -/
theorem readQuoted_append (cs rest : List Char) :
    Reads (readQuoted (cs.flatMap escapeChar ++ '"' :: rest)) cs rest := by
  induction cs with
  | nil => exact ⟨Nat.lt_succ_self _, readQuoted.eq_1 rest⟩
  | cons c cs ih =>
    have hquote : ∀ more, escapeChar c ++ (cs.flatMap escapeChar ++ '"' :: rest) ≠ '"' :: more := by
      intro more heq
      rcases escapeChar_cases c with ⟨e, -, -, hcs⟩ | ⟨-, hcs⟩ | ⟨hne, -, -, hcs⟩ <;>
        rw [hcs] at heq
      · exact absurd (List.cons.inj heq).1 (by decide)
      · exact absurd (List.cons.inj heq).1 (by decide)
      · exact hne (List.cons.inj heq).1
    obtain ⟨hcharLt, hchar⟩ := readChar_escapeChar c (cs.flatMap escapeChar ++ '"' :: rest)
    obtain ⟨hlt, hread⟩ := ih
    rw [List.flatMap_cons, List.append_assoc]
    refine ⟨Nat.lt_trans hlt hcharLt, ?_⟩
    rw [readQuoted.eq_2 _ hquote, hchar]
    simp only [Except.bind]
    rw [hread]
    rfl

/-! ### Leaves -/

section

variable {rest : List Char}

theorem readWord_append (word : List Char) (v : Leaf) (rest : List Char) :
    ∃ hle, readWord word v (word ++ rest) = .ok ⟨rest, hle⟩ := by
  induction word with
  | nil => exact ⟨Nat.le_refl _, rfl⟩
  | cons c word ih =>
    obtain ⟨hle, hread⟩ := ih
    refine ⟨Nat.le_succ_of_le hle, ?_⟩
    show readWord (c :: word) v (c :: (word ++ rest)) = _
    rw [readWord, if_pos rfl, hread]
    rfl

theorem toList_quote_append (s : String) :
    (quote s).toList ++ rest = '"' :: (s.toList.flatMap escapeChar ++ '"' :: rest) := by
  simp [quote]

theorem readLeaf_quote (rule : FloatRule) (s : String) :
    Reads (readLeaf rule ((quote s).toList ++ rest)) (.text s) rest := by
  obtain ⟨hlt, hread⟩ := readQuoted_append s.toList rest
  rw [toList_quote_append]
  refine ⟨Nat.lt_succ_of_lt hlt, ?_⟩
  rw [readLeaf.eq_1, hread]
  simp [Except.map, Text.Read.map, Text.Read.behind, Text.Read.widen]

theorem readName_quote (s : String) :
    Reads (readName ((quote s).toList ++ rest)) s rest := by
  obtain ⟨hlt, hread⟩ := readQuoted_append s.toList rest
  rw [toList_quote_append]
  refine ⟨Nat.lt_succ_of_lt hlt, ?_⟩
  rw [readName.eq_1, hread]
  simp [Except.map, Text.Read.map, Text.Read.behind, Text.Read.widen]

theorem readLeaf_null (rule : FloatRule) :
    Reads (readLeaf rule ("null".toList ++ rest)) .null rest := by
  obtain ⟨hle, hread⟩ := readWord_append "ull".toList .null rest
  have hword : "null".toList ++ rest = 'n' :: ("ull".toList ++ rest) := rfl
  rw [hword]
  refine ⟨Nat.lt_succ_of_le hle, ?_⟩
  rw [readLeaf.eq_2]
  simp only [hread]
  rfl

theorem readLeaf_bool (rule : FloatRule) (layout : Layout) (b : Bool) :
    Reads (readLeaf rule ((render layout (.bool b)).toList ++ rest)) (.bool b) rest := by
  cases b with
  | false =>
    obtain ⟨hle, hread⟩ := readWord_append "alse".toList (.bool false) rest
    have hword : (render layout (.bool false)).toList ++ rest = 'f' :: ("alse".toList ++ rest) := by
      rw [render]
      rfl
    rw [hword]
    refine ⟨Nat.lt_succ_of_le hle, ?_⟩
    rw [readLeaf.eq_4]
    simp only [hread]
    rfl
  | true =>
    obtain ⟨hle, hread⟩ := readWord_append "rue".toList (.bool true) rest
    have hword : (render layout (.bool true)).toList ++ rest = 't' :: ("rue".toList ++ rest) := by
      rw [render]
      rfl
    rw [hword]
    refine ⟨Nat.lt_succ_of_le hle, ?_⟩
    rw [readLeaf.eq_3]
    simp only [hread]
    rfl

/-- A number begins with a sign or with a digit. -/
theorem exists_characters_eq {w : WrittenNumber} (hw : w.IsProper) :
    ∃ c cs, w.characters = c :: cs ∧ (c = '-' ∨ Text.isDigit c = true) := by
  obtain ⟨c, cs, hwhole⟩ := List.exists_cons_of_ne_nil hw.whole.1
  cases hnegative : w.negative with
  | true => exact ⟨'-', _, by simp [WrittenNumber.characters, hnegative]; rfl, .inl rfl⟩
  | false =>
    exact ⟨c, _, by simp [WrittenNumber.characters, hnegative, hwhole]; rfl,
      .inr (hw.whole.2 c (hwhole ▸ .head _))⟩

theorem ne_of_startsNumber {c : Char} (h : c = '-' ∨ Text.isDigit c = true) :
    isBlank c = false ∧ c ∉ ['"', 'n', 't', 'f', '[', '\x7b', ']'] := by
  have hne : ∀ d, (decide (d = '-') || Text.isDigit d) = false → c ≠ d := by
    rintro d hd rfl
    exact absurd h (by simpa using hd)
  simp only [isBlank, List.mem_cons, List.not_mem_nil, or_false, not_or, Bool.or_eq_false_iff,
    beq_eq_false_iff_ne]
  exact ⟨⟨⟨⟨hne _ rfl, hne _ rfl⟩, hne _ rfl⟩, hne _ rfl⟩, hne _ rfl, hne _ rfl, hne _ rfl,
    hne _ rfl, hne _ rfl, hne _ rfl, hne _ rfl⟩

/-- A number is not taken for a collection. -/
theorem characters_append_ne {w : WrittenNumber} (hw : w.IsProper) {d : Char}
    (hd : d ∈ ['[', '\x7b']) : ∀ more, w.characters ++ rest ≠ d :: more := by
  obtain ⟨c, cs, hcs, hc⟩ := exists_characters_eq hw
  rw [hcs, List.cons_append]
  intro more heq
  obtain rfl := (List.cons.inj heq).1
  refine (ne_of_startsNumber hc).2 ?_
  simp only [List.mem_cons, List.not_mem_nil, or_false] at hd ⊢
  tauto

theorem readLeaf_number {rule : FloatRule} {w : WrittenNumber} {v : Leaf} (hw : w.IsProper)
    (hv : w.value? rule = some v) (hrest : EndNumber rest) :
    Reads (readLeaf rule (w.characters ++ rest)) v rest := by
  obtain ⟨c, cs, hcs, hc⟩ := exists_characters_eq hw
  have hread := readNumber_append hw hv hrest
  rw [hcs, List.cons_append] at hread ⊢
  obtain ⟨hlt, hread⟩ := hread
  have hne := (ne_of_startsNumber hc).2
  simp only [List.mem_cons, not_or] at hne
  exact ⟨hlt, by rw [readLeaf.eq_6 rule c _ hne.1 hne.2.1 hne.2.2.1 hne.2.2.2.1, if_pos hc, hread]⟩

end

end Json

end DataQuality
