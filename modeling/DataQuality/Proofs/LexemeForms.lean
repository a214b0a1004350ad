import DataQuality.Proofs.Lexemes

/-!
# Forms of lexemes

How the tokens of an expression are written, class by class and apart from any way of cutting a text
into them. For quotations, numerals and words the scanner splits off the longest lexeme of the class
that a text begins with, and for numerals the float that is read is the one nearest to their value.
-/

namespace DataQuality

/-! ### Quotations -/

/-- The content of a quotation and the text it stands for: a backslash is put before a character
that is taken as it is, and without one there is neither a backslash nor the quote. -/
inductive Quoted (quote : Char) : (content text : List Char) → Prop
  | nil : Quoted quote [] []
  | escaped (c : Char) {content text : List Char} (h : Quoted quote content text) :
      Quoted quote ('\\' :: c :: content) (c :: text)
  | plain {c : Char} (hbackslash : c ≠ '\\') (hquote : c ≠ quote) {content text : List Char}
      (h : Quoted quote content text) : Quoted quote (c :: content) (c :: text)

namespace Token

/-- What is split off behind an opening quote is the content of a quotation, up to its closing
quote. -/
theorem quoted?_eq_some_iff {quote : Char} (hquote : quote ≠ '\\') {cs text rest : List Char} :
    quoted? quote cs = some (text, rest) ↔
      ∃ content, cs = content ++ quote :: rest ∧ Quoted quote content text := by
  constructor
  · intro h
    fun_induction quoted? quote cs generalizing text with
    | case1 => cases h
    | case2 c cs ih =>
      obtain ⟨⟨text, rest⟩, hr, heq⟩ := Option.map_eq_some_iff.mp h
      cases heq
      obtain ⟨content, rfl, hcontent⟩ := ih hr
      exact ⟨'\\' :: c :: content, rfl, .escaped c hcontent⟩
    | case3 => cases h
    | case4 cs =>
      cases h
      exact ⟨[], rfl, .nil⟩
    | case5 c cs hescape hend hc ih =>
      obtain ⟨⟨text, rest⟩, hr, heq⟩ := Option.map_eq_some_iff.mp h
      cases heq
      obtain ⟨content, rfl, hcontent⟩ := ih hr
      refine ⟨c :: content, rfl, .plain ?_ hc hcontent⟩
      -- A backslash would have taken the next character, which there is.
      intro hbackslash
      cases content with
      | nil => exact hescape _ _ hbackslash rfl
      | cons next content => exact hescape _ _ hbackslash rfl
  · rintro ⟨content, rfl, h⟩
    induction h with
    | nil =>
      rw [List.nil_append, quoted?, if_pos rfl]
      · exact fun _ _ h ↦ absurd h hquote
      · exact fun h ↦ absurd h hquote
    | escaped c _ ih => rw [List.cons_append, List.cons_append, quoted?_backslash, ih]; rfl
    | plain hbackslash hc _ ih => rw [List.cons_append, quoted?_cons hbackslash hc, ih]; rfl

/-! ### Words -/

/-- How a word goes on: with letters, numeric characters and underscores, and with a point where a
character follows that may begin a word. -/
inductive WordTail : List Char → Prop
  | nil : WordTail []
  | character {c : Char} (hc : Text.isLetterOrNumeric c = true ∨ c = '_') {cs : List Char}
      (h : WordTail cs) : WordTail (c :: cs)
  | point {c : Char} (hc : startsWord c = true) {cs : List Char} (h : WordTail (c :: cs)) :
      WordTail ('.' :: c :: cs)

/-- What may begin a word may also go on with it. -/
theorem goesOn_of_startsWord {c : Char} (h : startsWord c = true) :
    Text.isLetterOrNumeric c = true ∨ c = '_' := by
  simp only [startsWord, Bool.or_eq_true, beq_iff_eq] at h
  exact h.imp (fun h ↦ by simp [Text.isLetterOrNumeric, h]) id

theorem spanWord_cons {c : Char} (hc : Text.isLetterOrNumeric c = true ∨ c = '_')
    (cs : List Char) : spanWord (c :: cs) = (c :: (spanWord cs).1, (spanWord cs).2) := by
  rw [spanWord, if_pos (by simp [hc])]

theorem spanWord_point {c : Char} (hc : startsWord c = true) (cs : List Char) :
    spanWord ('.' :: c :: cs) =
      ('.' :: (spanWord (c :: cs)).1, (spanWord (c :: cs)).2) := by
  rw [spanWord, if_pos (by simp [hc])]

theorem fst_append_snd_spanWord (cs : List Char) : (spanWord cs).1 ++ (spanWord cs).2 = cs := by
  fun_induction spanWord cs with
  | case1 => rfl
  | case2 c cs hc ih => rw [List.cons_append, ih]
  | case3 => rfl

/-- What is split off goes on with a word. -/
theorem wordTail_spanWord (cs : List Char) : WordTail (spanWord cs).1 := by
  fun_induction spanWord cs with
  | case1 => exact .nil
  | case2 c cs hc ih =>
    simp only [Bool.or_eq_true, beq_iff_eq, Bool.and_eq_true] at hc
    obtain hc | ⟨rfl, hnext⟩ := hc
    · exact .character hc ih
    · cases cs with
      | nil => cases hnext
      | cons d cs =>
        rw [spanWord_cons (goesOn_of_startsWord hnext)] at ih ⊢
        exact .point hnext ih
  | case3 => exact .nil

/-- No word goes on for longer. -/
theorem length_le_spanWord {tail : List Char} (h : WordTail tail) (rest : List Char) :
    tail.length ≤ (spanWord (tail ++ rest)).1.length := by
  induction h with
  | nil => exact Nat.zero_le _
  | character hc _ ih =>
    rw [List.cons_append, spanWord_cons hc]
    exact Nat.succ_le_succ ih
  | point hc _ ih =>
    rw [List.cons_append, List.cons_append, spanWord_point hc]
    exact Nat.succ_le_succ ih

end Token

/-! ### Numerals -/

/-- How an exponent is written: a mark, a sign that may be left out, and digits. -/
structure ExponentForm where
  mark : Char
  sign : Option Char
  digits : List Char

namespace ExponentForm

/-- The characters of an exponent. -/
def characters (e : ExponentForm) : List Char := e.mark :: (e.sign.toList ++ e.digits)

/-- The value of an exponent. -/
def value (e : ExponentForm) : Int :=
  if e.sign = some '-' then -(Number.digitsValue e.digits : Int) else Number.digitsValue e.digits

/-- Whether the parts of an exponent are what they should be. -/
structure IsProper (e : ExponentForm) : Prop where
  mark : e.mark = 'e' ∨ e.mark = 'E'
  sign : ∀ c ∈ e.sign, c = '+' ∨ c = '-'
  nonempty : e.digits ≠ []
  digits : ∀ c ∈ e.digits, Text.isDigit c = true

theorem IsProper.mark_ne {e : ExponentForm} (h : e.IsProper) :
    e.mark ≠ '.' ∧ Text.isDigit e.mark = false := by
  obtain hmark | hmark := h.mark <;> rw [hmark] <;> decide

end ExponentForm

/-- How a decimal numeral without a sign is written: digits, the digits of a fraction, of which
there may be none, and an exponent, which may be left out. -/
structure NumeralForm where
  whole : List Char
  fraction : List Char
  exponent : Option ExponentForm

namespace NumeralForm

/-- The characters of the fraction, which has a point if it has digits. -/
def fractionPart (n : NumeralForm) : List Char :=
  if n.fraction = [] then [] else '.' :: n.fraction

/-- The characters of the exponent. -/
def exponentPart (n : NumeralForm) : List Char := n.exponent.elim [] ExponentForm.characters

/-- The characters of a numeral. -/
def characters (n : NumeralForm) : List Char := n.whole ++ (n.fractionPart ++ n.exponentPart)

/-- The value of the exponent. -/
def exponentValue (n : NumeralForm) : Int := n.exponent.elim 0 ExponentForm.value

/-- The value of a numeral. -/
def value (n : NumeralForm) : ℚ :=
  Number.digitsValue (n.whole ++ n.fraction) * 10 ^ (n.exponentValue - n.fraction.length)

/-- Whether the parts are what they should be, except that there may be no digits before the
point. -/
structure GoesOn (n : NumeralForm) : Prop where
  whole : ∀ c ∈ n.whole, Text.isDigit c = true
  fraction : ∀ c ∈ n.fraction, Text.isDigit c = true
  exponent : ∀ e ∈ n.exponent, e.IsProper

/-- Whether the parts make a numeral. -/
structure IsProper (n : NumeralForm) : Prop extends n.GoesOn where
  nonempty : n.whole ≠ []

/-- Behind the digits of the whole part stands no further digit. -/
theorem GoesOn.isDigit_head? {n : NumeralForm} (h : n.GoesOn) :
    ∀ c ∈ (n.fractionPart ++ n.exponentPart).head?, Text.isDigit c = false := by
  by_cases hnil : n.fraction = []
  · rw [fractionPart, if_pos hnil, List.nil_append, exponentPart]
    cases hexponent : n.exponent with
    | none => simp
    | some e => simpa [ExponentForm.characters] using (h.exponent e hexponent).mark_ne.2
  · rw [fractionPart, if_neg hnil]
    simp
    decide

end NumeralForm

namespace Token

/-! ### Splitting off numerals -/

theorem fst_append_snd_spanDigits (cs : List Char) :
    (Number.spanDigits cs).1 ++ (Number.spanDigits cs).2 = cs :=
  List.takeWhile_append_dropWhile

theorem areDigits_spanDigits (cs : List Char) :
    ∀ c ∈ (Number.spanDigits cs).1, Text.isDigit c = true :=
  fun _ ↦ List.mem_takeWhile_imp

theorem spanDigits_ne_nil {cs : List Char} (h : cs.head?.any Text.isDigit = true) :
    (Number.spanDigits cs).1 ≠ [] := by
  cases cs with
  | nil => cases h
  | cons c cs =>
    have hc : Text.isDigit c = true := h
    simp [Number.spanDigits, hc]

/-- No digits that a text begins with are more. -/
theorem length_le_spanDigits {digits : List Char} (h : ∀ c ∈ digits, Text.isDigit c = true)
    (rest : List Char) : digits.length ≤ (Number.spanDigits (digits ++ rest)).1.length := by
  rw [Number.spanDigits, List.takeWhile_append_of_pos h, List.length_append]
  exact Nat.le_add_right _ _

/-- A fraction that is split off is a point with digits, or nothing. -/
theorem exists_eq_spanFraction (cs : List Char) :
    ∃ fraction, (∀ c ∈ fraction, Text.isDigit c = true) ∧
      (spanFraction cs).1 = (if fraction = [] then [] else '.' :: fraction) ∧
      (spanFraction cs).1 ++ (spanFraction cs).2 = cs := by
  unfold spanFraction
  split
  · next cs =>
    split
    · next hdigit =>
      refine ⟨(Number.spanDigits cs).1, areDigits_spanDigits cs, ?_, ?_⟩
      · rw [if_neg (spanDigits_ne_nil hdigit)]
      · rw [List.cons_append, fst_append_snd_spanDigits]
    · exact ⟨[], by simp, rfl, rfl⟩
  · exact ⟨[], by simp, rfl, rfl⟩

theorem exists_eq_spanExponentSign (cs : List Char) :
    ∃ sign : Option Char, (∀ c ∈ sign, c = '+' ∨ c = '-') ∧
      (spanExponentSign cs).1 = sign.toList ∧
      (spanExponentSign cs).1 ++ (spanExponentSign cs).2 = cs := by
  cases cs with
  | nil => exact ⟨none, by simp, rfl, rfl⟩
  | cons c cs =>
    by_cases hsign : c = '+' ∨ c = '-'
    · rw [spanExponentSign, if_pos hsign]
      exact ⟨some c, by simpa using hsign, rfl, rfl⟩
    · rw [spanExponentSign, if_neg hsign]
      exact ⟨none, by simp, rfl, rfl⟩

/-- An exponent that is split off has a mark and digits, or it is nothing. -/
theorem exists_eq_spanExponent (cs : List Char) :
    ∃ exponent : Option ExponentForm, (∀ e ∈ exponent, e.IsProper) ∧
      (spanExponent cs).1 = exponent.elim [] ExponentForm.characters ∧
      (spanExponent cs).1 ++ (spanExponent cs).2 = cs := by
  cases cs with
  | nil => exact ⟨none, by simp, rfl, rfl⟩
  | cons c cs =>
    obtain ⟨sign, hsign, hfst, happend⟩ := exists_eq_spanExponentSign cs
    unfold spanExponent
    dsimp only
    split
    · next hexponent =>
      refine ⟨some ⟨c, sign, (Number.spanDigits (spanExponentSign cs).2).1⟩, ?_, ?_, ?_⟩
      · rintro e ⟨⟩
        exact ⟨hexponent.1, hsign, spanDigits_ne_nil hexponent.2, areDigits_spanDigits _⟩
      · rw [hfst]
        rfl
      · rw [List.cons_append, List.append_assoc, fst_append_snd_spanDigits, happend]
    · exact ⟨none, by simp, rfl, rfl⟩

/-- What is split off behind a first digit goes on with a numeral. -/
theorem exists_eq_spanNumeral (cs : List Char) :
    ∃ n : NumeralForm, n.GoesOn ∧ (spanNumeral cs).1 = n.characters ∧
      n.characters ++ (spanNumeral cs).2 = cs := by
  obtain ⟨fraction, hfraction, hpoint, happend⟩ :=
    exists_eq_spanFraction (Number.spanDigits cs).2
  obtain ⟨exponent, hexponent, hmark, happend'⟩ :=
    exists_eq_spanExponent (spanFraction (Number.spanDigits cs).2).2
  have hfst : (spanNumeral cs).1 =
      (NumeralForm.mk (Number.spanDigits cs).1 fraction exponent).characters := by
    simp only [spanNumeral, hpoint, hmark, List.append_assoc]
    rfl
  refine ⟨_, ⟨areDigits_spanDigits cs, hfraction, hexponent⟩, hfst, ?_⟩
  rw [← hfst]
  simp only [spanNumeral, List.append_assoc, happend', happend, fst_append_snd_spanDigits]

/-! ### No numeral is longer -/

/-- A point with digits behind it begins a fraction. -/
theorem spanFraction_point {fraction : List Char} (hne : fraction ≠ [])
    (h : ∀ c ∈ fraction, Text.isDigit c = true) (rest : List Char) :
    spanFraction ('.' :: (fraction ++ rest)) =
      ('.' :: (Number.spanDigits (fraction ++ rest)).1,
        (Number.spanDigits (fraction ++ rest)).2) := by
  obtain ⟨d, ds, rfl⟩ := List.exists_cons_of_ne_nil hne
  have hd : Text.isDigit d = true := h d (.head ds)
  rw [spanFraction, if_pos (by simp [hd])]

/-- An exponent is split off with all the digits there are. -/
theorem spanExponent_characters {e : ExponentForm} (h : e.IsProper) (rest : List Char) :
    spanExponent (e.characters ++ rest) =
      (e.mark :: (e.sign.toList ++ (Number.spanDigits (e.digits ++ rest)).1),
        (Number.spanDigits (e.digits ++ rest)).2) := by
  obtain ⟨mark, sign, digits⟩ := e
  obtain ⟨d, ds, rfl⟩ := List.exists_cons_of_ne_nil h.nonempty
  have hd : Text.isDigit d = true := h.digits d (.head ds)
  have hsplit : spanExponentSign (sign.toList ++ (d :: ds ++ rest)) =
      (sign.toList, d :: ds ++ rest) := by
    cases sign with
    | none => exact if_neg (by rintro (rfl | rfl) <;> cases hd)
    | some c => exact if_pos (h.sign c rfl)
  have hmark : (mark = 'e' ∨ mark = 'E') ∧ (d :: ds ++ rest).head?.any Text.isDigit = true :=
    ⟨h.mark, by simpa using hd⟩
  simp only [ExponentForm.characters, List.cons_append, List.append_assoc] at hsplit hmark ⊢
  rw [spanExponent, hsplit]
  exact if_pos hmark

/-- An exponent ends the fraction before it. -/
theorem spanFraction_of_exponent {n : NumeralForm} (h : n.GoesOn) {e : ExponentForm}
    (he : n.exponent = some e) (rest : List Char) :
    spanFraction (n.fractionPart ++ (n.exponentPart ++ rest)) =
      (n.fractionPart, e.characters ++ rest) := by
  obtain ⟨hpoint, hdigit⟩ := (h.exponent e he).mark_ne
  have hpart : n.exponentPart = e.characters := by rw [NumeralForm.exponentPart, he]; rfl
  rw [hpart]
  by_cases hnil : n.fraction = []
  · rw [NumeralForm.fractionPart, if_pos hnil]
    change spanFraction (e.mark :: _) = ([], e.mark :: _)
    unfold spanFraction
    split
    · next heq => exact absurd (List.cons.inj heq).1 hpoint
    · rfl
  · rw [NumeralForm.fractionPart, if_neg hnil, List.cons_append, spanFraction_point hnil h.fraction,
      Number.spanDigits_append h.fraction (by simpa [ExponentForm.characters] using hdigit)]

/-- The fraction and the exponent of a numeral are not longer than what is split off behind the
digits before the point. -/
theorem length_le_spanFraction {n : NumeralForm} (h : n.GoesOn) (rest : List Char) :
    let fraction := spanFraction (n.fractionPart ++ (n.exponentPart ++ rest))
    n.fractionPart.length + n.exponentPart.length ≤
      fraction.1.length + (spanExponent fraction.2).1.length := by
  cases he : n.exponent with
  | none =>
    have hpart : n.exponentPart = [] := by rw [NumeralForm.exponentPart, he]; rfl
    by_cases hnil : n.fraction = []
    · simp [NumeralForm.fractionPart, hnil, hpart]
    · have hdigits := length_le_spanDigits h.fraction rest
      rw [hpart, NumeralForm.fractionPart, if_neg hnil, List.nil_append, List.cons_append,
        spanFraction_point hnil h.fraction]
      simp only [List.length_cons, List.length_nil]
      omega
  | some e =>
    have hproper := h.exponent e he
    have hpart : n.exponentPart = e.characters := by rw [NumeralForm.exponentPart, he]; rfl
    have hdigits := length_le_spanDigits hproper.digits rest
    rw [spanFraction_of_exponent h he, hpart]
    dsimp only
    rw [spanExponent_characters hproper]
    simp only [ExponentForm.characters, List.length_cons, List.length_append]
    omega

/-- Nothing that goes on with a numeral is longer than what is split off. -/
theorem length_le_spanNumeral {n : NumeralForm} (h : n.GoesOn) (rest : List Char) :
    n.characters.length ≤ (spanNumeral (n.characters ++ rest)).1.length := by
  have hbehind := length_le_spanFraction h rest
  have hlength (cs : List Char) : (spanNumeral cs).1.length =
      (Number.spanDigits cs).1.length + ((spanFraction (Number.spanDigits cs).2).1.length +
        (spanExponent (spanFraction (Number.spanDigits cs).2).2).1.length) := by
    simp only [spanNumeral, List.length_append, Nat.add_assoc]
  rw [hlength, NumeralForm.characters]
  by_cases hnil : n.fractionPart ++ n.exponentPart = []
  · have hdigits := length_le_spanDigits h.whole rest
    rw [hnil, List.append_nil]
    omega
  · have hends : ∀ c ∈ (n.fractionPart ++ n.exponentPart ++ rest).head?,
        Text.isDigit c = false := by
      rw [List.head?_append_of_ne_nil _ hnil]
      exact h.isDigit_head?
    rw [List.append_assoc, Number.spanDigits_append h.whole hends, List.append_assoc]
    simp only [List.length_append]
    omega

/-! ### Reading numerals -/

end Token

namespace Number

/-- An exponent is read with its sign. -/
theorem parseExponent?_characters {e : ExponentForm} (h : e.IsProper) :
    parseExponent? e.characters = some e.value := by
  obtain ⟨mark, sign, digits⟩ := e
  have hread (negative : Bool) (hsign : spanSign (sign.toList ++ digits) = (negative, digits)) :
      parseExponent? (mark :: (sign.toList ++ digits)) =
        some (if negative then -(digitsValue digits : Int) else digitsValue digits) := by
    have hdigits : (digits.isEmpty || !digits.all Text.isDigit) = false := by
      simpa [h.nonempty] using h.digits
    rw [parseExponent?, if_pos h.mark, parseInt?, hsign]
    simp only [hdigits, Bool.false_eq_true, if_false]
  cases sign with
  | none =>
    obtain ⟨d, ds, rfl⟩ := List.exists_cons_of_ne_nil h.nonempty
    exact hread false (spanSign_of_isDigit (h.digits d (.head ds)) ds)
  | some c =>
    obtain rfl | rfl : c = '+' ∨ c = '-' := h.sign c rfl
    · exact hread false rfl
    · exact hread true rfl

theorem parseNumeral?_characters {n : NumeralForm} (h : n.IsProper) :
    parseNumeral? n.characters = some ⟨n.whole, n.fraction, n.exponentValue⟩ := by
  have hexponent : parseExponent? n.exponentPart = some n.exponentValue ∧
      ∀ c ∈ n.exponentPart.head?, c ≠ '.' ∧ Text.isDigit c = false := by
    rw [NumeralForm.exponentPart, NumeralForm.exponentValue]
    cases he : n.exponent with
    | none => exact ⟨rfl, by simp⟩
    | some e =>
      have hproper := h.exponent e he
      exact ⟨parseExponent?_characters hproper, by
        simpa [ExponentForm.characters] using hproper.mark_ne⟩
  obtain ⟨hread, hhead⟩ := hexponent
  have hwhole : n.whole.isEmpty = false := by simpa using h.nonempty
  unfold parseNumeral?
  rw [NumeralForm.characters, spanDigits_append h.whole h.isDigit_head?, NumeralForm.fractionPart]
  by_cases hnil : n.fraction = []
  · rw [if_pos hnil, List.nil_append]
    dsimp only
    split
    · next rest hrest => exact absurd rfl (hhead '.' (by rw [hrest]; rfl)).1
    · simp only [hwhole, Bool.false_and, Bool.false_eq_true, if_false, hread, Option.map_some, hnil]
  · rw [if_neg hnil]
    simp only [List.cons_append, spanDigits_append h.fraction fun c hc ↦ (hhead c hc).2, hwhole,
      Bool.false_and, Bool.false_eq_true, if_false, hread, Option.map_some]

/-- Whether a float without a sign is the nearest to a value. -/
def IsNearest (x : Float) (value : ℚ) : Prop :=
  ∃ num den : Nat, 0 < den ∧ (num : ℚ) / den = value ∧ x = nearest false num den

/-- A numeral is read as the float that is nearest to its value. -/
theorem exists_parseFloat?_characters {n : NumeralForm} (h : n.IsProper) :
    ∃ x, parseFloat? (String.ofList n.characters) = some x ∧ IsNearest x n.value := by
  obtain ⟨c, whole, hwhole⟩ := List.exists_cons_of_ne_nil h.nonempty
  have hsign : spanSign n.characters = (false, n.characters) := by
    rw [NumeralForm.characters, hwhole, List.cons_append]
    exact spanSign_of_isDigit (h.whole c (hwhole ▸ .head whole)) _
  let d : Decimal := Numeral.value ⟨n.whole, n.fraction, n.exponentValue⟩
  obtain ⟨num, den, hden, hvalue⟩ := d.exists_div_eq_value
  refine ⟨d.toFloat false, ?_, num, den, hden, hvalue, ?_⟩
  · unfold parseFloat?
    rw [String.toList_ofList, hsign]
    simp only [parseNumeral?_characters h]
    rfl
  · rw [Decimal.toFloat, Decimal.nearestBits_eq hden hvalue, nearest]

end Number

end DataQuality
