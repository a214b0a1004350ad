import DataQuality.Expr.Token
import DataQuality.Proofs.Computations
import DataQuality.Proofs.PlainNumbers

/-!
# Lexemes

Which characters are cut into which tokens, apart from the positions of these, and what is known of
a token because it was cut from a text: how its number or its name can be written again.
-/

namespace DataQuality

namespace Token

/-! ### Cutting characters into tokens -/

/-- The lexeme that begins with `c` is one of the token `t`, with `after` behind it. -/
def Scans (c : Char) (cs : List Char) (t : Token) (after : List Char) : Prop :=
  ∀ position, ∃ fits, scan position c cs = .ok ⟨t, after, fits⟩

/-- The characters begin with lexemes of the tokens, with `rest` behind them. -/
inductive Cuts : List Char → List Token → List Char → Prop
  | nil (cs : List Char) : Cuts cs [] cs
  | space {c : Char} {cs rest : List Char} {ts : List Token} (hc : Text.isSpace c = true)
      (h : Cuts cs ts rest) : Cuts (c :: cs) ts rest
  | token {c : Char} {cs after rest : List Char} {t : Token} {ts : List Token}
      (hc : Text.isSpace c = false) (hscan : Scans c cs t after) (h : Cuts after ts rest) :
      Cuts (c :: cs) (t :: ts) rest

namespace Cuts

variable {cs mid rest : List Char} {ts us : List Token}

/-- Lexemes behind lexemes. -/
theorem trans (h : Cuts cs ts mid) (h' : Cuts mid us rest) : Cuts cs (ts ++ us) rest := by
  induction h with
  | nil => exact h'
  | space hc _ ih => exact .space hc (ih h')
  | token hc hscan _ ih => exact .token hc hscan (ih h')

/-- Cutting gives the tokens of the lexemes and goes on with the rest. -/
theorem scanAll_eq (h : Cuts cs ts rest) (position : Nat) :
    ∃ (placed : List Placed) (next : Nat), placed.map Placed.token = ts ∧
      scanAll position cs = (scanAll next rest).map (placed ++ ·) := by
  induction h generalizing position with
  | nil cs =>
    refine ⟨[], position, rfl, ?_⟩
    cases scanAll position cs <;> rfl
  | space hc _ ih =>
    obtain ⟨placed, next, hplaced, hscan⟩ := ih (position + 1)
    refine ⟨placed, next, hplaced, ?_⟩
    rw [scanAll, if_pos hc, hscan]
  | @token c cs after rest t ts hc hfirst _ ih =>
    obtain ⟨fits, hfirst⟩ := hfirst position
    obtain ⟨placed, next, hplaced, hscan⟩ := ih (position + 1 + (cs.length - after.length))
    refine ⟨⟨t, position⟩ :: placed, next, by rw [List.map_cons, hplaced], ?_⟩
    rw [scanAll, if_neg (by simp [hc]), hfirst]
    simp only [Except.bind, hscan]
    cases scanAll next rest <;> rfl

/-- What is lexemes to its end is cut into their tokens. -/
theorem tokenize_eq {source : String} (h : Cuts source.toList ts []) :
    ∃ placed, tokenize source = .ok placed ∧ placed.map Placed.token = ts := by
  obtain ⟨placed, next, hplaced, hscan⟩ := h.scanAll_eq 0
  refine ⟨placed, ?_, hplaced⟩
  rw [tokenize, hscan, scanAll]
  simp [Except.map]

end Cuts

/-! ### What tokens of a text are like -/

/-- A character at which a word begins, whatever else could begin there. -/
def BeginsWord (c : Char) : Prop :=
  Text.isSpace c = false ∧ symbol? c = none ∧ ¬ (c = '=' ∨ c = '!' ∨ c = '<' ∨ c = '>') ∧
    ¬ (c = '\'' ∨ c = '"') ∧ Text.isDigit c = false ∧ startsWord c = true

instance : DecidablePred BeginsWord := fun _ ↦ inferInstanceAs (Decidable (_ ∧ _))

/-- A word as it is cut from a text. -/
def IsWord (word : String) : Prop :=
  ∃ c cs, BeginsWord c ∧ word = String.ofList (c :: (spanWord cs).1)

/-- What is known of a token that was cut from a text: a finite number has no sign, and a name is
a word and no keyword. -/
structure FromText (t : Token) : Prop where
  number : ∀ value, t = .number value → Number.isFinite value = true →
    ∃ bits < Number.infinityBits, value = Number.ofMagnitude false bits
  identifier : ∀ name, t = .identifier name → ofWord name = .identifier name ∧ IsWord name

/-- A token that is neither a number nor a name can be cut from any text. -/
theorem FromText.of_ne {t : Token} (hnumber : ∀ value, t ≠ .number value)
    (hname : ∀ name, t ≠ .identifier name) : t.FromText :=
  ⟨fun value h ↦ absurd h (hnumber value), fun name h ↦ absurd h (hname name)⟩

end Token

namespace Number

theorem Decimal.nearestBits_le (d : Decimal) : d.nearestBits ≤ infinityBits := by
  obtain ⟨num, den, hden, hvalue⟩ := d.exists_div_eq_value
  rw [nearestBits_eq hden hvalue]
  exact Number.nearestBits_le num den

/-- A finite number that is read without a sign has none. -/
theorem exists_ofMagnitude_of_parseFloat? {c : Char} {cs : List Char} {value : Float}
    (hc : Text.isDigit c = true) (h : parseFloat? (String.ofList (c :: cs)) = some value)
    (hfinite : isFinite value = true) : ∃ bits < infinityBits, value = ofMagnitude false bits := by
  unfold parseFloat? at h
  rw [String.toList_ofList, spanSign_of_isDigit hc] at h
  simp only [] at h
  split at h
  · next n _ =>
    obtain rfl := Option.some.inj h
    refine ⟨n.value.nearestBits, ?_, rfl⟩
    refine Nat.lt_of_le_of_ne n.value.nearestBits_le fun heq ↦ ?_
    rw [Decimal.toFloat, heq] at hfinite
    exact absurd hfinite (by decide)
  · unfold parseSpecial? at h
    simp only [] at h
    split at h
    · obtain rfl := Option.some.inj h
      exact absurd hfinite (by decide)
    · split at h
      · obtain rfl := Option.some.inj h
        exact absurd hfinite (by decide)
      · cases h

end Number

namespace Token

/-- A word is a name that is spelled as the word, or a keyword. -/
theorem ofWord_eq_or (word : String) :
    ofWord word = .identifier word ∨
      ∀ t, ofWord word = t → (∀ value, t ≠ .number value) ∧ ∀ name, t ≠ .identifier name := by
  unfold ofWord
  split <;> first | exact .inl rfl | (refine .inr ?_; rintro t rfl; constructor <;> simp)

/-- What a word stands for can be cut from a text. -/
theorem fromText_ofWord {c : Char} {cs : List Char} (hc : BeginsWord c) :
    (ofWord (String.ofList (c :: (spanWord cs).1))).FromText := by
  obtain hname | hkeyword := ofWord_eq_or (String.ofList (c :: (spanWord cs).1))
  · rw [hname]
    refine ⟨fun value h ↦ (by cases h), fun name h ↦ ?_⟩
    obtain rfl := Token.identifier.inj h
    exact ⟨hname, c, cs, hc, rfl⟩
  · exact .of_ne (hkeyword _ rfl).1 (hkeyword _ rfl).2

/-- What is scanned can be cut from a text. -/
theorem fromText_of_scan {position : Nat} {c : Char} {cs : List Char} {s : Scan cs}
    (hc : Text.isSpace c = false) (h : scan position c cs = .ok s) : s.token.FromText := by
  unfold scan at h
  split at h
  · next token hsymbol =>
    obtain rfl := Except.ok.inj h
    unfold symbol? at hsymbol
    split at hsymbol <;> cases hsymbol <;> exact .of_ne (by simp) (by simp)
  · next hsymbol =>
    split at h
    · split at h
      · obtain rfl := Except.ok.inj h
        exact .of_ne (by simp) (by simp)
      · cases h
    · next hcompare =>
      split at h
      · split at h
        · obtain rfl := Except.ok.inj h
          exact .of_ne (by simp) (by simp)
        · cases h
      · next hquote =>
        split at h
        · next hdigit =>
          simp only [] at h
          split at h
          · next value hvalue =>
            obtain rfl := Except.ok.inj h
            refine ⟨fun other hother ↦ ?_, by simp⟩
            obtain rfl := Token.number.inj hother
            exact Number.exists_ofMagnitude_of_parseFloat? hdigit hvalue
          · cases h
        · next hdigit =>
          split at h
          · next hword =>
            obtain rfl := Except.ok.inj h
            dsimp only
            exact fromText_ofWord
              ⟨hc, hsymbol, hcompare, hquote, Bool.eq_false_iff.mpr hdigit, hword⟩
          · cases h

/-- So can all tokens of a text. -/
theorem fromText_of_scanAll {position : Nat} {cs : List Char} {placed : List Placed}
    (h : scanAll position cs = .ok placed) : ∀ p ∈ placed, p.token.FromText := by
  fun_induction scanAll position cs generalizing placed with
  | case1 =>
    obtain rfl := Except.ok.inj h
    simp
  | case2 position c rest hspace ih => exact ih h
  | case3 position c rest hspace ih =>
    obtain ⟨s, hs, h⟩ := exists_of_bind_eq_ok h
    obtain ⟨behind, hbehind, rfl⟩ := exists_of_map_eq_ok h
    refine List.forall_mem_cons.mpr ⟨fromText_of_scan (Bool.eq_false_iff.mpr hspace) hs, ?_⟩
    exact ih s hbehind

/-! ### How tokens are written -/

/-- What may stand behind a lexeme: nothing, a space or a closing parenthesis. -/
def Delimits (rest : List Char) : Prop := ∀ c ∈ rest.head?, c = ' ' ∨ c = ')'

theorem Delimits.nil : Delimits [] := by simp [Delimits]

theorem Delimits.space (cs : List Char) : Delimits (' ' :: cs) := by simp [Delimits]

theorem Delimits.rightParen (cs : List Char) : Delimits (')' :: cs) := by simp [Delimits]

variable {rest : List Char}

/-- A character that is a token by itself. -/
theorem Cuts.symbol {c : Char} {t : Token} (hc : Text.isSpace c = false) (h : symbol? c = some t)
    (cs : List Char) : Cuts (c :: cs) [t] cs :=
  .token hc (fun _ ↦ ⟨Nat.le_refl _, by simp only [scan, h]⟩) (.nil cs)

/-- A comparison sign in front of a space. -/
theorem Cuts.comparison (op : Comparison) (cs : List Char) :
    Cuts (op.symbol.toList ++ ' ' :: cs) [.comparison op] (' ' :: cs) := by
  have hlong (c : Char) (hc : Text.isSpace c = false)
      (hscan : ∀ position, ∃ fits, scan position c ('=' :: ' ' :: cs) =
        .ok ⟨.comparison op, ' ' :: cs, fits⟩) :
      Cuts (c :: '=' :: ' ' :: cs) [.comparison op] (' ' :: cs) := .token hc hscan (.nil _)
  have hshort (c : Char) (hc : Text.isSpace c = false)
      (hscan : ∀ position, ∃ fits, scan position c (' ' :: cs) =
        .ok ⟨.comparison op, ' ' :: cs, fits⟩) :
      Cuts (c :: ' ' :: cs) [.comparison op] (' ' :: cs) := .token hc hscan (.nil _)
  cases op with
  | eq => exact hlong '=' (by decide) fun _ ↦ ⟨by simp, rfl⟩
  | ne => exact hlong '!' (by decide) fun _ ↦ ⟨by simp, rfl⟩
  | lt => exact hshort '<' (by decide) fun _ ↦ ⟨by simp, rfl⟩
  | le => exact hlong '<' (by decide) fun _ ↦ ⟨by simp, rfl⟩
  | gt => exact hshort '>' (by decide) fun _ ↦ ⟨by simp, rfl⟩
  | ge => exact hlong '>' (by decide) fun _ ↦ ⟨by simp, rfl⟩

/-- A word that nothing is added to by what follows. -/
theorem Cuts.word {c : Char} {cs : List Char} (hc : BeginsWord c)
    (hspan : spanWord (cs ++ rest) = (cs, rest)) :
    Cuts (c :: (cs ++ rest)) [ofWord (String.ofList (c :: cs))] rest := by
  obtain ⟨hspace, hsymbol, hcompare, hquote, hdigit, hword⟩ := hc
  refine .token hspace (fun position ↦ ⟨by simp, ?_⟩) (.nil rest)
  unfold scan
  simp only [hsymbol, if_neg hcompare, if_neg hquote, hdigit, hword, hspan, if_true,
    Bool.false_eq_true, if_false]

/-- No word goes on where it may end. -/
theorem spanWord_of_delimits (hrest : Delimits rest) : spanWord rest = ([], rest) := by
  cases rest with
  | nil => rfl
  | cons c cs =>
    have hends : (Text.isLetterOrNumeric c || c == '_' || c == '.') = false := by
      obtain rfl | rfl := hrest c rfl <;> decide +kernel
    simp only [Bool.or_eq_false_iff] at hends
    obtain ⟨⟨hletter, hunderscore⟩, hpoint⟩ := hends
    simp [spanWord, hletter, hunderscore, hpoint]

/-- A word is cut as it was, whatever may follow it. -/
theorem spanWord_append (hrest : Delimits rest) (cs : List Char) :
    spanWord ((spanWord cs).1 ++ rest) = ((spanWord cs).1, rest) := by
  fun_induction spanWord cs with
  | case1 => exact spanWord_of_delimits hrest
  | case2 c cs hc ih =>
    -- A point goes on with the word, since what begins a word stands behind it as before.
    have hagain : (Text.isLetterOrNumeric c || c == '_' ||
        (c == '.' && ((spanWord cs).1 ++ rest).head?.any startsWord)) = true := by
      rw [Bool.or_eq_true] at hc ⊢
      refine hc.imp id fun hpoint ↦ ?_
      rw [Bool.and_eq_true] at hpoint ⊢
      refine ⟨hpoint.1, ?_⟩
      cases cs with
      | nil => simp at hpoint
      | cons d ds =>
        have hd : startsWord d = true := by simpa using hpoint.2
        have hstays : (Text.isLetterOrNumeric d || d == '_' ||
            (d == '.' && ds.head?.any startsWord)) = true := by
          rw [startsWord, Bool.or_eq_true] at hd
          obtain hd | hd := hd <;> simp [Text.isLetterOrNumeric, hd]
        rw [spanWord, if_pos hstays]
        simpa using hd
    rw [List.cons_append, spanWord, if_pos hagain, ih]
  | case3 c cs hc => exact spanWord_of_delimits hrest

theorem Cuts.ofWord {word : String} (h : IsWord word) (hrest : Delimits rest) :
    Cuts (word.toList ++ rest) [Token.ofWord word] rest := by
  obtain ⟨c, cs, hc, rfl⟩ := h
  rw [String.toList_ofList]
  exact .word hc (spanWord_append hrest cs)

/-- No word holds a quote. -/
theorem IsWord.quote_not_mem {word : String} (h : IsWord word) : '\'' ∉ word.toList := by
  have hquote : (Text.isLetterOrNumeric '\'' || '\'' == '_') = false := by decide +kernel
  have hspan : ∀ cs, '\'' ∉ (spanWord cs).1 := by
    intro cs
    fun_induction spanWord cs with
    | case1 => exact List.not_mem_nil
    | case2 c cs hc ih =>
      refine List.not_mem_cons_of_ne_of_not_mem ?_ ih
      rintro rfl
      rw [hquote] at hc
      simp at hc
    | case3 c cs hc => exact List.not_mem_nil
  obtain ⟨c, cs, hc, rfl⟩ := h
  rw [String.toList_ofList]
  refine List.not_mem_cons_of_ne_of_not_mem ?_ (hspan cs)
  rintro rfl
  exact hc.2.2.2.1 (.inl rfl)

/-- A keyword in small letters. -/
theorem Cuts.keyword (word : String)
    (h : word ∈ ["true", "false", "null", "and", "or", "not"]) (hrest : Delimits rest) :
    Cuts (word.toList ++ rest) [Token.ofWord word] rest := by
  refine .ofWord ?_ hrest
  simp only [List.mem_cons, List.not_mem_nil, or_false] at h
  obtain rfl | rfl | rfl | rfl | rfl | rfl := h
  · exact ⟨'t', ['r', 'u', 'e'], by decide, by decide⟩
  · exact ⟨'f', ['a', 'l', 's', 'e'], by decide, by decide⟩
  · exact ⟨'n', ['u', 'l', 'l'], by decide, by decide⟩
  · exact ⟨'a', ['n', 'd'], by decide, by decide⟩
  · exact ⟨'o', ['r'], by decide, by decide⟩
  · exact ⟨'n', ['o', 't'], by decide, by decide⟩

/-- No numeral goes on where it may end. -/
theorem spanNumeral_of_delimits (hrest : Delimits rest) :
    (∀ c ∈ rest.head?, Text.isDigit c = false) ∧ spanFraction rest = ([], rest) ∧
      spanExponent rest = ([], rest) := by
  cases rest with
  | nil => exact ⟨by simp, rfl, rfl⟩
  | cons c cs => obtain rfl | rfl := hrest c rfl <;> exact ⟨by simp; decide, rfl, rfl⟩

/-- A numeral with at most one point is cut as it was, whatever may follow it. -/
theorem spanNumeral_append {whole fraction : List Char}
    (hdigits : ∀ c ∈ whole ++ fraction, Text.isDigit c = true) (hrest : Delimits rest) :
    spanNumeral (Number.pointed whole fraction ++ rest) =
      (Number.pointed whole fraction, rest) := by
  obtain ⟨hwhole, hfraction⟩ := List.forall_mem_append.mp hdigits
  obtain ⟨hend, hnofraction, hnoexponent⟩ := spanNumeral_of_delimits hrest
  unfold Number.pointed spanNumeral
  by_cases hnil : fraction = []
  · rw [if_pos hnil, List.append_nil, Number.spanDigits_append hwhole hend]
    simp [hnofraction, hnoexponent]
  · obtain ⟨d, ds, rfl⟩ := List.exists_cons_of_ne_nil hnil
    have hd : Text.isDigit d = true := hfraction d (.head ds)
    have hbehind := Number.spanDigits_append hfraction hend
    rw [if_neg hnil, List.append_assoc, Number.spanDigits_append hwhole (by simp; decide)]
    simp only [List.cons_append] at hbehind
    simp [spanFraction, hd, hbehind, hnoexponent]

/-- A digit begins no other lexeme than a numeral. -/
theorem symbol?_of_isDigit {c : Char} (h : Text.isDigit c = true) :
    Text.isSpace c = false ∧ symbol? c = none ∧ ¬ (c = '=' ∨ c = '!' ∨ c = '<' ∨ c = '>') ∧
      ¬ (c = '\'' ∨ c = '"') := by
  have hall : ∀ n < 10, Text.isSpace (Char.ofNat (0x30 + n)) = false ∧
      symbol? (Char.ofNat (0x30 + n)) = none ∧
      ¬ (Char.ofNat (0x30 + n) = '=' ∨ Char.ofNat (0x30 + n) = '!' ∨
        Char.ofNat (0x30 + n) = '<' ∨ Char.ofNat (0x30 + n) = '>') ∧
      ¬ (Char.ofNat (0x30 + n) = '\'' ∨ Char.ofNat (0x30 + n) = '"') := by
    decide
  simp only [Text.isDigit, Bool.and_eq_true, decide_eq_true_eq, Char.le_def] at h
  have hlow : 0x30 ≤ c.toNat := h.1
  have hhigh : c.toNat ≤ 0x39 := h.2
  have hc := hall (c.toNat - 0x30) (by omega)
  rwa [Nat.add_sub_cancel' hlow, Char.ofNat_toNat] at hc

theorem Cuts.number {value : Float} (h : FromText (.number value))
    (hfinite : Number.isFinite value = true) (hrest : Delimits rest) :
    Cuts ((Number.plainText value).toList ++ rest) [.number value] rest := by
  obtain ⟨bits, hbits, rfl⟩ := h.number value rfl hfinite
  obtain ⟨whole, fraction, hplain, hwhole, hdigits, -⟩ := Number.Decimal.exists_plain_eq
    (Number.shortest .up (Number.magnitude bits).1 (Number.magnitude bits).2)
  obtain ⟨c, whole, rfl⟩ := List.exists_cons_of_ne_nil hwhole
  have htext : (Number.plainText (Number.ofMagnitude false bits)).toList =
      c :: Number.pointed whole fraction := by
    rw [Number.plainText_ofMagnitude hbits, hplain, String.toList_ofList]
    rfl
  have hread := Number.parseFloat?_plainText hbits
  rw [← String.ofList_toList (s := Number.plainText _), htext] at hread
  have hc : Text.isDigit c = true := hdigits c (by simp)
  obtain ⟨hspace, hsymbol, hcompare, hquote⟩ := symbol?_of_isDigit hc
  have hspan : spanNumeral (Number.pointed whole fraction ++ rest) = _ :=
    spanNumeral_append (fun d hd ↦ hdigits d (.tail c hd)) hrest
  rw [htext, List.cons_append]
  refine .token hspace (fun position ↦ ⟨by simp, ?_⟩) (.nil rest)
  unfold scan
  simp only [hsymbol, if_neg hcompare, if_neg hquote, hc, hspan, hread, if_true]

/-! ### Texts -/

/-- The characters of a text with a backslash in front of each quote. -/
def escapeQuotes (cs : List Char) : List Char :=
  cs.flatMap fun c ↦ if c = '\'' then ['\\', '\''] else [c]

@[simp] theorem escapeQuotes_nil : escapeQuotes [] = [] := rfl

@[simp] theorem escapeQuotes_quote (cs : List Char) :
    escapeQuotes ('\'' :: cs) = '\\' :: '\'' :: escapeQuotes cs := rfl

theorem escapeQuotes_cons {c : Char} (h : c ≠ '\'') (cs : List Char) :
    escapeQuotes (c :: cs) = c :: escapeQuotes cs := by
  simp [escapeQuotes, h]

theorem toList_quoteText (s : String) :
    (Expr.quoteText s).toList = '\'' :: (escapeQuotes s.toList ++ ['\'']) := by
  simp [Expr.quoteText, Text.substitute, escapeQuotes]

theorem quoted?_backslash (quote c : Char) (cs : List Char) :
    quoted? quote ('\\' :: c :: cs) = (quoted? quote cs).map fun r ↦ (c :: r.1, r.2) := rfl

theorem quoted?_quote (cs : List Char) : quoted? '\'' ('\'' :: cs) = some ([], cs) := rfl

theorem quoted?_cons {quote c : Char} (hbackslash : c ≠ '\\') (hquote : c ≠ quote)
    (cs : List Char) :
    quoted? quote (c :: cs) = (quoted? quote cs).map fun r ↦ (c :: r.1, r.2) := by
  rw [quoted?, if_neg hquote]
  · exact fun _ _ h ↦ absurd h hbackslash
  · exact fun h ↦ absurd h hbackslash

/-- A text without a backslash is read as it was. -/
theorem quoted?_escapeQuotes {cs : List Char} (h : '\\' ∉ cs) (rest : List Char) :
    quoted? '\'' (escapeQuotes cs ++ '\'' :: rest) = some (cs, rest) := by
  induction cs with
  | nil => rfl
  | cons c cs ih =>
    obtain ⟨hc, hcs⟩ := not_or.mp (List.mem_cons.not.mp h)
    by_cases hquote : c = '\''
    · rw [hquote, escapeQuotes_quote, List.cons_append, List.cons_append, quoted?_backslash, ih hcs]
      rfl
    · rw [escapeQuotes_cons hquote, List.cons_append, quoted?_cons (Ne.symm hc) hquote, ih hcs]
      rfl

theorem replicate_append_pair (count : Nat) (c : Char) (cs : List Char) :
    List.replicate count c ++ c :: c :: cs = c :: (List.replicate (count + 1) c ++ cs) := by
  induction count with
  | zero => rfl
  | succ count ih =>
    rw [List.replicate_succ, List.cons_append, ih]
    rfl

/-- What begins with another character does not begin with a backslash. -/
theorem cons_ne_replicate_append {c : Char} {cs ds : List Char} {count : Nat} (hc : c ≠ '\\')
    (h : 0 < count ∨ cs.head? = some '\\') : c :: ds ≠ List.replicate count '\\' ++ cs := by
  intro heq
  have hhead := congrArg List.head? heq
  cases count with
  | zero =>
    rw [List.replicate_zero, List.nil_append, h.resolve_left (Nat.lt_irrefl 0)] at hhead
    exact hc (Option.some.inj hhead)
  | succ count => exact hc (Option.some.inj hhead)

/-- A character that is no backslash is read as it was. -/
theorem exists_of_quoted?_escapeQuotes_cons {c : Char} {cs rest : List Char}
    {r : List Char × List Char} (hc : c ≠ '\\')
    (h : quoted? '\'' (escapeQuotes (c :: cs) ++ rest) = some r) :
    ∃ r', quoted? '\'' (escapeQuotes cs ++ rest) = some r' ∧ r.1 = c :: r'.1 := by
  by_cases hquote : c = '\''
  · rw [hquote, escapeQuotes_quote, List.cons_append, List.cons_append, quoted?_backslash] at h
    obtain ⟨r', hr', rfl⟩ := Option.map_eq_some_iff.mp h
    exact ⟨r', hr', by rw [hquote]⟩
  · rw [escapeQuotes_cons hquote, List.cons_append, quoted?_cons hc hquote] at h
    obtain ⟨r', hr', rfl⟩ := Option.map_eq_some_iff.mp h
    exact ⟨r', hr', rfl⟩

/-- A text with a backslash is not read as it was, nor with backslashes put in front of it: the
first backslash is lost, unless another one or a quote behind it is lost in its place. -/
theorem fst_quoted?_escapeQuotes_ne {cs rest : List Char} {r : List Char × List Char} {count : Nat}
    (h : quoted? '\'' (escapeQuotes cs ++ '\'' :: rest) = some r) (hcs : 0 < count ∨ '\\' ∈ cs) :
    r.1 ≠ List.replicate count '\\' ++ cs := by
  -- A pair of backslashes is read as one, which is one less to come and one more in front.
  induction hlength : cs.length using Nat.strong_induction_on generalizing cs r count with
  | _ length ih =>
    cases cs with
    | nil =>
      obtain rfl : ([], rest) = r := Option.some.inj h
      have hcount : 0 < count := hcs.resolve_right (by simp)
      simp [Nat.ne_of_gt hcount]
    | cons c cs =>
      by_cases hbackslash : c = '\\'
      · subst hbackslash
        rw [escapeQuotes_cons (by decide), List.cons_append] at h
        cases cs with
        | nil =>
          rw [escapeQuotes_nil, List.nil_append, quoted?_backslash] at h
          obtain ⟨r, -, rfl⟩ := Option.map_eq_some_iff.mp h
          exact cons_ne_replicate_append (by decide) (.inr rfl)
        | cons d ds =>
          by_cases hquote : d = '\''
          · rw [hquote, escapeQuotes_quote, List.cons_append, List.cons_append, quoted?_backslash,
              quoted?_quote] at h
            obtain rfl := Option.some.inj h
            intro heq
            have := congrArg List.length heq
            simp at this
            omega
          · rw [escapeQuotes_cons hquote, List.cons_append, quoted?_backslash] at h
            obtain ⟨r, hr, rfl⟩ := Option.map_eq_some_iff.mp h
            by_cases hpair : d = '\\'
            · have hmore := ih ds.length (by rw [← hlength]; simp only [List.length_cons]; omega) hr
                (.inl (Nat.succ_pos count)) rfl
              rw [hpair, replicate_append_pair]
              exact fun heq ↦ hmore (List.cons.inj heq).2
            · exact cons_ne_replicate_append hpair (.inr rfl)
      · obtain ⟨r', hr', hr⟩ := exists_of_quoted?_escapeQuotes_cons hbackslash h
        rw [hr]
        obtain rfl | hcount := Nat.eq_zero_or_pos count
        · have hmem : '\\' ∈ cs := by simpa [Ne.symm hbackslash] using hcs
          have hless : r'.1 ≠ List.replicate 0 '\\' ++ cs :=
            ih cs.length (by rw [← hlength]; simp) hr' (.inr hmem) rfl
          simpa using hless
        · exact cons_ne_replicate_append hbackslash (.inl hcount)

/-- Behind a quote a quoted text is scanned, or none can be. -/
theorem scan_quote (position : Nat) (cs : List Char) :
    (∀ r, quoted? '\'' cs = some r →
      ∃ fits, scan position '\'' cs = .ok ⟨.text (String.ofList r.1), r.2, fits⟩) ∧
    (quoted? '\'' cs = none → ∃ e, scan position '\'' cs = .error e) := by
  have hcompare : ¬ ('\'' = '=' ∨ '\'' = '!' ∨ '\'' = '<' ∨ '\'' = '>') := by decide
  unfold scan
  simp only [show symbol? '\'' = none from rfl, if_neg hcompare, true_or, if_true]
  constructor
  · intro r hr
    split
    · next r' hr' =>
      obtain rfl := Option.some.inj (hr.symm.trans hr')
      exact ⟨length_quoted?_le hr, rfl⟩
    · next hnone => rw [hr] at hnone; cases hnone
  · intro hnone
    split
    · next r hr => rw [hnone] at hr; cases hr
    · exact ⟨_, rfl⟩

theorem Cuts.text {s : String} (h : '\\' ∉ s.toList) (rest : List Char) :
    Cuts ((Expr.quoteText s).toList ++ rest) [.text s] rest := by
  have hquoted := quoted?_escapeQuotes h rest
  rw [toList_quoteText, List.cons_append, List.append_assoc]
  refine .token (by decide) (fun position ↦ ?_) (.nil rest)
  obtain ⟨fits, hscan⟩ := (scan_quote position _).1 _ hquoted
  rw [String.ofList_toList] at hscan
  exact ⟨fits, hscan⟩

/-- A text with a backslash is cut into another text, if it is cut at all. -/
theorem exists_text_of_scanAll {position : Nat} {s : String} {placed : List Placed}
    (h : '\\' ∈ s.toList)
    (hscan : scanAll position ('\'' :: (escapeQuotes s.toList ++ '\'' :: rest)) = .ok placed) :
    ∃ s' after, placed.map Placed.token = .text s' :: after ∧ s' ≠ s := by
  rw [scanAll, if_neg (by decide)] at hscan
  obtain ⟨first, hfirst, hscan⟩ := exists_of_bind_eq_ok hscan
  obtain ⟨behind, -, rfl⟩ := exists_of_map_eq_ok hscan
  obtain ⟨hread, hunread⟩ := scan_quote position (escapeQuotes s.toList ++ '\'' :: rest)
  cases hquoted : quoted? '\'' (escapeQuotes s.toList ++ '\'' :: rest) with
  | none =>
    obtain ⟨e, he⟩ := hunread hquoted
    rw [he] at hfirst
    cases hfirst
  | some r =>
    obtain ⟨fits, hr⟩ := hread r hquoted
    obtain rfl := Except.ok.inj (hr.symm.trans hfirst)
    refine ⟨String.ofList r.1, behind.map Placed.token, rfl, ?_⟩
    rintro rfl
    have hother : r.1 ≠ List.replicate 0 '\\' ++ (String.ofList r.1).toList :=
      fst_quoted?_escapeQuotes_ne hquoted (.inr h)
    simp at hother

end Token

end DataQuality
