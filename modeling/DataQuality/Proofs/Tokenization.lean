import DataQuality.Proofs.LexemeForms

/-!
# Cutting texts into tokens

A text that is cut into tokens is white space and lexemes from its beginning to its end, and each
lexeme is the longest that begins where its token stands. A text that is not cut is so up to a
character that is no white space and at which no lexeme begins, and the error says where that is.
-/

namespace DataQuality

namespace Token

/-! ### Lexemes -/

/-- The characters that are tokens by themselves. -/
def symbols : List (Char × Token) :=
  [('(', .leftParen), (')', .rightParen), ('+', .plus), ('-', .minus), ('*', .star), ('/', .slash)]

/-- The words that are no names, in small letters. -/
def keywords : List (String × Token) :=
  [("and", .connective .and), ("or", .connective .or), ("not", .not), ("true", .bool true),
    ("false", .bool false), ("null", .null), ("none", .null)]

/-- Which characters are a lexeme, and of which token. -/
inductive Spells : List Char → Token → Prop
  | symbol {c : Char} {t : Token} (h : (c, t) ∈ symbols) : Spells [c] t
  | comparison (op : Comparison) : Spells op.symbol.toList (.comparison op)
  | quotation {quote : Char} (hquote : quote = '\'' ∨ quote = '"') {content text : List Char}
      (h : Quoted quote content text) :
      Spells (quote :: (content ++ [quote])) (.text (String.ofList text))
  | numeral {n : NumeralForm} (h : n.IsProper) {x : Float} (hx : Number.IsNearest x n.value) :
      Spells n.characters (.number x)
  | keyword {c : Char} (hc : startsWord c = true) {tail : List Char} (htail : WordTail tail)
      {t : Token} (h : (Text.lower (String.ofList (c :: tail)), t) ∈ keywords) :
      Spells (c :: tail) t
  | name {c : Char} (hc : startsWord c = true) {tail : List Char} (htail : WordTail tail)
      (h : ∀ t, (Text.lower (String.ofList (c :: tail)), t) ∉ keywords) :
      Spells (c :: tail) (.identifier (String.ofList (c :: tail)))

theorem symbol?_eq_some_iff {c : Char} {t : Token} : symbol? c = some t ↔ (c, t) ∈ symbols := by
  constructor
  · intro h
    unfold symbol? at h
    split at h <;> cases h <;> simp [symbols]
  · intro h
    simp only [symbols, List.mem_cons, Prod.mk.injEq, List.not_mem_nil, or_false] at h
    obtain ⟨rfl, rfl⟩ | ⟨rfl, rfl⟩ | ⟨rfl, rfl⟩ | ⟨rfl, rfl⟩ | ⟨rfl, rfl⟩ | ⟨rfl, rfl⟩ := h <;> rfl

/-- A word spells what it stands for. -/
theorem spells_ofWord {c : Char} (hc : startsWord c = true) {tail : List Char}
    (htail : WordTail tail) : Spells (c :: tail) (ofWord (String.ofList (c :: tail))) := by
  unfold ofWord
  split
  case h_8 hand hor hnot htrue hfalse hnull hnone =>
    refine .name hc htail fun t h ↦ ?_
    simp only [keywords, List.mem_cons, Prod.mk.injEq, List.not_mem_nil, or_false] at h
    obtain ⟨h, -⟩ | ⟨h, -⟩ | ⟨h, -⟩ | ⟨h, -⟩ | ⟨h, -⟩ | ⟨h, -⟩ | ⟨h, -⟩ := h
    · exact hand h
    · exact hor h
    · exact hnot h
    · exact htrue h
    · exact hfalse h
    · exact hnull h
    · exact hnone h
  all_goals next h => exact .keyword hc htail (by rw [h]; simp [keywords])

/-! ### Scanning a lexeme -/

variable {position : Nat} {c : Char} {cs : List Char}

/-- The characters of a comparison are those that it is scanned from. -/
theorem eq_append_of_comparison? {op : Comparison}
    (h : comparison? c (cs.head? == some '=') = some op) :
    c :: cs = op.symbol.toList ++ if cs.head? == some '=' then cs.tail else cs := by
  have hsymbol : op.symbol.toList = c :: if cs.head? == some '=' then ['='] else [] := by
    unfold comparison? at h
    split at h <;> cases h <;> (next hequals => rw [hequals]; rfl)
  rw [hsymbol]
  split
  · next hequals =>
    cases cs with
    | nil => cases hequals
    | cons d cs =>
      obtain rfl : d = '=' := by simpa using hequals
      rfl
  · rfl

/-- A numeral is scanned as the float that is nearest to its value. -/
theorem exists_spells_numeral (hdigit : Text.isDigit c = true) (cs : List Char) :
    ∃ x, Number.parseFloat? (String.ofList (c :: (spanNumeral cs).1)) = some x ∧
      Spells (c :: (spanNumeral cs).1) (.number x) ∧
      (spanNumeral cs).1 ++ (spanNumeral cs).2 = cs := by
  obtain ⟨n, hn, hcharacters, happend⟩ := exists_eq_spanNumeral cs
  let behind : NumeralForm := { n with whole := c :: n.whole }
  have hproper : behind.IsProper :=
    ⟨⟨List.forall_mem_cons.mpr ⟨hdigit, hn.whole⟩, hn.fraction, hn.exponent⟩, List.cons_ne_nil _ _⟩
  have heq : behind.characters = c :: (spanNumeral cs).1 := by
    rw [hcharacters]
    rfl
  obtain ⟨x, hread, hx⟩ := Number.exists_parseFloat?_characters hproper
  rw [← heq]
  exact ⟨x, hread, .numeral hproper hx, by rw [hcharacters]; exact happend⟩

/-- The error at a character where no lexeme begins: a quote opens a quotation without an end. -/
def errorAt (c : Char) (position : Nat) : SyntaxError :=
  if c = '\'' ∨ c = '"' then .unterminatedString position else .unexpectedCharacter c position

/-- What scanning at a character may come to: a lexeme of the token, or the error of the
character. -/
def Scanned (position : Nat) (c : Char) (cs : List Char) : Except SyntaxError (Scan cs) → Prop
  | .ok s => ∃ lexeme, c :: cs = lexeme ++ s.rest ∧ Spells lexeme s.token
  | .error e => e = errorAt c position

theorem scanned (position : Nat) (c : Char) (cs : List Char) :
    Scanned position c cs (scan position c cs) := by
  unfold scan
  split
  · next token hsymbol => exact ⟨[c], rfl, .symbol (symbol?_eq_some_iff.mp hsymbol)⟩
  · split
    · next hcompare =>
      split
      · next op hop => exact ⟨op.symbol.toList, eq_append_of_comparison? hop, .comparison op⟩
      · exact (if_neg (by obtain rfl | rfl | rfl | rfl := hcompare <;> decide)).symm
    · split
      · next hquote =>
        split
        · next r hr =>
          have hbackslash : c ≠ '\\' := by rintro rfl; revert hquote; decide
          obtain ⟨content, hcs, hcontent⟩ := (quoted?_eq_some_iff hbackslash).mp hr
          exact ⟨c :: (content ++ [c]), by simpa using hcs, .quotation hquote hcontent⟩
        · exact (if_pos hquote).symm
      · next hquote =>
        split
        · next hdigit =>
          obtain ⟨x, hread, hspells, happend⟩ := exists_spells_numeral hdigit cs
          simp only [hread]
          exact ⟨c :: (spanNumeral cs).1, by rw [List.cons_append, happend], hspells⟩
        · split
          · next hword =>
            have hspells := spells_ofWord hword (wordTail_spanWord cs)
            have happend := fst_append_snd_spanWord cs
            simp only [Scanned]
            exact ⟨c :: (spanWord cs).1, by rw [List.cons_append, happend], hspells⟩
          · exact (if_neg hquote).symm

/-! ### No lexeme is missed -/

/-- No letter comes before the capital A, and nothing else that begins a word. -/
theorem startsWord_of_lt (h : c.toNat < 0x41) : startsWord c = false := by
  have hranges : Text.alphabeticRanges.all (fun r ↦ 0x41 ≤ r.1) = true := by decide +kernel
  have hletter : Text.isLetter c = false := by
    rw [Text.isLetter, Text.inRanges, List.any_eq_false]
    intro r hr
    have hr := List.all_eq_true.mp hranges r hr
    simp only [decide_eq_true_eq, Bool.and_eq_true, not_and] at hr ⊢
    omega
  have hunderscore : c ≠ '_' := by
    rintro rfl
    exact absurd h (by decide)
  simp [startsWord, hletter, hunderscore]

/-- A character that begins a word begins no other lexeme. -/
theorem beginsWord_of_startsWord (hspace : Text.isSpace c = false) (h : startsWord c = true) :
    BeginsWord c := by
  have hhigh : 0x41 ≤ c.toNat := by
    by_contra hlow
    rw [startsWord_of_lt (Nat.lt_of_not_le hlow)] at h
    cases h
  refine ⟨hspace, ?_, ?_, ?_, ?_, h⟩
  · rw [Option.eq_none_iff_forall_not_mem]
    intro t ht
    have hmem := symbol?_eq_some_iff.mp ht
    simp only [symbols, List.mem_cons, Prod.mk.injEq, List.not_mem_nil, or_false] at hmem
    obtain ⟨rfl, -⟩ | ⟨rfl, -⟩ | ⟨rfl, -⟩ | ⟨rfl, -⟩ | ⟨rfl, -⟩ | ⟨rfl, -⟩ := hmem <;>
      exact absurd hhigh (by decide)
  · rintro (rfl | rfl | rfl | rfl) <;> exact absurd hhigh (by decide)
  · rintro (rfl | rfl) <;> exact absurd hhigh (by decide)
  · rw [Bool.eq_false_iff]
    intro hdigit
    simp only [Text.isDigit, Bool.and_eq_true, decide_eq_true_eq, Char.le_def] at hdigit
    have hlow : c.toNat ≤ 0x39 := hdigit.2
    omega

/-- Scanning at the character goes at least to the end of a lexeme. -/
def ScansOver (c : Char) (cs lexeme : List Char) : Prop :=
  ∃ t after, Scans c cs t after ∧ lexeme.length + after.length ≤ cs.length + 1

theorem scans_symbol {t : Token} (h : symbol? c = some t) : Scans c cs t cs :=
  fun position ↦ ⟨Nat.le_refl _, by simp only [scan, h]⟩

theorem scansOver_symbol {t : Token} (h : (c, t) ∈ symbols) : ScansOver c cs [c] :=
  ⟨t, cs, scans_symbol (symbol?_eq_some_iff.mpr h), by rw [List.length_singleton]; omega⟩

theorem scans_comparison {op : Comparison} (hc : c = '=' ∨ c = '!' ∨ c = '<' ∨ c = '>')
    (h : comparison? c (cs.head? == some '=') = some op) :
    Scans c cs (.comparison op) (if cs.head? == some '=' then cs.tail else cs) := by
  have hsymbol : symbol? c = none := by obtain rfl | rfl | rfl | rfl := hc <;> rfl
  refine fun position ↦ ⟨by split <;> simp, ?_⟩
  simp only [scan, hsymbol, if_pos hc, h]

theorem scansOver_comparison {op : Comparison} (h : op.symbol.toList <+: c :: cs) :
    ScansOver c cs op.symbol.toList := by
  have hlong {op : Comparison} (hc : c = '=' ∨ c = '!' ∨ c = '<' ∨ c = '>')
      (hop : comparison? c true = some op) {rest : List Char} (hcs : cs = '=' :: rest) :
      ScansOver c cs [c, '='] := by
    subst hcs
    exact ⟨_, rest, scans_comparison hc hop, by simp; omega⟩
  -- Where an equals sign follows, the longer comparison is scanned.
  have hshort {op op' : Comparison} (hc : c = '=' ∨ c = '!' ∨ c = '<' ∨ c = '>')
      (hop : comparison? c false = some op) (hop' : comparison? c true = some op') :
      ScansOver c cs [c] := by
    cases hequals : cs.head? == some '=' with
    | false => exact ⟨_, _, scans_comparison hc (hequals ▸ hop), by simp [hequals]; omega⟩
    | true => exact ⟨_, _, scans_comparison hc (hequals ▸ hop'), by simp [hequals]; omega⟩
  obtain ⟨rest, hrest⟩ := h
  cases op <;> obtain ⟨rfl, rfl⟩ := List.cons.inj hrest
  case eq => exact hlong (by decide) rfl rfl
  case ne => exact hlong (by decide) rfl rfl
  case lt => exact hshort (by decide) rfl rfl
  case le => exact hlong (by decide) rfl rfl
  case gt => exact hshort (by decide) rfl rfl
  case ge => exact hlong (by decide) rfl rfl

theorem scans_quotation {r : List Char × List Char} (hquote : c = '\'' ∨ c = '"')
    (h : quoted? c cs = some r) : Scans c cs (.text (String.ofList r.1)) r.2 := by
  have hsymbol : symbol? c = none := by obtain rfl | rfl := hquote <;> rfl
  have hcompare : ¬ (c = '=' ∨ c = '!' ∨ c = '<' ∨ c = '>') := by
    obtain rfl | rfl := hquote <;> decide
  refine fun position ↦ ⟨length_quoted?_le h, ?_⟩
  unfold scan
  simp only [hsymbol, if_neg hcompare, if_pos hquote]
  split
  · next r' hr' =>
    obtain rfl := Option.some.inj (h.symm.trans hr')
    rfl
  · next hnone =>
    rw [h] at hnone
    cases hnone

theorem scansOver_quotation {content text rest : List Char} (hquote : c = '\'' ∨ c = '"')
    (h : Quoted c content text) (hcs : cs = content ++ c :: rest) :
    ScansOver c cs (c :: (content ++ [c])) := by
  have hbackslash : c ≠ '\\' := by rintro rfl; revert hquote; decide
  have hread := (quoted?_eq_some_iff hbackslash).mpr ⟨content, hcs, h⟩
  refine ⟨_, rest, scans_quotation hquote hread, ?_⟩
  simp only [hcs, List.length_cons, List.length_append, List.length_nil]
  omega

theorem scans_numeral {x : Float} (hdigit : Text.isDigit c = true)
    (h : Number.parseFloat? (String.ofList (c :: (spanNumeral cs).1)) = some x) :
    Scans c cs (.number x) (spanNumeral cs).2 := by
  obtain ⟨-, hsymbol, hcompare, hquote⟩ := symbol?_of_isDigit hdigit
  refine fun position ↦ ⟨length_spanNumeral_le _, ?_⟩
  unfold scan
  simp only [hsymbol, if_neg hcompare, if_neg hquote, hdigit, h, if_true]

theorem scansOver_numeral {n : NumeralForm} (h : n.IsProper) (hbegins : n.characters <+: c :: cs) :
    ScansOver c cs n.characters := by
  obtain ⟨d, whole, hwhole⟩ := List.exists_cons_of_ne_nil h.nonempty
  obtain ⟨rest, hrest⟩ := hbegins
  let behind : NumeralForm := { n with whole }
  have hcharacters : n.characters = d :: behind.characters := by
    rw [NumeralForm.characters, hwhole]
    rfl
  rw [hcharacters, List.cons_append] at hrest
  obtain ⟨rfl, rfl⟩ := List.cons.inj hrest
  have hdigits := List.forall_mem_cons.mp (hwhole ▸ h.whole)
  have hlength := length_le_spanNumeral (n := behind) ⟨hdigits.2, h.fraction, h.exponent⟩ rest
  obtain ⟨x, hread, -, happend⟩ := exists_spells_numeral hdigits.1 (behind.characters ++ rest)
  refine ⟨.number x, _, scans_numeral hdigits.1 hread, ?_⟩
  have happend := congrArg List.length happend
  rw [hcharacters]
  simp only [List.length_append, List.length_cons] at happend ⊢
  omega

theorem scans_word (hspace : Text.isSpace c = false) (h : startsWord c = true) :
    Scans c cs (ofWord (String.ofList (c :: (spanWord cs).1))) (spanWord cs).2 := by
  obtain ⟨-, hsymbol, hcompare, hquote, hdigit, hword⟩ := beginsWord_of_startsWord hspace h
  refine fun position ↦ ⟨length_spanWord_le _, ?_⟩
  unfold scan
  simp only [hsymbol, if_neg hcompare, if_neg hquote, hdigit, hword, if_true, Bool.false_eq_true,
    if_false]

theorem scansOver_word {tail : List Char} (hspace : Text.isSpace c = false)
    (hc : startsWord c = true) (h : WordTail tail) (hbegins : tail <+: cs) :
    ScansOver c cs (c :: tail) := by
  obtain ⟨rest, rfl⟩ := hbegins
  have hlength := length_le_spanWord h rest
  have happend := congrArg List.length (fst_append_snd_spanWord (tail ++ rest))
  refine ⟨_, _, scans_word hspace hc, ?_⟩
  simp only [List.length_append, List.length_cons] at happend ⊢
  omega

/-- Whatever lexeme begins at a character, scanning there goes at least to its end. -/
theorem scansOver_of_spells (hspace : Text.isSpace c = false) {lexeme : List Char} {t : Token}
    (h : Spells lexeme t) (hbegins : lexeme <+: c :: cs) : ScansOver c cs lexeme := by
  cases h with
  | symbol h =>
    obtain rfl := (List.cons_prefix_cons.mp hbegins).1
    exact scansOver_symbol h
  | comparison op => exact scansOver_comparison hbegins
  | quotation hquote h =>
    obtain ⟨rfl, rest, hrest⟩ := List.cons_prefix_cons.mp hbegins
    exact scansOver_quotation hquote h (by simpa using hrest.symm)
  | numeral h hx => exact scansOver_numeral h hbegins
  | keyword hc htail h | name hc htail h =>
    obtain ⟨rfl, htail'⟩ := List.cons_prefix_cons.mp hbegins
    exact scansOver_word hspace hc htail htail'

/-! ### Longest lexemes -/

/-- The longest lexeme that characters begin with. -/
structure Longest (cs lexeme : List Char) (t : Token) : Prop where
  spells : Spells lexeme t
  begins : lexeme <+: cs
  longest : ∀ other t', Spells other t' → other <+: cs → other.length ≤ lexeme.length

/-- Characters that begin with no lexeme. -/
def NoLexeme (cs : List Char) : Prop := ∀ lexeme t, Spells lexeme t → ¬ lexeme <+: cs

theorem Spells.ne_nil {lexeme : List Char} {t : Token} (h : Spells lexeme t) : lexeme ≠ [] := by
  cases h with
  | comparison op => cases op <;> decide
  | numeral h hx => exact List.append_ne_nil_of_left_ne_nil h.nonempty _
  | _ => exact List.cons_ne_nil _ _

theorem exists_longest_of_scan (hspace : Text.isSpace c = false) {s : Scan cs}
    (h : scan position c cs = .ok s) :
    ∃ lexeme, c :: cs = lexeme ++ s.rest ∧ Longest (c :: cs) lexeme s.token := by
  have hscanned := scanned position c cs
  rw [h] at hscanned
  obtain ⟨lexeme, happend, hspells⟩ := hscanned
  refine ⟨lexeme, happend, hspells, ⟨s.rest, happend.symm⟩, fun other t' hother hbegins ↦ ?_⟩
  obtain ⟨t', after, hscans, hlength⟩ := scansOver_of_spells hspace hother hbegins
  obtain ⟨fits, hscan⟩ := hscans position
  obtain rfl := Except.ok.inj (h.symm.trans hscan)
  have happend := congrArg List.length happend
  simp only [List.length_cons, List.length_append] at happend
  omega

theorem noLexeme_of_scan (hspace : Text.isSpace c = false) {e : SyntaxError}
    (h : scan position c cs = .error e) : NoLexeme (c :: cs) := by
  intro lexeme t hspells hbegins
  obtain ⟨t', after, hscans, -⟩ := scansOver_of_spells hspace hspells hbegins
  obtain ⟨fits, hscan⟩ := hscans position
  rw [h] at hscan
  cases hscan

/-! ### White space and lexemes -/

/-- A lexeme with the token that it was cut into. -/
structure Span where
  placed : Placed
  lexeme : List Char

namespace Span

/-- Where the lexeme begins. -/
def start (s : Span) : Nat := s.placed.position

/-- Where the lexeme has ended. -/
def stop (s : Span) : Nat := s.start + s.lexeme.length

end Span

/-- From `start` up to `stop` a text is white space and lexemes: each lexeme is the longest that
begins where its token stands, it ends before the next one begins, and each character that belongs
to none is white space. -/
structure Covers (source : List Char) (start stop : Nat) (spans : List Span) : Prop where
  ordered : start ≤ stop
  longest : ∀ s ∈ spans, Longest (source.drop s.start) s.lexeme s.placed.token
  within : ∀ s ∈ spans, start ≤ s.start ∧ s.start < s.stop ∧ s.stop ≤ stop
  apart : spans.Pairwise fun s s' ↦ s.stop ≤ s'.start
  blank : ∀ i, start ≤ i → i < stop → (∀ s ∈ spans, ¬ (s.start ≤ i ∧ i < s.stop)) →
    ∃ c ∈ source[i]?, Text.isSpace c = true

namespace Covers

variable {source : List Char} {start stop : Nat} {spans : List Span}

theorem nil (source : List Char) (start : Nat) : Covers source start start [] where
  ordered := Nat.le_refl start
  longest := by simp
  within := by simp
  apart := .nil
  blank i hstart hstop := absurd hstop (Nat.not_lt.mpr hstart)

/-- White space in front. -/
theorem space (hc : source[start]? = some c) (hspace : Text.isSpace c = true)
    (h : Covers source (start + 1) stop spans) : Covers source start stop spans where
  ordered := Nat.le_of_succ_le h.ordered
  longest := h.longest
  within s hs := ⟨Nat.le_of_succ_le (h.within s hs).1, (h.within s hs).2⟩
  apart := h.apart
  blank i hstart hstop hout := by
    obtain rfl | hlt := Nat.eq_or_lt_of_le hstart
    · exact ⟨c, hc, hspace⟩
    · exact h.blank i hlt hstop hout

/-- A lexeme in front. -/
theorem lexeme {characters : List Char} {t : Token}
    (hlongest : Longest (source.drop start) characters t)
    (h : Covers source (start + characters.length) stop spans) :
    Covers source start stop (⟨⟨t, start⟩, characters⟩ :: spans) where
  ordered := (Nat.le_add_right _ _).trans h.ordered
  longest := List.forall_mem_cons.mpr ⟨hlongest, h.longest⟩
  within := by
    have hpos := List.length_pos_of_ne_nil hlongest.spells.ne_nil
    refine List.forall_mem_cons.mpr ⟨⟨Nat.le_refl start, ?_, h.ordered⟩, fun s hs ↦ ?_⟩
    · exact Nat.lt_add_of_pos_right hpos
    · exact ⟨(Nat.le_add_right _ _).trans (h.within s hs).1, (h.within s hs).2⟩
  apart := .cons (fun s hs ↦ (h.within s hs).1) h.apart
  blank i hstart hstop hout := by
    obtain ⟨hfirst, hout⟩ := List.forall_mem_cons.mp hout
    refine h.blank i (Nat.le_of_not_lt fun hlt ↦ hfirst ⟨hstart, hlt⟩) hstop hout

/-- Tokens stand one behind the other. -/
theorem pairwise_position_lt (h : Covers source start stop spans) :
    (spans.map Span.placed).Pairwise fun p q ↦ p.position < q.position := by
  rw [List.pairwise_map]
  refine h.apart.imp_of_mem fun hs _ hle ↦ ?_
  exact Nat.lt_of_lt_of_le (h.within _ hs).2.1 hle

end Covers

/-! ### Cutting a text -/

/-- What cutting a text from `start` on may come to: white space and lexemes up to its end, or up to
a character that is neither and that the error is about. -/
def Cut (source : List Char) (start : Nat) : Except SyntaxError (List Placed) → Prop
  | .ok placed =>
    ∃ spans, spans.map Span.placed = placed ∧ Covers source start source.length spans
  | .error e =>
    ∃ stop c spans, Covers source start stop spans ∧ source[stop]? = some c ∧
      Text.isSpace c = false ∧ NoLexeme (source.drop stop) ∧ e = errorAt c stop

namespace Cut

variable {source : List Char} {start : Nat} {r : Except SyntaxError (List Placed)}

theorem space (hc : source[start]? = some c) (hspace : Text.isSpace c = true)
    (h : Cut source (start + 1) r) : Cut source start r := by
  cases r with
  | ok placed =>
    obtain ⟨spans, hplaced, hcovers⟩ := h
    exact ⟨spans, hplaced, hcovers.space hc hspace⟩
  | error e =>
    obtain ⟨stop, d, spans, hcovers, hrest⟩ := h
    exact ⟨stop, d, spans, hcovers.space hc hspace, hrest⟩

theorem lexeme {characters : List Char} {t : Token}
    (hlongest : Longest (source.drop start) characters t)
    (h : Cut source (start + characters.length) r) :
    Cut source start (r.map (⟨t, start⟩ :: ·)) := by
  cases r with
  | ok placed =>
    obtain ⟨spans, rfl, hcovers⟩ := h
    exact ⟨_, rfl, hcovers.lexeme hlongest⟩
  | error e =>
    obtain ⟨stop, d, spans, hcovers, hrest⟩ := h
    exact ⟨stop, d, _, hcovers.lexeme hlongest, hrest⟩

end Cut

/-- Cutting the characters behind others goes on with what these are. -/
theorem cut_scanAll (before cs : List Char) :
    Cut (before ++ cs) before.length (scanAll before.length cs) := by
  generalize hposition : before.length = position
  fun_induction scanAll position cs generalizing before with
  | case1 position =>
    subst hposition
    exact ⟨[], rfl, by rw [List.append_nil]; exact .nil before _⟩
  | case2 position c cs hspace ih =>
    have hc : (before ++ c :: cs)[position]? = some c := by simp [← hposition]
    have h := ih (before ++ [c]) (by simp [hposition])
    rw [List.append_assoc] at h
    exact h.space hc hspace
  | case3 position c cs hspace ih =>
    have hspace : Text.isSpace c = false := Bool.eq_false_iff.mpr hspace
    have hdrop : (before ++ c :: cs).drop position = c :: cs := List.drop_left' hposition
    cases hscan : scan position c cs with
    | error e =>
      have hc : (before ++ c :: cs)[position]? = some c := by simp [← hposition]
      have hscanned := scanned position c cs
      rw [hscan] at hscanned
      refine ⟨position, c, [], .nil _ position, hc, hspace, ?_, hscanned⟩
      rw [hdrop]
      exact noLexeme_of_scan hspace hscan
    | ok s =>
      obtain ⟨lexeme, happend, hlongest⟩ := exists_longest_of_scan hspace hscan
      have hlength := congrArg List.length happend
      simp only [List.length_cons, List.length_append] at hlength
      have hnext : position + 1 + (cs.length - s.rest.length) = position + lexeme.length := by
        have := s.fits
        omega
      have h := ih s (before ++ lexeme) (by simp [hposition, hnext])
      rw [List.append_assoc, ← happend, hnext] at h
      change Cut _ position ((scanAll (position + 1 + (cs.length - s.rest.length)) s.rest).map _)
      rw [hnext]
      exact h.lexeme (by rwa [hdrop])

end Token

/-- Cutting a text into tokens loses nothing. If it succeeds, the text is white space and the
lexemes of the tokens, each the longest that begins at the position of its token, and the positions
ascend. If it fails, the text is so up to a character inside it that is no white space and at which
no lexeme begins, and the error tells this character or the quotation that it opens. -/
theorem tokenize_covers (source : String) :
    match tokenize source with
    | .ok placed =>
      (placed.Pairwise fun p q ↦ p.position < q.position) ∧
        ∃ spans, spans.map Token.Span.placed = placed ∧
          Token.Covers source.toList 0 source.toList.length spans
    | .error e =>
      ∃ stop c spans, Token.Covers source.toList 0 stop spans ∧ source.toList[stop]? = some c ∧
        Text.isSpace c = false ∧ Token.NoLexeme (source.toList.drop stop) ∧
        e = if c = '\'' ∨ c = '"' then .unterminatedString stop
          else .unexpectedCharacter c stop := by
  have hcut : Token.Cut source.toList 0 (tokenize source) := Token.cut_scanAll [] source.toList
  cases htokens : tokenize source with
  | ok placed =>
    rw [htokens] at hcut
    obtain ⟨spans, rfl, hcovers⟩ := hcut
    exact ⟨hcovers.pairwise_position_lt, spans, rfl, hcovers⟩
  | error e =>
    rw [htokens] at hcut
    exact hcut

end DataQuality
