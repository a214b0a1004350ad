import Mathlib.Data.Rat.Defs
import DataQuality.Config.Format
import DataQuality.Proofs.Matching
import DataQuality.Proofs.PlainNumbers

/-!
# Number styles

How the named formats write numbers: with a sign, with what stands before and behind the digits, in
groups of three digits, and with a decimal separator. The texts that a number format is found in are
the numbers in its style, and each of them can be taken apart in one way only.
-/

namespace DataQuality

/-! ### Numbers and styles -/

/-- A number as it is written: digits of the whole number, of which all but the first come in groups
behind a separator, and digits behind a decimal separator. -/
structure StyledNumber where
  sign : List Char
  lead : List Char
  head : List Char
  groups : List (Char × List Char)
  fraction : Option (Char × List Char)
  tail : List Char
  deriving DecidableEq

namespace StyledNumber

/-- Digits behind their separator. -/
def separated (g : Char × List Char) : List Char := g.1 :: g.2

/-- The text of the number. -/
def text (n : StyledNumber) : List Char :=
  n.sign ++ (n.lead ++ (n.head ++ (n.groups.flatMap separated ++
    (n.fraction.elim [] separated ++ n.tail))))

/-- All digits of the number. -/
def digits (n : StyledNumber) : List Char :=
  n.head ++ (n.groups.flatMap Prod.snd ++ n.fraction.elim [] Prod.snd)

/-- How many digits stand behind the decimal separator. -/
def places (n : StyledNumber) : Nat := (n.fraction.elim [] Prod.snd).length

end StyledNumber

/-- The number of digits with a sign, so many of them behind the decimal separator. -/
def signedDecimal (sign digits : List Char) (places : Nat) : ℚ :=
  (if sign = ['-'] then -1 else 1) * Number.digitsValue digits / 10 ^ places

/-- The number that is written. -/
def StyledNumber.value (n : StyledNumber) : ℚ := signedDecimal n.sign n.digits n.places

/-- How a format writes numbers: what may stand in front of the digits and behind them, what
separates groups of digits, and what the decimal separators are. Behind these stand so many digits,
or any, and digits in front of them are needed or not. -/
structure NumberStyle where
  leads : List (List Char)
  separators : List Char
  decimals : List Char
  places : Option Nat
  needsHead : Bool
  tails : List (List Char)

namespace NumberStyle

/-- Three digits behind a separator. -/
structure IsGroup (style : NumberStyle) (g : Char × List Char) : Prop where
  separator : g.1 ∈ style.separators
  length : g.2.length = 3
  digits : ∀ c ∈ g.2, Text.isDigit c = true

/-- Digits behind a decimal separator, as many as there have to be. -/
structure IsFraction (style : NumberStyle) (f : Char × List Char) : Prop where
  separator : f.1 ∈ style.decimals
  ne_nil : f.2 ≠ []
  length : ∀ k ∈ style.places, f.2.length = k
  digits : ∀ c ∈ f.2, Text.isDigit c = true

/-- Whether a number is written in the style. -/
structure Writes (style : NumberStyle) (n : StyledNumber) : Prop where
  sign : n.sign ∈ [[], ['-'], ['+']]
  lead : n.lead ∈ style.leads
  head : ∀ c ∈ n.head, Text.isDigit c = true
  head_ne : n.head ≠ [] ∨ style.needsHead = false ∧ n.fraction.isSome = true
  groups : ∀ g ∈ n.groups, style.IsGroup g
  fraction : ∀ f ∈ n.fraction, style.IsFraction f
  tail : n.tail ∈ style.tails

instance (style : NumberStyle) (g : Char × List Char) : Decidable (style.IsGroup g) :=
  decidable_of_iff (g.1 ∈ style.separators ∧ g.2.length = 3 ∧ g.2.all Text.isDigit = true)
    ⟨fun ⟨h, hlength, hdigits⟩ ↦ ⟨h, hlength, List.all_eq_true.mp hdigits⟩,
      fun h ↦ ⟨h.separator, h.length, List.all_eq_true.mpr h.digits⟩⟩

instance (style : NumberStyle) (f : Char × List Char) : Decidable (style.IsFraction f) :=
  decidable_of_iff (f.1 ∈ style.decimals ∧ f.2 ≠ [] ∧ (∀ k ∈ style.places, f.2.length = k) ∧
      f.2.all Text.isDigit = true)
    ⟨fun ⟨h, hne, hlength, hdigits⟩ ↦ ⟨h, hne, hlength, List.all_eq_true.mp hdigits⟩,
      fun h ↦ ⟨h.separator, h.ne_nil, h.length, List.all_eq_true.mpr h.digits⟩⟩

instance (style : NumberStyle) (n : StyledNumber) : Decidable (style.Writes n) :=
  decidable_of_iff (n.sign ∈ [[], ['-'], ['+']] ∧ n.lead ∈ style.leads ∧
      n.head.all Text.isDigit = true ∧
      (n.head ≠ [] ∨ style.needsHead = false ∧ n.fraction.isSome = true) ∧
      (∀ g ∈ n.groups, style.IsGroup g) ∧ (∀ f ∈ n.fraction, style.IsFraction f) ∧
      n.tail ∈ style.tails)
    ⟨fun ⟨hsign, hlead, hhead, hne, hgroups, hfraction, htail⟩ ↦
        ⟨hsign, hlead, List.all_eq_true.mp hhead, hne, hgroups, hfraction, htail⟩,
      fun h ↦ ⟨h.sign, h.lead, List.all_eq_true.mpr h.head, h.head_ne, h.groups, h.fraction,
        h.tail⟩⟩

/-- Whole numbers. -/
def whole : NumberStyle := ⟨[[]], [], [], none, true, [[]]⟩

/-- Numbers with one of these decimal separators, and no groups. -/
def decimal (decimals : List Char) (tails : List (List Char)) : NumberStyle :=
  ⟨[[]], [], decimals, none, false, tails⟩

/-- Amounts of money: the whole number may come in groups, and two digits may stand behind it. -/
def amount (leads : List (List Char)) (separators decimals : List Char)
    (tails : List (List Char)) : NumberStyle := ⟨leads, separators, decimals, some 2, true, tails⟩

/-- Amounts with a sign of the currency in front. -/
def signFirst (currency : Char) : NumberStyle :=
  amount [[currency], [currency, ' ']] [',', '.'] ['.'] [[]]

/-- Amounts with a sign of the currency behind. -/
def signLast (currency : Char) : NumberStyle :=
  amount [[]] ['.', ','] [','] [[currency], [' ', currency]]

/-- The styles of the number formats by their names. -/
def table : List (String × NumberStyle) :=
  [("number_whole", whole), ("number_decimal_point", decimal ['.'] [[]]),
    ("number_decimal_comma", decimal [','] [[]]),
    ("number_percentage", decimal ['.', ','] [['%'], [' ', '%']]),
    ("number_money_usd", signFirst '$'), ("number_money_eur", signLast '€'),
    ("number_money_gbp", signFirst '£')]

end NumberStyle

/-- The validity formats for numbers are those that have a style. -/
theorem Format.exists_style {format pattern : String}
    (hpattern : Format.validityPattern? format = some pattern)
    (hformat : Text.startsWith format "number_" = true) :
    ∃ style, (format, style) ∈ NumberStyle.table := by
  obtain ⟨f, hf, rfl⟩ := Option.map_eq_some_iff.mp hpattern
  obtain rfl : f.name = format := by simpa using List.find?_some hf
  have hnamed : ∀ f ∈ Format.validity, Text.startsWith f.name "number_" = true →
      ∃ entry ∈ NumberStyle.table, entry.1 = f.name := by decide +kernel
  obtain ⟨⟨name, style⟩, hentry, rfl⟩ := hnamed f (List.mem_of_find?_eq_some hf) hformat
  exact ⟨style, hentry⟩

/-! ### Items of the patterns -/

namespace Pattern

/-- One of two characters. -/
def either (a b : Char) : Pattern :=
  .oneOf (.bracketed (.union (.range a a) (.range b b)))

/-- Digits, so many or more, but not more than there may be. -/
def someDigits (least : Nat) (most : Option Nat) : Pattern :=
  .repeated (.oneOf (.bracketed (.range '0' '9'))) least most

/-- A separator with so many digits behind it. -/
def grouped (separator : Pattern) (count : Nat) : Pattern :=
  .group "" (separator.sequence (someDigits count (some count)))

variable {part : List Char}

theorem between_self_iff {a c : Char} : a ≤ c ∧ c ≤ a ↔ c = a :=
  ⟨fun h ↦ Char.le_antisymm h.2 h.1, fun h ↦ h ▸ ⟨Char.le_refl _, Char.le_refl _⟩⟩

theorem standalone_either (a b : Char) : (either a b).Standalone := standalone_oneOf _

theorem standalone_someDigits (least : Nat) (most : Option Nat) :
    (someDigits least most).Standalone := (standalone_oneOf _).repeated least most

theorem Standalone.grouped {p : Pattern} (h : p.Standalone) (count : Nat) :
    (p.grouped count).Standalone := (h.sequence (standalone_someDigits _ _)).group ""

theorem matches_either_iff {a b : Char} :
    (either a b).Matches [] part [] ↔ ∃ c ∈ [a, b], part = [c] := by
  simp only [either, Matches, CharSet.Has, between_self_iff, List.mem_cons, List.not_mem_nil,
    or_false]

theorem matches_single_iff {a : Char} :
    (oneOf (.bracketed (.range a a))).Matches [] part [] ↔ ∃ c ∈ [a], part = [c] := by
  simp only [Matches, CharSet.Has, between_self_iff, List.mem_singleton]

theorem matches_char_iff {a : Char} :
    (char a).Matches [] part [] ↔ ∃ c ∈ [a], part = [c] := by
  simp only [Matches, List.mem_singleton, exists_eq_left]

theorem matches_someDigits_iff {least : Nat} {most : Option Nat} {before after : List Char} :
    (someDigits least most).Matches before part after ↔
      (∀ c ∈ part, Text.isDigit c = true) ∧ least ≤ part.length ∧
        ∀ n ∈ most, part.length ≤ n := by
  have hdigit : ∀ c, (CharSet.bracketed (.range '0' '9')).Has c ↔ Text.isDigit c = true := by
    intro c
    simp [CharSet.Has, Text.isDigit]
  simp only [someDigits, matches_repeated_oneOf_iff, hdigit]

/-- A sign may be left out. -/
theorem matches_sign_iff :
    (either '-' '+').optional.Matches [] part [] ↔ part ∈ [[], ['-'], ['+']] := by
  rw [(standalone_either _ _).matches_optional_iff, matches_either_iff]
  simp

/-- A blank may be left out. -/
theorem matches_blank_iff :
    (char ' ').optional.Matches [] part [] ↔ part ∈ [[], [' ']] := by
  rw [(standalone_char _).matches_optional_iff]
  simp [Matches]

/-- What a separator with digits behind it matches. -/
theorem matches_grouped_iff {p : Pattern} {separators : List Char} {count : Nat}
    (hp : ∀ part, p.Matches [] part [] ↔ ∃ c ∈ separators, part = [c]) (h : p.Standalone) :
    (p.grouped count).Matches [] part [] ↔ ∃ g : Char × List Char,
      (g.1 ∈ separators ∧ g.2.length = count ∧ ∀ c ∈ g.2, Text.isDigit c = true) ∧
        part = StyledNumber.separated g := by
  simp only [grouped, Matches, h [] _ (_ ++ []), hp, matches_someDigits_iff, true_and]
  constructor
  · rintro ⟨_, digits, rfl, ⟨c, hc, rfl⟩, hdigits, hle, hge⟩
    exact ⟨(c, digits), ⟨hc, Nat.le_antisymm (hge _ rfl) hle, hdigits⟩, rfl⟩
  · rintro ⟨g, ⟨hc, hlength, hdigits⟩, rfl⟩
    refine ⟨[g.1], g.2, rfl, ⟨_, hc, rfl⟩, hdigits, hlength.ge, fun n hn ↦ ?_⟩
    exact Option.some.inj hn ▸ hlength.le

end Pattern

/-! ### The patterns of the styles -/

namespace NumberStyle

open Pattern

variable {s : List Char}

/-- The items of the pattern for whole numbers. -/
def wholeItems : List Pattern := [(either '-' '+').optional, someDigits 1 none]

/-- The items of a pattern with a decimal separator. -/
def decimalItems (separator : Pattern) (tail : List Pattern) : List Pattern :=
  (either '-' '+').optional :: someDigits 0 none :: separator.optional :: someDigits 1 none :: tail

/-- The items of a pattern for amounts. -/
def amountItems (lead : List Pattern) (separator decimal : Pattern) (tail : List Pattern) :
    List Pattern :=
  (either '-' '+').optional :: (lead ++ someDigits 1 none ::
    .repeated (grouped separator 3) 0 none :: (grouped decimal 2).optional :: tail)

/-- Where nothing separates groups, there are none. -/
theorem Writes.groups_eq_nil {style : NumberStyle} {n : StyledNumber} (h : style.Writes n)
    (hstyle : style.separators = []) : n.groups = [] := by
  refine List.eq_nil_iff_forall_not_mem.mpr fun g hg ↦ ?_
  have hmem := (h.groups g hg).separator
  rw [hstyle] at hmem
  cases hmem

/-- Where there is no decimal separator, there is no fraction. -/
theorem Writes.fraction_eq_none {style : NumberStyle} {n : StyledNumber} (h : style.Writes n)
    (hstyle : style.decimals = []) : n.fraction = none := by
  refine Option.eq_none_iff_forall_not_mem.mpr fun f hf ↦ ?_
  have hmem := (h.fraction f hf).separator
  rw [hstyle] at hmem
  cases hmem

theorem matchInTurn_wholeItems_iff :
    MatchInTurn wholeItems s ↔ ∃ n, whole.Writes n ∧ n.text = s := by
  simp only [wholeItems, MatchInTurn, matches_sign_iff, matches_someDigits_iff]
  constructor
  · rintro ⟨sign, _, rfl, hsign, digits, _, rfl, ⟨hdigits, hne, -⟩, rfl⟩
    refine ⟨⟨sign, [], digits, [], none, []⟩, ⟨hsign, .head _, hdigits, ?_, ?_, ?_, .head _⟩, by
      simp [StyledNumber.text]⟩
    · exact .inl (List.ne_nil_of_length_pos hne)
    · exact List.forall_mem_nil _
    · intro f hf
      cases hf
  · rintro ⟨⟨sign, lead, head, groups, fraction, tail⟩, h, rfl⟩
    obtain rfl : groups = [] := h.groups_eq_nil rfl
    obtain rfl : fraction = none := h.fraction_eq_none rfl
    obtain rfl : lead = [] := List.mem_singleton.mp h.lead
    obtain rfl : tail = [] := List.mem_singleton.mp h.tail
    have hhead : head ≠ [] := h.head_ne.resolve_right fun hnone ↦ by cases hnone.2
    exact ⟨sign, head, by simp [StyledNumber.text], h.sign, head, [], by simp,
      ⟨h.head, List.length_pos_iff.mpr hhead, by simp⟩, rfl⟩

theorem matchInTurn_decimalItems_iff {p : Pattern} {decimals : List Char} (hstand : p.Standalone)
    (hp : ∀ part, p.Matches [] part [] ↔ ∃ c ∈ decimals, part = [c]) {tail : List Pattern}
    {tails : List (List Char)} (htail : ∀ t, MatchInTurn tail t ↔ t ∈ tails) :
    MatchInTurn (decimalItems p tail) s ↔
      ∃ n, (decimal decimals tails).Writes n ∧ n.text = s := by
  simp only [decimalItems, MatchInTurn, matches_sign_iff, matches_someDigits_iff,
    hstand.matches_optional_iff, hp, htail]
  constructor
  · rintro ⟨sign, _, rfl, hsign, before, _, rfl, ⟨hbefore, -, -⟩, point, _, rfl, hpoint,
      digits, t, rfl, ⟨hdigits, hlength, -⟩, ht⟩
    have hne : digits ≠ [] := List.ne_nil_of_length_pos hlength
    obtain rfl | ⟨c, hc, rfl⟩ := hpoint
    · refine ⟨⟨sign, [], before ++ digits, [], none, t⟩, ⟨hsign, .head _, ?_, ?_, ?_, ?_, ht⟩, by
        simp [StyledNumber.text]⟩
      · exact List.forall_mem_append.mpr ⟨hbefore, hdigits⟩
      · exact .inl (List.append_ne_nil_of_right_ne_nil _ hne)
      · exact List.forall_mem_nil _
      · intro f hf
        cases hf
    · refine ⟨⟨sign, [], before, [], some (c, digits), t⟩, ⟨hsign, .head _, hbefore, ?_, ?_, ?_,
        ht⟩, by simp [StyledNumber.text, StyledNumber.separated]⟩
      · exact .inr ⟨rfl, rfl⟩
      · exact List.forall_mem_nil _
      · intro f hf
        cases hf
        exact ⟨hc, hne, by simp [decimal], hdigits⟩
  · rintro ⟨⟨sign, lead, head, groups, fraction, t⟩, h, rfl⟩
    obtain rfl : groups = [] := h.groups_eq_nil rfl
    obtain rfl : lead = [] := List.mem_singleton.mp h.lead
    cases fraction with
    | none =>
      have hhead : head ≠ [] := h.head_ne.resolve_right fun hnone ↦ by cases hnone.2
      exact ⟨sign, head ++ t, by simp [StyledNumber.text], h.sign, [], head ++ t, by simp,
        ⟨by simp, by simp, by simp⟩, [], head ++ t, by simp, .inl rfl, head, t, rfl,
        ⟨h.head, List.length_pos_iff.mpr hhead, by simp⟩, h.tail⟩
    | some f =>
      obtain ⟨hc, hne, -, hdigits⟩ := h.fraction f rfl
      exact ⟨sign, head ++ (f.1 :: f.2 ++ t), by simp [StyledNumber.text, StyledNumber.separated],
        h.sign, head, f.1 :: f.2 ++ t, rfl, ⟨h.head, by simp, by simp⟩, [f.1], f.2 ++ t, rfl,
        .inr ⟨f.1, hc, rfl⟩, f.2, t, rfl, ⟨hdigits, List.length_pos_iff.mpr hne, by simp⟩, h.tail⟩

theorem matchInTurn_amountItems_iff {p q : Pattern} {separators decimals : List Char}
    (hp : ∀ part, p.Matches [] part [] ↔ ∃ c ∈ separators, part = [c]) (hpstand : p.Standalone)
    (hq : ∀ part, q.Matches [] part [] ↔ ∃ c ∈ decimals, part = [c]) (hqstand : q.Standalone)
    {lead tail : List Pattern} {leads tails : List (List Char)}
    (hlead : ∀ rest t, MatchInTurn (lead ++ rest) t ↔
      ∃ x y, t = x ++ y ∧ x ∈ leads ∧ MatchInTurn rest y)
    (htail : ∀ t, MatchInTurn tail t ↔ t ∈ tails) :
    MatchInTurn (amountItems lead p q tail) s ↔
      ∃ n, (amount leads separators decimals tails).Writes n ∧ n.text = s := by
  simp only [amountItems, MatchInTurn, hlead, htail, matches_sign_iff, matches_someDigits_iff,
    (hqstand.grouped 2).matches_optional_iff,
    (hpstand.grouped 3).matches_star_iff (fun _ ↦ matches_grouped_iff hp hpstand),
    matches_grouped_iff hq hqstand]
  constructor
  · rintro ⟨sign, _, rfl, hsign, x, _, rfl, hx, head, _, rfl, ⟨hhead, hlength, -⟩, _, _, rfl,
      ⟨groups, hgroups, rfl⟩, cents, t, rfl, hcents, ht⟩
    have hne : head ≠ [] := List.ne_nil_of_length_pos hlength
    have hgroups' : ∀ g ∈ groups, (amount leads separators decimals tails).IsGroup g :=
      fun g hg ↦ ⟨(hgroups g hg).1, (hgroups g hg).2.1, (hgroups g hg).2.2⟩
    obtain rfl | ⟨f, ⟨hf, htwo, hdigits⟩, rfl⟩ := hcents
    · exact ⟨⟨sign, x, head, groups, none, t⟩, ⟨hsign, hx, hhead, .inl hne, hgroups',
        (by simp), ht⟩, rfl⟩
    · refine ⟨⟨sign, x, head, groups, some f, t⟩, ⟨hsign, hx, hhead, .inl hne, hgroups',
        fun f' hf' ↦ ?_, ht⟩, rfl⟩
      obtain rfl := Option.some.inj hf'
      exact ⟨hf, List.ne_nil_of_length_pos (by omega), fun k hk ↦ Option.some.inj hk ▸ htwo,
        hdigits⟩
  · rintro ⟨⟨sign, x, head, groups, fraction, t⟩, h, rfl⟩
    have hne : head ≠ [] := h.head_ne.resolve_right fun hbare ↦ by cases hbare.1
    refine ⟨sign, _, rfl, h.sign, x, _, rfl, h.lead, head, _, rfl,
      ⟨h.head, List.length_pos_iff.mpr hne, by simp⟩, _, _, rfl,
      ⟨groups, fun g hg ↦ ⟨(h.groups g hg).separator, (h.groups g hg).length,
        (h.groups g hg).digits⟩, rfl⟩, _, t, rfl, ?_, h.tail⟩
    cases fraction with
    | none => exact .inl rfl
    | some f =>
      obtain ⟨hf, -, htwo, hdigits⟩ := h.fraction f rfl
      exact .inr ⟨f, ⟨hf, htwo 2 rfl, hdigits⟩, rfl⟩

/-! ### The number formats -/

/-- Whether a pattern is found in exactly those texts that are numbers in the style. -/
def Describes (style : NumberStyle) (source : String) : Prop :=
  ∃ p, Pattern.parse? source = some p ∧
    ∀ s, p.FoundIn s ↔ ∃ n, style.Writes n ∧ n.text = s.toList

theorem describes_of_items {style : NumberStyle} {source : String} (items : List Pattern)
    (hparse : Pattern.parse? source = some (anchored items))
    (hstand : ∀ p ∈ items, p.Standalone)
    (hitems : ∀ s, MatchInTurn items s ↔ ∃ n, style.Writes n ∧ n.text = s) :
    style.Describes source :=
  ⟨_, hparse, fun s ↦ (foundIn_anchored_iff hstand).trans (hitems s.toList)⟩

/-- A blank may stand between digits and a sign behind them. -/
theorem matchInTurn_signBehind_iff {c : Char} {t : List Char} :
    MatchInTurn [(Pattern.char ' ').optional, .char c] t ↔ t ∈ [[c], [' ', c]] := by
  simp only [MatchInTurn, matches_blank_iff, Matches]
  constructor
  · rintro ⟨x, _, rfl, hx, _, _, rfl, rfl, rfl⟩
    simp only [List.mem_cons, List.not_mem_nil, or_false] at hx
    rcases hx with rfl | rfl
    · exact .head _
    · exact .tail _ (.head _)
  · intro ht
    simp only [List.mem_cons, List.not_mem_nil, or_false] at ht
    rcases ht with rfl | rfl
    · exact ⟨[], [c], rfl, .head _, [c], [], rfl, rfl, rfl⟩
    · exact ⟨[' '], [c], rfl, .tail _ (.head _), [c], [], rfl, rfl, rfl⟩

/-- A blank may stand between digits and a sign in front of them. -/
theorem matchInTurn_signInFront_iff {c : Char} {rest : List Pattern} {t : List Char} :
    MatchInTurn ([.char c, (Pattern.char ' ').optional] ++ rest) t ↔
      ∃ x y, t = x ++ y ∧ x ∈ [[c], [c, ' ']] ∧ MatchInTurn rest y := by
  simp only [List.cons_append, List.nil_append, MatchInTurn, matches_blank_iff, Matches]
  constructor
  · rintro ⟨_, _, rfl, rfl, x, y, rfl, hx, hy⟩
    refine ⟨[c] ++ x, y, (List.append_assoc _ _ _).symm, ?_, hy⟩
    simp only [List.mem_cons, List.not_mem_nil, or_false] at hx ⊢
    rcases hx with rfl | rfl
    · exact .inl rfl
    · exact .inr rfl
  · rintro ⟨x, y, rfl, hx, hy⟩
    simp only [List.mem_cons, List.not_mem_nil, or_false] at hx
    rcases hx with rfl | rfl
    · exact ⟨[c], y, rfl, rfl, [], y, rfl, .head _, hy⟩
    · exact ⟨[c], [' '] ++ y, rfl, rfl, [' '], y, rfl, .tail _ (.head _), hy⟩

theorem standalone_of_mem_decimalItems {p : Pattern} (h : p.Standalone) {tail : List Pattern}
    (htail : ∀ q ∈ tail, q.Standalone) : ∀ q ∈ decimalItems p tail, q.Standalone := by
  simp only [decimalItems, List.forall_mem_cons]
  exact ⟨(standalone_either _ _).optional, standalone_someDigits _ _, h.optional,
    standalone_someDigits _ _, htail⟩

theorem standalone_of_mem_amountItems {p q : Pattern} (hp : p.Standalone) (hq : q.Standalone)
    {lead tail : List Pattern} (hlead : ∀ x ∈ lead, x.Standalone)
    (htail : ∀ x ∈ tail, x.Standalone) : ∀ x ∈ amountItems lead p q tail, x.Standalone := by
  simp only [amountItems, List.forall_mem_cons, List.forall_mem_append]
  exact ⟨(standalone_either _ _).optional, hlead, standalone_someDigits _ _,
    (hp.grouped 3).repeated 0 none, (hq.grouped 2).optional, htail⟩

/-- A sign of the currency with the blank that may stand beside it. -/
theorem standalone_of_mem_sign {c : Char} :
    (∀ x ∈ [Pattern.char c, (Pattern.char ' ').optional], x.Standalone) ∧
      ∀ x ∈ [(Pattern.char ' ').optional, Pattern.char c], x.Standalone := by
  have hc := standalone_char c
  have hblank := (standalone_char ' ').optional
  simp [hc, hblank]

theorem describes_decimal {p : Pattern} {decimals : List Char} {source : String}
    (hstand : p.Standalone) (hp : ∀ part, p.Matches [] part [] ↔ ∃ c ∈ decimals, part = [c])
    (hparse : Pattern.parse? source = some (anchored (decimalItems p []))) :
    (decimal decimals [[]]).Describes source :=
  describes_of_items _ hparse (standalone_of_mem_decimalItems hstand (List.forall_mem_nil _))
    fun _ ↦ matchInTurn_decimalItems_iff hstand hp fun t ↦ by simp [MatchInTurn]

theorem describes_signFirst {c : Char} {source : String}
    (hparse : Pattern.parse? source = some (anchored (amountItems
      [.char c, (Pattern.char ' ').optional] (either ',' '.')
      (.oneOf (.bracketed (.range '.' '.'))) []))) : (signFirst c).Describes source :=
  describes_of_items _ hparse (standalone_of_mem_amountItems (standalone_either _ _)
      (standalone_oneOf _) standalone_of_mem_sign.1 (List.forall_mem_nil _)) fun _ ↦
    matchInTurn_amountItems_iff (fun _ ↦ matches_either_iff) (standalone_either _ _)
      (fun _ ↦ matches_single_iff) (standalone_oneOf _) (fun _ _ ↦ matchInTurn_signInFront_iff)
      fun t ↦ by simp [MatchInTurn]

/-- The pattern of each number format is found in exactly the numbers in its style. -/
theorem describes_of_mem_table {format pattern : String} {style : NumberStyle}
    (h : (format, style) ∈ table) (hpattern : Format.validityPattern? format = some pattern) :
    style.Describes pattern := by
  have hsource : ∀ {source}, Format.validityPattern? format = some source →
      style.Describes source → style.Describes pattern := by
    intro source hsource hdescribes
    obtain rfl : source = pattern := Option.some.inj (hsource.symm.trans hpattern)
    exact hdescribes
  simp only [table, List.mem_cons, Prod.mk.injEq, List.not_mem_nil, or_false] at h
  rcases h with ⟨rfl, rfl⟩ | ⟨rfl, rfl⟩ | ⟨rfl, rfl⟩ | ⟨rfl, rfl⟩ | ⟨rfl, rfl⟩ | ⟨rfl, rfl⟩ |
    ⟨rfl, rfl⟩
  · refine hsource rfl (describes_of_items wholeItems (by decide +kernel) ?_ fun _ ↦
      matchInTurn_wholeItems_iff)
    simp only [wholeItems, List.forall_mem_cons]
    exact ⟨(standalone_either _ _).optional, standalone_someDigits _ _, List.forall_mem_nil _⟩
  · exact hsource rfl (describes_decimal (standalone_char _) (fun _ ↦ matches_char_iff)
      (by decide +kernel))
  · exact hsource rfl (describes_decimal (standalone_char _) (fun _ ↦ matches_char_iff)
      (by decide +kernel))
  · exact hsource rfl (describes_of_items (decimalItems (either '.' ',')
        [(Pattern.char ' ').optional, .char '%']) (by decide +kernel)
      (standalone_of_mem_decimalItems (standalone_either _ _) standalone_of_mem_sign.2) fun _ ↦
        matchInTurn_decimalItems_iff (standalone_either _ _) (fun _ ↦ matches_either_iff) fun _ ↦
          matchInTurn_signBehind_iff)
  · exact hsource rfl (describes_signFirst (by decide +kernel))
  · exact hsource rfl (describes_of_items (amountItems [] (either '.' ',') (.char ',')
        [(Pattern.char ' ').optional, .char '€']) (by decide +kernel)
      (standalone_of_mem_amountItems (standalone_either _ _) (standalone_char _)
        (List.forall_mem_nil _) standalone_of_mem_sign.2) fun _ ↦
        matchInTurn_amountItems_iff (fun _ ↦ matches_either_iff) (standalone_either _ _)
          (fun _ ↦ matches_char_iff) (standalone_char _) (fun _ _ ↦ by simp)
          fun _ ↦ matchInTurn_signBehind_iff)
  · exact hsource rfl (describes_signFirst (by decide +kernel))

/-! ### One way to take a number apart -/

/-- What keeps the parts of a number in the style apart. -/
structure Separates (style : NumberStyle) : Prop where
  leads : ∀ x ∈ style.leads, ∀ c ∈ x,
    Text.isDigit c = false ∧ c ∉ style.decimals ∧ c ∉ ['-', '+']
  separators : ∀ c ∈ style.separators, Text.isDigit c = false
  decimals : ∀ c ∈ style.decimals, Text.isDigit c = false ∧ c ∉ ['-', '+']
  places : style.separators ≠ [] → style.places ≠ none ∧ style.places ≠ some 3
  bare : style.needsHead = false → style.separators = []
  tails : ∀ x ∈ style.tails, ∀ c ∈ x.head?,
    Text.isDigit c = false ∧ c ∉ style.separators ∧ c ∉ style.decimals

theorem separates_of_mem_table {format : String} {style : NumberStyle}
    (h : (format, style) ∈ table) : style.Separates := by
  simp only [table, List.mem_cons, Prod.mk.injEq, List.not_mem_nil, or_false] at h
  rcases h with ⟨-, rfl⟩ | ⟨-, rfl⟩ | ⟨-, rfl⟩ | ⟨-, rfl⟩ | ⟨-, rfl⟩ | ⟨-, rfl⟩ | ⟨-, rfl⟩
  all_goals constructor <;> simp [whole, decimal, signFirst, signLast, amount, Text.isDigit]

/-- Texts with the same beginning of one kind of characters agree in it and behind it. -/
theorem eq_and_eq_of_append_eq {a b c d : List Char} (kind : Char → Bool)
    (ha : ∀ x ∈ a, kind x = true) (hc : ∀ x ∈ c, kind x = true)
    (hb : ∀ x ∈ b.head?, kind x = false) (hd : ∀ x ∈ d.head?, kind x = false)
    (h : a ++ b = c ++ d) : a = c ∧ b = d := by
  have htake : ∀ {x y : List Char}, (∀ z ∈ x, kind z = true) → (∀ z ∈ y.head?, kind z = false) →
      (x ++ y).takeWhile kind = x := by
    intro x y hx hy
    rw [List.takeWhile_append_of_pos hx]
    cases y with
    | nil => simp
    | cons z rest => simp [hy z rfl]
  have hac : a = c := by rw [← htake ha hb, h, htake hc hd]
  exact ⟨hac, List.append_cancel_left (hac ▸ h)⟩

/-- What stands behind the first digits of a number. -/
def behind (groups : List (Char × List Char)) (fraction : Option (Char × List Char))
    (tail : List Char) : List Char :=
  groups.flatMap StyledNumber.separated ++ (fraction.elim [] StyledNumber.separated ++ tail)

section

variable {style : NumberStyle} {groups groups' : List (Char × List Char)}
  {fraction fraction' : Option (Char × List Char)} {tail tail' : List Char}

/-- What stands behind digits begins with another character. -/
theorem Separates.head?_behind (hstyle : style.Separates) (hgroups : ∀ g ∈ groups, style.IsGroup g)
    (hfraction : ∀ f ∈ fraction, style.IsFraction f) (htail : tail ∈ style.tails) :
    ∀ c ∈ (behind groups fraction tail).head?, Text.isDigit c = false := by
  intro c hc
  cases groups with
  | cons g rest =>
    obtain rfl := Option.some.inj hc
    exact hstyle.separators _ (hgroups g (.head _)).separator
  | nil =>
    cases fraction with
    | some f =>
      obtain rfl := Option.some.inj hc
      exact (hstyle.decimals _ (hfraction f rfl).separator).1
    | none => exact (hstyle.tails _ htail c hc).1

/-- What begins with a tail begins with no separator. -/
theorem Separates.ne_cons (hstyle : style.Separates) (htail : tail ∈ style.tails) {c : Char}
    (hc : c ∈ style.separators ∨ c ∈ style.decimals) (cs : List Char) : tail ≠ c :: cs := by
  rintro rfl
  obtain ⟨-, hseparator, hdecimal⟩ := hstyle.tails _ htail c rfl
  exact hc.elim hseparator hdecimal

/-- A fraction has not as many digits as a group. -/
theorem Separates.length_ne (hstyle : style.Separates) {g f : Char × List Char}
    (hg : style.IsGroup g) (hf : style.IsFraction f) : g.2 ≠ f.2 := by
  intro heq
  obtain ⟨hsome, hthree⟩ := hstyle.places (List.ne_nil_of_mem hg.separator)
  obtain ⟨k, hk⟩ := Option.ne_none_iff_exists'.mp hsome
  have hlength := hf.length k hk
  rw [← heq, hg.length] at hlength
  exact hthree (hlength ▸ hk)

theorem behind_cons (g : Char × List Char) (groups : List (Char × List Char))
    (fraction : Option (Char × List Char)) (tail : List Char) :
    behind (g :: groups) fraction tail = g.1 :: (g.2 ++ behind groups fraction tail) := by
  simp [behind, StyledNumber.separated]

/-- A group is not taken for a fraction or for what stands behind the number. -/
theorem Separates.behind_cons_ne (hstyle : style.Separates) {g : Char × List Char}
    (hg : style.IsGroup g) (hgroups : ∀ g ∈ groups, style.IsGroup g)
    (hfraction : ∀ f ∈ fraction, style.IsFraction f) (htail : tail ∈ style.tails)
    (hfraction' : ∀ f ∈ fraction', style.IsFraction f) (htail' : tail' ∈ style.tails) :
    behind (g :: groups) fraction tail ≠ behind [] fraction' tail' := by
  rw [behind_cons]
  intro h
  cases fraction' with
  | none => exact hstyle.ne_cons htail' (.inl hg.separator) _ h.symm
  | some f =>
    obtain ⟨-, hrest⟩ := List.cons.inj h
    have hf := hfraction' f rfl
    exact hstyle.length_ne hg hf (eq_and_eq_of_append_eq Text.isDigit hg.digits hf.digits
      (hstyle.head?_behind hgroups hfraction htail) (fun c hc ↦ (hstyle.tails _ htail' c hc).1)
      hrest).1

/-- Groups, fraction and tail are known from the text that they make. -/
theorem Separates.behind_inj (hstyle : style.Separates) (hgroups : ∀ g ∈ groups, style.IsGroup g)
    (hgroups' : ∀ g ∈ groups', style.IsGroup g) (hfraction : ∀ f ∈ fraction, style.IsFraction f)
    (hfraction' : ∀ f ∈ fraction', style.IsFraction f) (htail : tail ∈ style.tails)
    (htail' : tail' ∈ style.tails)
    (h : behind groups fraction tail = behind groups' fraction' tail') :
    groups = groups' ∧ fraction = fraction' ∧ tail = tail' := by
  induction groups generalizing groups' with
  | nil =>
    cases groups' with
    | cons g' rest' =>
      obtain ⟨hg', hrest'⟩ := List.forall_mem_cons.mp hgroups'
      exact absurd h.symm (hstyle.behind_cons_ne hg' hrest' hfraction' htail' hfraction htail)
    | nil =>
      cases fraction with
      | none =>
        cases fraction' with
        | none => exact ⟨rfl, rfl, h⟩
        | some f' =>
          exact absurd h (hstyle.ne_cons htail (.inr (hfraction' f' rfl).separator) _)
      | some f =>
        cases fraction' with
        | none =>
          exact absurd h.symm (hstyle.ne_cons htail' (.inr (hfraction f rfl).separator) _)
        | some f' =>
          obtain ⟨hc, hrest⟩ := List.cons.inj h
          obtain ⟨hdigits, ht⟩ := eq_and_eq_of_append_eq Text.isDigit (hfraction f rfl).digits
            (hfraction' f' rfl).digits (fun c hc ↦ (hstyle.tails _ htail c hc).1)
            (fun c hc ↦ (hstyle.tails _ htail' c hc).1) hrest
          exact ⟨rfl, congrArg some (Prod.ext hc hdigits), ht⟩
  | cons g rest ih =>
    obtain ⟨hg, hrest⟩ := List.forall_mem_cons.mp hgroups
    cases groups' with
    | nil => exact absurd h (hstyle.behind_cons_ne hg hrest hfraction htail hfraction' htail')
    | cons g' rest' =>
      obtain ⟨hg', hrest'⟩ := List.forall_mem_cons.mp hgroups'
      rw [behind_cons, behind_cons] at h
      obtain ⟨hc, happend⟩ := List.cons.inj h
      obtain ⟨hdigits, hbehind⟩ := eq_and_eq_of_append_eq Text.isDigit hg.digits hg'.digits
        (hstyle.head?_behind hrest hfraction htail) (hstyle.head?_behind hrest' hfraction' htail')
        happend
      obtain ⟨rfl, rfl, rfl⟩ := ih hrest hrest' hbehind
      exact ⟨congrArg (· :: rest) (Prod.ext hc hdigits), rfl, rfl⟩

end

/-- The digits of a number begin with a digit or with a decimal separator. -/
theorem Separates.head?_digits {style : NumberStyle} (hstyle : style.Separates) {n : StyledNumber}
    (h : style.Writes n) : ∀ c ∈ (n.head ++ behind n.groups n.fraction n.tail).head?,
      Text.isDigit c = true ∨ c ∈ style.decimals := by
  intro c hc
  cases hhead : n.head with
  | cons d rest =>
    rw [hhead] at hc
    obtain rfl := Option.some.inj hc
    exact .inl (h.head _ (hhead ▸ .head _))
  | nil =>
    obtain ⟨hbare, hfraction⟩ := h.head_ne.resolve_left (· hhead)
    obtain ⟨f, hf⟩ := Option.isSome_iff_exists.mp hfraction
    rw [hhead, h.groups_eq_nil (hstyle.bare hbare), hf] at hc
    obtain rfl := Option.some.inj hc
    exact .inr (h.fraction f hf).separator

theorem isSign_of_mem {sign : List Char} (h : sign ∈ [[], ['-'], ['+']]) :
    ∀ c ∈ sign, ['-', '+'].contains c = true := by
  simp only [List.mem_cons, List.not_mem_nil, or_false] at h
  rcases h with rfl | rfl | rfl <;> simp

/-- The sign of a number ends where no sign stands. -/
theorem Separates.sign_ends {style : NumberStyle} (hstyle : style.Separates) {n : StyledNumber}
    (h : style.Writes n) :
    (∀ c ∈ n.sign, ['-', '+'].contains c = true) ∧
      ∀ c ∈ (n.lead ++ (n.head ++ behind n.groups n.fraction n.tail)).head?,
        ['-', '+'].contains c = false := by
  constructor
  · exact isSign_of_mem h.sign
  · intro c hc
    refine Bool.eq_false_iff.mpr fun hcontains ↦ ?_
    have hmem : c ∈ ['-', '+'] := List.contains_iff_mem.mp hcontains
    cases hlead : n.lead with
    | cons d rest =>
      rw [hlead] at hc
      obtain rfl := Option.some.inj hc
      exact (hstyle.leads _ h.lead _ (hlead ▸ .head _)).2.2 hmem
    | nil =>
      rw [hlead] at hc
      rcases hstyle.head?_digits h c hc with hdigit | hdecimal
      · simp only [List.mem_cons, List.not_mem_nil, or_false] at hmem
        rcases hmem with rfl | rfl <;> exact absurd hdigit (by decide)
      · exact (hstyle.decimals c hdecimal).2 hmem

/-- What stands in front of the digits ends where they begin. -/
theorem Separates.lead_ends {style : NumberStyle} (hstyle : style.Separates) {n : StyledNumber}
    (h : style.Writes n) :
    (∀ c ∈ n.lead, (!Text.isDigit c && !style.decimals.contains c) = true) ∧
      ∀ c ∈ (n.head ++ behind n.groups n.fraction n.tail).head?,
        (!Text.isDigit c && !style.decimals.contains c) = false := by
  constructor
  · intro c hc
    obtain ⟨hdigit, hdecimal, -⟩ := hstyle.leads _ h.lead c hc
    simp [hdigit, hdecimal]
  · intro c hc
    rcases hstyle.head?_digits h c hc with hdigit | hdecimal
    · simp [hdigit]
    · simp [hdecimal]

/-- A text is written in a style in one way only. -/
theorem Writes.eq_of_text_eq {style : NumberStyle} (hstyle : style.Separates)
    {n m : StyledNumber} (hn : style.Writes n) (hm : style.Writes m) (h : n.text = m.text) :
    n = m := by
  obtain ⟨hsigns, hrest⟩ := eq_and_eq_of_append_eq _ (hstyle.sign_ends hn).1
    (hstyle.sign_ends hm).1 (hstyle.sign_ends hn).2 (hstyle.sign_ends hm).2 h
  obtain ⟨hleads, hrest⟩ := eq_and_eq_of_append_eq _ (hstyle.lead_ends hn).1
    (hstyle.lead_ends hm).1 (hstyle.lead_ends hn).2 (hstyle.lead_ends hm).2 hrest
  obtain ⟨hheads, hrest⟩ := eq_and_eq_of_append_eq Text.isDigit hn.head hm.head
    (hstyle.head?_behind hn.groups hn.fraction hn.tail)
    (hstyle.head?_behind hm.groups hm.fraction hm.tail) hrest
  obtain ⟨hgroups, hfraction, htail⟩ := hstyle.behind_inj hn.groups hm.groups hn.fraction
    hm.fraction hn.tail hm.tail hrest
  cases n
  cases m
  simp_all

end NumberStyle

end DataQuality
