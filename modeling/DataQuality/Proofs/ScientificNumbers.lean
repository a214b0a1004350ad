import Mathlib
import DataQuality.Json.Number
import DataQuality.Proofs.PlainNumbers

/-!
# Numbers in scientific notation

What numbers look like when they are written into JSON texts: an integer is its digits, and a finite
float is the shortest decimal that reads back, with a point or an exponent that tells it from an
integer. The nearest float of what is written is the float itself.
-/

namespace DataQuality

open Float.Model

/-! ### Floats with their sign -/

namespace Number

/-- Changing the sign of a float changes its sign bit only. -/
theorem unpack_packComponents_neg (spec : Float.Model.Format) (sign : UnpackedFloat.Sign)
    (exponent : BitVec spec.exponentBits) (mantissa : BitVec spec.mantissaBitsWithoutImplicit) :
    UnpackedFloat.unpack spec (UnpackedFloat.packComponents spec (-sign) exponent mantissa) =
      (UnpackedFloat.unpack spec
        (UnpackedFloat.packComponents spec sign exponent mantissa)).neg := by
  have hsign : ∀ s : UnpackedFloat.Sign, UnpackedFloat.Sign.ofBitVec s.toBitVec = s :=
    UnpackedFloat.Sign.forall_iff.mpr ⟨rfl, rfl⟩
  simp only [UnpackedFloat.unpack, UnpackedFloat.unpackSign_packComponents,
    UnpackedFloat.unpackExponent_packComponents, UnpackedFloat.unpackMantissa_packComponents, hsign]
  split
  · split <;> rfl
  · split
    · split <;> rfl
    · rfl

section

variable (b : BitVec Float.Model.Format.binary64.numBits)

theorem toNat_unpackSign : (UnpackedFloat.unpackSign b).toNat = b.toNat / 2 ^ 63 % 2 := by
  rw [UnpackedFloat.unpackSign_def, BitVec.extractLsb'_toNat, Nat.shiftRight_eq_div_pow]
  rfl

theorem toNat_unpackExponent :
    (UnpackedFloat.unpackExponent b).toNat = b.toNat / 2 ^ 52 % 2 ^ 11 := by
  rw [UnpackedFloat.unpackExponent_def, BitVec.extractLsb'_toNat, Nat.shiftRight_eq_div_pow]

theorem toNat_unpackMantissa : (UnpackedFloat.unpackMantissa b).toNat = b.toNat % 2 ^ 52 := by
  rw [UnpackedFloat.unpackMantissa_def, BitVec.extractLsb'_toNat, Nat.shiftRight_zero]

/-- The sign bit in front of bits that have none. -/
theorem eq_packComponents_neg (signed : BitVec Float.Model.Format.binary64.numBits)
    (h : b.toNat < signBit) (hsigned : signed.toNat = b.toNat + signBit) :
    b = UnpackedFloat.packComponents .binary64 .positive (UnpackedFloat.unpackExponent b)
        (UnpackedFloat.unpackMantissa b) ∧
      signed = UnpackedFloat.packComponents .binary64 (-.positive) (UnpackedFloat.unpackExponent b)
        (UnpackedFloat.unpackMantissa b) := by
  have hbits : b.toNat < 2 ^ 63 := h
  have hsum : signed.toNat = b.toNat + 2 ^ 63 := hsigned
  have hsign : UnpackedFloat.unpackSign b = 0#1 := by
    apply BitVec.eq_of_toNat_eq
    rw [toNat_unpackSign, Nat.div_eq_of_lt hbits]
    rfl
  have hsign' : UnpackedFloat.unpackSign signed = 1#1 := by
    apply BitVec.eq_of_toNat_eq
    rw [toNat_unpackSign, hsum, Nat.add_div_right _ (by decide), Nat.div_eq_of_lt hbits]
    rfl
  have hexponent : UnpackedFloat.unpackExponent signed = UnpackedFloat.unpackExponent b := by
    apply BitVec.eq_of_toNat_eq
    rw [toNat_unpackExponent, toNat_unpackExponent]
    omega
  have hmantissa : UnpackedFloat.unpackMantissa signed = UnpackedFloat.unpackMantissa b := by
    apply BitVec.eq_of_toNat_eq
    rw [toNat_unpackMantissa, toNat_unpackMantissa]
    omega
  constructor
  · have hpack := UnpackedFloat.packComponents_unpackSign_unpackExponent_unpackMantissa b
    rw [hsign] at hpack
    exact hpack.symm
  · have hpack := UnpackedFloat.packComponents_unpackSign_unpackExponent_unpackMantissa signed
    rw [hsign', hexponent, hmantissa] at hpack
    exact hpack.symm

end

theorem neg_ofMagnitude {bits : Nat} (h : bits < infinityBits) :
    -ofMagnitude false bits = ofMagnitude true bits := by
  have hsign : bits < signBit := Nat.lt_trans h (by decide)
  have hnat : (UInt64.ofNat bits).toBitVec.toNat = bits :=
    UInt64.toNat_ofNat_of_lt' (Nat.lt_trans hsign (by decide))
  have hnat' : (UInt64.ofNat (bits + signBit)).toBitVec.toNat = bits + signBit :=
    UInt64.toNat_ofNat_of_lt' (Nat.add_lt_add_right hsign _)
  obtain ⟨hplain, hsigned⟩ := eq_packComponents_neg (UInt64.ofNat bits).toBitVec
    (UInt64.ofNat (bits + signBit)).toBitVec (by rw [hnat]; exact hsign)
    (by rw [hnat', hnat])
  have hunpack : UnpackedFloat.unpack .binary64 (UInt64.ofNat (bits + signBit)).toBitVec =
      (UnpackedFloat.unpack .binary64 (UInt64.ofNat bits).toBitVec).neg := by
    rw [hsigned, unpack_packComponents_neg, ← hplain]
  have hpack : (UnpackedFloat.unpack .binary64 (UInt64.ofNat bits).toBitVec).pack .binary64 =
      (UInt64.ofNat bits).toBitVec := by
    rw [UnpackedFloat.pack_unpack, isNaNBits_eq_false (by rw [hnat]; exact h)]
    rfl
  have hmodel : -Float.Model.ofBits (UInt64.ofNat bits) =
      Float.Model.ofBits (UInt64.ofNat (bits + signBit)) := by
    show Float.Model.pack (UnpackedFloat.unpack .binary64 ((UnpackedFloat.unpack .binary64
      (UInt64.ofNat bits).toBitVec).pack .binary64)).neg = _
    rw [hpack, ← hunpack]
    rfl
  exact congrArg (fun model ↦ ({ toModel := model } : Float)) hmodel

/-- A float is made of its sign and its other bits. -/
theorem ofMagnitude_splitSign (x : Float) : ofMagnitude (splitSign x).1 (splitSign x).2 = x := by
  have hbits : x.toBits.toNat < 2 ^ 64 := x.toBits.toNat_lt
  have hnat : (if (splitSign x).1 then (splitSign x).2 + signBit else (splitSign x).2) =
      x.toBits.toNat := by
    unfold splitSign
    have hsign : signBit = 2 ^ 63 := rfl
    simp only [hsign, decide_eq_true_eq]
    split <;> omega
  rw [ofMagnitude, hnat, UInt64.ofNat_toNat, Float.ofBits_toBits]

/-- A finite float has bits below those of infinity. -/
theorem isFinite_iff {x : Float} : isFinite x = true ↔ (splitSign x).2 < infinityBits := by
  unfold isFinite classify
  simp only []
  split_ifs with hinfinite hnan
  · simp [hinfinite]
  · simp only [false_iff]
    omega
  · simp only [true_iff]
    omega

/-- A finite float, its sign put in front of it. -/
theorem eq_of_isFinite {x : Float} (h : isFinite x = true) :
    (if (splitSign x).1 then -ofMagnitude false (splitSign x).2
      else ofMagnitude false (splitSign x).2) = x := by
  have hx := ofMagnitude_splitSign x
  cases hsign : (splitSign x).1 with
  | true =>
    rw [hsign] at hx
    rw [if_pos rfl, neg_ofMagnitude (isFinite_iff.mp h), hx]
  | false =>
    rw [hsign] at hx
    rw [if_neg (by decide), hx]

/-- How a finite float is shown. -/
theorem scientificText?_of_isFinite {x : Float} (h : isFinite x = true) :
    scientificText? x = some (signText (splitSign x).1 ++
      (shortest .even (magnitude (splitSign x).2).1 (magnitude (splitSign x).2).2).scientific) := by
  rw [scientificText?, classify_of_lt (isFinite_iff.mp h)]

theorem isFinite_ofMagnitude {bits : Nat} (h : bits < infinityBits) :
    isFinite (ofMagnitude false bits) = true := by
  rw [isFinite_iff, splitSign_ofMagnitude h]
  exact h

/-! ### Digits -/

/-- The digits of a number do not begin with a zero. -/
theorem head?_toDigits_ne_zero {n : Nat} (h : n ≠ 0) : (Nat.toDigits 10 n).head? ≠ some '0' := by
  induction n using Nat.strong_induction_on with
  | _ n ih =>
    by_cases hshort : n < 10
    · rw [Nat.toDigits_of_lt_base hshort]
      have hdigit : ∀ d < 10, d ≠ 0 → [Nat.digitChar d].head? ≠ some '0' := by decide
      exact hdigit n hshort h
    · rw [Nat.toDigits_of_base_le (by decide) (Nat.le_of_not_lt hshort),
        List.head?_append_of_ne_nil _ Nat.toDigits_ne_nil]
      exact ih (n / 10) (by omega) (by omega)

end Number

/-! ### Numbers as they are written -/

namespace Json

open Number (Decimal digitsValue)

namespace WrittenNumber

/-- The characters of a fraction with its point. -/
def fractionPart (fraction : Option (List Char)) : List Char := fraction.elim [] ('.' :: ·)

/-- The characters of an exponent with its mark and its sign. -/
def exponentPart (exponent : Option (Bool × List Char)) : List Char :=
  exponent.elim [] fun e ↦ 'e' :: (if e.1 then '-' else '+') :: e.2

/-- The characters of a number. -/
def characters (w : WrittenNumber) : List Char :=
  (if w.negative then ['-'] else []) ++
    (w.whole ++ (fractionPart w.fraction ++ exponentPart w.exponent))

/-- Whether characters are digits, one at least. -/
def AreDigits (cs : List Char) : Prop := cs ≠ [] ∧ ∀ c ∈ cs, Text.isDigit c = true

/-- Whether a number can be read: its parts are digits, and its whole part has no superfluous
zero. -/
structure IsProper (w : WrittenNumber) : Prop where
  whole : AreDigits w.whole
  first : w.whole = ['0'] ∨ w.whole.head? ≠ some '0'
  fraction : ∀ cs ∈ w.fraction, AreDigits cs
  exponent : ∀ e ∈ w.exponent, AreDigits e.2

theorem areDigits_toDigits (n : Nat) : AreDigits (Nat.toDigits 10 n) :=
  ⟨Nat.toDigits_ne_nil, fun _ ↦ Number.isDigit_of_mem_toDigits⟩

theorem areDigits_zero : AreDigits ['0'] :=
  ⟨List.cons_ne_nil _ _, List.forall_mem_singleton.mpr (by decide)⟩

/-- An integer as it is written. -/
def ofInt (i : Int) : WrittenNumber := ⟨decide (i < 0), Nat.toDigits 10 i.natAbs, none, none⟩

theorem characters_ofInt (i : Int) : (ofInt i).characters = (Number.intText i).toList := by
  cases i <;> simp [ofInt, characters, fractionPart, exponentPart, Number.intText, Number.natText]

theorem isProper_ofInt (i : Int) : (ofInt i).IsProper where
  whole := areDigits_toDigits _
  first := by
    by_cases hzero : i.natAbs = 0
    · exact .inl (by rw [ofInt, hzero]; rfl)
    · exact .inr (Number.head?_toDigits_ne_zero hzero)
  fraction := by simp [ofInt]
  exponent := by simp [ofInt]

/-- An integer of 64 bits reads back as itself. -/
theorem value?_ofInt {i : Int} (rule : FloatRule) (hmin : -(2 ^ 63) ≤ i) (hmax : i < 2 ^ 64) :
    (ofInt i).value? rule = some (.int i) := by
  have hinteger : (ofInt i).integer? = some i := by
    simp only [integer?, ofInt, Number.digitsValue_toDigits, Option.isSome_none, Bool.or_self,
      Bool.false_eq_true, if_false, decide_eq_true_eq, Nat.pow_eq]
    split_ifs with hneg hrange hrange
    · exact congrArg some (by omega)
    · omega
    · exact congrArg some (by omega)
    · omega
  rw [value?, hinteger]

/-- The parts of an exponent mark. -/
theorem toList_exponentText (e : Int) : (Number.exponentText e).toList =
    'e' :: (if decide (e < 0) then '-' else '+') :: Nat.toDigits 10 e.natAbs := by
  unfold Number.exponentText
  split
  · next h =>
    obtain ⟨n, rfl⟩ := Int.eq_ofNat_of_zero_le h
    simp [Number.natText]
  · next h =>
    obtain ⟨n, hn⟩ := Int.eq_ofNat_of_zero_le (show 0 ≤ -e by omega)
    obtain rfl : e = -(n : Int) := by omega
    simp [Number.natText]
    omega

/-- The exponent of a numeral is the one that its mark shows. -/
theorem numeral_of_exponent (negative : Bool) (whole : List Char) (fraction : Option (List Char))
    (e : Int) :
    (WrittenNumber.mk negative whole fraction
      (some (decide (e < 0), Nat.toDigits 10 e.natAbs))).numeral =
      ⟨whole, fraction.getD [], e⟩ := by
  by_cases he : e < 0
  · simp only [numeral, he, decide_true, Number.digitsValue_toDigits]
    congr 1
    omega
  · simp only [numeral, he, decide_false, Number.digitsValue_toDigits]
    congr 1
    omega

/-- Whether a number without a sign stands for a decimal and cannot be taken for an integer. -/
structure Denotes (w : WrittenNumber) (d : Decimal) : Prop where
  unsigned : w.negative = false
  proper : w.IsProper
  isFloat : (w.fraction.isSome || w.exponent.isSome) = true
  value : w.numeral.value.value = d.value

theorem denotes_zero {d : Decimal} (hzero : d.digits = 0) :
    Denotes ⟨false, ['0'], some ['0'], none⟩ d where
  unsigned := rfl
  proper := ⟨areDigits_zero, .inl rfl, by simpa using areDigits_zero, by simp⟩
  isFloat := rfl
  value := by
    simp [numeral, Number.Numeral.value, Decimal.value, hzero, digitsValue, Number.digitValue]

/-- Digits and zeros, a point and one more zero. -/
theorem denotes_zeros {d : Decimal} (hzero : d.digits ≠ 0) {k : Nat} (hk : d.exponent = k) :
    Denotes ⟨false, Nat.toDigits 10 d.digits ++ Number.zeros k, some ['0'], none⟩ d where
  unsigned := rfl
  proper := by
    obtain ⟨hne, hdigits⟩ := areDigits_toDigits d.digits
    have hhead := Number.head?_toDigits_ne_zero hzero
    refine ⟨⟨List.append_ne_nil_of_left_ne_nil hne _, ?_⟩, .inr ?_, ?_, by simp⟩
    · exact List.forall_mem_append.mpr ⟨hdigits, fun _ ↦ Number.isDigit_of_mem_zeros⟩
    · rwa [List.head?_append_of_ne_nil _ hne]
    · simpa using areDigits_zero
  isFloat := rfl
  value := by
    have hzeros : Nat.toDigits 10 d.digits ++ Number.zeros k ++ ['0'] =
        Nat.toDigits 10 d.digits ++ Number.zeros (k + 1) := by
      rw [List.append_assoc, Number.zeros, Number.zeros, List.replicate_succ']
    rw [numeral, Option.getD_some, Number.Numeral.value, hzeros, Number.digitsValue_append_zeros,
      Number.digitsValue_toDigits]
    simp only [Decimal.value, hk, Nat.cast_mul, Nat.cast_pow, List.length_singleton, zpow_natCast,
      pow_succ]
    norm_num
    ring

/-- The digits with a point among or in front of them. -/
theorem exists_withPoint_denotes {d : Decimal} (hzero : d.digits ≠ 0) (hneg : d.exponent < 0) :
    ∃ whole fraction,
      Number.withPoint (Nat.toDigits 10 d.digits) (-d.exponent).toNat = whole ++ '.' :: fraction ∧
        Denotes ⟨false, whole, some fraction, none⟩ d := by
  have hdigits := (areDigits_toDigits d.digits).2
  have hhead := Number.head?_toDigits_ne_zero hzero
  obtain ⟨whole, fraction, hplain, hne, hfirst, hlength, hall, hvalue⟩ :=
    Number.exists_withPoint_eq (show 0 < (-d.exponent).toNat by omega) hdigits
  obtain ⟨hwhole, hfraction⟩ := List.forall_mem_append.mp hall
  refine ⟨whole, fraction, hplain, rfl, ⟨⟨hne, hwhole⟩, ?_, ?_, by simp⟩, rfl, ?_⟩
  · exact hfirst.imp_right fun h ↦ by rwa [h]
  · simpa using ⟨List.ne_nil_of_length_pos (by omega), hfraction⟩
  · have hexponent : (0 : Int) - (-d.exponent).toNat = d.exponent := by omega
    rw [numeral, Number.Numeral.value, Option.getD_some, hvalue, hlength,
      Number.digitsValue_toDigits, hexponent]

/-- One digit in front of the point, and an exponent mark. -/
theorem denotes_marked {d : Decimal} (hzero : d.digits ≠ 0) {c : Char} {rest : List Char}
    (hcons : Nat.toDigits 10 d.digits = c :: rest) {e : Int}
    (he : e = d.exponent + (c :: rest).length - 1) (fraction : Option (List Char))
    (hrest : fraction.getD [] = rest) (hne : ∀ cs ∈ fraction, cs ≠ []) :
    Denotes ⟨false, [c], fraction, some (decide (e < 0), Nat.toDigits 10 e.natAbs)⟩ d where
  unsigned := rfl
  proper := by
    have hdigits : ∀ d ∈ c :: rest, Text.isDigit d = true := hcons ▸ (areDigits_toDigits _).2
    obtain ⟨hc, htail⟩ := List.forall_mem_cons.mp hdigits
    have hhead := Number.head?_toDigits_ne_zero hzero
    rw [hcons] at hhead
    refine ⟨⟨List.cons_ne_nil _ _, List.forall_mem_singleton.mpr hc⟩, .inr hhead, ?_, ?_⟩
    · rintro cs rfl
      obtain rfl : cs = rest := hrest
      exact ⟨hne cs rfl, htail⟩
    · rintro mark ⟨⟩
      exact areDigits_toDigits _
  isFloat := Bool.or_true _
  value := by
    have hexponent : e - rest.length = d.exponent := by
      rw [he, List.length_cons]
      omega
    rw [numeral_of_exponent, hrest, Number.Numeral.value, List.singleton_append, ← hcons,
      Number.digitsValue_toDigits, hexponent]

/-- Scientific notation tells a decimal from an integer, and its value is that of the decimal. -/
theorem exists_scientific_eq (d : Decimal) :
    ∃ w : WrittenNumber, w.characters = d.scientific.toList ∧ w.Denotes d := by
  unfold Decimal.scientific
  simp only []
  by_cases hzero : d.digits = 0
  · rw [if_pos hzero]
    exact ⟨_, rfl, denotes_zero hzero⟩
  rw [if_neg hzero]
  split_ifs with hpositional hwhole hsingle
  · obtain ⟨k, hk⟩ := Int.eq_ofNat_of_zero_le hwhole
    refine ⟨_, ?_, denotes_zeros hzero hk⟩
    simp [characters, fractionPart, exponentPart, Decimal.plain, hzero, hk]
  · obtain ⟨whole, fraction, hplain, hdenotes⟩ :=
      exists_withPoint_denotes hzero (Int.not_le.mp hwhole)
    refine ⟨_, ?_, hdenotes⟩
    simp [characters, fractionPart, exponentPart, Decimal.plain, hzero, hwhole, hplain]
  · obtain ⟨c, hcons⟩ := List.length_eq_one_iff.mp hsingle
    refine ⟨_, ?_, denotes_marked hzero hcons rfl none rfl (by simp)⟩
    simp [characters, fractionPart, exponentPart, toList_exponentText, hcons]
  · obtain ⟨c, rest, hcons⟩ := List.exists_cons_of_ne_nil (areDigits_toDigits d.digits).1
    have hne : rest ≠ [] := fun hnil ↦ hsingle (by rw [hcons, hnil]; rfl)
    refine ⟨_, ?_, denotes_marked hzero hcons rfl (some rest) rfl (by simpa using hne)⟩
    simp [characters, fractionPart, exponentPart, toList_exponentText, hcons]

end WrittenNumber

/-- Whether a rule finds a float in the number that the float is written as. -/
def FloatRule.Recovers (rule : FloatRule) (x : Float) : Prop :=
  ∃ w : WrittenNumber, w.characters = (floatText x).toList ∧ w.IsProper ∧
    w.value? rule = some (.float x)

/-- The nearest float of what a finite float is written as is the float itself. -/
theorem FloatRule.nearest_recovers {x : Float} (h : Number.isFinite x = true) :
    nearest.Recovers x := by
  have hbits := Number.isFinite_iff.mp h
  obtain ⟨w, hcharacters, hsign, hproper, hfloat, hvalue⟩ := WrittenNumber.exists_scientific_eq
    (Number.shortest .even (Number.magnitude (Number.splitSign x).2).1
      (Number.magnitude (Number.splitSign x).2).2)
  have hnearest : w.numeral.value.nearestBits = (Number.splitSign x).2 := by
    rw [Decimal.nearestBits_congr hvalue, Number.nearestBits_shortest hbits]
  refine ⟨{ w with negative := (Number.splitSign x).1 }, ?_,
    ⟨hproper.whole, hproper.first, hproper.fraction, hproper.exponent⟩, ?_⟩
  · rw [floatText, Number.scientificText?_of_isFinite h, Option.getD_some, String.toList_append,
      ← hcharacters]
    cases (Number.splitSign x).1 <;> simp [WrittenNumber.characters, Number.signText, hsign]
  · have hinteger :
        ({ w with negative := (Number.splitSign x).1 } : WrittenNumber).integer? = none :=
      if_pos hfloat
    have hrule : FloatRule.nearest w.numeral =
        some (Number.ofMagnitude false (Number.splitSign x).2) := by
      rw [FloatRule.nearest, Decimal.toFloat, hnearest]
      simp [Number.isFinite_ofMagnitude hbits]
    rw [WrittenNumber.value?, hinteger]
    show (FloatRule.nearest w.numeral).map _ = _
    rw [hrule, Option.map_some, Number.eq_of_isFinite h]

end Json

end DataQuality
