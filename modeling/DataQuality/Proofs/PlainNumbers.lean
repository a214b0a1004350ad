import Mathlib
import DataQuality.Number.Text
import DataQuality.Proofs.NearestFloats

/-!
# Numbers in plain notation

A finite float without a sign is shown as digits with at most one point between them, and these
read back as the same float, whether or not the search for few digits finds any.
-/

namespace DataQuality.Number

open Float.Model

/-! ### The decimal that is shown -/

namespace Decimal

/-- Leaving out trailing zeros does not change the value. -/
theorem value_strip (d : Decimal) (limit : Nat) : (d.strip limit).value = d.value := by
  induction limit generalizing d with
  | zero => rfl
  | succ limit ih =>
    unfold strip
    split
    · next h =>
      rw [ih]
      have hdigits : d.digits = d.digits / 10 * 10 := by omega
      have hcast : (d.digits : ℚ) = (d.digits / 10 : Nat) * 10 := by exact_mod_cast hdigits
      rw [value, value, hcast, zpow_add₀ (by norm_num), zpow_one]
      ring
    · rfl

end Decimal

theorem value_exactDecimal (significand : Nat) (exponent : Int) :
    (exactDecimal significand exponent).value = significand * 2 ^ exponent := by
  unfold exactDecimal
  split
  · next h =>
    obtain ⟨k, rfl⟩ := Int.eq_ofNat_of_zero_le h
    simp [Decimal.value]
  · next h =>
    obtain ⟨k, hk⟩ := Int.eq_ofNat_of_zero_le (show 0 ≤ -exponent by omega)
    obtain rfl : exponent = -(k : Int) := by omega
    have hten : (10 : ℚ) ^ k = 5 ^ k * 2 ^ k := by rw [← mul_pow]; norm_num
    simp only [Decimal.value, neg_neg, Int.toNat_natCast, Nat.pow_eq, Nat.cast_mul, Nat.cast_pow,
      Nat.cast_ofNat, zpow_neg, zpow_natCast, hten]
    field_simp

/-- The neighbour that is taken is one of those that qualify. -/
theorem qualifies_of_nearerNeighbour {tie : TieRule} {num den q : Nat} {qualifies : Nat → Bool}
    (h : nearerNeighbour tie num den qualifies = some q) : qualifies q = true := by
  unfold nearerNeighbour at h
  simp only [] at h
  split at h
  · cases h
  · next hbelow _ => cases h; exact hbelow
  · next _ habove => cases h; exact habove
  · next hbelow habove =>
    split at h
    · cases h; exact hbelow
    · split at h
      · cases h; exact habove
      · cases tie <;> simp only [] at h
        · cases h; exact habove
        · split at h <;> cases h
          · exact hbelow
          · exact habove

/-- What is found on a grid reads back. -/
theorem nearestBits_of_onGrid {tie : TieRule} {num den bits count : Nat} {point : Int} {d : Decimal}
    (h : onGrid tie num den bits point count = some d) : d.nearestBits = bits := by
  obtain ⟨q, hq, rfl⟩ := Option.map_eq_some_iff.mp h
  have hqualifies := qualifies_of_nearerNeighbour hq
  exact beq_iff_eq.mp hqualifies

/-- The shortest decimal of a finite float reads back. -/
theorem nearestBits_shortest {bits : Nat} (h : bits < infinityBits) (tie : TieRule) :
    (shortest tie (magnitude bits).1 (magnitude bits).2).nearestBits = bits := by
  obtain ⟨significand, exponent, hmagnitude⟩ :
      ∃ significand exponent, magnitude bits = (significand, exponent) := ⟨_, _, rfl⟩
  have hvalue : exactValue bits = significand * 2 ^ exponent := by rw [exactValue, hmagnitude]
  rw [hmagnitude]
  unfold shortest
  simp only []
  rw [Decimal.nearestBits_congr (Decimal.value_strip _ _)]
  have hbits : nearestBits (scaled significand 1 (-exponent)).1
      (scaled significand 1 (-exponent)).2 = bits := by
    refine nearestBits_exactValue h (scaled_snd_pos Nat.one_pos _) ?_
    rw [scaled_div, hvalue]
    simp
  rw [hbits]
  cases hfound : (List.range 17).findSome? fun i ↦ onGrid tie (scaled significand 1 (-exponent)).1
      (scaled significand 1 (-exponent)).2 bits
      (pointPosition (scaled significand 1 (-exponent)).1 (scaled significand 1 (-exponent)).2)
      (i + 1) with
  | some d =>
    obtain ⟨i, -, hi⟩ := List.exists_of_findSome?_eq_some hfound
    exact nearestBits_of_onGrid hi
  | none =>
    rw [Option.getD_none]
    obtain ⟨num, den, hden, hquotient⟩ := (exactDecimal significand exponent).exists_div_eq_value
    rw [Decimal.nearestBits_eq hden hquotient]
    refine nearestBits_exactValue h hden ?_
    rw [hquotient, value_exactDecimal, hvalue]

/-! ### Digits -/

theorem isDigit_of_mem_toDigits {n : Nat} {c : Char} (h : c ∈ Nat.toDigits 10 n) :
    Text.isDigit c = true :=
  Nat.isDigit_of_mem_toDigits (by decide) (by decide) h

theorem isDigit_of_mem_zeros {count : Nat} {c : Char} (h : c ∈ zeros count) :
    Text.isDigit c = true := by
  rw [List.eq_of_mem_replicate h]
  decide

theorem digitsValue_append (cs ds : List Char) :
    digitsValue (cs ++ ds) = ds.foldl (fun n c ↦ 10 * n + digitValue c) (digitsValue cs) :=
  List.foldl_append

theorem digitsValue_toDigits (n : Nat) : digitsValue (Nat.toDigits 10 n) = n :=
  Nat.ofDigitChars_ten_toDigits

/-- Zeros in front do not count. -/
theorem digitsValue_zeros_append (count : Nat) (cs : List Char) :
    digitsValue (zeros count ++ cs) = digitsValue cs := by
  have hzeros : digitsValue (zeros count) = 0 := by
    induction count with
    | zero => rfl
    | succ count ih => simpa [zeros, List.replicate_succ, digitsValue, digitValue] using ih
  rw [digitsValue_append, hzeros]
  rfl

/-- Zeros behind multiply by ten. -/
theorem digitsValue_append_zeros (cs : List Char) (count : Nat) :
    digitsValue (cs ++ zeros count) = digitsValue cs * 10 ^ count := by
  rw [digitsValue_append]
  generalize digitsValue cs = n
  induction count generalizing n with
  | zero => simp [zeros]
  | succ count ih =>
    change (zeros count).foldl (fun n c ↦ 10 * n + digitValue c) (10 * n + digitValue '0') = _
    rw [ih, show digitValue '0' = 0 by rfl, Nat.pow_succ']
    ring

/-- Digits with a point in front of the fraction, if there is one. -/
def pointed (whole fraction : List Char) : List Char :=
  whole ++ if fraction = [] then [] else '.' :: fraction

/-- A point between digits: zeros stand in front of the digits where there are too few. -/
theorem exists_withPoint_eq {digits : List Char} {count : Nat} (hcount : 0 < count)
    (hdigits : ∀ c ∈ digits, Text.isDigit c = true) :
    ∃ whole fraction : List Char, withPoint digits count = whole ++ '.' :: fraction ∧
      whole ≠ [] ∧ (whole = ['0'] ∨ whole.head? = digits.head?) ∧ fraction.length = count ∧
      (∀ c ∈ whole ++ fraction, Text.isDigit c = true) ∧
      digitsValue (whole ++ fraction) = digitsValue digits := by
  obtain ⟨padded, hpadded⟩ : ∃ padded, zeros (count + 1 - digits.length) ++ digits = padded :=
    ⟨_, rfl⟩
  have hlength : padded.length = max (count + 1) digits.length := by
    rw [← hpadded, List.length_append, zeros, List.length_replicate]
    omega
  refine ⟨padded.take (padded.length - count), padded.drop (padded.length - count), ?_, ?_, ?_, ?_,
    ?_, ?_⟩
  · rw [withPoint, hpadded]
  · rw [← List.length_pos_iff, List.length_take]
    omega
  · by_cases hshort : digits.length ≤ count
    · left
      have hone : padded.length - count = 1 := by omega
      have hzeros : count + 1 - digits.length = count - digits.length + 1 := by omega
      rw [hone, ← hpadded, hzeros, zeros, List.replicate_succ, List.cons_append,
        List.take_succ_cons, List.take_zero]
    · right
      have hnone : count + 1 - digits.length = 0 := by omega
      have hsame : padded = digits := by rw [← hpadded, hnone]; rfl
      have hpos : padded.length - count ≠ 0 := by omega
      rw [List.head?_take, if_neg hpos, hsame]
  · rw [List.length_drop]
    omega
  · rw [List.take_append_drop, ← hpadded, List.forall_mem_append]
    exact ⟨fun c ↦ isDigit_of_mem_zeros, hdigits⟩
  · rw [List.take_append_drop, ← hpadded, digitsValue_zeros_append]

/-- Plain notation is digits with at most one point between them, for the value of the decimal. -/
theorem Decimal.exists_plain_eq (d : Decimal) :
    ∃ whole fraction : List Char, d.plain = pointed whole fraction ∧ whole ≠ [] ∧
      (∀ c ∈ whole ++ fraction, Text.isDigit c = true) ∧
      (Numeral.mk whole fraction 0).value.value = d.value := by
  unfold plain
  split
  · next hzero =>
    exact ⟨['0'], [], rfl, by simp, List.forall_mem_singleton.mpr (by decide),
      by simp [Numeral.value, value, hzero, digitsValue, digitValue]⟩
  · split
    · next hexponent =>
      obtain ⟨k, hk⟩ := Int.eq_ofNat_of_zero_le hexponent
      refine ⟨Nat.toDigits 10 d.digits ++ zeros d.exponent.toNat, [], by simp [pointed],
        by simp [Nat.toDigits_ne_nil], ?_, ?_⟩
      · rw [List.append_nil, List.forall_mem_append]
        exact ⟨fun c ↦ isDigit_of_mem_toDigits, fun c ↦ isDigit_of_mem_zeros⟩
      · simp [Numeral.value, value, digitsValue_append_zeros, digitsValue_toDigits, hk]
    · next hexponent =>
      obtain ⟨whole, fraction, hplain, hne, -, hlength, hdigits, hvalue⟩ :=
        exists_withPoint_eq (show 0 < (-d.exponent).toNat by omega)
          fun c (hc : c ∈ Nat.toDigits 10 d.digits) ↦ isDigit_of_mem_toDigits hc
      have hfraction : fraction ≠ [] := List.ne_nil_of_length_pos (by omega)
      refine ⟨whole, fraction, by rw [hplain, pointed, if_neg hfraction], hne, hdigits, ?_⟩
      have hexp : (0 : Int) - (-d.exponent).toNat = d.exponent := by omega
      rw [Numeral.value, hvalue, hlength, digitsValue_toDigits, hexp]

/-! ### Reading back -/

/-- The digits in front of what is no digit. -/
theorem spanDigits_append {digits rest : List Char} (hdigits : ∀ c ∈ digits, Text.isDigit c = true)
    (hrest : ∀ c ∈ rest.head?, Text.isDigit c = false) :
    spanDigits (digits ++ rest) = (digits, rest) := by
  unfold spanDigits
  rw [List.takeWhile_append_of_pos hdigits, List.dropWhile_append_of_pos hdigits]
  cases rest with
  | nil => simp
  | cons c rest => simp [hrest c rfl]

theorem spanSign_of_isDigit {c : Char} (h : Text.isDigit c = true) (cs : List Char) :
    spanSign (c :: cs) = (false, c :: cs) := by
  unfold spanSign
  split
  · next heq => cases heq; cases h
  · next heq => cases heq; cases h
  · rfl

theorem parseNumeral?_pointed {whole fraction : List Char} (hwhole : whole ≠ [])
    (hdigits : ∀ c ∈ whole ++ fraction, Text.isDigit c = true) :
    parseNumeral? (pointed whole fraction) = some ⟨whole, fraction, 0⟩ := by
  obtain ⟨hleft, hright⟩ := List.forall_mem_append.mp hdigits
  unfold parseNumeral? pointed
  by_cases hnil : fraction = []
  · rw [if_pos hnil, spanDigits_append hleft (by simp)]
    simp [hwhole, hnil, parseExponent?]
  · have hspan : spanDigits (fraction ++ []) = _ := spanDigits_append hright (by simp)
    rw [List.append_nil] at hspan
    rw [if_neg hnil, spanDigits_append hleft (by simp; decide)]
    simp [hwhole, hspan, parseExponent?]

/-- Whether a text is a decimal numeral: digits, perhaps a minus sign in front of them and a point
among them. -/
def IsNumeral (s : String) : Prop :=
  ∃ (negative : Bool) (whole fraction : List Char), whole ≠ [] ∧
    (∀ c ∈ whole ++ fraction, Text.isDigit c = true) ∧
    s = signText negative ++ String.ofList (pointed whole fraction)

/-- A text is a decimal numeral that stands for a value, but for the sign. -/
def Writes (s : String) (negative : Bool) (value : ℚ) : Prop :=
  ∃ whole fraction : List Char, whole ≠ [] ∧
    (∀ c ∈ whole ++ fraction, Text.isDigit c = true) ∧
    s = signText negative ++ String.ofList (pointed whole fraction) ∧
    (Numeral.mk whole fraction 0).value.value = value

namespace Writes

variable {s : String} {negative : Bool} {value : ℚ}

theorem isNumeral (h : Writes s negative value) : IsNumeral s := by
  obtain ⟨whole, fraction, hne, hdigits, hs, -⟩ := h
  exact ⟨negative, whole, fraction, hne, hdigits, hs⟩

/-- A numeral reads back as the float that is nearest to its value. -/
theorem parseFloat?_eq (h : Writes s negative value) {d : Decimal} (hd : d.value = value) :
    parseFloat? s = some (d.toFloat negative) := by
  obtain ⟨whole, fraction, hne, hdigits, rfl, hvalue⟩ := h
  obtain ⟨c, cs, rfl⟩ := List.exists_cons_of_ne_nil hne
  have hsign : spanSign (signText negative ++ String.ofList (pointed (c :: cs) fraction)).toList =
      (negative, pointed (c :: cs) fraction) := by
    rw [String.toList_append, String.toList_ofList]
    cases negative with
    | true => rfl
    | false => exact spanSign_of_isDigit (hdigits c (by simp)) _
  unfold parseFloat?
  rw [hsign]
  simp only [parseNumeral?_pointed hne hdigits, Decimal.toFloat,
    Decimal.nearestBits_congr (hvalue.trans hd.symm)]

/-- Plain notation writes the value of a decimal. -/
theorem plain (negative : Bool) (d : Decimal) :
    Writes (signText negative ++ String.ofList d.plain) negative d.value := by
  obtain ⟨whole, fraction, hplain, hne, hdigits, hvalue⟩ := d.exists_plain_eq
  exact ⟨whole, fraction, hne, hdigits, by rw [hplain], hvalue⟩

end Writes

/-- A decimal in plain notation reads back as the float that is nearest to it. -/
theorem parseFloat?_plain (d : Decimal) :
    parseFloat? (String.ofList d.plain) = some (ofMagnitude false d.nearestBits) := by
  have hread := (Writes.plain false d).parseFloat?_eq rfl
  rwa [signText, if_neg (by decide), String.empty_append] at hread

/-! ### Floats from their bits -/

/-- The bits below those of infinity belong to numbers. -/
theorem isNaNBits_eq_false {b : BitVec Format.binary64.numBits} (h : b.toNat < infinityBits) :
    UnpackedFloat.isNaNBits b = false := by
  have hbits : b.toNat < 2047 * 2 ^ 52 := h
  have hexponent : (UnpackedFloat.unpackExponent b).toNat < 2047 := by
    rw [UnpackedFloat.unpackExponent_def]
    simp only [BitVec.extractLsb'_toNat, Nat.shiftRight_eq_div_pow]
    show b.toNat / 2 ^ 52 % 2 ^ 11 < 2047
    omega
  rw [UnpackedFloat.isNaNBits, decide_eq_false_iff_not]
  rintro ⟨hones, -⟩
  rw [hones] at hexponent
  exact absurd hexponent (by decide)

/-- A float keeps the finite bits that it is built from. -/
theorem toNat_toBits_ofMagnitude {bits : Nat} (h : bits < infinityBits) :
    (ofMagnitude false bits).toBits.toNat = bits := by
  have hbits : bits < 2047 * 2 ^ 52 := h
  have hnat : (UInt64.ofNat bits).toBitVec.toNat = bits :=
    UInt64.toNat_ofNat_of_lt' (by simp only [UInt64.size]; omega)
  have hpack : (UnpackedFloat.unpack .binary64 (UInt64.ofNat bits).toBitVec).pack .binary64 =
      (UInt64.ofNat bits).toBitVec := by
    rw [UnpackedFloat.pack_unpack, isNaNBits_eq_false (by rw [hnat]; exact h)]
    rfl
  exact (congrArg BitVec.toNat hpack).trans hnat

theorem splitSign_ofMagnitude {bits : Nat} (h : bits < infinityBits) :
    splitSign (ofMagnitude false bits) = (false, bits) := by
  have hsign : bits < signBit := Nat.lt_trans h (by decide)
  unfold splitSign
  rw [toNat_toBits_ofMagnitude h]
  simp [hsign, Nat.mod_eq_of_lt hsign]

/-- What a float with finite bits stands for. -/
theorem classify_of_lt {x : Float} (h : (splitSign x).2 < infinityBits) :
    classify x = .finite ⟨(splitSign x).1, (magnitude (splitSign x).2).1,
      (magnitude (splitSign x).2).2⟩ := by
  unfold classify
  simp only [if_neg (Nat.ne_of_lt h), if_neg (Nat.not_lt.mpr (Nat.le_of_lt h))]

/-- How a float with finite bits is shown. -/
theorem plainText_of_lt {x : Float} (h : (splitSign x).2 < infinityBits) :
    plainText x = signText (splitSign x).1 ++ String.ofList
      (shortest .up (magnitude (splitSign x).2).1 (magnitude (splitSign x).2).2).plain := by
  rw [plainText, classify_of_lt h]

/-- How a float that is built from finite bits without a sign is shown. -/
theorem plainText_ofMagnitude {bits : Nat} (h : bits < infinityBits) :
    plainText (ofMagnitude false bits) =
      String.ofList (shortest .up (magnitude bits).1 (magnitude bits).2).plain := by
  have hsplit := splitSign_ofMagnitude h
  rw [plainText_of_lt (by rw [hsplit]; exact h), hsplit]
  simp [signText]

/-- A float that is built from finite bits without a sign is shown so that it reads back. -/
theorem parseFloat?_plainText {bits : Nat} (h : bits < infinityBits) :
    parseFloat? (plainText (ofMagnitude false bits)) = some (ofMagnitude false bits) := by
  rw [plainText_ofMagnitude h, parseFloat?_plain, nearestBits_shortest h]

/-! ### Comparing with zero -/

/-- No number is rounded to anything beyond infinity. -/
theorem nearestBits_le (num den : Nat) : nearestBits num den ≤ infinityBits := by
  unfold nearestBits
  split
  · exact Nat.zero_le _
  · exact Nat.min_le_right _ _

/-- A whole number is rounded to zero only if it is zero. -/
theorem nearestBits_eq_zero_iff {n : Nat} : nearestBits n 1 = 0 ↔ n = 0 := by
  constructor
  · intro h
    by_contra hn
    have hexponent : -53 ≤ lastBitExponent n 1 := by
      have hone : Nat.log2 1 = 0 := by decide
      unfold lastBitExponent
      dsimp only
      refine le_trans ?_ (Int.le_max_left _ _)
      split <;> omega
    have hpos : 0 < nearestBits n 1 := by
      unfold nearestBits
      rw [if_neg hn]
      exact Nat.lt_min.mpr
        ⟨Nat.add_pos_left (Nat.mul_pos (by omega) (by decide)) _, by decide⟩
    omega
  · rintro rfl
    rfl

/-- A float without a sign is equal to zero only if its bits are. -/
theorem ofMagnitude_beq_zero_iff {bits : Nat} (h : bits ≤ infinityBits) :
    (ofMagnitude false bits == 0) = true ↔ bits = 0 := by
  constructor
  · intro hequal
    obtain hfinite | rfl := Nat.lt_or_eq_of_le h
    · have hbits := toNat_toBits_ofMagnitude hfinite
      have hzero : (0 : Float).toBits.toNat = 0 := by decide
      have hnegative : (-0 : Float).toBits.toNat = signBit := by decide
      have hsign : infinityBits < signBit := by decide
      obtain ⟨-, -, hsame | ⟨hsame, -⟩ | ⟨hsame, -⟩⟩ := Float.beq_iff_ne_nan_and_eq.mp hequal <;>
        (rw [hsame] at hbits; omega)
    · revert hequal
      decide
  · rintro rfl
    decide

/-- As a number a count is equal to zero only if it is zero. -/
theorem ofInt_beq_zero_iff {n : Nat} : (ofInt n == 0) = true ↔ n = 0 := by
  have hsign : ¬ (n : Int) < 0 := by omega
  rw [ofInt, nearest, decide_eq_false hsign, Int.natAbs_natCast,
    ofMagnitude_beq_zero_iff (nearestBits_le n 1), nearestBits_eq_zero_iff]

end DataQuality.Number
