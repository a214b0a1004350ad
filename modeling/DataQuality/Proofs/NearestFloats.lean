import Mathlib.Algebra.Order.Field.Power
import Mathlib.Algebra.Order.Field.Rat
import Mathlib.Data.Int.Log
import Mathlib.Data.Rat.Floor
import Mathlib.Tactic.FieldSimp
import Mathlib.Tactic.Linarith
import DataQuality.Number.Shortest

/-!
# The float nearest to a quotient

Which float is nearest depends on the value of a quotient alone, not on the numbers that it is
written with, and the value of a float is nearest to itself. The shortcuts for decimals far outside
the range of floats come to the same float as the quotient would.
-/

namespace DataQuality.Number

/-! ### Rounding -/

theorem roundHalfEven_mul_right (num den : Nat) {k : Nat} (hk : 0 < k) :
    roundHalfEven (num * k) (den * k) = roundHalfEven num den := by
  have hdiv : num * k / (den * k) = num / den := Nat.mul_div_mul_right num den hk
  have hmod : num * k % (den * k) = num % den * k := Nat.mul_mod_mul_right k num den
  have hlt : den * k < 2 * (num % den * k) ↔ den < 2 * (num % den) := by
    rw [← Nat.mul_assoc]
    exact Nat.mul_lt_mul_right hk
  have heq : 2 * (num % den * k) = den * k ↔ 2 * (num % den) = den := by
    rw [← Nat.mul_assoc]
    exact Nat.mul_left_inj (Nat.ne_of_gt hk)
  unfold roundHalfEven
  simp only [hdiv, hmod, Bool.or_eq_true, Bool.and_eq_true, decide_eq_true_eq, beq_iff_eq, hlt, heq]

/-- Equal quotients are rounded alike. -/
theorem roundHalfEven_congr {num den num' den' : Nat} (hden : 0 < den) (hden' : 0 < den')
    (h : (num : ℚ) / den = num' / den') : roundHalfEven num den = roundHalfEven num' den' := by
  have hcross : num * den' = num' * den := by
    rw [div_eq_div_iff (by positivity) (by positivity)] at h
    exact_mod_cast h
  calc roundHalfEven num den
    _ = roundHalfEven (num * den') (den * den') := (roundHalfEven_mul_right _ _ hden').symm
    _ = roundHalfEven (num' * den) (den' * den) := by rw [hcross, Nat.mul_comm den]
    _ = roundHalfEven num' den' := roundHalfEven_mul_right _ _ hden

/-! ### The exponent of the last bit -/

theorem scaled_snd_pos {num den : Nat} (hden : 0 < den) (e : Int) : 0 < (scaled num den e).2 := by
  unfold scaled
  split
  · exact Nat.mul_pos hden (Nat.pow_pos (by decide))
  · exact hden

/-- Scaling multiplies by a power of two. -/
theorem scaled_div (num den : Nat) (e : Int) :
    ((scaled num den e).1 : ℚ) / (scaled num den e).2 = num / den * 2 ^ (-e) := by
  unfold scaled
  split
  · next he =>
    obtain ⟨k, rfl⟩ := Int.eq_ofNat_of_zero_le he
    simp [zpow_neg, div_eq_mul_inv, mul_assoc, mul_comm]
  · next he =>
    obtain ⟨k, hk⟩ := Int.eq_ofNat_of_zero_le (show 0 ≤ -e by omega)
    simp [hk, div_eq_mul_inv, mul_assoc, mul_comm, mul_left_comm]

/-- Only a positive number has a positive quotient. -/
theorem pos_of_div_pos {num : Nat} (den : Nat) (h : (0 : ℚ) < (num : ℚ) / den) : 0 < num :=
  Nat.pos_of_ne_zero (by rintro rfl; simp at h)

/-- A whole quotient is below a number just if the quotient is. -/
theorem natDiv_lt_iff {num den bound : Nat} (hden : 0 < den) :
    num / den < bound ↔ (num : ℚ) / den < bound := by
  rw [Nat.div_lt_iff_lt_mul hden, div_lt_iff₀ (by positivity)]
  exact_mod_cast Iff.rfl

/-- The length of a quotient is known from the lengths of its numbers but for one. -/
theorem log_div_mem {num den : Nat} (hnum : 0 < num) (hden : 0 < den) :
    (Nat.log2 num : Int) - Nat.log2 den - 1 ≤ Int.log 2 ((num : ℚ) / den) ∧
      Int.log 2 ((num : ℚ) / den) < (Nat.log2 num : Int) - Nat.log2 den + 1 := by
  have hv : (0 : ℚ) < (num : ℚ) / den := by positivity
  have hlow {n : Nat} (hn : 0 < n) : (2 : ℚ) ^ (Nat.log2 n : Int) ≤ n := by
    exact_mod_cast Nat.log2_self_le (Nat.ne_of_gt hn)
  have hhigh {n : Nat} : (n : ℚ) < (2 : ℚ) ^ ((Nat.log2 n : Int) + 1) := by
    exact_mod_cast Nat.lt_log2_self
  constructor
  · rw [← Int.zpow_le_iff_le_log (by decide) hv]
    calc ((2 : Nat) : ℚ) ^ ((Nat.log2 num : Int) - Nat.log2 den - 1)
      _ = 2 ^ (Nat.log2 num : Int) / 2 ^ ((Nat.log2 den : Int) + 1) := by
        rw [← zpow_sub₀ two_ne_zero, Nat.cast_two, sub_sub]
      _ ≤ num / den := by gcongr; exacts [hlow hnum, hhigh.le]
  · rw [← Int.lt_zpow_iff_log_lt (by decide) hv]
    calc (num : ℚ) / den
      _ < 2 ^ ((Nat.log2 num : Int) + 1) / den := by gcongr; exact hhigh
      _ ≤ 2 ^ ((Nat.log2 num : Int) + 1) / 2 ^ (Nat.log2 den : Int) := by gcongr; exact hlow hden
      _ = ((2 : Nat) : ℚ) ^ ((Nat.log2 num : Int) - Nat.log2 den + 1) := by
        rw [← zpow_sub₀ two_ne_zero, Nat.cast_two, sub_add_eq_add_sub]

/-- The last bit that is kept depends on the value of the quotient alone. -/
theorem lastBitExponent_eq {num den : Nat} (hnum : 0 < num) (hden : 0 < den) :
    lastBitExponent num den = max (Int.log 2 ((num : ℚ) / den) - 52) (-1074) := by
  obtain ⟨hlow, hhigh⟩ := log_div_mem hnum hden
  have hv : (0 : ℚ) < (num : ℚ) / den := by positivity
  set guess : Int := (Nat.log2 num : Int) - Nat.log2 den - 53 with hguess
  have hshort : (scaled num den guess).1 / (scaled num den guess).2 < 2 ^ 53 ↔
      Int.log 2 ((num : ℚ) / den) < guess + 53 := by
    rw [natDiv_lt_iff (scaled_snd_pos hden guess), scaled_div,
      ← Int.lt_zpow_iff_log_lt (by decide) hv, zpow_neg, ← div_eq_mul_inv,
      div_lt_iff₀ (by positivity), add_comm guess, Nat.cast_two, zpow_add₀ two_ne_zero]
    norm_num
  change max (if (scaled num den guess).1 / (scaled num den guess).2 < 2 ^ 53 then guess
    else guess + 1) (-1074) = _
  split
  · next h =>
    rw [hshort] at h
    congr 1
    omega
  · next h =>
    rw [hshort] at h
    congr 1
    omega

/-! ### The nearest float -/

/-- What a quotient is divided by before it is rounded. -/
theorem nearestBits_eq {num den : Nat} (hnum : 0 < num) :
    nearestBits num den =
      min ((lastBitExponent num den + 1074).toNat * 2 ^ 52 +
        roundHalfEven (scaled num den (lastBitExponent num den)).1
          (scaled num den (lastBitExponent num den)).2) infinityBits :=
  if_neg (Nat.ne_of_gt hnum)

/-- Equal quotients have the same nearest float. -/
theorem nearestBits_congr {num den num' den' : Nat} (hden : 0 < den) (hden' : 0 < den')
    (h : (num : ℚ) / den = num' / den') : nearestBits num den = nearestBits num' den' := by
  obtain rfl | hnum := Nat.eq_zero_or_pos num
  · have hzero : num' = 0 := by
      have : (den' : ℚ) ≠ 0 := by positivity
      simpa [eq_comm, this] using h
    simp [nearestBits, hzero]
  · have hnum' : 0 < num' := pos_of_div_pos den' (h ▸ by positivity)
    have hexponent : lastBitExponent num den = lastBitExponent num' den' := by
      rw [lastBitExponent_eq hnum hden, lastBitExponent_eq hnum' hden', h]
    rw [nearestBits_eq hnum, nearestBits_eq hnum', hexponent]
    congr 2
    refine roundHalfEven_congr (scaled_snd_pos hden _) (scaled_snd_pos hden' _) ?_
    rw [scaled_div, scaled_div, h]

/-- A quotient that is a whole number of units of its last bit is not changed. -/
theorem nearestBits_of_exact {num den units : Nat} {e : Int} (hden : 0 < den) (hunits : 0 < units)
    (hvalue : (num : ℚ) / den = units * 2 ^ e) (hlast : lastBitExponent num den = e) :
    nearestBits num den = min ((e + 1074).toNat * 2 ^ 52 + units) infinityBits := by
  have hnum : 0 < num := pos_of_div_pos den (hvalue ▸ by positivity)
  have hround : roundHalfEven (scaled num den e).1 (scaled num den e).2 =
      roundHalfEven (units * 1) 1 := by
    refine roundHalfEven_congr (scaled_snd_pos hden _) Nat.one_pos ?_
    rw [scaled_div, hvalue, mul_assoc, ← zpow_add₀ two_ne_zero]
    simp
  rw [nearestBits_eq hnum, hlast, hround, roundHalfEven_mul _ Nat.one_pos]

/-- How long a number of units is. -/
theorem log_lt_of_units_lt {units k : Nat} {e : Int} (hpos : 0 < units) (h : units < 2 ^ k) :
    Int.log 2 ((units : ℚ) * 2 ^ e) < e + k := by
  rw [← Int.lt_zpow_iff_log_lt (by decide) (by positivity), Nat.cast_two, add_comm e,
    zpow_add₀ two_ne_zero]
  gcongr
  exact_mod_cast h

theorem le_log_of_le_units {units k : Nat} {e : Int} (hpos : 0 < units) (h : 2 ^ k ≤ units) :
    e + k ≤ Int.log 2 ((units : ℚ) * 2 ^ e) := by
  rw [← Int.zpow_le_iff_le_log (by decide) (by positivity), Nat.cast_two, add_comm e,
    zpow_add₀ two_ne_zero]
  gcongr
  exact_mod_cast h

/-- The exact value of finite bits. -/
def exactValue (bits : Nat) : ℚ := (magnitude bits).1 * 2 ^ (magnitude bits).2

/-- The value of finite bits is nearest to itself. -/
theorem nearestBits_exactValue {num den bits : Nat} (hbits : bits < infinityBits) (hden : 0 < den)
    (hvalue : (num : ℚ) / den = exactValue bits) : nearestBits num den = bits := by
  have hlt : bits < 2047 * 2 ^ 52 := hbits
  obtain rfl | hpos := Nat.eq_zero_or_pos bits
  · obtain rfl : num = 0 := by
      have : (den : ℚ) ≠ 0 := by positivity
      simpa [exactValue, magnitude, this] using hvalue
    rfl
  · obtain ⟨units, e, hmagnitude⟩ : ∃ units e, magnitude bits = (units, e) := ⟨_, _, rfl⟩
    have hvalue : (num : ℚ) / den = units * 2 ^ e := by rw [hvalue, exactValue, hmagnitude]
    have hcases : (bits < 2 ^ 52 ∧ units = bits ∧ e = -1074) ∨
        (2 ^ 52 ≤ bits ∧ units = bits % 2 ^ 52 + 2 ^ 52 ∧ e = (bits / 2 ^ 52 : Nat) - 1075) := by
      unfold magnitude at hmagnitude
      simp only [] at hmagnitude
      split at hmagnitude <;> cases hmagnitude
      · exact .inl ⟨by simp_all, rfl, rfl⟩
      · exact .inr ⟨by simp_all, rfl, rfl⟩
    have hunits : 0 < units := by omega
    have hnum : 0 < num := pos_of_div_pos den (hvalue ▸ by positivity)
    have hlast : lastBitExponent num den = e := by
      rw [lastBitExponent_eq hnum hden, hvalue]
      obtain ⟨hshort, hunits', he⟩ | ⟨hlong, hunits', he⟩ := hcases
      · have := log_lt_of_units_lt (e := e) hunits (k := 52) (by omega)
        omega
      · have hlow := le_log_of_le_units (e := e) hunits (k := 52) (by omega)
        have hhigh := log_lt_of_units_lt (e := e) hunits (k := 53) (by omega)
        omega
    rw [nearestBits_of_exact hden hunits hvalue hlast]
    have hinf : infinityBits = 2047 * 2 ^ 52 := rfl
    omega

theorem div_le_roundHalfEven (num den : Nat) : num / den ≤ roundHalfEven num den := by
  simp only [roundHalfEven]
  split <;> omega

/-- What is too large has infinity for its nearest float. -/
theorem nearestBits_of_large {num den : Nat} (hden : 0 < den)
    (hlarge : (2 : ℚ) ^ (1024 : Int) ≤ (num : ℚ) / den) : nearestBits num den = infinityBits := by
  have hv : (0 : ℚ) < (num : ℚ) / den := lt_of_lt_of_le (by positivity) hlarge
  have hnum : 0 < num := pos_of_div_pos den hv
  have hlog : 1024 ≤ Int.log 2 ((num : ℚ) / den) :=
    (Int.zpow_le_iff_le_log (by decide) hv).mp hlarge
  have hlast : lastBitExponent num den = Int.log 2 ((num : ℚ) / den) - 52 := by
    rw [lastBitExponent_eq hnum hden]
    omega
  have hunits : 2 ^ 52 ≤ roundHalfEven (scaled num den (lastBitExponent num den)).1
      (scaled num den (lastBitExponent num den)).2 := by
    refine le_trans (Nat.not_lt.mp ?_) (div_le_roundHalfEven _ _)
    rw [natDiv_lt_iff (scaled_snd_pos hden _), scaled_div, hlast, not_lt, neg_sub,
      zpow_sub₀ two_ne_zero, mul_div_assoc', le_div_iff₀ (by positivity), mul_comm]
    have := Int.zpow_log_le_self (b := 2) (by decide) hv
    norm_num at this ⊢
    exact this
  have hinf : infinityBits = 2047 * 2 ^ 52 := rfl
  rw [nearestBits_eq hnum]
  omega

/-- What is too small has zero for its nearest float. -/
theorem nearestBits_of_small {num den : Nat} (hden : 0 < den)
    (hsmall : (num : ℚ) / den < (2 : ℚ) ^ (-1076 : Int)) : nearestBits num den = 0 := by
  obtain rfl | hnum := Nat.eq_zero_or_pos num
  · rfl
  have hv : (0 : ℚ) < (num : ℚ) / den := by positivity
  have hlog : Int.log 2 ((num : ℚ) / den) < -1076 :=
    (Int.lt_zpow_iff_log_lt (by decide) hv).mp hsmall
  have hlast : lastBitExponent num den = -1074 := by
    rw [lastBitExponent_eq hnum hden]
    omega
  have hquarter : 4 * (scaled num den (-1074)).1 < (scaled num den (-1074)).2 := by
    have hpos : (0 : ℚ) < (scaled num den (-1074)).2 := by exact_mod_cast scaled_snd_pos hden _
    have hlt : ((scaled num den (-1074)).1 : ℚ) / (scaled num den (-1074)).2 < 2 ^ (-2 : Int) := by
      rw [scaled_div, neg_neg, show (-2 : Int) = -1076 + 1074 by rfl, zpow_add₀ two_ne_zero]
      gcongr
    generalize (scaled num den (-1074)).1 = units at hlt ⊢
    generalize (scaled num den (-1074)).2 = unit at hlt hpos ⊢
    rw [div_lt_iff₀ hpos] at hlt
    norm_num at hlt
    exact_mod_cast (by linarith : (4 * units : ℚ) < unit)
  have hround : roundHalfEven (scaled num den (-1074)).1 (scaled num den (-1074)).2 = 0 := by
    have hlt : (scaled num den (-1074)).1 < (scaled num den (-1074)).2 := by omega
    simp only [roundHalfEven, Nat.div_eq_of_lt hlt, Nat.mod_eq_of_lt hlt]
    refine if_neg ?_
    simp only [Bool.or_eq_true, decide_eq_true_eq, Bool.and_eq_true, beq_iff_eq]
    omega
  rw [nearestBits_eq hnum, hlast, hround]
  rfl

/-! ### Decimals -/

/-- The exact value of a decimal. -/
def Decimal.value (d : Decimal) : ℚ := d.digits * 10 ^ d.exponent

namespace Decimal

/-- A decimal whose exponent is out of range is too large for a float. -/
theorem le_value_of_lt_exponent {d : Decimal} (hdigits : d.digits ≠ 0) (h : 310 < d.exponent) :
    (2 : ℚ) ^ (1024 : Int) ≤ d.value := by
  have hone : (1 : ℚ) ≤ d.digits := by exact_mod_cast Nat.one_le_iff_ne_zero.mpr hdigits
  have hpower : 2 ^ 1024 ≤ 10 ^ 311 := by decide +kernel
  calc (2 : ℚ) ^ (1024 : Int)
    _ ≤ 10 ^ (311 : Int) := by exact_mod_cast hpower
    _ ≤ 10 ^ d.exponent := zpow_le_zpow_right₀ (by norm_num) (by omega)
    _ ≤ d.value := le_mul_of_one_le_left (by positivity) hone

/-- A decimal is too small for a float if the length of its digits does not make up for its
exponent, a digit being more than three bits. -/
theorem value_lt_of_length_lt {d : Decimal}
    (h : (Nat.log2 d.digits : Int) + 1 + 3 * d.exponent < -1100) :
    d.value < (2 : ℚ) ^ (-1076 : Int) := by
  have hdigits : (d.digits : ℚ) < 2 ^ ((Nat.log2 d.digits : Int) + 1) := by
    exact_mod_cast Nat.lt_log2_self
  have hpower : (10 : ℚ) ^ d.exponent ≤ 2 ^ (3 * d.exponent) := by
    obtain ⟨k, hk⟩ := Int.eq_ofNat_of_zero_le (show 0 ≤ -d.exponent by omega)
    rw [zpow_mul, show d.exponent = -(k : Int) by omega, zpow_neg, zpow_neg, zpow_natCast,
      zpow_natCast]
    gcongr
    norm_num
  calc d.value
    _ < 2 ^ ((Nat.log2 d.digits : Int) + 1) * 10 ^ d.exponent :=
      mul_lt_mul_of_pos_right hdigits (by positivity)
    _ ≤ 2 ^ ((Nat.log2 d.digits : Int) + 1) * 2 ^ (3 * d.exponent) := by gcongr
    _ = 2 ^ ((Nat.log2 d.digits : Int) + 1 + 3 * d.exponent) := (zpow_add₀ two_ne_zero _ _).symm
    _ ≤ 2 ^ (-1076 : Int) := zpow_le_zpow_right₀ (by norm_num) (by omega)

/-- The shortcuts for decimals out of range come to the float that is nearest to their value. -/
theorem nearestBits_eq {d : Decimal} {num den : Nat} (hden : 0 < den)
    (h : (num : ℚ) / den = d.value) : d.nearestBits = Number.nearestBits num den := by
  unfold nearestBits
  split
  · next hzero =>
    have : (den : ℚ) ≠ 0 := by positivity
    obtain rfl : num = 0 := by simpa [value, hzero, this] using h
    rfl
  · next hdigits =>
    split
    · next hlarge =>
      exact (nearestBits_of_large hden (h ▸ le_value_of_lt_exponent hdigits hlarge)).symm
    · split
      · next hsmall => exact (nearestBits_of_small hden (h ▸ value_lt_of_length_lt hsmall)).symm
      · split
        · next hexponent =>
          obtain ⟨k, hk⟩ := Int.eq_ofNat_of_zero_le hexponent
          refine nearestBits_congr Nat.one_pos hden ?_
          simp [h, value, hk]
        · next hexponent =>
          obtain ⟨k, hk⟩ := Int.eq_ofNat_of_zero_le (show 0 ≤ -d.exponent by omega)
          refine nearestBits_congr (Nat.pow_pos (by decide)) hden ?_
          rw [h, value, hk, show d.exponent = -(k : Int) by omega]
          simp [div_eq_mul_inv]

/-- The value of a decimal is a quotient. -/
theorem exists_div_eq_value (d : Decimal) :
    ∃ num den : Nat, 0 < den ∧ (num : ℚ) / den = d.value := by
  obtain ⟨k, hk | hk⟩ := Int.eq_nat_or_neg d.exponent
  · exact ⟨d.digits * 10 ^ k, 1, Nat.one_pos, by simp [value, hk]⟩
  · exact ⟨d.digits, 10 ^ k, Nat.pow_pos (by decide), by simp [value, hk, div_eq_mul_inv]⟩

/-- Decimals of the same value have the same nearest float. -/
theorem nearestBits_congr {d d' : Decimal} (h : d.value = d'.value) :
    d.nearestBits = d'.nearestBits := by
  obtain ⟨num, den, hden, hvalue⟩ := d.exists_div_eq_value
  rw [nearestBits_eq hden hvalue, nearestBits_eq hden (hvalue.trans h)]

end Decimal

end DataQuality.Number
