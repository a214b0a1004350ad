import DataQuality.Proofs.ScientificNumbers

/-!
# Whole floats

Which floats are whole numbers shows in plain notation: those have no point, and all others do. The
digits alone do not tell it, since fewer digits than all may do. But a decimal without a point is a
whole number, and the float nearest to a whole number is whole.
-/

namespace DataQuality.Number

/-! ### Which floats are whole -/

/-- A dyadic value is taken for the integer that it is. -/
theorem Dyadic.natAbs_toInt?_eq_some_iff {v : Dyadic} {n : Nat} :
    v.toInt?.map Int.natAbs = some n ↔ (v.significand : ℚ) * 2 ^ v.exponent = n := by
  have hsigned (m : Nat) : (if v.negative then -(m : Int) else m).natAbs = m := by split <;> simp
  unfold toInt?
  dsimp only
  split
  · next hexponent =>
    obtain ⟨k, hk⟩ := Int.eq_ofNat_of_zero_le hexponent
    rw [Option.map_some, hsigned, Option.some.injEq, hk, Int.toNat_natCast, zpow_natCast]
    exact_mod_cast Iff.rfl
  · next hexponent =>
    obtain ⟨k, hk⟩ := Int.eq_ofNat_of_zero_le (show 0 ≤ -v.exponent by omega)
    have hvalue : (v.significand : ℚ) * 2 ^ v.exponent = n ↔ v.significand = n * 2 ^ k := by
      rw [show v.exponent = -(k : Int) by omega, zpow_neg, zpow_natCast, ← div_eq_mul_inv,
        div_eq_iff (by positivity)]
      exact_mod_cast Iff.rfl
    rw [hvalue, hk, Int.toNat_natCast, Nat.pow_eq]
    split
    · next hwhole =>
      rw [Option.map_some, hsigned, Option.some.injEq, Nat.div_eq_iff_eq_mul_left (by positivity)]
      exact Nat.dvd_of_mod_eq_zero hwhole
    · next hbroken =>
      refine iff_of_false (by simp) fun heq ↦ hbroken ?_
      rw [heq, Nat.mul_mod_left]

/-- The integer that a finite float is taken for, if any, is its value but for the sign. -/
theorem natAbs_toInt?_eq_some_iff {x : Float} (h : isFinite x = true) {n : Nat} :
    (toInt? x).map Int.natAbs = some n ↔ exactValue (splitSign x).2 = n := by
  rw [toInt?, classify_of_lt (isFinite_iff.mp h)]
  exact Dyadic.natAbs_toInt?_eq_some_iff

/-- The quotient that is a whole float. -/
theorem fst_scaled_magnitude {bits n : Nat} (h : exactValue bits = n) :
    (scaled (magnitude bits).1 1 (-(magnitude bits).2)).1 =
      n * (scaled (magnitude bits).1 1 (-(magnitude bits).2)).2 := by
  have hden := @scaled_snd_pos (magnitude bits).1 1 Nat.one_pos (-(magnitude bits).2)
  have hquotient := scaled_div (magnitude bits).1 1 (-(magnitude bits).2)
  rw [neg_neg, Nat.cast_one, div_one, ← exactValue, h, div_eq_iff (by positivity)] at hquotient
  exact_mod_cast hquotient

/-! ### Nearest floats of whole numbers -/

/-- A carry out of the significand moves on to the exponent. -/
theorem exactValue_of_units {k units : Nat} (hlow : 2 ^ 52 ≤ units) (hhigh : units ≤ 2 ^ 53) :
    exactValue (k * 2 ^ 52 + units) = units * 2 ^ ((k : Int) - 1074) := by
  unfold exactValue magnitude
  simp only [Nat.pow_eq]
  rw [if_neg (by omega)]
  obtain hlt | rfl := Nat.lt_or_eq_of_le hhigh
  · have hsignificand : (k * 2 ^ 52 + units) % 2 ^ 52 + 2 ^ 52 = units := by omega
    have hexponent : (k * 2 ^ 52 + units) / 2 ^ 52 = k + 1 := by omega
    rw [hsignificand, hexponent]
    congr 2
    omega
  · have hsignificand : (k * 2 ^ 52 + 2 ^ 53) % 2 ^ 52 + 2 ^ 52 = 2 ^ 52 := by omega
    have hexponent : (k * 2 ^ 52 + 2 ^ 53) / 2 ^ 52 = k + 2 := by omega
    rw [hsignificand, hexponent, show ((k + 2 : Nat) : Int) - 1075 = k - 1074 + 1 by omega,
      zpow_add_one₀ (by norm_num)]
    norm_num
    ring

/-- Where a quotient is cut, 53 bits of it are kept. -/
theorem roundHalfEven_mem {num den : Nat} (hnum : 0 < num) (hden : 0 < den) {e : Int}
    (he : e = Int.log 2 ((num : ℚ) / den) - 52) :
    2 ^ 52 ≤ roundHalfEven (scaled num den e).1 (scaled num den e).2 ∧
      roundHalfEven (scaled num den e).1 (scaled num den e).2 ≤ 2 ^ 53 := by
  have hv : (0 : ℚ) < (num : ℚ) / den := by positivity
  have hdiv {bound : Nat} : (scaled num den e).1 / (scaled num den e).2 < bound ↔
      (num : ℚ) / den < bound * 2 ^ e := by
    rw [natDiv_lt_iff (scaled_snd_pos hden e), scaled_div, zpow_neg, ← div_eq_mul_inv,
      div_lt_iff₀ (by positivity)]
  have hlow : ¬ (scaled num den e).1 / (scaled num den e).2 < 2 ^ 52 := by
    rw [hdiv, not_lt]
    have hlog := Int.zpow_log_le_self (b := 2) (by decide) hv
    rw [show Int.log 2 ((num : ℚ) / den) = 52 + e by omega, Nat.cast_two,
      zpow_add₀ two_ne_zero] at hlog
    exact_mod_cast hlog
  have hhigh : (scaled num den e).1 / (scaled num den e).2 < 2 ^ 53 := by
    rw [hdiv]
    have hlog := Int.lt_zpow_succ_log_self (b := 2) (by decide) ((num : ℚ) / den)
    rw [show Int.log 2 ((num : ℚ) / den) + 1 = 53 + e by omega, Nat.cast_two,
      zpow_add₀ two_ne_zero] at hlog
    exact_mod_cast hlog
  have hbelow := div_le_roundHalfEven (scaled num den e).1 (scaled num den e).2
  have habove : roundHalfEven (scaled num den e).1 (scaled num den e).2 ≤
      (scaled num den e).1 / (scaled num den e).2 + 1 := by
    simp only [roundHalfEven]
    split <;> omega
  omega

/-- The float nearest to a whole number is whole. -/
theorem exists_exactValue_nearestBits {m : Nat} (hfinite : nearestBits m 1 < infinityBits) :
    ∃ n : Nat, exactValue (nearestBits m 1) = n := by
  obtain rfl | hm := Nat.eq_zero_or_pos m
  · exact ⟨0, by simp [nearestBits, exactValue, magnitude]⟩
  have hone : (1 : ℚ) ≤ (m : ℚ) / (1 : Nat) := by
    rw [Nat.cast_one, div_one]
    exact_mod_cast hm
  have hlog : 0 ≤ Int.log 2 ((m : ℚ) / (1 : Nat)) :=
    (Int.zpow_le_iff_le_log (by decide) (one_pos.trans_le hone)).mp (by simpa using hone)
  obtain ⟨e, he⟩ : ∃ e, e = Int.log 2 ((m : ℚ) / (1 : Nat)) - 52 := ⟨_, rfl⟩
  have hlast : lastBitExponent m 1 = e := by
    rw [lastBitExponent_eq hm Nat.one_pos]
    omega
  obtain ⟨hlow, hhigh⟩ := roundHalfEven_mem hm Nat.one_pos he
  obtain ⟨k, hk⟩ := Int.eq_ofNat_of_zero_le (show 0 ≤ e + 1074 by omega)
  rw [nearestBits_eq hm, hlast] at hfinite ⊢
  rw [Nat.min_eq_left (by omega), hk, Int.toNat_natCast, exactValue_of_units hlow hhigh,
    show (k : Int) - 1074 = e by omega]
  obtain hunit | hunit := le_or_gt 0 e
  · obtain ⟨j, rfl⟩ := Int.eq_ofNat_of_zero_le hunit
    exact ⟨_ * 2 ^ j, by rw [zpow_natCast]; push_cast; rfl⟩
  · -- All bits of the number are kept.
    obtain ⟨j, hj⟩ := Int.eq_ofNat_of_zero_le (show 0 ≤ -e by omega)
    have hexact : roundHalfEven (scaled m 1 e).1 (scaled m 1 e).2 = m * 2 ^ j := by
      unfold scaled
      rw [if_neg (by omega), hj, Int.toNat_natCast]
      simpa using roundHalfEven_mul (m * 2 ^ j) Nat.one_pos
    refine ⟨m, ?_⟩
    rw [hexact, show e = -(j : Int) by omega, zpow_neg, zpow_natCast]
    push_cast
    field_simp

/-! ### The point -/

theorem point_not_mem {cs : List Char} (h : ∀ c ∈ cs, Text.isDigit c = true) : '.' ∉ cs :=
  fun hpoint ↦ absurd (h _ hpoint) (by decide)

/-- Plain notation has a point exactly if there are digits behind it. -/
theorem Decimal.point_mem_plain_iff {d : Decimal} :
    '.' ∈ d.plain ↔ d.digits ≠ 0 ∧ d.exponent < 0 := by
  unfold plain
  split_ifs with hzero hexponent
  · simp [hzero]
  · refine iff_of_false (point_not_mem ?_) (by omega)
    rw [List.forall_mem_append]
    exact ⟨fun _ ↦ isDigit_of_mem_toDigits, fun _ ↦ isDigit_of_mem_zeros⟩
  · exact iff_of_true (List.mem_append_right _ (List.mem_cons_self ..)) ⟨hzero, by omega⟩

/-- Without a point there is a whole number. -/
theorem Decimal.exists_value_eq {d : Decimal} (h : '.' ∉ d.plain) : ∃ n : Nat, d.value = n := by
  rw [point_mem_plain_iff, not_and, not_lt] at h
  by_cases hzero : d.digits = 0
  · exact ⟨0, by simp [value, hzero]⟩
  · obtain ⟨k, hk⟩ := Int.eq_ofNat_of_zero_le (h hzero)
    exact ⟨d.digits * 10 ^ k, by simp [value, hk]⟩

/-- A float that is no whole number is shown with a point. -/
theorem point_mem_shortest {bits : Nat} (h : bits < infinityBits) (tie : TieRule)
    (hbroken : ¬ ∃ n : Nat, exactValue bits = n) :
    '.' ∈ (shortest tie (magnitude bits).1 (magnitude bits).2).plain := by
  by_contra hpoint
  obtain ⟨n, hn⟩ := Decimal.exists_value_eq hpoint
  have hquotient : (n : ℚ) / (1 : Nat) =
      (shortest tie (magnitude bits).1 (magnitude bits).2).value := by
    rw [hn, Nat.cast_one, div_one]
  have hnearest := nearestBits_shortest h tie
  rw [Decimal.nearestBits_eq Nat.one_pos hquotient] at hnearest
  refine hbroken ?_
  rw [← hnearest]
  exact exists_exactValue_nearestBits (by rwa [hnearest])

/-- Trailing zeros that are left out are counted by the exponent. -/
theorem Decimal.exponent_le_strip (d : Decimal) (limit : Nat) :
    d.exponent ≤ (d.strip limit).exponent := by
  induction limit generalizing d with
  | zero => exact Int.le_refl _
  | succ limit ih =>
    unfold strip
    split
    · exact (show d.exponent ≤ d.exponent + 1 by omega).trans (ih _)
    · exact Int.le_refl _

/-- A whole quotient has no nearer neighbour than itself. -/
theorem nearerNeighbour_mul (tie : TieRule) {n den : Nat} {qualifies : Nat → Bool} (hden : 0 < den)
    (h : qualifies n = true) : nearerNeighbour tie (n * den) den qualifies = some n := by
  unfold nearerNeighbour
  rw [Nat.mul_div_cancel _ hden, Nat.mul_mod_left]
  dsimp only
  rw [h]
  cases qualifies (n + 1) <;> simp [hden]

/-- A whole number is on the grid of as many digits as it has. -/
theorem onGrid_mul (tie : TieRule) {n den bits : Nat} (hden : 0 < den)
    (hbits : nearestBits n 1 = bits) (count : Nat) :
    onGrid tie (n * den) den bits count count = some ⟨n, 0⟩ := by
  have hquotient : (n : ℚ) / (1 : Nat) = (Decimal.mk n 0).value := by simp [Decimal.value]
  have hreads : ((Decimal.mk n 0).nearestBits == bits) = true := by
    rw [Decimal.nearestBits_eq Nat.one_pos hquotient, hbits, beq_self_eq_true]
  have hscaled : scaledDecimal (n * den) den 0 = (n * den, den) := by simp [scaledDecimal]
  have hnearer : nearerNeighbour tie (n * den) den
      (fun q ↦ (Decimal.mk q 0).nearestBits == bits) = some n := nearerNeighbour_mul tie hden hreads
  unfold onGrid
  simp only [sub_self, hscaled, hnearer, Option.map_some]

/-- A positive quotient has as many digits before the point as its whole part. -/
theorem pointPosition_mul {n den : Nat} (hn : 0 < n) (hden : 0 < den) :
    pointPosition (n * den) den = (digitCount n : Int) := by
  unfold pointPosition
  rw [if_pos (Nat.le_mul_of_pos_left den hn), Nat.mul_div_cancel _ hden]

theorem digitCount_pos {n : Nat} (hn : 0 < n) : 0 < digitCount n := by
  unfold digitCount
  rw [if_neg (Nat.ne_of_gt hn)]
  exact Nat.length_toDigits_pos

theorem pow_le_of_lt_digitCount {n count : Nat} (hcount : 0 < count) (h : count < digitCount n) :
    10 ^ count ≤ n := by
  unfold digitCount at h
  split at h
  · omega
  · rwa [← Nat.not_lt, ← Nat.length_toDigits_le_iff (by decide) hcount, Nat.not_le]

/-- No later grid is taken than that of as many digits as a whole number has. -/
theorem exponent_nonneg_of_findSome? {tie : TieRule} {n den bits limit : Nat} (hn : 0 < n)
    (hden : 0 < den) (hbits : nearestBits n 1 = bits) {d : Decimal}
    (h : (List.range limit).findSome? (fun i ↦
      onGrid tie (n * den) den bits (digitCount n : Int) (i + 1)) = some d) :
    0 ≤ d.exponent := by
  obtain ⟨earlier, i, later, hrange, hi, hnone⟩ := List.findSome?_eq_some_iff.mp h
  have hexponent : d.exponent = (digitCount n : Int) - (i + 1) := by
    obtain ⟨q, -, rfl⟩ := Option.map_eq_some_iff.mp hi
    rfl
  have hpos := digitCount_pos hn
  by_contra hneg
  have hlast : digitCount n - 1 < i := by omega
  have hmem : digitCount n - 1 ∈ earlier ++ i :: later := by
    have hlimit : i ∈ List.range limit := by simp [hrange]
    rw [← hrange, List.mem_range]
    exact hlast.trans (List.mem_range.mp hlimit)
  have hsorted : (earlier ++ i :: later).Pairwise (· < ·) := hrange ▸ List.pairwise_lt_range
  rcases List.mem_append.mp hmem with hearlier | hlater
  · have hgrid := hnone _ hearlier
    rw [Nat.sub_add_cancel hpos, onGrid_mul tie hden hbits] at hgrid
    cases hgrid
  · rcases List.mem_cons.mp hlater with rfl | hlater
    · exact Nat.lt_irrefl _ hlast
    · have := (List.pairwise_append.mp hsorted).2.1
      exact Nat.lt_asymm hlast ((List.pairwise_cons.mp this).1 _ hlater)

/-- If no grid is taken, a whole number has more digits than are tried. -/
theorem lt_digitCount_of_findSome? {tie : TieRule} {n den bits limit : Nat} (hn : 0 < n)
    (hden : 0 < den) (hbits : nearestBits n 1 = bits)
    (h : (List.range limit).findSome? (fun i ↦
      onGrid tie (n * den) den bits (digitCount n : Int) (i + 1)) = none) :
    limit < digitCount n := by
  by_contra hcount
  have hpos := digitCount_pos hn
  have hgrid := List.findSome?_eq_none_iff.mp h (digitCount n - 1) (List.mem_range.mpr (by omega))
  rw [Nat.sub_add_cancel hpos, onGrid_mul tie hden hbits] at hgrid
  cases hgrid

/-! ### Significands -/

theorem magnitude_lt (bits : Nat) : (magnitude bits).1 < 2 ^ 53 := by
  unfold magnitude
  simp only [Nat.pow_eq]
  split
  · omega
  · omega

/-- A whole number above all significands is a multiple of one. -/
theorem exponent_magnitude_nonneg {bits n : Nat} (hvalue : exactValue bits = n)
    (hlarge : 2 ^ 53 ≤ n) : 0 ≤ (magnitude bits).2 := by
  have hsmall := magnitude_lt bits
  by_contra hneg
  have hpower : (2 : ℚ) ^ (magnitude bits).2 ≤ 1 :=
    zpow_le_one_of_nonpos₀ (by norm_num) (by omega)
  have hle : exactValue bits ≤ (magnitude bits).1 :=
    mul_le_of_le_one_right (Nat.cast_nonneg _) hpower
  have hle' : n ≤ (magnitude bits).1 := by exact_mod_cast hvalue ▸ hle
  omega

/-- The digits of a whole number end before the point. -/
theorem exponent_shortest_nonneg {bits n : Nat} (h : bits < infinityBits) (tie : TieRule)
    (hvalue : exactValue bits = n) (hn : 0 < n) :
    0 ≤ (shortest tie (magnitude bits).1 (magnitude bits).2).exponent := by
  have hnum := fst_scaled_magnitude hvalue
  have hden := @scaled_snd_pos (magnitude bits).1 1 Nat.one_pos (-(magnitude bits).2)
  have hbits : nearestBits n 1 = bits :=
    nearestBits_exactValue h Nat.one_pos (by rw [hvalue, Nat.cast_one, div_one])
  unfold shortest
  generalize scaled (magnitude bits).1 1 (-(magnitude bits).2) = quotient at hnum hden ⊢
  obtain ⟨num, den⟩ := quotient
  obtain rfl : num = n * den := hnum
  have hbits' : nearestBits (n * den) den = bits :=
    nearestBits_exactValue h hden
      (by rw [hvalue, Nat.cast_mul, mul_div_cancel_right₀ _ (by positivity)])
  dsimp only
  refine le_trans ?_ (Decimal.exponent_le_strip _ _)
  rw [hbits', pointPosition_mul hn hden]
  cases hfound : (List.range 17).findSome? fun i ↦
      onGrid tie (n * den) den bits (digitCount n : Int) (i + 1) with
  | some d => exact exponent_nonneg_of_findSome? hn hden hbits hfound
  | none =>
    have hcount := lt_digitCount_of_findSome? hn hden hbits hfound
    have hlarge := pow_le_of_lt_digitCount (by decide) hcount
    rw [Option.getD_none, exactDecimal, if_pos (exponent_magnitude_nonneg hvalue (by omega))]

/-- A positive whole number is shown without a point. -/
theorem point_not_mem_shortest {bits n : Nat} (h : bits < infinityBits) (tie : TieRule)
    (hvalue : exactValue bits = n) (hn : 0 < n) :
    '.' ∉ (shortest tie (magnitude bits).1 (magnitude bits).2).plain := by
  have hexponent := exponent_shortest_nonneg h tie hvalue hn
  rw [Decimal.point_mem_plain_iff]
  omega

end DataQuality.Number
