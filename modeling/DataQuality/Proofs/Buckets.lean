import Mathlib.Algebra.Order.Field.Rat
import Mathlib.Tactic.Linarith
import DataQuality.Proofs.Histograms
import DataQuality.Proofs.KeyedLists
import DataQuality.Proofs.SqlNumbers

/-!
# Buckets

A histogram has its buckets from two places: the database computes the number of the bucket of each
value, and the boundaries between which it should lie are computed here. With exact numbers both
agree, so each value is counted between boundaries that enclose it.
-/

namespace DataQuality

instance : BucketNumber ℚ where
  ofCount n := n
  decideLT := inferInstance

theorem BucketNumber.ofCount_eq_cast (n : ℕ) : (BucketNumber.ofCount n : ℚ) = n := rfl

/-! ### What a bucket expression comes to -/

namespace Warehouse

/-- The largest integer that is not above a number, as the dialect computes it. -/
def floorNumber (w : Warehouse) (a : SqlNumber) : SqlNumber :=
  match w with
  | .sqlite => .enclosed .integer a
  | .postgreSQL | .mySQL | .snowflake | .bigQuery => .enclosed .integer (.enclosed .floor a)

variable {w : Warehouse} {operands : List String} {a : SqlNumber} {value : String → ℚ} {x : ℚ}

theorem reads_floorToInteger {expr : String}
    (h : SqlNumber.Reads w (.chain .sum) operands expr.toList a) :
    SqlNumber.Reads w .single operands (w.floorToInteger expr).toList (w.floorNumber a) := by
  have hfloor := (SqlNumber.Reads.enclosed .floor h).ofSingle .sum
  cases w
  case sqlite =>
    simpa [floorToInteger, cast, floorNumber, SqlEnclosure.opening, SqlEnclosure.closing,
      integerType] using SqlNumber.Reads.enclosed .integer h
  all_goals
    simpa [floorToInteger, cast, floorNumber, SqlEnclosure.opening, SqlEnclosure.closing,
      integerType] using SqlNumber.Reads.enclosed .integer hfloor

/-- Cutting decimals off is enough for numbers that are not negative. -/
theorem value?_floorNumber (h : a.value? w value = some x) (hx : 0 ≤ x) :
    (w.floorNumber a).value? w value = some (⌊x⌋ : ℚ) := by
  cases w <;> simp [floorNumber, SqlNumber.value?, h, SqlEnclosure.result?, hx]

end Warehouse

namespace Bucketing

variable [SqlLiteral ℚ]

/-- The operands of a bucket expression. -/
def operands (expr : String) : Bucketing ℚ → List String
  | single => [Number.natText 0]
  | equalWidth min max width count =>
    [expr, SqlLiteral.literal max, Number.natText (count.toNat - 1), expr,
      SqlLiteral.literal min, SqlLiteral.literal (count.toNat : ℚ), SqlLiteral.literal width]

/-- The position of a value between the bounds, counted in buckets. -/
def scaledNumber (expr : String) (min width : ℚ) (count : UInt32) : SqlNumber :=
  .binary .dividedBy
    (.binary .times
      (.enclosed .parentheses
        (.binary .minus (.operand expr) (.operand (SqlLiteral.literal min))))
      (.operand (SqlLiteral.literal (count.toNat : ℚ))))
    (.operand (SqlLiteral.literal width))

/-- The bucket expression as a database understands it. -/
def number (w : Warehouse) (expr : String) : Bucketing ℚ → SqlNumber
  | single => .operand (Number.natText 0)
  | equalWidth min max width count =>
    .choice (.operand expr) (.operand (SqlLiteral.literal max))
      (.operand (Number.natText (count.toNat - 1)))
      (w.floorNumber (scaledNumber expr min width count))

theorem reads_scaled (w : Warehouse) (expr : String) (min width : ℚ) (count : UInt32) :
    SqlNumber.Reads w (.chain .sum)
      [expr, SqlLiteral.literal min, SqlLiteral.literal (count.toNat : ℚ),
        SqlLiteral.literal width]
      (scaled expr min width count).toList (scaledNumber expr min width count) := by
  have hdifference := SqlNumber.Reads.chain
    ((SqlNumber.Reads.operand (w := w) expr).ofSingle .product)
    (.next .minus rfl ((SqlNumber.Reads.operand (SqlLiteral.literal min)).ofSingle .product)
      (.done .sum _))
  have hproduct := SqlNumber.Reads.chain (.enclosed .parentheses hdifference)
    (.next .times rfl (.operand (SqlLiteral.literal (count.toNat : ℚ)))
      (.next .dividedBy rfl (.operand (SqlLiteral.literal width)) (.done .product _)))
  have hsum := SqlNumber.Reads.chain hproduct (.done .sum _)
  simpa [scaled, scaledNumber, SqlOperator.symbol, SqlEnclosure.opening, SqlEnclosure.closing,
    BucketNumber.ofCount_eq_cast] using hsum

theorem sql_equalWidth (w : Warehouse) (expr : String) (min max width : ℚ) (count : UInt32) :
    (equalWidth min max width count).sql w expr =
      "CASE WHEN " ++ expr ++ " >= " ++ SqlLiteral.literal max ++ " THEN " ++
        Number.natText (count.toNat - 1) ++ " ELSE " ++
        w.floorToInteger (scaled expr min width count) ++ " END" := rfl

theorem reads_sql (w : Warehouse) (expr : String) (b : Bucketing ℚ) :
    SqlNumber.Reads w (.chain .sum) (b.operands expr) (b.sql w expr).toList
      (b.number w expr) := by
  cases b with
  | single => exact (SqlNumber.Reads.operand (Number.natText 0)).ofSingle .sum
  | equalWidth min max width count =>
    have hchoice := SqlNumber.Reads.choice ((SqlNumber.Reads.operand (w := w) expr).ofSingle .sum)
      ((SqlNumber.Reads.operand (SqlLiteral.literal max)).ofSingle .sum)
      ((SqlNumber.Reads.operand (Number.natText (count.toNat - 1))).ofSingle .sum)
      ((Warehouse.reads_floorToInteger (reads_scaled w expr min width count)).ofSingle .sum)
    simpa [sql_equalWidth, operands, number] using hchoice.ofSingle .sum

end Bucketing

/-! ### Values between two bounds -/

namespace BucketRange

variable {range : BucketRange ℚ} {w : Warehouse} {expr : String} {value : String → ℚ} {b : ℕ}
  {x : ℚ}

/-- The bucket is one of the range, and the value lies between its boundaries. -/
def Holds (range : BucketRange ℚ) (b : ℕ) (x : ℚ) : Prop :=
  b < range.count ∧ ∃ lower upper, range.boundaries[b]? = some lower ∧
    range.boundaries[b + 1]? = some upper ∧ lower ≤ x ∧ x ≤ upper

theorem count_eq (range : BucketRange ℚ) :
    range.count = if range.min < range.max then Nat.max range.buckets.toNat 1 else 1 :=
  rfl

theorem getElem?_boundaries (h : b ≤ range.count) : range.boundaries[b]? =
    some (range.min + b * ((range.max - range.min) / range.count)) := by
  have hb : b < range.count + 1 := Nat.lt_succ_of_le h
  simp [boundaries, hb, width, BucketNumber.ofCount_eq_cast]

/-- A value lies between the boundaries of a bucket if it is as many buckets away from the lower
bound. -/
theorem holds_of_scaled (hb : b < range.count)
    (hlower : (b : ℚ) * (range.max - range.min) ≤ (x - range.min) * range.count)
    (hupper : (x - range.min) * range.count ≤ (b + 1) * (range.max - range.min)) :
    range.Holds b x := by
  have hcount : (0 : ℚ) < range.count := by exact_mod_cast range.count_pos
  refine ⟨hb, _, _, getElem?_boundaries hb.le, getElem?_boundaries hb, ?_, ?_⟩
  · have := (div_le_iff₀ hcount).mpr hlower
    rw [mul_div_assoc] at this
    linarith
  · have := (le_div_iff₀ hcount).mpr hupper
    rw [mul_div_assoc] at this
    push_cast
    linarith

/-- One bucket holds all values between the bounds. -/
theorem holds_zero (hcount : range.count = 1) (hmin : range.min ≤ x) (hmax : x ≤ range.max) :
    range.Holds 0 x := by
  refine holds_of_scaled (by omega) ?_ ?_
  · simpa [hcount] using hmin
  · simpa [hcount] using hmax

/-- The last bucket holds the upper bound. -/
theorem holds_last (h : range.min ≤ range.max) : range.Holds (range.count - 1) range.max := by
  have hpos := range.count_pos
  have hlast : ((range.count - 1 : ℕ) : ℚ) = range.count - 1 := Nat.cast_pred hpos
  refine holds_of_scaled (by omega) ?_ ?_
  · rw [hlast]
    linarith
  · rw [hlast]
    linarith

/-- A value below the upper bound is in the bucket that its scaled position is in. -/
theorem holds_floor (hmin : range.min ≤ x) (hmax : x < range.max) :
    range.Holds ⌊(x - range.min) * range.count / (range.max - range.min)⌋₊ x := by
  have hwidth : 0 < range.max - range.min := by linarith
  have hcount : (0 : ℚ) < range.count := by exact_mod_cast range.count_pos
  have hscaled : 0 ≤ (x - range.min) * range.count / (range.max - range.min) :=
    div_nonneg (mul_nonneg (by linarith) hcount.le) hwidth.le
  refine holds_of_scaled ?_ ?_ ?_
  · rw [Nat.floor_lt hscaled, div_lt_iff₀ hwidth, mul_comm]
    exact mul_lt_mul_of_pos_left (by linarith) hcount
  · exact (le_div_iff₀ hwidth).mp (Nat.floor_le hscaled)
  · exact ((div_lt_iff₀ hwidth).mp (Nat.lt_floor_add_one _)).le

/-- The buckets of a range as a query has them. -/
def bucketing (range : BucketRange ℚ) : Bucketing ℚ :=
  .ofRange range.min range.max range.buckets

/-- A query divides the range exactly if there is more than one bucket. -/
theorem bucketing_cases (range : BucketRange ℚ) :
    (range.bucketing = .single ∧ range.count = 1) ∨
    (0 < range.max - range.min ∧ range.count = range.buckets.toNat ∧
      range.bucketing =
        .equalWidth range.min range.max (range.max - range.min) range.buckets) := by
  simp only [bucketing, Bucketing.ofRange, BucketNumber.ofCount_eq_cast, Nat.cast_zero,
    UInt32.lt_iff_toNat_lt, count_eq]
  by_cases hroom : range.min < range.max
  · by_cases hmany : 1 < range.buckets.toNat
    · refine .inr ⟨sub_pos.mpr hroom, ?_, if_pos ⟨sub_pos.mpr hroom, hmany⟩⟩
      rw [if_pos hroom]
      exact Nat.max_eq_left hmany.le
    · refine .inl ⟨if_neg fun h ↦ hmany h.2, ?_⟩
      rw [if_pos hroom]
      exact Nat.max_eq_right (Nat.not_lt.mp hmany)
  · exact .inl ⟨if_neg fun h ↦ hroom (sub_pos.mp h.1), if_neg hroom⟩

variable [SqlLiteral ℚ]

/-- A row on which an expression lies between the bounds and numerals stand for their numbers. -/
structure Covers (range : BucketRange ℚ) (expr : String) (value : String → ℚ) : Prop where
  literals : ∀ q ∈ [range.min, range.max, range.max - range.min, (range.buckets.toNat : ℚ)],
    value (SqlLiteral.literal q) = q
  counts : ∀ k ∈ [0, range.buckets.toNat - 1], value (Number.natText k) = k
  min_le : range.min ≤ value expr
  le_max : value expr ≤ range.max

theorem Covers.value?_scaledNumber (h : range.Covers expr value)
    (hwidth : range.max - range.min ≠ 0) :
    (Bucketing.scaledNumber expr range.min (range.max - range.min) range.buckets).value? w value =
      some ((value expr - range.min) * range.buckets.toNat / (range.max - range.min)) := by
  have hmin := h.literals range.min (by simp)
  have hcount := h.literals range.buckets.toNat (by simp)
  have hvalue := h.literals (range.max - range.min) (by simp)
  simp [Bucketing.scaledNumber, SqlNumber.value?, SqlOperator.result?, SqlEnclosure.result?, hmin,
    hcount, hvalue, hwidth]

/-- A value between the bounds comes to the number of a bucket that holds it. -/
theorem Covers.exists_bucket (w : Warehouse) (h : range.Covers expr value) :
    ∃ b : ℕ, (range.bucketing.number w expr).value? w value = some (b : ℚ) ∧
      range.Holds b (value expr) ∧ (value expr = range.max → b + 1 = range.count) := by
  obtain ⟨hsingle, hcount⟩ | ⟨hwidth, hcount, hdivided⟩ := range.bucketing_cases
  · rw [hsingle]
    have hzero := h.counts 0 (by simp)
    exact ⟨0, by simpa [Bucketing.number, SqlNumber.value?] using hzero,
      holds_zero hcount h.min_le h.le_max, fun _ ↦ hcount.symm⟩
  · -- The database looks at the upper bound first, since its scaled position is behind all buckets.
    rw [hdivided]
    have hbound := h.literals range.max (by simp)
    by_cases hmax : range.max ≤ value expr
    · have hx : value expr = range.max := le_antisymm h.le_max hmax
      have hlast := h.counts (range.buckets.toNat - 1) (by simp)
      refine ⟨range.count - 1, ?_, hx ▸ holds_last (sub_pos.mp hwidth).le,
        fun _ ↦ Nat.sub_add_cancel range.count_pos⟩
      simp [Bucketing.number, SqlNumber.value?, hbound, hmax, hlast, hcount]
    · refine ⟨_, ?_, holds_floor h.min_le (not_le.mp hmax), fun hx ↦ absurd hx.ge hmax⟩
      have hpos : 0 ≤ (value expr - range.min) * range.count / (range.max - range.min) :=
        div_nonneg (mul_nonneg (sub_nonneg.mpr h.min_le) (Nat.cast_nonneg _)) hwidth.le
      have hscaled := h.value?_scaledNumber (w := w) hwidth.ne'
      rw [← hcount] at hscaled
      -- The scaled position is not negative, so cutting its decimals off rounds it down.
      have hfloor := Warehouse.value?_floorNumber hscaled hpos
      rw [← natCast_floor_eq_intCast_floor hpos] at hfloor
      simp [Bucketing.number, SqlNumber.value?, hbound, hmax, hfloor]

end BucketRange

/-! ### Counting a table -/

namespace Rows

variable {r : Rows} {row : List Value} {numbers : List (Option ℚ)} {count : ℕ}

/-- The rows that come of grouping by a number: one for each number that occurs, with how often it
does. -/
structure Tallies (r : Rows) (numbers : List (Option ℚ)) : Prop where
  distinct : (r.rows.map r.bucketNumber?).Nodup
  sizes : ∀ row ∈ r.rows, ∃ n : ℤ, r.bucketNumber? row = some n ∧ some (n : ℚ) ∈ numbers ∧
    r.frequencyOf row = numbers.count (some (n : ℚ))
  complete : ∀ n : ℤ, some (n : ℚ) ∈ numbers → ∃ row ∈ r.rows, r.bucketNumber? row = some n

/-- If all numbers are those of buckets, a row is placed in the bucket that it names. -/
theorem Tallies.exists_place (h : r.Tallies numbers)
    (hnumbers : ∀ q ∈ numbers, ∃ b : ℕ, q = some (b : ℚ) ∧ b < count) (hrow : row ∈ r.rows) :
    ∃ b : ℕ, r.bucketNumber? row = some (b : ℤ) ∧ r.placeOf? (count - 1) row = some b := by
  obtain ⟨n, hn, hmem, -⟩ := h.sizes row hrow
  obtain ⟨b, hb, hlt⟩ := hnumbers _ hmem
  have hnb : n = b := by exact_mod_cast Option.some.inj hb
  subst hnb
  refine ⟨b, hn, ?_⟩
  rw [placeOf?_eq_map, hn, Option.map_some, Int.toNat_natCast, Nat.min_eq_left (by omega)]

theorem Tallies.total_bucket (h : r.Tallies numbers) (n : ℤ) :
    (r.total fun row ↦ r.bucketNumber? row = some n) = numbers.count (some (n : ℚ)) := by
  unfold total
  by_cases hn : some (n : ℚ) ∈ numbers
  · obtain ⟨row, hrow, hnumber⟩ := h.complete n hn
    obtain ⟨m, hm, -, hsize⟩ := h.sizes row hrow
    obtain rfl : n = m := Option.some.inj (hnumber.symm.trans hm)
    rw [← hnumber, filter_key_of_mem h.distinct hrow]
    simpa using hsize
  · rw [List.count_eq_zero.mpr hn, List.filter_eq_nil_iff.mpr]
    · rfl
    · intro row hrow
      obtain ⟨m, hm, hmem, -⟩ := h.sizes row hrow
      have hne : m ≠ n := fun hmn ↦ hn (hmn ▸ hmem)
      simpa [hm] using hne

theorem Tallies.bucketCounts_eq (h : r.Tallies numbers)
    (hnumbers : ∀ q ∈ numbers, ∃ b : ℕ, q = some (b : ℚ) ∧ b < count) :
    r.bucketCounts count =
      (List.range count).map fun i : ℕ ↦ (numbers.count (some (i : ℚ)) : ℤ) := by
  rw [bucketCounts_eq_map]
  refine List.map_congr_left fun i _ ↦ ?_
  have htotal := h.total_bucket i
  rw [Int.cast_natCast] at htotal
  rw [← htotal]
  unfold total
  congr 2
  refine List.filter_congr fun row hrow ↦ ?_
  obtain ⟨b, hb, hplace⟩ := h.exists_place hnumbers hrow
  simp [hb, hplace]

end Rows

/-- The query for the counts of the buckets, with the expression for the number of a bucket. -/
def QuerySource.groupedBy (source : QuerySource) (predicate : Option String) (bucket : String) :
    String :=
  "SELECT " ++ bucketColumn ++ ", COUNT(*) AS " ++ frequencyColumn ++ "\nFROM (SELECT " ++ bucket ++
    " AS " ++ bucketColumn ++ "\n  " ++ source.fromClause predicate ++
    ") AS dq_buckets\nGROUP BY " ++ bucketColumn ++ "\nORDER BY " ++ bucketColumn

/-- With exact numbers, the database puts each value into the bucket whose boundaries enclose it. -/
theorem Warehouse.exists_bucketQuery [SqlLiteral ℚ] (w : Warehouse) (source : QuerySource)
    (expr : String) (predicate : Option String) (range : BucketRange ℚ) :
    ∃ bucket, ∃ number : SqlNumber,
      w.bucketQuery source expr predicate range.buckets range.min range.max =
        .ok (source.groupedBy predicate bucket) ∧
      number.IsReadingOf w (range.bucketing.operands expr) bucket ∧
      (∀ value, range.Covers expr value →
        ∃ b : ℕ, number.value? w value = some (b : ℚ) ∧ range.Holds b (value expr) ∧
          (value expr = range.max → b + 1 = range.count)) ∧
      ∀ table : List (String → ℚ), (∀ value ∈ table, range.Covers expr value) →
        ∀ r : Rows, r.Tallies (table.map fun value ↦ number.value? w value) →
          (∀ row ∈ r.rows, ∃ b : ℕ, r.bucketNumber? row = some (b : ℤ) ∧
            r.placeOf? (range.count - 1) row = some b) ∧
          r.bucketCounts range.count = (List.range range.count).map fun i : ℕ ↦
            (table.countP fun value ↦ number.value? w value = some (i : ℚ) : ℤ) := by
  refine ⟨range.bucketing.sql w expr, range.bucketing.number w expr, ?_,
    (range.bucketing.reads_sql w expr).isReadingOf, fun value h ↦ h.exists_bucket w, ?_⟩
  · exact require_eq_ok_iff.mpr ⟨by cases w <;> rfl, rfl⟩
  · intro table htable r hr
    have hnumbers : ∀ q ∈ table.map fun value ↦ (range.bucketing.number w expr).value? w value,
        ∃ b : ℕ, q = some (b : ℚ) ∧ b < range.count := by
      intro q hq
      obtain ⟨value, hvalue, rfl⟩ := List.mem_map.mp hq
      obtain ⟨b, hb, hholds, -⟩ := (htable value hvalue).exists_bucket w
      exact ⟨b, hb, hholds.1⟩
    refine ⟨fun row hrow ↦ hr.exists_place hnumbers hrow, ?_⟩
    rw [hr.bucketCounts_eq hnumbers]
    refine List.map_congr_left fun i _ ↦ ?_
    rw [List.count_eq_countP, List.countP_map]
    exact congrArg _ (List.countP_congr fun value _ ↦ by simp)

/-- Whole numbers with a point, as they stand in queries. -/
@[reducible]
def pointedLiteral : SqlLiteral ℚ := ⟨fun q ↦ Number.intText q.num ++ ".0"⟩

/-- A row with a price. -/
def pricedAt (price : ℚ) (text : String) : ℚ :=
  if text = "price" then price else if text ∈ ["8.0", "8"] then 8 else if text = "4.0" then 4
  else if text = "3" then 3 else 0

/-- Prices between 0 and 8 in four buckets. -/
def priceRange : BucketRange ℚ := ⟨0, 8, 4⟩

theorem covers_pricedAt {price : ℚ} (hmin : 0 ≤ price) (hmax : price ≤ 8) :
    @BucketRange.Covers pointedLiteral priceRange "price" (pricedAt price) := by
  let := pointedLiteral
  have hliterals : SqlLiteral.literal (0 : ℚ) = "0.0" ∧ SqlLiteral.literal (8 : ℚ) = "8.0" ∧
      SqlLiteral.literal (4 : ℚ) = "4.0" := by decide +kernel
  have hcounts : Number.natText 0 = "0" ∧ Number.natText 3 = "3" := by decide
  exact
    { literals := by simp [priceRange, hliterals, pricedAt]
      counts := by simp [priceRange, hcounts, pricedAt]
      min_le := by simpa [pricedAt, priceRange] using hmin
      le_max := by simpa [pricedAt, priceRange] using hmax }

theorem count_priceRange : priceRange.count = 4 := by
  simp [BucketRange.count_eq, priceRange]

theorem operands_priceRange : @Bucketing.operands pointedLiteral "price" priceRange.bucketing =
    ["price", "8.0", "3", "price", "0.0", "4.0", "8.0"] := by
  decide +kernel

theorem bounds_of_holds {b : ℕ} {price : ℚ} (h : priceRange.Holds b price) :
    2 * (b : ℚ) ≤ price ∧ price ≤ 2 * (b + 1) := by
  obtain ⟨hb, lower, upper, hlower, hupper, hle, hge⟩ := h
  rw [BucketRange.getElem?_boundaries hb.le, count_priceRange, Option.some_inj] at hlower
  rw [BucketRange.getElem?_boundaries hb, count_priceRange, Option.some_inj] at hupper
  rw [← hlower] at hle
  rw [← hupper] at hge
  norm_num [priceRange] at hle hge
  constructor <;> linarith

/-- Three prices are counted in two of the buckets, the highest one in the last. -/
theorem Warehouse.exists_bucketQuery_prices :
    let table := [pricedAt 3, pricedAt (5 / 2), pricedAt 8]
    let r : Rows := ⟨[bucketColumn, frequencyColumn], [[.int 1, .int 2], [.int 3, .int 1]]⟩
    ∃ bucket, ∃ number : SqlNumber,
      @bucketQuery ℚ _ pointedLiteral .sqlite ⟨"orders", none⟩ "price" none 4 0 8 =
        .ok (QuerySource.groupedBy ⟨"orders", none⟩ none bucket) ∧
      (∀ a, SqlNumber.Reads .sqlite (.chain .sum) ["price", "8.0", "3", "price", "0.0", "4.0", "8.0"]
        bucket.toList a ↔ a = number) ∧
      (table.map fun value ↦ number.value? .sqlite value) = [some 1, some 1, some 3] ∧
      r.bucketCounts priceRange.count = [0, 2, 0, 1] := by
  intro table r
  obtain ⟨bucket, number, hquery, hreading, hvalues, htables⟩ :=
    @exists_bucketQuery pointedLiteral .sqlite ⟨"orders", none⟩ "price" none priceRange
  have hsecond {price : ℚ} (hlower : 2 < price) (hupper : price < 4) :
      number.value? .sqlite (pricedAt price) = some 1 := by
    obtain ⟨b, hb, hholds, -⟩ := hvalues _ (covers_pricedAt (by linarith) (by linarith))
    obtain ⟨hle, hge⟩ := bounds_of_holds hholds
    have hprice : pricedAt price "price" = price := by simp [pricedAt]
    rw [hprice] at hle hge
    have hbelow : (b : ℚ) < 2 := by linarith
    have habove : (0 : ℚ) < b := by linarith
    have hone : b = 1 := by
      norm_cast at hbelow habove
      omega
    rw [hb, hone, Nat.cast_one]
  have hlast : number.value? .sqlite (pricedAt 8) = some 3 := by
    obtain ⟨b, hb, -, hmax⟩ := hvalues _ (covers_pricedAt (by norm_num) le_rfl)
    have hcount := hmax (by simp [pricedAt, priceRange])
    rw [count_priceRange] at hcount
    rw [hb, Nat.succ_injective hcount, Nat.cast_ofNat]
  have hthree := hsecond (show (2 : ℚ) < 3 by norm_num) (by norm_num)
  have hhalf := hsecond (show (2 : ℚ) < 5 / 2 by norm_num) (by norm_num)
  have hnumbers : (table.map fun value ↦ number.value? .sqlite value) =
      [some 1, some 1, some 3] := by
    simp [table, hthree, hhalf, hlast]
  have htallies : r.Tallies (table.map fun value ↦ number.value? .sqlite value) := by
    rw [hnumbers]
    refine ⟨by decide, ?_, fun n hn ↦ ?_⟩
    · simp only [r, List.forall_mem_cons]
      exact ⟨⟨1, by decide +kernel⟩, ⟨3, by decide +kernel⟩, by simp⟩
    · have hn : n = 1 ∨ n = 3 := by
        simp only [List.mem_cons, Option.some_inj, List.not_mem_nil, or_false] at hn
        norm_cast at hn
        tauto
      obtain rfl | rfl := hn <;> simp [r] <;> decide
  have htable : ∀ value ∈ table, @BucketRange.Covers pointedLiteral priceRange "price" value := by
    simp only [table, List.forall_mem_cons]
    exact ⟨covers_pricedAt (by norm_num) (by norm_num),
      covers_pricedAt (by norm_num) (by norm_num), covers_pricedAt (by norm_num) le_rfl, by simp⟩
  have hmarked : ∀ operand ∈ ["price", "8.0", "3", "price", "0.0", "4.0", "8.0"],
      SqlNumber.Marked operand := by
    unfold SqlNumber.Marked
    decide
  rw [operands_priceRange] at hreading
  refine ⟨bucket, number, hquery, fun a ↦ ⟨hreading.unique hmarked a, ?_⟩, hnumbers, ?_⟩
  · rintro rfl
    exact hreading.reads
  rw [(htables table htable r htallies).2, count_priceRange]
  simp [table, List.range_succ, hthree, hhalf, hlast]

end DataQuality
