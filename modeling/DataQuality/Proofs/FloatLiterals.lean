import DataQuality.Dialect.Query
import DataQuality.Plan.Column
import DataQuality.Proofs.Computations
import DataQuality.Proofs.Quotations
import DataQuality.Proofs.WholeFloats

/-!
# Float literals

A finite float goes into SQL as a decimal numeral that reads back as the float, be it in a list, a
clause or a query for a histogram. A point tells the numeral from an integer except where a whole
number is too large to be written with one.
-/

namespace DataQuality

namespace Number

/-! ### Tenths -/

/-- The digits of a number of tenths, a point before the last of them. -/
theorem Writes.tenths (negative : Bool) (n : Nat) :
    Writes (signText negative ++ String.ofList (withPoint (Nat.toDigits 10 n) 1)) negative
      (n / 10) := by
  obtain ⟨whole, fraction, hpoint, hne, -, hlength, hdigits, hvalue⟩ :=
    exists_withPoint_eq Nat.one_pos fun c (hc : c ∈ Nat.toDigits 10 n) ↦ isDigit_of_mem_toDigits hc
  have hfraction : fraction ≠ [] := List.ne_nil_of_length_pos (by omega)
  refine ⟨whole, fraction, hne, hdigits, by rw [hpoint, pointed, if_neg hfraction], ?_⟩
  rw [Numeral.value, hvalue, hlength, digitsValue_toDigits, Decimal.value]
  simp [zpow_neg, div_eq_mul_inv]

/-- A whole number is not changed when it is rounded to tenths. -/
theorem tenthsText_of_whole {x : Float} (h : isFinite x = true) {n : Nat}
    (hn : exactValue (splitSign x).2 = n) :
    tenthsText x = signText (splitSign x).1 ++
      String.ofList (withPoint (Nat.toDigits 10 (10 * n)) 1) := by
  have hnum := fst_scaled_magnitude hn
  have hden := @scaled_snd_pos (magnitude (splitSign x).2).1 1 Nat.one_pos
    (-(magnitude (splitSign x).2).2)
  rw [tenthsText, classify_of_lt (isFinite_iff.mp h)]
  simp only [hnum]
  rw [Nat.mul_right_comm, Nat.mul_comm n 10, roundHalfEven_mul _ hden]

end Number

namespace Warehouse

open Number

/-! ### The literal of a float -/

section

variable {x : Float}

/-- A whole number below the bound is rounded to tenths, and any other number is shown in full. -/
theorem floatLiteral_cases (h : isFinite x = true) :
    (∃ n : Nat, n < 10 ^ 15 ∧ exactValue (splitSign x).2 = n ∧
        floatLiteral x = signText (splitSign x).1 ++
          String.ofList (Number.withPoint (Nat.toDigits 10 (10 * n)) 1)) ∨
      ((∀ n : Nat, exactValue (splitSign x).2 = n → 10 ^ 15 ≤ n) ∧
        floatLiteral x = signText (splitSign x).1 ++ String.ofList
          (shortest .up (magnitude (splitSign x).2).1 (magnitude (splitSign x).2).2).plain) := by
  have hbits := isFinite_iff.mp h
  have hwhole {n : Nat} : (toInt? x).map Int.natAbs = some n ↔ exactValue (splitSign x).2 = n :=
    natAbs_toInt?_eq_some_iff h
  unfold floatLiteral
  cases hinteger : toInt? x with
  | none =>
    rw [hinteger] at hwhole
    refine .inr ⟨fun n hn ↦ ?_, plainText_of_lt hbits⟩
    cases hwhole.mpr hn
  | some i =>
    rw [hinteger] at hwhole
    have hvalue : exactValue (splitSign x).2 = i.natAbs := hwhole.mp rfl
    dsimp only
    split
    · next hsmall => exact .inl ⟨i.natAbs, hsmall, hvalue, tenthsText_of_whole h hvalue⟩
    · next hlarge =>
      refine .inr ⟨fun n hn ↦ ?_, plainText_of_lt hbits⟩
      obtain rfl : i.natAbs = n := Option.some.inj (hwhole.mpr hn)
      exact Nat.not_lt.mp hlarge

/-- The literal of a finite float writes its value, and the float is nearest to that. -/
theorem exists_writes_floatLiteral (h : isFinite x = true) :
    ∃ d : Decimal, Writes (floatLiteral x) (splitSign x).1 d.value ∧
      d.nearestBits = (splitSign x).2 := by
  have hbits := isFinite_iff.mp h
  rcases floatLiteral_cases h with ⟨n, -, hn, hliteral⟩ | ⟨-, hliteral⟩
  · have hvalue : ((10 * n : Nat) : ℚ) / 10 = (Decimal.mk n 0).value := by simp [Decimal.value]
    refine ⟨⟨n, 0⟩, by rw [hliteral, ← hvalue]; exact .tenths _ _, ?_⟩
    have hquotient : (n : ℚ) / (1 : Nat) = (Decimal.mk n 0).value := by simp [Decimal.value]
    rw [Decimal.nearestBits_eq Nat.one_pos hquotient]
    exact nearestBits_exactValue hbits Nat.one_pos (by rw [hn, Nat.cast_one, div_one])
  · exact ⟨_, hliteral ▸ .plain _ _, nearestBits_shortest hbits .up⟩

/-- The literal of a finite float is a numeral that reads back as the float. -/
theorem parseFloat?_floatLiteral (h : isFinite x = true) :
    IsNumeral (floatLiteral x) ∧ parseFloat? (floatLiteral x) = some x := by
  obtain ⟨d, hwrites, hnearest⟩ := exists_writes_floatLiteral h
  refine ⟨hwrites.isNumeral, ?_⟩
  rw [hwrites.parseFloat?_eq rfl, Decimal.toFloat, hnearest, ofMagnitude_splitSign]

/-- The literal of a finite float has a point unless the float is a whole number that is too
large. -/
theorem point_mem_floatLiteral_iff (h : isFinite x = true) :
    '.' ∈ (floatLiteral x).toList ↔
      ∀ n : Nat, exactValue (splitSign x).2 = n → n < 10 ^ 15 := by
  have hbits := isFinite_iff.mp h
  have hsign : '.' ∉ (signText (splitSign x).1).toList := by
    cases (splitSign x).1 <;> decide
  rcases floatLiteral_cases h with ⟨n, hsmall, hn, hliteral⟩ | ⟨hlarge, hliteral⟩
  · rw [hliteral]
    refine iff_of_true (by simp [Number.withPoint]) fun m hm ↦ ?_
    obtain rfl : n = m := by exact_mod_cast hn.symm.trans hm
    exact hsmall
  · rw [hliteral, String.toList_append, String.toList_ofList, List.mem_append, or_iff_right hsign]
    constructor
    · intro hpoint n hn
      have hlower := hlarge n hn
      exact absurd hpoint (point_not_mem_shortest hbits .up hn (by omega))
    · intro hsmall
      refine point_mem_shortest hbits .up ?_
      rintro ⟨n, hn⟩
      exact absurd (hlarge n hn) (Nat.not_le.mpr (hsmall n hn))

end

/-! ### Numerals in SQL -/

/-- Whether a text ends where a numeral can begin. -/
def opensNumeral (s : String) : Bool := s.toList.getLast?.any [' ', '('].contains

/-- Whether a text begins where a numeral can end. -/
def closesNumeral (s : String) : Bool := s.toList.head?.any [' ', '\n', ',', ')'].contains

/-- SQL holds a numeral: it stands there apart from what is around it. -/
def HoldsNumeral (sql numeral : String) : Prop :=
  ∃ before after, sql = before ++ numeral ++ after ∧ (before = "" ∨ opensNumeral before = true) ∧
    (after = "" ∨ closesNumeral after = true)

theorem opensNumeral_append (s : String) {t : String} (h : opensNumeral t = true) :
    opensNumeral (s ++ t) = true := by
  unfold opensNumeral at *
  rw [String.toList_append, List.getLast?_append]
  cases hlast : t.toList.getLast? with
  | none => simp [hlast] at h
  | some c => simpa [hlast] using h

theorem closesNumeral_append {s : String} (h : closesNumeral s = true) (t : String) :
    closesNumeral (s ++ t) = true := by
  unfold closesNumeral at *
  rw [String.toList_append, List.head?_append]
  cases hfirst : s.toList.head? with
  | none => simp [hfirst] at h
  | some c => simpa [hfirst] using h

namespace HoldsNumeral

variable {sql numeral start stop : String}

theorem self (numeral : String) : HoldsNumeral numeral numeral :=
  ⟨"", "", by simp, .inl rfl, .inl rfl⟩

theorem prepend (h : HoldsNumeral sql numeral) (hstart : opensNumeral start = true) :
    HoldsNumeral (start ++ sql) numeral := by
  obtain ⟨before, after, rfl, hbefore, hafter⟩ := h
  refine ⟨start ++ before, after, by simp only [String.append_assoc], .inr ?_, hafter⟩
  rcases hbefore with rfl | hbefore
  · simpa using hstart
  · exact opensNumeral_append start hbefore

/-- Behind a text that a numeral can end before anything may stand. -/
theorem append_append (h : HoldsNumeral sql numeral) (hstop : closesNumeral stop = true)
    (more : String) : HoldsNumeral (sql ++ stop ++ more) numeral := by
  obtain ⟨before, after, rfl, hbefore, hafter⟩ := h
  refine ⟨before, after ++ stop ++ more, by simp only [String.append_assoc], hbefore, .inr ?_⟩
  refine closesNumeral_append ?_ more
  rcases hafter with rfl | hafter
  · simpa using hstop
  · exact closesNumeral_append hafter stop

theorem append (h : HoldsNumeral sql numeral) (hstop : closesNumeral stop = true) :
    HoldsNumeral (sql ++ stop) numeral := by
  simpa using h.append_append hstop ""

/-- A list between commas holds the numerals that its parts do. -/
theorem commaSeparated (h : HoldsNumeral sql numeral) {parts : List String} (hsql : sql ∈ parts) :
    HoldsNumeral (Text.commaSeparated parts) numeral := by
  unfold Text.commaSeparated
  induction parts with
  | nil => cases hsql
  | cons part parts ih =>
    cases parts with
    | nil =>
      obtain rfl := List.mem_singleton.mp hsql
      exact h
    | cons other parts =>
      rw [Text.join_cons_cons]
      rcases List.mem_cons.mp hsql with rfl | hsql
      · exact h.append_append (by decide) _
      · exact (ih hsql).prepend (opensNumeral_append _ (by decide))

theorem cast (h : HoldsNumeral sql numeral) (type : String) :
    HoldsNumeral (Warehouse.cast sql type) numeral :=
  ((h.prepend (by decide)).append_append (by decide) _).append (by decide)

theorem floorToInteger (h : HoldsNumeral sql numeral) (w : Warehouse) :
    HoldsNumeral (w.floorToInteger sql) numeral := by
  have hfloor : HoldsNumeral ("FLOOR(" ++ sql ++ ")") numeral :=
    (h.prepend (by decide)).append (by decide)
  cases w with
  | sqlite => exact h.cast _
  | postgreSQL | mySQL | snowflake | bigQuery => exact hfloor.cast _

end HoldsNumeral

/-- A list of numbers holds the literals of its floats. -/
theorem holdsNumeral_literalList (w : Warehouse) {values : List Literal} {x : Float}
    (hx : .float x ∈ values) : HoldsNumeral (w.literalList values false) (floatLiteral x) :=
  (HoldsNumeral.self _).commaSeparated (List.mem_map_of_mem (f := w.literal false) hx)

/-- The smallest and the largest valid value are compared with as literals. -/
theorem mem_validityClauses {w : Warehouse} {p : ColumnProfile} {v : ValidityDefinition}
    {clauses : List String} (h : ColumnConditions.validityClausesOf w p v = .ok clauses)
    {x : Float} :
    (v.min = some x → p.numericExpr w ++ " >= " ++ floatLiteral x ∈ clauses) ∧
      (v.max = some x → p.numericExpr w ++ " <= " ++ floatLiteral x ∈ clauses) := by
  obtain ⟨patterns, -, rfl⟩ := exists_of_map_eq_ok h
  constructor <;> intro hx <;> simp [ColumnConditions.boundClause, hx]

/-- The position of a value among the buckets is computed with literals. -/
theorem holdsNumeral_scaled (expr : String) {min width x : Float} {count : UInt32}
    (hx : x = min ∨ x = ofInt count.toNat ∨ x = width) :
    HoldsNumeral (Bucketing.scaled expr min width count) (floatLiteral x) := by
  have hliteral : HoldsNumeral (floatLiteral x) (floatLiteral x) := .self _
  rcases hx with rfl | rfl | rfl
  · refine .append_append (.append_append ?_ (by decide) _) (by decide) _
    exact hliteral.prepend (opensNumeral_append _ (by decide))
  · refine .append_append ?_ (by decide) _
    exact hliteral.prepend (opensNumeral_append _ (by decide))
  · exact hliteral.prepend (opensNumeral_append _ (by decide))

/-- The number of a bucket is computed with literals. -/
theorem holdsNumeral_equalWidth (w : Warehouse) (expr : String) {min max width x : Float}
    {count : UInt32} (hx : x = max ∨ x = min ∨ x = ofInt count.toNat ∨ x = width) :
    HoldsNumeral ((Bucketing.equalWidth min max width count).sql w expr) (floatLiteral x) := by
  rcases hx with rfl | hx
  · have hliteral : HoldsNumeral (floatLiteral x) (floatLiteral x) := .self _
    refine .append (.append_append (.append_append ?_ (by decide) _) (by decide) _) (by decide)
    exact hliteral.prepend (opensNumeral_append _ (by decide))
  · have hfloor := (holdsNumeral_scaled expr hx).floorToInteger w
    exact (hfloor.prepend (opensNumeral_append _ (by decide))).append (by decide)

/-- A query for a histogram holds the literals of its bounds, of their distance and of the number of
buckets. -/
theorem holdsNumeral_histogramQuery {w : Warehouse} {source : QuerySource} {expr sql : String}
    {predicate : Option String} {buckets : UInt32} {min max : Float}
    (h : w.histogramQuery source expr predicate buckets min max = .ok sql)
    (hwidth : ofInt 0 < max - min) (hbuckets : 1 < buckets) {x : Float}
    (hx : x = max ∨ x = min ∨ x = ofInt buckets.toNat ∨ x = max - min) :
    HoldsNumeral sql (floatLiteral x) := by
  obtain ⟨-, rfl⟩ := require_eq_ok_iff.mp h
  have hrange : Bucketing.ofRange min max buckets =
      .equalWidth min max (max - min) buckets := if_pos ⟨hwidth, hbuckets⟩
  rw [hrange]
  -- From the end of the query back to its buckets.
  refine .append_append ?_ (by decide) _
  refine .append_append ?_ (by decide) _
  refine .append_append ?_ (by decide) _
  refine .append_append ?_ (by decide) _
  exact (holdsNumeral_equalWidth w expr hx).prepend (opensNumeral_append _ (by decide))

/-! ### Floats that stay floats -/

/-- A text is a numeral that reads back as a float and that a point tells from an integer. -/
def StaysFloat (s : String) (x : Float) : Prop :=
  IsNumeral s ∧ '.' ∈ s.toList ∧ parseFloat? s = some x

/-- The literal of a finite float is a numeral that reads back as the float, and stands as such in
lists, in the clauses for valid values and in queries for histograms. It stays a float exactly if
the float is no whole number from `10^15` on. -/
theorem floatLiteral_staysFloat_iff {x : Float} (h : isFinite x = true) :
    (StaysFloat (floatLiteral x) x ↔
        ∀ n : Nat, exactValue (splitSign x).2 = n → n < 10 ^ 15) ∧
      IsNumeral (floatLiteral x) ∧ parseFloat? (floatLiteral x) = some x ∧
      (∀ (w : Warehouse) (values : List Literal), .float x ∈ values →
        HoldsNumeral (w.literalList values false) (floatLiteral x)) ∧
      (∀ (w : Warehouse) (p : ColumnProfile) (v : ValidityDefinition) (clauses : List String),
        ColumnConditions.validityClausesOf w p v = .ok clauses →
          (v.min = some x → p.numericExpr w ++ " >= " ++ floatLiteral x ∈ clauses) ∧
          (v.max = some x → p.numericExpr w ++ " <= " ++ floatLiteral x ∈ clauses)) ∧
      ∀ (w : Warehouse) (source : QuerySource) (expr : String) (predicate : Option String)
        (buckets : UInt32) (min max : Float) (sql : String),
        w.histogramQuery source expr predicate buckets min max = .ok sql →
          ofInt 0 < max - min → 1 < buckets →
          x = max ∨ x = min ∨ x = ofInt buckets.toNat ∨ x = max - min →
          HoldsNumeral sql (floatLiteral x) := by
  obtain ⟨hnumeral, hreads⟩ := parseFloat?_floatLiteral h
  refine ⟨?_, hnumeral, hreads, fun w _ ↦ w.holdsNumeral_literalList,
    fun _ _ _ _ hclauses ↦ mem_validityClauses hclauses,
    fun _ _ _ _ _ _ _ _ hsql hwidth hbuckets hx ↦
      holdsNumeral_histogramQuery hsql hwidth hbuckets hx⟩
  rw [← point_mem_floatLiteral_iff h]
  exact ⟨fun hstays ↦ hstays.2.1, fun hpoint ↦ ⟨hnumeral, hpoint, hreads⟩⟩

/-- Minus two and a half stays a float, in a list too. -/
theorem floatLiteral_staysFloat_of_half :
    isFinite (nearest true 5 2) = true ∧ floatLiteral (nearest true 5 2) = "-2.5" ∧
      StaysFloat (floatLiteral (nearest true 5 2)) (nearest true 5 2) ∧
      HoldsNumeral (literalList .postgreSQL [.int 1, .float (nearest true 5 2)] false)
        (floatLiteral (nearest true 5 2)) := by
  have hfinite : isFinite (nearest true 5 2) = true := by decide +kernel
  obtain ⟨hstays, -, -, hlist, -⟩ := floatLiteral_staysFloat_iff hfinite
  refine ⟨hfinite, by decide +kernel, hstays.mpr fun n hn ↦ ?_, hlist _ _ (by simp)⟩
  have hbits : (splitSign (nearest true 5 2)).2 = 4612811918334230528 := by decide +kernel
  have hvalue : exactValue 4612811918334230528 = 5 / 2 := by
    norm_num [exactValue, magnitude]
  rw [hbits, hvalue] at hn
  have hsmall : (n : ℚ) < 10 ^ 15 := by
    rw [← hn]
    norm_num
  exact_mod_cast hsmall

/-- The smallest whole number without a point is taken for an integer. -/
theorem quadrillion_stays_no_float :
    isFinite (ofInt 1000000000000000) = true ∧
      floatLiteral (ofInt 1000000000000000) = "1000000000000000" ∧
      ¬ StaysFloat (floatLiteral (ofInt 1000000000000000)) (ofInt 1000000000000000) := by
  have hliteral : floatLiteral (ofInt 1000000000000000) = "1000000000000000" := by decide +kernel
  refine ⟨by decide +kernel, hliteral, fun hstays ↦ ?_⟩
  have hpoint := hstays.2.1
  rw [hliteral] at hpoint
  exact absurd hpoint (by decide)

end Warehouse

end DataQuality
