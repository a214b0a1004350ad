import DataQuality.Text.Case

/-!
# Folding and lower case

Names of columns are compared by folding ASCII letters in one place and looked up in lower case in
another. The second sees no difference between names that the first holds for the same, and the two
agree on names in ASCII. A name in lower case stays as it is, so it is its own key.
-/

namespace DataQuality.Text

/-- A property of characters that capital and small ASCII letters share does not change by
folding. -/
private theorem apply_foldAscii {α : Type} {f : Char → α}
    (h : ∀ n < 26, f (Char.ofNat (0x61 + n)) = f (Char.ofNat (0x41 + n))) (c : Char) :
    f (foldAscii c) = f c := by
  unfold foldAscii
  split
  · next hcapital =>
    simp only [Bool.and_eq_true, decide_eq_true_eq, Char.le_def] at hcapital
    obtain ⟨hfirst, hlast⟩ := hcapital
    have hlow : 0x41 ≤ c.toNat := hfirst
    have hhigh : c.toNat ≤ 0x5A := hlast
    have hletter := h (c.toNat - 0x41) (by omega)
    have hsmall : 0x61 + (c.toNat - 0x41) = c.toNat + 32 := by omega
    have hself : 0x41 + (c.toNat - 0x41) = c.toNat := by omega
    rw [hsmall, hself, Char.ofNat_toNat] at hletter
    exact hletter
  · rfl

@[simp] theorem isCased_foldAscii (c : Char) : isCased (foldAscii c) = isCased c :=
  apply_foldAscii (by decide) c

@[simp] theorem isCaseIgnorable_foldAscii (c : Char) :
    isCaseIgnorable (foldAscii c) = isCaseIgnorable c :=
  apply_foldAscii (by decide +kernel) c

@[simp] theorem lowerChar_foldAscii (c : Char) : lowerChar (foldAscii c) = lowerChar c :=
  apply_foldAscii (by decide) c

/-- Folding makes no capital sigma and unmakes none. -/
theorem foldAscii_eq_capitalSigma (c : Char) :
    decide (foldAscii c = capitalSigma) = decide (c = capitalSigma) :=
  apply_foldAscii (f := fun c ↦ decide (c = capitalSigma)) (by decide) c

/-- Which characters come next is the same question after folding. -/
theorem reachesCased_map_foldAscii (cs : List Char) :
    reachesCased (cs.map foldAscii) = reachesCased cs := by
  have hskip : isCaseIgnorable ∘ foldAscii = isCaseIgnorable :=
    funext isCaseIgnorable_foldAscii
  unfold reachesCased
  rw [List.dropWhile_map, hskip]
  cases cs.dropWhile isCaseIgnorable with
  | nil => rfl
  | cons c rest => exact isCased_foldAscii c

/-- Lowercase forms do not depend on the case of ASCII letters, nor of those passed before. -/
theorem lowerFrom_map_foldAscii (before cs : List Char) :
    lowerFrom (before.map foldAscii) (cs.map foldAscii) = lowerFrom before cs := by
  induction cs generalizing before with
  | nil => rfl
  | cons c rest ih =>
    have hrest := ih (c :: before)
    rw [List.map_cons] at hrest
    have hsigma : foldAscii c = capitalSigma ↔ c = capitalSigma := by
      simpa using foldAscii_eq_capitalSigma c
    rw [List.map_cons, lowerFrom, lowerFrom, hrest, reachesCased_map_foldAscii,
      reachesCased_map_foldAscii, lowerChar_foldAscii]
    simp only [hsigma]

/-- Names that agree up to the case of ASCII letters have the same lowercase form. -/
theorem lower_eq_of_eqFoldingAscii {a b : String} (h : eqFoldingAscii a b = true) :
    lower a = lower b := by
  have hfolded : a.toList.map foldAscii = b.toList.map foldAscii := by
    simpa [eqFoldingAscii] using h
  unfold lower lowerChars
  rw [← lowerFrom_map_foldAscii [] a.toList, hfolded, lowerFrom_map_foldAscii]

/-! ### Lower case is settled -/

/-- The code points of a run. -/
def CaseShift.codes (s : CaseShift) : List Nat :=
  List.range' s.first ((s.last - s.first) / s.stride + 1) s.stride

theorem CaseShift.mem_codes_of_covers {s : CaseShift} {code : Nat} (h : s.covers code) :
    code ∈ s.codes := by
  simp only [covers, Bool.and_eq_true, decide_eq_true_eq, beq_iff_eq] at h
  obtain ⟨⟨hfirst, hlast⟩, hstride⟩ := h
  have hindex : (code - s.first) / s.stride ≤ (s.last - s.first) / s.stride :=
    Nat.div_le_div_right (by omega)
  have hcode := Nat.div_add_mod (code - s.first) s.stride
  exact List.mem_range'.mpr ⟨(code - s.first) / s.stride, by omega, by omega⟩

/-- The code points with another lowercase form, run by run. -/
def changedCodes : List (List Nat) :=
  lowerExpansions.map Prod.fst :: lowerShifts.map CaseShift.codes

/-- Code points as the bits of a number, of which any one is found at once. -/
def codeBits (codes : List Nat) : Nat := codes.foldr (fun code bits ↦ 1 <<< code ||| bits) 0

/-- The code points of all runs as the bits of a number. -/
def runBits (runs : List (List Nat)) : Nat :=
  runs.foldr (fun codes bits ↦ codeBits codes ||| bits) 0

theorem testBit_codeBits {codes : List Nat} {code : Nat} (h : code ∈ codes) :
    (codeBits codes).testBit code = true := by
  induction codes with
  | nil => cases h
  | cons first rest ih =>
    rw [codeBits, List.foldr_cons, Nat.testBit_or, Bool.or_eq_true]
    rcases List.mem_cons.mp h with rfl | hrest
    · left
      rw [Nat.one_shiftLeft, Nat.testBit_two_pow_self]
    · exact .inr (ih hrest)

theorem testBit_runBits {runs : List (List Nat)} {codes : List Nat} (hcodes : codes ∈ runs)
    {code : Nat} (h : code ∈ codes) : (runBits runs).testBit code = true := by
  induction runs with
  | nil => cases hcodes
  | cons first rest ih =>
    rw [runBits, List.foldr_cons, Nat.testBit_or, Bool.or_eq_true]
    rcases List.mem_cons.mp hcodes with rfl | hrest
    · exact .inl (testBit_codeBits h)
    · exact .inr (ih hrest)

/-- A character stands in lower case, whatever its neighbours. -/
def Settled (c : Char) : Prop := c ≠ capitalSigma ∧ lowerChar c = [c]

/-- No character has another lowercase form but those of the tables. -/
theorem settled_of_testBit {c : Char} (h : (runBits changedCodes).testBit c.toNat = false) :
    Settled c := by
  have hchanged : ∀ codes ∈ changedCodes, c.toNat ∉ codes := by
    intro codes hcodes hmem
    rw [testBit_runBits hcodes hmem] at h
    cases h
  obtain ⟨hexpansions, hshifts⟩ := List.forall_mem_cons.mp hchanged
  have hexpansion : lowerExpansions.lookup c.toNat = none := by
    rw [List.lookup_eq_none_iff]
    intro e he
    simpa using fun heq : c.toNat = e.1 ↦ hexpansions (heq ▸ List.mem_map_of_mem he)
  have hshift : lowerShifts.find? (·.covers c.toNat) = none :=
    List.find?_eq_none.mpr fun s hs hcovers ↦
      hshifts s.codes (List.mem_map_of_mem hs) (CaseShift.mem_codes_of_covers hcovers)
  constructor
  · rintro rfl
    revert h
    decide +kernel
  · rw [lowerChar, mapCase, hexpansion, hshift]

/-- The tables map to characters that they do not map themselves. -/
theorem settled_of_mem_tables :
    (∀ e ∈ lowerExpansions, ∀ code ∈ e.2, Settled (Char.ofNat code)) ∧
      ∀ s ∈ lowerShifts, ∀ code ∈ s.codes, Settled (Char.ofNat (code + s.delta).toNat) := by
  let images := lowerExpansions.flatMap Prod.snd ++
    lowerShifts.flatMap fun s ↦ s.codes.map fun code : Nat ↦ (code + s.delta).toNat
  have himages : (images.all fun code ↦
      !(runBits changedCodes).testBit (Char.ofNat code).toNat) = true := by
    decide +kernel
  have hsettled : ∀ code ∈ images, Settled (Char.ofNat code) := by
    intro code hcode
    exact settled_of_testBit (by simpa using List.all_eq_true.mp himages code hcode)
  constructor
  · exact fun e he code hcode ↦
      hsettled code (List.mem_append_left _ (List.mem_flatMap.mpr ⟨e, he, hcode⟩))
  · exact fun s hs code hcode ↦ hsettled _ (List.mem_append_right _
      (List.mem_flatMap.mpr ⟨s, hs, List.mem_map_of_mem hcode⟩))

/-- The lowercase form of a character consists of characters that stand in lower case. -/
theorem settled_of_mem_lowerChar {c d : Char} (hc : c ≠ capitalSigma) (h : d ∈ lowerChar c) :
    Settled d := by
  unfold lowerChar mapCase at h
  split at h
  · next codes hcodes =>
    obtain ⟨code, hcode, rfl⟩ := List.mem_map.mp h
    obtain ⟨before, after, hsplit, -⟩ := List.lookup_eq_some_iff.mp hcodes
    exact settled_of_mem_tables.1 (c.toNat, codes) (by simp [hsplit]) code hcode
  · next hexpansion =>
    split at h
    · next s hs =>
      obtain rfl := List.mem_singleton.mp h
      have hcovers : s.covers c.toNat := by simpa using List.find?_some hs
      exact settled_of_mem_tables.2 s (List.mem_of_find?_eq_some hs) _
        (CaseShift.mem_codes_of_covers hcovers)
    · next hshift =>
      obtain rfl := List.mem_singleton.mp h
      exact ⟨hc, by rw [lowerChar, mapCase, hexpansion, hshift]⟩

theorem settled_smallSigma : Settled 'σ' :=
  settled_of_testBit (by decide +kernel)

theorem settled_finalSigma : Settled 'ς' :=
  settled_of_testBit (by decide +kernel)

theorem settled_of_mem_lowerFrom {before cs : List Char} {d : Char}
    (h : d ∈ lowerFrom before cs) : Settled d := by
  induction cs generalizing before with
  | nil => cases h
  | cons c rest ih =>
    rw [lowerFrom] at h
    rcases List.mem_append.mp h with hfirst | hrest
    · split at hfirst
      · obtain rfl := List.mem_singleton.mp hfirst
        split
        · exact settled_finalSigma
        · exact settled_smallSigma
      · next hc => exact settled_of_mem_lowerChar hc hfirst
    · exact ih hrest

/-- What stands in lower case stays, whatever comes before. -/
theorem lowerFrom_of_settled (before : List Char) {cs : List Char} (h : ∀ c ∈ cs, Settled c) :
    lowerFrom before cs = cs := by
  induction cs generalizing before with
  | nil => rfl
  | cons c rest ih =>
    obtain ⟨⟨hc, hlower⟩, hrest⟩ := List.forall_mem_cons.mp h
    rw [lowerFrom, if_neg hc, hlower, ih _ hrest]
    rfl

/-- A text whose characters stay stays as it is. -/
theorem lower_of_settled {s : String} (h : ∀ c ∈ s.toList, Settled c) : lower s = s := by
  rw [lower, lowerChars, lowerFrom_of_settled [] h, String.ofList_toList]

/-- A text in lower case stays as it is. -/
@[simp] theorem lower_lower (s : String) : lower (lower s) = lower s := by
  refine lower_of_settled fun c hc ↦ ?_
  rw [lower, String.toList_ofList] at hc
  exact settled_of_mem_lowerFrom hc

/-- A text in ASCII without capital letters stays as it is. -/
theorem lower_of_ascii {s : String}
    (h : (s.toList.all fun c ↦ c.toNat < 0x80 && (c.toNat < 0x41 || 0x5A < c.toNat)) = true) :
    lower s = s := by
  have hunchanged : ∀ n < 0x80, n < 0x41 ∨ 0x5A < n →
      (runBits changedCodes).testBit n = false := by
    decide +kernel
  refine lower_of_settled fun c hc ↦ ?_
  have hsmall : c.toNat < 0x80 ∧ (c.toNat < 0x41 ∨ 0x5A < c.toNat) := by
    simpa using List.all_eq_true.mp h c hc
  exact settled_of_testBit (hunchanged c.toNat hsmall.1 hsmall.2)

/-- Of ASCII letters only the case differs in the lowercase form. -/
theorem eqFoldingAscii_lower {s : String} (h : ∀ c ∈ s.toList, c.toNat < 0x80) :
    eqFoldingAscii s (lower s) = true := by
  have hchar : ∀ n < 0x80,
      (runBits changedCodes).testBit (foldAscii (Char.ofNat n)).toNat = false ∧
      foldAscii (foldAscii (Char.ofNat n)) = foldAscii (Char.ofNat n) ∧
      Char.ofNat n ≠ capitalSigma := by
    decide +kernel
  have hfrom : ∀ (before cs : List Char), (∀ c ∈ cs, c.toNat < 0x80) →
      (lowerFrom before cs).map foldAscii = cs.map foldAscii := by
    intro before cs hcs
    induction cs generalizing before with
    | nil => rfl
    | cons c rest ih =>
      obtain ⟨hc, hrest⟩ := List.forall_mem_cons.mp hcs
      have hfirst := hchar c.toNat hc
      rw [Char.ofNat_toNat] at hfirst
      obtain ⟨hbit, hfold, hsigma⟩ := hfirst
      have hlower : lowerChar c = [foldAscii c] :=
        (lowerChar_foldAscii c).symm.trans (settled_of_testBit hbit).2
      rw [lowerFrom, if_neg hsigma, hlower, List.map_append, ih _ hrest]
      simp [hfold]
  simp [eqFoldingAscii, lower, lowerChars, hfrom [] s.toList h]

end DataQuality.Text
