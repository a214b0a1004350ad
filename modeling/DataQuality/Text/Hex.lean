/-!
# Hexadecimal digits

The values of hexadecimal digits, and of numbers in bases up to sixteen.
-/

namespace DataQuality.Text

/-- The value of a hexadecimal digit in either case. -/
def hexValue? (c : Char) : Option Nat :=
  if '0' ≤ c ∧ c ≤ '9' then some (c.toNat - '0'.toNat)
  else if 'a' ≤ c ∧ c ≤ 'f' then some (c.toNat - 'a'.toNat + 10)
  else if 'A' ≤ c ∧ c ≤ 'F' then some (c.toNat - 'A'.toNat + 10)
  else none

/-- The value of a digit in a base. -/
def digitIn? (base : Nat) (c : Char) : Option Nat := (hexValue? c).filter (· < base)

/-- The natural number of digits in a base; there is at least one. -/
def naturalIn? (base : Nat) (cs : List Char) : Option Nat :=
  if cs.isEmpty then none
  else (cs.mapM (digitIn? base)).map fun ds ↦ ds.foldl (fun n d ↦ base * n + d) 0

/-- A digit is below its base. -/
theorem lt_of_digitIn? {base n : Nat} {c : Char} (h : digitIn? base c = some n) : n < base := by
  simp only [digitIn?, Option.filter_eq_some_iff, decide_eq_true_eq] at h
  exact h.2

end DataQuality.Text
