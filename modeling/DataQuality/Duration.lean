import DataQuality.Number.Text

/-!
# Durations

Spans of time in whole nanoseconds, and their text in the largest unit that fits.
-/

namespace DataQuality

/-- A span of time. -/
structure Duration where
  nanoseconds : Nat
  deriving DecidableEq, Repr, Inhabited

namespace Duration

/-- Whole milliseconds. -/
def ofMilliseconds (ms : Nat) : Duration := ⟨ms * 1000000⟩

/-- Whole seconds. -/
def ofSeconds (s : Nat) : Duration := ⟨s * 1000000000⟩

/-- The duration in whole milliseconds, rounded down. -/
def toMilliseconds (d : Duration) : Nat := d.nanoseconds / 1000000

/-- A unit that durations are shown in: its name, and the power of ten of nanoseconds in it. -/
structure TimeUnit where
  name : String
  power : Nat

/-- The units from the largest down. -/
def units : List TimeUnit := [⟨"s", 9⟩, ⟨"ms", 6⟩, ⟨"µs", 3⟩, ⟨"ns", 0⟩]

/-- The digits of a fraction of `10^power` behind a point; nothing for zero, no zeros at the end. -/
def fractionText (power fraction : Nat) : List Char :=
  let digits := Nat.toDigits 10 fraction
  let padded := Number.zeros (power - digits.length) ++ digits
  let kept := (padded.reverse.dropWhile (· == '0')).reverse
  if kept.isEmpty then [] else '.' :: kept

/-- The nanoseconds in a unit. -/
def TimeUnit.nanoseconds (u : TimeUnit) : Nat := Nat.pow 10 u.power

/-- The duration in a unit, with its exact decimals. -/
def inUnit (d : Duration) (u : TimeUnit) : String :=
  Number.natText (d.nanoseconds / u.nanoseconds) ++
    String.ofList (fractionText u.power (d.nanoseconds % u.nanoseconds)) ++ u.name

/-- The duration in the largest unit that it holds at least once; nothing at all is `0ns`. -/
def text (d : Duration) : String :=
  match units.find? fun u ↦ u.nanoseconds ≤ d.nanoseconds with
  | some u => d.inUnit u
  | none => "0ns"

end Duration

end DataQuality
