/-!
# Capabilities

The parts of SQL that some warehouses lack.
-/

namespace DataQuality

/-- A part of SQL that a warehouse may lack. -/
inductive Capability where
  | regexMatch
  | percentile
  | variance
  | histogram
  | tableSample
  deriving DecidableEq, Repr

/-- The capability as error messages name it. -/
def Capability.describe : Capability → String
  | .regexMatch => "regex matching"
  | .percentile => "percentiles"
  | .variance => "variance and stddev"
  | .histogram => "histograms"
  | .tableSample => "table sampling"

end DataQuality
