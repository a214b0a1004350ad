/-!
# Named formats

Names for regular expressions that columns often need. The patterns keep to bracketed classes, so
that the same text works in the regex operator of every warehouse.
-/

namespace DataQuality

/-- A named regular expression. -/
structure Format where
  name : String
  pattern : String
  deriving DecidableEq, Repr

namespace Format

/-- The formats that valid values can be held to. -/
def validity : List Format :=
  [⟨"number_whole", "^[-+]?[0-9]+$"⟩,
    ⟨"number_decimal_point", "^[-+]?[0-9]*\\.?[0-9]+$"⟩,
    ⟨"number_decimal_comma", "^[-+]?[0-9]*,?[0-9]+$"⟩,
    ⟨"number_percentage", "^[-+]?[0-9]*[.,]?[0-9]+ ?%$"⟩,
    ⟨"number_money_usd", "^[-+]?\\$ ?[0-9]+([,.][0-9]\x7b3\x7d)*([.][0-9]\x7b2\x7d)?$"⟩,
    ⟨"number_money_eur", "^[-+]?[0-9]+([.,][0-9]\x7b3\x7d)*(,[0-9]\x7b2\x7d)? ?€$"⟩,
    ⟨"number_money_gbp", "^[-+]?£ ?[0-9]+([,.][0-9]\x7b3\x7d)*([.][0-9]\x7b2\x7d)?$"⟩,
    ⟨"date_eu", "^([1-9]|0[1-9]|[12][0-9]|3[01])[-./]([1-9]|0[1-9]|1[012])[-./]" ++
      "(19|20)?[0-9][0-9]$"⟩,
    ⟨"date_us", "^([1-9]|0[1-9]|1[012])[-./]([1-9]|0[1-9]|[12][0-9]|3[01])[-./]" ++
      "(19|20)?[0-9][0-9]$"⟩,
    ⟨"date_inverse", "^(19|20)[0-9][0-9][-./]?([1-9]|0[1-9]|1[012])[-./]?" ++
      "([1-9]|0[1-9]|[12][0-9]|3[01])$"⟩,
    ⟨"date_iso8601", "^[0-9]\x7b4\x7d-(0[1-9]|1[012])-(0[1-9]|[12][0-9]|3[01])" ++
      "([T ][0-9]\x7b2\x7d:[0-9]\x7b2\x7d(:[0-9]\x7b2\x7d([.][0-9]+)?)?" ++
      "(Z|[-+][0-9]\x7b2\x7d(:?[0-9]\x7b2\x7d)?)?)?$"⟩,
    ⟨"time", "^([01]?[0-9]|2[0-3]):[0-5][0-9](:[0-5][0-9])?$"⟩,
    ⟨"uuid", "^[0-9a-fA-F]\x7b8\x7d-[0-9a-fA-F]\x7b4\x7d-[0-9a-fA-F]\x7b4\x7d-" ++
      "[0-9a-fA-F]\x7b4\x7d-[0-9a-fA-F]\x7b12\x7d$"⟩,
    ⟨"ip_address", "^(25[0-5]|2[0-4][0-9]|1?[0-9]?[0-9])" ++
      "([.](25[0-5]|2[0-4][0-9]|1?[0-9]?[0-9]))\x7b3\x7d$"⟩,
    ⟨"email", "^[A-Za-z0-9._%+-]+@[A-Za-z0-9.-]+[.][A-Za-z]\x7b2,\x7d$"⟩,
    ⟨"phone_number", "^[+]?[0-9 ()./-]\x7b6,20\x7d$"⟩,
    ⟨"credit_card_number", "^[0-9]\x7b4\x7d[- ]?[0-9]\x7b4\x7d[- ]?[0-9]\x7b4\x7d[- ]?" ++
      "[0-9]\x7b1,7\x7d$"⟩]

/-- The formats that missing values can be recognised by. -/
def missing : List Format := [⟨"empty", "^$"⟩, ⟨"whitespace", "^[[:space:]]*$"⟩]

/-- The pattern of a name in a table of formats; names are exact. -/
def patternIn? (table : List Format) (name : String) : Option String :=
  (table.find? fun f ↦ f.name == name).map Format.pattern

/-- The pattern of a validity format. -/
def validityPattern? (name : String) : Option String := patternIn? validity name

/-- The pattern of a missing-value format. -/
def missingPattern? (name : String) : Option String := patternIn? missing name

end Format

end DataQuality
