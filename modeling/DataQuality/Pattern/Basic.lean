/-!
# Regular expressions

Trees of regular expressions, as far as their form goes: what they are made of, not how they are
matched.
-/

namespace DataQuality

/-- A property of characters: one that a character has or has not, a kind of character or a script
by name, or one with a value. Names are in small letters without blanks and dashes. -/
inductive CharProperty where
  | named (name : String)
  | valued (name value : String)
  deriving DecidableEq, Repr

/-- A set of characters that has a name: the letter of an escape, a word in brackets, or a
property. -/
inductive CharClass where
  | escape (letter : Char)
  | word (name : String)
  | property (p : CharProperty)
  deriving DecidableEq, Repr

/-- A set of characters, as a bracketed class or an escape describes it. -/
inductive CharSet where
  | empty
  | range (first last : Char)
  | named (name : CharClass)
  | union (a b : CharSet)
  | intersection (a b : CharSet)
  | difference (a b : CharSet)
  | symmetricDifference (a b : CharSet)
  | complement (a : CharSet)
  | bracketed (a : CharSet)
  deriving DecidableEq, Repr

namespace CharSet

/-- The set of one character. -/
def ofChar (c : Char) : CharSet := .range c c

/-- The sets taken together. -/
def ofItems : List CharSet → CharSet
  | [] => empty
  | [a] => a
  | a :: rest => union a (ofItems rest)

/-- The set, or all characters that are not in it. -/
def negatedIf (negated : Bool) (a : CharSet) : CharSet := if negated then complement a else a

end CharSet

/-- A regular expression. Flags hold for the items that follow them in the same group, and those of
a group for all that is in it. -/
inductive Pattern where
  | empty
  | char (c : Char)
  | any
  | oneOf (set : CharSet)
  | assertion (name : String)
  | flags (text : String)
  | sequence (a b : Pattern)
  | choice (a b : Pattern)
  | repeated (a : Pattern) (least : Nat) (most : Option Nat)
  | group (flags : String) (a : Pattern)
  deriving DecidableEq, Repr

namespace Pattern

/-- The items one after the other. -/
def ofItems : List Pattern → Pattern
  | [] => empty
  | [a] => a
  | a :: rest => sequence a (ofItems rest)

/-- Any one of the alternatives. -/
def ofChoices : List Pattern → Pattern
  | [] => empty
  | [a] => a
  | a :: rest => choice a (ofChoices rest)

end Pattern

end DataQuality
