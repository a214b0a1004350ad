import DataQuality.Pattern.Reader

/-!
# Limits of regular expressions

A regular expression may not nest too deep nor take too much room once it is made ready for
matching. Room is counted as if every repetition were written out; what a set of characters takes
depends on how its characters are spread, and is known roughly only.
-/

namespace DataQuality

namespace CharSet

mutual

/-- How deep sets nest inside one another. -/
def nesting : CharSet → Nat
  | empty | range _ _ | named _ => 0
  | union a b => Nat.max a.nesting b.tailNesting + 1
  | intersection a b | difference a b | symmetricDifference a b =>
    Nat.max a.nesting b.nesting + 1
  | complement a => a.nesting
  | bracketed a => a.nesting + 1

/-- How deep the rest of sets taken together nest. -/
def tailNesting : CharSet → Nat
  | union a b => Nat.max a.nesting b.tailNesting
  | empty | range _ _ | named _ => 0
  | intersection a b | difference a b | symmetricDifference a b =>
    Nat.max a.nesting b.nesting + 1
  | complement a => a.nesting
  | bracketed a => a.nesting + 1

end

/-- The room that a named class takes: letters are spread over all scripts. -/
def classRoom : CharClass → Nat
  | .escape 'w' => 46000
  | .escape 'd' => 4500
  | .escape _ => 900
  | .word _ => 40
  | .property _ => 20000

/-- The room that the parts of a set take. -/
def room : CharSet → Nat
  | empty => 32
  | range a b => if b.toNat < 0x80 then 8 else 8 * b.utf8Size * (b.utf8Size - a.utf8Size + 2)
  | named c => classRoom c
  | union a b => a.room + b.room
  | intersection a b => Nat.min a.room b.room
  | difference a _ => a.room
  | symmetricDifference a b => a.room + b.room
  | complement a => a.room + 200
  | bracketed a => a.room

end CharSet

namespace Pattern

mutual

/-- How deep a pattern nests: groups, repetitions, classes, and items or alternatives of which there
are several. -/
def nesting : Pattern → Nat
  | empty | char _ | any | assertion _ | flags _ => 0
  | oneOf s => s.nesting
  | sequence a b => Nat.max a.nesting b.itemNesting + 1
  | choice a b => Nat.max a.nesting b.choiceNesting + 1
  | repeated a _ _ => a.nesting + 1
  | group _ a => a.nesting + 1

/-- How deep the rest of the items nest. -/
def itemNesting : Pattern → Nat
  | sequence a b => Nat.max a.nesting b.itemNesting
  | empty | char _ | any | assertion _ | flags _ => 0
  | oneOf s => s.nesting
  | choice a b => Nat.max a.nesting b.choiceNesting + 1
  | repeated a _ _ => a.nesting + 1
  | group _ a => a.nesting + 1

/-- How deep the rest of the alternatives nest. -/
def choiceNesting : Pattern → Nat
  | choice a b => Nat.max a.nesting b.choiceNesting
  | empty | char _ | any | assertion _ | flags _ => 0
  | oneOf s => s.nesting
  | sequence a b => Nat.max a.nesting b.itemNesting + 1
  | repeated a _ _ => a.nesting + 1
  | group _ a => a.nesting + 1

end

/-- How deep a pattern may nest. -/
def deepest : Nat := 250

/-- The room that one state takes. -/
def stateRoom : Nat := 32

/-- The room that a pattern takes, every repetition written out. -/
def room : Pattern → Nat
  | empty => stateRoom
  | char c => stateRoom * c.utf8Size
  | any => 400
  | oneOf s => stateRoom + s.room
  | assertion _ => stateRoom
  | flags _ => 0
  | sequence a b => a.room + b.room
  | choice a b => a.room + b.room + 2 * stateRoom
  | repeated a least none => Nat.max 1 least * a.room + 2 * stateRoom
  | repeated a least (some most) =>
    least * a.room + (most - least) * (a.room + stateRoom + 8) + stateRoom
  | group _ a => a.room + 2 * stateRoom

/-- How much room a pattern may take. -/
def largest : Nat := 10 * Nat.pow 2 20

/-- Whether a text is a regular expression within the limits. -/
def isValid (source : String) : Bool :=
  (parse? source).any fun p ↦ p.nesting ≤ deepest && p.room ≤ largest

end Pattern

end DataQuality
