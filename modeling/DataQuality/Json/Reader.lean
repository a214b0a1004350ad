import DataQuality.Json.Number
import DataQuality.Json.Quoted

/-!
# Reading JSON

A strict reader: no text may follow the value, a name comes first in every member, no comma is
superfluous, and collections nest less than 128 deep. It reads as far as it can; where it stops,
the tree has a broken node.
-/

namespace DataQuality.Json

open Text (Read Left)

/-- What a collection leaves of characters behind one of its nodes, once it looks for its end: an
item may be followed by a comma. -/
def afterItem (cs : List Char) : List Char :=
  match skipBlanks cs with
  | ']' :: rest => rest
  | ',' :: rest => skipBlanks rest
  | rest => rest

/-- What a record leaves of characters behind one of its nodes, once it looks for its end. -/
def afterMember (cs : List Char) : List Char :=
  match skipBlanks cs with
  | '\x7d' :: rest => rest
  | rest => rest

/-- The extent of a node between two lists of characters. -/
def extentOf (close : List Char → List Char) (start stop : List Char) : Extent Place :=
  ⟨.before start, .before stop, .before (close stop)⟩

/-- The extent of a node in which reading stopped. -/
def openExtent (start : List Char) : Extent Place := ⟨.before start, .before start, .before start⟩

/-- How deep collections may nest. -/
def deepest : Nat := 127

/-- What is left of characters once something was read. -/
abbrev Rest (cs : List Char) := { rest : List Char // rest.length < cs.length }

/-- The rest of characters, as the rest of more of them. -/
def Rest.widen {cs ds : List Char} (r : Rest cs) (h : cs.length ≤ ds.length) : Rest ds :=
  ⟨r.val, Nat.lt_of_lt_of_le r.property h⟩

/-- What a reader got, and what it left unless it stopped. -/
structure Got (α : Type) (cs : List Char) where
  value : α
  rest? : Option (Rest cs)

namespace Got

variable {α β : Type} {cs ds : List Char}

/-- A reader that stopped. -/
def stopped (value : α) : Got α cs := ⟨value, none⟩

/-- Another value for the same characters. -/
def map (f : α → β) (g : Got α cs) : Got β cs := ⟨f g.value, g.rest?⟩

/-- The same result, read from more characters. -/
def widen (g : Got α cs) (h : cs.length ≤ ds.length) : Got α ds :=
  ⟨g.value, g.rest?.map (·.widen h)⟩

end Got

/-- The node of what a reader of leaves got. -/
def leafOf (close : List Char → List Char) {cs : List Char} :
    Except (Fault Place) (Read Leaf cs) → Got (Node Place) cs
  | .error f => .stopped (.broken f)
  | .ok r => ⟨.leaf (extentOf close cs r.rest) r.value, some ⟨r.rest, r.shorter⟩⟩

/-- Reads the rest of a word. -/
def readWord (word : List Char) (v : Leaf) (cs : List Char) :
    Except (Fault Place) (Left cs) :=
  match word, cs with
  | [], cs => .ok (.all cs)
  | _ :: _, [] => .error (fault "EOF while parsing a value" (.before []))
  | expected :: word, c :: rest =>
    if c = expected then
      (readWord word v rest).map Left.behind
    else .error (fault "expected ident" (.behind (c :: rest)))

/-- Reads a text, a word or a number. -/
def readLeaf (rule : FloatRule) (cs : List Char) : Except (Fault Place) (Read Leaf cs) :=
  let word (w : String) (v : Leaf) (c : Char) (rest : List Char) :
      Except (Fault Place) (Read Leaf (c :: rest)) :=
    (readWord w.toList v rest).map fun r ↦ r.within (Text.length_lt_cons c rest) v
  match cs with
  | '"' :: rest => (readQuoted rest).map fun r ↦ (r.map fun s ↦ .text (String.ofList s)).behind
  | 'n' :: rest => word "ull" .null 'n' rest
  | 't' :: rest => word "rue" (.bool true) 't' rest
  | 'f' :: rest => word "alse" (.bool false) 'f' rest
  | [] => .error (fault "EOF while parsing a value" (.before []))
  | c :: rest =>
    if c = '-' ∨ Text.isDigit c then readNumber rule (c :: rest)
    else .error (fault "expected value" (.behind (c :: rest)))

/-- What comes next in a collection: its end, a fault, or another node before which a comma may
have been left out. -/
inductive Next (cs : List Char) where
  | finish (rest : Rest cs)
  | stop (f : Fault Place)
  | more (rest : Left cs)

theorem length_skip_lt {c : Char} {cs rest : List Char} (h : skipBlanks cs = c :: rest) :
    rest.length < cs.length := Text.length_lt_of_dropWhile h

/-- What comes next in a list. -/
def nextItem (first : Bool) (cs : List Char) : Next cs :=
  match h : skipBlanks cs with
  | [] => .stop (fault "EOF while parsing a list" (.before []))
  | ']' :: rest => .finish ⟨rest, length_skip_lt h⟩
  | c :: rest =>
    if first then .more (.all cs)
    else if c = ',' then
      match skipBlanks rest with
      | [] => .stop (fault "EOF while parsing a value" (.before []))
      | ']' :: more => .stop (fault "trailing comma" (.behind (']' :: more)))
      | _ => .more ⟨rest, Nat.le_of_lt (length_skip_lt h)⟩
    else .stop (fault "expected \x60,\x60 or \x60]\x60" (.behind (c :: rest)))

/-- What comes next in a record: the quote of a name is left out. -/
def nextMember (first : Bool) (cs : List Char) : Next cs :=
  match h : skipBlanks cs with
  | [] => .stop (fault "EOF while parsing an object" (.before []))
  | '\x7d' :: rest => .finish ⟨rest, length_skip_lt h⟩
  | c :: rest =>
    if first then
      if c = '"' then .more ⟨c :: rest, h ▸ length_skipBlanks_le cs⟩
      else .stop (fault "key must be a string" (.behind (c :: rest)))
    else if c = ',' then
      match hr : skipBlanks rest with
      | [] => .stop (fault "EOF while parsing a value" (.before []))
      | '\x7d' :: more => .stop (fault "trailing comma" (.behind ('\x7d' :: more)))
      | d :: more =>
        if d = '"' then
          .more ⟨d :: more, by
            have := length_skipBlanks_le rest
            have := length_skip_lt h
            rw [hr] at *
            omega⟩
        else .stop (fault "key must be a string" (.behind (d :: more)))
    else .stop (fault "expected \x60,\x60 or \x60\x7d\x60" (.behind (c :: rest)))

/-- Reads the colon behind a name. -/
def readColon (cs : List Char) : Except (Fault Place) (Rest cs) :=
  match h : skipBlanks cs with
  | [] => .error (fault "EOF while parsing an object" (.before []))
  | c :: rest =>
    if c = ':' then .ok ⟨rest, length_skip_lt h⟩
    else .error (fault "expected \x60:\x60" (.behind (c :: rest)))

/-- Reads the name of a member. -/
def readName (cs : List Char) : Except (Fault Place) (Read String cs) :=
  match cs with
  | '"' :: rest => (readQuoted rest).map fun r ↦ (r.map String.ofList).behind
  | cs => .error (fault "key must be a string" (.behind cs))

mutual

/-- Reads a value, blanks in front of it left out; `depth` more collections may nest. -/
def readValue (rule : FloatRule) (close : List Char → List Char) (depth : Nat) (cs : List Char) :
    Got (Node Place) cs :=
  match h : skipBlanks cs with
  | '[' :: rest =>
    have := length_skip_lt h
    match depth with
    | 0 => .stopped (.broken (fault "recursion limit exceeded" (.behind ('[' :: rest))))
    | depth + 1 =>
      let g := readItems rule true depth rest
      match g.rest? with
      | none => .stopped (.list (openExtent ('[' :: rest)) g.value)
      | some r =>
        ⟨.list (extentOf close ('[' :: rest) r.val) g.value, some (r.widen (Nat.le_of_lt this))⟩
  | '\x7b' :: rest =>
    have := length_skip_lt h
    match depth with
    | 0 => .stopped (.broken (fault "recursion limit exceeded" (.behind ('\x7b' :: rest))))
    | depth + 1 =>
      let g := readMembers rule true depth rest
      match g.rest? with
      | none => .stopped (.record (openExtent ('\x7b' :: rest)) g.value)
      | some r =>
        ⟨.record (extentOf close ('\x7b' :: rest) r.val) g.value,
          some (r.widen (Nat.le_of_lt this))⟩
  | ds => (leafOf close (readLeaf rule ds)).widen (h ▸ length_skipBlanks_le cs)
termination_by 2 * cs.length
decreasing_by all_goals omega

/-- Reads the items of a list and its closing bracket. -/
def readItems (rule : FloatRule) (first : Bool) (depth : Nat) (cs : List Char) :
    Got (List (Node Place)) cs :=
  match nextItem first cs with
  | .finish rest => ⟨[], some rest⟩
  | .stop f => .stopped [.broken f]
  | .more ds =>
    have := ds.property
    let item := readValue rule afterItem depth ds.val
    match item.rest? with
    | none => .stopped [item.value]
    | some r =>
      have := r.property
      ((readItems rule false depth r.val).map (item.value :: ·)).widen (by omega)
termination_by 2 * cs.length + 1
decreasing_by all_goals omega

/-- Reads the members of a record and its closing brace. -/
def readMembers (rule : FloatRule) (first : Bool) (depth : Nat) (cs : List Char) :
    Got (List (Node Place × Node Place)) cs :=
  match nextMember first cs with
  | .finish rest => ⟨[], some rest⟩
  | .stop f => .stopped [(.broken f, .broken f)]
  | .more ds =>
    have := ds.property
    match readName ds.val with
    | .error f => .stopped [(.broken f, .broken f)]
    | .ok name =>
      have := name.shorter
      let key := Node.leaf (extentOf afterMember ds.val name.rest) (.text name.value)
      match readColon name.rest with
      | .error f => .stopped [(key, .broken f)]
      | .ok colon =>
        have := colon.property
        let value := readValue rule afterMember depth colon.val
        match value.rest? with
        | none => .stopped [(key, value.value)]
        | some r =>
          have := r.property
          ((readMembers rule false depth r.val).map ((key, value.value) :: ·)).widen (by omega)
termination_by 2 * cs.length + 1
decreasing_by all_goals omega

end

/-- Reads a whole text as one value. -/
def read (rule : FloatRule) (source : String) : Document Place :=
  let g := readValue rule id deepest source.toList
  match g.rest? with
  | none => ⟨g.value, none⟩
  | some r =>
    match skipBlanks r.val with
    | [] => ⟨g.value, none⟩
    | rest => ⟨g.value, some (fault "trailing characters" (.behind rest))⟩

/-- Reads a whole text as one value, or not at all. -/
def parse? (source : String) : Option Json :=
  let d := read .scaled source
  match d.tail with
  | some _ => none
  | none => d.root.toJson?

end DataQuality.Json
