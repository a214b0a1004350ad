import DataQuality.Json.Basic
import DataQuality.Yaml.Scalar

/-!
# Document nodes

What a scan document says, before it is known to describe a scan. A document is a tree of nodes
whichever notation it is in; each node knows its place, and a text that cannot be read further
leaves the tree with a broken node where reading stopped. What was read up to there still counts,
so the first flaw of a document is found by going through its nodes in order.
-/

namespace DataQuality

/-- Where a node stands: where it begins, where it ends, and what a reader has come to that looks
behind it for the end of the collection around it. -/
structure Extent (P : Type) where
  start : P
  stop : P
  after : P
  deriving Inhabited

/-- Why a text cannot be read further, and perhaps what was being read. -/
structure Fault (P : Type) where
  problem : String
  place : P
  context : Option (String × P)
  deriving Inhabited

/-- A single value of a document. -/
inductive Leaf where
  | null
  | bool (b : Bool)
  | int (i : Int)
  | float (x : Float)
  | text (s : String)
  | scalar (s : Yaml.Scalar)
  deriving Inhabited

/-- A part of a document. -/
inductive Node (P : Type) where
  | leaf (extent : Extent P) (value : Leaf)
  | list (extent : Extent P) (items : List (Node P))
  | record (extent : Extent P) (members : List (Node P × Node P))
  | broken (fault : Fault P)

/-- A document: its only node, and why nothing else may be there if something is. -/
structure Document (P : Type) where
  root : Node P
  tail : Option (Fault P)

/-- What a leaf turned out to be. -/
def Leaf.found : Leaf → Except Flaw Found
  | null => .ok .nothing
  | bool b => .ok (.truth b)
  | int i => .ok (.integer i)
  | float x => .ok (.float x)
  | text s => .ok (.text s)
  | scalar s => s.found

/-- The leaf as a text; a scalar is one whatever it looks like. -/
def Leaf.asText? : Leaf → Option String
  | text s => some s
  | scalar s => some s.text
  | _ => none

/-- The leaf as a float; integers count. -/
def Leaf.asFloat? : Leaf → Option Float
  | int i => some (Number.ofInt i)
  | float x => some x
  | scalar s => if s.mayBe Yaml.Tag.float then Yaml.Scalar.wordFloat? s.text else none
  | _ => none

/-- The leaf as an integer where a natural number is expected. -/
def Leaf.asCount? : Leaf → Option Int
  | int i => some i
  | scalar s =>
    if s.mayBe Yaml.Tag.int then
      (Yaml.Scalar.wordNatural? s.text).bind fun n ↦
        if Yaml.Scalar.fitsWord n then some (n : Int) else none
    else none
  | _ => none

/-- Whether the leaf leaves out an optional value. -/
def Leaf.isAbsent : Leaf → Except Flaw Bool
  | null => .ok true
  | scalar s => s.isAbsent
  | _ => .ok false

/-- Whether the leaf is a collection of which nothing was written. -/
def Leaf.isVoid : Leaf → Bool
  | scalar s => s.isVoid
  | _ => false

namespace Node

variable {P : Type}

instance [Inhabited P] : Inhabited (Node P) := ⟨.broken default⟩

/-- The extent of a node; a broken one is where reading stopped. -/
def extent : Node P → Extent P
  | leaf e _ | list e _ | record e _ => e
  | broken f => ⟨f.place, f.place, f.place⟩

/-- The place that reading has come to when the form of a node is known. -/
def reached : Node P → P
  | leaf e _ => e.stop
  | list e _ | record e _ => e.start
  | broken f => f.place

/-- What a node turned out to be. -/
def found : Node P → Except Flaw Found
  | leaf _ v => v.found
  | list _ _ => .ok .list
  | record _ _ => .ok .record
  | broken _ => .ok .nothing

mutual

/-- The first fault in a node. -/
def fault? : Node P → Option (Fault P)
  | leaf _ _ => none
  | list _ items => faultOfItems? items
  | record _ members => faultOfMembers? members
  | broken f => some f

/-- The first fault in the items of a list. -/
def faultOfItems? : List (Node P) → Option (Fault P)
  | [] => none
  | item :: rest => (fault? item).orElse fun _ ↦ faultOfItems? rest

/-- The first fault in the members of a record. -/
def faultOfMembers? : List (Node P × Node P) → Option (Fault P)
  | [] => none
  | (key, value) :: rest =>
    ((fault? key).orElse fun _ ↦ fault? value).orElse fun _ ↦ faultOfMembers? rest

end

mutual

/-- The node of a JSON value, which stands nowhere. -/
def ofJson : Json → Node Unit
  | .null => .leaf ⟨(), (), ()⟩ .null
  | .bool b => .leaf ⟨(), (), ()⟩ (.bool b)
  | .int i => .leaf ⟨(), (), ()⟩ (.int i)
  | .float x => .leaf ⟨(), (), ()⟩ (.float x)
  | .text s => .leaf ⟨(), (), ()⟩ (.text s)
  | .list items => .list ⟨(), (), ()⟩ (ofItems items)
  | .object members => .record ⟨(), (), ()⟩ (ofMembers members)

/-- The nodes of the items of a list. -/
def ofItems : List Json → List (Node Unit)
  | [] => []
  | item :: items => ofJson item :: ofItems items

/-- The nodes of the members of an object. -/
def ofMembers : List (String × Json) → List (Node Unit × Node Unit)
  | [] => []
  | (name, value) :: members =>
    (.leaf ⟨(), (), ()⟩ (.text name), ofJson value) :: ofMembers members

end

/-- The JSON value of a leaf. -/
def jsonOfLeaf? : Leaf → Option Json
  | .null => some .null
  | .bool b => some (.bool b)
  | .int i => some (.int i)
  | .float x => some (.float x)
  | .text s => some (.text s)
  | .scalar _ => none

mutual

/-- The JSON value that a node says, if it is whole. -/
def toJson? : Node P → Option Json
  | leaf _ v => jsonOfLeaf? v
  | list _ items => (toItems? items).map .list
  | record _ members => (toMembers? members).map .object
  | broken _ => none

/-- The JSON values of the items of a list. -/
def toItems? : List (Node P) → Option (List Json)
  | [] => some []
  | item :: rest => (toJson? item).bind fun v ↦ (toItems? rest).map (v :: ·)

/-- The members of an object. -/
def toMembers? : List (Node P × Node P) → Option (List (String × Json))
  | [] => some []
  | (leaf _ (.text name), value) :: rest =>
    (toJson? value).bind fun v ↦ (toMembers? rest).map ((name, v) :: ·)
  | _ => none

end

end Node

end DataQuality
