import DataQuality.Document.Node

/-!
# Decoding records

A record is decoded member by member in the order of the document: an unknown or repeated name, a
value of the wrong form and the end of what could be read are errors where they stand, and required
fields are looked for at the end. Where the notation allows it, a record may also be written as the
list of its fields.
-/

namespace DataQuality

/-- A step from a collection to a node in it. -/
inductive PathStep where
  | member (name : String)
  | item (index : Nat)
  | nameless
  deriving DecidableEq, Repr, Inhabited

/-- Why a document does not describe what it should. A flaw has two places: where the flawed node
begins, and what reading has come to when the flaw is known. One without a place of its own stands
for the collection around it. -/
inductive DocumentError (P : Type) where
  | malformed (fault : Fault P)
  | unplaced (flaw : Flaw)
  | placed (flaw : Flaw) (path : List PathStep) (begins reached : P)
  deriving Inhabited

namespace DocumentError

variable {P : Type}

/-- The error as the collection around the node sees it, which begins and is read as far as
given. -/
def within (step : PathStep) (begins reached : P) : DocumentError P → DocumentError P
  | malformed f => malformed f
  | unplaced flaw => placed flaw [] begins reached
  | placed flaw path b r => placed flaw (step :: path) b r

/-- The flaw, unless the text itself is malformed. -/
def flaw? : DocumentError P → Option Flaw
  | malformed _ => none
  | unplaced flaw | placed flaw _ _ _ => some flaw

end DocumentError

/-- Decodes a node. -/
abbrev Decoder (P α : Type) := Node P → Except (DocumentError P) α

namespace Node

variable {P α : Type}

/-- The error of a node that has a flaw. -/
def flawed (n : Node P) (flaw : Flaw) : DocumentError P := .placed flaw [] n.extent.start n.reached

/-- The error of a node that is not what is expected. -/
def mismatch (expected : String) : Node P → DocumentError P
  | broken f => .malformed f
  | n =>
    match n.found with
    | .ok found => n.flawed (.wrongType found expected)
    | .error flaw => n.flawed flaw

/-- The items of a list; what was left empty is an empty one. -/
def asList : Node P → Except (DocumentError P) (List (Node P))
  | list _ items => .ok items
  | leaf e v => if v.isVoid then .ok [] else .error ((leaf e v).mismatch "a sequence")
  | n => .error (n.mismatch "a sequence")

/-- The members of a record; what was left empty has none. -/
def asMembers (expected : String) : Node P → Except (DocumentError P) (List (Node P × Node P))
  | record _ members => .ok members
  | leaf e v => if v.isVoid then .ok [] else .error ((leaf e v).mismatch expected)
  | n => .error (n.mismatch expected)

/-- The text of a node. -/
def asText (expected : String) : Node P → Except (DocumentError P) String
  | leaf e v =>
    match v.asText? with
    | some s => .ok s
    | none => .error ((leaf e v).mismatch expected)
  | n => .error (n.mismatch expected)

/-- The step to the value of a key. -/
def step : Node P → PathStep
  | leaf _ v => (v.asText?.map .member).getD .nameless
  | _ => .nameless

end Node

namespace Decoder

variable {P α : Type}

/-- A text. -/
def text : Decoder P String := Node.asText "a string"

/-- A float. -/
def float : Decoder P Float
  | .leaf e v =>
    match v.asFloat? with
    | some x => .ok x
    | none => .error ((Node.leaf e v).mismatch "f64")
  | n => .error (n.mismatch "f64")

/-- A 32-bit natural number. -/
def word32 : Decoder P UInt32
  | .leaf e v =>
    match v.asCount? with
    | some i =>
      if 0 ≤ i ∧ i < UInt32.size then .ok (UInt32.ofNat i.toNat)
      else .error ((Node.leaf e v).flawed (.wrongValue (.integer i) "u32"))
    | none => .error ((Node.leaf e v).mismatch "u32")
  | n => .error (n.mismatch "u32")

/-- A value that may be left out. -/
def optional (decode : Decoder P α) : Decoder P (Option α)
  | .leaf e v =>
    match v.isAbsent with
    | .error flaw => .error (.unplaced flaw)
    | .ok true => .ok none
    | .ok false => (decode (.leaf e v)).map some
  | n => (decode n).map some

/-- Decodes the items of a list in the given extent, the first of which has the given index. -/
def items (decode : Decoder P α) (e : Extent P) (index : Nat) :
    List (Node P) → Except (DocumentError P) (List α)
  | [] => .ok []
  | item :: rest =>
    ((decode item).mapError (·.within (.item index) e.start item.extent.after)).bind fun a ↦
      (items decode e (index + 1) rest).map (a :: ·)

/-- A list. -/
def list (decode : Decoder P α) : Decoder P (List α) := fun n ↦
  n.asList.bind (items decode n.extent 0)

/-- Decodes a chosen name. -/
def choice (choices : List (String × α)) (n : Node P) (name : String) :
    Except (DocumentError P) α :=
  match choices.lookup name with
  | some a => .ok a
  | none => .error (n.flawed (.unknownChoice name (choices.map Prod.fst)))

/-- One of several names. It may also be given as the only member of a record or as the tag of a
scalar, if nothing is the value. -/
def oneOf (choices : List (String × α)) : Decoder P α
  | .leaf e (.text s) => choice choices (.leaf e (.text s)) s
  | .leaf e (.scalar s) =>
    match Yaml.Tag.localName? s.tag with
    | none => choice choices (.leaf e (.scalar s)) s.text
    | some name =>
      (choice choices (.leaf e (.scalar s)) name).bind fun a ↦
        if (Yaml.Scalar.isAbsent { s with tag := none }) matches .ok true then .ok a
        else .error ((Node.leaf e (.scalar { s with tag := none })).mismatch "unit")
  | .record e ((key, value) :: others) =>
    match key with
    | .leaf k (.text name) =>
      (choice choices (.leaf k (.text name)) name).bind fun a ↦
        match value, others with
        | .leaf _ .null, [] => .ok a
        | .leaf v .null, _ :: _ => .error (.placed .furtherMember [] v.start v.after)
        | value, _ => .error (value.mismatch "unit")
    | .broken f => .error (.malformed f)
    | _ => .error ((Node.record e ((key, value) :: others)).flawed (.noChoice .record))
  | .broken f => .error (.malformed f)
  | n =>
    match n.found with
    | .ok found => .error (n.flawed (.noChoice found))
    | .error flaw => .error (n.flawed flaw)

end Decoder

/-- A field of a record: how its value changes what was decoded so far. -/
structure Field (P σ : Type) where
  name : String
  required : Bool
  decode : σ → Decoder P σ

namespace Field

variable {P σ α : Type}

/-- A field that may be left out. -/
def free (name : String) (decode : Decoder P α) (put : σ → α → σ) : Field P σ :=
  ⟨name, false, fun s n ↦ (decode n).map (put s)⟩

/-- A field that must be there. -/
def needed (name : String) (decode : Decoder P α) (put : σ → α → σ) : Field P σ :=
  ⟨name, true, fun s n ↦ (decode n).map (put s)⟩

end Field

/-- A form of records: its title in messages, its fields, and the record of which no field is
given. -/
structure RecordForm (P σ : Type) where
  title : String
  fields : List (Field P σ)
  blank : σ

namespace RecordForm

variable {P σ : Type}

/-- The title with the number of fields. -/
def sizedTitle (k : RecordForm P σ) : String :=
  k.title ++ " with " ++ Number.natText k.fields.length ++ " elements"

/-- Decodes members in order; `seen` holds the names met so far. -/
def decodeMembers (k : RecordForm P σ) (e : Extent P) (seen : List String) (s : σ) :
    List (Node P × Node P) → Except (DocumentError P) (σ × List String)
  | [] => .ok (s, seen)
  | (key, value) :: rest =>
    (key.asText "field identifier").bind fun name ↦
      match k.fields.find? fun f ↦ f.name == name with
      | none =>
        .error (.placed (.unknownField name (k.fields.map Field.name)) [] key.extent.start
          key.extent.after)
      | some f =>
        if seen.contains name then
          .error (.placed (.repeatedField name) [] e.start key.extent.after)
        else
          ((f.decode s value).mapError (·.within key.step e.start value.extent.after)).bind
            fun s ↦ decodeMembers k e (name :: seen) s rest

/-- Decodes values by the position of their fields, the first of which has the given index.
Reading has come to `reached`. -/
def decodePositions (k : RecordForm P σ) (e : Extent P) (index : Nat) (reached : P) (s : σ) :
    List (Field P σ) → List (Node P) → Except (DocumentError P) σ
  | [], [] => .ok s
  | [], _ :: _ => .error (.placed .furtherItem [] e.start reached)
  | f :: fields, [] =>
    if f.required then .error (.placed (.wrongLength index k.sizedTitle) [] e.start e.stop)
    else decodePositions k e (index + 1) reached s fields []
  | f :: fields, value :: values =>
    ((f.decode s value).mapError (·.within (.item index) e.start value.extent.after)).bind fun s ↦
      decodePositions k e (index + 1) value.extent.stop s fields values

/-- The record that its members make. -/
def ofMembers (k : RecordForm P σ) (e : Extent P) (members : List (Node P × Node P)) :
    Except (DocumentError P) σ :=
  (k.decodeMembers e [] k.blank members).bind fun (s, seen) ↦
    match k.fields.find? fun f ↦ f.required && !seen.contains f.name with
    | some f => .error (.placed (.missingField f.name) [] e.start e.stop)
    | none => .ok s

/-- Decodes a record. `positional` allows the list of its fields in its place. -/
def decode (k : RecordForm P σ) (positional : Bool) : Decoder P σ
  | .list e items =>
    if positional then k.decodePositions e 0 e.start k.blank k.fields items
    else .error ((Node.list e items).mismatch k.title)
  | n => (n.asMembers k.title).bind (k.ofMembers n.extent)

end RecordForm

end DataQuality
