import DataQuality.Number.Text

/-!
# Texts of bytes

Which bytes are texts. A byte that begins no character, or a character that does not go on as its
first byte says, makes bytes no text; messages say where, and how many bytes are wrong.
-/

namespace DataQuality.Text

/-- How a character goes on behind its first byte: the payload of that byte, how many bytes follow,
and the least and the greatest that the next one may be. -/
structure Lead where
  payload : Nat
  follow : Nat
  least : Nat
  greatest : Nat

namespace Lead

/-- The lead that a byte is; most numbers beyond ASCII are none. -/
def ofByte? (b : Nat) : Option Lead :=
  if b ≤ 0x7F then some ⟨b, 0, 0x80, 0xBF⟩
  else if b < 0xC2 then none
  else if b ≤ 0xDF then some ⟨b - 0xC0, 1, 0x80, 0xBF⟩
  else if b ≤ 0xEF then
    some ⟨b - 0xE0, 2, if b = 0xE0 then 0xA0 else 0x80, if b = 0xED then 0x9F else 0xBF⟩
  else if b ≤ 0xF4 then
    some ⟨b - 0xF0, 3, if b = 0xF0 then 0x90 else 0x80, if b = 0xF4 then 0x8F else 0xBF⟩
  else none

end Lead

/-- Why bytes are no text: where the wrong bytes begin, and how many they are unless only the end
of a character is missing. -/
structure ByteFault where
  index : Nat
  count : Option Nat
  deriving DecidableEq, Repr, Inhabited

/-- The message of a fault. -/
def ByteFault.message (f : ByteFault) : String :=
  match f.count with
  | some n =>
    "invalid utf-8 sequence of " ++ Number.natText n ++ " bytes from index " ++
      Number.natText f.index
  | none =>
    "incomplete utf-8 byte sequence from index " ++ Number.natText f.index

/-- The code of a character whose bytes so far have a payload; `seen` are the bytes so far. If the
character does not go on, the error says how many bytes are wrong. -/
def followers (payload seen least greatest : Nat) : (follow : Nat) → List UInt8 →
    Except (Option Nat) Nat
  | 0, _ => .ok payload
  | _ + 1, [] => .error none
  | follow + 1, b :: rest =>
    if least ≤ b.toNat ∧ b.toNat ≤ greatest then
      followers (64 * payload + b.toNat % 64) (seen + 1) 0x80 0xBF follow rest
    else .error (some seen)

/-- The character that a byte begins, and how many of the bytes behind belong to it. -/
def firstChar (b : UInt8) (rest : List UInt8) : Except (Option Nat) (Char × Nat) :=
  match Lead.ofByte? b.toNat with
  | none => .error (some 1)
  | some lead =>
    (followers lead.payload 1 lead.least lead.greatest lead.follow rest).map fun code ↦
      (Char.ofNat code, lead.follow)

/-- The characters of bytes, and the faults between them; `skip` bytes in front belong to what was
read before, and the bytes begin at an index. -/
def piecesFrom (index skip : Nat) : List UInt8 → List (Except ByteFault Char)
  | [] => []
  | b :: rest =>
    match skip with
    | skip + 1 => piecesFrom (index + 1) skip rest
    | 0 =>
      match firstChar b rest with
      | .ok (c, follow) => .ok c :: piecesFrom (index + 1) follow rest
      | .error none => [.error ⟨index, none⟩]
      | .error (some n) => .error ⟨index, some n⟩ :: piecesFrom (index + 1) (n - 1) rest

/-- The text of bytes, or the first fault in them. -/
def ofBytes (bytes : List UInt8) : Except ByteFault String :=
  ((piecesFrom 0 0 bytes).mapM id).map String.ofList

/-- The text of bytes, with a replacement character for every fault. -/
def ofBytesReplacing (bytes : List UInt8) : String :=
  String.ofList ((piecesFrom 0 0 bytes).map fun
    | .ok c => c
    | .error _ => '\ufffd')

/-- Bytes of ASCII are a text as they stand. -/
theorem piecesFrom_ascii (index : Nat) {bytes : List UInt8} (h : ∀ b ∈ bytes, b.toNat ≤ 0x7F) :
    piecesFrom index 0 bytes = bytes.map fun b ↦ .ok (Char.ofNat b.toNat) := by
  induction bytes generalizing index with
  | nil => rfl
  | cons b rest ih =>
    have hb : b.toNat ≤ 0x7F := h b (List.mem_cons_self ..)
    have hr : ∀ d ∈ rest, d.toNat ≤ 0x7F := fun d hd ↦ h d (List.mem_cons_of_mem _ hd)
    simp only [piecesFrom, firstChar, Lead.ofByte?, hb, if_true, followers, Except.map,
      List.map_cons, ih _ hr]

end DataQuality.Text
