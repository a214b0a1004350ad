import Mathlib.Data.List.Basic
import DataQuality.Pattern.Reader

/-!
# Matching

What it means that a regular expression is found in a text, as far as the named formats go: no
flags, no places but the beginning and the end of the text, and no named sets of characters. A
pattern that is held to both ends matches a text part by part.
-/

namespace DataQuality

/-- Whether a character is in a set; named sets are left out. -/
def CharSet.Has : CharSet → Char → Prop
  | .empty, _ => False
  | .range first last, c => first ≤ c ∧ c ≤ last
  | .named _, _ => False
  | .union a b, c => a.Has c ∨ b.Has c
  | .intersection a b, c => a.Has c ∧ b.Has c
  | .difference a b, c => a.Has c ∧ ¬ b.Has c
  | .symmetricDifference a b, c => ¬ (a.Has c ↔ b.Has c)
  | .complement a, c => ¬ a.Has c
  | .bracketed a, c => a.Has c

namespace Pattern

/-- Whether the pattern matches a part of a text between what stands before and after it. -/
def Matches : Pattern → List Char → List Char → List Char → Prop
  | .empty, _, part, _ => part = []
  | .char c, _, part, _ => part = [c]
  | .any, _, part, _ => ∃ c, c ≠ '\n' ∧ part = [c]
  | .oneOf set, _, part, _ => ∃ c, set.Has c ∧ part = [c]
  | .assertion name, before, part, after =>
    part = [] ∧ (name = "^" ∧ before = [] ∨ name = "$" ∧ after = [])
  | .flags _, _, _, _ => False
  | .sequence a b, before, part, after =>
    ∃ x y, part = x ++ y ∧ a.Matches before x (y ++ after) ∧ b.Matches (before ++ x) y after
  | .choice a b, before, part, after => a.Matches before part after ∨ b.Matches before part after
  | .repeated a least most, before, part, after =>
    ∃ parts : List (List Char), part = parts.flatten ∧ least ≤ parts.length ∧
      (∀ n ∈ most, parts.length ≤ n) ∧
      ∀ earlier piece later, parts = earlier ++ piece :: later →
        a.Matches (before ++ earlier.flatten) piece (later.flatten ++ after)
  | .group text a, before, part, after => text = "" ∧ a.Matches before part after

/-- Whether the pattern matches some part of the text. -/
def FoundIn (p : Pattern) (s : String) : Prop :=
  ∃ before part after, s.toList = before ++ part ++ after ∧ p.Matches before part after

/-- A pattern that may be left out. -/
def optional (p : Pattern) : Pattern := .repeated p 0 (some 1)

/-! ### Parts on their own -/

/-- Whether what the pattern matches does not depend on what stands around it. -/
def Standalone (p : Pattern) : Prop :=
  ∀ before part after, p.Matches before part after ↔ p.Matches [] part []

section

variable {p q : Pattern} {before part after : List Char}

theorem standalone_char (c : Char) : (char c).Standalone := fun _ _ _ ↦ Iff.rfl

theorem standalone_oneOf (set : CharSet) : (oneOf set).Standalone := fun _ _ _ ↦ Iff.rfl

theorem Standalone.group (h : p.Standalone) (text : String) : (group text p).Standalone :=
  fun before part after ↦ and_congr_right fun _ ↦ h before part after

theorem Standalone.sequence (hp : p.Standalone) (hq : q.Standalone) :
    (p.sequence q).Standalone := by
  intro before part after
  simp only [Matches, hp before, hp [], hq (before ++ _), hq ([] ++ _)]

theorem Standalone.repeated (h : p.Standalone) (least : Nat) (most : Option Nat) :
    (p.repeated least most).Standalone := by
  intro before part after
  simp only [Matches, h (before ++ _), h ([] ++ _)]

/-- What stands on its own is repeated piece by piece. -/
theorem Standalone.matches_repeated_iff (h : p.Standalone) {least : Nat} {most : Option Nat} :
    (p.repeated least most).Matches before part after ↔
      ∃ parts : List (List Char), part = parts.flatten ∧ least ≤ parts.length ∧
        (∀ n ∈ most, parts.length ≤ n) ∧ ∀ piece ∈ parts, p.Matches [] piece [] := by
  simp only [Matches, h (before ++ _)]
  refine exists_congr fun parts ↦ and_congr_right fun _ ↦ and_congr_right fun _ ↦
    and_congr_right fun _ ↦ ⟨fun hall piece hpiece ↦ ?_, fun hall earlier piece later hparts ↦ ?_⟩
  · obtain ⟨earlier, later, hparts⟩ := List.append_of_mem hpiece
    exact hall earlier piece later hparts
  · exact hall piece (hparts ▸ List.mem_append_right _ (.head _))

/-- A repeated set of characters matches characters of the set, as many as it may. -/
theorem matches_repeated_oneOf_iff {set : CharSet} {least : Nat} {most : Option Nat} :
    ((oneOf set).repeated least most).Matches before part after ↔
      (∀ c ∈ part, set.Has c) ∧ least ≤ part.length ∧ ∀ n ∈ most, part.length ≤ n := by
  rw [(standalone_oneOf set).matches_repeated_iff]
  constructor
  · rintro ⟨parts, rfl, hleast, hmost, hall⟩
    have hlength : parts.flatten.length = parts.length := by
      have hone : parts.map List.length = parts.map fun _ ↦ 1 :=
        List.map_congr_left fun piece hpiece ↦ by
          obtain ⟨c, -, rfl⟩ := hall piece hpiece
          rfl
      rw [List.length_flatten, hone]
      simp
    rw [hlength]
    refine ⟨fun c hc ↦ ?_, hleast, hmost⟩
    obtain ⟨piece, hpiece, hc⟩ := List.mem_flatten.mp hc
    obtain ⟨d, hd, rfl⟩ := hall piece hpiece
    exact List.mem_singleton.mp hc ▸ hd
  · rintro ⟨hall, hleast, hmost⟩
    refine ⟨part.map fun c ↦ [c], ?_, by simpa using hleast, by simpa using hmost, ?_⟩
    · rw [← List.flatMap_def, List.flatMap_singleton']
    intro piece hpiece
    obtain ⟨c, hc, rfl⟩ := List.mem_map.mp hpiece
    exact ⟨c, hall c hc, rfl⟩

theorem Standalone.optional (h : p.Standalone) : p.optional.Standalone := h.repeated 0 (some 1)

/-- What stands on its own may be left out. -/
theorem Standalone.matches_optional_iff (h : p.Standalone) :
    p.optional.Matches before part after ↔ part = [] ∨ p.Matches [] part [] := by
  rw [Pattern.optional, h.matches_repeated_iff]
  constructor
  · rintro ⟨parts, rfl, -, hmost, hall⟩
    match parts, hmost 1 rfl, hall with
    | [], _, _ => exact .inl rfl
    | [piece], _, hall => exact .inr (by simpa using hall)
    | _ :: _ :: _, hle, _ => simp at hle
  · rintro (rfl | hpart)
    · exact ⟨[], by simp⟩
    · exact ⟨[part], by simpa using hpart⟩

/-- A repeated item of which pieces of one form are matched matches a list of these. -/
theorem Standalone.matches_star_iff {α : Type} {f : α → List Char} {good : α → Prop}
    (h : p.Standalone) (hgood : ∀ piece, p.Matches [] piece [] ↔ ∃ a, good a ∧ piece = f a) :
    (p.repeated 0 none).Matches before part after ↔
      ∃ as : List α, (∀ a ∈ as, good a) ∧ part = as.flatMap f := by
  simp only [h.matches_repeated_iff, hgood]
  constructor
  · rintro ⟨parts, rfl, -, -, hall⟩
    clear before after
    induction parts with
    | nil => exact ⟨[], by simp⟩
    | cons piece rest ih =>
      obtain ⟨⟨a, ha, rfl⟩, hrest⟩ := List.forall_mem_cons.mp hall
      obtain ⟨as, has, hflatten⟩ := ih hrest
      exact ⟨a :: as, List.forall_mem_cons.mpr ⟨ha, has⟩, by
        rw [List.flatten_cons, hflatten, List.flatMap_cons]⟩
  · rintro ⟨as, has, rfl⟩
    refine ⟨as.map f, rfl, Nat.zero_le _, by simp, ?_⟩
    intro piece hpiece
    obtain ⟨a, ha, rfl⟩ := List.mem_map.mp hpiece
    exact ⟨a, has a ha, rfl⟩

end

/-! ### Patterns held to both ends -/

/-- The pattern of items one after the other, from the beginning of a text to its end. -/
def anchored (items : List Pattern) : Pattern :=
  ofItems (.assertion "^" :: (items ++ [.assertion "$"]))

/-- Whether the items match a text one after the other, each on its own. -/
def MatchInTurn : List Pattern → List Char → Prop
  | [], cs => cs = []
  | p :: rest, cs => ∃ x y, cs = x ++ y ∧ p.Matches [] x [] ∧ MatchInTurn rest y

private theorem matches_toEnd_iff {items : List Pattern} (h : ∀ p ∈ items, p.Standalone)
    {before part after : List Char} :
    (ofItems (items ++ [.assertion "$"])).Matches before part after ↔
      after = [] ∧ MatchInTurn items part := by
  induction items generalizing before part with
  | nil => simp [ofItems, Matches, MatchInTurn, and_comm]
  | cons p rest ih =>
    obtain ⟨hp, hrest⟩ := List.forall_mem_cons.mp h
    have hitems : ofItems (p :: rest ++ [.assertion "$"]) =
        p.sequence (ofItems (rest ++ [.assertion "$"])) := by
      cases rest <;> rfl
    simp only [hitems, Matches, MatchInTurn, ih hrest, hp before]
    constructor
    · rintro ⟨x, y, hpart, hx, hafter, hy⟩
      exact ⟨hafter, x, y, hpart, hx, hy⟩
    · rintro ⟨hafter, x, y, hpart, hx, hy⟩
      exact ⟨x, y, hpart, hx, hafter, hy⟩

/-- A pattern that is held to both ends is found in what its items match one after the other. -/
theorem foundIn_anchored_iff {items : List Pattern} (h : ∀ p ∈ items, p.Standalone) {s : String} :
    (anchored items).FoundIn s ↔ MatchInTurn items s.toList := by
  have hitems : anchored items =
      (assertion "^").sequence (ofItems (items ++ [.assertion "$"])) := by
    unfold anchored
    cases items <;> rfl
  simp only [FoundIn, hitems]
  constructor
  · rintro ⟨before, part, after, hs, x, y, rfl, ⟨rfl, hstart⟩, hy⟩
    obtain ⟨rfl, hturn⟩ := (matches_toEnd_iff h).mp hy
    obtain ⟨-, rfl⟩ | ⟨hname, -⟩ := hstart
    · rw [hs]
      simpa using hturn
    · exact absurd hname (by decide)
  · intro hturn
    exact ⟨[], s.toList, [], by simp, [], s.toList, rfl, ⟨rfl, .inl ⟨rfl, rfl⟩⟩,
      (matches_toEnd_iff h).mpr ⟨rfl, hturn⟩⟩

end Pattern

end DataQuality
