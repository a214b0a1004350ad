import Mathlib.Data.List.Forall2
import Mathlib.Data.List.Nodup

/-!
# Lists with keys

Requests, measurements and turns are kept in lists and found by a key.
-/

namespace DataQuality

section

variable {α β κ : Type}

/-- Where no key comes twice, a member is found by its key. -/
theorem find?_key_of_mem [DecidableEq κ] {key : α → κ} {l : List α} (h : (l.map key).Nodup) {a : α}
    (ha : a ∈ l) : l.find? (fun x ↦ key x = key a) = some a := by
  cases hfound : l.find? fun x ↦ key x = key a with
  | none =>
    have habsent := List.find?_eq_none.mp hfound a ha
    simp at habsent
  | some b =>
    have hkey : key b = key a := by simpa using List.find?_some hfound
    rw [List.inj_on_of_nodup_map h (List.mem_of_find?_eq_some hfound) ha hkey]

/-- Where no key comes twice, what is found by a key is the member with the key. -/
theorem find?_key_eq_some_iff [DecidableEq κ] {key : α → κ} {l : List α} (h : (l.map key).Nodup)
    {k : κ} {a : α} : l.find? (fun x ↦ key x = k) = some a ↔ a ∈ l ∧ key a = k := by
  constructor
  · intro hfound
    exact ⟨List.mem_of_find?_eq_some hfound, by simpa using List.find?_some hfound⟩
  · rintro ⟨ha, rfl⟩
    exact find?_key_of_mem h ha

/-- Where no key comes twice, no other member has the key of a member. -/
theorem filter_key_of_mem [DecidableEq κ] {key : α → κ} {l : List α} (h : (l.map key).Nodup) {a : α}
    (ha : a ∈ l) : l.filter (fun x ↦ key x = key a) = [a] := by
  obtain ⟨before, after, rfl⟩ := List.append_of_mem ha
  rw [List.map_append, List.map_cons, List.nodup_append] at h
  obtain ⟨-, hafter, hbefore⟩ := h
  have hnone : ∀ x ∈ before, key x ≠ key a := fun x hx ↦
    hbefore _ (List.mem_map_of_mem hx) _ List.mem_cons_self
  have hnone' : ∀ x ∈ after, key x ≠ key a := fun x hx heq ↦
    (List.nodup_cons.mp hafter).1 (heq ▸ List.mem_map_of_mem hx)
  have hempty : before.filter (fun x ↦ key x = key a) = [] := by simpa using hnone
  have hempty' : after.filter (fun x ↦ key x = key a) = [] := by simpa using hnone'
  rw [List.filter_append, List.filter_cons_of_pos (by simp), hempty, hempty', List.nil_append]

/-- Lists collected from the same members are related if what each member gives is. -/
theorem forall₂_flatMap {R : β → β → Prop} {l : List α} {f g : α → List β}
    (h : ∀ a ∈ l, List.Forall₂ R (f a) (g a)) : List.Forall₂ R (l.flatMap f) (l.flatMap g) := by
  induction l with
  | nil => exact .nil
  | cons a rest ih =>
    obtain ⟨ha, hrest⟩ := List.forall_mem_cons.mp h
    rw [List.flatMap_cons, List.flatMap_cons]
    exact List.rel_append ha (ih hrest)

/-- Each member of the second of two lists is related to one of the first. -/
theorem exists_of_mem_right {R : α → β → Prop} {l : List α} {k : List β}
    (h : List.Forall₂ R l k) {b : β} (hb : b ∈ k) : ∃ a ∈ l, R a b := by
  induction h with
  | nil => cases hb
  | cons hab _ ih =>
    cases hb with
    | head => exact ⟨_, .head _, hab⟩
    | tail _ hb =>
      obtain ⟨a, ha, hab⟩ := ih hb
      exact ⟨a, .tail _ ha, hab⟩

/-- What is related to a list with a member in it has one that is related to the member, between
what is related to those before it and to those after it. -/
theorem exists_append_of_forall₂ {R : α → β → Prop} {before after : List α} {a : α} {k : List β}
    (h : List.Forall₂ R (before ++ a :: after) k) :
    ∃ earlier b later, k = earlier ++ b :: later ∧ List.Forall₂ R before earlier ∧ R a b ∧
      List.Forall₂ R after later := by
  induction before generalizing k with
  | nil =>
    obtain ⟨b, later, hab, hafter, rfl⟩ := List.forall₂_cons_left_iff.mp h
    exact ⟨[], b, later, rfl, .nil, hab, hafter⟩
  | cons c rest ih =>
    obtain ⟨x, k, hcx, hrest, rfl⟩ := List.forall₂_cons_left_iff.mp h
    obtain ⟨earlier, b, later, rfl, hbefore, hab, hafter⟩ := ih hrest
    exact ⟨x :: earlier, b, later, rfl, .cons hcx hbefore, hab, hafter⟩

/-- Lists whose members give the same first match have the same first match. -/
theorem find?_flatMap_congr {l : List α} {f g : α → List β} {q : β → Bool}
    (h : ∀ a ∈ l, (f a).find? q = (g a).find? q) :
    (l.flatMap f).find? q = (l.flatMap g).find? q := by
  induction l with
  | nil => rfl
  | cons a rest ih =>
    obtain ⟨ha, hrest⟩ := List.forall_mem_cons.mp h
    rw [List.flatMap_cons, List.flatMap_cons, List.find?_append, List.find?_append, ha, ih hrest]

/-- If no two members give matches, what is found first among all that they give does not depend on
their order. -/
theorem find?_flatMap_of_perm {l k : List α} {f : α → List β} {q : β → Bool} (hperm : l.Perm k)
    (hone : l.Pairwise fun a b ↦ ∀ x ∈ f a, ∀ y ∈ f b, q x = true → q y = false) :
    (l.flatMap f).find? q = (k.flatMap f).find? q := by
  induction hperm with
  | nil => rfl
  | cons a _ ih =>
    rw [List.flatMap_cons, List.flatMap_cons, List.find?_append, List.find?_append,
      ih (List.pairwise_cons.mp hone).2]
  | swap a b rest =>
    obtain ⟨hfirst, _⟩ := List.pairwise_cons.mp hone
    have hapart := hfirst a List.mem_cons_self
    simp only [List.flatMap_cons, List.find?_append]
    cases hb : (f b).find? q with
    | none => simp
    | some x =>
      have ha : (f a).find? q = none := by
        refine List.find?_eq_none.mpr fun y hy ↦ ?_
        simp [hapart x (List.mem_of_find?_eq_some hb) y hy (List.find?_some hb)]
      simp [ha]
  | @trans l m k hlm _ ih ih' =>
    refine (ih hone).trans (ih' ((hlm.pairwise_iff ?_).mp hone))
    intro a b hab y hy x hx hqy
    cases hqx : q x with
    | false => rfl
    | true => rw [hab x hx y hy hqx] at hqy; cases hqy

/-- What two members of a list both have is there more than once. -/
theorem one_lt_count_flatMap [BEq κ] [LawfulBEq κ] {l : List α} {f : α → List κ}
    {a b : α} {k : κ} (ha : a ∈ l) (hb : b ∈ l) (hne : a ≠ b) (hka : k ∈ f a) (hkb : k ∈ f b) :
    1 < (l.flatMap f).count k := by
  have hone {c : α} {rest : List α} (hc : c ∈ rest) (hkc : k ∈ f c) :
      0 < (rest.flatMap f).count k :=
    List.count_pos_iff.mpr (List.mem_flatMap.mpr ⟨c, hc, hkc⟩)
  obtain ⟨before, after, rfl⟩ := List.append_of_mem ha
  have hself := List.count_pos_iff.mpr hka
  rw [List.flatMap_append, List.flatMap_cons, List.count_append, List.count_append]
  obtain hb | hb := List.mem_append.mp hb
  · have hbefore := hone hb hkb
    omega
  · have hafter := hone ((List.mem_cons.mp hb).resolve_left (Ne.symm hne)) hkb
    omega

end

end DataQuality
