import DataQuality.Proofs.Lexemes
import DataQuality.Proofs.ReadingExpressions

/-!
# Reading texts

A text is read as an expression if it can be cut into the tokens of a derivation for it, wherever in
the grammar the derivation starts.
-/

namespace DataQuality

theorem Nonterminal.eq_of_rank_eq {n m : Nonterminal} (h : n.rank = m.rank) : n = m := by
  rcases n with t | op | _ <;> rcases m with t' | op' | _ <;>
    (try cases t) <;> (try cases op) <;> (try cases t') <;> (try cases op') <;>
    first | rfl | cases h

/-- A derivation also stands where looser ones may. -/
theorem ParseTree.exists_lift {n : Nonterminal} (d : ParseTree n) (m : Nonterminal)
    (h : n.rank ≤ m.rank) :
    ∃ d' : ParseTree m, d'.tokens = d.tokens ∧ d'.expr = d.expr ∧ d'.nesting = d.nesting := by
  induction hrank : m.rank using Nat.strong_induction_on generalizing m with
  | _ rank ih =>
    by_cases heq : n.rank = m.rank
    · obtain rfl := Nonterminal.eq_of_rank_eq heq
      exact ⟨d, rfl, rfl, rfl⟩
    · cases m with
      | operand => exact absurd (Nat.le_antisymm h (Nat.zero_le _)) heq
      | unary op =>
        have hlt : op.operand.rank + 1 = (Nonterminal.unary op).rank := by cases op <;> rfl
        obtain ⟨d', htokens, hexpr, hnesting⟩ := ih _ (by omega) op.operand (by omega) rfl
        exact ⟨.plain d', htokens, hexpr, hnesting⟩
      | chain t =>
        have hlt : t.operand.rank + 1 = (Nonterminal.chain t).rank := by cases t <;> rfl
        obtain ⟨d', htokens, hexpr, hnesting⟩ := ih _ (by omega) t.operand (by omega) rfl
        refine ⟨.chain d' .nil, ?_, ?_, ?_⟩
        · rw [tokens, ParseSteps.tokens, List.append_nil, htokens]
        · rw [← hexpr]
          cases t <;> rfl
        · rw [nesting, ParseSteps.nesting, Nat.max_zero, hnesting]

theorem Nonterminal.rank_le_start (n : Nonterminal) : n.rank ≤ Nonterminal.start.rank := by
  rcases n with t | op | _
  · cases t <;> decide
  · cases op <;> decide
  · decide

namespace Expr

/-- What is cut into the tokens of a derivation is read as what the derivation stands for, unless it
is too long or nests too deep. -/
theorem parse_eq_ok {source : String} {n : Nonterminal} (d : ParseTree n)
    (hcuts : Token.Cuts source.toList d.tokens []) (hlength : d.tokens.length ≤ maxTokens)
    (hnesting : d.nesting ≤ maxNesting) : parse source = .ok d.expr := by
  obtain ⟨placed, hplaced, htokens⟩ := hcuts.tokenize_eq
  obtain ⟨start, hstokens, hexpr, hsnesting⟩ := d.exists_lift .start n.rank_le_start
  have hnonempty : placed ≠ [] := by
    rintro rfl
    obtain ⟨tok, rest, hhead, -⟩ := d.exists_head
    exact List.cons_ne_nil tok rest (hhead.symm.trans htokens.symm)
  have hfits : placed.length ≤ maxTokens := by
    rw [← List.length_map Placed.token, htokens]
    exact hlength
  rw [parse, hplaced, ← hexpr]
  exact start.ofTokens_eq_ok hnonempty hfits (hstokens.trans htokens.symm) (hsnesting ▸ hnesting)

end Expr

/-! ### Short lexemes -/

namespace Token.Cuts

theorem nameA {rest : List Char} (hrest : Delimits rest) :
    Cuts ('a' :: rest) [.identifier "a"] rest :=
  have hword : IsWord "a" := ⟨'a', [], by decide, by decide⟩
  .ofWord hword hrest

theorem nameB {rest : List Char} (hrest : Delimits rest) :
    Cuts ('b' :: rest) [.identifier "b"] rest :=
  have hword : IsWord "b" := ⟨'b', [], by decide, by decide⟩
  .ofWord hword hrest

theorem five {rest : List Char} (hrest : Delimits rest) : Cuts ('5' :: rest) [.number 5] rest := by
  have hfrom : Token.FromText (.number 5) :=
    ⟨fun value hvalue _ ↦ ⟨0x4014000000000000, by decide,
      (Token.number.inj hvalue).symm.trans (by decide)⟩, fun _ h ↦ by cases h⟩
  have hcuts := Cuts.number hfrom (by decide) hrest
  rwa [show Number.plainText 5 = "5" by decide] at hcuts

end Token.Cuts

end DataQuality
