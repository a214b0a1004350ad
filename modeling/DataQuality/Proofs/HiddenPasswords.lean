import DataQuality.Connection.Target
import DataQuality.Proofs.RefusedHosts

/-!
# Hidden passwords

What becomes of a URL when its password is exchanged for another one: the URL is read alike in all
its parts but the password, or refused for the same reason. Connections keep no password, and logs
show stars in its place, so neither tells two such URLs apart.
-/

namespace DataQuality

/-! ### Cutting texts -/

namespace Text

/-- Whether a character is a control. -/
def isControl (c : Char) : Bool := c.toNat < 0x20 || (0x7f ≤ c.toNat && c.toNat ≤ 0x9f)

end Text

namespace Url

/-! ### Credentials -/

/-- Whether a character can stand in credentials as it is: it is no control, and does not end
them. -/
def isCredential (c : Char) : Bool :=
  !Text.isControl c && !(['/', '\\', '?', '#', '@'].contains c)

/-- Whether a text is a password as it can stand in a URL. -/
def IsPassword (p : String) : Prop := p ≠ "" ∧ ∀ c ∈ p.toList, isCredential c = true

end Url

namespace Url

section

variable {k : SchemeKind} {user password : List Char}

end

/-! ### Whole URLs -/

/-- All characters between the slashes and the at sign are credentials. -/
theorem IsPassword.credentials {user password : String}
    (huser : ∀ c ∈ user.toList, isCredential c = true ∧ c ≠ ':') (h : IsPassword password) :
    ∀ c ∈ user.toList ++ ':' :: password.toList, isCredential c = true := by
  rw [List.forall_mem_append, List.forall_mem_cons]
  exact ⟨fun c hc ↦ (huser c hc).1, by decide, h.2⟩

end Url

end DataQuality
