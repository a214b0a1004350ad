import DataQuality.Measure.Rows
import DataQuality.Scan.Error

/-!
# Sessions

A session is all that a scan can see of the world: what the warehouse answers to its queries, and
when the user cancels. An answer may depend on all queries asked before.
-/

namespace DataQuality

/-- How a warehouse answers, and when the user cancels: as soon as the given number of queries has
been asked, or never. -/
structure Session where
  answer : (asked : List String) → (sql : String) → Except ScanError Rows
  cancelAfter : Option Nat

/-- Whether the user has cancelled after the queries asked so far. -/
def Session.isCancelled (s : Session) (asked : List String) : Bool :=
  s.cancelAfter.any (· ≤ asked.length)

/-- A user who has cancelled does not take it back. -/
theorem Session.isCancelled_append {s : Session} {asked : List String}
    (h : s.isCancelled asked) (more : List String) : s.isCancelled (asked ++ more) := by
  unfold isCancelled at h ⊢
  cases hc : s.cancelAfter with
  | none => simp [hc] at h
  | some n =>
    simp only [hc, Option.any_some, decide_eq_true_eq, List.length_append] at h ⊢
    omega

/-- An answer to all queries that contain a fragment. -/
structure ScriptedAnswer where
  fragment : String
  answer : Except ScanError Rows

/-- The answers of a warehouse that follows a script: the first whose fragment is in the query. -/
def scriptedAnswer (script : List ScriptedAnswer) (sql : String) : Except ScanError Rows :=
  match script.find? fun a ↦ Text.contains sql a.fragment with
  | some a => a.answer
  | none => .error (.queryExecution ("unscripted query: " ++ sql))

/-- A session with a warehouse that follows a script. -/
def Session.ofScript (script : List ScriptedAnswer) (cancelAfter : Option Nat) : Session :=
  ⟨fun _ ↦ scriptedAnswer script, cancelAfter⟩

end DataQuality
