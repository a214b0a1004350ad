import DataQuality.Test.Compiled

/-!
# What compiles

The tests of a list are compiled one by one. A test compiles exactly if it can be read and each of
its names stands for something, and what it compiles to is then known in all its parts; otherwise
it becomes an issue about its text. Whatever else is known of compiled tests follows from this.
-/

namespace DataQuality

/-! ### Results that are there and errors that are there -/

section

variable {ε α : Type}

theorem successes_append (xs ys : List (Except ε α)) :
    successes (xs ++ ys) = successes xs ++ successes ys := List.filterMap_append

theorem failures_append (xs ys : List (Except ε α)) :
    failures (xs ++ ys) = failures xs ++ failures ys := List.filterMap_append

theorem mem_successes_iff {results : List (Except ε α)} {a : α} :
    a ∈ successes results ↔ .ok a ∈ results := by
  unfold successes
  rw [List.mem_filterMap]
  constructor
  · rintro ⟨_ | a', hresult, ha⟩
    · cases ha
    · cases ha
      exact hresult
  · exact fun h ↦ ⟨_, h, rfl⟩

/-- The issues among results are the errors. -/
theorem mem_failures_iff {results : List (Except ε α)} {e : ε} :
    e ∈ failures results ↔ .error e ∈ results := by
  unfold failures
  rw [List.mem_filterMap]
  constructor
  · rintro ⟨e' | _, hresult, he⟩
    · cases he
      exact hresult
    · cases he
  · exact fun h ↦ ⟨_, h, rfl⟩

end

namespace TestScope

variable {scope : TestScope} {available : List MetricKey} {start index : Nat} {source : String}

/-- No name is left over exactly if each stands for something, unless the names are those of the
cells of rows. -/
theorem unresolved_eq_nil_iff {names : List String} :
    scope.unresolved available names = [] ↔
      (scope.grouped = none → ∀ name ∈ names, (scope.resolve? available name).isSome) := by
  cases hgrouped : scope.grouped with
  | none =>
    simp [unresolved, hgrouped, List.filter_eq_nil_iff, Option.isSome_iff_ne_none]
  | some key => simp [unresolved, hgrouped]

/-- A test compiles exactly if it can be read and no name in it is left over. -/
theorem compileOne_eq_ok_iff {t : CompiledTest} :
    scope.compileOne available index source = .ok t ↔
      ∃ expression, TestExpression.parse source = .ok expression ∧
        scope.unresolved available expression.identifiers = [] ∧
        t =
          { id := scope.idStart ++ "#" ++ Number.natText index
            title := scope.idStart ++ " " ++ Text.trim source
            column := scope.column
            expression
            bindings := scope.bindings available expression.identifiers
            grouped := scope.grouped } := by
  constructor
  · intro h
    unfold compileOne at h
    split at h
    · cases h
    · next expression hparse =>
      dsimp only at h
      split at h
      · next hunresolved =>
        cases h
        exact ⟨expression, hparse, hunresolved, rfl⟩
      · cases h
  · rintro ⟨expression, hparse, hunresolved, rfl⟩
    unfold compileOne
    simp only [hparse, hunresolved]

/-- An issue of a test is about its text. -/
theorem of_compileOne_eq_error {i : Issue}
    (h : scope.compileOne available index source = .error i) :
    (i.kind = .malformedTest ∨ i.kind = .unresolvedIdentifier) ∧ i.subject = source := by
  unfold compileOne at h
  split at h
  · cases h
    exact ⟨.inl rfl, rfl⟩
  · dsimp only at h
    split at h
    · cases h
    · cases h
      exact ⟨.inr rfl, rfl⟩

/-- What a list of tests compiles to is what the test with some index compiles to. -/
theorem exists_of_mem_compileFrom {sources : List String} {result : Except Issue CompiledTest}
    (h : result ∈ scope.compileFrom available start sources) :
    ∃ index source, sources[index]? = some source ∧
      scope.compileOne available (start + index) source = result := by
  induction sources generalizing start with
  | nil => cases h
  | cons source rest ih =>
    rcases List.mem_cons.mp h with rfl | h
    · exact ⟨0, source, rfl, rfl⟩
    · obtain ⟨index, found, hfound, hone⟩ := ih h
      exact ⟨index + 1, found, hfound, by rwa [Nat.add_assoc, Nat.add_comm 1] at hone⟩

end TestScope

end DataQuality
