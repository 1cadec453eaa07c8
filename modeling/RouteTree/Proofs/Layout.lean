import RouteTree.Proofs.Compilation

/-!
# The stages of a chain

A chain that is put together from fragments has them as its stages, in order and
with one allocation at most. The eager stages are those in front of the first
fragment that may stop.
-/

namespace RouteTree

open Http

variable {σ : Type}

namespace Stage

theorem arrange_cons (ready : Bool) (fragment : Fragment σ) (rest : List (Fragment σ)) :
    arrange ready (fragment :: rest) =
      arrange ready [fragment] ++ arrange (ready || fragment.needsContext) rest := by
  simp [arrange]

@[simp] theorem fragments_arrange (ready : Bool) (fragments : List (Fragment σ)) :
    (arrange ready fragments).filterMap fragment? = fragments := by
  induction fragments generalizing ready with
  | nil => rfl
  | cons fragment rest ih =>
      simp only [arrange, List.filterMap_append, List.filterMap_cons, fragment?, ih]
      split <;> rfl

end Stage

namespace Draft

@[simp] theorem fragments_tail (allocates : Bool) :
    ((tail allocates : List (Item σ)).filterMap stage?).filterMap Stage.fragment? = [] := by
  cases allocates <;> rfl

/-- A first fragment that may not stop is the first of the eager ones. -/
theorem split_placed_cons {fragment : Fragment σ} (prompt : fragment.deferred = false)
    (ready : Bool) (rest : List (Fragment σ)) (after : List (Item σ)) :
    split (placed false ready (fragment :: rest) ++ after) =
      (Stage.arrange ready [fragment] ++
          (split (placed false (ready || fragment.needsContext) rest ++ after)).1,
        (split (placed false (ready || fragment.needsContext) rest ++ after)).2) := by
  have first : ∀ other ∈ [fragment], other.deferred = false := by simpa using prompt
  rw [← List.singleton_append, placed_append, List.append_assoc, split_placed_prompt first]
  simp [prompt]

/-- Cutting the elements of a route loses no stage. -/
theorem stages_split (ready : Bool) (fragments : List (Fragment σ)) (allocates : Bool) :
    (split (placed false ready fragments ++ tail allocates)).1 ++
        (split (placed false ready fragments ++ tail allocates)).2.getD [] =
      Stage.arrange ready fragments ++ (tail allocates).filterMap stage? := by
  induction fragments generalizing ready with
  | nil => cases allocates <;> rfl
  | cons fragment rest ih =>
      cases deferred : fragment.deferred with
      | true =>
          rw [split_placed_deferred deferred]
          rfl
      | false =>
          rw [split_placed_cons deferred, Stage.arrange_cons ready fragment rest,
            List.append_assoc, List.append_assoc, ← ih]

/-- The cut is in front of the first fragment that may stop. -/
theorem fragments_split (ready : Bool) (fragments : List (Fragment σ)) (allocates : Bool) :
    (split (placed false ready fragments ++ tail allocates)).1.filterMap Stage.fragment? =
      fragments.takeWhile (!·.deferred) := by
  induction fragments generalizing ready with
  | nil => cases allocates <;> rfl
  | cons fragment rest ih =>
      cases deferred : fragment.deferred with
      | true =>
          rw [split_placed_deferred deferred]
          simp [deferred]
      | false =>
          rw [split_placed_cons deferred, List.filterMap_append, Stage.fragments_arrange, ih]
          simp [deferred]

end Draft

namespace Chain.Joins

variable {chain : Chain σ} {fragments : List (Fragment σ)} {endpoint : Endpoint σ}
  {switch : FaultSwitch σ}

/-- The stages of a chain are its fragments, with the allocation where the context
is first used. -/
theorem stages_eq (joins : chain.Joins fragments endpoint switch) :
    chain.stages = Stage.arrange false fragments ++
      (Draft.tail (chain.endpoint.needsContext && !fragments.any Fragment.needsContext)).filterMap
        Draft.stage? := by
  have whole := Draft.stages_split false fragments
    (chain.endpoint.needsContext && !fragments.any Fragment.needsContext)
  rw [joins.layout] at whole
  exact whole

theorem fragments_eq (joins : chain.Joins fragments endpoint switch) :
    chain.fragments = fragments := by
  rw [Chain.fragments, joins.stages_eq, List.filterMap_append, Stage.fragments_arrange,
    Draft.fragments_tail, List.append_nil]

/-- The eager fragments are those in front of the first one that may stop. -/
theorem eager_fragments (joins : chain.Joins fragments endpoint switch) :
    chain.eager.filterMap Stage.fragment? = fragments.takeWhile (!·.deferred) := by
  have cut := Draft.fragments_split false fragments
    (chain.endpoint.needsContext && !fragments.any Fragment.needsContext)
  rw [joins.layout] at cut
  exact cut

end Chain.Joins

end RouteTree
