import RouteTree.Proofs.Memoisation

/-!
# Where the stages of a chain stand

A route has at most one deferred scope and at most one allocation of the context.
The scope opens in front of the first group that may stop. The allocation stands
directly in front of the first group that uses the context, or behind all groups if
only the terminal does. All groups keep their order, on both sides of the opening.
-/

namespace RouteTree

open Http

variable {σ : Type}

namespace Stage

/-- Fragments in order, with an allocation in front of the one at this place. -/
def laid (fragments : List (Fragment σ)) : Option Nat → List (Stage σ)
  | none => fragments.map .group
  | some place =>
    (fragments.take place).map .group ++ .allocate :: (fragments.drop place).map .group

/-- Counting places from one fragment earlier puts that fragment in front. -/
theorem laid_cons (fragment : Fragment σ) (rest : List (Fragment σ)) (place? : Option Nat) :
    laid (fragment :: rest) (place?.map (· + 1)) = .group fragment :: laid rest place? := by
  cases place? <;> rfl

theorem allocates_laid (fragments : List (Fragment σ)) (place? : Option Nat) :
    (laid fragments place?).countP allocates = if place?.isSome then 1 else 0 := by
  have none_allocates (part : List (Fragment σ)) : (part.map Stage.group).countP allocates = 0 := by
    rw [List.countP_eq_zero]
    intro stage mem
    obtain ⟨fragment, _, rfl⟩ := List.mem_map.1 mem
    exact Bool.false_ne_true
  cases place? with
  | none => exact none_allocates fragments
  | some place =>
      rw [laid, List.countP_append, List.countP_cons, none_allocates, none_allocates]
      rfl

theorem arrange_ready (fragments : List (Fragment σ)) :
    arrange true fragments = fragments.map .group := by
  induction fragments with
  | nil => rfl
  | cons fragment rest ih => simp [arrange, ih]

end Stage

/-- The place of the allocation among fragments: that of the first one that uses the
context, or the end if only what follows them asks for it. -/
def Fragment.place? (fragments : List (Fragment σ)) (asked : Bool) : Option Nat :=
  (fragments.findIdx? Fragment.needsContext).or (if asked then some fragments.length else none)

namespace Fragment

theorem place?_cons (fragment : Fragment σ) (rest : List (Fragment σ)) (asked : Bool) :
    place? (fragment :: rest) asked =
      if fragment.needsContext then some 0 else (place? rest asked).map (· + 1) := by
  rw [place?, place?, List.findIdx?_cons]
  cases fragment.needsContext with
  | true => rfl
  | false =>
      cases rest.findIdx? needsContext with
      | some place => rfl
      | none => cases asked <;> rfl

/-- If a fragment uses the context, it does not matter what follows. -/
theorem place?_append_of_some {early : List (Fragment σ)} {place : Nat}
    (found : early.findIdx? needsContext = some place) (later : List (Fragment σ)) (asked : Bool) :
    place? (early ++ later) asked = some place := by
  rw [place?, List.findIdx?_append, found]
  rfl

/-- If no fragment uses the context, the place is among those that follow. -/
theorem place?_append_of_none {early : List (Fragment σ)}
    (found : early.findIdx? needsContext = none) (later : List (Fragment σ)) (asked : Bool) :
    place? (early ++ later) asked = (place? later asked).map (· + early.length) := by
  rw [place?, place?, List.findIdx?_append, found, List.length_append]
  cases later.findIdx? needsContext with
  | some place => rfl
  | none =>
      cases asked with
      | true => simp [Nat.add_comm]
      | false => rfl

end Fragment

/-- Arranged fragments, and behind them an allocation that only what follows asks
for, are laid out with the allocation at its place. -/
theorem Stage.arrange_eq_laid (fragments : List (Fragment σ)) (asked : Bool) :
    arrange false fragments ++
        (Draft.tail (asked && !fragments.any Fragment.needsContext)).filterMap Draft.stage? =
      laid fragments (Fragment.place? fragments asked) := by
  induction fragments with
  | nil => cases asked <;> rfl
  | cons fragment rest ih =>
      rw [Fragment.place?_cons]
      cases needs : fragment.needsContext with
      | true => simp [arrange, needs, arrange_ready, laid, Draft.tail]
      | false =>
          simp only [Bool.false_eq_true, if_false, laid_cons, ← ih]
          simp [arrange, needs]

namespace Draft

theorem split_tail (allocates : Bool) :
    split (tail allocates : List (Item σ)) = ((tail allocates).filterMap stage?, none) := by
  cases allocates <;> rfl

theorem split_of_prompt {fragments : List (Fragment σ)}
    (prompt : ∀ fragment ∈ fragments, fragment.deferred = false) (asked : Bool) :
    split (placed false false fragments ++
        tail (asked && !fragments.any Fragment.needsContext)) =
      (Stage.laid fragments (Fragment.place? fragments asked), none) := by
  rw [split_placed_prompt prompt, split_tail, ← Stage.arrange_eq_laid]

/-- The first fragment that may stop opens the scope, and the allocation is on the
side where its place is. -/
theorem split_of_deferred {early later : List (Fragment σ)} {first : Fragment σ}
    (prompt : ∀ fragment ∈ early, fragment.deferred = false) (deferred : first.deferred = true)
    (asked : Bool) :
    split (placed false false (early ++ first :: later) ++
        tail (asked && !(early ++ first :: later).any Fragment.needsContext)) =
      match early.findIdx? Fragment.needsContext with
      | some place => (Stage.laid early (some place), some ((first :: later).map .group))
      | none => (early.map .group,
          some (Stage.laid (first :: later) (Fragment.place? (first :: later) asked))) := by
  have closed : early.any Fragment.deferred = false := by
    rw [List.any_eq_false]
    intro fragment mem
    rw [prompt fragment mem]
    exact Bool.false_ne_true
  have eager := Stage.arrange_eq_laid early false
  rw [Bool.false_and, tail, if_neg Bool.false_ne_true, List.filterMap_nil, List.append_nil] at eager
  rw [placed_append, List.append_assoc, split_placed_prompt prompt, closed, Bool.or_false,
    split_placed_deferred deferred, List.append_nil, Bool.false_or, eager, List.any_append]
  cases found : early.findIdx? Fragment.needsContext with
  | some place =>
      have uses : early.any Fragment.needsContext = true := by
        rw [← List.findIdx?_isSome, found]
        rfl
      simp [uses, Stage.arrange_ready, Fragment.place?, found, tail]
  | none =>
      have unused : early.any Fragment.needsContext = false := by
        rw [← List.findIdx?_isSome, found]
        rfl
      rw [unused, Bool.false_or, Stage.arrange_eq_laid]
      simp [Fragment.place?, found, Stage.laid]

end Draft

namespace RoutePlan

def opening? (plan : RoutePlan σ) : Option Nat := plan.groups.findIdx? (·.traits.suspends)

/-- The place of the first group that uses the context, or the end of the groups if
only the terminal does. -/
def allocation? (plan : RoutePlan σ) : Option Nat :=
  (plan.groups.findIdx? (·.traits.needsContext)).or
    (if plan.terminal.needsContext then some plan.groups.length else none)

/-- What is found among the groups of a plan is found at the same place among their
compiled forms. -/
theorem findIdx?_of_forms {groups : List (Group σ)} {fragments : List (Fragment σ)}
    (forms : List.Forall₂ (fun group fragment => fragment.FormOf group) groups fragments)
    {wanted : Group σ → Bool} {sought : Fragment σ → Bool}
    (same : ∀ group fragment, fragment.FormOf group → sought fragment = wanted group) :
    fragments.findIdx? sought = groups.findIdx? wanted := by
  induction forms with
  | nil => rfl
  | cons form _ ih => rw [List.findIdx?_cons, List.findIdx?_cons, same _ _ form, ih]

variable {plan : RoutePlan σ} {fragments : List (Fragment σ)}

theorem opening?_of_forms
    (forms : List.Forall₂ (fun group fragment => fragment.FormOf group) plan.groups fragments) :
    fragments.findIdx? Fragment.deferred = plan.opening? := by
  apply findIdx?_of_forms forms
  intro group fragment form
  rw [form.deferred, group.traits_eq]

theorem allocation?_of_forms
    (forms : List.Forall₂ (fun group fragment => fragment.FormOf group) plan.groups fragments) :
    Fragment.place? fragments plan.terminal.needsContext = plan.allocation? := by
  have uses : fragments.findIdx? Fragment.needsContext =
      plan.groups.findIdx? (·.traits.needsContext) := by
    apply findIdx?_of_forms forms
    intro group fragment form
    rw [form.needsContext, group.traits_eq]
  rw [Fragment.place?, allocation?, uses, forms.length_eq]

end RoutePlan

/-- Fragments are cut in front of the first one that may stop. -/
theorem Fragment.cut_of_findIdx? {fragments : List (Fragment σ)} {opening : Nat}
    (opened : fragments.findIdx? deferred = some opening) :
    ∃ early first later, fragments = early ++ first :: later ∧ early.length = opening ∧
      first.deferred = true ∧ ∀ fragment ∈ early, fragment.deferred = false := by
  obtain ⟨bound, opens, prompt⟩ := List.findIdx?_eq_some_iff_getElem.1 opened
  refine ⟨fragments.take opening, fragments[opening], fragments.drop (opening + 1), ?_, ?_,
    opens, ?_⟩
  · rw [List.getElem_cons_drop, List.take_append_drop]
  · rw [List.length_take]
    omega
  · intro fragment mem
    obtain ⟨place, less, rfl⟩ := List.getElem_of_mem mem
    rw [List.getElem_take]
    rw [List.length_take] at less
    simpa using prompt place (by omega)

namespace Chain.Joins

variable {chain : Chain σ} {plan : RoutePlan σ} {unhandled : Response} {switch : FaultSwitch σ}

/-- The layout of a chain, in terms of the groups of its plan. -/
theorem layout_eq (joins : chain.Joins chain.fragments (plan.terminal.endpoint unhandled) switch)
    (forms : List.Forall₂ (fun group fragment => fragment.FormOf group) plan.groups
      chain.fragments) :
    match plan.opening? with
    | none => chain.eager = Stage.laid chain.fragments plan.allocation? ∧ chain.scope = none
    | some opening =>
      chain.eager = Stage.laid (chain.fragments.take opening)
          (plan.allocation?.filter (· < opening)) ∧
        chain.scope = some (Stage.laid (chain.fragments.drop opening)
          ((plan.allocation?.filter (opening ≤ ·)).map (· - opening))) := by
  have layout := joins.layout
  rw [joins.endpoint, plan.terminal.needsContext_endpoint] at layout
  rw [← RoutePlan.opening?_of_forms forms, ← RoutePlan.allocation?_of_forms forms]
  generalize chain.fragments = fragments at layout
  generalize plan.terminal.needsContext = asked at layout
  cases opened : fragments.findIdx? Fragment.deferred with
  | none =>
      rw [Draft.split_of_prompt (List.findIdx?_eq_none_iff.1 opened)] at layout
      obtain ⟨eager, scope⟩ := Prod.mk.inj layout
      exact ⟨eager.symm, scope.symm⟩
  | some opening =>
      obtain ⟨early, first, later, rfl, rfl, deferred, prompt⟩ := Fragment.cut_of_findIdx? opened
      rw [Draft.split_of_deferred prompt deferred] at layout
      simp only [List.take_left, List.drop_left]
      -- The allocation is eager only if a group in front of the opening asks for it.
      cases found : early.findIdx? Fragment.needsContext with
      | some place =>
          obtain ⟨less, _, _⟩ := List.findIdx?_eq_some_iff_getElem.1 found
          rw [found] at layout
          obtain ⟨eager, scope⟩ := Prod.mk.inj layout
          have before : ¬ early.length ≤ place := Nat.not_le_of_lt less
          rw [← eager, ← scope, Fragment.place?_append_of_some found]
          simp [Option.filter, less, before, Stage.laid]
      | none =>
          rw [found] at layout
          obtain ⟨eager, scope⟩ := Prod.mk.inj layout
          rw [← eager, ← scope, Fragment.place?_append_of_none found]
          cases Fragment.place? (first :: later) asked with
          | none => exact ⟨rfl, rfl⟩
          | some place =>
              have behind : ¬ place + early.length < early.length := by omega
              simp [Option.filter, behind, Stage.laid]

end Chain.Joins

theorem Chain.Uses.forms {chain : Chain σ} {plan : RoutePlan σ} {cache : FragmentCache σ}
    {directory : Directory σ} (uses : chain.Uses plan cache) (faithful : cache.Faithful directory)
    (listed : ∀ group ∈ plan.groups, directory.ListsGroup group) :
    List.Forall₂ (fun group fragment => fragment.FormOf group) plan.groups chain.fragments := by
  have found := uses.fragments
  generalize plan.groups = groups at found listed
  generalize chain.fragments = fragments at found
  induction found with
  | nil => exact .nil
  | @cons group fragment groups fragments here _ ih =>
      obtain ⟨known, later⟩ := List.forall_mem_cons.1 listed
      obtain ⟨mem, number⟩ := FragmentCache.of_find? here
      have represents := faithful fragment mem
      rw [number, known.1] at represents
      exact .cons ⟨represents, number⟩ (ih later)

namespace Compiler

variable {directory : Directory σ} (registry : FaultRegistry) (unhandled : Response)
  {history : List (RoutePlan σ × Bool)} {plan : RoutePlan σ} {chain : Chain σ}

/-- Every stage has its place. Over any history of plans, take any plan that compiles
and its chain.

* The fragments of the chain are the compiled forms of the plan's groups, in order.
* If no group may stop, there is no scope, and the fragments are eager.
* If the first group that may stop is the one at the opening, there is a scope: the
  fragments before the opening are eager, and those from the opening on are in it.
* The allocation stands directly in front of the first group that uses the context,
  and so in the scope if that group does not come before the opening. If only the
  terminal uses the context, it is the last stage, in the scope if there is one. If
  neither does, there is no allocation, and there is never a second one. -/
theorem stages_have_places
    (listed : ∀ entry ∈ history, ∀ group ∈ entry.1.groups, directory.ListsGroup group)
    (compiled : (plan, chain) ∈ (new registry unhandled).chains history) :
    List.Forall₂ (fun group fragment => fragment.FormOf group) plan.groups chain.fragments ∧
    (plan.opening? = none →
      chain.scope = none ∧ chain.eager = Stage.laid chain.fragments plan.allocation?) ∧
    (∀ opening, plan.opening? = some opening →
      chain.eager = Stage.laid (chain.fragments.take opening)
        (plan.allocation?.filter (· < opening)) ∧
      chain.scope = some (Stage.laid (chain.fragments.drop opening)
        ((plan.allocation?.filter (opening ≤ ·)).map (· - opening)))) ∧
    chain.stages.countP Stage.allocates = if plan.allocation?.isSome then 1 else 0 := by
  have uses := uses_of_mem_chains registry unhandled listed compiled
  obtain ⟨kept, _, _⟩ := memoises_after listed (memoises_new registry unhandled)
  obtain ⟨source, given, same⟩ := mem_history_of_mem_chains compiled
  have forms := uses.forms kept.cache (same ▸ listed source given)
  obtain ⟨switch, _, joins⟩ := uses.joins
  have layout := joins.layout_eq forms
  refine ⟨forms, ?_, ?_, ?_⟩
  · intro none
    rw [none] at layout
    exact layout.symm
  · intro opening opened
    rw [opened] at layout
    exact layout
  · rw [joins.stages_eq, joins.endpoint, plan.terminal.needsContext_endpoint,
      Stage.arrange_eq_laid, RoutePlan.allocation?_of_forms forms, Stage.allocates_laid]

end Compiler

namespace Sample

/-- A group that may stop comes before the first one that uses the context. -/
def detour : RoutePlan Nat := ⟨[visits, gate, entrance], welcome, faults⟩

theorem listsGroup_detour : ∀ entry ∈ plans ++ [(detour, false)], ∀ group ∈ entry.1.groups,
    directory.ListsGroup group := by
  intro entry mem
  rcases List.mem_append.1 mem with old | last
  · exact listsGroup_plans entry old
  · obtain rfl := List.mem_singleton.1 last
    exact (listsPlan (by simp) _ rfl : directory.ListsPlan detour).groups

/-- The scope opens in front of the gate, and the context is allocated inside it, in
front of the entrance. -/
theorem detour_places :
    detour.opening? = some 1 ∧ detour.allocation? = some 2 ∧
    ∃ chain, (detour, chain) ∈ (Compiler.new registry unhandled).chains
      (plans ++ [(detour, false)]) ∧
    ∃ first second third, chain.eager = [.group first] ∧
      chain.scope = some [.group second, .allocate, .group third] ∧
      first.FormOf visits ∧ second.FormOf gate ∧ third.FormOf entrance := by
  obtain ⟨chain, last⟩ : ∃ chain, (detour, chain) ∈
      (Compiler.new registry unhandled).chains (plans ++ [(detour, false)]) :=
    ⟨_, List.mem_of_getLast? rfl⟩
  obtain ⟨forms, _, opened, _⟩ :=
    Compiler.stages_have_places registry unhandled listsGroup_detour last
  obtain ⟨eager, scope⟩ := opened 1 rfl
  refine ⟨rfl, rfl, chain, last, ?_⟩
  generalize chain.fragments = fragments at forms eager scope
  obtain ⟨first, _, isVisits, later, rfl⟩ := List.forall₂_cons_left_iff.1 forms
  obtain ⟨second, _, isGate, last, rfl⟩ := List.forall₂_cons_left_iff.1 later
  obtain ⟨third, _, isEntrance, ⟨⟩, rfl⟩ := List.forall₂_cons_left_iff.1 last
  exact ⟨first, second, third, eager, scope, isVisits, isGate, isEntrance⟩

end Sample

end RouteTree
