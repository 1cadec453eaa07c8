import RouteTree.Proofs.Memoisation

/-!
# Nothing that may stop runs at once

The flag of a group says whether it may stop. It is worked out when the group is
put together, long before its calls are: those are gathered when the group is
compiled, with the calls of nested groups taken from the cache. The two agree, so
the stages that run at once make no call that may stop and no route is aborted.
-/

namespace RouteTree

open Http

variable {σ : Type}

theorem Delivers.start_ne_aborted {task : Task Event σ (Reply σ)} {before middle : Walk σ}
    {out : Response × Walk σ} {deferred : Bool}
    (delivers : Delivers task before middle out deferred) :
    (Reply.start task before.state).1 ≠ .aborted := by
  rw [Reply.start_of_stops_eq_zero delivers.prompt]
  intro aborted
  cases delivers with
  | ready value _ _ => cases value.symm.trans aborted
  | pending value _ _ _ => cases value.symm.trans aborted

namespace Chain.Uses

variable {chain : Chain σ} {plan : RoutePlan σ} {cache : FragmentCache σ} {fragment : Fragment σ}

/-- Each fragment of the chain is what the cache has for a group of the plan. -/
theorem exists_group (uses : chain.Uses plan cache) (mem : fragment ∈ chain.fragments) :
    ∃ group ∈ plan.groups, cache.find? group.id = some fragment := by
  have pairs := uses.fragments
  generalize plan.groups = groups at pairs ⊢
  generalize chain.fragments = fragments at pairs mem
  induction pairs with
  | nil => cases mem
  | @cons group first groups rest found _ ih =>
      rcases List.mem_cons.1 mem with rfl | later
      · exact ⟨group, List.mem_cons_self, found⟩
      · obtain ⟨other, there, found⟩ := ih later
        exact ⟨other, List.mem_cons_of_mem _ there, found⟩

theorem mem_cache (uses : chain.Uses plan cache) (mem : fragment ∈ chain.fragments) :
    fragment ∈ cache.fragments := by
  obtain ⟨_, _, found⟩ := uses.exists_group mem
  exact (FragmentCache.of_find? found).1

/-- The fragments that run at once are fragments of the chain that may not stop. -/
theorem of_mem_eager (uses : chain.Uses plan cache)
    (mem : fragment ∈ chain.eager.filterMap Stage.fragment?) :
    fragment ∈ chain.fragments ∧ fragment.deferred = false := by
  obtain ⟨_, _, joins⟩ := uses.joins
  rw [joins.eager_fragments] at mem
  refine ⟨List.takeWhile_subset _ mem, ?_⟩
  simpa using List.all_eq_true.1 List.all_takeWhile fragment mem

theorem start_ne_aborted (uses : chain.Uses plan cache)
    (prompt : ∀ op ∈ chain.eager.flatMap Stage.ops, op.suspends = false)
    (params : Option Params) (state : σ) :
    (Reply.start (chain.invoke params) state).1 ≠ .aborted := by
  obtain ⟨_, ⟨table, unhandled, rfl⟩, joins⟩ := uses.joins
  -- The table of the switch stands for the plan's own, which may be another of its number.
  have delivers := @Chain.delivers_invoke σ chain { plan with faults := table } unhandled
    joins.endpoint joins.switch prompt params state
  exact delivers.start_ne_aborted

end Chain.Uses

theorem Stage.mem_ops_iff {stages : List (Stage σ)} {op : Op σ} :
    op ∈ stages.flatMap ops ↔ ∃ fragment ∈ stages.filterMap fragment?, op ∈ fragment.ops := by
  simp only [List.mem_flatMap, List.mem_filterMap]
  constructor
  · rintro ⟨stage, there, inside⟩
    cases stage with
    | allocate => cases inside
    | group fragment => exact ⟨fragment, ⟨_, there, rfl⟩, inside⟩
  · rintro ⟨fragment, ⟨stage, there, same⟩, inside⟩
    cases stage with
    | allocate => cases same
    | group other =>
        cases same
        exact ⟨_, there, inside⟩

namespace Compiler

variable {directory : Directory σ} (registry : FaultRegistry) (unhandled : Response)
  {history : List (RoutePlan σ × Bool)}

/-- The flags of a compiled group are those of its calls. -/
theorem flags_of_mem_cache
    (listed : ∀ entry ∈ history, ∀ group ∈ entry.1.groups, directory.ListsGroup group)
    {fragment : Fragment σ}
    (mem : fragment ∈ ((new registry unhandled).after history).tables.cache.fragments) :
    fragment.deferred = fragment.ops.any Op.suspends ∧
      fragment.needsContext = fragment.ops.any Op.needsContext := by
  obtain ⟨represents, sound, _⟩ := represents_of_mem_cache registry unhandled listed mem
  exact represents.flags_of_ops sound

/-- The stages of a compiled chain that run at once make no call that may stop. -/
theorem prompt_eager
    (listed : ∀ entry ∈ history, ∀ group ∈ entry.1.groups, directory.ListsGroup group)
    {entry : RoutePlan σ × Chain σ} (mem : entry ∈ (new registry unhandled).chains history) :
    ∀ op ∈ entry.2.eager.flatMap Stage.ops, op.suspends = false := by
  have uses := uses_of_mem_chains registry unhandled listed mem
  intro op inside
  obtain ⟨fragment, early, there⟩ := Stage.mem_ops_iff.1 inside
  obtain ⟨used, prompt⟩ := uses.of_mem_eager early
  obtain ⟨flag, _⟩ := flags_of_mem_cache registry unhandled listed (uses.mem_cache used)
  rw [flag, List.any_eq_false] at prompt
  simpa using prompt op there

/-- No compiled route is aborted. Over any history of plans, with or without
defects and sharing groups in any way, a group in the cache is flagged as one that
may stop exactly when it has a call that may. The fragments of every chain come
from the cache, those that run at once make no call that may stop, and whatever
the request and the state, starting the chain gives a reply. -/
theorem chains_never_abort
    (listed : ∀ entry ∈ history, ∀ group ∈ entry.1.groups, directory.ListsGroup group) :
    let cache := ((new registry unhandled).after history).tables.cache
    (∀ fragment ∈ cache.fragments,
      (fragment.deferred = true ↔ ∃ op ∈ fragment.ops, op.suspends = true)) ∧
    ∀ entry ∈ (new registry unhandled).chains history,
      (∀ fragment ∈ entry.2.fragments, fragment ∈ cache.fragments) ∧
      (∀ fragment ∈ entry.2.eager.filterMap Stage.fragment?, ∀ op ∈ fragment.ops,
        op.suspends = false) ∧
      ∀ params state, (Reply.start (entry.2.invoke params) state).1 ≠ .aborted := by
  intro cache
  constructor
  · intro fragment mem
    rw [(flags_of_mem_cache registry unhandled listed mem).1, List.any_eq_true]
  · intro entry mem
    have uses := uses_of_mem_chains registry unhandled listed mem
    have prompt := prompt_eager registry unhandled listed mem
    refine ⟨fun _ => uses.mem_cache, ?_, uses.start_ne_aborted prompt⟩
    intro fragment early op inside
    exact prompt op (Stage.mem_ops_iff.2 ⟨fragment, early, inside⟩)

end Compiler

/-- The last plan of the sample has a group that may stop behind one that runs at
once, and shares both with what was compiled before. -/
theorem Sample.plan_never_aborts :
    (∀ entry ∈ plans, ∀ group ∈ entry.1.groups, directory.ListsGroup group) ∧
    ∃ chain, (plan, chain) ∈ (Compiler.new registry unhandled).chains plans ∧
      (chain.eager.filterMap Stage.fragment?).map Fragment.group = [entrance.id] ∧
      ∀ state, (Reply.start (chain.invoke none) state).1 ≠ .aborted := by
  obtain ⟨_, chains⟩ := Compiler.chains_never_abort registry unhandled listsGroup_plans
  have last := List.mem_of_getLast? (l := (Compiler.new registry unhandled).chains plans) rfl
  refine ⟨listsGroup_plans, _, last, rfl, ?_⟩
  obtain ⟨_, _, replies⟩ := chains _ last
  exact replies none

end RouteTree
