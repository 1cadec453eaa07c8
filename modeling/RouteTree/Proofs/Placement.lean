import Mathlib.Data.List.Forall2
import RouteTree.Proofs.Delivery
import RouteTree.Proofs.Fragments

/-!
# Placing groups in a chain

The groups of a route become fragments in order. Those in front of the first
one that may stop are eager, and that one and all later ones are in the deferred
scope. The allocation of the context stands in front of the first fragment that
uses it, or at the end if only the terminal does.
-/

namespace RouteTree

open Http

variable {σ : Type}

namespace Stage

/-- Fragments in order, with the allocation in front of the first that uses the
context, unless there is one already. -/
def arrange (ready : Bool) : List (Fragment σ) → List (Stage σ)
  | [] => []
  | fragment :: rest =>
    (if fragment.needsContext && !ready then [.allocate] else []) ++
      .group fragment :: arrange (ready || fragment.needsContext) rest

@[simp] theorem ops_arrange (ready : Bool) (fragments : List (Fragment σ)) :
    (arrange ready fragments).flatMap ops = fragments.flatMap Fragment.ops := by
  induction fragments generalizing ready with
  | nil => rfl
  | cons fragment rest ih =>
      simp only [arrange, List.flatMap_append, List.flatMap_cons, ops, ih]
      split <;> simp [ops]

end Stage

/-- What holds in either case of a flag holds of the cases that it chooses. -/
theorem rel_ite {α β : Type} (R : α → β → Prop) (flag : Bool) {first first' : α}
    {second second' : β} (yes : R first second) (no : R first' second') :
    R (if flag then first else first') (if flag then second else second') := by
  cases flag with
  | false => exact no
  | true => exact yes

namespace Draft

/-- The elements that fragments add to a draft whose scope has been opened, or
whose context has been allocated, or not. -/
def placed (scopeOpen contextReady : Bool) : List (Fragment σ) → List (Item σ)
  | [] => []
  | fragment :: rest =>
    (if fragment.deferred && !scopeOpen then [.openScope] else []) ++
      (if fragment.needsContext && !contextReady then [.allocate] else []) ++
      .group fragment ::
        placed (scopeOpen || fragment.deferred) (contextReady || fragment.needsContext) rest

theorem placed_append (scopeOpen contextReady : Bool) (first second : List (Fragment σ)) :
    placed scopeOpen contextReady (first ++ second) =
      placed scopeOpen contextReady first ++
        placed (scopeOpen || first.any Fragment.deferred)
          (contextReady || first.any Fragment.needsContext) second := by
  induction first generalizing scopeOpen contextReady with
  | nil => simp [placed]
  | cons fragment rest ih => simp [placed, ih, Bool.or_assoc]

/-- What adding fragments does to a draft: they are placed behind the elements
that were there, and the flags are raised if they ask for it. -/
structure Adds (draft : Draft σ) (fragments : List (Fragment σ)) (after : Draft σ) : Prop where
  items : after.items = draft.items ++ placed draft.scopeOpen draft.contextReady fragments
  scopeOpen : after.scopeOpen = (draft.scopeOpen || fragments.any Fragment.deferred)
  contextReady : after.contextReady = (draft.contextReady || fragments.any Fragment.needsContext)

theorem Adds.refl (draft : Draft σ) : draft.Adds [] draft := by
  constructor <;> simp [placed]

theorem Adds.trans {draft middle after : Draft σ} {fragments later : List (Fragment σ)}
    (first : draft.Adds fragments middle) (second : middle.Adds later after) :
    draft.Adds (fragments ++ later) after := by
  refine ⟨?_, ?_, ?_⟩
  · rw [second.items, first.items, first.scopeOpen, first.contextReady, placed_append,
      List.append_assoc]
  · rw [second.scopeOpen, first.scopeOpen, List.any_append, Bool.or_assoc]
  · rw [second.contextReady, first.contextReady, List.any_append, Bool.or_assoc]

theorem adds_addGroup (draft : Draft σ) (group : Group σ) :
    draft.Adds [(group.compile draft).1] (draft.addGroup group) := by
  have items : (group.compile draft).2.items = draft.items := items_compiledGroup
  have scopeOpen : (group.compile draft).2.scopeOpen = draft.scopeOpen := scopeOpen_compiledGroup
  have contextReady : (group.compile draft).2.contextReady = draft.contextReady :=
    contextReady_compiledGroup
  rw [addGroup]
  generalize group.compile draft = out at items scopeOpen contextReady ⊢
  obtain ⟨fragment, compiled⟩ := out
  -- Four flags decide what is added in front of the fragment.
  cases deferred : fragment.deferred <;> cases needs : fragment.needsContext <;>
    cases isOpen : draft.scopeOpen <;> cases ready : draft.contextReady <;>
    constructor <;>
    simp_all [openScope, allocate, emit, placed]

@[simp] theorem tables_openScope (draft : Draft σ) : draft.openScope.tables = draft.tables := by
  rw [openScope]
  split <;> rfl

@[simp] theorem tables_allocate (draft : Draft σ) : draft.allocate.tables = draft.tables := by
  rw [allocate]
  split <;> rfl

theorem tables_addGroup (draft : Draft σ) (group : Group σ) :
    (draft.addGroup group).tables = (group.compile draft).2.tables := by
  rw [addGroup]
  generalize group.compile draft = out
  obtain ⟨fragment, compiled⟩ := out
  cases deferred : fragment.deferred <;> cases needs : fragment.needsContext <;>
    simp [emit, deferred, needs]

/-- Adding groups adds their compiled forms in order. What is known of compiling
each of them, while the cache is as it should be, is known of all. -/
theorem adds_foldl_addGroup (represents : Group σ → Fragment σ → Prop)
    (kept : FragmentCache σ → Prop) {groups : List (Group σ)}
    (each : ∀ group ∈ groups, ∀ draft : Draft σ, kept draft.tables.cache →
      represents group (group.compile draft).1 ∧ kept (group.compile draft).2.tables.cache)
    (draft : Draft σ) (cache : kept draft.tables.cache) :
    ∃ fragments, List.Forall₂ represents groups fragments ∧
      draft.Adds fragments (groups.foldl addGroup draft) ∧
      kept (groups.foldl addGroup draft).tables.cache := by
  induction groups generalizing draft with
  | nil => exact ⟨[], .nil, .refl draft, cache⟩
  | cons group rest ih =>
      obtain ⟨here, later⟩ := List.forall_mem_cons.1 each
      obtain ⟨compiled, cache⟩ := here draft cache
      rw [← draft.tables_addGroup group] at cache
      obtain ⟨fragments, others, adds, cache⟩ := ih later (draft.addGroup group) cache
      exact ⟨_ :: fragments, .cons compiled others, (draft.adds_addGroup group).trans adds, cache⟩

/-! ## Cutting the chain -/

/-- Once the scope is open, the stages of fragments are the fragments arranged. -/
theorem stages_placed (contextReady : Bool) (fragments : List (Fragment σ)) :
    (placed true contextReady fragments).filterMap stage? =
      Stage.arrange contextReady fragments := by
  induction fragments generalizing contextReady with
  | nil => rfl
  | cons fragment rest ih =>
      simp only [placed, Stage.arrange, List.filterMap_append, Bool.not_true, Bool.and_false,
        Bool.false_eq_true, if_false, Bool.true_or, List.nil_append]
      split <;> simp [stage?, ih]

theorem openScope_notMem_placed (contextReady : Bool) (fragments : List (Fragment σ)) :
    .openScope ∉ placed true contextReady fragments := by
  induction fragments generalizing contextReady with
  | nil => exact List.not_mem_nil
  | cons fragment rest ih =>
      simp only [placed, Bool.not_true, Bool.and_false, Bool.false_eq_true, if_false,
        Bool.true_or, List.nil_append]
      split <;> simp [ih]

/-- Fragments that may not stop open no scope. -/
theorem placed_of_prompt {fragments : List (Fragment σ)}
    (prompt : ∀ fragment ∈ fragments, fragment.deferred = false) (contextReady : Bool) :
    placed false contextReady fragments = placed true contextReady fragments := by
  induction fragments generalizing contextReady with
  | nil => rfl
  | cons fragment rest ih =>
      obtain ⟨here, later⟩ := List.forall_mem_cons.1 prompt
      simp only [placed, here, Bool.false_and, Bool.or_false, ih later]

/-- The first fragment that may stop opens the scope, and no later one does. -/
theorem placed_of_deferred {first : Fragment σ} (deferred : first.deferred = true)
    (contextReady : Bool) (later : List (Fragment σ)) :
    placed false contextReady (first :: later) =
      .openScope :: placed true contextReady (first :: later) := by
  simp [placed, deferred]

/-- Stages that stand in front stay there. -/
theorem foldl_place_append (before : List (Stage σ))
    (parts : List (Stage σ) × Option (List (Stage σ))) (items : List (Item σ)) :
    items.foldl place (before ++ parts.1, parts.2) =
      (before ++ (items.foldl place parts).1, (items.foldl place parts).2) := by
  induction items generalizing parts with
  | nil => rfl
  | cons item rest ih =>
      have step : place (before ++ parts.1, parts.2) item =
          (before ++ (place parts item).1, (place parts item).2) := by
        obtain ⟨eager, _ | scope⟩ := parts <;> cases item <;> simp [place]
      rw [List.foldl_cons, List.foldl_cons, step, ih]

/-- Without an opening of the scope all stages stay on their side. -/
theorem foldl_place_of_notMem {items : List (Item σ)} (closed : .openScope ∉ items)
    (eager : List (Stage σ)) :
    items.foldl place (eager, none) = (eager ++ items.filterMap stage?, none) ∧
      ∀ scope, items.foldl place (eager, some scope) =
        (eager, some (scope ++ items.filterMap stage?)) := by
  induction items generalizing eager with
  | nil => simp
  | cons item rest ih =>
      obtain ⟨here, later⟩ := not_or.1 (mt List.mem_cons.2 closed)
      cases item with
      | openScope => exact absurd rfl here
      | op | allocate | group => simp [place, ih later, stage?, List.filterMap_cons]

theorem split_placed_prompt {fragments : List (Fragment σ)}
    (prompt : ∀ fragment ∈ fragments, fragment.deferred = false) (contextReady : Bool)
    (rest : List (Item σ)) :
    split (placed false contextReady fragments ++ rest) =
      (Stage.arrange contextReady fragments ++ (split rest).1, (split rest).2) := by
  obtain ⟨eager, _⟩ := foldl_place_of_notMem (openScope_notMem_placed contextReady fragments) []
  rw [split, List.foldl_append, placed_of_prompt prompt, eager, stages_placed, List.nil_append]
  have behind := foldl_place_append (Stage.arrange contextReady fragments) ([], none) rest
  rw [List.append_nil] at behind
  exact behind

/-- What may follow the fragments: the allocation for the terminal, or nothing. -/
def tail (allocates : Bool) : List (Item σ) := if allocates then [.allocate] else []

/-- The first fragment that may stop opens the scope, and everything from there
on is in it. -/
theorem split_placed_deferred {first : Fragment σ} (deferred : first.deferred = true)
    (contextReady : Bool) (later : List (Fragment σ)) (allocates : Bool) :
    split (placed false contextReady (first :: later) ++ tail allocates) =
      ([], some (Stage.arrange contextReady (first :: later) ++
        (tail allocates).filterMap stage?)) := by
  have closed : .openScope ∉ placed true contextReady (first :: later) ++ tail allocates := by
    rw [List.mem_append, not_or]
    refine ⟨openScope_notMem_placed contextReady _, ?_⟩
    cases allocates <;> simp [tail]
  obtain ⟨_, scope⟩ := foldl_place_of_notMem closed []
  rw [split, placed_of_deferred deferred, List.cons_append, List.foldl_cons]
  refine (scope []).trans ?_
  rw [List.filterMap_append, stages_placed, List.nil_append]

@[simp] theorem ops_stages_tail (allocates : Bool) :
    ((tail allocates : List (Item σ)).filterMap stage?).flatMap Stage.ops = [] := by
  cases allocates <;> rfl

/-- Cutting the elements of a route in front of the first fragment that may
stop keeps all calls, and there is a scope only if there is such a fragment. -/
theorem ops_split (contextReady : Bool) (fragments : List (Fragment σ)) (allocates : Bool) :
    (split (placed false contextReady fragments ++ tail allocates)).1.flatMap Stage.ops =
        (fragments.takeWhile (!·.deferred)).flatMap Fragment.ops ∧
      ((split (placed false contextReady fragments ++ tail allocates)).2.getD []).flatMap
          Stage.ops =
        (fragments.dropWhile (!·.deferred)).flatMap Fragment.ops ∧
      (split (placed false contextReady fragments ++ tail allocates)).2.isSome =
        fragments.any Fragment.deferred := by
  induction fragments generalizing contextReady with
  | nil => cases allocates <;> exact ⟨rfl, rfl, rfl⟩
  | cons fragment rest ih =>
      cases deferred : fragment.deferred with
      | true =>
          rw [split_placed_deferred deferred]
          simp [deferred]
      | false =>
          have first : ∀ other ∈ [fragment], other.deferred = false := by simpa using deferred
          obtain ⟨eager, scope, opened⟩ := ih (contextReady || fragment.needsContext)
          rw [← List.singleton_append, placed_append, List.append_assoc,
            split_placed_prompt first]
          simpa [deferred] using ⟨eager, scope, opened⟩

end Draft

/-! ## The chain of a plan -/

def Group.ops (group : Group σ) : List (Op σ) := Handler.opsAll group.handlers

theorem Group.interpretAll_eq_ops (groups : List (Group σ)) (walk : Walk σ) :
    interpretAll groups walk = Op.interpretAll (groups.flatMap ops) walk := by
  induction groups generalizing walk with
  | nil => rfl
  | cons group rest ih =>
      simp only [interpretAll, List.flatMap_cons, Op.interpretAll_append, ops,
        Handler.interpretAll_eq_ops]
      rcases Op.interpretAll (Handler.opsAll group.handlers) walk with ⟨_ | fault, after⟩
      · exact ih after
      · rfl

/-- The compiled forms of groups can be told apart, by whether they may stop,
just as the groups can. -/
theorem Group.ops_compiled {groups : List (Group σ)} {fragments : List (Fragment σ)}
    (compiled : List.Forall₂ (fun group fragment => fragment.Represents group.handlers)
      groups fragments) :
    (fragments.takeWhile (!·.deferred)).flatMap Fragment.ops =
        (groups.takeWhile (!·.traits.suspends)).flatMap ops ∧
      (fragments.dropWhile (!·.deferred)).flatMap Fragment.ops =
        (groups.dropWhile (!·.traits.suspends)).flatMap ops ∧
      fragments.any Fragment.deferred = groups.any (·.traits.suspends) := by
  induction compiled with
  | nil => exact ⟨rfl, rfl, rfl⟩
  | @cons group fragment groups fragments represents rest ih =>
      obtain ⟨eager, scope, opened⟩ := ih
      have same : fragment.deferred = group.traits.suspends := by
        rw [represents.deferred, group.traits_eq]
      have calls : fragment.ops = group.ops := represents.ops
      cases suspends : group.traits.suspends with
      | true =>
          have whole : fragments.flatMap Fragment.ops = groups.flatMap ops := by
            rw [← List.takeWhile_append_dropWhile (l := fragments),
              ← List.takeWhile_append_dropWhile (l := groups), List.flatMap_append,
              List.flatMap_append, eager, scope]
          simp [same, suspends, calls, whole]
      | false => simp [same, suspends, calls, eager, scope, opened]

theorem Terminal.endpoint_compile (terminal : Terminal σ) (payload : Option String)
    (inScope : Bool) (unhandled : Response) (values : ValueTable) :
    (terminal.compile payload inScope unhandled values).1.endpoint =
      terminal.endpoint unhandled := by
  cases terminal <;> rfl

theorem Terminal.needsContext_compile (terminal : Terminal σ) (payload : Option String)
    (inScope : Bool) (unhandled : Response) (values : ValueTable) :
    (terminal.compile payload inScope unhandled values).1.needsContext =
      terminal.needsContext := by
  cases terminal <;> rfl

def Endpoint.needsContext : Endpoint σ → Bool
  | .function callback => callback.needsContext
  | .formatted callback _ _ => callback.needsContext
  | .fixed _ => false

@[simp] theorem Terminal.needsContext_endpoint (terminal : Terminal σ) (unhandled : Response) :
    (terminal.endpoint unhandled).needsContext = terminal.needsContext := by
  cases terminal <;> rfl

namespace Draft

/-- Adding a terminal adds at most an allocation, and compiles no group. -/
theorem items_addTerminal (draft : Draft σ) (terminal : Terminal σ) (unhandled : Response) :
    (draft.addTerminal terminal unhandled).2.items =
      draft.items ++ tail (terminal.needsContext && !draft.contextReady) := by
  simp only [addTerminal, terminal.needsContext_compile]
  cases needs : terminal.needsContext <;> cases ready : draft.contextReady <;>
    simp [allocate, emit, setValues, note, tail, ready]

theorem cache_addTerminal (draft : Draft σ) (terminal : Terminal σ) (unhandled : Response) :
    (draft.addTerminal terminal unhandled).2.tables.cache = draft.tables.cache := by
  simp only [addTerminal, note]
  split <;> simp [setValues]

end Draft

end RouteTree
