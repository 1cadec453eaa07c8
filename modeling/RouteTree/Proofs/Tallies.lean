import RouteTree.Proofs.Placement
import RouteTree.Proofs.Registration

/-!
# What compiling counts

Compiling counts each group that it compiles and each reuse of one, and nothing
else. So the counters agree with the cache at any time: whatever the routes and
tables are, and whether the tree compiles or has a defect.
-/

namespace RouteTree

open Http

variable {σ : Type}

/-- What the counters of the compilation that left the cache come to. -/
def FragmentCache.tally (cache : FragmentCache σ) : Counter → Nat
  | .groupCompiled => cache.size
  | .groupReused => cache.hits
  | .request _ | .fault _ => 0

def Tables.Tallied (tables : Tables σ) : Prop :=
  ∀ counter, Event.total counter tables.events = tables.cache.tally counter

namespace Tables.Tallied

variable {tables : Tables σ}

theorem empty : ({} : Tables σ).Tallied := by
  intro counter
  cases counter <;> rfl

theorem withValues (tallied : tables.Tallied) (values : ValueTable) :
    { tables with values }.Tallied := tallied

theorem log (tallied : tables.Tallied) (record : Record) :
    (tables.record [.log record]).Tallied := by
  intro counter
  rw [events_record, Event.total_append, tallied counter]
  rfl

theorem reuse (tallied : tables.Tallied) (group : Nat) : (tables.reuse group).Tallied := by
  intro counter
  have events : (tables.reuse group).events =
      tables.events ++ [.count .groupReused, .log (.groupReused group)] := events_record _ _
  rw [events, Event.total_append, tallied counter]
  cases counter <;> rfl

theorem remember (tallied : tables.Tallied) (handlers : Nat) (fragment : Fragment σ) :
    (tables.remember handlers fragment).Tallied := by
  intro counter
  have events : (tables.remember handlers fragment).events =
      tables.events ++ [.log (.groupCompiled fragment.group handlers fragment.size
        fragment.deferred fragment.needsContext), .count .groupCompiled] := events_record _ _
  have size : (tables.remember handlers fragment).cache.size = tables.cache.size + 1 :=
    List.length_append
  rw [events, Event.total_append, tallied counter]
  cases counter with
  | groupCompiled =>
      rw [FragmentCache.tally, FragmentCache.tally, size]
      rfl
  | request | fault | groupReused => rfl

end Tables.Tallied

/-- A group from the cache is one more reuse, and a new one is kept. -/
theorem Draft.tallied_compiledGroup {draft : Draft σ} {group : Nat} {traits : Traits}
    {handlers : Nat} {build : Draft σ → Draft σ} (tallied : draft.tables.Tallied)
    (builds : ∀ child : Draft σ, child.tables.Tallied → (build child).tables.Tallied) :
    (draft.compiledGroup group traits handlers build).2.tables.Tallied := by
  rw [compiledGroup]
  split
  · exact tallied.reuse group
  · exact (builds draft.derive tallied).remember handlers _

namespace Handler

theorem tallied_compileAll_of_forall {handlers : List (Handler σ)}
    (each : ∀ handler ∈ handlers, ∀ draft : Draft σ, draft.tables.Tallied →
      (handler.compile draft).tables.Tallied)
    (draft : Draft σ) (tallied : draft.tables.Tallied) :
    (compileAll handlers draft).tables.Tallied := by
  induction handlers generalizing draft with
  | nil => exact tallied
  | cons handler rest ih =>
      obtain ⟨here, later⟩ := List.forall_mem_cons.1 each
      exact ih later (handler.compile draft) (here draft tallied)

theorem tallied_compile (handler : Handler σ) (draft : Draft σ) (tallied : draft.tables.Tallied) :
    (handler.compile draft).tables.Tallied := by
  induction handler using Handler.induction generalizing draft with
  | nested group traits handlers ih =>
      exact Draft.tallied_compiledGroup tallied (tallied_compileAll_of_forall ih)
  | checked callback target => exact tallied
  | unchecked callback target => exact tallied

end Handler

namespace Draft

theorem tallied_foldl_addGroup (groups : List (Group σ)) (draft : Draft σ)
    (tallied : draft.tables.Tallied) : (groups.foldl addGroup draft).tables.Tallied := by
  induction groups generalizing draft with
  | nil => exact tallied
  | cons group rest ih =>
      apply ih
      rw [tables_addGroup]
      exact tallied_compiledGroup tallied
        (Handler.tallied_compileAll_of_forall fun handler _ => handler.tallied_compile)

theorem tallied_addTerminal (draft : Draft σ) (terminal : Terminal σ) (unhandled : Response)
    (tallied : draft.tables.Tallied) :
    (draft.addTerminal terminal unhandled).2.tables.Tallied := by
  simp only [addTerminal, note]
  split
  · rw [tables_allocate]
    exact tallied.withValues _
  · exact tallied.withValues _

end Draft

namespace Compiler

variable {compiler : Compiler σ}

theorem tallied_compileFaults (tallied : compiler.tables.Tallied) (table : FaultTable σ) :
    (compiler.compileFaults table).2.tables.Tallied := by
  rw [compileFaults]
  split
  · exact tallied
  · split
    · exact tallied.withValues _
    · exact (tallied.withValues _).log _

theorem tallied_compile (tallied : compiler.tables.Tallied) (plan : RoutePlan σ)
    (parameterized : Bool) : (compiler.compile plan parameterized).2.tables.Tallied := by
  have vetted := tallied_compileFaults tallied plan.faults
  rw [compile]
  generalize compiler.compileFaults plan.faults = out at vetted ⊢
  obtain ⟨defect | built, after⟩ := out
  · exact vetted
  · exact Draft.tallied_addTerminal _ _ _ (Draft.tallied_foldl_addGroup _ _ vetted)

end Compiler

namespace Tree

variable {compiler : Compiler σ}

theorem tallied_compileRoute (tree : Tree σ) (tallied : compiler.tables.Tallied)
    (registration : Registration σ) (router : Router (Chain σ)) :
    (tree.compileRoute registration compiler router).2.tables.Tallied := by
  cases read : Pattern.parse registration.path with
  | error reason =>
      simp only [compileRoute, read]
      exact tallied
  | ok pattern =>
      have compiled := Compiler.tallied_compile tallied (tree.plan registration) (!pattern.isStatic)
      rw [plan] at compiled
      simp only [compileRoute, read]
      generalize compiler.compile _ (!pattern.isStatic) = out at compiled ⊢
      obtain ⟨defect | chain, after⟩ := out
      · exact compiled
      · have noted : (if tree.settings.logListings then
            after.record [.log (.routeCompiled registration.method.name registration.path
              chain.listing)]
            else after).tables.Tallied := by
          split
          · exact compiled.log _
          · exact compiled
        dsimp only
        split
        · exact noted
        · exact noted

theorem tallied_compileRoutes (tree : Tree σ) (routes : List (Registration σ))
    (tallied : compiler.tables.Tallied) (router : Router (Chain σ)) :
    (tree.compileRoutes routes compiler router).2.tables.Tallied := by
  induction routes generalizing compiler router with
  | nil => exact tallied
  | cons registration rest ih =>
      have here := tree.tallied_compileRoute tallied registration router
      rw [compileRoutes]
      generalize tree.compileRoute registration compiler router = out at here ⊢
      obtain ⟨defect | next, after⟩ := out
      · exact here
      · exact ih here next

/-- Whether a tree compiles or not, the counters come to what the cache of its
compiler holds in the end. -/
theorem tallied_compile (tree : Tree σ) : tree.compile.compiler.tables.Tallied := by
  have start : tree.compiler.tables.Tallied := Tables.Tallied.empty
  have tallied := tree.tallied_compileRoutes tree.routes start .empty
  rw [compile]
  generalize tree.compileRoutes tree.routes tree.compiler .empty = out at tallied ⊢
  obtain ⟨defect | router, after⟩ := out
  · exact tallied
  · exact tallied.log _

end Tree

end RouteTree
