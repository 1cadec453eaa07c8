import RouteTree.Tree

/-!
# Compiling the routes of a tree

What compiling one route can do, and what follows for all routes in order: a
property of the compiler and the router that every added route keeps holds at
the end.
-/

namespace RouteTree

open Http

variable {σ : Type}

namespace Tree

def plan (tree : Tree σ) (registration : Registration σ) : RoutePlan σ :=
  ⟨registration.groups, registration.terminal, tree.faultTable⟩

/-- What compiling one route can do. The path is read first, then the route is
compiled, and last it is added to the router; the first defect ends it. -/
inductive CompilesRoute (tree : Tree σ) (registration : Registration σ) (compiler : Compiler σ)
    (router : Router (Chain σ)) : Except Defect (Router (Chain σ)) × Compiler σ → Prop
  | invalidPath {reason : PatternReason} (read : Pattern.parse registration.path = .error reason) :
      CompilesRoute tree registration compiler router
        (.error (.invalidPath registration.path reason), compiler)
  | rejected {pattern : Pattern} {defect : Defect} {after : Compiler σ}
      (read : Pattern.parse registration.path = .ok pattern)
      (compiled : compiler.compile (tree.plan registration) (!pattern.isStatic) =
        (.error defect, after)) :
      CompilesRoute tree registration compiler router (.error defect, after)
  | duplicate {pattern : Pattern} {chain : Chain σ} {after : Compiler σ} {events : List Event}
      (read : Pattern.parse registration.path = .ok pattern)
      (compiled : compiler.compile (tree.plan registration) (!pattern.isStatic) =
        (.ok chain, after))
      (refused : (router.insert registration.method pattern chain).1 = false) :
      CompilesRoute tree registration compiler router
        (.error (.duplicateRoute registration.method registration.path), after.record events)
  | added {pattern : Pattern} {chain : Chain σ} {after : Compiler σ} {events : List Event}
      (read : Pattern.parse registration.path = .ok pattern)
      (compiled : compiler.compile (tree.plan registration) (!pattern.isStatic) =
        (.ok chain, after))
      (accepted : (router.insert registration.method pattern chain).1 = true) :
      CompilesRoute tree registration compiler router
        (.ok (router.insert registration.method pattern chain).2, after.record events)

theorem compilesRoute (tree : Tree σ) (registration : Registration σ) (compiler : Compiler σ)
    (router : Router (Chain σ)) :
    tree.CompilesRoute registration compiler router
      (tree.compileRoute registration compiler router) := by
  cases read : Pattern.parse registration.path with
  | error reason =>
      simp only [compileRoute, read]
      exact .invalidPath read
  | ok pattern =>
      cases compiled : compiler.compile (tree.plan registration) (!pattern.isStatic) with
      | mk result after =>
          have compiled' := compiled
          rw [plan] at compiled'
          simp only [compileRoute, read, compiled']
          cases result with
          | error defect => exact .rejected read compiled
          | ok chain =>
              obtain ⟨events, noted⟩ : ∃ events, (if tree.settings.logListings then
                  after.record [.log (.routeCompiled registration.method.name registration.path
                    chain.listing)]
                  else after) = after.record events := by
                split
                · exact ⟨_, rfl⟩
                · exact ⟨[], rfl⟩
              simp only [noted]
              have accepted := @CompilesRoute.added σ tree registration compiler router pattern
                chain after events read compiled
              have refused := @CompilesRoute.duplicate σ tree registration compiler router pattern
                chain after events read compiled
              generalize router.insert registration.method pattern chain = out at accepted refused ⊢
              obtain ⟨_ | _, after⟩ := out
              · exact refused rfl
              · exact accepted rfl

variable {tree : Tree σ}

/-- A property that every added route keeps holds of the router that compiling
all routes gives. -/
theorem invariant_compileRoutes (invariant : Compiler σ → Router (Chain σ) → Prop)
    {routes : List (Registration σ)}
    (step : ∀ registration ∈ routes, ∀ compiler router after out, invariant compiler router →
      tree.CompilesRoute registration compiler router (.ok after, out) → invariant out after)
    {compiler : Compiler σ} {router after : Router (Chain σ)} (holds : invariant compiler router)
    (ok : (tree.compileRoutes routes compiler router).1 = .ok after) :
    ∃ compiler, invariant compiler after := by
  induction routes generalizing compiler router with
  | nil =>
      cases ok
      exact ⟨compiler, holds⟩
  | cons registration rest ih =>
      obtain ⟨here, later⟩ := List.forall_mem_cons.1 step
      have compiled := tree.compilesRoute registration compiler router
      simp only [compileRoutes] at ok
      generalize tree.compileRoute registration compiler router = out at compiled ok
      obtain ⟨defect | next, between⟩ := out
      · cases ok
      · exact ih later (here compiler router next between holds compiled) ok

theorem router_of_compile {dispatcher : Dispatcher σ} (ok : tree.compile.result = .ok dispatcher) :
    (tree.compileRoutes tree.routes tree.compiler .empty).1 = .ok dispatcher.router := by
  rw [compile] at ok
  generalize tree.compileRoutes tree.routes tree.compiler .empty = out at ok
  obtain ⟨defect | router, compiler⟩ := out
  · cases ok
  · cases ok
    rfl

end Tree

end RouteTree
