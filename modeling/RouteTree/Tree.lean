import RouteTree.Build.Chain
import RouteTree.Path.Router
import RouteTree.Settings

/-!
# Route trees

A route tree is built by registering groups, routes and terminals for faults.
A route runs the groups that were in use when it was registered. Compiling the
tree checks everything that was registered and gives a dispatcher, which finds
the route of a request and runs it.
-/

namespace RouteTree

open Http

variable {σ : Type}

/-- One registered route. -/
structure Registration (σ : Type) where
  method : Method
  path : String
  groups : List (Group σ)
  terminal : Terminal σ

structure Tree (σ : Type) where
  settings : Settings := {}
  registry : FaultRegistry
  faults : List (FaultKind × Terminal σ) := []
  /-- The groups that routes registered from now on run. -/
  middleware : List (Group σ) := []
  routes : List (Registration σ) := []

/-- A compiled route tree. -/
structure Dispatcher (σ : Type) where
  router : Router (Chain σ)
  notFound : Response
  stats : Stats

namespace Dispatcher

/-- Find the route of a request and run it up to the first place where it may
stop. -/
def handle (dispatcher : Dispatcher σ) (method : Method) (path : String) :
    Task Event σ (Reply σ) :=
  match dispatcher.router.lookup method path with
  | some (chain, params) =>
    .emit (.log (.requestMatched method.name path chain.deferred))
      (.emit (.count (.request true)) (chain.invoke params))
  | none =>
    .emit (.log (.requestUnmatched method.name path))
      (.emit (.count (.request false)) (.done (.ready dispatcher.notFound)))

/-- The chain of a request's route. -/
def chain? (dispatcher : Dispatcher σ) (method : Method) (path : String) : Option (Chain σ) :=
  (dispatcher.router.lookup method path).map Prod.fst

/-- A one-line summary. -/
def summary (dispatcher : Dispatcher σ) : String :=
  "Dispatcher \x7b routes: " ++ Nat.repr dispatcher.router.size ++ ", stats: " ++
    dispatcher.stats.summary ++ " \x7d"

end Dispatcher

namespace Tree

/-- A tree with these settings and nothing registered. -/
def new (settings : Settings) (registry : FaultRegistry) : Tree σ := { settings, registry }

/-- Routes registered from now on run this group, after those in use. -/
def use (tree : Tree σ) (group : Group σ) : Tree σ :=
  { tree with middleware := tree.middleware ++ [group] }

/-- Register a route. -/
def route (tree : Tree σ) (method : Method) (path : String) (terminal : Terminal σ) : Tree σ :=
  { tree with
    routes := tree.routes ++ [{ method, path, groups := tree.middleware, terminal }] }

/-- Answer faults of a kind with a terminal. -/
def answer (tree : Tree σ) (kind : FaultKind) (terminal : Terminal σ) : Tree σ :=
  { tree with faults := tree.faults ++ [(kind, terminal)] }

/-- Declare one more kind of fault. -/
def declare (tree : Tree σ) (dynamic : Bool) : FaultKind × Tree σ :=
  let (kind, registry) := tree.registry.declare dynamic
  (kind, { tree with registry })

/-- The table of faults that all routes of the tree share. -/
def faultTable (tree : Tree σ) : FaultTable σ := ⟨0, tree.faults⟩

/-- A compiler for the routes of the tree. -/
def compiler (tree : Tree σ) : Compiler σ :=
  .new tree.registry (tree.settings.unhandled.responseOr .internalError)

/-- What compiling a tree gives: a result, and the compiler as it was left. -/
structure Compilation (σ : Type) where
  result : Except Defect (Dispatcher σ)
  compiler : Compiler σ

/-- Compile one route and add it to the router. -/
def compileRoute (tree : Tree σ) (registration : Registration σ) (compiler : Compiler σ)
    (router : Router (Chain σ)) : Except Defect (Router (Chain σ)) × Compiler σ :=
  match Pattern.parse registration.path with
  | .error reason => (.error (.invalidPath registration.path reason), compiler)
  | .ok pattern =>
    let plan : RoutePlan σ := ⟨registration.groups, registration.terminal, tree.faultTable⟩
    match compiler.compile plan (!pattern.isStatic) with
    | (.error error, compiler) => (.error error, compiler)
    | (.ok chain, compiler) =>
      let compiler :=
        if tree.settings.logListings then
          compiler.record
            [.log (.routeCompiled registration.method.name registration.path chain.listing)]
        else compiler
      match router.insert registration.method pattern chain with
      | (true, router) => (.ok router, compiler)
      | (false, _) =>
        (.error (.duplicateRoute registration.method registration.path), compiler)

/-- Compile routes in order, up to the first defect. -/
def compileRoutes (tree : Tree σ) :
    List (Registration σ) → Compiler σ → Router (Chain σ) →
      Except Defect (Router (Chain σ)) × Compiler σ
  | [], compiler, router => (.ok router, compiler)
  | registration :: rest, compiler, router =>
    match tree.compileRoute registration compiler router with
    | (.error error, compiler) => (.error error, compiler)
    | (.ok router, compiler) => compileRoutes tree rest compiler router

/-- Compile the tree. -/
def compile (tree : Tree σ) : Compilation σ :=
  match tree.compileRoutes tree.routes tree.compiler .empty with
  | (.error error, compiler) => ⟨.error error, compiler⟩
  | (.ok router, compiler) =>
    let stats := compiler.stats
    ⟨.ok { router, notFound := tree.settings.notFound.responseOr .notFound, stats },
      compiler.record
        [.log (.treeCompiled stats.routes stats.groups stats.groupReuses stats.values)]⟩

end Tree

end RouteTree
