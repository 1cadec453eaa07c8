import Mathlib.Data.List.Forall2
import RouteTree.Proofs.LinearScan
import RouteTree.Proofs.Refinement
import RouteTree.Proofs.Registration

/-!
# Requests to a tree

A request is for the first registered route of its method whose path matches,
where paths without parameters come before all others. This says nothing of
compiling. A compiled tree finds for every request the chain of the route that
the request is for, and so answers as the plan of that route does.
-/

namespace RouteTree

open Http

variable {σ α β : Type}

namespace Insertion

/-- Insertions under the same method and pattern, of related values. -/
structure Agrees (related : α → β → Prop) (first : Insertion α) (second : Insertion β) :
    Prop where
  method : first.method = second.method
  pattern : first.pattern = second.pattern
  value : related first.value second.value

variable {related : α → β → Prop} {first : List (Insertion α)} {second : List (Insertion β)}

/-- Scanning insertions that agree one by one gives related values with the same
captures. -/
theorem rel_scan (agree : List.Forall₂ (Agrees related) first second) (path : String) :
    Option.Rel (fun found found' => related found.1 found'.1 ∧ found.2 = found'.2)
      (scan path first) (scan path second) := by
  induction agree with
  | nil => exact .none
  | @cons insertion other first second here later ih =>
      simp only [scan, List.findSome?_cons, answer?, here.pattern]
      cases other.pattern.capture path with
      | none => exact ih
      | some params => exact .some ⟨here.value, rfl⟩

/-- The insertions of a method in the order in which a router tries them: those
without parameters first. -/
def tried (method : Method) (insertions : List (Insertion α)) : List (Insertion α) :=
  insertions.filter (isExact method) ++ insertions.filter (isPatterned method)

theorem forall₂_tried (agree : List.Forall₂ (Agrees related) first second) (method : Method) :
    List.Forall₂ (Agrees related) (tried method first) (tried method second) := by
  refine List.rel_append (List.rel_filter ?_ agree) (List.rel_filter ?_ agree)
  · intro insertion other same
    simp only [isExact, same.method, same.pattern]
  · intro insertion other same
    simp only [isPatterned, same.method, same.pattern]

end Insertion

theorem Delivers.emit {task : Task Event σ (Reply σ)} {before middle : Walk σ}
    {out : Response × Walk σ} {deferred : Bool}
    (delivers : Delivers task before middle out deferred) {event : Event}
    (silent : event.call? = none) : Delivers (.emit event task) before middle out deferred := by
  change Delivers ((Task.emit event (.done ())).bind fun _ => task) before middle out deferred
  exact .bind (.emit silent (.done () before)) rfl delivers

/-- The route with its pattern, if its path can be read. -/
def Registration.insertion? (registration : Registration σ) :
    Option (Insertion (Registration σ)) :=
  match Pattern.parse registration.path with
  | .ok pattern => some ⟨registration.method, pattern, registration⟩
  | .error _ => none

theorem Registration.of_mem_insertions {routes : List (Registration σ)}
    {insertion : Insertion (Registration σ)}
    (mem : insertion ∈ routes.filterMap Registration.insertion?) :
    insertion.value ∈ routes ∧ insertion.method = insertion.value.method ∧
      Pattern.parse insertion.value.path = .ok insertion.pattern := by
  obtain ⟨registration, there, becomes⟩ := List.mem_filterMap.1 mem
  rw [insertion?] at becomes
  split at becomes
  · rename_i pattern read
    cases becomes
    exact ⟨there, rfl, read⟩
  · cases becomes

namespace Tree

/-- The route that a request is for, with the captures of its path. -/
def route? (tree : Tree σ) (method : Method) (path : String) :
    Option (Registration σ × Option Params) :=
  Insertion.scan path (Insertion.tried method (tree.routes.filterMap Registration.insertion?))

def unhandled (tree : Tree σ) : Response := tree.settings.unhandled.responseOr .internalError

variable {tree : Tree σ}

theorem mem_of_route? {method : Method} {path : String} {registration : Registration σ}
    {params : Option Params} (found : tree.route? method path = some (registration, params)) :
    registration ∈ tree.routes := by
  obtain ⟨insertion, mem, answered⟩ := List.exists_of_findSome?_eq_some found
  obtain ⟨_, _, here⟩ := Option.map_eq_some_iff.1 answered
  cases here
  rcases List.mem_append.1 mem with kept | kept
  · exact (Registration.of_mem_insertions (List.mem_filter.1 kept).1).1
  · exact (Registration.of_mem_insertions (List.mem_filter.1 kept).1).1

def directory (tree : Tree σ) (groups : List (Group σ)) : Directory σ where
  groups id := ((groups[id]?).map Group.handlers).getD []
  faults _ := tree.faults

theorem listsPlan_of_made {groups : List (Group σ)} (made : Group.Made groups)
    (known : ∀ registration ∈ tree.routes, ∀ group ∈ registration.groups, group ∈ groups) :
    ∀ registration ∈ tree.routes, (tree.directory groups).ListsPlan (tree.plan registration) := by
  intro registration mem
  refine ⟨fun group inside => ?_, rfl⟩
  exact Directory.listsGroup_of_made made List.prefix_rfl (fun _ => rfl) group
    (known registration mem group inside)

variable {directory : Directory σ} {dispatcher : Dispatcher σ}

theorem faithful_compiler : tree.compiler.Faithful directory tree.unhandled :=
  Compiler.faithful_new

/-- Routes that compile are recorded in order, each with a chain of the compiled
forms of its groups, and leave the compiler faithful. -/
theorem records_compileRoutes {routes : List (Registration σ)}
    (listed : ∀ registration ∈ routes, directory.ListsPlan (tree.plan registration))
    {compiler : Compiler σ} (faithful : compiler.Faithful directory tree.unhandled)
    {router after : Router (Chain σ)} {accepted : List (Insertion (Chain σ))}
    (records : router.Records accepted)
    (ok : (tree.compileRoutes routes compiler router).1 = .ok after) :
    ∃ added, after.Records (accepted ++ added) ∧
      List.Forall₂ (Insertion.Agrees fun registration chain =>
          chain.Composes (tree.plan registration) tree.unhandled)
        (routes.filterMap Registration.insertion?) added ∧
      (tree.compileRoutes routes compiler router).2.Faithful directory tree.unhandled := by
  induction routes generalizing compiler router accepted with
  | nil =>
      cases ok
      exact ⟨[], by simpa using records, .nil, faithful⟩
  | cons registration rest ih =>
      obtain ⟨here, later⟩ := List.forall_mem_cons.1 listed
      have compiles := tree.compilesRoute registration compiler router
      simp only [compileRoutes] at ok ⊢
      generalize tree.compileRoute registration compiler router = out at compiles ok ⊢
      cases compiles with
      | invalidPath | rejected | duplicate => cases ok
      | @added pattern chain between events read compiled inserted =>
          obtain ⟨composes, kept⟩ := @Compiler.composes_compile σ directory _ compiler
            (tree.plan registration) (!pattern.isStatic) faithful here
          rw [compiled] at composes kept
          have genuine : Pattern.parse pattern.text = .ok pattern := by
            rw [Pattern.text_of_parse read, read]
          have faithful : (between.record events).Faithful directory tree.unhandled :=
            ⟨⟨kept.cache, kept.switches⟩, kept.fallback⟩
          obtain ⟨added, recorded, agree, left⟩ :=
            ih later faithful (records.added genuine inserted) ok
          refine ⟨⟨registration.method, pattern, chain⟩ :: added, by simpa using recorded, ?_, left⟩
          have becomes : registration.insertion? =
              some ⟨registration.method, pattern, registration⟩ := by
            simp only [Registration.insertion?, read]
          rw [List.filterMap_cons_some becomes]
          exact .cons ⟨rfl, rfl, composes chain rfl⟩ agree

/-- A compiled tree finds a chain exactly for the requests that are for a route.
The chain is made of the groups of that route, and the captures are the same. -/
theorem rel_lookup
    (listed : ∀ registration ∈ tree.routes, directory.ListsPlan (tree.plan registration))
    (compiled : tree.compile.result = .ok dispatcher) (method : Method) (path : String) :
    Option.Rel (fun found entry =>
        entry.1.Composes (tree.plan found.1) tree.unhandled ∧ found.2 = entry.2)
      (tree.route? method path) (dispatcher.router.lookup method path) := by
  obtain ⟨added, records, agree, _⟩ := records_compileRoutes listed faithful_compiler
    Router.records_empty (router_of_compile compiled)
  rw [records.lookup_eq_scan method path (List.Perm.refl _)]
  exact Insertion.rel_scan (Insertion.forall₂_tried agree method) path

/-- A compiled tree serves a request as the plain interpretation of the plan of
its route: it always answers, with the same response and after the same calls,
and leaves the same state. -/
theorem served_of_route?
    (listed : ∀ registration ∈ tree.routes, directory.ListsPlan (tree.plan registration))
    (compiled : tree.compile.result = .ok dispatcher) {method : Method} {path : String}
    {registration : Registration σ} {params : Option Params}
    (found : tree.route? method path = some (registration, params)) (state : σ) :
    ∃ reply middle events done,
      Reply.start (dispatcher.handle method path) state = (reply, middle, events) ∧
      reply.complete middle = some done ∧
      done.value = ((tree.plan registration).interpret tree.unhandled params state).1 ∧
      done.state = ((tree.plan registration).interpret tree.unhandled params state).2.state ∧
      Event.calls (events ++ done.events) =
        ((tree.plan registration).interpret tree.unhandled params state).2.calls := by
  have related := tree.rel_lookup listed compiled method path
  rw [found] at related
  rw [Dispatcher.handle]
  generalize dispatcher.router.lookup method path = entry at related ⊢
  cases related with
  | @some _ entry same =>
      obtain ⟨chain, captures⟩ := entry
      obtain ⟨composes, rfl⟩ := same
      have delivers := composes.realizes.delivers_invoke params state
      exact ((delivers.emit rfl).emit rfl).served rfl

end Tree

end RouteTree
