import RouteTree.Proofs.Defects
import RouteTree.Proofs.History
import RouteTree.Proofs.Layout

/-!
# Registering more routes

Routes are compiled one after the other, and a route that has been compiled is
never touched again. So a tree that is compiled once more, after further groups
and routes, has for each earlier route the chain that it had before, with all its
numbers. Requests go to the same routes as before, unless there is now a route
for just their path.
-/

namespace RouteTree

open Http

variable {σ α β : Type}

namespace Insertion

/-- Insertions that agree do so in all that follows from where they stand. -/
theorem forall₂_of_mem {related stronger : α → β → Prop} {first : List (Insertion α)}
    {second : List (Insertion β)} (agree : List.Forall₂ (Agrees related) first second)
    (also : ∀ insertion ∈ first, ∀ other ∈ second, Agrees related insertion other →
      stronger insertion.value other.value) :
    List.Forall₂ (Agrees stronger) first second := by
  induction agree with
  | nil => exact .nil
  | @cons insertion other first second here later ih =>
      refine .cons ⟨here.method, here.pattern, ?_⟩ (ih fun insertion mem other mem' => ?_)
      · exact also insertion List.mem_cons_self other List.mem_cons_self here
      · exact also insertion (List.mem_cons_of_mem _ mem) other (List.mem_cons_of_mem _ mem')

/-- Each of the first insertions has one that agrees with it. -/
theorem exists_agrees_of_mem {related : α → β → Prop} {first : List (Insertion α)}
    {second : List (Insertion β)} (agree : List.Forall₂ (Agrees related) first second)
    {insertion : Insertion α} (mem : insertion ∈ first) :
    ∃ other ∈ second, Agrees related insertion other := by
  induction agree with
  | nil => cases mem
  | cons here later ih =>
      rcases List.mem_cons.1 mem with rfl | mem
      · exact ⟨_, List.mem_cons_self, here⟩
      · obtain ⟨other, there, agrees⟩ := ih mem
        exact ⟨other, List.mem_cons_of_mem _ there, agrees⟩

/-- Further insertions leave the answer to a path, unless one of them has no
parameters and answers it. -/
theorem scan_tried_append {insertions more : List (Insertion α)} {method : Method} {path : String}
    {found : α × Option Params} (here : scan path (tried method insertions) = some found)
    (clear : ∀ insertion ∈ more, insertion.isExact method = true →
      insertion.answer? path = none) :
    scan path (tried method (insertions ++ more)) = some found := by
  have silent : (more.filter (isExact method)).findSome? (answer? path) = none := by
    rw [List.findSome?_eq_none_iff]
    intro insertion mem
    obtain ⟨there, isExact⟩ := List.mem_filter.1 mem
    exact clear insertion there isExact
  simp only [scan, tried, List.filter_append, List.findSome?_append, silent, Option.or_none]
    at here ⊢
  rw [← Option.or_assoc, here]
  rfl

end Insertion

namespace Router

variable {router : Router α} {accepted : List (Insertion α)}

/-- The value that was inserted under the method and the pattern. -/
def stored? (router : Router α) (method : Method) (pattern : Pattern) : Option α :=
  if pattern.isStatic then
    ((router.table method).exact.find? fun entry => entry.1 = pattern.text).map Prod.snd
  else ((router.table method).patterns.find? fun entry => entry.1 = pattern).map Prod.snd

theorem find?_of_mem [DecidableEq β] (name : Insertion α → β) {insertions : List (Insertion α)}
    {insertion : Insertion α} (mem : insertion ∈ insertions)
    (apart : ∀ other ∈ insertions, name other = name insertion → other = insertion) :
    ((insertions.map fun other => (name other, other.value)).find?
      fun entry => entry.1 = name insertion).map Prod.snd = some insertion.value := by
  induction insertions with
  | nil => cases mem
  | cons first rest ih =>
      obtain ⟨here, later⟩ := List.forall_mem_cons.1 apart
      by_cases same : name first = name insertion
      · rw [here same]
        simp
      · have elsewhere : insertion ∈ rest := by
          rcases List.mem_cons.1 mem with rfl | elsewhere
          · exact absurd rfl same
          · exact elsewhere
        simpa [same] using ih elsewhere later

theorem Records.stored? (records : router.Records accepted) {insertion : Insertion α}
    (mem : insertion ∈ accepted) :
    router.stored? insertion.method insertion.pattern = some insertion.value := by
  have apart {other : Insertion α} (there : other ∈ accepted)
      (method : other.method = insertion.method)
      (text : other.pattern.text = insertion.pattern.text) : other = insertion :=
    List.inj_on_of_nodup_map records.once there mem (Prod.ext method text)
  rw [Router.stored?, records.exact, records.patterns]
  cases isStatic : insertion.pattern.isStatic with
  | true =>
      refine find?_of_mem (fun other => other.pattern.text) ?_ ?_
      · exact List.mem_filter.2 ⟨mem, by simp [Insertion.isExact, isStatic]⟩
      · intro other kept text
        obtain ⟨there, isExact⟩ := List.mem_filter.1 kept
        simp only [Insertion.isExact, Bool.and_eq_true, decide_eq_true_eq] at isExact
        exact apart there isExact.1 text
  | false =>
      refine find?_of_mem (fun other => other.pattern) ?_ ?_
      · exact List.mem_filter.2 ⟨mem, by simp [Insertion.isPatterned, isStatic]⟩
      · intro other kept same
        obtain ⟨there, isPatterned⟩ := List.mem_filter.1 kept
        simp only [Insertion.isPatterned, Bool.and_eq_true, decide_eq_true_eq] at isPatterned
        exact apart there isPatterned.1 (congrArg Pattern.text same)

end Router

def Dispatcher.chainOf? (dispatcher : Dispatcher σ) (method : Method) (path : String) :
    Option (Chain σ) :=
  match Pattern.parse path with
  | .ok pattern => dispatcher.router.stored? method pattern
  | .error _ => none

namespace Tree

variable {tree : Tree σ} {directory : Directory σ} {dispatcher : Dispatcher σ}

/-- Compiling more routes goes on where compiling the first ones ended. -/
theorem compileRoutes_append (tree : Tree σ) (routes more : List (Registration σ))
    (compiler : Compiler σ) (router : Router (Chain σ)) :
    tree.compileRoutes (routes ++ more) compiler router =
      match tree.compileRoutes routes compiler router with
      | (.error error, compiler) => (.error error, compiler)
      | (.ok router, compiler) => tree.compileRoutes more compiler router := by
  induction routes generalizing compiler router with
  | nil => rfl
  | cons registration rest ih =>
      simp only [List.cons_append, compileRoutes]
      obtain ⟨defect | next, after⟩ := tree.compileRoute registration compiler router
      · rfl
      · exact ih after next

/-- Routes compile the same way in all trees with the same settings and faults. -/
theorem compileRoutes_congr {other : Tree σ} (settings : other.settings = tree.settings)
    (faults : other.faults = tree.faults) (routes : List (Registration σ))
    (compiler : Compiler σ) (router : Router (Chain σ)) :
    other.compileRoutes routes compiler router = tree.compileRoutes routes compiler router := by
  induction routes generalizing compiler router with
  | nil => rfl
  | cons registration rest ih =>
      have here : other.compileRoute registration compiler router =
          tree.compileRoute registration compiler router := by
        simp only [compileRoute, faultTable, settings, faults]
      simp only [compileRoutes, here]
      obtain ⟨defect | next, after⟩ := tree.compileRoute registration compiler router
      · rfl
      · exact ih after next

theorem chainOf?_of_agrees {accepted : List (Insertion (Chain σ))}
    (records : dispatcher.router.Records accepted) {routes : List (Registration σ)}
    {insertion : Insertion (Registration σ)}
    (mem : insertion ∈ routes.filterMap Registration.insertion?)
    {related : Registration σ → Chain σ → Prop} {other : Insertion (Chain σ)}
    (there : other ∈ accepted) (agrees : Insertion.Agrees related insertion other) :
    dispatcher.chainOf? insertion.value.method insertion.value.path = some other.value := by
  obtain ⟨_, method, read⟩ := Registration.of_mem_insertions mem
  rw [Dispatcher.chainOf?, read, ← method, agrees.method, agrees.pattern]
  exact records.stored? there

/-- A compiled tree finds for each request the chain of the route that it is for. -/
theorem lookup_eq_some_iff
    (listed : ∀ registration ∈ tree.routes, directory.ListsPlan (tree.plan registration))
    (compiled : tree.compile.result = .ok dispatcher) {method : Method} {path : String}
    {chain : Chain σ} {params : Option Params} :
    dispatcher.router.lookup method path = some (chain, params) ↔
      ∃ registration, tree.route? method path = some (registration, params) ∧
        dispatcher.chainOf? registration.method registration.path = some chain := by
  obtain ⟨added, records, agree, _⟩ := records_compileRoutes listed faithful_compiler
    Router.records_empty (router_of_compile compiled)
  have stored : List.Forall₂ (Insertion.Agrees fun registration chain =>
        dispatcher.chainOf? registration.method registration.path = some chain)
      (tree.routes.filterMap Registration.insertion?) added :=
    Insertion.forall₂_of_mem agree fun _ mem _ there agrees =>
      chainOf?_of_agrees records mem there agrees
  have related := Insertion.rel_scan (Insertion.forall₂_tried stored method) path
  have scanned : dispatcher.router.lookup method path =
      Insertion.scan path (Insertion.tried method added) :=
    records.lookup_eq_scan method path (List.Perm.refl _)
  rw [scanned, Tree.route?]
  generalize Insertion.scan path (Insertion.tried method added) = entry at related ⊢
  generalize Insertion.scan path _ = found at related ⊢
  cases related with
  | none => simp
  | @some found entry same =>
      obtain ⟨registration, captures⟩ := found
      obtain ⟨there, rfl⟩ := same
      constructor
      · rintro ⟨⟩
        exact ⟨registration, rfl, there⟩
      · rintro ⟨_, ⟨⟩, there'⟩
        rw [there] at there'
        cases there'
        rfl

/-- The other tree has the same settings and faults, and some routes more. -/
structure Extends (grown tree : Tree σ) (more : List (Registration σ)) : Prop where
  settings : grown.settings = tree.settings
  registry : grown.registry = tree.registry
  faults : grown.faults = tree.faults
  routes : grown.routes = tree.routes ++ more

variable {grown : Tree σ} {more : List (Registration σ)} {again : Dispatcher σ}

theorem Extends.plan_eq (extended : grown.Extends tree more) (registration : Registration σ) :
    grown.plan registration = tree.plan registration := by
  rw [plan, plan, faultTable, faultTable, extended.faults]

theorem Extends.listed (extended : grown.Extends tree more)
    (listed : ∀ registration ∈ grown.routes, directory.ListsPlan (grown.plan registration)) :
    (∀ registration ∈ tree.routes, directory.ListsPlan (tree.plan registration)) ∧
      ∀ registration ∈ more, directory.ListsPlan (tree.plan registration) := by
  simp only [extended.routes, extended.plan_eq] at listed
  exact List.forall_mem_append.1 listed

/-- A tree with more routes goes on from the router of the first ones. -/
theorem Extends.records (extended : grown.Extends tree more)
    (listed : ∀ registration ∈ grown.routes, directory.ListsPlan (grown.plan registration))
    (compiled : tree.compile.result = .ok dispatcher)
    (compiledAgain : grown.compile.result = .ok again) :
    ∃ added later, dispatcher.router.Records added ∧ again.router.Records (added ++ later) ∧
      List.Forall₂ (Insertion.Agrees fun registration chain =>
          chain.Composes (tree.plan registration) tree.unhandled)
        (tree.routes.filterMap Registration.insertion?) added := by
  obtain ⟨earlier, behind⟩ := extended.listed listed
  have ok := router_of_compile compiled
  have okAgain := router_of_compile compiledAgain
  have same : grown.compiler = tree.compiler := by
    rw [compiler, compiler, extended.registry, extended.settings]
  rw [compileRoutes_congr extended.settings extended.faults, extended.routes, same,
    compileRoutes_append] at okAgain
  obtain ⟨added, records, agree, faithful⟩ := records_compileRoutes earlier faithful_compiler
    Router.records_empty ok
  generalize tree.compileRoutes tree.routes tree.compiler .empty = out at ok okAgain faithful
  obtain ⟨defect | between, compiler⟩ := out
  · cases ok
  · cases ok
    obtain ⟨later, recordsAgain, _, _⟩ := records_compileRoutes behind faithful records okAgain
    exact ⟨added, later, records, recordsAgain, agree⟩

/-- Every earlier route has the same chain in both dispatchers, and it is made of
the route's own groups. -/
theorem Extends.chainOf? (extended : grown.Extends tree more)
    (listed : ∀ registration ∈ grown.routes, directory.ListsPlan (grown.plan registration))
    (compiled : tree.compile.result = .ok dispatcher)
    (compiledAgain : grown.compile.result = .ok again) {registration : Registration σ}
    (mem : registration ∈ tree.routes) :
    ∃ chain, dispatcher.chainOf? registration.method registration.path = some chain ∧
      again.chainOf? registration.method registration.path = some chain ∧
      chain.Composes (tree.plan registration) tree.unhandled := by
  obtain ⟨added, later, records, recordsAgain, agree⟩ :=
    extended.records listed compiled compiledAgain
  have vetted : tree.compiler.Vetted tree.registry tree.faults := Compiler.vetted_new _
  obtain ⟨pattern, read⟩ := ((compileRoutes_ok_iff vetted Router.filed_empty).1
    ⟨_, router_of_compile compiled⟩).1 registration mem
  have inserted : ⟨registration.method, pattern, registration⟩ ∈
      tree.routes.filterMap Registration.insertion? :=
    List.mem_filterMap.2 ⟨registration, mem, by simp only [Registration.insertion?, read]⟩
  obtain ⟨insertion, there, agrees⟩ := Insertion.exists_agrees_of_mem agree inserted
  refine ⟨insertion.value, ?_, ?_, agrees.value⟩
  · exact chainOf?_of_agrees records inserted there agrees
  · exact chainOf?_of_agrees recordsAgain inserted (List.mem_append_left _ there) agrees

/-- More routes leave the route that a request is for, unless one of them is for
just its method and path. -/
theorem Extends.route?_eq (extended : grown.Extends tree more) {method : Method} {path : String}
    {found : Registration σ × Option Params} (here : tree.route? method path = some found)
    (clear : ∀ registration ∈ more, registration.method = method → registration.path = path →
      ∀ pattern, Pattern.parse path = .ok pattern → pattern.isStatic = false) :
    grown.route? method path = some found := by
  rw [route?, extended.routes, List.filterMap_append]
  refine Insertion.scan_tried_append here fun insertion mem isExact => ?_
  obtain ⟨there, sameMethod, read⟩ := Registration.of_mem_insertions mem
  have text := Pattern.text_of_parse read
  simp only [Insertion.isExact, Bool.and_eq_true, decide_eq_true_eq] at isExact
  have genuine : insertion.Read := by
    rw [Insertion.Read, text]
    exact read
  rw [Insertion.answer?_of_isStatic genuine isExact.2, if_neg]
  intro same
  have samePath : insertion.value.path = path := text.symm.trans same
  rw [samePath] at read
  have dynamic := clear insertion.value there (sameMethod.symm.trans isExact.1) samePath _ read
  rw [isExact.2] at dynamic
  cases dynamic

/-- More routes leave the chain and the captures of a request, and the route that
it is for, unless one of them is for just its method and path. -/
theorem Extends.lookup_eq (extended : grown.Extends tree more)
    (listed : ∀ registration ∈ grown.routes, directory.ListsPlan (grown.plan registration))
    (compiled : tree.compile.result = .ok dispatcher)
    (compiledAgain : grown.compile.result = .ok again) {method : Method} {path : String}
    {chain : Chain σ} {params : Option Params}
    (found : dispatcher.router.lookup method path = some (chain, params))
    (clear : ∀ registration ∈ more, registration.method = method → registration.path = path →
      ∀ pattern, Pattern.parse path = .ok pattern → pattern.isStatic = false) :
    ∃ registration, tree.route? method path = some (registration, params) ∧
      grown.route? method path = some (registration, params) ∧
      dispatcher.chainOf? registration.method registration.path = some chain ∧
      again.chainOf? registration.method registration.path = some chain ∧
      again.router.lookup method path = some (chain, params) := by
  obtain ⟨registration, matched, stored⟩ :=
    (lookup_eq_some_iff (extended.listed listed).1 compiled).1 found
  obtain ⟨same, stored', storedAgain, _⟩ :=
    extended.chainOf? listed compiled compiledAgain (mem_of_route? matched)
  obtain rfl : same = chain := Option.some.inj (stored'.symm.trans stored)
  have matchedAgain := extended.route?_eq matched clear
  exact ⟨registration, matched, matchedAgain, stored, storedAgain,
    (lookup_eq_some_iff listed compiledAgain).2 ⟨registration, matchedAgain, storedAgain⟩⟩

end Tree

namespace TreeStep

/-- The step registers a route without parameters for just this method and path. -/
def Shadows (method : Method) (path : String) (step : TreeStep σ) : Prop :=
  (∃ terminal, step = .route method path terminal) ∧
    ∃ pattern, Pattern.parse path = .ok pattern ∧ pattern.isStatic = true

end TreeStep

namespace Tree

variable {groups : List (Group σ)} {steps more : List (TreeStep σ)}

/-- Steps that bind no kind of fault extend the tree by routes of their own. -/
theorem extends_ofSteps (settings : Settings) (registry : FaultRegistry) (next : Nat)
    (steps : List (TreeStep σ)) {more : List (TreeStep σ)}
    (unbound : ∀ step ∈ more, step.binding? = none) :
    (ofSteps settings registry next (steps ++ more)).Extends (ofSteps settings registry next steps)
      (TreeStep.registered (steps.foldl TreeStep.advance next) (TreeStep.used next steps)
        more) := by
  refine ⟨rfl, rfl, ?_, ?_⟩
  · simp only [ofSteps, List.filterMap_append, List.filterMap_eq_nil_iff.2 unbound,
      List.append_nil]
  · exact TreeStep.registered_append next [] steps more

end Tree

namespace TreeSession

variable {groups : List (Group σ)} {steps more : List (TreeStep σ)}

/-- Later registrations never disturb earlier routes. Let the tree of a session
compile after any steps, and once more after further steps that bind no kind of
fault.

* Every route of the first steps has the same chain in both dispatchers: the same
  stages before the deferred scope and in it, and the same listing. It consists of
  the compiled forms of the groups that were put to use before the route.
* Every request that the first dispatcher finds a chain for goes on to be for the
  same route, with the same captures, and the second dispatcher finds the same
  chain, unless one of the further steps has registered a route without parameters
  for just that method and path. -/
theorem routes_undisturbed (made : Group.Made groups)
    (uses : ∀ step ∈ steps ++ more, step.Uses groups)
    (unbound : ∀ step ∈ more, step.binding? = none) (settings : Settings)
    (registry : FaultRegistry) (state : σ) {first second : Dispatcher σ}
    (compiled : ((fresh settings registry groups.length state).after steps).tree.compile.result =
      .ok first)
    (compiledAgain : ((fresh settings registry groups.length state).after
      (steps ++ more)).tree.compile.result = .ok second) :
    (∀ earlier method path terminal later,
      steps = earlier ++ .route method path terminal :: later →
      ∃ chain, first.chainOf? method path = some chain ∧
        second.chainOf? method path = some chain ∧
        List.Forall₂ (fun group fragment => fragment.FormOf group)
          (TreeStep.used groups.length earlier) chain.fragments) ∧
    ∀ method path chain params, first.router.lookup method path = some (chain, params) →
      (∀ step ∈ more, ¬ step.Shadows method path) →
      ∃ registration,
        ((fresh settings registry groups.length state).after steps).tree.route? method path =
          some (registration, params) ∧
        ((fresh settings registry groups.length state).after (steps ++ more)).tree.route?
          method path = some (registration, params) ∧
        first.chainOf? registration.method registration.path = some chain ∧
        second.chainOf? registration.method registration.path = some chain ∧
        second.router.lookup method path = some (chain, params) := by
  simp only [tree_fresh_after] at compiled compiledAgain ⊢
  have extended := Tree.extends_ofSteps settings registry groups.length steps unbound
  obtain ⟨directory, listed⟩ := Tree.exists_listsPlan made uses settings registry
  constructor
  · intro earlier method path terminal later split
    have mem : ⟨method, path, TreeStep.used groups.length earlier, terminal⟩ ∈
        (Tree.ofSteps settings registry groups.length steps).routes := by
      rw [split, Tree.ofSteps, TreeStep.registered_append]
      exact List.mem_append_right _ List.mem_cons_self
    obtain ⟨chain, here, again, fragments, forms, joins⟩ :=
      extended.chainOf? listed compiled compiledAgain mem
    rw [← joins.fragments_eq] at forms
    exact ⟨chain, here, again, forms⟩
  · intro method path chain params found clear
    refine extended.lookup_eq listed compiled compiledAgain found ?_
    intro registration mem sameMethod samePath pattern read
    obtain ⟨step, _⟩ := TreeStep.exists_step_of_mem_registered mem
    rw [sameMethod, samePath] at step
    rw [← Bool.not_eq_true]
    intro isStatic
    exact clear _ step ⟨⟨_, rfl⟩, pattern, read, isStatic⟩

end TreeSession

namespace Sample

def firstSteps : List (TreeStep Nat) :=
  [.useGroup visits, .useHandler greet, .answer refused turnAway, .route ⟨"GET"⟩ "/" welcome]

/-- Another group, and a route whose pattern matches the page as well. -/
def furtherSteps : List (TreeStep Nat) :=
  [.useGroup gate, .route ⟨"GET"⟩ "/:page" turnAway]

/-- The page keeps its chain, without the group that was put to use later, and its
requests. -/
theorem page_undisturbed : ∃ first second,
    ((TreeSession.fresh {} registry 3 0).after firstSteps).tree.compile.result = .ok first ∧
    ((TreeSession.fresh {} registry 3 0).after (firstSteps ++ furtherSteps)).tree.compile.result =
      .ok second ∧
    ∃ chain, first.chainOf? ⟨"GET"⟩ "/" = some chain ∧ second.chainOf? ⟨"GET"⟩ "/" = some chain ∧
      chain.fragments.map Fragment.group = [0, 3] ∧
      second.router.lookup ⟨"GET"⟩ "/" = some (chain, none) := by
  obtain ⟨first, compiled, chain, found, here⟩ : ∃ first,
    ((TreeSession.fresh {} registry 3 0).after firstSteps).tree.compile.result = .ok first ∧
      ∃ chain, first.router.lookup ⟨"GET"⟩ "/" = some (chain, none) ∧
        first.chainOf? ⟨"GET"⟩ "/" = some chain := ⟨_, rfl, _, rfl, rfl⟩
  obtain ⟨second, compiledAgain⟩ : ∃ second, ((TreeSession.fresh {} registry 3 0).after
    (firstSteps ++ furtherSteps)).tree.compile.result = .ok second := ⟨_, rfl⟩
  have uses : ∀ step ∈ firstSteps ++ furtherSteps, step.Uses [visits, entrance, gate] := by
    simp only [firstSteps, furtherSteps, List.cons_append, List.nil_append, List.forall_mem_cons]
    exact ⟨.head _, trivial, trivial, trivial, .tail _ (.tail _ (.head _)), trivial, nofun⟩
  have unbound : ∀ step ∈ furtherSteps, step.binding? = none := by
    simp [furtherSteps, TreeStep.binding?]
  obtain ⟨chains, requests⟩ := TreeSession.routes_undisturbed made_groups uses unbound {} registry 0
    compiled compiledAgain
  obtain ⟨same, here', again, forms⟩ :=
    chains [.useGroup visits, .useHandler greet, .answer refused turnAway] _ _ _ [] rfl
  obtain rfl : same = chain := Option.some.inj (here'.symm.trans here)
  have clear : ∀ step ∈ furtherSteps, ¬ step.Shadows ⟨"GET"⟩ "/" := by
    simp [furtherSteps, TreeStep.Shadows]
  obtain ⟨_, _, _, _, _, foundAgain⟩ := requests _ _ _ _ found clear
  refine ⟨first, second, compiled, compiledAgain, same, here, again, ?_, foundAgain⟩
  have numbers : List.Forall₂ (· = ·) [0, 3] (same.fragments.map Fragment.group) :=
    List.forall₂_map_right_iff.2 ((List.forall₂_map_left_iff (f := Group.id)).2
      (forms.imp fun _ _ form => form.number.symm))
  rw [List.forall₂_eq_eq_eq] at numbers
  exact numbers.symm

end Sample

end RouteTree
