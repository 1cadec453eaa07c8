import RouteTree.Proofs.Dispatch
import RouteTree.Proofs.History

/-!
# Binding faults in any order

The kinds of fault that a tree answers may be bound in any order, before, between
or after its routes. The order decides the numbers that values get, and so the
listings, but neither whether the tree compiles nor what a request does: two
orders give dispatchers that run every request as the same task.
-/

namespace RouteTree

open Http

variable {σ : Type}

/-! ## Chains that differ in numbers and listings only -/

def Fragment.bare (fragment : Fragment σ) : Fragment σ :=
  { fragment with group := 0, listing := Listing.empty, bindings := [] }

/-- What the compiled forms of a group have in common. -/
def Group.bare (group : Group σ) : Fragment σ where
  group := 0
  ops := group.ops
  deferred := group.traits.suspends
  needsContext := group.traits.needsContext
  listing := Listing.empty
  bindings := []

theorem Fragment.FormOf.bare_eq {fragment : Fragment σ} {group : Group σ}
    (form : fragment.FormOf group) : fragment.bare = group.bare := by
  rw [Fragment.bare, Group.bare, form.ops, form.deferred, form.needsContext, group.traits_eq]
  rfl

def Stage.bare : Stage σ → Stage σ
  | .allocate => .allocate
  | .group fragment => .group fragment.bare

def Item.bare : Item σ → Item σ
  | .group fragment => .group fragment.bare
  | item => item

namespace Draft

theorem placed_bare (scopeOpen contextReady : Bool) (fragments : List (Fragment σ)) :
    placed scopeOpen contextReady (fragments.map Fragment.bare) =
      (placed scopeOpen contextReady fragments).map Item.bare := by
  induction fragments generalizing scopeOpen contextReady with
  | nil => rfl
  | cons fragment rest ih =>
      simp only [placed, List.map_cons, List.map_append, ih, apply_ite (List.map Item.bare)]
      rfl

theorem split_bare (items : List (Item σ)) :
    split (items.map Item.bare) =
      ((split items).1.map Stage.bare, (split items).2.map (List.map Stage.bare)) := by
  have step (parts : List (Stage σ) × Option (List (Stage σ))) (item : Item σ) :
      place (parts.1.map Stage.bare, parts.2.map (List.map Stage.bare)) item.bare =
        ((place parts item).1.map Stage.bare, (place parts item).2.map (List.map Stage.bare)) := by
    obtain ⟨eager, _ | scope⟩ := parts <;> cases item <;>
      simp [place, Item.bare, stage?, Stage.bare]
  suffices folded : ∀ parts : List (Stage σ) × Option (List (Stage σ)),
      (items.map Item.bare).foldl place
          (parts.1.map Stage.bare, parts.2.map (List.map Stage.bare)) =
        ((items.foldl place parts).1.map Stage.bare,
          (items.foldl place parts).2.map (List.map Stage.bare)) from folded ([], none)
  induction items with
  | nil => exact fun _ => rfl
  | cons item rest ih =>
      intro parts
      rw [List.map_cons, List.foldl_cons, List.foldl_cons, step, ih]

end Draft

namespace Stage

theorem runAllNow_bare (stages : List (Stage σ)) (frame : Frame) :
    runAllNow (stages.map bare) frame = runAllNow stages frame := by
  induction stages generalizing frame with
  | nil => rfl
  | cons stage rest ih =>
      have here : stage.bare.runNow frame = stage.runNow frame := by cases stage <;> rfl
      simp only [List.map_cons, runAllNow, here, ih]

theorem runAll_bare (stages : List (Stage σ)) (frame : Frame) :
    runAll (stages.map bare) frame = runAll stages frame := by
  induction stages generalizing frame with
  | nil => rfl
  | cons stage rest ih =>
      have here : stage.bare.run frame = stage.run frame := by cases stage <;> rfl
      simp only [List.map_cons, runAll, here, ih]

end Stage

structure FaultSwitch.Agrees (first second : FaultSwitch σ) : Prop where
  branches : ∀ id, first.cases.find? id = second.cases.find? id
  unhandled : first.unhandled = second.unhandled

namespace FaultSwitch.Agrees

variable {first second : FaultSwitch σ}

theorem select_eq (agree : first.Agrees second) (fault : Fault) :
    first.select fault = second.select fault := by
  rw [select, select, agree.branches]

theorem dispatch_eq (agree : first.Agrees second) (fault : Fault) (frame : Frame) :
    first.dispatch fault frame = second.dispatch fault frame := by
  rw [dispatch, dispatch, agree.select_eq, agree.unhandled]

theorem dispatchInScope_eq (agree : first.Agrees second) (fault : Fault) (frame : Frame) :
    first.dispatchInScope fault frame = second.dispatchInScope fault frame := by
  rw [dispatchInScope, dispatchInScope, agree.select_eq, agree.unhandled]

end FaultSwitch.Agrees

/-- The chains differ in numbers, in listings and in the order of branches only. -/
structure Chain.Agrees (first second : Chain σ) : Prop where
  eager : first.eager.map Stage.bare = second.eager.map Stage.bare
  scope : first.scope.map (List.map Stage.bare) = second.scope.map (List.map Stage.bare)
  endpoint : first.endpoint = second.endpoint
  switch : first.switch.Agrees second.switch

namespace Chain.Agrees

variable {first second : Chain σ}

theorem deferred_eq (agree : first.Agrees second) : first.deferred = second.deferred := by
  have same := congrArg Option.isSome agree.scope
  rw [Option.isSome_map, Option.isSome_map] at same
  exact same

theorem runScope_eq (agree : first.Agrees second) {stages others : List (Stage σ)}
    (same : stages.map Stage.bare = others.map Stage.bare) (frame : Frame) :
    first.runScope stages frame = second.runScope others frame := by
  have runs : Stage.runAll stages frame = Stage.runAll others frame := by
    rw [← Stage.runAll_bare stages, same, Stage.runAll_bare]
  simp only [runScope, runs, agree.endpoint, agree.switch.dispatchInScope_eq,
    agree.switch.unhandled]

/-- Chains that agree run every request as the same task. -/
theorem invoke_eq (agree : first.Agrees second) (params : Option Params) :
    first.invoke params = second.invoke params := by
  have eager : Stage.runAllNow first.eager (.new params) =
      Stage.runAllNow second.eager (.new params) := by
    rw [← Stage.runAllNow_bare first.eager, agree.eager, Stage.runAllNow_bare]
  have scope := agree.scope
  simp only [invoke, eager, agree.switch.dispatch_eq, agree.endpoint]
  cases here : first.scope with
  | none =>
      rw [here, Option.map_none, eq_comm, Option.map_eq_none_iff] at scope
      rw [scope]
  | some stages =>
      rw [here, Option.map_some, eq_comm, Option.map_eq_some_iff] at scope
      obtain ⟨others, there, same⟩ := scope
      simp only [there, agree.runScope_eq same.symm]

end Chain.Agrees

/-- The stages of a chain, but for numbers and listings, depend only on what its
fragments are but for numbers and listings. -/
theorem Chain.Joins.layout_bare {chain : Chain σ} {fragments : List (Fragment σ)}
    {endpoint : Endpoint σ} {switch : FaultSwitch σ}
    (joins : chain.Joins fragments endpoint switch) :
    (chain.eager.map Stage.bare, chain.scope.map (List.map Stage.bare)) =
      Draft.split (Draft.placed false false (fragments.map Fragment.bare) ++
        Draft.tail (endpoint.needsContext &&
          !(fragments.map Fragment.bare).any Fragment.needsContext)) := by
  have uses : (fragments.map Fragment.bare).any Fragment.needsContext =
      fragments.any Fragment.needsContext := List.any_map
  have last (allocates : Bool) : (Draft.tail allocates : List (Item σ)).map Item.bare =
      Draft.tail allocates := by cases allocates <;> rfl
  have layout := joins.layout
  rw [joins.endpoint] at layout
  rw [uses, Draft.placed_bare, ← last, ← List.map_append, Draft.split_bare, layout]

theorem Fragment.map_bare_of_forms {groups : List (Group σ)} {fragments : List (Fragment σ)}
    (forms : List.Forall₂ (fun group fragment => fragment.FormOf group) groups fragments) :
    fragments.map Fragment.bare = groups.map Group.bare := by
  induction forms with
  | nil => rfl
  | cons form rest ih => rw [List.map_cons, List.map_cons, form.bare_eq, ih]

/-- Chains of the same groups and terminal agree if their switches do. -/
theorem Chain.Composes.agrees {first second : Chain σ} {plan other : RoutePlan σ}
    {unhandled : Response} (composes : first.Composes plan unhandled)
    (composes' : second.Composes other unhandled) (groups : other.groups = plan.groups)
    (terminal : other.terminal = plan.terminal)
    (switch : (plan.faults.switch unhandled).Agrees (other.faults.switch unhandled)) :
    first.Agrees second := by
  obtain ⟨fragments, forms, joins⟩ := composes
  obtain ⟨fragments', forms', joins'⟩ := composes'
  have layout := joins.layout_bare
  have layout' := joins'.layout_bare
  rw [Fragment.map_bare_of_forms forms] at layout
  rw [Fragment.map_bare_of_forms forms', groups, terminal, ← layout] at layout'
  refine ⟨congrArg Prod.fst layout'.symm, congrArg Prod.snd layout'.symm, ?_, ?_⟩
  · rw [joins.endpoint, joins'.endpoint, terminal]
  · rw [joins.switch, joins'.switch]
    exact switch

/-! ## Tables in any order -/

namespace FaultTable

variable {first second : List (FaultKind × Terminal σ)}

theorem sound_iff_of_perm (perm : first.Perm second) {registry : FaultRegistry} :
    Sound registry first ↔ Sound registry second := by
  have numbers := (perm.map fun entry => entry.1.id).nodup_iff
  constructor
  · rintro ⟨owned, once⟩
    exact ⟨fun entry mem => owned entry (perm.mem_iff.2 mem), numbers.1 once⟩
  · rintro ⟨owned, once⟩
    exact ⟨fun entry mem => owned entry (perm.mem_iff.1 mem), numbers.2 once⟩

/-- A table that binds no number twice has the same branches in any order. -/
theorem agrees_of_perm (perm : first.Perm second)
    (once : (first.map fun entry => entry.1.id).Nodup) (id : Nat) (unhandled : Response) :
    (switch ⟨id, first⟩ unhandled).Agrees (switch ⟨id, second⟩ unhandled) := by
  refine ⟨fun number => ?_, rfl⟩
  have once' := (perm.map fun entry => entry.1.id).nodup_iff.1 once
  have same : entry? ⟨id, first⟩ number = entry? ⟨id, second⟩ number := by
    ext entry
    rw [entry?_eq_some_iff once, entry?_eq_some_iff once', perm.mem_iff]
  rw [find?_switch, find?_switch, same]

end FaultTable

namespace Tree

/-- The trees differ only in the order in which kinds of fault are bound. -/
structure Permutes (other tree : Tree σ) : Prop where
  settings : other.settings = tree.settings
  registry : other.registry = tree.registry
  routes : other.routes = tree.routes
  faults : tree.faults.Perm other.faults

variable {tree other : Tree σ} {directory directory' : Directory σ}
  {dispatcher dispatcher' : Dispatcher σ}

/-- The order in which kinds of fault are bound does not decide whether a tree
compiles. -/
theorem Permutes.compile_iff (permutes : other.Permutes tree) :
    (∃ dispatcher, tree.compile.result = .ok dispatcher) ↔
      ∃ dispatcher, other.compile.result = .ok dispatcher := by
  have vetted : tree.compiler.Vetted tree.registry tree.faults := Compiler.vetted_new _
  have vetted' : other.compiler.Vetted other.registry other.faults := Compiler.vetted_new _
  rw [compile_ok_iff, compile_ok_iff, compileRoutes_ok_iff vetted Router.filed_empty,
    compileRoutes_ok_iff vetted' Router.filed_empty, permutes.routes, permutes.registry,
    FaultTable.sound_iff_of_perm permutes.faults]

theorem notFound_of_compile (compiled : tree.compile.result = .ok dispatcher) :
    dispatcher.notFound = tree.settings.notFound.responseOr .notFound := by
  rw [compile] at compiled
  split at compiled
  · cases compiled
  · cases compiled
    rfl

/-- Nor does it decide what a request does. -/
theorem Permutes.handle_eq (permutes : other.Permutes tree)
    (listed : ∀ registration ∈ tree.routes, directory.ListsPlan (tree.plan registration))
    (listed' : ∀ registration ∈ other.routes, directory'.ListsPlan (other.plan registration))
    (compiled : tree.compile.result = .ok dispatcher)
    (compiled' : other.compile.result = .ok dispatcher') (method : Method) (path : String) :
    dispatcher.handle method path = dispatcher'.handle method path := by
  have related := rel_lookup listed compiled method path
  have related' := rel_lookup listed' compiled' method path
  have same : other.route? method path = tree.route? method path := by
    rw [route?, route?, permutes.routes]
  have fallback : other.unhandled = tree.unhandled := by
    rw [unhandled, unhandled, permutes.settings]
  rw [same, fallback] at related'
  rw [Dispatcher.handle, Dispatcher.handle]
  generalize dispatcher.router.lookup method path = entry at related ⊢
  generalize dispatcher'.router.lookup method path = entry' at related' ⊢
  cases found : tree.route? method path with
  | none =>
      rw [found] at related related'
      cases related
      cases related'
      rw [notFound_of_compile compiled, notFound_of_compile compiled', permutes.settings]
  | some route =>
      rw [found] at related related'
      obtain ⟨registration, params⟩ := route
      cases related with
      | @some _ entry here =>
          cases related' with
          | @some _ entry' there =>
              obtain ⟨chain, captures⟩ := entry
              obtain ⟨chain', captures'⟩ := entry'
              obtain ⟨composes, rfl⟩ := here
              obtain ⟨composes', rfl⟩ := there
              have sound := sound_of_compile compiled (List.ne_nil_of_mem (mem_of_route? found))
              have agree := composes.agrees composes' rfl rfl
                (FaultTable.agrees_of_perm permutes.faults sound.once 0 tree.unhandled)
              simp only [agree.deferred_eq, agree.invoke_eq]

theorem answers
    (listed : ∀ registration ∈ tree.routes, directory.ListsPlan (tree.plan registration))
    (compiled : tree.compile.result = .ok dispatcher) (method : Method) (path : String)
    (state : σ) : ∃ reply middle events done,
      Reply.start (dispatcher.handle method path) state = (reply, middle, events) ∧
        reply.complete middle = some done := by
  cases found : tree.route? method path with
  | some route =>
      obtain ⟨reply, middle, events, done, start, complete, _⟩ :=
        served_of_route? listed compiled found state
      exact ⟨reply, middle, events, done, start, complete⟩
  | none =>
      have related := rel_lookup listed compiled method path
      rw [found] at related
      rw [Dispatcher.handle]
      generalize dispatcher.router.lookup method path = entry at related ⊢
      cases related
      exact ⟨_, _, _, _, rfl, rfl⟩

end Tree

namespace TreeStep

/-- Steps use what others use that differ from them in the binding of faults only. -/
theorem uses_of_filter_eq {groups : List (Group σ)} {first second : List (TreeStep σ)}
    (uses : ∀ step ∈ first, step.Uses groups)
    (others : first.filter (·.binding?.isNone) = second.filter (·.binding?.isNone)) :
    ∀ step ∈ second, step.Uses groups := by
  intro step mem
  by_cases unbound : step.binding?.isNone = true
  · have kept : step ∈ second.filter (·.binding?.isNone) := List.mem_filter.2 ⟨mem, unbound⟩
    rw [← others] at kept
    exact uses step (List.mem_filter.1 kept).1
  · cases step with
    | answer kind terminal => trivial
    | useHandler | useGroup | route | compile | inspect | request | start | poll | drop =>
        exact absurd rfl unbound

end TreeStep

namespace TreeSession

variable {groups : List (Group σ)} {first second : List (TreeStep σ)}

/-- Bindings of faults commute. Let two sequences of steps of a session have the
same steps apart from those that bind kinds of fault, in the same order, and let
the bindings of one be those of the other in some order. They may stand anywhere
between the other steps.

* The tree compiles after one sequence exactly if it does after the other.
* If it does, both dispatchers run every request as the same task. So they make the
  same calls, stop at the same places and give the same response, and they are both
  ready or both pending at first.
* This response is given: no request fails to be answered. -/
theorem bindings_commute (made : Group.Made groups) (uses : ∀ step ∈ first, step.Uses groups)
    (others : first.filter (·.binding?.isNone) = second.filter (·.binding?.isNone))
    (bindings : (first.filterMap TreeStep.binding?).Perm (second.filterMap TreeStep.binding?))
    (settings : Settings) (registry : FaultRegistry) (start : σ) :
    ((∃ dispatcher, ((fresh settings registry groups.length start).after
        first).tree.compile.result = .ok dispatcher) ↔
      ∃ dispatcher, ((fresh settings registry groups.length start).after
        second).tree.compile.result = .ok dispatcher) ∧
    ∀ dispatcher dispatcher',
      ((fresh settings registry groups.length start).after first).tree.compile.result =
        .ok dispatcher →
      ((fresh settings registry groups.length start).after second).tree.compile.result =
        .ok dispatcher' →
      ∀ method path, dispatcher.handle method path = dispatcher'.handle method path ∧
        ∀ state, ∃ reply middle events done,
          Reply.start (dispatcher.handle method path) state = (reply, middle, events) ∧
            reply.complete middle = some done := by
  simp only [tree_fresh_after]
  have permutes : (Tree.ofSteps settings registry groups.length second).Permutes
      (Tree.ofSteps settings registry groups.length first) := by
    refine ⟨rfl, rfl, ?_, bindings⟩
    rw [Tree.ofSteps, Tree.ofSteps, ← TreeStep.registered_filter _ _ first, others,
      TreeStep.registered_filter]
  obtain ⟨directory, listed⟩ := Tree.exists_listsPlan made uses settings registry
  obtain ⟨directory', listed'⟩ := Tree.exists_listsPlan made
    (TreeStep.uses_of_filter_eq uses others) settings registry
  refine ⟨permutes.compile_iff, ?_⟩
  intro dispatcher dispatcher' compiled compiled' method path
  refine ⟨permutes.handle_eq listed listed' compiled compiled' method path, ?_⟩
  exact Tree.answers listed compiled method path

end TreeSession

namespace Sample

def late : FaultKind := ⟨1, 0, false⟩

/-- Both kinds of fault are bound before there is a route. -/
def boundEarly : List (TreeStep Nat) :=
  [.answer refused turnAway, .answer late welcome, .useGroup gate, .route ⟨"GET"⟩ "/" welcome]

/-- The same steps, with the kinds bound in the other order and later. -/
def boundLate : List (TreeStep Nat) :=
  [.useGroup gate, .answer late welcome, .route ⟨"GET"⟩ "/" welcome, .answer refused turnAway]

/-- Both trees compile, and answer the request that the gate turns away alike. -/
theorem bound_in_any_order : ∃ dispatcher dispatcher',
    ((TreeSession.fresh {} ⟨0, 2⟩ 3 0).after boundEarly).tree.compile.result = .ok dispatcher ∧
    ((TreeSession.fresh {} ⟨0, 2⟩ 3 0).after boundLate).tree.compile.result = .ok dispatcher' ∧
    dispatcher.handle ⟨"GET"⟩ "/" = dispatcher'.handle ⟨"GET"⟩ "/" := by
  have uses : ∀ step ∈ boundEarly, step.Uses [visits, entrance, gate] := by
    simp only [boundEarly, List.forall_mem_cons]
    exact ⟨trivial, trivial, .tail _ (.tail _ (.head _)), trivial, nofun⟩
  have bindings : (boundEarly.filterMap TreeStep.binding?).Perm
      (boundLate.filterMap TreeStep.binding?) := List.Perm.swap _ _ _
  obtain ⟨compiles, alike⟩ := TreeSession.bindings_commute made_groups uses
    (show _ = boundLate.filter _ from rfl) bindings {} ⟨0, 2⟩ 0
  obtain ⟨dispatcher, compiled⟩ : ∃ dispatcher, ((TreeSession.fresh {} ⟨0, 2⟩ 3 0).after
    boundEarly).tree.compile.result = .ok dispatcher := ⟨_, rfl⟩
  obtain ⟨dispatcher', compiled'⟩ := compiles.1 ⟨dispatcher, compiled⟩
  exact ⟨dispatcher, dispatcher', compiled, compiled',
    (alike dispatcher dispatcher' compiled compiled' ⟨"GET"⟩ "/").1⟩

end Sample

end RouteTree
