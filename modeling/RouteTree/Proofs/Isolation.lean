import RouteTree.Proofs.Indifference
import RouteTree.Proofs.Refinement
import RouteTree.Proofs.Registration
import RouteTree.Proofs.Routing
import RouteTree.Session.Tree

/-!
# Requests do not disturb each other

If the functions of a route tree share no state, a request in flight shows the
same whether it is polled alone or among others. What the dispatcher of such a
tree can call are the functions of the tree, so its tasks are indifferent to the
shared state; and a step of a session that is not about a request leaves the
task of that request alone.
-/

namespace RouteTree

open Http

variable {σ : Type}

/-! ## Functions of a tree -/

namespace Handler

mutual

/-- All functions of the handler share no state. -/
def Isolated : Handler σ → Prop
  | .nested _ _ handlers => AllIsolated handlers
  | .checked callback _ => callback.Isolated
  | .unchecked callback _ => callback.Isolated

def AllIsolated : List (Handler σ) → Prop
  | [] => True
  | handler :: rest => handler.Isolated ∧ AllIsolated rest

end

theorem allIsolated_iff {handlers : List (Handler σ)} :
    AllIsolated handlers ↔ ∀ handler ∈ handlers, handler.Isolated := by
  induction handlers with
  | nil => simp [AllIsolated]
  | cons handler rest ih => simp [AllIsolated, ih]

end Handler

namespace Terminal

def Isolated : Terminal σ → Prop
  | .function callback => callback.Isolated
  | .formatted callback _ => callback.Isolated
  | .fixed _ => True

theorem isolated_endpoint {terminal : Terminal σ} (isolated : terminal.Isolated)
    (unhandled : Response) : (terminal.endpoint unhandled).Isolated := by
  cases terminal with
  | function callback => exact isolated
  | formatted callback encoder => exact isolated
  | fixed page => trivial

end Terminal

structure RoutePlan.Isolated (plan : RoutePlan σ) : Prop where
  groups : ∀ group ∈ plan.groups, Handler.AllIsolated group.handlers
  terminal : plan.terminal.Isolated
  faults : ∀ entry ∈ plan.faults.entries, entry.2.Isolated

/-- All functions that are registered with the tree share no state. -/
structure Tree.Isolated (tree : Tree σ) : Prop where
  groups : ∀ registration ∈ tree.routes, ∀ group ∈ registration.groups,
    Handler.AllIsolated group.handlers
  terminals : ∀ registration ∈ tree.routes, registration.terminal.Isolated
  faults : ∀ entry ∈ tree.faults, entry.2.Isolated

/-! ## Compiling keeps to the functions of the tree -/

def Fragment.Isolated (fragment : Fragment σ) : Prop := ∀ op ∈ fragment.ops, op.Isolated

def FragmentCache.Isolated (cache : FragmentCache σ) : Prop :=
  ∀ fragment ∈ cache.fragments, fragment.Isolated

/-- The calls of the draft and those of all groups compiled so far. -/
structure Draft.Isolated (draft : Draft σ) : Prop where
  ops : ∀ op ∈ draft.ops, op.Isolated
  cache : draft.tables.cache.Isolated

/-- A compiled group, from the cache or built now, keeps to what is in the cache
and what building adds. -/
theorem Draft.isolated_compiledGroup {draft : Draft σ} (cache : draft.tables.cache.Isolated)
    (group : Nat) (traits : Traits) (handlers : Nat) {build : Draft σ → Draft σ}
    (builds : ∀ child : Draft σ, child.Isolated → (build child).Isolated) :
    (draft.compiledGroup group traits handlers build).1.Isolated ∧
      (draft.compiledGroup group traits handlers build).2.tables.cache.Isolated := by
  rw [compiledGroup]
  cases found : draft.tables.cache.find? group with
  | some fragment => exact ⟨cache fragment (List.mem_of_find?_eq_some found), cache⟩
  | none =>
      have child := builds draft.derive ⟨by simp, cache⟩
      refine ⟨child.ops, ?_⟩
      intro fragment mem
      rcases List.mem_append.1 mem with old | new
      · exact child.cache fragment old
      · rw [List.mem_singleton.1 new]
        exact child.ops

namespace Handler

theorem isolated_compileAll_of_forall {handlers : List (Handler σ)}
    (each : ∀ handler ∈ handlers, ∀ draft : Draft σ, draft.Isolated →
      (handler.compile draft).Isolated)
    (draft : Draft σ) (isolated : draft.Isolated) : (compileAll handlers draft).Isolated := by
  induction handlers generalizing draft with
  | nil => exact isolated
  | cons handler rest ih =>
      obtain ⟨here, later⟩ := List.forall_mem_cons.1 each
      exact ih later (handler.compile draft) (here draft isolated)

theorem isolated_compile {handler : Handler σ} (own : handler.Isolated) (draft : Draft σ)
    (isolated : draft.Isolated) : (handler.compile draft).Isolated := by
  induction handler using Handler.induction generalizing draft with
  | nested group traits handlers ih =>
      simp only [Isolated] at own
      have builds := isolated_compileAll_of_forall fun handler mem =>
        ih handler mem (allIsolated_iff.1 own handler mem)
      obtain ⟨fragment, cache⟩ := Draft.isolated_compiledGroup isolated.cache group traits
        handlers.length builds
      refine ⟨?_, cache⟩
      simp only [compile, Draft.ops_assign, Draft.ops_note, Draft.ops_splice]
      rw [Draft.ops, Draft.items_compiledGroup, ← Draft.ops]
      exact List.forall_mem_append.2 ⟨isolated.ops, fragment⟩
  | checked callback target =>
      simp only [Isolated] at own
      refine ⟨?_, isolated.cache⟩
      simpa [compile, Op.Isolated, or_imp, forall_and] using ⟨isolated.ops, own⟩
  | unchecked callback target =>
      simp only [Isolated] at own
      refine ⟨?_, isolated.cache⟩
      simpa [compile, Op.Isolated, or_imp, forall_and] using ⟨isolated.ops, own.map Except.ok⟩

end Handler

theorem Group.isolated_compile {group : Group σ} (own : Handler.AllIsolated group.handlers)
    {draft : Draft σ} (cache : draft.tables.cache.Isolated) :
    (group.compile draft).1.Isolated ∧ (group.compile draft).2.tables.cache.Isolated :=
  Draft.isolated_compiledGroup cache group.id group.traits group.handlers.length <|
    Handler.isolated_compileAll_of_forall fun handler mem =>
      Handler.isolated_compile (Handler.allIsolated_iff.1 own handler mem)

theorem FaultTable.isolated_switch {table : FaultTable σ}
    (own : ∀ entry ∈ table.entries, entry.2.Isolated) (unhandled : Response) :
    (table.switch unhandled).Isolated := by
  intro id branch found
  rw [table.find?_switch] at found
  obtain ⟨entry, bound, rfl⟩ := Option.map_eq_some_iff.1 found
  exact Terminal.isolated_endpoint (own entry (List.mem_of_find?_eq_some bound)) unhandled

/-- A chain of isolated fragments is isolated if its endpoint and switch are. -/
theorem Chain.Joins.isolated {chain : Chain σ} {fragments : List (Fragment σ)}
    {endpoint : Endpoint σ} {switch : FaultSwitch σ} (joins : chain.Joins fragments endpoint switch)
    (own : ∀ fragment ∈ fragments, fragment.Isolated) (answer : endpoint.Isolated)
    (faults : switch.Isolated) : chain.Isolated := by
  refine ⟨?_, joins.endpoint ▸ answer, joins.switch ▸ faults⟩
  intro stage mem op inside
  have made : op ∈ chain.stages.flatMap Stage.ops := List.mem_flatMap.2 ⟨stage, mem, inside⟩
  rw [joins.stages] at made
  obtain ⟨fragment, mem, inside⟩ := List.mem_flatMap.1 made
  exact own fragment mem op inside

namespace Compiler

variable {compiler : Compiler σ} {plan : RoutePlan σ} {parameterized : Bool}

def Isolated (compiler : Compiler σ) : Prop :=
  compiler.Keeps FragmentCache.Isolated fun _ switch => switch.Isolated

theorem isolated_new (registry : FaultRegistry) (unhandled : Response) :
    (new registry unhandled : Compiler σ).Isolated :=
  ⟨by simp [new, FragmentCache.Isolated], by simp [new]⟩

/-- Compiling a plan keeps to its functions and to those compiled before. -/
theorem isolated_compile (isolated : compiler.Isolated) (own : plan.Isolated) :
    (∀ chain, (compiler.compile plan parameterized).1 = .ok chain → chain.Isolated) ∧
      (compiler.compile plan parameterized).2.Isolated := by
  obtain ⟨chains, kept, _⟩ := @keeps_compile σ compiler plan parameterized _ _
    (fun _ fragment => fragment.Isolated) isolated
    (fun group mem draft cache => Group.isolated_compile (own.groups group mem) cache)
    (FaultTable.isolated_switch own.faults compiler.unhandled)
  refine ⟨?_, kept⟩
  intro chain ok
  obtain ⟨fragments, switch, compiled, faults, joins⟩ := chains chain ok
  have each : List.Forall₂ (fun fragment (_ : Group σ) => fragment.Isolated ∧ True) fragments
      plan.groups := .flip (compiled.imp fun _ _ own => ⟨own, trivial⟩)
  obtain ⟨isolated, _⟩ := (List.forall₂_and_left _ _).1 each
  exact joins.isolated isolated (Terminal.isolated_endpoint own.terminal _) faults

end Compiler

/-- An added route of an isolated tree keeps all compiled code isolated. -/
theorem Tree.CompilesRoute.isolated {tree : Tree σ} (own : tree.Isolated)
    {registration : Registration σ} (mem : registration ∈ tree.routes)
    {compiler after : Compiler σ} {router next : Router (Chain σ)}
    (compiles : tree.CompilesRoute registration compiler router (.ok next, after))
    (isolated : compiler.Isolated ∧ router.Holds Chain.Isolated) :
    after.Isolated ∧ next.Holds Chain.Isolated := by
  have plan : (tree.plan registration).Isolated :=
    ⟨own.groups registration mem, own.terminals registration mem, own.faults⟩
  cases compiles with
  | @added pattern chain between events read compiled accepted =>
      have kept := @Compiler.isolated_compile σ compiler _ (!pattern.isStatic) isolated.1 plan
      rw [compiled] at kept
      exact ⟨⟨kept.2.cache, kept.2.switches⟩,
        isolated.2.insert registration.method pattern (kept.1 chain rfl)⟩

/-- The dispatcher of a tree whose functions share no state can reach no others. -/
theorem Tree.isolated_dispatcher {tree : Tree σ} (own : tree.Isolated)
    {dispatcher : Dispatcher σ} (compiled : tree.compile.result = .ok dispatcher) :
    dispatcher.Isolated := by
  obtain ⟨_, _, holds⟩ := Tree.invariant_compileRoutes
    (fun compiler router => compiler.Isolated ∧ router.Holds Chain.Isolated)
    (fun registration mem compiler router next after isolated compiles =>
      compiles.isolated own mem isolated)
    ⟨Compiler.isolated_new _ _, Router.holds_empty _⟩ (Tree.router_of_compile compiled)
  intro method path found h
  exact holds.lookup h

/-! ## Requests in flight -/

namespace Flights

variable {flights others : Flights σ} {name other : String} {reply : Reply σ}

theorem find?_erase : (flights.erase name).find? name = none := by
  simp [find?, erase]

theorem find?_erase_of_ne (flights : Flights σ) (ne : name ≠ other) :
    (flights.erase other).find? name = flights.find? name := by
  simp only [find?, erase, List.find?_filter]
  congr 2
  funext entry
  by_cases same : entry.1 = name <;> simp [same, ne]

theorem find?_insert : (flights.insert name reply).find? name = some reply := by
  simp [find?, insert]

theorem find?_insert_of_ne (ne : name ≠ other) :
    (flights.insert other reply).find? name = flights.find? name := by
  have rest := flights.find?_erase_of_ne ne
  simpa [find?, insert, Ne.symm ne] using rest

theorem find?_poll_of_ne (ne : name ≠ other) (state : σ) :
    (flights.poll other state).2.1.find? name = flights.find? name := by
  rw [poll]
  split
  · rfl
  · exact flights.find?_erase_of_ne ne
  · exact flights.find?_erase_of_ne ne
  · dsimp only
    split
    · exact flights.find?_erase_of_ne ne
    · exact find?_insert_of_ne ne

/-- Polling requests that are alike shows the same, and leaves them alike. -/
theorem alike_poll (alike : Option.Rel Reply.Alike (flights.find? name) (others.find? name))
    (state state' : σ) :
    (flights.poll name state).1 = (others.poll name state').1 ∧
      (flights.poll name state).2.2.2 = (others.poll name state').2.2.2 ∧
      Option.Rel Reply.Alike ((flights.poll name state).2.1.find? name)
        ((others.poll name state').2.1.find? name) := by
  simp only [poll]
  generalize mine : flights.find? name = reply at alike ⊢
  generalize theirs : others.find? name = reply' at alike ⊢
  cases alike with
  | none => simp [mine, theirs]
  | some alike =>
      cases alike with
      | ready response => simp [find?_erase]
      | aborted => simp [find?_erase]
      | @pending task task' alike =>
          have polled := alike.polled state state'
          dsimp only
          generalize task.poll state = left at polled ⊢
          generalize task'.poll state' = right at polled ⊢
          cases polled with
          | finished same =>
              subst same
              simp [find?_erase]
          | waiting later => simpa [find?_insert] using Option.Rel.some (.pending later)

end Flights

theorem Reply.Alike.ready?_eq {reply other : Reply σ} (alike : Reply.Alike reply other) :
    reply.ready? = other.ready? := by
  cases alike <;> rfl

theorem Reply.alike_start {task other : Task Event σ (Reply σ)}
    (alike : Task.Alike Reply.Alike task other) (state state' : σ) :
    Reply.Alike (start task state).1 (start other state').1 ∧
      (start task state).2.2 = (start other state').2.2 := by
  have polled := alike.polled state state'
  simp only [start]
  generalize task.poll state = left at polled ⊢
  generalize other.poll state' = right at polled ⊢
  cases polled with
  | finished h => exact ⟨h, rfl⟩
  | waiting h => exact ⟨.aborted, rfl⟩

/-! ## Sessions -/

/-- What a step shows of a request: the response if it is ready at its start,
or the answer to a poll, and the events of the step. -/
inductive Sight where
  | started (response : Option Response) (events : List Event)
  | polled (answer : FlightAnswer) (events : List Event)

/-- What the outcome of a step shows of the request of this name. -/
def TreeOutcome.sight? (name : String) (step : TreeStep σ) (outcome : TreeOutcome σ) :
    Option Sight :=
  match step, outcome.answer with
  | .start flight _ _, .started reply =>
    if flight = name then some (.started reply.ready? outcome.events) else none
  | .poll flight, .polled answer =>
    if flight = name then some (.polled answer outcome.events) else none
  | _, _ => none

namespace TreeStep

def polls (name : String) : TreeStep σ → Bool
  | .poll flight => flight = name
  | _ => false

/-- Whether the step leaves the name to its request: it neither starts another
one under that name nor drops it. -/
def keeps (name : String) : TreeStep σ → Bool
  | .start flight _ _ => flight ≠ name
  | .drop flight => flight ≠ name
  | _ => true

end TreeStep

namespace TreeSession

variable {session alone : TreeSession σ} {name : String} {step : TreeStep σ}

/-- What the steps of a session show of the request of this name, in order. -/
def watch (name : String) (session : TreeSession σ) : List (TreeStep σ) → List Sight
  | [] => []
  | step :: steps =>
    ((session.step step).sight? name step).toList ++ (session.step step).session.watch name steps

/-- The start of the request shows whether it is ready, and the events. -/
theorem sight?_start {dispatcher : Dispatcher σ} (here : session.dispatcher = some dispatcher)
    {method : Method} {path : String} :
    (session.step (.start name method path)).sight? name (.start name method path) =
      some (.started (Reply.start (dispatcher.handle method path) session.state).1.ready?
        (Reply.start (dispatcher.handle method path) session.state).2.2) := by
  simp [TreeSession.step, TreeOutcome.sight?, here]

/-- A poll of the request shows the answer and the events. -/
theorem sight?_poll :
    (session.step (.poll name)).sight? name (.poll name) =
      some (.polled (session.flights.poll name session.state).1
        (session.flights.poll name session.state).2.2.2) := by
  simp [TreeSession.step, TreeOutcome.sight?]

/-- A step that is not about the request shows nothing of it. -/
theorem sight?_of_other (keeps : step.keeps name = true) (other : step.polls name = false) :
    (session.step step).sight? name step = none := by
  cases step with
  | start flight method path =>
      have ne : flight ≠ name := by simpa [TreeStep.keeps] using keeps
      simp only [TreeOutcome.sight?]
      split <;> simp_all
  | poll flight =>
      have ne : flight ≠ name := by simpa [TreeStep.polls] using other
      simp only [TreeOutcome.sight?]
      split <;> simp_all
  | _ => rfl

/-- A step that is not about the request leaves it as it is. -/
theorem find?_step_of_other (keeps : step.keeps name = true) (other : step.polls name = false) :
    (session.step step).session.flights.find? name = session.flights.find? name := by
  cases step with
  | useHandler | useGroup | route | answer => rfl
  | compile =>
      simp only [TreeSession.step, compile]
      split <;> rfl
  | inspect method path =>
      simp only [TreeSession.step]
      split
      · rfl
      · split <;> rfl
  | request method path =>
      simp only [TreeSession.step]
      split
      · rfl
      · simp only [request]
        split <;> rfl
  | start flight method path =>
      have ne : flight ≠ name := by simpa [TreeStep.keeps] using keeps
      simp only [TreeSession.step]
      split
      · rfl
      · exact Flights.find?_insert_of_ne ne.symm
  | poll flight =>
      have ne : flight ≠ name := by simpa [TreeStep.polls] using other
      exact Flights.find?_poll_of_ne ne.symm session.state
  | drop flight =>
      have ne : flight ≠ name := by simpa [TreeStep.keeps] using keeps
      exact session.flights.find?_erase_of_ne ne.symm

/-- A request among others and one like it that is polled alone show the same. -/
theorem watch_eq_of_alike {steps : List (TreeStep σ)}
    (alike : Option.Rel Reply.Alike (session.flights.find? name) (alone.flights.find? name))
    (kept : ∀ step ∈ steps, step.keeps name = true) :
    session.watch name steps =
      alone.watch name (List.replicate (steps.countP (TreeStep.polls name)) (.poll name)) := by
  induction steps generalizing session alone with
  | nil => rfl
  | cons step steps ih =>
      obtain ⟨here, later⟩ := List.forall_mem_cons.1 kept
      cases own : step.polls name with
      | false =>
          -- The step is about something else, and the request alone does not see it.
          rw [List.countP_cons_of_neg (by simp [own]), watch, sight?_of_other here own]
          refine ih ?_ later
          rw [find?_step_of_other here own]
          exact alike
      | true =>
          obtain ⟨flight, rfl⟩ : ∃ flight, step = .poll flight := by
            cases step <;> simp_all [TreeStep.polls]
          obtain rfl : flight = name := by simpa [TreeStep.polls] using own
          obtain ⟨answer, events, left⟩ := Flights.alike_poll alike session.state alone.state
          have rest := @ih (session.step (.poll flight)).session (alone.step (.poll flight)).session
            left later
          rw [List.countP_cons_of_pos own, List.replicate_succ, watch, watch, sight?_poll,
            sight?_poll, answer, events, rest]

/-- Requests do not disturb each other. Take a tree whose functions share no
state, and a request that is started in any session with its dispatcher, with
any requests in flight. Whatever the session does then, be it starting, polling
and dropping other requests, compiling anew or anything else, the request shows
poll by poll what it shows when it is started and polled alone: the same events,
and so the same calls, the same answer to every poll, and so the same response
after the same number of polls. -/
theorem watch_among_others {tree : Tree σ} (isolated : tree.Isolated)
    {dispatcher : Dispatcher σ} (compiled : tree.compile.result = .ok dispatcher)
    (here : session.dispatcher = some dispatcher) (there : alone.dispatcher = some dispatcher)
    (name : String) (method : Method) (path : String) {steps : List (TreeStep σ)}
    (kept : ∀ step ∈ steps, step.keeps name = true) :
    session.watch name (.start name method path :: steps) =
      alone.watch name (.start name method path ::
        List.replicate (steps.countP (TreeStep.polls name)) (.poll name)) := by
  have handled := Dispatcher.alike_handle (tree.isolated_dispatcher isolated compiled) method path
  obtain ⟨reply, events⟩ := Reply.alike_start handled session.state alone.state
  have left : Option.Rel Reply.Alike
      ((session.step (.start name method path)).session.flights.find? name)
      ((alone.step (.start name method path)).session.flights.find? name) := by
    simpa [TreeSession.step, here, there, Flights.find?_insert] using Option.Rel.some reply
  rw [watch, watch, watch_eq_of_alike left kept, sight?_start here, sight?_start there,
    reply.ready?_eq, events]

end TreeSession

namespace Sample

/-- One route with captures, which runs both groups. -/
def tree : Tree Nat :=
  { registry
    faults := faults.entries
    routes := [⟨⟨"GET"⟩, "/gate/:id", [entrance, gate], welcome⟩] }

theorem isolated_turnAway : turnAway.Isolated :=
  fun _ _ => .wait 1 (.done rfl)

theorem isolated_tree : tree.Isolated := by
  have visits : Handler.AllIsolated visits.handlers := by
    refine Handler.allIsolated_iff.2 (List.forall_mem_singleton.2 ?_)
    exact fun _ _ _ => rfl
  have entrance : Handler.AllIsolated entrance.handlers := by
    refine Handler.allIsolated_iff.2 (List.forall_mem_cons.2 ⟨visits, ?_⟩)
    exact List.forall_mem_singleton.2 fun _ _ _ _ => rfl
  have gate : Handler.AllIsolated gate.handlers := by
    refine Handler.allIsolated_iff.2 (List.forall_mem_cons.2 ⟨visits, ?_⟩)
    exact List.forall_mem_singleton.2 fun _ => .wait 2 (.done rfl)
  refine ⟨?_, ?_, ?_⟩
  · refine List.forall_mem_singleton.2 (List.forall_mem_cons.2 ⟨entrance, ?_⟩)
    exact List.forall_mem_singleton.2 gate
  · exact List.forall_mem_singleton.2 trivial
  · exact List.forall_mem_singleton.2 isolated_turnAway

def session (dispatcher : Dispatcher Nat) (count : Nat) : TreeSession Nat :=
  { tree, dispatcher := some dispatcher, nextGroup := 3, state := count }

/-- Two requests take turns, and one of them is dropped. -/
def schedule : List (TreeStep Nat) :=
  [.poll "first", .start "second" ⟨"GET"⟩ "/gate/2", .poll "second", .poll "first", .compile,
    .poll "second", .drop "second", .request ⟨"GET"⟩ "/gate/3", .poll "first", .poll "first"]

end Sample

/-- A request of the sample among others, in sessions with different counts. -/
theorem Sample.watch_schedule : ∃ dispatcher, tree.compile.result = .ok dispatcher ∧
    (session dispatcher 0).watch "first" (.start "first" ⟨"GET"⟩ "/gate/1" :: schedule) =
      (session dispatcher 50).watch "first" (.start "first" ⟨"GET"⟩ "/gate/1" ::
        List.replicate 4 (.poll "first")) :=
  ⟨_, rfl, TreeSession.watch_among_others isolated_tree rfl rfl rfl "first" ⟨"GET"⟩ "/gate/1"
    (by simp [schedule, TreeStep.keeps])⟩

end RouteTree
