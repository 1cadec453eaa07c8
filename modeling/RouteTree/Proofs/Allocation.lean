import RouteTree.Proofs.Frames
import RouteTree.Proofs.Promptness

/-!
# Where the context is allocated

A frame gets its context from the one stage that allocates it, which stands in front
of the first fragment that uses the context, or at the end if only the endpoint
does. A branch for a fault puts a fresh context in place if it uses one. So a
function that is given the context, or a value that is stored in it, always finds
it there, and a route that does not use the context never has one.
-/

namespace RouteTree

open Http

variable {σ α : Type}

/-- Events in which no context is allocated on demand, and none by a stage unless that
is allowed. -/
def Event.Allows (allocates : Bool) : Event → Prop
  | .allocated onDemand => allocates = true ∧ onDemand = false
  | .call _ | .raised _ | .count _ | .log _ => True

/-- What a run may show then: such events, and frames that have no context unless an
allocation is allowed. -/
def Noted.Allows (allocates : Bool) : Noted → Prop
  | .inl event => event.Allows allocates
  | .inr frame => frame.context.isSome = true → allocates = true

variable (allocates : Bool)

/-! ## Calls -/

/-- A frame that has a context still has one when it is given another. -/
theorem Frame.isSome_withContext {frame : Frame} {context : Context}
    (held : frame.context = some context) (other : Context) :
    (frame.withContext other).context.isSome = frame.context.isSome := by
  rw [held, withContext_context]
  rfl

/-- A function that uses the context only where there is one does not allocate it, and
the frame has a context afterwards if it had one before. -/
theorem Callback.always_call (callback : Callback σ α) (payload : Option Json) {frame : Frame}
    (supplied : callback.needsContext = true → frame.context.isSome = true) :
    (callback.call payload frame).Always (Event.Allows allocates)
      fun out => out.2.context.isSome = frame.context.isSome := by
  obtain ⟨id, body⟩ := callback
  cases body with
  | plain run =>
      refine ⟨trivial, (Task.always_ofState _).bind ?_⟩
      intro out _
      exact rfl
  | contextual run =>
      obtain ⟨context, held⟩ := Option.isSome_iff_exists.1 (supplied rfl)
      simp only [call, Frame.demand_of_some held, Task.done_bind]
      refine ⟨trivial, (Task.always_ofState _).bind ?_⟩
      intro out _
      exact Frame.isSome_withContext held out.2
  | deferred run =>
      refine ⟨trivial, (Task.always_ofSilent _).bind ?_⟩
      intro out _
      exact rfl
  | deferredContextual run =>
      obtain ⟨context, held⟩ := Option.isSome_iff_exists.1 (supplied rfl)
      simp only [call, Frame.demand_of_some held, Task.done_bind]
      refine ⟨trivial, (Task.always_ofSilent _).bind ?_⟩
      intro out _
      exact Frame.isSome_withContext held out.2

namespace Op

/-- Storing a value in a context that is there does not allocate one. -/
theorem always_settle (op : Op σ) (value : Json) {frame : Frame}
    (supplied : op.target.isSome = true → frame.context.isSome = true) :
    (op.settle value frame).Always (Event.Allows allocates)
      fun after => after.context.isSome = frame.context.isSome := by
  obtain ⟨callback, _ | location⟩ := op
  · exact rfl
  · obtain ⟨context, held⟩ := Option.isSome_iff_exists.1 (supplied rfl)
    simp only [settle, Frame.demand_of_some held, Task.done_bind]
    exact Frame.isSome_withContext held _

theorem always_watch (op : Op σ) {frame : Frame}
    (supplied : op.needsContext = true → frame.context.isSome = true)
    (held : frame.context.isSome = true → allocates = true) :
    (op.watch frame).Always (Noted.Allows allocates)
      fun out => out.2.context.isSome = frame.context.isSome := by
  have entered : op.callback.needsContext = true → frame.context.isSome = true := by
    intro uses
    apply supplied
    rw [needsContext, uses, Bool.true_or]
  have call := op.callback.always_call allocates none entered
  refine (call.unmarked (Noted.Allows allocates)).bind ?_
  rintro ⟨result, after⟩ kept
  rw [← kept] at held
  rcases result with fault | value
  · exact ⟨held, trivial, kept⟩
  · have stored : op.target.isSome = true → after.context.isSome = true := by
      intro uses
      rw [kept]
      apply supplied
      rw [needsContext, uses, Bool.or_true]
    have settle := op.always_settle allocates value stored
    refine ⟨held, (settle.unmarked (Noted.Allows allocates)).bind ?_⟩
    intro last same
    rw [← same] at held
    exact ⟨held, same.trans kept⟩

/-- Calls in a row need the context where the first of them needs it. -/
theorem always_watchAll (now : Bool) {ops : List (Op σ)} {frame : Frame}
    (supplied : ∀ op ∈ ops, op.needsContext = true → frame.context.isSome = true)
    (held : frame.context.isSome = true → allocates = true) :
    (watchAll now ops frame).Always (Noted.Allows allocates)
      fun out => out.2.context.isSome = frame.context.isSome := by
  induction ops generalizing frame with
  | nil => exact rfl
  | cons op rest ih =>
      obtain ⟨here, later⟩ := List.forall_mem_cons.1 supplied
      rw [watchAll]
      split
      · exact rfl
      · refine (op.always_watch allocates here held).bind ?_
        rintro ⟨verdict, after⟩ kept
        cases verdict with
        | proceed =>
            rw [← kept] at later held ⊢
            exact ih later held
        | raise fault => exact kept
        | misplaced => exact kept

end Op

/-! ## Stages -/

namespace Stage

/-- Each call of the stages that uses the context comes after an allocation, unless the
context is ready from the start. -/
def Supplied : Bool → List (Stage σ) → Prop
  | _, [] => True
  | _, .allocate :: rest => Supplied true rest
  | ready, .group fragment :: rest =>
    (∀ op ∈ fragment.ops, op.needsContext = true → ready = true) ∧ Supplied ready rest

theorem supplied_append (ready : Bool) (first second : List (Stage σ)) :
    Supplied ready (first ++ second) ↔
      Supplied ready first ∧ Supplied (ready || first.any Stage.allocates) second := by
  induction first generalizing ready with
  | nil => simp [Supplied]
  | cons stage rest ih =>
      cases stage with
      | allocate => simp [Supplied, ih, Stage.allocates]
      | group fragment => simp [Supplied, ih, Stage.allocates, and_assoc]

/-- Stages run without allocating on demand. If none raises, the frame has a context in
the end if it had one or a stage allocated it. -/
theorem always_watchAll (now : Bool) {stages : List (Stage σ)} {frame : Frame}
    (supplied : Supplied frame.context.isSome stages)
    (allowed : (frame.context.isSome || stages.any Stage.allocates) = true → allocates = true) :
    (watchAll now stages frame).Always (Noted.Allows allocates) fun out =>
      out.1 = .proceed →
        out.2.context.isSome = (frame.context.isSome || stages.any Stage.allocates) := by
  induction stages generalizing frame with
  | nil => exact fun _ => (Bool.or_false _).symm
  | cons stage rest ih =>
      cases stage with
      | allocate =>
          have held : frame.allocate.context.isSome = true := by
            obtain ⟨params, _ | context⟩ := frame <;> rfl
          have permitted : allocates = true := allowed (Bool.or_true _)
          have later : Supplied frame.allocate.context.isSome rest := by
            rw [held]
            exact supplied
          refine ⟨⟨permitted, rfl⟩, fun _ => permitted, (ih later fun _ => permitted).mono ?_⟩
          intro out kept proceeds
          rw [kept proceeds, held]
          simp [Stage.allocates]
      | group fragment =>
          obtain ⟨here, later⟩ := supplied
          have held : frame.context.isSome = true → allocates = true := by
            intro some
            apply allowed
            rw [some, Bool.true_or]
          refine (Op.always_watchAll allocates now here held).bind ?_
          rintro ⟨verdict, after⟩ kept
          cases verdict with
          | proceed =>
              rw [← kept] at later allowed ⊢
              exact ih later allowed
          | raise fault => exact nofun
          | misplaced => exact nofun

end Stage

/-! ## Answers -/

def Reply.Meets (emits : Event → Prop) : Reply σ → Prop
  | .ready _ | .aborted => True
  | .pending task => task.Always emits fun _ => True

def WatchedReply.Meets (emits : Noted → Prop) : WatchedReply σ → Prop
  | .ready _ | .aborted => True
  | .pending task => task.Always emits fun _ => True

namespace WatchedReply

variable {emits : Noted → Prop}

theorem Meets.forget {reply : WatchedReply σ} (meets : reply.Meets emits) :
    reply.forget.Meets fun event => emits (.inl event) := by
  cases reply with
  | ready response => trivial
  | pending task => exact Task.Always.forget meets
  | aborted => trivial

theorem meets_unmarked {reply : Reply σ} (meets : reply.Meets fun event => emits (.inl event)) :
    (unmarked reply).Meets emits := by
  cases reply with
  | ready response => trivial
  | pending task => exact Task.Always.unmarked emits meets
  | aborted => trivial

end WatchedReply

namespace Endpoint

theorem always_respond (endpoint : Endpoint σ) (payload : Option Json) {frame : Frame}
    (supplied : endpoint.needsContext = true → frame.context.isSome = true) :
    (endpoint.respond payload frame).Always (Event.Allows allocates) fun _ => True := by
  cases endpoint with
  | function callback =>
      exact (callback.always_call allocates payload supplied).bind fun _ _ => trivial
  | formatted callback encoder unhandled =>
      refine (callback.always_call allocates payload supplied).bind ?_
      rintro ⟨reason | value, after⟩ _
      · exact ⟨trivial, trivial⟩
      · exact trivial
  | fixed response => exact trivial

theorem always_call (endpoint : Endpoint σ) (payload : Option Json) {frame : Frame}
    (supplied : endpoint.needsContext = true → frame.context.isSome = true) :
    (endpoint.call payload frame).Always (Event.Allows allocates)
      (Reply.Meets (Event.Allows allocates)) := by
  have answers := endpoint.always_respond allocates payload supplied
  rw [call]
  split
  · exact answers
  · exact answers.bind fun _ _ => trivial

theorem always_watch (endpoint : Endpoint σ) {frame : Frame}
    (supplied : endpoint.needsContext = true → frame.context.isSome = true)
    (held : frame.context.isSome = true → allocates = true) :
    (endpoint.watch frame).Always (Noted.Allows allocates) fun _ => True := by
  refine ⟨held, ?_⟩
  cases endpoint with
  | function callback =>
      have call := callback.always_call allocates none supplied
      refine (call.unmarked (Noted.Allows allocates)).bind ?_
      intro out kept
      rw [← kept] at held
      exact ⟨held, trivial⟩
  | formatted callback encoder unhandled =>
      have call := callback.always_call allocates none supplied
      refine (call.unmarked (Noted.Allows allocates)).bind ?_
      rintro ⟨result, after⟩ kept
      rw [← kept] at held
      rcases result with reason | value
      · exact ⟨held, trivial, trivial⟩
      · exact ⟨held, trivial⟩
  | fixed response => exact trivial

theorem always_watchCall (endpoint : Endpoint σ) {frame : Frame}
    (supplied : endpoint.needsContext = true → frame.context.isSome = true)
    (held : frame.context.isSome = true → allocates = true) :
    (endpoint.watchCall frame).Always (Noted.Allows allocates)
      (WatchedReply.Meets (Noted.Allows allocates)) := by
  have answers := endpoint.always_watch allocates supplied held
  rw [watchCall]
  split
  · exact answers
  · exact answers.bind fun _ _ => trivial

end Endpoint

namespace FaultSwitch

/-- Each branch of a table's switch prepares the context that its endpoint uses. -/
theorem OfTable.supplied {switch : FaultSwitch σ} (known : switch.OfTable) {id : Nat}
    {branch : Branch σ} (found : switch.cases.find? id = some branch) (frame : Frame) :
    branch.endpoint.needsContext = true → (branch.prepare frame).context.isSome = true := by
  obtain ⟨table, unhandled, rfl⟩ := known
  rw [table.find?_switch unhandled] at found
  obtain ⟨entry, _, rfl⟩ := Option.map_eq_some_iff.1 found
  intro uses
  have flagged : (FaultTable.branch unhandled entry).2.needsContext = true := by
    rw [← uses]
    exact (entry.2.needsContext_endpoint unhandled).symm
  rw [Branch.prepare, if_pos flagged]
  rfl

theorem always_dispatch {switch : FaultSwitch σ} (known : switch.OfTable) (fault : Fault)
    (frame : Frame) :
    (switch.dispatch fault frame).Always (Event.Allows allocates)
      (Reply.Meets (Event.Allows allocates)) := by
  rw [dispatch, select]
  cases found : switch.cases.find? fault.id with
  | none => exact ⟨trivial, trivial, trivial⟩
  | some branch =>
      exact ⟨trivial, branch.endpoint.always_call allocates _ (known.supplied found frame)⟩

theorem always_dispatchInScope {switch : FaultSwitch σ} (known : switch.OfTable) (fault : Fault)
    (frame : Frame) :
    (switch.dispatchInScope fault frame).Always (Event.Allows allocates) fun _ => True := by
  rw [dispatchInScope, select]
  cases found : switch.cases.find? fault.id with
  | none => exact ⟨trivial, trivial, trivial⟩
  | some branch =>
      exact ⟨trivial, branch.endpoint.always_respond allocates _ (known.supplied found frame)⟩

end FaultSwitch

/-! ## Chains -/

namespace Chain

/-- A chain that allocates the context before it is used, for its endpoint too, and
whose branches prepare their own. -/
structure Provides (chain : Chain σ) : Prop where
  stages : Stage.Supplied false chain.stages
  endpoint : chain.endpoint.needsContext = true → chain.allocatesContext = true
  switch : chain.switch.OfTable

variable {chain : Chain σ}

/-- The deferred scope starts with the context if the eager stages allocated it. -/
theorem Provides.always_watchScope (provides : chain.Provides) {stages : List (Stage σ)}
    (scope : chain.scope = some stages) {frame : Frame}
    (held : frame.context.isSome = chain.eager.any Stage.allocates) :
    (chain.watchScope stages frame).Always (Noted.Allows chain.allocatesContext)
      fun _ => True := by
  have whole : chain.stages = chain.eager ++ stages := by rw [Chain.stages, scope]; rfl
  have supplied := provides.stages
  rw [whole, Stage.supplied_append, Bool.false_or, ← held] at supplied
  have total : chain.allocatesContext = (frame.context.isSome || stages.any Stage.allocates) := by
    rw [allocatesContext, whole, List.any_append, held]
  refine (Stage.always_watchAll chain.allocatesContext false supplied.2 total.trans).bind ?_
  rintro ⟨verdict, after⟩ kept
  cases verdict with
  | proceed =>
      have last : after.context.isSome = chain.allocatesContext := (kept rfl).trans total.symm
      exact chain.endpoint.always_watch _ (fun uses => last.trans (provides.endpoint uses))
        last.symm.trans
  | raise fault =>
      exact (FaultSwitch.always_dispatchInScope chain.allocatesContext provides.switch fault
        after).unmarked _
  | misplaced => exact trivial

/-- A request allocates nothing on demand, and nothing at all unless a stage does; then
its frame has no context either, up to the answer. -/
theorem Provides.always_watch (provides : chain.Provides) (params : Option Params) :
    (chain.watch params).Always (Noted.Allows chain.allocatesContext)
      (WatchedReply.Meets (Noted.Allows chain.allocatesContext)) := by
  have supplied := provides.stages
  rw [Chain.stages, Stage.supplied_append, ← Option.isSome_none, ← Frame.new_context params]
    at supplied
  have total : chain.allocatesContext =
      (chain.eager.any Stage.allocates || (chain.scope.getD []).any Stage.allocates) := by
    rw [allocatesContext, Chain.stages, List.any_append]
  refine ⟨?_, (Stage.always_watchAll chain.allocatesContext true supplied.1 ?_).bind ?_⟩
  · intro held
    cases held
  · intro early
    have allocated : chain.eager.any Stage.allocates = true := early
    rw [total, allocated, Bool.true_or]
  · rintro ⟨verdict, after⟩ kept
    cases verdict with
    | raise fault =>
        have answers :=
          FaultSwitch.always_dispatch chain.allocatesContext provides.switch fault after
        refine (answers.unmarked (Noted.Allows _)).bind ?_
        intro reply meets
        exact WatchedReply.meets_unmarked meets
    | misplaced => exact trivial
    | proceed =>
        have held : after.context.isSome = chain.eager.any Stage.allocates := kept rfl
        cases scope : chain.scope with
        | some stages => exact provides.always_watchScope scope held
        | none =>
            have last : after.context.isSome = chain.allocatesContext := by
              rw [held, total, scope]
              exact (Bool.or_false _).symm
            exact chain.endpoint.always_watchCall _
              (fun uses => last.trans (provides.endpoint uses)) last.symm.trans

theorem Provides.always_invoke (provides : chain.Provides) (params : Option Params) :
    (chain.invoke params).Always (Event.Allows chain.allocatesContext)
      (Reply.Meets (Event.Allows chain.allocatesContext)) := by
  rw [← chain.forget_watch params]
  refine (provides.always_watch params).forget.bind ?_
  intro reply meets
  exact meets.forget

/-- Some run of the chain for a request with these captures emits the event, when the
chain is invoked or when its reply is polled. -/
inductive Emits (chain : Chain σ) (params : Option Params) (event : Event) : Prop
  | invoked {events : List Event} {progress : Progress Event σ (Reply σ)}
      (run : (chain.invoke params).Runs events progress) (mem : event ∈ events)
  | polled {events later : List Event} {task : Task Event σ Response}
      {progress : Progress Event σ Response}
      (run : (chain.invoke params).Runs events (.finished (.pending task)))
      (poll : task.Runs later progress) (mem : event ∈ later)

theorem Provides.allows_of_emits (provides : chain.Provides) {params : Option Params}
    {event : Event} (emits : chain.Emits params event) : event.Allows chain.allocatesContext := by
  have always := provides.always_invoke params
  cases emits with
  | invoked run mem =>
      obtain ⟨events, _⟩ := always.runs run
      exact events event mem
  | polled run poll mem =>
      obtain ⟨_, pending⟩ := always.runs run
      obtain ⟨events, _⟩ := Task.Always.runs pending poll
      exact events event mem

/-- Some run of the chain for a request with these captures has the frame at some point
up to the answer, when the chain is invoked or when its reply is polled. -/
inductive Shows (chain : Chain σ) (params : Option Params) (frame : Frame) : Prop
  | invoked {shown : List Noted} {progress : Progress Noted σ (WatchedReply σ)}
      (run : (chain.watch params).Runs shown progress) (mem : .inr frame ∈ shown)
  | polled {shown later : List Noted} {task : Task Noted σ Response}
      {progress : Progress Noted σ Response}
      (run : (chain.watch params).Runs shown (.finished (.pending task)))
      (poll : task.Runs later progress) (mem : .inr frame ∈ later)

/-- Without an allocation no frame gets a context. -/
theorem Provides.context_eq_none (provides : chain.Provides)
    (never : chain.allocatesContext = false) {params : Option Params} {frame : Frame}
    (shows : chain.Shows params frame) : frame.context = none := by
  have always := provides.always_watch params
  have allowed : Noted.Allows chain.allocatesContext (.inr frame) := by
    cases shows with
    | invoked run mem =>
        obtain ⟨shown, _⟩ := always.runs run
        exact shown _ mem
    | polled run poll mem =>
        obtain ⟨_, pending⟩ := always.runs run
        obtain ⟨shown, _⟩ := Task.Always.runs pending poll
        exact shown _ mem
  rw [never] at allowed
  cases held : frame.context with
  | none => rfl
  | some context =>
      rw [Noted.Allows, held] at allowed
      cases allowed rfl

end Chain

namespace Stage

/-- Arranged fragments have the context where they use it. -/
theorem supplied_arrange {fragments : List (Fragment σ)}
    (flagged : ∀ fragment ∈ fragments, fragment.needsContext = fragment.ops.any Op.needsContext)
    (ready : Bool) : Supplied ready (arrange ready fragments) := by
  induction fragments generalizing ready with
  | nil => trivial
  | cons fragment rest ih =>
      obtain ⟨here, later⟩ := List.forall_mem_cons.1 flagged
      have calls : ∀ op ∈ fragment.ops, op.needsContext = true →
          (ready || fragment.needsContext) = true := by
        intro op mem uses
        rw [here, List.any_eq_true.2 ⟨op, mem, uses⟩, Bool.or_true]
      by_cases allocated : (fragment.needsContext && !ready) = true
      · obtain ⟨uses, _⟩ := Bool.and_eq_true_iff.1 allocated
        rw [arrange, if_pos allocated, uses, Bool.or_true]
        exact ⟨fun _ _ _ => rfl, ih later true⟩
      · have same : (ready || fragment.needsContext) = ready := by
          cases ready <;> simp_all
        rw [same] at calls
        rw [arrange, if_neg allocated, same]
        exact ⟨calls, ih later ready⟩

theorem allocates_arrange (ready : Bool) (fragments : List (Fragment σ)) :
    (arrange ready fragments).any Stage.allocates =
      (!ready && fragments.any Fragment.needsContext) := by
  induction fragments generalizing ready with
  | nil => simp [arrange]
  | cons fragment rest ih =>
      simp only [arrange, List.any_append, List.any_cons, ih, Stage.allocates]
      cases ready <;> cases fragment.needsContext <;> simp [Stage.allocates]

end Stage

namespace Chain.Joins

variable {chain : Chain σ} {fragments : List (Fragment σ)} {endpoint : Endpoint σ}
  {switch : FaultSwitch σ}

/-- A chain allocates the context if a fragment or its endpoint uses it. -/
theorem allocatesContext_eq (joins : chain.Joins fragments endpoint switch) :
    chain.allocatesContext =
      (fragments.any Fragment.needsContext || chain.endpoint.needsContext) := by
  rw [allocatesContext, joins.stages_eq, List.any_append, Stage.allocates_arrange]
  cases fragments.any Fragment.needsContext <;> cases chain.endpoint.needsContext <;> rfl

/-- A chain of fragments with the right flags provides the context. -/
theorem provides (joins : chain.Joins fragments endpoint switch) (known : switch.OfTable)
    (flagged : ∀ fragment ∈ fragments,
      fragment.needsContext = fragment.ops.any Op.needsContext) : chain.Provides := by
  refine ⟨?_, ?_, ?_⟩
  · rw [joins.stages_eq, Stage.supplied_append]
    refine ⟨Stage.supplied_arrange flagged false, ?_⟩
    cases chain.endpoint.needsContext && !fragments.any Fragment.needsContext with
    | true => exact trivial
    | false => exact trivial
  · intro uses
    rw [joins.allocatesContext_eq, uses, Bool.or_true]
  · rw [joins.switch]
    exact known

end Chain.Joins

namespace Compiler

variable {directory : Directory σ} (registry : FaultRegistry) (unhandled : Response)
  {history : List (RoutePlan σ × Bool)} {plan : RoutePlan σ} {chain : Chain σ}

theorem provides_of_mem_chains
    (listed : ∀ entry ∈ history, ∀ group ∈ entry.1.groups, directory.ListsGroup group)
    (compiled : (plan, chain) ∈ (new registry unhandled).chains history) : chain.Provides := by
  have used := uses_of_mem_chains registry unhandled listed compiled
  obtain ⟨switch, known, joins⟩ := used.joins
  refine joins.provides known ?_
  intro fragment mem
  exact (flags_of_mem_cache registry unhandled listed (used.mem_cache mem)).2

/-- A chain whose leaves and terminal do not use the context does not allocate it. -/
theorem allocatesContext_eq_false
    (listed : ∀ entry ∈ history, ∀ group ∈ entry.1.groups, directory.ListsGroup group)
    (compiled : (plan, chain) ∈ (new registry unhandled).chains history)
    (leaves : ∀ group ∈ plan.groups, ∀ leaf ∈ Handler.leavesAll group.handlers,
      leaf.traits.needsContext = false)
    (terminal : plan.terminal.needsContext = false) : chain.allocatesContext = false := by
  have used := uses_of_mem_chains registry unhandled listed compiled
  obtain ⟨switch, _, joins⟩ := used.joins
  rw [joins.allocatesContext_eq, joins.endpoint, Terminal.needsContext_endpoint, terminal,
    Bool.or_false, List.any_eq_false]
  intro fragment mem
  obtain ⟨group, there, found⟩ := used.exists_group mem
  obtain ⟨member, number⟩ := FragmentCache.of_find? found
  obtain ⟨represents, sound, _⟩ := represents_of_mem_cache registry unhandled listed member
  obtain ⟨source, given, same⟩ := mem_history_of_mem_chains compiled
  have known : directory.groups fragment.group = group.handlers := by
    rw [number]
    exact (listed source given group (same ▸ there)).1
  rw [(represents.flags_of_leaves sound).2, known, Bool.not_eq_true, List.any_eq_false]
  intro leaf inside
  rw [leaves group there leaf inside]
  exact Bool.false_ne_true

/-- The context is there before it is used, and only then. In every run of a chain that
a compiler gave, over any history of plans, for any request, with any states between
the polls, no context is allocated on demand: a function that is given the context and
a value that is stored in it find it in the frame, before the deferred scope and in it,
at the terminal and on the way out of a fault. If no leaf of the plan's groups and not
its terminal uses the context, no run allocates one, and the frame has none at any
point up to the terminal and after its call. These points are those that the run with
notes shows, and for every chain whatsoever, compiled or not, this is the run of the
chain. -/
theorem context_allocated_when_used
    (listed : ∀ entry ∈ history, ∀ group ∈ entry.1.groups, directory.ListsGroup group)
    (compiled : (plan, chain) ∈ (new registry unhandled).chains history)
    (params : Option Params) :
    ¬ chain.Emits params (.allocated true) ∧
    (∀ any : Chain σ, (any.watch params).forgetReply = any.invoke params) ∧
    ((∀ group ∈ plan.groups, ∀ leaf ∈ Handler.leavesAll group.handlers,
        leaf.traits.needsContext = false) →
      plan.terminal.needsContext = false →
      (∀ onDemand, ¬ chain.Emits params (.allocated onDemand)) ∧
        ∀ frame, chain.Shows params frame → frame.context = none) := by
  have provides := provides_of_mem_chains registry unhandled listed compiled
  refine ⟨?_, fun any => any.forget_watch params, ?_⟩
  · intro emits
    obtain ⟨_, onDemand⟩ := provides.allows_of_emits emits
    cases onDemand
  · intro leaves terminal
    have never := allocatesContext_eq_false registry unhandled listed compiled leaves terminal
    constructor
    · intro onDemand emits
      obtain ⟨allocates, _⟩ := provides.allows_of_emits emits
      rw [never] at allocates
      cases allocates
    · intro frame shows
      exact provides.context_eq_none never shows

end Compiler

namespace Sample

def bare : RoutePlan Nat := ⟨[visits, gate], welcome, faults⟩

theorem listsGroup_bare :
    ∀ entry ∈ plans ++ [(bare, false)], ∀ group ∈ entry.1.groups, directory.ListsGroup group := by
  intro entry mem
  rcases List.mem_append.1 mem with old | last
  · exact listsGroup_plans entry old
  · obtain rfl := List.mem_singleton.1 last
    exact (listsPlan (by simp) _ rfl : directory.ListsPlan bare).groups

/-- The gate raises its fault on a frame without a context, and the answer to the fault
finds one. -/
theorem bare_context :
    ∃ chain, (bare, chain) ∈ (Compiler.new registry unhandled).chains (plans ++ [(bare, false)]) ∧
      ¬ chain.Emits none (.allocated true) ∧
      (chain.watch none).forgetReply = chain.invoke none ∧
      (∀ onDemand, ¬ chain.Emits none (.allocated onDemand)) ∧
      ∀ frame, chain.Shows none frame → frame.context = none := by
  have last := List.mem_of_getLast?
    (l := (Compiler.new registry unhandled).chains (plans ++ [(bare, false)])) rfl
  obtain ⟨onDemand, same, unused⟩ :=
    Compiler.context_allocated_when_used registry unhandled listsGroup_bare last none
  refine ⟨_, last, onDemand, same _, unused ?_ rfl⟩
  decide

end Sample

end RouteTree
