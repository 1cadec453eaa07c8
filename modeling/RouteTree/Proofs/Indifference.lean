import RouteTree.Proofs.Enactment
import RouteTree.Tree

/-!
# Indifference to the shared state

A user function shares no state with others if what it gives does not depend on
the state in which it is called or polled; it may still write to it. Two tasks
are alike if poll by poll they show the same, whatever states they are polled
in, so a task that is like itself can be polled among any others. Everything
that is compiled from functions that share no state is like itself.
-/

namespace RouteTree

open Http

variable {ε σ α β : Type}

/-- Two polls show the same events, and either end in related values or leave
tasks that are alike later. -/
inductive Polled.Alike (related : α → α → Prop) (later : Task ε σ α → Task ε σ α → Prop) :
    Polled ε σ α → Polled ε σ α → Prop
  | finished {value other : α} {state state' : σ} {events : List ε} (h : related value other) :
      Polled.Alike related later ⟨.finished value, state, events⟩ ⟨.finished other, state', events⟩
  | waiting {rest other : Task ε σ α} {state state' : σ} {events : List ε} (h : later rest other) :
      Polled.Alike related later ⟨.waiting rest, state, events⟩ ⟨.waiting other, state', events⟩

theorem Polled.Alike.prepend {related : α → α → Prop} {later : Task ε σ α → Task ε σ α → Prop}
    {polled other : Polled ε σ α} (alike : Polled.Alike related later polled other)
    (events : List ε) :
    Polled.Alike related later { polled with events := events ++ polled.events }
      { other with events := events ++ other.events } := by
  cases alike with
  | finished h => exact .finished h
  | waiting h => exact .waiting h

namespace Task

/-- Poll by poll two tasks show the same, whatever states they are polled in. -/
inductive Alike (related : α → α → Prop) : Task ε σ α → Task ε σ α → Prop
  | intro {task other : Task ε σ α}
      (polled : ∀ state state',
        Polled.Alike related (Alike related) (task.poll state) (other.poll state')) :
      Alike related task other

namespace Alike

variable {related : α → α → Prop} {task other : Task ε σ α}

theorem polled (alike : Alike related task other) (state state' : σ) :
    Polled.Alike related (Alike related) (task.poll state) (other.poll state') := by
  obtain ⟨polled⟩ := alike
  exact polled state state'

/-- To show something of tasks that are alike, show it of tasks from what one
poll leaves of them. -/
theorem induction {motive : Task ε σ α → Task ε σ α → Prop}
    (step : ∀ task other : Task ε σ α,
      (∀ state state', Polled.Alike related motive (task.poll state) (other.poll state')) →
        motive task other)
    (alike : Alike related task other) : motive task other :=
  @Alike.rec ε σ α related (fun task other _ => motive task other)
    (fun polled polled' _ => Polled.Alike related motive polled polled')
    (fun _ left => step _ _ left) (fun h => .finished h) (fun _ left => .waiting left)
    task other alike

theorem done {value value' : α} (h : related value value') :
    Alike related (.done value : Task ε σ α) (.done value') :=
  .intro fun _ _ => .finished h

theorem emit {event : ε} (h : Alike related task other) :
    Alike related (.emit event task) (.emit event other) := by
  constructor
  intro state state'
  exact (h.polled state state').prepend [event]

theorem wait (polls : Nat) (h : Alike related task other) :
    Alike related (.wait polls task) (.wait polls other) := by
  induction polls with
  | zero => exact .intro h.polled
  | succ polls ih => exact .intro fun _ _ => .waiting ih

/-- Sequences are alike if their parts are. -/
theorem bind {next next' : α → Task ε σ β} {relatedNext : β → β → Prop}
    (first : Alike related task other)
    (second : ∀ value value', related value value' →
      Alike relatedNext (next value) (next' value')) :
    Alike relatedNext (task.bind next) (other.bind next') := by
  refine Alike.induction
    (motive := fun task other => Alike relatedNext (task.bind next) (other.bind next')) ?_ first
  intro task other polled
  constructor
  intro state state'
  rw [poll_bind, poll_bind]
  have polled := polled state state'
  generalize task.poll state = left at polled ⊢
  generalize other.poll state' = right at polled ⊢
  cases polled with
  | waiting later => exact .waiting later
  | @finished value value' after after' events h =>
      exact ((second value value' h).polled after after').prepend events

theorem andThen {next next' : α → Task ε σ β} {relatedNext : β → β → Prop}
    (first : Alike Eq task other)
    (second : ∀ value, Alike relatedNext (next value) (next' value)) :
    Alike relatedNext (task.bind next) (other.bind next') := by
  refine first.bind fun value value' same => ?_
  subst same
  exact second value

end Alike

theorem alike_ofState {step : StateM σ α}
    (steady : ∀ state state', (step.run state).1 = (step.run state').1) :
    Alike Eq (ofState step : Task ε σ α) (ofState step) :=
  .intro fun state state' => .finished (steady state state')

theorem poll_ofSilent (task : Task Empty σ α) (state : σ) :
    (task.ofSilent : Task ε σ α).poll state =
      ⟨match (task.poll state).progress with
        | .finished value => .finished value
        | .waiting rest => .waiting rest.ofSilent, (task.poll state).state, []⟩ := by
  induction task generalizing state with
  | done value => rfl
  | wait polls rest ih =>
      cases polls with
      | zero => exact ih state
      | succ polls => rfl
  | emit event rest ih => exact event.elim
  | read rest ih => exact ih state state
  | write next rest ih => exact ih next

theorem Alike.ofSilent {task other : Task Empty σ α} (alike : Alike Eq task other) :
    Alike Eq (task.ofSilent : Task ε σ α) other.ofSilent := by
  refine Alike.induction
    (motive := fun task other => Alike Eq (task.ofSilent : Task ε σ α) other.ofSilent) ?_ alike
  intro task other polled
  constructor
  intro state state'
  rw [poll_ofSilent, poll_ofSilent]
  have polled := polled state state'
  generalize task.poll state = left at polled ⊢
  generalize other.poll state' = right at polled ⊢
  cases polled with
  | finished h => exact .finished h
  | waiting later => exact .waiting later

end Task

/-- The function shares no state with others: what it gives depends only on the
payload and the context that it is given. -/
def Body.Isolated : Body σ α → Prop
  | .plain run => ∀ payload state state',
    ((run payload).run state).1 = ((run payload).run state').1
  | .contextual run => ∀ payload context state state',
    ((run payload context).run state).1 = ((run payload context).run state').1
  | .deferred run => ∀ payload, Task.Alike Eq (run payload) (run payload)
  | .deferredContextual run => ∀ payload context,
    Task.Alike Eq (run payload context) (run payload context)

theorem Frame.alike_demand (frame : Frame) :
    Task.Alike Eq (frame.demand : Task Event σ _) frame.demand := by
  rw [Frame.demand]
  cases frame.context with
  | some context => exact .done rfl
  | none => exact .emit (.done rfl)

namespace Callback

def Isolated (callback : Callback σ α) : Prop := callback.body.Isolated

theorem Isolated.map {callback : Callback σ α} (isolated : callback.Isolated) (f : α → β) :
    (callback.map f).Isolated := by
  obtain ⟨id, body⟩ := callback
  cases body with
  | plain run =>
      intro payload state state'
      exact congrArg f (isolated payload state state')
  | contextual run =>
      intro payload context state state'
      exact congrArg (fun out => (f out.1, out.2)) (isolated payload context state state')
  | deferred run =>
      intro payload
      exact (isolated payload).andThen fun _ => .done rfl
  | deferredContextual run =>
      intro payload context
      exact (isolated payload context).andThen fun _ => .done rfl

theorem alike_call {callback : Callback σ α} (isolated : callback.Isolated)
    (payload : Option Json) (frame : Frame) :
    Task.Alike Eq (callback.call payload frame) (callback.call payload frame) := by
  obtain ⟨id, body⟩ := callback
  cases body with
  | plain run =>
      exact .emit ((Task.alike_ofState (isolated payload)).andThen fun _ => .done rfl)
  | contextual run =>
      exact frame.alike_demand.andThen fun held =>
        .emit ((Task.alike_ofState (isolated payload held.1)).andThen fun _ => .done rfl)
  | deferred run => exact .emit ((isolated payload).ofSilent.andThen fun _ => .done rfl)
  | deferredContextual run =>
      exact frame.alike_demand.andThen fun held =>
        .emit ((isolated payload held.1).ofSilent.andThen fun _ => .done rfl)

end Callback

namespace Op

def Isolated (op : Op σ) : Prop := op.callback.Isolated

theorem alike_settle (op : Op σ) (value : Json) (frame : Frame) :
    Task.Alike Eq (op.settle value frame) (op.settle value frame) := by
  rw [settle]
  cases op.target with
  | none => exact .done rfl
  | some location => exact frame.alike_demand.andThen fun _ => .done rfl

theorem alike_run {op : Op σ} (isolated : op.Isolated) (frame : Frame) :
    Task.Alike Eq (op.run frame) (op.run frame) := by
  refine (Callback.alike_call isolated none frame).andThen fun out => ?_
  obtain ⟨fault | value, after⟩ := out
  · exact .emit (.done rfl)
  · exact (op.alike_settle value after).andThen fun _ => .done rfl

end Op

/-- What is done after a verdict: go on, or end with it. -/
theorem Verdict.alike_bind {task : Task Event σ (Verdict × Frame)}
    {next : Verdict × Frame → Task Event σ (Verdict × Frame)} (first : Task.Alike Eq task task)
    (proceed : ∀ frame, Task.Alike Eq (next (.proceed, frame)) (next (.proceed, frame)))
    (raise : ∀ fault frame, next (.raise fault, frame) = .done (.raise fault, frame))
    (misplaced : ∀ frame, next (.misplaced, frame) = .done (.misplaced, frame)) :
    Task.Alike Eq (task.bind next) (task.bind next) := by
  refine first.andThen fun out => ?_
  obtain ⟨verdict, frame⟩ := out
  cases verdict with
  | proceed => exact proceed frame
  | raise fault =>
      rw [raise]
      exact .done rfl
  | misplaced =>
      rw [misplaced]
      exact .done rfl

namespace Op

theorem alike_runAll {ops : List (Op σ)} (isolated : ∀ op ∈ ops, op.Isolated) (frame : Frame) :
    Task.Alike Eq (runAll ops frame) (runAll ops frame) := by
  induction ops generalizing frame with
  | nil => exact .done rfl
  | cons op ops ih =>
      obtain ⟨here, later⟩ := List.forall_mem_cons.1 isolated
      exact Verdict.alike_bind (alike_run here frame) (ih later) (fun _ _ => rfl) fun _ => rfl

theorem alike_runAllNow {ops : List (Op σ)} (isolated : ∀ op ∈ ops, op.Isolated)
    (frame : Frame) : Task.Alike Eq (runAllNow ops frame) (runAllNow ops frame) := by
  induction ops generalizing frame with
  | nil => exact .done rfl
  | cons op ops ih =>
      obtain ⟨here, later⟩ := List.forall_mem_cons.1 isolated
      rw [runAllNow]
      split
      · exact .done rfl
      · exact Verdict.alike_bind (alike_run here frame) (ih later) (fun _ _ => rfl) fun _ => rfl

end Op

namespace Stage

def Isolated (stage : Stage σ) : Prop := ∀ op ∈ stage.ops, op.Isolated

theorem alike_runAll {stages : List (Stage σ)} (isolated : ∀ stage ∈ stages, stage.Isolated)
    (frame : Frame) : Task.Alike Eq (runAll stages frame) (runAll stages frame) := by
  induction stages generalizing frame with
  | nil => exact .done rfl
  | cons stage stages ih =>
      obtain ⟨here, later⟩ := List.forall_mem_cons.1 isolated
      have first : Task.Alike Eq (stage.run frame) (stage.run frame) := by
        cases stage with
        | allocate => exact .emit (.done rfl)
        | group fragment => exact Op.alike_runAll here frame
      exact Verdict.alike_bind first (ih later) (fun _ _ => rfl) fun _ => rfl

theorem alike_runAllNow {stages : List (Stage σ)} (isolated : ∀ stage ∈ stages, stage.Isolated)
    (frame : Frame) : Task.Alike Eq (runAllNow stages frame) (runAllNow stages frame) := by
  induction stages generalizing frame with
  | nil => exact .done rfl
  | cons stage stages ih =>
      obtain ⟨here, later⟩ := List.forall_mem_cons.1 isolated
      have first : Task.Alike Eq (stage.runNow frame) (stage.runNow frame) := by
        cases stage with
        | allocate => exact .emit (.done rfl)
        | group fragment => exact Op.alike_runAllNow here frame
      exact Verdict.alike_bind first (ih later) (fun _ _ => rfl) fun _ => rfl

end Stage

inductive Reply.Alike : Reply σ → Reply σ → Prop
  | ready (response : Response) : Reply.Alike (.ready response) (.ready response)
  | pending {task other : Task Event σ Response} (h : Task.Alike Eq task other) :
      Reply.Alike (.pending task) (.pending other)
  | aborted : Reply.Alike .aborted .aborted

namespace Endpoint

def Isolated : Endpoint σ → Prop
  | .function callback => callback.Isolated
  | .formatted callback _ _ => callback.Isolated
  | .fixed _ => True

variable {endpoint : Endpoint σ}

theorem alike_respond (isolated : endpoint.Isolated) (payload : Option Json) (frame : Frame) :
    Task.Alike Eq (endpoint.respond payload frame) (endpoint.respond payload frame) := by
  cases endpoint with
  | function callback =>
      exact (Callback.alike_call isolated payload frame).andThen fun _ => .done rfl
  | formatted callback encoder unhandled =>
      refine (Callback.alike_call isolated payload frame).andThen fun out => ?_
      obtain ⟨reason | value, after⟩ := out
      · exact .emit (.done rfl)
      · exact .done rfl
  | fixed response => exact .done rfl

theorem alike_call (isolated : endpoint.Isolated) (payload : Option Json) (frame : Frame) :
    Task.Alike Reply.Alike (endpoint.call payload frame) (endpoint.call payload frame) := by
  rw [call]
  split
  · exact .done (.pending (alike_respond isolated payload frame))
  · exact (alike_respond isolated payload frame).andThen fun response => .done (.ready response)

end Endpoint

namespace FaultSwitch

def Isolated (switch : FaultSwitch σ) : Prop :=
  ∀ id, ∀ branch ∈ switch.cases.find? id, branch.endpoint.Isolated

variable {switch : FaultSwitch σ}

theorem alike_dispatch (isolated : switch.Isolated) (fault : Fault) (frame : Frame) :
    Task.Alike Reply.Alike (switch.dispatch fault frame) (switch.dispatch fault frame) := by
  rw [dispatch, select]
  cases found : switch.cases.find? fault.id with
  | none => exact .emit (.emit (.done (.ready _)))
  | some branch => exact .emit (Endpoint.alike_call (isolated fault.id branch found) _ _)

theorem alike_dispatchInScope (isolated : switch.Isolated) (fault : Fault) (frame : Frame) :
    Task.Alike Eq (switch.dispatchInScope fault frame) (switch.dispatchInScope fault frame) := by
  rw [dispatchInScope, select]
  cases found : switch.cases.find? fault.id with
  | none => exact .emit (.emit (.done rfl))
  | some branch => exact .emit (Endpoint.alike_respond (isolated fault.id branch found) _ _)

end FaultSwitch

namespace Chain

structure Isolated (chain : Chain σ) : Prop where
  stages : ∀ stage ∈ chain.stages, stage.Isolated
  endpoint : chain.endpoint.Isolated
  switch : chain.switch.Isolated

variable {chain : Chain σ}

theorem alike_runScope (isolated : chain.Isolated) {stages : List (Stage σ)}
    (scope : chain.scope = some stages) (frame : Frame) :
    Task.Alike Eq (chain.runScope stages frame) (chain.runScope stages frame) := by
  have within : ∀ stage ∈ stages, stage.Isolated := by
    intro stage mem
    apply isolated.stages
    simp [Chain.stages, scope, mem]
  refine (Stage.alike_runAll within frame).andThen fun out => ?_
  obtain ⟨verdict, after⟩ := out
  cases verdict with
  | proceed => exact Endpoint.alike_respond isolated.endpoint none after
  | raise fault => exact FaultSwitch.alike_dispatchInScope isolated.switch fault after
  | misplaced => exact .done rfl

/-- Invoking a chain whose functions share no state gives the same in any state. -/
theorem alike_invoke (isolated : chain.Isolated) (params : Option Params) :
    Task.Alike Reply.Alike (chain.invoke params) (chain.invoke params) := by
  have within : ∀ stage ∈ chain.eager, stage.Isolated := by
    intro stage mem
    apply isolated.stages
    simp [Chain.stages, mem]
  refine (Stage.alike_runAllNow within _).andThen fun out => ?_
  obtain ⟨verdict, after⟩ := out
  cases verdict with
  | raise fault => exact FaultSwitch.alike_dispatch isolated.switch fault after
  | misplaced => exact .done .aborted
  | proceed =>
      dsimp only
      split
      · exact Endpoint.alike_call isolated.endpoint none after
      · rename_i stages scope
        exact .done (.pending (alike_runScope isolated scope after))

end Chain

def Dispatcher.Isolated (dispatcher : Dispatcher σ) : Prop :=
  ∀ method path, ∀ found ∈ dispatcher.router.lookup method path, found.1.Isolated

theorem Dispatcher.alike_handle {dispatcher : Dispatcher σ} (isolated : dispatcher.Isolated)
    (method : Method) (path : String) :
    Task.Alike Reply.Alike (dispatcher.handle method path) (dispatcher.handle method path) := by
  rw [handle]
  cases found : dispatcher.router.lookup method path with
  | none => exact .emit (.emit (.done (.ready _)))
  | some entry =>
      exact .emit (.emit (Chain.alike_invoke (isolated method path entry found) entry.2))

end RouteTree
