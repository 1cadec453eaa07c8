import Mathlib.Algebra.Ring.Nat
import RouteTree.Build.Chain
import RouteTree.Proofs.Polling

/-!
# Plain interpretation of a route

What a route means, said without compiling it. The context is there from the
start. The handlers of the groups run one after the other, those of a nested
group in its place, and each call is waited for before the next one begins. The
first fault ends the groups, and the table of the route answers it; otherwise
the terminal answers.

Nothing here knows of fragments, stages, scopes or polls.
-/

namespace RouteTree

open Http

variable {σ α β : Type}

/-- One call of a user function, and how often the function answered "not yet"
before it was done. A function that may not stop never does. -/
structure Execution where
  call : Call
  stops : Nat

/-- What an interpretation carries: the context of the request, the state that
the user functions share, and the calls so far, in order. -/
structure Walk (σ : Type) where
  context : Context
  state : σ
  executions : List Execution := []

namespace Walk

def start (params : Option Params) (state : σ) : Walk σ := { context := .new params, state }

def calls (walk : Walk σ) : List Call := walk.executions.map Execution.call

def stops (walk : Walk σ) : Nat := (walk.executions.map Execution.stops).sum

def enter (walk : Walk σ) (call : Call) (stops : Nat) : Walk σ :=
  { walk with executions := walk.executions ++ [⟨call, stops⟩] }

/-- Drop a value, or store it in the context if a place is given. -/
def store (walk : Walk σ) (target : Option Location) (value : Json) : Walk σ :=
  match target with
  | none => walk
  | some location => { walk with context := walk.context.store location value }

/-- Go on to a terminal that answers a fault: one that uses the context gets a
fresh one without captures. -/
def turnTo (walk : Walk σ) (terminal : Terminal σ) : Walk σ :=
  { walk with context := if terminal.needsContext then .new none else walk.context }

theorem stops_store (walk : Walk σ) (target : Option Location) (value : Json) :
    (walk.store target value).stops = walk.stops := by
  cases target <;> rfl

end Walk

/-- Call a user function and wait until it is done. -/
def Callback.perform (callback : Callback σ α) (payload : Option Json) (walk : Walk σ) :
    α × Walk σ :=
  match callback.body with
  | .plain run =>
    let (value, state) := (run payload).run walk.state
    (value, { walk.enter ⟨callback.id, payload, none⟩ 0 with state })
  | .contextual run =>
    let ((value, context), state) := (run payload walk.context).run walk.state
    (value, { walk.enter ⟨callback.id, payload, some walk.context⟩ 0 with context, state })
  | .deferred run =>
    let done := (run payload).complete walk.state
    (done.value, { walk.enter ⟨callback.id, payload, none⟩ ((run payload).stops walk.state) with
      state := done.state })
  | .deferredContextual run =>
    let task := run payload walk.context
    let done := task.complete walk.state
    (done.value.1,
      { walk.enter ⟨callback.id, payload, some walk.context⟩ (task.stops walk.state) with
        context := done.value.2
        state := done.state })

namespace Handler

mutual

/-- Run a handler to its end, with the fault that it failed with if it did. -/
def interpret : Handler σ → Walk σ → Option Fault × Walk σ
  | .nested _ _ handlers, walk => interpretAll handlers walk
  | .checked callback target, walk =>
    match callback.perform none walk with
    | (.ok value, walk) => (none, walk.store target value)
    | (.error fault, walk) => (some fault, walk)
  | .unchecked callback target, walk =>
    let (value, walk) := callback.perform none walk
    (none, walk.store target value)

def interpretAll : List (Handler σ) → Walk σ → Option Fault × Walk σ
  | [], walk => (none, walk)
  | handler :: rest, walk =>
    match handler.interpret walk with
    | (none, walk) => interpretAll rest walk
    | (some fault, walk) => (some fault, walk)

end

end Handler

def Group.interpretAll : List (Group σ) → Walk σ → Option Fault × Walk σ
  | [], walk => (none, walk)
  | group :: rest, walk =>
    match Handler.interpretAll group.handlers walk with
    | (none, walk) => interpretAll rest walk
    | (some fault, walk) => (some fault, walk)

/-- Answer with a terminal. The head is that of the context once the function
is done, and `unhandled` answers when its result is no value. -/
def Terminal.interpret (terminal : Terminal σ) (unhandled : Response) (payload : Option Json)
    (walk : Walk σ) : Response × Walk σ :=
  match terminal with
  | .function callback =>
    let (body, walk) := callback.perform payload walk
    (walk.context.head.respond body, walk)
  | .formatted callback encoder =>
    match callback.perform payload walk with
    | (.ok value, walk) =>
      let head := walk.context.head
      (head.respondJson (encoder.encode head.status value), walk)
    | (.error _, walk) => (unhandled, walk)
  | .fixed page => (page.response, walk)

namespace FaultTable

/-- The kind with this number and the terminal that the table binds to it. -/
def entry? (table : FaultTable σ) (id : Nat) : Option (FaultKind × Terminal σ) :=
  table.entries.find? fun entry => entry.1.id = id

/-- Answer a fault by the terminal of its kind, which is given the payload if
the kind has one and a fresh context if it uses one. -/
def interpret (table : FaultTable σ) (unhandled : Response) (fault : Fault) (walk : Walk σ) :
    Response × Walk σ :=
  match table.entry? fault.id with
  | none => (unhandled, walk)
  | some (kind, terminal) =>
    let payload := if kind.dynamic then some fault.payloadOrNull else none
    terminal.interpret unhandled payload (walk.turnTo terminal)

end FaultTable

namespace RoutePlan

/-- Answer once the groups are through: the fault, or else the request. -/
def conclude (plan : RoutePlan σ) (unhandled : Response) :
    Option Fault × Walk σ → Response × Walk σ
  | (none, walk) => plan.terminal.interpret unhandled none walk
  | (some fault, walk) => plan.faults.interpret unhandled fault walk

/-- Serve one request by the plan. -/
def interpret (plan : RoutePlan σ) (unhandled : Response) (params : Option Params) (state : σ) :
    Response × Walk σ :=
  plan.conclude unhandled (Group.interpretAll plan.groups (.start params state))

end RoutePlan

/-! ## Compiled calls -/

namespace Op

/-- Call the function of a compiled call and settle its value, or give its fault. -/
def interpret (op : Op σ) (walk : Walk σ) : Option Fault × Walk σ :=
  match op.callback.perform none walk with
  | (.ok value, walk) => (none, walk.store op.target value)
  | (.error fault, walk) => (some fault, walk)

def interpretAll : List (Op σ) → Walk σ → Option Fault × Walk σ
  | [], walk => (none, walk)
  | op :: ops, walk =>
    match op.interpret walk with
    | (none, walk) => interpretAll ops walk
    | (some fault, walk) => (some fault, walk)

theorem interpretAll_append (first second : List (Op σ)) (walk : Walk σ) :
    interpretAll (first ++ second) walk =
      match interpretAll first walk with
      | (none, walk) => interpretAll second walk
      | (some fault, walk) => (some fault, walk) := by
  induction first generalizing walk with
  | nil => rfl
  | cons op ops ih =>
      simp only [List.cons_append, interpretAll]
      rcases op.interpret walk with ⟨_ | fault, after⟩
      · exact ih after
      · rfl

end Op

/-- Adapting the result of a function adapts what a call gives, and nothing else. -/
theorem Callback.perform_map (f : α → β) (callback : Callback σ α) (payload : Option Json)
    (walk : Walk σ) :
    (callback.map f).perform payload walk =
      (f (callback.perform payload walk).1, (callback.perform payload walk).2) := by
  obtain ⟨id, body⟩ := callback
  cases body with
  | plain run => rfl
  | contextual run => rfl
  | deferred run =>
      simp [perform, map, Body.map, Task.complete_bind, Task.stops_bind]
  | deferredContextual run =>
      simp [perform, map, Body.map, Task.complete_bind, Task.stops_bind]

/-- A call adds itself to the walk, and a function that may not stop does not
stop. -/
theorem Callback.perform_executions (callback : Callback σ α) (payload : Option Json)
    (walk : Walk σ) :
    ∃ execution, (callback.perform payload walk).2.executions = walk.executions ++ [execution] ∧
      (callback.suspends = false → execution.stops = 0) := by
  obtain ⟨id, body⟩ := callback
  cases body with
  | plain run => exact ⟨_, rfl, fun _ => rfl⟩
  | contextual run => exact ⟨_, rfl, fun _ => rfl⟩
  | deferred run => exact ⟨_, rfl, fun h => by simp [suspends, Body.suspends] at h⟩
  | deferredContextual run => exact ⟨_, rfl, fun h => by simp [suspends, Body.suspends] at h⟩

theorem Callback.stops_perform {callback : Callback σ α} (prompt : callback.suspends = false)
    (payload : Option Json) (walk : Walk σ) :
    (callback.perform payload walk).2.stops = walk.stops := by
  obtain ⟨execution, grown, still⟩ := callback.perform_executions payload walk
  simp [Walk.stops, grown, still prompt]

end RouteTree
