import RouteTree.Event
import RouteTree.Frame
import RouteTree.Task

/-!
# Callbacks

A callback is a user function with an identity. It works on a state `σ` shared
by all user functions, may read and change the request's context, and may stop
before it answers. Adapting the result of a callback keeps its identity, so all
uses of one function are recognised as the same.
-/

namespace RouteTree

namespace Frame

variable {σ : Type}

/-- The context of the frame, with the frame that holds it. A frame without a
context gets one on demand. -/
def demand (frame : Frame) : Task Event σ (Context × Frame) :=
  match frame.context with
  | some context => .done (context, frame)
  | none =>
    .emit (.allocated true) (.done (.new frame.params, frame.allocate))

theorem demand_of_some {frame : Frame} {context : Context} (h : frame.context = some context) :
    (frame.demand : Task Event σ _) = .done (context, frame) := by
  simp [demand, h]

end Frame

/-- How a user function is called. Each takes the payload of a fault when it
answers for one. -/
inductive Body (σ α : Type) : Type where
  | plain (run : Option Json → StateM σ α)
  | contextual (run : Option Json → Context → StateM σ (α × Context))
  | deferred (run : Option Json → Task Empty σ α)
  | deferredContextual (run : Option Json → Context → Task Empty σ (α × Context))

namespace Body

variable {σ α β : Type}

/-- Whether the function may stop before it answers. -/
def suspends : Body σ α → Bool
  | .plain _ | .contextual _ => false
  | .deferred _ | .deferredContextual _ => true

/-- Whether the function is given the context. -/
def needsContext : Body σ α → Bool
  | .plain _ | .deferred _ => false
  | .contextual _ | .deferredContextual _ => true

/-- Adapt the result. -/
def map (f : α → β) : Body σ α → Body σ β
  | .plain run => .plain fun payload => f <$> run payload
  | .contextual run => .contextual fun payload context =>
    (fun out => (f out.1, out.2)) <$> run payload context
  | .deferred run => .deferred fun payload => (run payload).bind fun out => .done (f out)
  | .deferredContextual run => .deferredContextual fun payload context =>
    (run payload context).bind fun out => .done (f out.1, out.2)

@[simp] theorem suspends_map (f : α → β) (body : Body σ α) :
    (body.map f).suspends = body.suspends := by
  cases body <;> rfl

@[simp] theorem needsContext_map (f : α → β) (body : Body σ α) :
    (body.map f).needsContext = body.needsContext := by
  cases body <;> rfl

end Body

/-- A user function with its identity. -/
structure Callback (σ α : Type) where
  id : Nat
  body : Body σ α

namespace Callback

variable {σ α β : Type}

def suspends (callback : Callback σ α) : Bool := callback.body.suspends

def needsContext (callback : Callback σ α) : Bool := callback.body.needsContext

/-- Adapt the result; the identity stays. -/
def map (f : α → β) (callback : Callback σ α) : Callback σ β :=
  ⟨callback.id, callback.body.map f⟩

@[simp] theorem id_map (f : α → β) (callback : Callback σ α) :
    (callback.map f).id = callback.id := rfl

@[simp] theorem suspends_map (f : α → β) (callback : Callback σ α) :
    (callback.map f).suspends = callback.suspends := by
  simp [suspends, map]

@[simp] theorem needsContext_map (f : α → β) (callback : Callback σ α) :
    (callback.map f).needsContext = callback.needsContext := by
  simp [needsContext, map]

/-- Call the function on a frame. The context goes to the function and comes
back in the frame; the call is visible as an event. -/
def call (callback : Callback σ α) (payload : Option Json) (frame : Frame) :
    Task Event σ (α × Frame) :=
  match callback.body with
  | .plain run =>
    .emit (.call ⟨callback.id, payload, none⟩)
      ((Task.ofState (run payload)).bind fun out => .done (out, frame))
  | .contextual run =>
    frame.demand.bind fun held =>
      .emit (.call ⟨callback.id, payload, some held.1⟩)
        ((Task.ofState (run payload held.1)).bind fun out =>
          .done (out.1, held.2.withContext out.2))
  | .deferred run =>
    .emit (.call ⟨callback.id, payload, none⟩)
      ((run payload).ofSilent.bind fun out => .done (out, frame))
  | .deferredContextual run =>
    frame.demand.bind fun held =>
      .emit (.call ⟨callback.id, payload, some held.1⟩)
        ((run payload held.1).ofSilent.bind fun out =>
          .done (out.1, held.2.withContext out.2))

end Callback

end RouteTree
