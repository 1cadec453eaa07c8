import RouteTree.Context

/-!
# Frames

A frame is what one request carries through its route. The context is
allocated only on the routes that use it; until then the frame holds the
captures for it.
-/

namespace RouteTree

structure Frame where
  params : Option Params
  context : Option Context

namespace Frame

/-- The frame at the start of a request. -/
def new (params : Option Params) : Frame := ⟨params, none⟩

/-- Make sure that the frame has a context. The captures then belong to it. -/
def allocate (frame : Frame) : Frame :=
  match frame.context with
  | some _ => frame
  | none => { params := none, context := some (.new frame.params) }

/-- Give the frame this context. -/
def withContext (frame : Frame) (context : Context) : Frame :=
  { frame with context := some context }

/-- Put a fresh context without captures in place of the former one. -/
def detach (frame : Frame) : Frame := { frame with context := some (.new none) }

/-- Status and header fields for the response. -/
def head (frame : Frame) : Http.Head :=
  match frame.context with
  | some context => context.head
  | none => .plain

@[simp] theorem new_context (params : Option Params) : (new params).context = none := rfl

@[simp] theorem withContext_context (frame : Frame) (context : Context) :
    (frame.withContext context).context = some context := rfl

@[simp] theorem detach_context (frame : Frame) :
    frame.detach.context = some (.new none) := rfl

end Frame

end RouteTree
