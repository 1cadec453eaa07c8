import RouteTree.Terminal

/-!
# Endpoints

An endpoint is a compiled terminal. It answers with the head that the context
has once its function is done, and it is either ready at once or pending.
-/

namespace RouteTree

open Http

/-- The outcome of running a route for one request. -/
inductive Reply (σ : Type) : Type where
  | ready (response : Response)
  | pending (task : Task Event σ Response)
  /-- The route was put together wrongly and could not be run. -/
  | aborted

namespace Reply

variable {σ : Type}

/-- The response of a reply that is ready. -/
def ready? : Reply σ → Option Response
  | .ready response => some response
  | _ => none

/-- A one-word summary, with the status of a ready response. -/
def summary : Reply σ → String
  | .ready response => "Ready(" ++ Nat.repr response.status.code ++ ")"
  | .pending _ => "Pending"
  | .aborted => "Aborted"

end Reply

inductive Endpoint (σ : Type) : Type where
  | function (callback : Callback σ String)
  /-- The last response answers when the result turns out not to be a value. -/
  | formatted (callback : Callback σ (Except String Json)) (encoder : Encoder)
      (unhandled : Response)
  | fixed (response : Response)

namespace Endpoint

variable {σ : Type}

/-- Whether the endpoint may stop before it answers. -/
def suspends : Endpoint σ → Bool
  | .function callback => callback.suspends
  | .formatted callback _ _ => callback.suspends
  | .fixed _ => false

/-- Answer on a frame. -/
def respond (endpoint : Endpoint σ) (payload : Option Json) (frame : Frame) :
    Task Event σ Response :=
  match endpoint with
  | .function callback =>
    (callback.call payload frame).bind fun out => .done (out.2.head.respond out.1)
  | .formatted callback encoder unhandled =>
    (callback.call payload frame).bind fun out =>
      let head := out.2.head
      match out.1 with
      | .ok value => .done (head.respondJson (encoder.encode head.status value))
      | .error reason => .emit (.log (.outputUnencodable reason)) (.done unhandled)
  | .fixed response => .done response

/-- Answer outside a deferred scope: an endpoint that may stop is left pending
and has not started. -/
def call (endpoint : Endpoint σ) (payload : Option Json) (frame : Frame) :
    Task Event σ (Reply σ) :=
  if endpoint.suspends then .done (.pending (endpoint.respond payload frame))
  else (endpoint.respond payload frame).bind fun response => .done (.ready response)

end Endpoint

end RouteTree
