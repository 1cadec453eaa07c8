import RouteTree.Program.Endpoint

/-!
# Requests in flight

A started request that has not been answered is in flight under a name. Each
poll runs it up to its next stop; once it is answered, or dropped, the name is
free again.
-/

namespace RouteTree

open Http

variable {σ : Type}

/-- Replies by name; each name has at most one. -/
structure Flights (σ : Type) where
  replies : List (String × Reply σ) := []

/-- What polling a request in flight gave. -/
inductive FlightAnswer where
  | unknown
  | waiting
  | answered (response : Response)
  | aborted

namespace Flights

def find? (flights : Flights σ) (name : String) : Option (Reply σ) :=
  (flights.replies.find? fun entry => entry.1 = name).map Prod.snd

/-- Forget the request of this name. -/
def erase (flights : Flights σ) (name : String) : Flights σ :=
  ⟨flights.replies.filter fun entry => entry.1 ≠ name⟩

/-- Put a request in flight; a former one of that name is dropped. -/
def insert (flights : Flights σ) (name : String) (reply : Reply σ) : Flights σ :=
  ⟨(name, reply) :: (flights.erase name).replies⟩

/-- Poll the request of this name once. -/
def poll (flights : Flights σ) (name : String) (state : σ) :
    FlightAnswer × Flights σ × σ × List Event :=
  match flights.find? name with
  | none => (.unknown, flights, state, [])
  | some (.ready response) => (.answered response, flights.erase name, state, [])
  | some .aborted => (.aborted, flights.erase name, state, [])
  | some (.pending task) =>
    let polled := task.poll state
    match polled.progress with
    | .finished response =>
      (.answered response, flights.erase name, polled.state, polled.events)
    | .waiting rest =>
      (.waiting, flights.insert name (.pending rest), polled.state, polled.events)

end Flights

namespace Reply

/-- Poll a reply until it is answered; a ready one needs no poll. -/
def complete (reply : Reply σ) (state : σ) : Option (Completed Event σ Response) :=
  match reply with
  | .ready response => some ⟨response, state, [], 0⟩
  | .pending task => some (task.complete state)
  | .aborted => none

/-- The reply of a task that never stops, with the state and events it left. -/
def start (task : Task Event σ (Reply σ)) (state : σ) : Reply σ × σ × List Event :=
  let polled := task.poll state
  match polled.progress with
  | .finished reply => (reply, polled.state, polled.events)
  | .waiting _ => (.aborted, polled.state, polled.events)

end Reply

end RouteTree
