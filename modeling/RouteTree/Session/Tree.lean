import RouteTree.Session.Flight
import RouteTree.Tree

/-!
# Sessions with a route tree

A session registers, compiles, inspects and requests in any order, all with one
tree. New requests go to the dispatcher of the last successful compilation only:
dispatchers of earlier compilations get no more of them, and what is done with
another tree is another session. Requests in flight keep the chain they were
started on.
-/

namespace RouteTree

open Http

variable {σ : Type}

/-- One step of a session. -/
inductive TreeStep (σ : Type) : Type where
  /-- Use a handler as a group of its own. -/
  | useHandler (handler : SoundHandler σ)
  | useGroup (group : Group σ)
  | route (method : Method) (path : String) (terminal : Terminal σ)
  | answer (kind : FaultKind) (terminal : Terminal σ)
  | compile
  | inspect (method : Method) (path : String)
  /-- Send a request and see it through. -/
  | request (method : Method) (path : String)
  /-- Send a request and leave it in flight. -/
  | start (flight : String) (method : Method) (path : String)
  | poll (flight : String)
  | drop (flight : String)

/-- What a step gave. -/
inductive TreeAnswer (σ : Type) : Type where
  | registered
  | compiled (dispatcher : Dispatcher σ)
  | rejected (error : Defect)
  | notCompiled
  /-- The chain of a route, and the number of its compilation. -/
  | inspected (compilation : Nat) (chain : Chain σ)
  | unmatched
  /-- The reply at first, then the response and the polls it took. -/
  | responded (reply : Reply σ) (response : Response) (polls : Nat)
  | started (reply : Reply σ)
  | polled (answer : FlightAnswer)
  | dropped (wasInFlight : Bool)
  | aborted

structure TreeSession (σ : Type) where
  tree : Tree σ
  dispatcher : Option (Dispatcher σ) := none
  /-- The number of the compilation that gave the dispatcher. -/
  dispatcherNumber : Nat := 0
  /-- How often the tree has been compiled. -/
  compilations : Nat := 0
  /-- The number for the next group. -/
  nextGroup : Nat
  flights : Flights σ := {}
  state : σ

/-- The outcome of a step. -/
structure TreeOutcome (σ : Type) where
  answer : TreeAnswer σ
  session : TreeSession σ
  events : List Event := []

namespace TreeSession

/-- Go on with this tree. -/
def register (session : TreeSession σ) (tree : Tree σ) : TreeOutcome σ :=
  ⟨.registered, { session with tree }, []⟩

/-- Compile the tree; a defect keeps the former dispatcher. -/
def compile (session : TreeSession σ) : TreeOutcome σ :=
  let compilation := session.tree.compile
  let session := { session with compilations := session.compilations + 1 }
  let events := compilation.compiler.tables.events
  match compilation.result with
  | .ok dispatcher =>
    ⟨.compiled dispatcher,
      { session with
        dispatcher := some dispatcher
        dispatcherNumber := session.compilations }, events⟩
  | .error error => ⟨.rejected error, session, events⟩

/-- Send a request and see it through. -/
def request (session : TreeSession σ) (dispatcher : Dispatcher σ) (method : Method)
    (path : String) : TreeOutcome σ :=
  let (reply, state, events) := Reply.start (dispatcher.handle method path) session.state
  match reply.complete state with
  | some done =>
    ⟨.responded reply done.value done.polls, { session with state := done.state },
      events ++ done.events⟩
  | none => ⟨.aborted, { session with state }, events⟩

/-- Run one step. -/
def step (session : TreeSession σ) : TreeStep σ → TreeOutcome σ
  | .useHandler handler =>
    { session with nextGroup := session.nextGroup + 1 }.register
      (session.tree.use (.ofHandlers session.nextGroup [handler]))
  | .useGroup group => session.register (session.tree.use group)
  | .route method path terminal => session.register (session.tree.route method path terminal)
  | .answer kind terminal => session.register (session.tree.answer kind terminal)
  | .compile => session.compile
  | .inspect method path =>
    match session.dispatcher with
    | none => ⟨.notCompiled, session, []⟩
    | some dispatcher =>
      match dispatcher.chain? method path with
      | some chain => ⟨.inspected session.dispatcherNumber chain, session, []⟩
      | none => ⟨.unmatched, session, []⟩
  | .request method path =>
    match session.dispatcher with
    | none => ⟨.notCompiled, session, []⟩
    | some dispatcher => session.request dispatcher method path
  | .start flight method path =>
    match session.dispatcher with
    | none => ⟨.notCompiled, session, []⟩
    | some dispatcher =>
      let (reply, state, events) := Reply.start (dispatcher.handle method path) session.state
      ⟨.started reply, { session with state, flights := session.flights.insert flight reply },
        events⟩
  | .poll flight =>
    let (answer, flights, state, events) := session.flights.poll flight session.state
    ⟨.polled answer, { session with state, flights }, events⟩
  | .drop flight =>
    ⟨.dropped (session.flights.find? flight).isSome,
      { session with flights := session.flights.erase flight }, []⟩

end TreeSession

end RouteTree
