import RouteTree.Build.Chain
import RouteTree.Session.Flight

/-!
# Sessions with a compiler

A session compiles routes one by one under names and runs the compiled chains.
A route that fails to compile leaves a former chain of its name in place.
-/

namespace RouteTree

open Http

variable {σ : Type}

/-- One step of a session. -/
inductive CompilerStep (σ : Type) : Type where
  | compile (name : String) (plan : RoutePlan σ) (parameterized : Bool)
  /-- Run a chain and see the request through. -/
  | invoke (chain : String) (params : Option Params)
  /-- Run a chain and leave the request in flight. -/
  | start (flight : String) (chain : String) (params : Option Params)
  | poll (flight : String)
  | drop (flight : String)

/-- What a step gave. -/
inductive CompilerAnswer (σ : Type) : Type where
  | compiled (chain : Chain σ)
  | rejected (error : Defect)
  | unknownChain
  | responded (reply : Reply σ) (response : Response) (polls : Nat)
  | started (reply : Reply σ)
  | polled (answer : FlightAnswer)
  | dropped (wasInFlight : Bool)
  | aborted

structure CompilerSession (σ : Type) where
  compiler : Compiler σ
  chains : List (String × Chain σ) := []
  flights : Flights σ := {}
  state : σ

/-- The outcome of a step. -/
structure CompilerOutcome (σ : Type) where
  answer : CompilerAnswer σ
  session : CompilerSession σ
  events : List Event := []

namespace CompilerSession

/-- The chain compiled last under this name. -/
def chain? (session : CompilerSession σ) (name : String) : Option (Chain σ) :=
  (session.chains.find? fun entry => entry.1 = name).map Prod.snd

/-- Compile a route, with a fresh journal. -/
def compile (session : CompilerSession σ) (name : String) (plan : RoutePlan σ)
    (parameterized : Bool) : CompilerOutcome σ :=
  let compiler := { session.compiler with tables := session.compiler.tables.forget }
  let (result, compiler) := compiler.compile plan parameterized
  let events := compiler.tables.events
  match result with
  | .ok chain =>
    ⟨.compiled chain, { session with compiler, chains := (name, chain) :: session.chains }, events⟩
  | .error error => ⟨.rejected error, { session with compiler }, events⟩

/-- Run one step. -/
def step (session : CompilerSession σ) : CompilerStep σ → CompilerOutcome σ
  | .compile name plan parameterized => session.compile name plan parameterized
  | .invoke chain params =>
    match session.chain? chain with
    | none => ⟨.unknownChain, session, []⟩
    | some chain =>
      let (reply, state, events) := Reply.start (chain.invoke params) session.state
      match reply.complete state with
      | some done =>
        ⟨.responded reply done.value done.polls, { session with state := done.state },
          events ++ done.events⟩
      | none => ⟨.aborted, { session with state }, events⟩
  | .start flight chain params =>
    match session.chain? chain with
    | none => ⟨.unknownChain, session, []⟩
    | some chain =>
      let (reply, state, events) := Reply.start (chain.invoke params) session.state
      ⟨.started reply, { session with state, flights := session.flights.insert flight reply },
        events⟩
  | .poll flight =>
    let (answer, flights, state, events) := session.flights.poll flight session.state
    ⟨.polled answer, { session with state, flights }, events⟩
  | .drop flight =>
    ⟨.dropped (session.flights.find? flight).isSome,
      { session with flights := session.flights.erase flight }, []⟩

end CompilerSession

end RouteTree
