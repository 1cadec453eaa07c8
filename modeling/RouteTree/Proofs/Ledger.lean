import Mathlib.Algebra.Ring.Nat
import RouteTree.Proofs.Accounting
import RouteTree.Proofs.History

/-!
# The counters of a session

A ledger follows a session and keeps what happened to each request, wherever its
events fall between those of others, and the compiler that each compilation left.
At any time the counters come to what the ledger says: every request is counted
once, every fault that one of them has raised is counted once, and every group that
a compilation compiled or used again.
-/

namespace RouteTree

open Http

variable {σ : Type}

/-! ## Ledgers -/

/-- One request, as far as it has come. -/
structure Trace (σ : Type) where
  /-- Whether there was a route for it. -/
  matched : Bool
  /-- The kinds of fault that are bound in the table of its route. -/
  faults : List (FaultKind × Terminal σ)
  /-- The name under which it was started, as long as no other request has it. -/
  flight : Option String
  events : List Event

namespace Trace

def binds (trace : Trace σ) (id : Nat) : Bool := trace.faults.any fun entry => entry.1.id = id

def bears (trace : Trace σ) (flight : String) : Bool := trace.flight = some flight

def extend (flight : String) (events : List Event) (trace : Trace σ) : Trace σ :=
  if trace.bears flight then { trace with events := trace.events ++ events } else trace

/-- The request after another was started under the name. -/
def release (flight : String) (trace : Trace σ) : Trace σ :=
  if trace.bears flight then { trace with flight := none } else trace

end Trace

/-- What is known of a session besides what it holds. -/
structure Ledger (σ : Type) where
  /-- What each compilation left, with success or without. -/
  compilers : List (Compiler σ) := []
  /-- The kinds of fault that were bound when the dispatcher was compiled. -/
  faults : List (FaultKind × Terminal σ) := []
  /-- The requests that were given to a dispatcher, in order. -/
  requests : List (Trace σ) := []

namespace Ledger

/-- Note what a step of the session does. -/
def note (ledger : Ledger σ) (session : TreeSession σ) (step : TreeStep σ) : Ledger σ :=
  let events := (session.step step).events
  match step, session.dispatcher with
  | .compile, _ =>
    { ledger with
      compilers := ledger.compilers ++ [session.tree.compile.compiler]
      faults := match session.tree.compile.result with
        | .ok _ => session.tree.faults
        | .error _ => ledger.faults }
  | .request method path, some dispatcher =>
    { ledger with
      requests := ledger.requests ++
        [⟨(dispatcher.chain? method path).isSome, ledger.faults, none, events⟩] }
  | .start flight method path, some dispatcher =>
    { ledger with
      requests := ledger.requests.map (Trace.release flight) ++
        [⟨(dispatcher.chain? method path).isSome, ledger.faults, some flight, events⟩] }
  | .poll flight, _ =>
    { ledger with requests := ledger.requests.map (Trace.extend flight events) }
  | _, _ => ledger

def after (ledger : Ledger σ) (session : TreeSession σ) : List (TreeStep σ) → Ledger σ
  | [] => ledger
  | step :: steps => (ledger.note session step).after (session.step step).session steps

end Ledger

def TreeSession.events (session : TreeSession σ) : List (TreeStep σ) → List Event
  | [] => []
  | step :: steps => (session.step step).events ++ (session.step step).session.events steps

namespace Trace

variable {flight other : String} {events : List Event}

theorem bears_iff {trace : Trace σ} : trace.bears flight = true ↔ trace.flight = some flight :=
  decide_eq_true_iff

@[simp] theorem events_release (trace : Trace σ) :
    (trace.release flight).events = trace.events := by
  rw [release]
  split <;> rfl

@[simp] theorem bears_extend (trace : Trace σ) :
    (trace.extend flight events).bears other = trace.bears other := by
  rw [extend]
  split <;> rfl

/-- No request keeps a name that it is released from. -/
theorem countP_release (requests : List (Trace σ)) :
    (requests.map (release flight)).countP (·.bears flight) = 0 := by
  rw [List.countP_eq_zero]
  refine List.forall_mem_map.2 fun trace _ => ?_
  rw [release]
  split
  · exact Bool.false_ne_true
  · assumption

theorem bears_release_of_ne (ne : other ≠ flight) (trace : Trace σ) :
    (trace.release flight).bears other = trace.bears other := by
  rw [release]
  split
  · rename_i here
    simp [bears, bears_iff.1 here, Ne.symm ne]
  · rfl

/-- Each request that bears the name gains the events. -/
theorem total_extend (counter : Counter) (requests : List (Trace σ)) :
    Event.total counter ((requests.map (extend flight events)).flatMap Trace.events) =
      Event.total counter (requests.flatMap Trace.events) +
        requests.countP (·.bears flight) * Event.total counter events := by
  induction requests with
  | nil => simp [Event.total]
  | cons trace rest ih =>
      simp only [List.map_cons, List.flatMap_cons, List.countP_cons, Event.total_append, ih, extend]
      by_cases here : trace.bears flight = true
      · rw [if_pos here, if_pos here, Nat.succ_mul]
        simp only [Event.total_append]
        omega
      · rw [if_neg here, if_neg here, Nat.add_zero]
        omega

end Trace

namespace Ledger

/-- The request has kept to the rule so far, and stands with the reply that it has in
the session. -/
def Stands (session : TreeSession σ) (trace : Trace σ) : Prop :=
  ∃ phase, (Phase.monitor trace.matched trace.binds).reads .new trace.events = some phase ∧
    phase.Settled ∧
    ∀ flight reply, trace.bears flight = true → session.flights.find? flight = some reply →
      reply.Stands trace.matched trace.binds phase

/-- After these events the ledger agrees with the session. -/
structure Balances (events : List Event) (ledger : Ledger σ) (session : TreeSession σ) : Prop where
  totals : ∀ counter, Event.total counter events =
    Event.total counter (ledger.requests.flatMap Trace.events) +
      (ledger.compilers.map fun compiler => compiler.tables.cache.tally counter).sum
  dispatcher : ∀ dispatcher, session.dispatcher = some dispatcher →
    ∃ tree : Tree σ, tree.compile.result = .ok dispatcher ∧ tree.faults = ledger.faults
  requests : ∀ trace ∈ ledger.requests, Stands session trace
  /-- No two requests bear the same name, and a name in flight is borne by one. -/
  names : ∀ flight, ledger.requests.countP (·.bears flight) = 1 ∨
    ledger.requests.countP (·.bears flight) = 0 ∧ session.flights.find? flight = none

variable {events : List Event} {ledger : Ledger σ} {session after : TreeSession σ}

/-- Requests that are left alone or dropped still stand. -/
theorem Stands.still {trace : Trace σ} (stands : Stands session trace)
    (kept : ∀ flight reply, trace.bears flight = true →
      after.flights.find? flight = some reply → session.flights.find? flight = some reply) :
    Stands after trace := by
  obtain ⟨phase, read, settled, replies⟩ := stands
  exact ⟨phase, read, settled, fun flight reply bears found =>
    replies flight reply bears (kept flight reply bears found)⟩

theorem Stands.release {trace : Trace σ} (stands : Stands session trace) (flight : String) :
    Stands { session with flights := session.flights.erase flight } (trace.release flight) := by
  by_cases here : trace.bears flight = true
  · obtain ⟨phase, read, settled, _⟩ := stands
    rw [Trace.release, if_pos here]
    exact ⟨phase, read, settled, nofun⟩
  · rw [Trace.release, if_neg here]
    refine stands.still fun other reply bears found => ?_
    have ne : other ≠ flight := by
      rintro rfl
      exact here bears
    rwa [session.flights.find?_erase_of_ne ne] at found

theorem Stands.poll {trace : Trace σ} (stands : Stands session trace) (flight : String) :
    Stands (session.step (.poll flight)).session
      (trace.extend flight (session.step (.poll flight)).events) := by
  by_cases here : trace.bears flight = true
  · obtain ⟨phase, read, settled, replies⟩ := stands
    obtain ⟨next, further, settled, left⟩ := Flights.stands_poll
      (fun reply found => replies flight reply here found) settled session.state
    rw [Trace.extend, if_pos here]
    refine ⟨next, Monitor.reads_append read further, settled, ?_⟩
    intro other reply bears found
    have same : some other = some flight :=
      (Trace.bears_iff.1 bears).symm.trans (Trace.bears_iff.1 here)
    rw [Option.some.inj same] at found
    exact left reply found
  · rw [Trace.extend, if_neg here]
    refine stands.still fun other reply bears found => ?_
    have ne : other ≠ flight := by
      rintro rfl
      exact here bears
    exact (Flights.find?_poll_of_ne ne session.state).symm.trans found

namespace Balances

/-- A step that shows nothing and leaves all requests alone, or drops one, keeps the
balance. -/
theorem still (balances : Balances events ledger session)
    (dispatcher : after.dispatcher = session.dispatcher)
    (kept : ∀ flight reply, after.flights.find? flight = some reply →
      session.flights.find? flight = some reply) : Balances (events ++ []) ledger after := by
  rw [List.append_nil]
  refine ⟨balances.totals, ?_, ?_, ?_⟩
  · rw [dispatcher]
    exact balances.dispatcher
  · intro trace mem
    exact (balances.requests trace mem).still fun flight reply _ => kept flight reply
  · intro flight
    rcases balances.names flight with one | ⟨none, missing⟩
    · exact .inl one
    · refine .inr ⟨none, ?_⟩
      cases found : after.flights.find? flight with
      | none => rfl
      | some reply =>
          rw [kept flight reply found] at missing
          cases missing

theorem compile (balances : Balances events ledger session) :
    Balances (events ++ (session.step .compile).events) (ledger.note session .compile)
      (session.step .compile).session := by
  have shown : (session.step .compile).events = session.tree.compile.compiler.tables.events := by
    rw [TreeSession.step, TreeSession.compile]
    split <;> rfl
  have flights : (session.step .compile).session.flights = session.flights := by
    rw [TreeSession.step, TreeSession.compile]
    split <;> rfl
  refine ⟨?_, ?_, ?_, ?_⟩
  · intro counter
    rw [shown, Event.total_append, balances.totals, session.tree.tallied_compile]
    simp [note, Nat.add_assoc]
  · rw [TreeSession.step, TreeSession.compile]
    simp only [note]
    cases compiled : session.tree.compile.result with
    | ok dispatcher =>
        rintro _ ⟨⟩
        exact ⟨session.tree, compiled, rfl⟩
    | error defect => exact balances.dispatcher
  · intro trace mem
    refine (balances.requests trace mem).still fun flight reply _ found => ?_
    rwa [flights] at found
  · rw [flights]
    exact balances.names

theorem append (balances : Balances events ledger session) (trace : Trace σ)
    (dispatcher : after.dispatcher = session.dispatcher) (stands : Stands after trace)
    (new : ∀ flight, trace.bears flight = true → ledger.requests.countP (·.bears flight) = 0)
    (others : ∀ flight, trace.bears flight = false →
      after.flights.find? flight = session.flights.find? flight) :
    Balances (events ++ trace.events) { ledger with requests := ledger.requests ++ [trace] }
      after := by
  refine ⟨?_, ?_, ?_, ?_⟩
  · intro counter
    simp only [Event.total_append, balances.totals, List.flatMap_append, List.flatMap_singleton]
    omega
  · rw [dispatcher]
    exact balances.dispatcher
  · refine List.forall_mem_append.2 ⟨?_, List.forall_mem_singleton.2 stands⟩
    intro former mem
    -- Requests that were there before bear other names, so their replies are still there.
    refine (balances.requests former mem).still fun flight reply bears found => ?_
    have free : trace.bears flight = false := by
      by_contra taken
      have none := new flight (by simpa using taken)
      exact List.countP_eq_zero.1 none former mem bears
    rwa [others flight free] at found
  · intro flight
    simp only [List.countP_append, List.countP_singleton]
    by_cases bears : trace.bears flight = true
    · rw [if_pos bears, new flight bears]
      exact .inl rfl
    · rw [if_neg bears, others flight (by simpa using bears)]
      exact balances.names flight

/-- A request that bears no name has been counted when it joins the others. -/
theorem append_nameless (balances : Balances events ledger session) (trace : Trace σ)
    (dispatcher : after.dispatcher = session.dispatcher) (flights : after.flights = session.flights)
    (nameless : trace.flight = none) {phase : Phase}
    (read : (Phase.monitor trace.matched trace.binds).reads .new trace.events = some phase)
    (settled : phase.Settled) :
    Balances (events ++ trace.events) { ledger with requests := ledger.requests ++ [trace] }
      after := by
  have unborne : ∀ flight, trace.bears flight ≠ true := by
    intro flight bears
    rw [Trace.bears_iff, nameless] at bears
    cases bears
  refine balances.append trace dispatcher ⟨phase, read, settled, ?_⟩ ?_ ?_
  · intro flight reply bears
    exact absurd bears (unborne flight)
  · intro flight bears
    exact absurd bears (unborne flight)
  · intro flight _
    rw [flights]

theorem release (balances : Balances events ledger session) (flight : String) :
    Balances events { ledger with requests := ledger.requests.map (Trace.release flight) }
      { session with flights := session.flights.erase flight } := by
  refine ⟨?_, balances.dispatcher, ?_, ?_⟩
  · intro counter
    rw [balances.totals]
    simp only [List.flatMap_map, Trace.events_release]
  · refine List.forall_mem_map.2 fun trace mem => ?_
    exact (balances.requests trace mem).release flight
  · intro other
    by_cases same : other = flight
    · rw [same]
      exact .inr ⟨Trace.countP_release ledger.requests, Flights.find?_erase⟩
    · simp only [List.countP_map, Function.comp_def, Trace.bears_release_of_ne same,
        session.flights.find?_erase_of_ne same]
      exact balances.names other

theorem poll (balances : Balances events ledger session) (flight : String) :
    Balances (events ++ (session.step (.poll flight)).events) (ledger.note session (.poll flight))
      (session.step (.poll flight)).session := by
  have noted : ledger.note session (.poll flight) = { ledger with
      requests := ledger.requests.map (.extend flight (session.step (.poll flight)).events) } := rfl
  rw [noted]
  refine ⟨?_, balances.dispatcher, ?_, ?_⟩
  · intro counter
    rw [Event.total_append, balances.totals, Trace.total_extend]
    rcases balances.names flight with one | ⟨none, unknown⟩
    · rw [one, Nat.one_mul]
      exact Nat.add_right_comm _ _ _
    -- A name that no request bears is not in flight, and polling it shows nothing.
    · have shown : (session.step (.poll flight)).events = [] :=
        congrArg (·.2.2.2) (Flights.poll_of_unknown unknown session.state)
      rw [shown, none]
      rfl
  · refine List.forall_mem_map.2 fun trace mem => ?_
    exact (balances.requests trace mem).poll flight
  · intro other
    simp only [List.countP_map, Function.comp_def, Trace.bears_extend]
    rcases balances.names other with one | ⟨none, unknown⟩
    · exact .inl one
    · refine .inr ⟨none, ?_⟩
      change (session.flights.poll flight session.state).2.1.find? other = .none
      by_cases same : other = flight
      · rw [same] at unknown ⊢
        rw [Flights.poll_of_unknown unknown]
        exact unknown
      · rw [Flights.find?_poll_of_ne same]
        exact unknown

/-- The dispatcher of the session keeps to the rule for all requests. -/
theorem delivered (balances : Balances events ledger session) {dispatcher : Dispatcher σ}
    (here : session.dispatcher = some dispatcher) (method : Method) (path : String) :
    (dispatcher.handle method path).Delivered (dispatcher.chain? method path).isSome
      (fun id => ledger.faults.any fun entry => entry.1.id = id) .new := by
  obtain ⟨tree, compiled, same⟩ := balances.dispatcher dispatcher here
  rw [← same]
  exact tree.delivered_handle compiled method path

theorem request (balances : Balances events ledger session) {dispatcher : Dispatcher σ}
    (here : session.dispatcher = some dispatcher) (method : Method) (path : String) :
    Balances (events ++ (session.step (.request method path)).events)
      (ledger.note session (.request method path))
      (session.step (.request method path)).session := by
  have noted : ledger.note session (.request method path) = { ledger with
      requests := ledger.requests ++ [⟨(dispatcher.chain? method path).isSome, ledger.faults, none,
        (session.step (.request method path)).events⟩] } := by
    simp only [note, here]
  have stepped : session.step (.request method path) = session.request dispatcher method path := by
    simp only [TreeSession.step, here]
  rw [noted, stepped]
  obtain ⟨phase, read, stands⟩ :=
    Reply.stands_start (balances.delivered here method path) session.state
  rw [TreeSession.request]
  generalize Reply.start (dispatcher.handle method path) session.state = started at read stands ⊢
  obtain ⟨reply, state, shown⟩ := started
  dsimp only at read stands ⊢
  cases completed : reply.complete state with
  | none =>
      exact balances.append_nameless ⟨_, ledger.faults, none, shown⟩ rfl rfl rfl read stands.1
  | some done =>
      obtain ⟨last, further, settled⟩ := stands.complete completed
      exact balances.append_nameless ⟨_, ledger.faults, none, shown ++ done.events⟩ rfl rfl rfl
        (Monitor.reads_append read further) settled

/-- A request that is left in flight is counted as far as it has come. -/
theorem start (balances : Balances events ledger session) {dispatcher : Dispatcher σ}
    (here : session.dispatcher = some dispatcher) (flight : String) (method : Method)
    (path : String) :
    Balances (events ++ (session.step (.start flight method path)).events)
      (ledger.note session (.start flight method path))
      (session.step (.start flight method path)).session := by
  have noted : ledger.note session (.start flight method path) = { ledger with
      requests := ledger.requests.map (.release flight) ++
        [⟨(dispatcher.chain? method path).isSome, ledger.faults, some flight,
          (session.step (.start flight method path)).events⟩] } := by
    simp only [note, here]
  obtain ⟨phase, read, stands⟩ :=
    Reply.stands_start (balances.delivered here method path) session.state
  rw [noted]
  simp only [TreeSession.step, here]
  generalize Reply.start (dispatcher.handle method path) session.state = started at read stands ⊢
  obtain ⟨reply, state, shown⟩ := started
  dsimp only at read stands ⊢
  -- The name is taken from its former bearer first, so that no two requests bear it.
  refine (balances.release flight).append ⟨_, ledger.faults, some flight, shown⟩ ?_ ?_ ?_ ?_
  · exact here.symm
  · refine ⟨phase, read, stands.1, fun other found bears there => ?_⟩
    obtain rfl : flight = other := Option.some.inj (Trace.bears_iff.1 bears)
    rw [Flights.find?_insert] at there
    cases there
    exact stands
  · intro other bears
    obtain rfl : flight = other := Option.some.inj (Trace.bears_iff.1 bears)
    exact Trace.countP_release ledger.requests
  · intro other bears
    have ne : other ≠ flight := by
      rintro rfl
      exact absurd (Trace.bears_iff.2 rfl) (ne_true_of_eq_false bears)
    rw [Flights.find?_insert_of_ne ne, session.flights.find?_erase_of_ne ne]

/-- A ledger that agrees with a session agrees with it after a step. -/
theorem step (balances : Balances events ledger session) (step : TreeStep σ) :
    Balances (events ++ (session.step step).events) (ledger.note session step)
      (session.step step).session := by
  cases step with
  | useHandler | useGroup | route | answer => exact balances.still rfl fun _ _ found => found
  | compile => exact balances.compile
  | inspect method path =>
      have silent : (session.step (.inspect method path)).events = [] ∧
          (session.step (.inspect method path)).session = session := by
        rw [TreeSession.step]
        split
        · exact ⟨rfl, rfl⟩
        · split <;> exact ⟨rfl, rfl⟩
      rw [silent.1, silent.2]
      exact balances.still rfl fun _ _ found => found
  | request method path =>
      cases here : session.dispatcher with
      | none =>
          simp only [TreeSession.step, note, here]
          exact balances.still rfl fun _ _ found => found
      | some dispatcher => exact balances.request here method path
  | start flight method path =>
      cases here : session.dispatcher with
      | none =>
          simp only [TreeSession.step, note, here]
          exact balances.still rfl fun _ _ found => found
      | some dispatcher => exact balances.start here flight method path
  | poll flight => exact balances.poll flight
  | drop flight =>
      refine balances.still rfl fun other reply found => ?_
      change (session.flights.erase flight).find? other = some reply at found
      by_cases same : other = flight
      · rw [same, Flights.find?_erase] at found
        cases found
      · rwa [session.flights.find?_erase_of_ne same] at found

theorem run (balances : Balances events ledger session) (steps : List (TreeStep σ)) :
    Balances (events ++ session.events steps) (ledger.after session steps)
      (session.after steps) := by
  induction steps generalizing events ledger session with
  | nil => exact balances.still rfl fun _ _ found => found
  | cons step steps ih =>
      rw [TreeSession.events, ← List.append_assoc]
      exact ih (balances.step step)

/-- An empty ledger agrees with a session before its first step. -/
theorem fresh (settings : Settings) (registry : FaultRegistry) (nextGroup : Nat) (state : σ) :
    Balances [] {} (TreeSession.fresh settings registry nextGroup state) :=
  ⟨fun _ => rfl, nofun, nofun, fun _ => .inr ⟨rfl, rfl⟩⟩

end Balances

end Ledger

/-! ## Counters -/

namespace Trace

def counts (counter : Counter) (trace : Trace σ) : Bool :=
  match counter with
  | .request matched => trace.matched = matched
  | .fault handled => (Event.raisings trace.events).any fun id => trace.binds id = handled
  | .groupCompiled | .groupReused => false

variable {session : TreeSession σ} {trace : Trace σ}

/-- A request that stands has raised what its phase says and has counted that. -/
theorem exists_settled (stands : Ledger.Stands session trace) :
    ∃ phase : Phase, phase.Settled ∧ Event.raisings trace.events = phase.raisings ∧
      ∀ counter, Event.total counter trace.events =
        phase.tally trace.matched trace.binds counter := by
  obtain ⟨phase, read, settled, _⟩ := stands
  refine ⟨phase, settled, (Phase.tally_reads read .groupCompiled).2.symm, fun counter => ?_⟩
  have counted := (Phase.tally_reads read counter).1
  have new : Phase.new.tally trace.matched trace.binds counter = 0 := by
    cases counter <;> rfl
  rw [counted, new, Nat.zero_add]

/-- A request raises one fault at most. -/
theorem raisings_cases (stands : Ledger.Stands session trace) :
    Event.raisings trace.events = [] ∨ ∃ id, Event.raisings trace.events = [id] := by
  obtain ⟨phase, _, raised, _⟩ := exists_settled stands
  rw [raised]
  cases phase with
  | new | calm => exact .inl rfl
  | raised id | counted id => exact .inr ⟨id, rfl⟩

/-- A request increments a counter at most once. -/
theorem total_eq (stands : Ledger.Stands session trace) (counter : Counter) :
    Event.total counter trace.events = if trace.counts counter then 1 else 0 := by
  obtain ⟨phase, settled, raised, total⟩ := exists_settled stands
  rw [total]
  cases phase with
  | new | raised => exact settled.elim
  | calm =>
      cases counter with
      | request matched => simp [Phase.tally, counts, eq_comm]
      | fault handled => simp [Phase.tally, counts, raised, Phase.raisings]
      | groupCompiled | groupReused => rfl
  | counted id =>
      cases counter with
      | request matched => simp [Phase.tally, counts, eq_comm]
      | fault handled => simp [Phase.tally, counts, raised, Phase.raisings, eq_comm]
      | groupCompiled | groupReused => rfl

theorem total_flatMap {requests : List (Trace σ)}
    (stand : ∀ trace ∈ requests, Ledger.Stands session trace) (counter : Counter) :
    Event.total counter (requests.flatMap Trace.events) = requests.countP (·.counts counter) := by
  induction requests with
  | nil => rfl
  | cons trace rest ih =>
      obtain ⟨here, later⟩ := List.forall_mem_cons.1 stand
      rw [List.flatMap_cons, Event.total_append, total_eq here, ih later, List.countP_cons,
        Nat.add_comm]

/-- Requests of two sorts that exclude each other add up to those of either sort. -/
theorem countP_add_countP {requests : List (Trace σ)} {first second either : Trace σ → Bool}
    (exclusive : ∀ trace ∈ requests, (if first trace then 1 else 0) +
      (if second trace then 1 else 0) = if either trace then 1 else 0) :
    requests.countP first + requests.countP second = requests.countP either := by
  induction requests with
  | nil => rfl
  | cons trace rest ih =>
      obtain ⟨here, later⟩ := List.forall_mem_cons.1 exclusive
      have sum := ih later
      rw [List.countP_cons, List.countP_cons, List.countP_cons, ← here, ← sum]
      exact Nat.add_add_add_comm _ _ _ _

end Trace

theorem Ledger.Balances.total_eq {events : List Event} {ledger : Ledger σ} {session : TreeSession σ}
    (balances : Balances events ledger session) (counter : Counter) :
    Event.total counter events = ledger.requests.countP (·.counts counter) +
      (ledger.compilers.map fun compiler => compiler.tables.cache.tally counter).sum := by
  rw [balances.totals, Trace.total_flatMap balances.requests]

/-- The counters of a session account for everything that has happened in it, however
compilations, with success or without, requests and polls follow each other. The session
is one with a single tree, where each new request is given to the dispatcher of the last
compilation that succeeded; a dispatcher that was replaced serves what it has in flight.

* Every request that was given to a dispatcher is counted once, by whether it had a
  route.
* A request raises at most one fault. Every fault that has been raised so far is
  counted once, as handled exactly if its number is bound in the table of the route.
* The other counters come to the groups that the compilers have compiled and to their
  uses of groups that they had. -/
theorem TreeSession.counters_match_ledger (settings : Settings) (registry : FaultRegistry)
    (nextGroup : Nat) (state : σ) (steps : List (TreeStep σ)) :
    let session := fresh settings registry nextGroup state
    let ledger := ({} : Ledger σ).after session steps
    let total := fun counter => Event.total counter (session.events steps)
    (∀ matched, total (.request matched) = ledger.requests.countP (·.matched = matched)) ∧
      total (.request true) + total (.request false) = ledger.requests.length ∧
      (∀ trace ∈ ledger.requests, (Event.raisings trace.events).length ≤ 1) ∧
      (∀ handled, total (.fault handled) = ledger.requests.countP fun trace =>
        (Event.raisings trace.events).any fun id => trace.binds id = handled) ∧
      total (.fault true) + total (.fault false) =
        ledger.requests.countP (fun trace => Event.raisings trace.events ≠ []) ∧
      total .groupCompiled = (ledger.compilers.map (·.tables.cache.size)).sum ∧
      total .groupReused = (ledger.compilers.map (·.tables.cache.hits)).sum := by
  intro session ledger total
  have balances := (Ledger.Balances.fresh settings registry nextGroup state).run steps
  have counted : ∀ counter, total counter = ledger.requests.countP (·.counts counter) +
      (ledger.compilers.map fun compiler => compiler.tables.cache.tally counter).sum :=
    balances.total_eq
  have requests : ∀ matched, total (.request matched) =
      ledger.requests.countP (·.matched = matched) := by
    intro matched
    rw [counted]
    simp [FragmentCache.tally, Trace.counts]
  have faults : ∀ handled, total (.fault handled) = ledger.requests.countP fun trace =>
      (Event.raisings trace.events).any fun id => trace.binds id = handled := by
    intro handled
    rw [counted]
    simp [FragmentCache.tally, Trace.counts]
  refine ⟨requests, ?_, ?_, faults, ?_, ?_, ?_⟩
  · rw [requests, requests, ← List.countP_true]
    refine Trace.countP_add_countP fun trace _ => ?_
    cases trace.matched <;> rfl
  · intro trace mem
    rcases Trace.raisings_cases (balances.requests trace mem) with raised | ⟨id, raised⟩
    · rw [raised]
      exact Nat.zero_le 1
    · rw [raised]
      exact Nat.le_refl 1
  · rw [faults, faults]
    refine Trace.countP_add_countP fun trace mem => ?_
    rcases Trace.raisings_cases (balances.requests trace mem) with raised | ⟨id, raised⟩
    · rw [raised]
      rfl
    · rw [raised]
      cases bound : trace.binds id <;> simp [bound]
  · rw [counted]
    simp [FragmentCache.tally, Trace.counts]
  · rw [counted]
    simp [FragmentCache.tally, Trace.counts]

namespace Sample

/-- A request comes before the tree is compiled. Of those after it, one is polled until
it fails, one has no route, one is dropped before it fails and one is seen through. -/
def evening : List (TreeStep Nat) :=
  [.answer refused turnAway, .useGroup gate, .route ⟨"GET"⟩ "/" welcome,
    .request ⟨"GET"⟩ "/", .compile, .start "first" ⟨"GET"⟩ "/", .request ⟨"GET"⟩ "/lost",
    .poll "first", .start "second" ⟨"GET"⟩ "/", .poll "first", .poll "first", .drop "second",
    .request ⟨"GET"⟩ "/"]

example : (({} : Ledger Nat).after (.fresh {} registry 3 0) evening).requests.map
    (fun trace => (trace.matched, Event.raisings trace.events)) =
      [(true, [0]), (false, []), (true, []), (true, [0])] := rfl

end Sample

end RouteTree
