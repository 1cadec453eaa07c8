import RouteTree.Proofs.Isolation
import RouteTree.Proofs.Requests
import RouteTree.Proofs.Runs
import RouteTree.Proofs.Tallies

/-!
# What requests count

A request is counted once, before anything else happens. It may raise one fault,
which is counted before the request stops or calls anything: as handled if its
number is bound in the table of the route, and as unhandled if not. Nothing else is
counted. A monitor states this as a rule for the order of events, and every request
to a compiled tree keeps to the rule, however long it stays in flight.
-/

namespace RouteTree

open Http

variable {σ α : Type}

namespace Event

/-- Events that neither raise a fault nor count anything. -/
def Quiet : Event → Prop
  | .call _ | .allocated _ | .log _ => True
  | .raised _ | .count _ => False

def raised? : Event → Option Nat
  | .raised id => some id
  | _ => none

def raisings (events : List Event) : List Nat := events.filterMap raised?

theorem raisings_append (first second : List Event) :
    raisings (first ++ second) = raisings first ++ raisings second := List.filterMap_append

end Event

/-! ## The rule -/

/-- How far the counting of a request has come. -/
inductive Phase where
  /-- The request has not been counted. -/
  | new
  /-- No fault has been raised. -/
  | calm
  /-- A fault of this number has been raised and not been counted. -/
  | raised (id : Nat)
  /-- The fault has been counted. -/
  | counted (id : Nat)

namespace Phase

/-- Everything that has happened has been counted. -/
def Settled : Phase → Prop
  | .calm | .counted _ => True
  | .new | .raised _ => False

theorem settled_calm : calm.Settled := trivial

def next (matched : Bool) (bound : Nat → Bool) : Phase → Event → Option Phase
  | .new, .count (.request found) => if found = matched then some .calm else none
  | .calm, .raised id => some (.raised id)
  | .raised id, .count (.fault handled) => if handled = bound id then some (.counted id) else none
  | phase, .call _ | phase, .allocated _ | phase, .log _ => some phase
  | _, _ => none

def tally (matched : Bool) (bound : Nat → Bool) : Phase → Counter → Nat
  | .calm, .request found | .raised _, .request found | .counted _, .request found =>
    if found = matched then 1 else 0
  | .counted id, .fault handled => if handled = bound id then 1 else 0
  | _, _ => 0

def raisings : Phase → List Nat
  | .new | .calm => []
  | .raised id | .counted id => [id]

def monitor (matched : Bool) (bound : Nat → Bool) : Monitor Phase Event where
  next := next matched bound
  rests := Settled

variable {matched : Bool} {bound : Nat → Bool} {phase after : Phase}

theorem next_quiet {event : Event} (quiet : event.Quiet) :
    (monitor matched bound).next phase event = some phase := by
  cases event with
  | call | allocated | log => cases phase <;> rfl
  | raised | count => exact quiet.elim

/-- One event changes the phase as it changes the counters and the faults. -/
theorem tally_next {event : Event} (read : (monitor matched bound).next phase event = some after)
    (counter : Counter) :
    after.tally matched bound counter =
        phase.tally matched bound counter + Event.total counter [event] ∧
      after.raisings = phase.raisings ++ Event.raisings [event] := by
  cases event with
  | call | allocated | log =>
      rw [next_quiet (by trivial)] at read
      cases read
      exact ⟨rfl, (List.append_nil _).symm⟩
  | raised id =>
      cases phase with
      | calm =>
          cases read
          exact ⟨by cases counter <;> rfl, rfl⟩
      | new | raised | counted => cases read
  | count increment =>
      cases phase with
      | new =>
          cases increment with
          | request found =>
              obtain ⟨same, reached⟩ := Option.ite_none_right_eq_some.1 read
              cases reached
              refine ⟨?_, rfl⟩
              subst same
              cases counter with
              | request other => simp [tally, Event.total, Event.counts, eq_comm]
              | fault | groupCompiled | groupReused => rfl
          | fault | groupCompiled | groupReused => cases read
      | raised id =>
          cases increment with
          | fault handled =>
              obtain ⟨same, reached⟩ := Option.ite_none_right_eq_some.1 read
              cases reached
              refine ⟨?_, rfl⟩
              subst same
              cases counter with
              | fault other => simp [tally, Event.total, Event.counts, eq_comm]
              | request | groupCompiled | groupReused => rfl
          | request | groupCompiled | groupReused => cases read
      | calm | counted => cases increment <;> cases read

theorem tally_reads {events : List Event}
    (read : (monitor matched bound).reads phase events = some after) (counter : Counter) :
    after.tally matched bound counter =
        phase.tally matched bound counter + Event.total counter events ∧
      after.raisings = phase.raisings ++ Event.raisings events := by
  induction events generalizing phase with
  | nil =>
      cases read
      exact ⟨rfl, (List.append_nil _).symm⟩
  | cons event rest ih =>
      rw [Monitor.reads, List.foldlM_cons] at read
      obtain ⟨middle, here, later⟩ := Option.bind_eq_some_iff.1 read
      obtain ⟨counts, faults⟩ := tally_next here counter
      obtain ⟨counts', faults'⟩ := ih later
      have split : event :: rest = [event] ++ rest := rfl
      rw [counts', counts, faults', faults, split, Event.total_append, Nat.add_assoc,
        List.append_assoc]
      exact ⟨rfl, congrArg _ (Event.raisings_append [event] rest).symm⟩

end Phase

/-! ## Calls and answers are quiet -/

theorem Frame.quiet_demand (frame : Frame) :
    (frame.demand : Task Event σ (Context × Frame)).Always Event.Quiet fun _ => True := by
  rw [demand]
  split
  · trivial
  · exact ⟨trivial, trivial⟩

theorem Callback.quiet_call (callback : Callback σ α) (payload : Option Json) (frame : Frame) :
    (callback.call payload frame).Always Event.Quiet fun _ => True := by
  obtain ⟨id, body⟩ := callback
  cases body with
  | plain run => exact ⟨trivial, (Task.always_ofState _).bind fun _ _ => trivial⟩
  | contextual run =>
      refine frame.quiet_demand.bind fun held _ => ?_
      exact ⟨trivial, (Task.always_ofState _).bind fun _ _ => trivial⟩
  | deferred run => exact ⟨trivial, (Task.always_ofSilent _).bind fun _ _ => trivial⟩
  | deferredContextual run =>
      refine frame.quiet_demand.bind fun held _ => ?_
      exact ⟨trivial, (Task.always_ofSilent _).bind fun _ _ => trivial⟩

theorem Op.quiet_settle (op : Op σ) (value : Json) (frame : Frame) :
    (op.settle value frame).Always Event.Quiet fun _ => True := by
  rw [settle]
  split
  · trivial
  · exact frame.quiet_demand.bind fun _ _ => trivial

theorem Endpoint.quiet_respond (endpoint : Endpoint σ) (payload : Option Json) (frame : Frame) :
    (endpoint.respond payload frame).Always Event.Quiet fun _ => True := by
  cases endpoint with
  | function callback => exact (callback.quiet_call payload frame).bind fun _ _ => trivial
  | formatted callback encoder unhandled =>
      refine (callback.quiet_call payload frame).bind ?_
      rintro ⟨reason | value, after⟩ _
      · exact ⟨trivial, trivial⟩
      · trivial
  | fixed response => trivial

/-! ## Requests keep to the rule -/

variable {matched : Bool} {bound : Nat → Bool}

/-- A task that is quiet leaves a settled request where it is. -/
theorem Task.Always.settled {task : Task Event σ α} {ends : α → Prop}
    (quiet : task.Always Event.Quiet ends) {phase : Phase} (settled : phase.Settled) :
    task.Follows (Phase.monitor matched bound)
      (fun after value => after = phase ∧ ends value) phase :=
  .of_always settled (fun _ => Phase.next_quiet) quiet

/-- How far the counting has come when a call ends with the verdict. -/
def Verdict.phase : Verdict → Phase
  | .proceed | .misplaced => .calm
  | .raise fault => .raised fault.id

/-- The task keeps to the rule for a request that has raised nothing, and its verdict
says whether it has raised something. -/
def Task.Reports (matched : Bool) (bound : Nat → Bool) (task : Task Event σ (Verdict × Frame)) :
    Prop :=
  task.Follows (Phase.monitor matched bound) (fun after out => after = out.1.phase) .calm

/-- Going on until something raises keeps to the rule if each part does. -/
theorem Task.Reports.bind {first : Task Event σ (Verdict × Frame)}
    {rest : Frame → Task Event σ (Verdict × Frame)} (here : first.Reports matched bound)
    (later : ∀ frame, (rest frame).Reports matched bound) :
    (first.bind fun out =>
      match out.1 with
      | .proceed => rest out.2
      | verdict => .done (verdict, out.2)).Reports matched bound := by
  refine Task.Follows.bind here ?_
  rintro after ⟨verdict, frame⟩ rfl
  cases verdict with
  | proceed => exact later frame
  | raise fault => exact rfl
  | misplaced => exact rfl

namespace Op

theorem reports_run (op : Op σ) (frame : Frame) : (op.run frame).Reports matched bound := by
  refine ((op.callback.quiet_call none frame).settled Phase.settled_calm).bind ?_
  rintro after ⟨fault | value, left⟩ ⟨rfl, _⟩
  · exact ⟨.raised fault.id, rfl, rfl⟩
  · refine ((op.quiet_settle value left).settled Phase.settled_calm).bind ?_
    rintro after left ⟨rfl, _⟩
    exact rfl

theorem reports_runAll (ops : List (Op σ)) (frame : Frame) :
    (runAll ops frame).Reports matched bound := by
  induction ops generalizing frame with
  | nil => exact rfl
  | cons op rest ih => exact .bind (op.reports_run frame) ih

theorem reports_runAllNow (ops : List (Op σ)) (frame : Frame) :
    (runAllNow ops frame).Reports matched bound := by
  induction ops generalizing frame with
  | nil => exact rfl
  | cons op rest ih =>
      rw [runAllNow]
      split
      · exact rfl
      · exact .bind (op.reports_run frame) ih

end Op

namespace Stage

theorem reports_runAll (stages : List (Stage σ)) (frame : Frame) :
    (runAll stages frame).Reports matched bound := by
  induction stages generalizing frame with
  | nil => exact rfl
  | cons stage rest ih =>
      refine .bind ?_ ih
      cases stage with
      | allocate => exact ⟨.calm, rfl, rfl⟩
      | group fragment => exact Op.reports_runAll fragment.ops frame

theorem reports_runAllNow (stages : List (Stage σ)) (frame : Frame) :
    (runAllNow stages frame).Reports matched bound := by
  induction stages generalizing frame with
  | nil => exact rfl
  | cons stage rest ih =>
      refine .bind ?_ ih
      cases stage with
      | allocate => exact ⟨.calm, rfl, rfl⟩
      | group fragment => exact Op.reports_runAllNow fragment.ops frame

end Stage

/-- The task keeps to the rule and leaves a request of which everything has been
counted. -/
def Task.Settles (matched : Bool) (bound : Nat → Bool) (task : Task Event σ Response)
    (phase : Phase) : Prop :=
  task.Follows (Phase.monitor matched bound) (fun after _ => after.Settled) phase

/-- The request has come to a rest with this reply, and what is pending will keep to
the rule. -/
def Reply.Stands (matched : Bool) (bound : Nat → Bool) (phase : Phase) (reply : Reply σ) : Prop :=
  phase.Settled ∧
    match reply with
    | .ready _ | .aborted => True
    | .pending task => task.Settles matched bound phase

/-- The task keeps to the rule and leaves a reply with which the request stands. -/
def Task.Delivered (matched : Bool) (bound : Nat → Bool) (task : Task Event σ (Reply σ))
    (phase : Phase) : Prop :=
  task.Follows (Phase.monitor matched bound) (Reply.Stands matched bound) phase

namespace Endpoint

variable (endpoint : Endpoint σ) (payload : Option Json) (frame : Frame) {phase : Phase}

theorem settles_respond (settled : phase.Settled) :
    (endpoint.respond payload frame).Settles matched bound phase := by
  refine ((endpoint.quiet_respond payload frame).settled settled).mono ?_
  rintro after response ⟨rfl, _⟩
  exact settled

theorem delivered_call (settled : phase.Settled) :
    (endpoint.call payload frame).Delivered matched bound phase := by
  have answers : (endpoint.respond payload frame).Settles matched bound phase :=
    endpoint.settles_respond payload frame settled
  rw [call]
  split
  · exact ⟨settled, answers⟩
  · exact answers.bind fun after response settled => ⟨settled, trivial⟩

end Endpoint

namespace FaultSwitch

variable {switch : FaultSwitch σ}

/-- A raised fault is counted at once, by whether there is a branch for it. -/
theorem follows_select (known : ∀ id, (switch.cases.find? id).isSome = bound id) (fault : Fault) :
    (switch.select fault).Follows (Phase.monitor matched bound)
      (fun after _ => after.Settled) (.raised fault.id) := by
  have here := known fault.id
  rw [select]
  split
  · rename_i branch found
    rw [found] at here
    exact ⟨.counted fault.id, if_pos here, trivial⟩
  · rename_i found
    rw [found] at here
    exact ⟨.raised fault.id, rfl, .counted fault.id, if_pos here, trivial⟩

theorem delivered_dispatch (known : ∀ id, (switch.cases.find? id).isSome = bound id)
    (fault : Fault) (frame : Frame) :
    (switch.dispatch fault frame).Delivered matched bound (.raised fault.id) := by
  refine (follows_select known fault).bind ?_
  rintro after (_ | branch) settled
  · exact ⟨settled, trivial⟩
  · exact branch.endpoint.delivered_call _ _ settled

theorem settles_dispatchInScope (known : ∀ id, (switch.cases.find? id).isSome = bound id)
    (fault : Fault) (frame : Frame) :
    (switch.dispatchInScope fault frame).Settles matched bound (.raised fault.id) := by
  refine (follows_select known fault).bind ?_
  rintro after (_ | branch) settled
  · exact settled
  · exact branch.endpoint.settles_respond _ _ settled

end FaultSwitch

namespace Chain

variable {chain : Chain σ}

theorem settles_runScope (known : ∀ id, (chain.switch.cases.find? id).isSome = bound id)
    (stages : List (Stage σ)) (frame : Frame) :
    (chain.runScope stages frame).Settles matched bound .calm := by
  refine Task.Follows.bind (Stage.reports_runAll stages frame) ?_
  rintro after ⟨verdict, left⟩ rfl
  cases verdict with
  | proceed => exact chain.endpoint.settles_respond none left Phase.settled_calm
  | raise fault => exact FaultSwitch.settles_dispatchInScope known fault left
  | misplaced => exact Phase.settled_calm

theorem delivered_invoke (known : ∀ id, (chain.switch.cases.find? id).isSome = bound id)
    (params : Option Params) : (chain.invoke params).Delivered matched bound .calm := by
  refine Task.Follows.bind (Stage.reports_runAllNow chain.eager (.new params)) ?_
  rintro after ⟨verdict, left⟩ rfl
  cases verdict with
  | raise fault => exact FaultSwitch.delivered_dispatch known fault left
  | misplaced => exact ⟨Phase.settled_calm, trivial⟩
  | proceed =>
      dsimp only
      split
      · exact chain.endpoint.delivered_call none left Phase.settled_calm
      · exact ⟨Phase.settled_calm, settles_runScope known _ left⟩

end Chain

/-- A request is counted, as one that has a route or not, and then keeps to the rule. -/
theorem Dispatcher.delivered_handle {dispatcher : Dispatcher σ} {method : Method} {path : String}
    (known : ∀ chain params, dispatcher.router.lookup method path = some (chain, params) →
      ∀ id, (chain.switch.cases.find? id).isSome = bound id) :
    (dispatcher.handle method path).Delivered (dispatcher.chain? method path).isSome bound
      .new := by
  rw [handle, chain?]
  split
  · rename_i chain params found
    refine ⟨.new, rfl, .calm, ?_, chain.delivered_invoke (known chain params found) params⟩
    rw [found]
    rfl
  · rename_i found
    refine ⟨.new, rfl, .calm, ?_, Phase.settled_calm, trivial⟩
    rw [found]
    rfl

/-! ## Compiled trees -/

namespace Tree

variable {tree : Tree σ} {dispatcher : Dispatcher σ}

/-- The compiler keeps only the switch of the tree's own table. -/
def Owns (tree : Tree σ) (compiler : Compiler σ) : Prop :=
  compiler.Keeps (fun _ => True) (fun _ switch => switch = tree.faultTable.switch tree.unhandled) ∧
    compiler.unhandled = tree.unhandled

/-- An added route has the switch of the tree's table. -/
theorem CompilesRoute.owns {registration : Registration σ} {compiler after : Compiler σ}
    {router next : Router (Chain σ)}
    (compiles : tree.CompilesRoute registration compiler router (.ok next, after))
    (owns : tree.Owns compiler)
    (holds : router.Holds fun chain => chain.switch = tree.faultTable.switch tree.unhandled) :
    tree.Owns after ∧
      next.Holds fun chain => chain.switch = tree.faultTable.switch tree.unhandled := by
  cases compiles with
  | @added pattern chain between events read compiled accepted =>
      have own : (tree.plan registration).faults.switch compiler.unhandled =
          tree.faultTable.switch tree.unhandled := by
        rw [owns.2]
        rfl
      obtain ⟨chains, kept, same⟩ := @Compiler.keeps_compile σ compiler (tree.plan registration)
        (!pattern.isStatic) _ _ (fun _ _ => True) owns.1 (fun _ _ _ _ => ⟨trivial, trivial⟩) own
      rw [compiled] at chains kept same
      obtain ⟨_, switch, _, here, joins⟩ := chains chain rfl
      exact ⟨⟨⟨kept.cache, kept.switches⟩, same.trans owns.2⟩,
        holds.insert registration.method pattern (joins.switch.trans here)⟩

/-- All routes of a compiled tree share the switch of its table. -/
theorem switch_of_lookup (compiled : tree.compile.result = .ok dispatcher) {method : Method}
    {path : String} {found : Chain σ × Option Params}
    (here : dispatcher.router.lookup method path = some found) :
    found.1.switch = tree.faultTable.switch tree.unhandled := by
  have start : tree.Owns tree.compiler := ⟨⟨trivial, nofun⟩, rfl⟩
  obtain ⟨_, _, holds⟩ := invariant_compileRoutes
    (fun compiler router => tree.Owns compiler ∧
      router.Holds fun chain => chain.switch = tree.faultTable.switch tree.unhandled)
    (fun registration mem compiler router next after owned compiles =>
      compiles.owns owned.1 owned.2)
    ⟨start, Router.holds_empty _⟩ (router_of_compile compiled)
  exact holds.lookup here

/-- A route of a compiled tree has a branch for the numbers that the tree binds. -/
theorem isSome_find?_of_lookup (compiled : tree.compile.result = .ok dispatcher) {method : Method}
    {path : String} {chain : Chain σ} {params : Option Params}
    (here : dispatcher.router.lookup method path = some (chain, params)) (id : Nat) :
    (chain.switch.cases.find? id).isSome = tree.faults.any fun entry => entry.1.id = id := by
  rw [switch_of_lookup compiled here, FaultTable.find?_switch, Option.isSome_map]
  exact List.isSome_find?

theorem delivered_handle (compiled : tree.compile.result = .ok dispatcher) (method : Method)
    (path : String) :
    (dispatcher.handle method path).Delivered (dispatcher.chain? method path).isSome
      (fun id => tree.faults.any fun entry => entry.1.id = id) .new :=
  Dispatcher.delivered_handle fun _ _ here => isSome_find?_of_lookup compiled here

end Tree

/-! ## Requests in flight -/

variable {phase : Phase}

theorem Reply.stands_start {task : Task Event σ (Reply σ)}
    (delivered : task.Delivered matched bound phase) (state : σ) :
    ∃ after, (Phase.monitor matched bound).reads phase (Reply.start task state).2.2 = some after ∧
      (Reply.start task state).1.Stands matched bound after := by
  obtain ⟨after, read, left⟩ := delivered.poll state
  refine ⟨after, ?_, ?_⟩
  · rw [start]
    split <;> exact read
  · rw [start]
    split
    · rename_i reply finished
      rw [finished] at left
      exact left
    · rename_i rest waiting
      rw [waiting] at left
      exact ⟨left.1, trivial⟩

/-- A request that is seen through has counted everything. -/
theorem Reply.Stands.complete {reply : Reply σ} (stands : reply.Stands matched bound phase)
    {state : σ} {done : Completed Event σ Response} (complete : reply.complete state = some done) :
    ∃ after, (Phase.monitor matched bound).reads phase done.events = some after ∧
      after.Settled := by
  cases reply with
  | ready response =>
      cases complete
      exact ⟨phase, rfl, stands.1⟩
  | pending task =>
      cases complete
      exact Task.Follows.complete stands.2 state
  | aborted => cases complete

theorem Flights.poll_of_unknown {flights : Flights σ} {name : String}
    (unknown : flights.find? name = none) (state : σ) :
    flights.poll name state = (.unknown, flights, state, []) := by
  rw [poll, unknown]

theorem Flights.stands_poll {flights : Flights σ} {name : String}
    (stands : ∀ reply, flights.find? name = some reply → reply.Stands matched bound phase)
    (settled : phase.Settled) (state : σ) :
    ∃ after, (Phase.monitor matched bound).reads phase (flights.poll name state).2.2.2 =
        some after ∧ after.Settled ∧
      ∀ reply, (flights.poll name state).2.1.find? name = some reply →
        reply.Stands matched bound after := by
  cases found : flights.find? name with
  | none =>
      rw [poll_of_unknown found, found]
      exact ⟨phase, rfl, settled, nofun⟩
  | some reply =>
      have here := stands reply found
      cases reply with
      | ready response =>
          simp only [poll, found, find?_erase]
          exact ⟨phase, rfl, settled, nofun⟩
      | aborted =>
          simp only [poll, found, find?_erase]
          exact ⟨phase, rfl, settled, nofun⟩
      | pending task =>
          obtain ⟨after, read, left⟩ := Task.Follows.poll here.2 state
          simp only [poll, found]
          generalize task.poll state = polled at read left ⊢
          obtain ⟨response | rest, left', events⟩ := polled
          · simp only [find?_erase]
            exact ⟨after, read, left, nofun⟩
          · simp only [find?_insert]
            refine ⟨after, read, left.1, ?_⟩
            rintro reply ⟨⟩
            exact left

end RouteTree
