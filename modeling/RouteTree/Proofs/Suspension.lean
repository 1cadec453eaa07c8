import Mathlib.Data.List.TakeWhile
import RouteTree.Proofs.Refinement

/-!
# When a request stops, and for how long

Invoking a chain runs the groups in front of the first one that may stop, and
answers at once if nothing that is left to do may stop. Otherwise nothing else
is called before the first poll, and the reply ends one poll after the functions
it calls have stopped as often as they do.
-/

namespace RouteTree

open Http

variable {σ : Type}

theorem Group.interpretAll_append (first second : List (Group σ)) (walk : Walk σ) :
    interpretAll (first ++ second) walk =
      match interpretAll first walk with
      | (none, walk) => interpretAll second walk
      | (some fault, walk) => (some fault, walk) := by
  induction first generalizing walk with
  | nil => rfl
  | cons group rest ih =>
      simp only [List.cons_append, interpretAll]
      rcases Handler.interpretAll group.handlers walk with ⟨_ | fault, after⟩
      · exact ih after
      · rfl

/-- The answer to a fault does not stop if no terminal is bound to it, or one
that may not stop. -/
theorem FaultTable.suspendsOn_eq_false {table : FaultTable σ} {id : Nat} :
    table.suspendsOn id = false ↔ ∀ entry ∈ table.entry? id, entry.2.suspends = false := by
  rw [suspendsOn]
  cases table.entry? id <;> simp

namespace RoutePlan

variable {plan : RoutePlan σ}

/-- A reply is ready in two cases: a group raises before one may stop, and the
answer to the fault may not stop; or nothing is raised and nothing may stop. -/
theorem leavesPending_eq_false {raised : Option Fault} :
    plan.leavesPending raised = false ↔
      (∃ fault, raised = some fault ∧
        ∀ entry ∈ plan.faults.entry? fault.id, entry.2.suspends = false) ∨
      (raised = none ∧ plan.deferred = false ∧ plan.terminal.suspends = false) := by
  cases raised with
  | none => simp [leavesPending]
  | some fault => simp [leavesPending, FaultTable.suspendsOn_eq_false]

/-- If the reply is ready, the groups in front of the first one that may stop
have decided the answer. -/
theorem interpret_of_ready {params : Option Params} {state : σ}
    (ready : plan.leavesPending
      (Group.interpretAll plan.eagerGroups (.start params state)).1 = false)
    (unhandled : Response) :
    plan.interpret unhandled params state =
      plan.conclude unhandled (Group.interpretAll plan.eagerGroups (.start params state)) := by
  have cut : plan.groups = plan.eagerGroups ++ plan.scopedGroups :=
    List.takeWhile_append_dropWhile.symm
  rw [interpret, cut, Group.interpretAll_append]
  generalize Group.interpretAll plan.eagerGroups (.start params state) = opening at ready ⊢
  obtain ⟨_ | fault, walk⟩ := opening
  · obtain ⟨prompt, _⟩ := Bool.or_eq_false_iff.1 ready
    have nothing : plan.scopedGroups = [] := by
      rw [scopedGroups, List.dropWhile_eq_nil_iff]
      simpa [deferred] using prompt
    rw [nothing]
    rfl
  · rfl

theorem stops_eagerGroups (params : Option Params) (state : σ) :
    (Group.interpretAll plan.eagerGroups (.start params state)).2.stops = 0 := by
  rw [Group.interpretAll_eq_ops, Op.stops_interpretAll plan.prompt_eagerGroups]
  rfl

end RoutePlan

/-- A pending reply is waiting after every poll but the last one. -/
theorem Answers.pollTimes {task : Task Event σ Response} {middle : Walk σ}
    {out : Response × Walk σ} (answers : Answers task middle out) (fresh : middle.stops = 0) :
    (∀ times ≤ out.2.stops, ∃ rest,
        (task.pollTimes times middle.state).progress = .waiting rest) ∧
      task.pollTimes (1 + out.2.stops) middle.state =
        ⟨.finished out.1, out.2.state, (task.complete middle.state).events⟩ := by
  have stops : (task.complete middle.state).polls = 1 + out.2.stops := by
    rw [task.polls_complete, answers.toAdvances.stops, fresh]
    omega
  constructor
  · intro times early
    exact task.pollTimes_of_lt middle.state (by omega)
  · rw [← stops, task.pollTimes_polls, answers.value, answers.state]

/-- What starting a task shows of the answer that it delivers: all of it, or
the calls up to the middle and a task that ends after the stops of the others. -/
theorem Delivers.started {task : Task Event σ (Reply σ)} {before middle : Walk σ}
    {out : Response × Walk σ} {deferred : Bool}
    (delivers : Delivers task before middle out deferred)
    (fresh : before.calls = []) (still : middle.stops = 0) :
    ∃ reply state events, Reply.start task before.state = (reply, state, events) ∧
      ((deferred = false ∧ reply = .ready out.1 ∧ Event.calls events = out.2.calls) ∨
        (deferred = true ∧ ∃ rest, reply = .pending rest ∧ Event.calls events = middle.calls ∧
          (∀ times ≤ out.2.stops, ∃ later,
            (rest.pollTimes times state).progress = .waiting later) ∧
          (rest.pollTimes (1 + out.2.stops) state).progress = .finished out.1 ∧
          Event.calls (events ++ (rest.pollTimes (1 + out.2.stops) state).events) =
            out.2.calls)) := by
  refine ⟨_, _, _, Reply.start_of_stops_eq_zero delivers.prompt, ?_⟩
  cases delivers with
  | ready value advances prompt =>
      refine .inl ⟨rfl, value, ?_⟩
      rw [advances.calls, fresh, List.nil_append]
  | @pending rest value advances prompt answers =>
      obtain ⟨waiting, last⟩ := answers.pollTimes still
      have made : middle.calls = Event.calls (task.complete before.state).events := by
        rw [advances.calls, fresh, List.nil_append]
      rw [advances.state]
      refine .inr ⟨rfl, rest, value, made.symm, waiting, by rw [last], ?_⟩
      rw [last, Event.calls_append, ← made, answers.toAdvances.calls]

/-- The discipline of a compiled chain. Invoking it gives a reply.

* The reply is ready exactly when a group in front of the first one that may
  stop raises a fault whose terminal is absent or may not stop, or when no such
  group raises and neither a group nor the terminal may stop.
* A ready reply holds the answer, and invoking the chain has called the functions
  of those groups up to a fault and of the terminal that answers.
* For a pending reply, invoking the chain has called the functions of those
  groups and no others. Polling it gives "not yet" until the last poll, whose
  number is one more than the sum of the stops of all functions that are called.
  Over all polls each call is made once. -/
theorem Compiler.suspension_of_compiled {directory : Directory σ} (registry : FaultRegistry)
    (unhandled : Response) {history : List (RoutePlan σ × Bool)}
    (listed : ∀ entry ∈ history, directory.ListsPlan entry.1) {plan : RoutePlan σ}
    (here : directory.ListsPlan plan) {parameterized : Bool} {chain : Chain σ}
    (compiled : (((new registry unhandled).after history).compile plan parameterized).1 = .ok chain)
    (params : Option Params) (state : σ) :
    let opening := Group.interpretAll plan.eagerGroups (.start params state)
    let whole := plan.interpret unhandled params state
    ∃ reply middle events, Reply.start (chain.invoke params) state = (reply, middle, events) ∧
      ((∃ response, reply = .ready response) ↔
        (∃ fault, opening.1 = some fault ∧
          ∀ entry ∈ plan.faults.entry? fault.id, entry.2.suspends = false) ∨
        (opening.1 = none ∧ plan.deferred = false ∧ plan.terminal.suspends = false)) ∧
      ((∃ response, reply = .ready response ∧
          whole = plan.conclude unhandled opening ∧ response = whole.1 ∧
          Event.calls events = whole.2.calls) ∨
        (∃ task, reply = .pending task ∧ Event.calls events = opening.2.calls ∧
          (∀ times ≤ whole.2.stops, ∃ rest,
            (task.pollTimes times middle).progress = .waiting rest) ∧
          (task.pollTimes (1 + whole.2.stops) middle).progress = .finished whole.1 ∧
          Event.calls (events ++ (task.pollTimes (1 + whole.2.stops) middle).events) =
            whole.2.calls)) := by
  intro opening whole
  have realizes := realizes_after listed here compiled
  have delivers := realizes.delivers_invoke params state
  have still : opening.2.stops = 0 := RoutePlan.stops_eagerGroups params state
  obtain ⟨reply, middle, events, start, shown⟩ := delivers.started rfl still
  refine ⟨reply, middle, events, start, ?_⟩
  rw [← RoutePlan.leavesPending_eq_false]
  rcases shown with ⟨now, rfl, calls⟩ | ⟨later, task, rfl, shown⟩
  · have decided := RoutePlan.interpret_of_ready now unhandled
    exact ⟨⟨fun _ => now, fun _ => ⟨_, rfl⟩⟩, .inl ⟨_, rfl, decided, rfl, calls⟩⟩
  · have stays : plan.leavesPending opening.1 ≠ false := by simp [opening, later]
    exact ⟨⟨nofun, fun now => absurd now stays⟩, .inr ⟨task, rfl, shown⟩⟩

/-- The first group of the sample is run when the chain is invoked; the gate stops
twice and the answer to its fault once, so the fourth poll is the last. -/
theorem Sample.plan_suspension : ∃ chain task middle events,
    (((Compiler.new registry unhandled).after history).compile plan false).1 = .ok chain ∧
    Reply.start (chain.invoke none) 7 = (.pending task, middle, events) ∧
    (Event.calls events).map Call.callback = [0, 1] ∧
    (∀ times ≤ 3, ∃ rest, (task.pollTimes times middle).progress = .waiting rest) ∧
    (task.pollTimes 4 middle).progress = .finished (plan.interpret unhandled none 7).1 ∧
    (Event.calls (events ++ (task.pollTimes 4 middle).events)).map Call.callback =
      [0, 1, 0, 2, 3] := by
  obtain ⟨chain, compiled⟩ : ∃ chain,
      (((Compiler.new registry unhandled).after history).compile plan false).1 = .ok chain :=
    ⟨_, rfl⟩
  obtain ⟨reply, middle, events, start, ready, shown⟩ := Compiler.suspension_of_compiled registry
    unhandled listsPlan_history listsPlan_plan compiled none 7
  have deferred : plan.deferred = true := rfl
  have unraised : (Group.interpretAll plan.eagerGroups (.start none 7)).1 = none := rfl
  have stops : (plan.interpret unhandled none 7).2.stops = 3 := rfl
  rcases shown with ⟨response, rfl, _⟩ | ⟨task, rfl, calls, waiting, last, all⟩
  · simp [deferred, unraised] at ready
  · rw [stops] at waiting last all
    refine ⟨chain, task, middle, events, compiled, start, ?_, waiting, last, ?_⟩
    · rw [calls]
      rfl
    · rw [all]
      rfl

end RouteTree
