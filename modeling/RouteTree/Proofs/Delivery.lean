import RouteTree.Proofs.Enactment

/-!
# Answering a request

A chain whose endpoint and switch are those of a plan answers as the plan does,
once its stages are through. The answer is either ready when the chain is
invoked or left pending; a pending one has not been started.
-/

namespace RouteTree

open Http

variable {σ α : Type}

namespace Terminal

def endpoint (terminal : Terminal σ) (unhandled : Response) : Endpoint σ :=
  match terminal with
  | .function callback => .function callback
  | .formatted callback encoder => .formatted callback encoder unhandled
  | .fixed page => .fixed page.response

@[simp] theorem suspends_endpoint (terminal : Terminal σ) (unhandled : Response) :
    (terminal.endpoint unhandled).suspends = terminal.suspends := by
  cases terminal <;> rfl

theorem answers_respond (terminal : Terminal σ) (unhandled : Response) (payload : Option Json)
    {frame : Frame} {walk : Walk σ} (same : frame.view = walk.context) :
    Answers ((terminal.endpoint unhandled).respond payload frame) walk
      (terminal.interpret unhandled payload walk) := by
  cases terminal with
  | function callback =>
      refine (callback.enacts_call payload same).bindAnswer fun frame same => ⟨.done _ _, ?_⟩
      simp only [Task.complete_done, interpret, frame.head_eq_view, same]
  | formatted callback encoder =>
      have called := callback.enacts_call payload same
      simp only [interpret]
      generalize callback.perform payload walk = out at called ⊢
      obtain ⟨reason | value, after⟩ := out
      · exact called.bindAnswer fun frame same => ⟨.emit rfl (.done _ _), rfl⟩
      · refine called.bindAnswer fun frame same => ⟨.done _ _, ?_⟩
        simp only [Task.complete_done, frame.head_eq_view, same]
  | fixed page => exact ⟨.done _ _, rfl⟩

theorem stops_interpret {terminal : Terminal σ} (prompt : terminal.suspends = false)
    (unhandled : Response) (payload : Option Json) (walk : Walk σ) :
    (terminal.interpret unhandled payload walk).2.stops = walk.stops := by
  cases terminal with
  | function callback => exact callback.stops_perform prompt payload walk
  | formatted callback encoder =>
      have called := callback.stops_perform prompt payload walk
      simp only [interpret]
      generalize callback.perform payload walk = out at called ⊢
      obtain ⟨reason | value, after⟩ := out
      · exact called
      · exact called
  | fixed page => rfl

end Terminal

namespace FaultTable

def branch (unhandled : Response) (entry : FaultKind × Terminal σ) : Nat × Branch σ :=
  (entry.1.id, ⟨entry.2.endpoint unhandled, entry.1.dynamic, entry.2.needsContext⟩)

def switch (table : FaultTable σ) (unhandled : Response) : FaultSwitch σ :=
  ⟨.ofList (table.entries.map (branch unhandled)), unhandled⟩

/-- Whether the answer to a fault of this number may stop. A fault that the
table does not bind is answered at once. -/
def suspendsOn (table : FaultTable σ) (id : Nat) : Bool :=
  match table.entry? id with
  | some (_, terminal) => terminal.suspends
  | none => false

/-- A switch finds the branch of the entry that the table binds to a number. -/
theorem find?_switch (table : FaultTable σ) (unhandled : Response) (id : Nat) :
    (table.switch unhandled).cases.find? id =
      (table.entry? id).map fun entry => (branch unhandled entry).2 := by
  simp only [switch, Cases.find?_ofList, List.find?_map, Option.map_map, entry?]
  rfl

end FaultTable

/-- A task that gives a reply does what a plain answer does. A reply that is
ready holds the response of the answer, whose calls have been made. A reply
that is pending has made only the calls up to `middle`, and its task makes the
others. Either way the task itself does not stop. -/
inductive Delivers (task : Task Event σ (Reply σ)) (before middle : Walk σ)
    (out : Response × Walk σ) : Bool → Prop
  | ready (value : (task.complete before.state).value = .ready out.1)
      (advances : Advances task before out.2) (prompt : task.stops before.state = 0) :
      Delivers task before middle out false
  | pending {rest : Task Event σ Response}
      (value : (task.complete before.state).value = .pending rest)
      (advances : Advances task before middle) (prompt : task.stops before.state = 0)
      (answers : Answers rest middle out) :
      Delivers task before middle out true

namespace Delivers

theorem prompt {task : Task Event σ (Reply σ)} {before middle : Walk σ} {out : Response × Walk σ}
    {deferred : Bool} (h : Delivers task before middle out deferred) :
    task.stops before.state = 0 := by
  cases h <;> assumption

/-- What goes before a reply is made before it, if it does not stop. -/
theorem bind {task : Task Event σ α} {next : α → Task Event σ (Reply σ)}
    {before start middle : Walk σ} {out : Response × Walk σ} {deferred : Bool}
    (first : Advances task before start) (prompt : task.stops before.state = 0)
    (second : Delivers (next (task.complete before.state).value) start middle out deferred) :
    Delivers (task.bind next) before middle out deferred := by
  have value : ((task.bind next).complete before.state).value =
      ((next (task.complete before.state).value).complete start.state).value := by
    rw [Task.complete_bind, ← first.state]
  have still : (task.bind next).stops before.state =
      (next (task.complete before.state).value).stops start.state := by
    rw [Task.stops_bind, prompt, Nat.zero_add, first.state]
  cases second with
  | ready value' advances prompt' =>
      exact .ready (value.trans value') (first.bind advances) (still.trans prompt')
  | pending value' advances prompt' answers =>
      exact .pending (value.trans value') (first.bind advances) (still.trans prompt') answers

/-- A reply does not depend on the context from which the walk is said to start. -/
theorem of_turnTo {task : Task Event σ (Reply σ)} {walk : Walk σ} {terminal : Terminal σ}
    {out : Response × Walk σ} {deferred : Bool}
    (h : Delivers task (walk.turnTo terminal) (walk.turnTo terminal) out deferred) :
    Delivers task walk walk out deferred := by
  cases h with
  | ready value advances prompt => exact .ready value advances.of_turnTo prompt
  | pending value advances prompt answers =>
      exact .pending value ⟨advances.state, advances.executions⟩ prompt
        ⟨answers.toAdvances.of_turnTo, answers.value⟩

end Delivers

/-- An endpoint that may not stop is ready, and any other is left pending. -/
theorem Terminal.delivers_call (terminal : Terminal σ) (unhandled : Response)
    (payload : Option Json) {frame : Frame} {walk : Walk σ} (same : frame.view = walk.context) :
    Delivers ((terminal.endpoint unhandled).call payload frame) walk walk
      (terminal.interpret unhandled payload walk) terminal.suspends := by
  have answers := terminal.answers_respond unhandled payload same
  rw [Endpoint.call]
  rw [terminal.suspends_endpoint unhandled]
  cases suspends : terminal.suspends with
  | true => exact .pending rfl (.done _ _) rfl answers
  | false =>
      refine .ready ?_ (answers.toAdvances.bind (.done _ _)) ?_
      · simpa [Task.complete_bind] using answers.value
      · have still := answers.toAdvances.stops
        rw [terminal.stops_interpret suspends] at still
        simp only [Bool.false_eq_true, if_false, Task.stops_bind, Task.stops_done]
        omega

namespace FaultTable

variable (table : FaultTable σ) (unhandled : Response)

/-- The frame on which a branch answers has the context that a plain answer
starts from. -/
theorem view_prepare (entry : FaultKind × Terminal σ) {frame : Frame} {walk : Walk σ}
    (same : frame.view = walk.context) :
    ((branch unhandled entry).2.prepare frame).view = (walk.turnTo entry.2).context := by
  by_cases reads : entry.2.needsContext = true
  · simp [branch, Branch.prepare, Walk.turnTo, reads]
  · simp [branch, Branch.prepare, Walk.turnTo, reads, same]

/-- A fault raised in the deferred scope is answered as the table says. -/
theorem answers_dispatchInScope (fault : Fault) {frame : Frame} {walk : Walk σ}
    (same : frame.view = walk.context) :
    Answers ((table.switch unhandled).dispatchInScope fault frame) walk
      (table.interpret unhandled fault walk) := by
  rw [FaultSwitch.dispatchInScope, FaultSwitch.select, interpret]
  rw [table.find?_switch unhandled]
  cases table.entry? fault.id with
  | none => exact ⟨.emit rfl (.emit rfl (.done _ _)), rfl⟩
  | some entry =>
      have answers := entry.2.answers_respond unhandled
        ((branch unhandled entry).2.payload fault) (view_prepare unhandled entry same)
      exact ⟨.emit rfl answers.toAdvances.of_turnTo, answers.value⟩

/-- A fault raised before the deferred scope is answered as the table says. -/
theorem delivers_dispatch (fault : Fault) {frame : Frame} {walk : Walk σ}
    (same : frame.view = walk.context) :
    Delivers ((table.switch unhandled).dispatch fault frame) walk walk
      (table.interpret unhandled fault walk) (table.suspendsOn fault.id) := by
  rw [FaultSwitch.dispatch, FaultSwitch.select, interpret, suspendsOn]
  rw [table.find?_switch unhandled]
  cases table.entry? fault.id with
  | none => exact .ready rfl (.emit rfl (.emit rfl (.done _ _))) rfl
  | some entry =>
      have call := entry.2.delivers_call unhandled
        ((branch unhandled entry).2.payload fault) (view_prepare unhandled entry same)
      exact .bind (.emit rfl (.done _ walk)) rfl call.of_turnTo

end FaultTable

namespace Chain

variable {chain : Chain σ} {plan : RoutePlan σ} {unhandled : Response}

/-- The deferred scope answers as the plan does with the calls of the scope. -/
theorem answers_runScope (endpoint : chain.endpoint = plan.terminal.endpoint unhandled)
    (switch : chain.switch = plan.faults.switch unhandled) (stages : List (Stage σ))
    {frame : Frame} {walk : Walk σ} (same : frame.view = walk.context) :
    Answers (chain.runScope stages frame) walk
      (plan.conclude unhandled (Op.interpretAll (stages.flatMap Stage.ops) walk)) := by
  have groups := Stage.enacts_runAll stages same
  generalize Op.interpretAll (stages.flatMap Stage.ops) walk = out at groups ⊢
  obtain ⟨_ | fault, after⟩ := out
  · refine groups.bindAnswer fun frame same => ?_
    simp only [Verdict.after, endpoint]
    exact plan.terminal.answers_respond unhandled none same
  · refine groups.bindAnswer fun frame same => ?_
    simp only [Verdict.after, switch]
    exact plan.faults.answers_dispatchInScope unhandled fault same

/-- Invoking a chain whose first calls may not stop makes those calls. It then
answers at once, unless a deferred scope is left or the answer may stop. -/
theorem delivers_invoke (endpoint : chain.endpoint = plan.terminal.endpoint unhandled)
    (switch : chain.switch = plan.faults.switch unhandled)
    (prompt : ∀ op ∈ chain.eager.flatMap Stage.ops, op.suspends = false)
    (params : Option Params) (state : σ) :
    Delivers (chain.invoke params) (.start params state)
      (Op.interpretAll (chain.eager.flatMap Stage.ops) (.start params state)).2
      (plan.conclude unhandled
        (Op.interpretAll (chain.stages.flatMap Stage.ops) (.start params state)))
      (match (Op.interpretAll (chain.eager.flatMap Stage.ops) (.start params state)).1 with
      | none => chain.deferred || plan.terminal.suspends
      | some fault => plan.faults.suspendsOn fault.id) := by
  have split : chain.stages.flatMap Stage.ops =
      chain.eager.flatMap Stage.ops ++ (chain.scope.getD []).flatMap Stage.ops := by
    simp [stages]
  have begun : (Frame.new params).view = (Walk.start params state).context := rfl
  have groups := Stage.enacts_runAll chain.eager begun
  rw [invoke]
  rw [split, Op.interpretAll_append, Stage.runAllNow_eq_runAll prompt]
  refine .bind groups.toAdvances (Stage.stops_runAll prompt begun) ?_
  obtain ⟨frame, same, value⟩ := groups.result
  rw [value]
  generalize Op.interpretAll (chain.eager.flatMap Stage.ops) (.start params state) = opening
    at same ⊢
  obtain ⟨_ | fault, walk⟩ := opening
  · simp only [Verdict.after, deferred]
    cases scope : chain.scope with
    | none =>
        simp only [endpoint]
        exact plan.terminal.delivers_call unhandled none same
    | some stages =>
        exact .pending rfl (.done _ _) rfl (answers_runScope endpoint switch stages same)
  · simp only [Verdict.after, switch]
    exact plan.faults.delivers_dispatch unhandled fault same

end Chain

end RouteTree
