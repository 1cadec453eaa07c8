import RouteTree.Proofs.Interpreter

/-!
# Running compiled code

Compiled calls, stages, endpoints and switches do on a frame what the plain
interpreter does on a walk. A frame is compared with a walk by the context that
a function would be given: the one it holds, or the one that allocating would
give it. Seen this way, allocating changes nothing, so it does not matter where
a route allocates its context.
-/

namespace RouteTree

open Http

variable {σ α β : Type}

namespace Frame

/-- The context that a function would be given on this frame. -/
def view (frame : Frame) : Context := frame.context.getD (.new frame.params)

@[simp] theorem view_new (params : Option Params) : (new params).view = .new params := rfl

@[simp] theorem view_withContext (frame : Frame) (context : Context) :
    (frame.withContext context).view = context := rfl

@[simp] theorem view_detach (frame : Frame) : frame.detach.view = .new none := rfl

@[simp] theorem view_allocate (frame : Frame) : frame.allocate.view = frame.view := by
  obtain ⟨params, _ | context⟩ := frame <;> rfl

theorem head_eq_view (frame : Frame) : frame.head = frame.view.head := by
  obtain ⟨params, _ | context⟩ := frame <;> rfl

end Frame

/-- Completing the task takes a walk from `before` to `after`: it leaves the
state of the later walk, and the calls it makes and the stops it takes are
those that were added to the earlier one. -/
structure Advances (task : Task Event σ α) (before after : Walk σ) : Prop where
  state : (task.complete before.state).state = after.state
  executions : ∃ made, after.executions = before.executions ++ made ∧
    Event.calls (task.complete before.state).events = made.map Execution.call ∧
    task.stops before.state = (made.map Execution.stops).sum

namespace Advances

theorem done (value : α) (walk : Walk σ) : Advances (.done value) walk walk :=
  ⟨rfl, [], by simp, rfl, rfl⟩

/-- An event that is no call may stand in front. -/
theorem emit {event : Event} {rest : Task Event σ α} {before after : Walk σ}
    (silent : event.call? = none) (h : Advances rest before after) :
    Advances (.emit event rest) before after := by
  obtain ⟨made, grown, calls, stops⟩ := h.executions
  refine ⟨h.state, made, grown, ?_, stops⟩
  simpa [Event.calls, silent] using calls

/-- A sequence takes the walk as far as its parts do. -/
theorem bind {task : Task Event σ α} {next : α → Task Event σ β} {before middle after : Walk σ}
    (first : Advances task before middle)
    (second : Advances (next (task.complete before.state).value) middle after) :
    Advances (task.bind next) before after := by
  obtain ⟨made, grown, calls, stops⟩ := first.executions
  obtain ⟨made', grown', calls', stops'⟩ := second.executions
  rw [← first.state] at calls' stops'
  refine ⟨?_, made ++ made', ?_, ?_, ?_⟩
  · rw [Task.complete_bind, ← second.state, ← first.state]
  · rw [grown', grown, List.append_assoc]
  · rw [Task.complete_bind, Event.calls_append, calls, calls', List.map_append]
  · rw [Task.stops_bind, stops, stops', List.map_append, List.sum_append]

theorem calls {task : Task Event σ α} {before after : Walk σ} (h : Advances task before after) :
    after.calls = before.calls ++ Event.calls (task.complete before.state).events := by
  obtain ⟨made, grown, calls, _⟩ := h.executions
  simp [Walk.calls, grown, calls]

/-- How far a task takes a walk does not depend on the context from which the
walk is said to start. -/
theorem of_turnTo {task : Task Event σ α} {before after : Walk σ} {terminal : Terminal σ}
    (h : Advances task (before.turnTo terminal) after) : Advances task before after :=
  ⟨h.state, h.executions⟩

theorem stops {task : Task Event σ α} {before after : Walk σ} (h : Advances task before after) :
    after.stops = before.stops + task.stops before.state := by
  obtain ⟨made, grown, _, stops⟩ := h.executions
  simp [Walk.stops, grown, stops]

end Advances

/-- On a frame whose context is that of the walk, the task gives the value of a
plain step and leaves a frame with the context of the walk after it. -/
structure Enacts (task : Task Event σ (α × Frame)) (walk : Walk σ) (out : α × Walk σ) : Prop
    extends Advances task walk out.2 where
  value : (task.complete walk.state).value.1 = out.1
  context : (task.complete walk.state).value.2.view = out.2.context

structure Answers (task : Task Event σ Response) (walk : Walk σ) (out : Response × Walk σ) : Prop
    extends Advances task walk out.2 where
  value : (task.complete walk.state).value = out.1

namespace Enacts

variable {task : Task Event σ (α × Frame)} {walk : Walk σ} {middle : α × Walk σ}

/-- The task ends with the value of the step, on some frame with its context. -/
theorem result (h : Enacts task walk middle) :
    ∃ frame : Frame, frame.view = middle.2.context ∧
      (task.complete walk.state).value = (middle.1, frame) :=
  ⟨_, h.context, Prod.ext h.value rfl⟩

/-- What follows may rely on the value and on the context in view, but on
nothing else of the frame. -/
theorem bind {next : α × Frame → Task Event σ (β × Frame)} {out : β × Walk σ}
    (first : Enacts task walk middle)
    (second : ∀ frame : Frame, frame.view = middle.2.context →
      Enacts (next (middle.1, frame)) middle.2 out) :
    Enacts (task.bind next) walk out := by
  obtain ⟨frame, same, value⟩ := first.result
  have rest := second frame same
  rw [← value] at rest
  refine ⟨first.toAdvances.bind rest.toAdvances, ?_, ?_⟩
  · simpa only [Task.complete_bind, first.state] using rest.value
  · simpa only [Task.complete_bind, first.state] using rest.context

theorem bindAnswer {next : α × Frame → Task Event σ Response} {out : Response × Walk σ}
    (first : Enacts task walk middle)
    (second : ∀ frame : Frame, frame.view = middle.2.context →
      Answers (next (middle.1, frame)) middle.2 out) :
    Answers (task.bind next) walk out := by
  obtain ⟨frame, same, value⟩ := first.result
  have rest := second frame same
  rw [← value] at rest
  refine ⟨first.toAdvances.bind rest.toAdvances, ?_⟩
  simpa only [Task.complete_bind, first.state] using rest.value

end Enacts

/-- Entering a function that may stop and seeing it through. -/
theorem Advances.call (made : Call) (task : Task Empty σ α) (next : α → β)
    {before after : Walk σ} (state : after.state = (task.complete before.state).state)
    (executions : after.executions = (before.enter made (task.stops before.state)).executions) :
    Advances (.emit (.call made) (task.ofSilent.bind fun out => .done (next out))) before
      after := by
  refine ⟨?_, [⟨made, task.stops before.state⟩], executions, ?_, ?_⟩
  · simp [Task.complete_bind, Task.complete_ofSilent, state]
  · simp [Task.complete_bind, Task.complete_ofSilent, Event.calls, Event.call?]
  · simp [Task.stops_bind]

theorem Callback.enacts_call (callback : Callback σ α) (payload : Option Json) {frame : Frame}
    {walk : Walk σ} (same : frame.view = walk.context) :
    Enacts (callback.call payload frame) walk (callback.perform payload walk) := by
  obtain ⟨id, body⟩ := callback
  obtain ⟨context, state, executions⟩ := walk
  subst same
  cases body with
  | plain run => exact ⟨⟨rfl, [⟨⟨id, payload, none⟩, 0⟩], rfl, rfl, rfl⟩, rfl, rfl⟩
  | contextual run =>
      obtain ⟨params, _ | held⟩ := frame
      · exact ⟨⟨rfl, [⟨⟨id, payload, some (.new params)⟩, 0⟩], rfl, rfl, rfl⟩, rfl, rfl⟩
      · exact ⟨⟨rfl, [⟨⟨id, payload, some held⟩, 0⟩], rfl, rfl, rfl⟩, rfl, rfl⟩
  | deferred run =>
      refine ⟨Advances.call _ _ _ rfl rfl, ?_, ?_⟩
      · simp [call, perform, Task.complete_bind, Task.complete_ofSilent]
      · simp [call, perform, Task.complete_bind, Walk.enter]
  | deferredContextual run =>
      obtain ⟨params, _ | held⟩ := frame
      · refine ⟨.emit rfl (Advances.call _ _ _ rfl rfl), ?_, ?_⟩
        · simp [call, perform, Frame.demand, Frame.view, Task.complete_bind,
            Task.complete_ofSilent]
        · simp [call, perform, Frame.demand, Frame.view, Task.complete_bind,
            Task.complete_ofSilent]
      · refine ⟨Advances.call _ _ _ rfl rfl, ?_, ?_⟩
        · simp [call, perform, Frame.demand, Frame.view, Task.complete_bind,
            Task.complete_ofSilent]
        · simp [call, perform, Frame.demand, Frame.view, Task.complete_bind,
            Task.complete_ofSilent]

namespace Op

theorem enacts_settle (op : Op σ) (value : Json) {frame : Frame} {walk : Walk σ}
    (same : frame.view = walk.context) :
    Enacts ((op.settle value frame).bind fun after => .done (Verdict.proceed, after)) walk
      (Verdict.proceed, walk.store op.target value) := by
  obtain ⟨callback, _ | location⟩ := op
  · exact ⟨.done _ _, rfl, same⟩
  · obtain ⟨context, state, executions⟩ := walk
    subst same
    obtain ⟨params, _ | held⟩ := frame
    · exact ⟨⟨rfl, [], by simp [Walk.store], rfl, rfl⟩, rfl, rfl⟩
    · exact ⟨⟨rfl, [], by simp [Walk.store], rfl, rfl⟩, rfl, rfl⟩

end Op

/-- What a route does after calls that ended with this fault, or with none. -/
def Verdict.after : Option Fault → Verdict
  | none => .proceed
  | some fault => .raise fault

namespace Op

theorem enacts_run (op : Op σ) {frame : Frame} {walk : Walk σ} (same : frame.view = walk.context) :
    Enacts (op.run frame) walk (.after (op.interpret walk).1, (op.interpret walk).2) := by
  have called := op.callback.enacts_call none same
  rw [interpret]
  generalize op.callback.perform none walk = out at called ⊢
  obtain ⟨fault | value, after⟩ := out
  · exact called.bind fun frame same => ⟨.emit rfl (.done _ _), rfl, same⟩
  · exact called.bind fun frame same => op.enacts_settle value same

theorem enacts_runAll (ops : List (Op σ)) {frame : Frame} {walk : Walk σ}
    (same : frame.view = walk.context) :
    Enacts (runAll ops frame) walk
      (.after (interpretAll ops walk).1, (interpretAll ops walk).2) := by
  induction ops generalizing frame walk with
  | nil => exact ⟨.done _ _, rfl, same⟩
  | cons op ops ih =>
      have first := op.enacts_run same
      rw [interpretAll]
      generalize op.interpret walk = out at first ⊢
      obtain ⟨_ | fault, after⟩ := out
      · exact first.bind fun frame same => ih same
      · exact first.bind fun frame same => ⟨.done _ _, rfl, same⟩

/-- Calls that may not stop run before the deferred scope as they do in it. -/
theorem runAllNow_eq_runAll {ops : List (Op σ)} (prompt : ∀ op ∈ ops, op.suspends = false)
    (frame : Frame) : runAllNow ops frame = runAll ops frame := by
  induction ops generalizing frame with
  | nil => rfl
  | cons op ops ih =>
      have here := prompt op List.mem_cons_self
      have later := ih fun other mem => prompt other (List.mem_cons_of_mem op mem)
      simp only [runAllNow, runAll, here, Bool.false_eq_true, if_false, later]

theorem stops_interpret {op : Op σ} (prompt : op.suspends = false) (walk : Walk σ) :
    (op.interpret walk).2.stops = walk.stops := by
  have added := op.callback.stops_perform prompt none walk
  rw [interpret]
  generalize op.callback.perform none walk = out at added ⊢
  obtain ⟨fault | value, after⟩ := out
  · exact added
  · exact (after.stops_store op.target value).trans added

theorem stops_interpretAll {ops : List (Op σ)} (prompt : ∀ op ∈ ops, op.suspends = false)
    (walk : Walk σ) : (interpretAll ops walk).2.stops = walk.stops := by
  induction ops generalizing walk with
  | nil => rfl
  | cons op ops ih =>
      have here := stops_interpret (prompt op List.mem_cons_self) walk
      have later := ih fun other mem => prompt other (List.mem_cons_of_mem op mem)
      rw [interpretAll]
      generalize op.interpret walk = out at here ⊢
      obtain ⟨_ | fault, after⟩ := out
      · exact (later after).trans here
      · exact here

end Op

namespace Stage

def ops : Stage σ → List (Op σ)
  | .allocate => []
  | .group fragment => fragment.ops

/-- Stages in a row do what interpreting their calls does. -/
theorem enacts_runAll (stages : List (Stage σ)) {frame : Frame} {walk : Walk σ}
    (same : frame.view = walk.context) :
    Enacts (runAll stages frame) walk
      (.after (Op.interpretAll (stages.flatMap ops) walk).1,
        (Op.interpretAll (stages.flatMap ops) walk).2) := by
  induction stages generalizing frame walk with
  | nil => exact ⟨.done _ _, rfl, same⟩
  | cons stage stages ih =>
      cases stage with
      | allocate =>
          have rest := ih (frame.view_allocate.trans same)
          exact ⟨.emit rfl rest.toAdvances, rest.value, rest.context⟩
      | group fragment =>
          have first := Op.enacts_runAll fragment.ops same
          simp only [List.flatMap_cons, ops, Op.interpretAll_append]
          generalize Op.interpretAll fragment.ops walk = out at first ⊢
          obtain ⟨_ | fault, after⟩ := out
          · exact first.bind fun frame same => ih same
          · exact first.bind fun frame same => ⟨.done _ _, rfl, same⟩

theorem stops_runAll {stages : List (Stage σ)}
    (prompt : ∀ op ∈ stages.flatMap ops, op.suspends = false) {frame : Frame} {walk : Walk σ}
    (same : frame.view = walk.context) : (runAll stages frame).stops walk.state = 0 := by
  have taken := (enacts_runAll stages same).toAdvances.stops
  have still := Op.stops_interpretAll prompt walk
  dsimp only at taken
  omega

/-- Stages whose calls may not stop run before the deferred scope as in it. -/
theorem runAllNow_eq_runAll {stages : List (Stage σ)}
    (prompt : ∀ op ∈ stages.flatMap ops, op.suspends = false) (frame : Frame) :
    runAllNow stages frame = runAll stages frame := by
  induction stages generalizing frame with
  | nil => rfl
  | cons stage stages ih =>
      simp only [List.flatMap_cons, List.mem_append] at prompt
      have later := ih fun op mem => prompt op (.inr mem)
      cases stage with
      | allocate => simp only [runAllNow, runAll, runNow, run, later]
      | group fragment =>
          have now : ∀ op ∈ fragment.ops, op.suspends = false := fun op mem => prompt op (.inl mem)
          have here := Op.runAllNow_eq_runAll now
          simp only [runAllNow, runAll, runNow, run, later, here]

end Stage

end RouteTree
