import RouteTree.Proofs.Compilation
import RouteTree.Session.Flight

/-!
# Compiled routes behave as their plans

Whatever a compiler has compiled before, the chain that it gives for a plan
answers every request as the plain interpretation of the plan does: with the
same response, after the same calls with the same arguments and contexts.
-/

namespace RouteTree

open Http

variable {σ : Type}

/-- Groups in front of the first one that may stop make no call that may. -/
theorem RoutePlan.prompt_eagerGroups (plan : RoutePlan σ) :
    ∀ op ∈ plan.eagerGroups.flatMap Group.ops, op.suspends = false := by
  intro op mem
  obtain ⟨group, early, inside⟩ := List.mem_flatMap.1 mem
  have prompt : group.traits.suspends = false := by
    simpa using List.all_eq_true.1 List.all_takeWhile group early
  rw [group.traits_eq, Handler.suspends_jointTraits group.sound, List.any_eq_false] at prompt
  simpa using prompt op inside

/-- Whether the reply is left pending, once the groups in front of the first
one that may stop have raised this fault or none. -/
def RoutePlan.leavesPending (plan : RoutePlan σ) : Option Fault → Bool
  | none => plan.deferred || plan.terminal.suspends
  | some fault => plan.faults.suspendsOn fault.id

namespace Chain.Realizes

variable {chain : Chain σ} {plan : RoutePlan σ} {unhandled : Response}

theorem stages (realizes : chain.Realizes plan unhandled) :
    chain.stages.flatMap Stage.ops = plan.groups.flatMap Group.ops := by
  rw [Chain.stages, List.flatMap_append, realizes.eager, realizes.scope, ← List.flatMap_append,
    RoutePlan.eagerGroups, RoutePlan.scopedGroups, List.takeWhile_append_dropWhile]

theorem delivers_invoke (realizes : chain.Realizes plan unhandled) (params : Option Params)
    (state : σ) :
    Delivers (chain.invoke params) (.start params state)
      (Group.interpretAll plan.eagerGroups (.start params state)).2
      (plan.interpret unhandled params state)
      (plan.leavesPending (Group.interpretAll plan.eagerGroups (.start params state)).1) := by
  have prompt : ∀ op ∈ chain.eager.flatMap Stage.ops, op.suspends = false := by
    rw [realizes.eager]
    exact plan.prompt_eagerGroups
  have delivers := Chain.delivers_invoke realizes.endpoint realizes.switch prompt params state
  rw [realizes.eager, realizes.stages, realizes.deferred, ← Group.interpretAll_eq_ops,
    ← Group.interpretAll_eq_ops] at delivers
  simp only [RoutePlan.leavesPending]
  exact delivers

end Chain.Realizes

namespace Reply

theorem start_of_stops_eq_zero {task : Task Event σ (Reply σ)} {state : σ}
    (prompt : task.stops state = 0) :
    start task state =
      ((task.complete state).value, (task.complete state).state, (task.complete state).events) := by
  simp only [start, Task.poll_of_stops_eq_zero prompt]

end Reply

/-- A request that is started and then polled until it is answered gets the
answer of the plain step that its task delivers, after the same calls. -/
theorem Delivers.served {task : Task Event σ (Reply σ)} {before middle : Walk σ}
    {out : Response × Walk σ} {deferred : Bool}
    (delivers : Delivers task before middle out deferred)
    (fresh : before.calls = []) :
    ∃ reply state events done, Reply.start task before.state = (reply, state, events) ∧
      reply.complete state = some done ∧ done.value = out.1 ∧ done.state = out.2.state ∧
      Event.calls (events ++ done.events) = out.2.calls := by
  cases delivers with
  | ready value advances prompt =>
      refine ⟨_, _, _, _, Reply.start_of_stops_eq_zero prompt, by rw [value]; rfl, rfl,
        advances.state, ?_⟩
      rw [advances.calls, fresh, List.append_nil, List.nil_append]
  | @pending rest value advances prompt answers =>
      refine ⟨_, _, _, _, Reply.start_of_stops_eq_zero prompt, by rw [value]; rfl, ?_, ?_, ?_⟩
      · rw [advances.state]
        exact answers.value
      · rw [advances.state]
        exact answers.state
      · rw [advances.state, Event.calls_append, answers.toAdvances.calls, advances.calls, fresh,
          List.nil_append]

/-- Compiling is correct. After any history of plans, with or without defects
and sharing groups and tables of faults in any way, a plan that compiles gives a
chain that serves every request as the plain interpretation of the plan: it
always answers, with the same response, it leaves the same state, and it makes
the same calls in the same order with the same payloads and contexts. The
directory says what the numbers of groups and tables stand for; groups that are
made one after the other have one, by `Directory.listsGroup_of_made`. -/
theorem Compiler.serves_as_interpreted {directory : Directory σ} (registry : FaultRegistry)
    (unhandled : Response) {history : List (RoutePlan σ × Bool)}
    (listed : ∀ entry ∈ history, directory.ListsPlan entry.1) {plan : RoutePlan σ}
    (here : directory.ListsPlan plan) {parameterized : Bool} {chain : Chain σ}
    (compiled : (((new registry unhandled).after history).compile plan parameterized).1 = .ok chain)
    (params : Option Params) (state : σ) :
    ∃ reply middle events done, Reply.start (chain.invoke params) state = (reply, middle, events) ∧
      reply.complete middle = some done ∧
      done.value = (plan.interpret unhandled params state).1 ∧
      done.state = (plan.interpret unhandled params state).2.state ∧
      Event.calls (events ++ done.events) = (plan.interpret unhandled params state).2.calls := by
  have realizes := realizes_after listed here compiled
  exact (realizes.delivers_invoke params state).served rfl

/-! ## A small tree

Three groups, of which two nest the first one and the last one may stop and
then fails; a table of faults, and one with a defect. The functions share a
count of visits. -/

namespace Sample

def visit : SoundHandler Nat :=
  .unchecked ⟨0, .plain fun _ count => (.null, count + 1)⟩ none

def greet : SoundHandler Nat :=
  .unchecked ⟨1, .contextual fun _ context count => ((.str "guest", context), count)⟩
    (some ⟨["session"], "user"⟩)

def refused : FaultKind := ⟨0, 0, true⟩

def guard : SoundHandler Nat :=
  .checked ⟨2, .deferred fun _ => .wait 2 (.done (.error (refused.raise (.str "closed"))))⟩ none

def visits : Group Nat := .ofHandlers 0 [visit]

def entrance : Group Nat := .ofHandlers 1 [.ofGroup visits, greet]

def gate : Group Nat := .ofHandlers 2 [.ofGroup visits, guard]

/-- Stop once, then answer with the payload of the fault. -/
def turnAway : Terminal Nat :=
  .function ⟨3, .deferredContextual fun payload context =>
    .wait 1 (.done ((payload.getD .null).plainText, context.setStatus .notFound))⟩

def faults : FaultTable Nat := ⟨0, [(refused, turnAway)]⟩

def doubled : FaultTable Nat := ⟨1, [(refused, turnAway), (refused, turnAway)]⟩

def welcome : Terminal Nat := .fixed { body := .str "welcome" }

/-- Both groups, of which only the second may stop. -/
def plan : RoutePlan Nat := ⟨[entrance, gate], welcome, faults⟩

def registry : FaultRegistry := ⟨0, 1⟩

def unhandled : Response := ⟨.internalError, .empty, ""⟩

/-- A plan that is rejected, and one that leaves groups and a table behind. -/
def history : List (RoutePlan Nat × Bool) :=
  [(⟨[entrance], welcome, doubled⟩, true), (⟨[gate, visits], turnAway, faults⟩, false)]

def directory : Directory Nat where
  groups id := (([visits, entrance, gate][id]?).map Group.handlers).getD []
  faults id := if id = 0 then faults.entries else doubled.entries

theorem made_groups : Group.Made [visits, entrance, gate] := by
  have first : Group.Made ([] ++ [visits]) :=
    .more .none [visit] (List.forall_mem_singleton.2 trivial)
  have second : Group.Made ([visits] ++ [entrance]) :=
    .more first [.ofGroup visits, greet] <| List.forall_mem_cons.2
      ⟨SoundHandler.uses_ofGroup (by simp), List.forall_mem_singleton.2 trivial⟩
  exact .more second [.ofGroup visits, guard] <| List.forall_mem_cons.2
    ⟨SoundHandler.uses_ofGroup (by simp), List.forall_mem_singleton.2 trivial⟩

/-- The directory lists whatever is put together from the groups and tables. -/
theorem listsPlan {groups : List (Group Nat)}
    (known : ∀ group ∈ groups, group ∈ [visits, entrance, gate]) (terminal : Terminal Nat)
    {table : FaultTable Nat} (listed : directory.faults table.id = table.entries) :
    directory.ListsPlan ⟨groups, terminal, table⟩ :=
  ⟨fun group mem => Directory.listsGroup_of_made made_groups List.prefix_rfl (fun _ => rfl) group
    (known group mem), listed⟩

theorem listsPlan_history : ∀ entry ∈ history, directory.ListsPlan entry.1 :=
  List.forall_mem_cons.2
    ⟨listsPlan (by simp) _ rfl, List.forall_mem_singleton.2 (listsPlan (by simp) _ rfl)⟩

theorem listsPlan_plan : directory.ListsPlan plan := listsPlan (by simp) _ rfl

end Sample

/-- The plan of the sample compiles after a rejected plan and one that shares
groups with it. Its request is answered for the fault of the gate, after the
calls that the plain interpretation makes. -/
theorem Sample.plan_served : ∃ chain,
    (((Compiler.new registry unhandled).after history).compile plan false).1 = .ok chain ∧
    ∃ reply middle events done, Reply.start (chain.invoke none) 7 = (reply, middle, events) ∧
      reply.complete middle = some done ∧
      done.value = (plan.interpret unhandled none 7).1 ∧
      done.state = (plan.interpret unhandled none 7).2.state ∧
      Event.calls (events ++ done.events) = (plan.interpret unhandled none 7).2.calls :=
  ⟨_, rfl, Compiler.serves_as_interpreted registry unhandled listsPlan_history listsPlan_plan rfl
    none 7⟩

end RouteTree
