import RouteTree.Program.Chain
import RouteTree.Proofs.Runs

/-!
# The frames of a request

A run of a chain shows its events but not the frame that goes through it. Here the
same run is written down with notes: each time the frame may have changed, the
frame stands between the events. Without the notes this is the run of `Chain.invoke`
and of the reply that it leaves, for every chain, so what the notes show are the
frames that the request has.

The notes begin with the frame that a request starts from. There is one after each
call and each store of a stage, one after an allocation, and one on either side of
the endpoint. A branch that answers a fault has a frame of its own and no notes.
-/

namespace RouteTree

open Http

variable {ε ν σ α β : Type}

/-! ## Notes -/

namespace Task

/-- The task without the notes. -/
def forget : Task (ε ⊕ ν) σ α → Task ε σ α
  | .done value => .done value
  | .wait polls rest => .wait polls rest.forget
  | .emit (.inl event) rest => .emit event rest.forget
  | .emit (.inr _) rest => rest.forget
  | .read rest => .read fun state => (rest state).forget
  | .write state rest => .write state rest.forget

/-- A task in which nothing is noted. -/
def unmarked : Task ε σ α → Task (ε ⊕ ν) σ α
  | .done value => .done value
  | .wait polls rest => .wait polls rest.unmarked
  | .emit event rest => .emit (.inl event) rest.unmarked
  | .read rest => .read fun state => (rest state).unmarked
  | .write state rest => .write state rest.unmarked

@[simp] theorem forget_done (value : α) :
    (Task.done value : Task (ε ⊕ ν) σ α).forget = .done value := rfl

@[simp] theorem forget_emit (event : ε) (rest : Task (ε ⊕ ν) σ α) :
    (Task.emit (.inl event) rest).forget = .emit event rest.forget := rfl

@[simp] theorem forget_note (note : ν) (rest : Task (ε ⊕ ν) σ α) :
    (Task.emit (.inr note) rest).forget = rest.forget := rfl

@[simp] theorem forget_bind (task : Task (ε ⊕ ν) σ α) (next : α → Task (ε ⊕ ν) σ β) :
    (task.bind next).forget = task.forget.bind fun value => (next value).forget := by
  induction task with
  | done value => rfl
  | wait polls rest ih => exact congrArg (Task.wait polls) ih
  | emit event rest ih =>
      cases event with
      | inl event => exact congrArg (Task.emit event) ih
      | inr note => exact ih
  | read rest ih => exact congrArg Task.read (funext ih)
  | write state rest ih => exact congrArg (Task.write state) ih

@[simp] theorem forget_unmarked (task : Task ε σ α) :
    (task.unmarked : Task (ε ⊕ ν) σ α).forget = task := by
  induction task with
  | done value => rfl
  | wait polls rest ih => exact congrArg (Task.wait polls) ih
  | emit event rest ih => exact congrArg (Task.emit event) ih
  | read rest ih => exact congrArg Task.read (funext ih)
  | write state rest ih => exact congrArg (Task.write state) ih

namespace Always

variable {emits : ε ⊕ ν → Prop} {ends : α → Prop}

theorem forget {task : Task (ε ⊕ ν) σ α} (always : task.Always emits ends) :
    task.forget.Always (fun event => emits (.inl event)) ends := by
  induction task with
  | done value => exact always
  | wait polls rest ih => exact ih always
  | emit event rest ih =>
      cases event with
      | inl event => exact ⟨always.1, ih always.2⟩
      | inr note => exact ih always.2
  | read rest ih => exact fun state => ih state (always state)
  | write state rest ih => exact ih always

variable (emits) in
theorem unmarked {task : Task ε σ α}
    (always : task.Always (fun event => emits (.inl event)) ends) :
    task.unmarked.Always emits ends := by
  induction task with
  | done value => exact always
  | wait polls rest ih => exact ih always
  | emit event rest ih => exact ⟨always.1, ih always.2⟩
  | read rest ih => exact fun state => ih state (always state)
  | write state rest ih => exact ih always

end Always

end Task

/-- What a run with notes shows: an event, or the frame between two events. -/
abbrev Noted := Event ⊕ Frame

/-! ## Stages -/

namespace Verdict

/-- Go on with a frame, unless a fault was raised. -/
def goOn (next : Frame → Task ε σ (Verdict × Frame)) (out : Verdict × Frame) :
    Task ε σ (Verdict × Frame) :=
  match out.1 with
  | .proceed => next out.2
  | verdict => .done (verdict, out.2)

@[simp] theorem forget_goOn (next : Frame → Task (ε ⊕ ν) σ (Verdict × Frame))
    (out : Verdict × Frame) :
    (goOn next out).forget = goOn (fun frame => (next frame).forget) out := by
  obtain ⟨verdict, frame⟩ := out
  cases verdict <;> rfl

end Verdict

namespace Op

/-- Call the function and settle its value, with the frame after either. -/
def watch (op : Op σ) (frame : Frame) : Task Noted σ (Verdict × Frame) :=
  (op.callback.call none frame).unmarked.bind fun out =>
    .emit (.inr out.2) <|
      match out.1 with
      | .ok value =>
        (op.settle value out.2).unmarked.bind fun frame =>
          .emit (.inr frame) (.done (.proceed, frame))
      | .error fault => .emit (.inl (.raised fault.id)) (.done (.raise fault, out.2))

/-- Calls in order until one raises. Before the deferred scope, which is `now`, none may
stop. -/
def watchAll (now : Bool) : List (Op σ) → Frame → Task Noted σ (Verdict × Frame)
  | [], frame => .done (.proceed, frame)
  | op :: ops, frame =>
    if now && op.suspends then .done (.misplaced, frame)
    else (op.watch frame).bind (Verdict.goOn (watchAll now ops))

theorem forget_watch (op : Op σ) (frame : Frame) : (op.watch frame).forget = op.run frame := by
  simp only [watch, run, Task.forget_bind, Task.forget_unmarked]
  congr 1
  funext out
  obtain ⟨result, after⟩ := out
  cases result with
  | error fault => rfl
  | ok value => simp

theorem runAllNow_cons (op : Op σ) (ops : List (Op σ)) (frame : Frame) :
    runAllNow (op :: ops) frame =
      if op.suspends then .done (.misplaced, frame)
      else (op.run frame).bind (Verdict.goOn (runAllNow ops)) := rfl

theorem forget_watchAll (now : Bool) (ops : List (Op σ)) (frame : Frame) :
    (watchAll now ops frame).forget = bif now then runAllNow ops frame else runAll ops frame := by
  induction ops generalizing frame with
  | nil => cases now <;> rfl
  | cons op ops ih =>
      have calls : ((op.watch frame).bind (Verdict.goOn (watchAll now ops))).forget =
          (op.run frame).bind
            (Verdict.goOn fun frame => bif now then runAllNow ops frame else runAll ops frame) := by
        simp only [Task.forget_bind, forget_watch, Verdict.forget_goOn, ih]
      rw [watchAll]
      cases now with
      | false => exact calls
      | true =>
          rw [runAllNow_cons, Bool.true_and]
          cases op.suspends with
          | false => exact calls
          | true => rfl

end Op

namespace Stage

def watch (now : Bool) (stage : Stage σ) (frame : Frame) : Task Noted σ (Verdict × Frame) :=
  match stage with
  | .allocate =>
    .emit (.inl (.allocated false)) (.emit (.inr frame.allocate) (.done (.proceed, frame.allocate)))
  | .group fragment => Op.watchAll now fragment.ops frame

def watchAll (now : Bool) : List (Stage σ) → Frame → Task Noted σ (Verdict × Frame)
  | [], frame => .done (.proceed, frame)
  | stage :: stages, frame => (stage.watch now frame).bind (Verdict.goOn (watchAll now stages))

theorem forget_watch (now : Bool) (stage : Stage σ) (frame : Frame) :
    (stage.watch now frame).forget = bif now then stage.runNow frame else stage.run frame := by
  cases stage with
  | allocate => cases now <;> rfl
  | group fragment => exact Op.forget_watchAll now fragment.ops frame

theorem forget_watchAll (now : Bool) (stages : List (Stage σ)) (frame : Frame) :
    (watchAll now stages frame).forget =
      bif now then runAllNow stages frame else runAll stages frame := by
  induction stages generalizing frame with
  | nil => cases now <;> rfl
  | cons stage stages ih =>
      simp only [watchAll, Task.forget_bind, forget_watch, Verdict.forget_goOn, ih]
      cases now <;> rfl

end Stage

/-! ## Answers -/

/-- A reply whose pending task has notes. -/
inductive WatchedReply (σ : Type) : Type where
  | ready (response : Response)
  | pending (task : Task Noted σ Response)
  | aborted

namespace WatchedReply

def forget : WatchedReply σ → Reply σ
  | .ready response => .ready response
  | .pending task => .pending task.forget
  | .aborted => .aborted

def unmarked : Reply σ → WatchedReply σ
  | .ready response => .ready response
  | .pending task => .pending task.unmarked
  | .aborted => .aborted

theorem forget_unmarked (reply : Reply σ) : (unmarked reply).forget = reply := by
  cases reply with
  | ready response => rfl
  | pending task => exact congrArg Reply.pending task.forget_unmarked
  | aborted => rfl

end WatchedReply

/-- A task that leaves a reply, without the notes of either. -/
def Task.forgetReply (task : Task Noted σ (WatchedReply σ)) : Task Event σ (Reply σ) :=
  task.forget.bind fun reply => .done reply.forget

namespace Endpoint

/-- Answer on a frame, with the frame before and once the function has returned. -/
def watch (endpoint : Endpoint σ) (frame : Frame) : Task Noted σ Response :=
  .emit (.inr frame) <|
    match endpoint with
    | .function callback =>
      (callback.call none frame).unmarked.bind fun out =>
        .emit (.inr out.2) (.done (out.2.head.respond out.1))
    | .formatted callback encoder unhandled =>
      (callback.call none frame).unmarked.bind fun out =>
        .emit (.inr out.2) <|
          match out.1 with
          | .ok value =>
            .done (out.2.head.respondJson (encoder.encode out.2.head.status value))
          | .error reason => .emit (.inl (.log (.outputUnencodable reason))) (.done unhandled)
    | .fixed response => .done response

def watchCall (endpoint : Endpoint σ) (frame : Frame) : Task Noted σ (WatchedReply σ) :=
  if endpoint.suspends then .done (.pending (endpoint.watch frame))
  else (endpoint.watch frame).bind fun response => .done (.ready response)

theorem forget_watch (endpoint : Endpoint σ) (frame : Frame) :
    (endpoint.watch frame).forget = endpoint.respond none frame := by
  cases endpoint with
  | function callback => simp [watch, respond]
  | formatted callback encoder unhandled =>
      simp only [watch, respond, Task.forget_note, Task.forget_bind, Task.forget_unmarked]
      congr 1
      funext out
      obtain ⟨result, after⟩ := out
      cases result <;> rfl
  | fixed response => rfl

theorem forget_watchCall (endpoint : Endpoint σ) (frame : Frame) :
    (endpoint.watchCall frame).forgetReply = endpoint.call none frame := by
  rw [watchCall, call, ← forget_watch]
  cases endpoint.suspends with
  | true => rfl
  | false => simp [Task.forgetReply, Task.bind_assoc, WatchedReply.forget]

end Endpoint

/-! ## Chains -/

namespace Chain

/-- Run the deferred scope and answer, with the frames up to the answer. -/
def watchScope (chain : Chain σ) (stages : List (Stage σ)) (frame : Frame) :
    Task Noted σ Response :=
  (Stage.watchAll false stages frame).bind fun out =>
    match out.1 with
    | .proceed => chain.endpoint.watch out.2
    | .raise fault => (chain.switch.dispatchInScope fault out.2).unmarked
    | .misplaced => .done chain.switch.unhandled

/-- Run the route for one request, with the frames up to the answer. -/
def watch (chain : Chain σ) (params : Option Params) : Task Noted σ (WatchedReply σ) :=
  .emit (.inr (.new params)) <|
    (Stage.watchAll true chain.eager (.new params)).bind fun out =>
      match out.1 with
      | .raise fault =>
        (chain.switch.dispatch fault out.2).unmarked.bind fun reply => .done (.unmarked reply)
      | .misplaced => .done .aborted
      | .proceed =>
        match chain.scope with
        | none => chain.endpoint.watchCall out.2
        | some stages => .done (.pending (chain.watchScope stages out.2))

theorem forget_watchScope (chain : Chain σ) (stages : List (Stage σ)) (frame : Frame) :
    (chain.watchScope stages frame).forget = chain.runScope stages frame := by
  rw [watchScope, runScope, Task.forget_bind, Stage.forget_watchAll, cond_false]
  congr 1
  funext out
  obtain ⟨verdict, after⟩ := out
  cases verdict with
  | proceed => exact chain.endpoint.forget_watch after
  | raise fault => exact Task.forget_unmarked _
  | misplaced => rfl

/-- The run with notes is the run of the chain, whatever the chain. -/
theorem forget_watch (chain : Chain σ) (params : Option Params) :
    (chain.watch params).forgetReply = chain.invoke params := by
  rw [watch, invoke, Task.forgetReply, Task.forget_note, Task.forget_bind, Stage.forget_watchAll,
    cond_true, Task.bind_assoc]
  congr 1
  funext out
  obtain ⟨verdict, after⟩ := out
  cases verdict with
  | raise fault => simp [Task.bind_assoc, WatchedReply.forget_unmarked]
  | misplaced => rfl
  | proceed =>
      cases scope : chain.scope with
      | none => exact chain.endpoint.forget_watchCall after
      | some stages =>
          have same := chain.forget_watchScope stages after
          simp only [Task.forget_done, Task.done_bind, WatchedReply.forget, same]

end Chain

end RouteTree
