/-!
# Tasks

A task is a computation that may stop and be resumed. It reads and writes a
shared state, emits events, and may answer "not yet", after which the next poll
continues where it stopped. Polling runs a task up to its next stop and leaves
the rest of it; completing a task polls it until it is done.
-/

namespace RouteTree

/-- A computation with events `ε` and shared state `σ` that ends in an `α`. -/
inductive Task (ε σ α : Type) : Type where
  | done (value : α)
  /-- Stop for this many polls, then go on with the rest. -/
  | wait (polls : Nat) (rest : Task ε σ α)
  | emit (event : ε) (rest : Task ε σ α)
  | read (rest : σ → Task ε σ α)
  | write (state : σ) (rest : Task ε σ α)

/-- What one poll leaves of a task. -/
inductive Progress (ε σ α : Type) : Type where
  | finished (value : α)
  | waiting (rest : Task ε σ α)

/-- The outcome of one poll, with the state and the events up to it. -/
structure Polled (ε σ α : Type) where
  progress : Progress ε σ α
  state : σ
  events : List ε

/-- The outcome of a task that was polled until it was done. -/
structure Completed (ε σ α : Type) where
  value : α
  state : σ
  events : List ε
  /-- How often the task was polled, the last time included. -/
  polls : Nat

namespace Task

variable {ε σ α β γ : Type}

/-- Go on with `next` once the task is done. -/
def bind : Task ε σ α → (α → Task ε σ β) → Task ε σ β
  | .done value, next => next value
  | .wait polls rest, next => .wait polls (rest.bind next)
  | .emit event rest, next => .emit event (rest.bind next)
  | .read rest, next => .read fun state => (rest state).bind next
  | .write state rest, next => .write state (rest.bind next)

instance : Monad (Task ε σ) where
  pure := .done
  bind := Task.bind

/-- Emit one event. -/
def tell (event : ε) : Task ε σ Unit := .emit event (.done ())

/-- Run a step on the shared state without stopping. -/
def ofState (step : StateM σ α) : Task ε σ α :=
  .read fun state => .write (step.run state).2 (.done (step.run state).1)

/-- Stop for this many polls. -/
def pause (polls : Nat) : Task ε σ Unit := .wait polls (.done ())

/-- A task that emits nothing, as one that may emit anything. -/
def ofSilent : Task Empty σ α → Task ε σ α
  | .done value => .done value
  | .wait polls rest => .wait polls rest.ofSilent
  | .emit event _ => event.elim
  | .read rest => .read fun state => (rest state).ofSilent
  | .write state rest => .write state rest.ofSilent

/-- Run up to the next stop. -/
def poll : Task ε σ α → σ → Polled ε σ α
  | .done value, state => ⟨.finished value, state, []⟩
  | .wait 0 rest, state => rest.poll state
  | .wait (polls + 1) rest, state => ⟨.waiting (.wait polls rest), state, []⟩
  | .emit event rest, state =>
    let polled := rest.poll state
    { polled with events := event :: polled.events }
  | .read rest, state => (rest state).poll state
  | .write state rest, _ => rest.poll state

/-- Poll until the task is done. -/
def complete : Task ε σ α → σ → Completed ε σ α
  | .done value, state => ⟨value, state, [], 1⟩
  | .wait polls rest, state =>
    let completed := rest.complete state
    { completed with polls := completed.polls + polls }
  | .emit event rest, state =>
    let completed := rest.complete state
    { completed with events := event :: completed.events }
  | .read rest, state => (rest state).complete state
  | .write state rest, _ => rest.complete state

@[simp] theorem pure_eq (value : α) : (pure value : Task ε σ α) = .done value := rfl

@[simp] theorem bind_eq (task : Task ε σ α) (next : α → Task ε σ β) :
    task >>= next = task.bind next := rfl

@[simp] theorem done_bind (value : α) (next : α → Task ε σ β) :
    (Task.done value).bind next = next value := rfl

@[simp] theorem wait_bind (polls : Nat) (rest : Task ε σ α) (next : α → Task ε σ β) :
    (Task.wait polls rest).bind next = .wait polls (rest.bind next) := rfl

@[simp] theorem emit_bind (event : ε) (rest : Task ε σ α) (next : α → Task ε σ β) :
    (Task.emit event rest).bind next = .emit event (rest.bind next) := rfl

@[simp] theorem read_bind (rest : σ → Task ε σ α) (next : α → Task ε σ β) :
    (Task.read rest).bind next = .read fun state => (rest state).bind next := rfl

@[simp] theorem write_bind (state : σ) (rest : Task ε σ α) (next : α → Task ε σ β) :
    (Task.write state rest).bind next = .write state (rest.bind next) := rfl

@[simp] theorem bind_done (task : Task ε σ α) : task.bind .done = task := by
  induction task with
  | done value => rfl
  | wait polls rest ih => simp [ih]
  | emit event rest ih => simp [ih]
  | read rest ih => simp [ih]
  | write state rest ih => simp [ih]

theorem bind_assoc (task : Task ε σ α) (first : α → Task ε σ β) (second : β → Task ε σ γ) :
    (task.bind first).bind second = task.bind fun value => (first value).bind second := by
  induction task with
  | done value => rfl
  | wait polls rest ih => simp [ih]
  | emit event rest ih => simp [ih]
  | read rest ih => simp [ih]
  | write state rest ih => simp [ih]

/-- Completing a sequence completes its first part and then its second. Both
parts share the poll at which the first one ends. -/
theorem complete_bind (task : Task ε σ α) (next : α → Task ε σ β) (state : σ) :
    (task.bind next).complete state =
      let first := task.complete state
      let second := (next first.value).complete first.state
      ⟨second.value, second.state, first.events ++ second.events,
        first.polls + second.polls - 1⟩ := by
  induction task generalizing state with
  | done value => simp [complete]
  | wait polls rest ih =>
    have polls_pos : 0 < (rest.complete state).polls := by
      clear ih
      induction rest generalizing state with
      | done value => simp [complete]
      | wait polls rest ih => simpa [complete] using Nat.add_pos_left (ih state) polls
      | emit event rest ih => simpa [complete] using ih state
      | read rest ih => simpa [complete] using ih state state
      | write next rest ih => simpa [complete] using ih next
    simp [complete, ih]
    omega
  | emit event rest ih => simp [complete, ih]
  | read rest ih => simp [complete, ih]
  | write state rest ih => simp [complete, ih]

end Task

end RouteTree
