import RouteTree.Task

/-!
# Runs of a task

Between two polls of a task others may change the shared state in any way. A run
is a number of polls, each on any state. What holds of every event that a task can
emit and of every value that it can end in holds along all its runs. Where the
order of events matters, a monitor reads them one by one and keeps what it has to
know of those that came before.
-/

namespace RouteTree

variable {ε σ α β φ : Type}

namespace Task

/-- After some polls, each on any state, the task has emitted these events and come
to this point. -/
inductive Runs (task : Task ε σ α) : List ε → Progress ε σ α → Prop
  | start : Runs task [] (.waiting task)
  | poll {events : List ε} {rest : Task ε σ α} (runs : Runs task events (.waiting rest))
      (state : σ) : Runs task (events ++ (rest.poll state).events) (rest.poll state).progress

/-- Whatever the task reads, each of its events is one of these and it ends in one of
these values. -/
def Always (emits : ε → Prop) (ends : α → Prop) : Task ε σ α → Prop
  | .done value => ends value
  | .wait _ rest => rest.Always emits ends
  | .emit event rest => emits event ∧ rest.Always emits ends
  | .read rest => ∀ state, (rest state).Always emits ends
  | .write _ rest => rest.Always emits ends

end Task

/-- What is left of a task that is always so is so. -/
def Progress.Meets (emits : ε → Prop) (ends : α → Prop) : Progress ε σ α → Prop
  | .finished value => ends value
  | .waiting rest => rest.Always emits ends

namespace Task.Always

variable {emits : ε → Prop} {ends : α → Prop} {task : Task ε σ α}

theorem mono {weaker : α → Prop} (always : task.Always emits ends)
    (implied : ∀ value, ends value → weaker value) : task.Always emits weaker := by
  induction task with
  | done value => exact implied value always
  | wait polls rest ih => exact ih always
  | emit event rest ih => exact ⟨always.1, ih always.2⟩
  | read rest ih => exact fun state => ih state (always state)
  | write state rest ih => exact ih always

/-- What goes on may rely on the values that the first part can end in. -/
theorem bind {next : α → Task ε σ β} {final : β → Prop} (first : task.Always emits ends)
    (second : ∀ value, ends value → (next value).Always emits final) :
    (task.bind next).Always emits final := by
  induction task with
  | done value => exact second value first
  | wait polls rest ih => exact ih first
  | emit event rest ih => exact ⟨first.1, ih first.2⟩
  | read rest ih => exact fun state => ih state (first state)
  | write state rest ih => exact ih first

theorem poll (always : task.Always emits ends) (state : σ) :
    (∀ event ∈ (task.poll state).events, emits event) ∧
      (task.poll state).progress.Meets emits ends := by
  induction task generalizing state with
  | done value => exact ⟨nofun, always⟩
  | wait polls rest ih =>
      cases polls with
      | zero => exact ih always state
      | succ polls => exact ⟨nofun, always⟩
  | emit event rest ih =>
      obtain ⟨later, meets⟩ := ih always.2 state
      exact ⟨List.forall_mem_cons.2 ⟨always.1, later⟩, meets⟩
  | read rest ih => exact ih state (always state) state
  | write next rest ih => exact ih always next

/-- Along a run such events only are emitted, and its end is so. -/
theorem runs (always : task.Always emits ends) {events : List ε} {progress : Progress ε σ α}
    (run : task.Runs events progress) :
    (∀ event ∈ events, emits event) ∧ progress.Meets emits ends := by
  induction run with
  | start => exact ⟨nofun, always⟩
  | poll run state ih =>
      obtain ⟨earlier, meets⟩ := ih
      obtain ⟨later, meets'⟩ := Always.poll meets state
      exact ⟨List.forall_mem_append.2 ⟨earlier, later⟩, meets'⟩

end Task.Always

namespace Task

variable {emits : ε → Prop}

theorem always_ofState (step : StateM σ α) :
    (ofState step : Task ε σ α).Always emits fun _ => True :=
  fun _ => trivial

theorem always_ofSilent (task : Task Empty σ α) :
    (task.ofSilent : Task ε σ α).Always emits fun _ => True := by
  induction task with
  | done value => trivial
  | wait polls rest ih => exact ih
  | emit event rest ih => exact event.elim
  | read rest ih => exact ih
  | write state rest ih => exact ih

end Task

/-! ## Monitors -/

/-- A machine that reads events and may refuse one. In some of its states it is at
rest. -/
structure Monitor (φ ε : Type) where
  next : φ → ε → Option φ
  rests : φ → Prop

/-- The state in which the monitor is after these events, if it refuses none. -/
def Monitor.reads (monitor : Monitor φ ε) (phase : φ) (events : List ε) : Option φ :=
  events.foldlM monitor.next phase

theorem Monitor.reads_append {monitor : Monitor φ ε} {phase middle after : φ}
    {first second : List ε} (here : monitor.reads phase first = some middle)
    (later : monitor.reads middle second = some after) :
    monitor.reads phase (first ++ second) = some after := by
  rw [reads] at here later ⊢
  rw [List.foldlM_append, here]
  exact later

namespace Task

/-- Whatever the task reads, the monitor follows it: it refuses none of the events,
is at rest where the task may stop, and fits the value at the end. -/
def Follows (monitor : Monitor φ ε) (ends : φ → α → Prop) : Task ε σ α → φ → Prop
  | .done value, phase => ends phase value
  | .wait _ rest, phase => monitor.rests phase ∧ rest.Follows monitor ends phase
  | .emit event rest, phase =>
    ∃ after, monitor.next phase event = some after ∧ rest.Follows monitor ends after
  | .read rest, phase => ∀ state, (rest state).Follows monitor ends phase
  | .write _ rest, phase => rest.Follows monitor ends phase

namespace Follows

variable {monitor : Monitor φ ε} {ends : φ → α → Prop} {task : Task ε σ α} {phase : φ}

theorem mono {weaker : φ → α → Prop} (follows : task.Follows monitor ends phase)
    (implied : ∀ after value, ends after value → weaker after value) :
    task.Follows monitor weaker phase := by
  induction task generalizing phase with
  | done value => exact implied phase value follows
  | wait polls rest ih => exact ⟨follows.1, ih follows.2⟩
  | emit event rest ih =>
      obtain ⟨after, reads, later⟩ := follows
      exact ⟨after, reads, ih later⟩
  | read rest ih => exact fun state => ih state (follows state)
  | write state rest ih => exact ih follows

/-- What goes on may rely on where the monitor is after the first part. -/
theorem bind {next : α → Task ε σ β} {final : φ → β → Prop}
    (first : task.Follows monitor ends phase)
    (second : ∀ after value, ends after value → (next value).Follows monitor final after) :
    (task.bind next).Follows monitor final phase := by
  induction task generalizing phase with
  | done value => exact second phase value first
  | wait polls rest ih => exact ⟨first.1, ih first.2⟩
  | emit event rest ih =>
      obtain ⟨after, reads, later⟩ := first
      exact ⟨after, reads, ih later⟩
  | read rest ih => exact fun state => ih state (first state)
  | write state rest ih => exact ih first

/-- Events that the monitor passes over leave it where it is. -/
theorem of_always {emits : ε → Prop} {values : α → Prop} (rests : monitor.rests phase)
    (ignored : ∀ event, emits event → monitor.next phase event = some phase)
    (always : task.Always emits values) :
    task.Follows monitor (fun after value => after = phase ∧ values value) phase := by
  induction task with
  | done value => exact ⟨rfl, always⟩
  | wait polls rest ih => exact ⟨rests, ih always⟩
  | emit event rest ih => exact ⟨phase, ignored event always.1, ih always.2⟩
  | read rest ih => exact fun state => ih state (always state)
  | write state rest ih => exact ih always

theorem poll (follows : task.Follows monitor ends phase) (state : σ) :
    ∃ after, monitor.reads phase (task.poll state).events = some after ∧
      match (task.poll state).progress with
      | .finished value => ends after value
      | .waiting rest => monitor.rests after ∧ rest.Follows monitor ends after := by
  induction task generalizing phase state with
  | done value => exact ⟨phase, rfl, follows⟩
  | wait polls rest ih =>
      cases polls with
      | zero => exact ih follows.2 state
      | succ polls => exact ⟨phase, rfl, follows.1, follows⟩
  | emit event rest ih =>
      obtain ⟨middle, here, later⟩ := follows
      obtain ⟨after, reads, left⟩ := ih later state
      refine ⟨after, ?_, left⟩
      simp only [Task.poll, Monitor.reads, List.foldlM_cons, here]
      exact reads
  | read rest ih => exact ih state (follows state) state
  | write next rest ih => exact ih follows next

/-- The monitor reads the events of a task that is completed. -/
theorem complete (follows : task.Follows monitor ends phase) (state : σ) :
    ∃ after, monitor.reads phase (task.complete state).events = some after ∧
      ends after (task.complete state).value := by
  induction task generalizing phase state with
  | done value => exact ⟨phase, rfl, follows⟩
  | wait polls rest ih => exact ih follows.2 state
  | emit event rest ih =>
      obtain ⟨middle, here, later⟩ := follows
      obtain ⟨after, reads, left⟩ := ih later state
      refine ⟨after, ?_, left⟩
      simp only [Task.complete, Monitor.reads, List.foldlM_cons, here]
      exact reads
  | read rest ih => exact ih state (follows state) state
  | write next rest ih => exact ih follows next

end Follows

end Task

end RouteTree
