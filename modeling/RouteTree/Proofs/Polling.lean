import RouteTree.Task

/-!
# Polling a task to its end

Completing a task is polling it again and again, with the state as the former
poll left it. A task answers "not yet" as often as it stops, and ends at the
poll after that; what it emits over all polls together is what completing it
emits. A task that never stops ends at its first poll.
-/

namespace RouteTree.Task

variable {ε σ α β : Type}

/-- How often the task answers "not yet" before it is done. -/
def stops : Task ε σ α → σ → Nat
  | .done _, _ => 0
  | .wait polls rest, state => polls + rest.stops state
  | .emit _ rest, state => rest.stops state
  | .read rest, state => (rest state).stops state
  | .write state rest, _ => rest.stops state

def pollTimes : Nat → Task ε σ α → σ → Polled ε σ α
  | 0, task, state => ⟨.waiting task, state, []⟩
  | times + 1, task, state =>
    let polled := task.poll state
    match polled.progress with
    | .finished _ => polled
    | .waiting rest =>
      let later := pollTimes times rest polled.state
      { later with events := polled.events ++ later.events }

@[simp] theorem stops_done (value : α) (state : σ) :
    (done value : Task ε σ α).stops state = 0 := rfl

@[simp] theorem stops_emit (event : ε) (rest : Task ε σ α) (state : σ) :
    (emit event rest).stops state = rest.stops state := rfl

@[simp] theorem complete_done (value : α) (state : σ) :
    (done value : Task ε σ α).complete state = ⟨value, state, [], 1⟩ := rfl

@[simp] theorem complete_emit (event : ε) (rest : Task ε σ α) (state : σ) :
    (emit event rest).complete state =
      { rest.complete state with events := event :: (rest.complete state).events } := rfl

/-- A task ends at the poll after its last stop. -/
theorem polls_complete (task : Task ε σ α) (state : σ) :
    (task.complete state).polls = task.stops state + 1 := by
  induction task generalizing state with
  | done value => rfl
  | wait polls rest ih =>
      simp only [complete, stops, ih]
      omega
  | emit event rest ih => exact ih state
  | read rest ih => exact ih state state
  | write next rest ih => exact ih next

theorem stops_bind (task : Task ε σ α) (next : α → Task ε σ β) (state : σ) :
    (task.bind next).stops state =
      task.stops state + (next (task.complete state).value).stops (task.complete state).state := by
  induction task generalizing state with
  | done value => simp
  | wait polls rest ih => simp only [wait_bind, stops, complete, ih, Nat.add_assoc]
  | emit event rest ih => exact ih state
  | read rest ih => exact ih state state
  | write next rest ih => exact ih next

/-- The first poll, and then completing what it leaves, is completing the task. -/
theorem complete_eq_poll (task : Task ε σ α) (state : σ) :
    task.complete state =
      match (task.poll state).progress with
      | .finished value => ⟨value, (task.poll state).state, (task.poll state).events, 1⟩
      | .waiting rest =>
        let later := rest.complete (task.poll state).state
        ⟨later.value, later.state, (task.poll state).events ++ later.events, later.polls + 1⟩ := by
  induction task generalizing state with
  | done value => rfl
  | wait polls rest ih =>
      cases polls with
      | zero => exact ih state
      | succ polls => simp [poll, complete, Nat.add_assoc]
  | emit event rest ih =>
      simp only [complete, poll, ih state]
      cases (rest.poll state).progress <;> rfl
  | read rest ih => exact ih state state
  | write next rest ih => exact ih next

theorem poll_of_stops_eq_zero {task : Task ε σ α} {state : σ} (prompt : task.stops state = 0) :
    task.poll state = ⟨.finished (task.complete state).value, (task.complete state).state,
      (task.complete state).events⟩ := by
  have once : (task.complete state).polls = 1 := by rw [polls_complete, prompt]
  have unfolded := complete_eq_poll task state
  cases h : task.poll state with
  | mk progress after events =>
      rw [h] at unfolded
      cases progress with
      | finished value => rw [unfolded]
      | waiting rest =>
          have later := polls_complete rest after
          rw [unfolded] at once
          simp only at once
          omega

/-- Before its last poll a task is still waiting. -/
theorem pollTimes_of_lt (task : Task ε σ α) (state : σ) {times : Nat}
    (early : times < (task.complete state).polls) :
    ∃ rest, (task.pollTimes times state).progress = .waiting rest := by
  induction times generalizing task state with
  | zero => exact ⟨task, rfl⟩
  | succ times ih =>
      have unfolded := complete_eq_poll task state
      cases h : (task.poll state).progress with
      | finished value =>
          rw [h] at unfolded
          rw [unfolded] at early
          simp only at early
          omega
      | waiting rest =>
          rw [h] at unfolded
          rw [unfolded] at early
          obtain ⟨last, hlast⟩ := ih rest (task.poll state).state (Nat.lt_of_succ_lt_succ early)
          exact ⟨last, by simpa only [pollTimes, h] using hlast⟩

/-- At its last poll a task has done everything that completing it does. -/
theorem pollTimes_polls (task : Task ε σ α) (state : σ) :
    task.pollTimes (task.complete state).polls state =
      ⟨.finished (task.complete state).value, (task.complete state).state,
        (task.complete state).events⟩ := by
  generalize hpolls : (task.complete state).polls = polls
  induction polls generalizing task state with
  | zero =>
      rw [polls_complete] at hpolls
      omega
  | succ polls ih =>
      have unfolded := complete_eq_poll task state
      cases h : (task.poll state).progress with
      | finished value =>
          rw [h] at unfolded
          simp only [pollTimes, h, unfolded]
          rw [← h]
      | waiting rest =>
          rw [h] at unfolded
          rw [unfolded] at hpolls
          have later := ih rest (task.poll state).state (Nat.succ.inj hpolls)
          simp only [pollTimes, h, unfolded, later]

/-- A poll of a sequence polls its first part, and goes on with the second part
in the same poll if the first one is done. -/
theorem poll_bind (task : Task ε σ α) (next : α → Task ε σ β) (state : σ) :
    (task.bind next).poll state =
      match (task.poll state).progress with
      | .finished value =>
        let later := (next value).poll (task.poll state).state
        { later with events := (task.poll state).events ++ later.events }
      | .waiting rest =>
        ⟨.waiting (rest.bind next), (task.poll state).state, (task.poll state).events⟩ := by
  induction task generalizing state with
  | done value => simp [poll]
  | wait polls rest ih =>
      cases polls with
      | zero => exact ih state
      | succ polls => rfl
  | emit event rest ih =>
      simp only [emit_bind, poll, ih state]
      cases (rest.poll state).progress <;> rfl
  | read rest ih => exact ih state state
  | write next rest ih => exact ih next

@[simp] theorem stops_ofState (step : StateM σ α) (state : σ) :
    (ofState step : Task ε σ α).stops state = 0 := rfl

@[simp] theorem complete_ofState (step : StateM σ α) (state : σ) :
    (ofState step : Task ε σ α).complete state = ⟨(step.run state).1, (step.run state).2, [], 1⟩ :=
  rfl

/-- Embedding a silent task among others changes nothing but the kind of events. -/
theorem complete_ofSilent (task : Task Empty σ α) (state : σ) :
    (task.ofSilent : Task ε σ α).complete state =
      ⟨(task.complete state).value, (task.complete state).state, [],
        (task.complete state).polls⟩ := by
  induction task generalizing state with
  | done value => rfl
  | wait polls rest ih => simp only [ofSilent, complete, ih]
  | emit event rest ih => exact event.elim
  | read rest ih => exact ih state state
  | write next rest ih => exact ih next

@[simp] theorem stops_ofSilent (task : Task Empty σ α) (state : σ) :
    (task.ofSilent : Task ε σ α).stops state = task.stops state := by
  have whole := polls_complete (task.ofSilent : Task ε σ α) state
  have part := polls_complete task state
  rw [complete_ofSilent] at whole
  simp only at whole
  omega

end RouteTree.Task
