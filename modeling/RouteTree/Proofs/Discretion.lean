import RouteTree.Proofs.Dispatch

/-!
# Answers to faults do not tell on the failed route

Two requests that fail with the same fault may have left quite different frames
behind. The answer to the fault is the same all the same. A terminal that uses
the context gets a fresh one, and a page depends on nothing. A function that is
not given the context answers with the head that the failed route left, and
nothing else of the frame shows.

Same answer means same task: whatever the state and however it is polled, it
makes the same calls with the same payloads and contexts and ends in the same
response.
-/

namespace RouteTree

open Http

variable {σ α β : Type}

/-- A function cannot tell these frames apart: they have the same head, and
the same context if the function is given it. -/
structure Frame.Alike (needsContext : Bool) (first second : Frame) : Prop where
  head : first.head = second.head
  context : needsContext = true →
    ∃ context, first.context = some context ∧ second.context = some context

/-- A function that cannot tell two frames apart is called alike on them, and
what then looks only at the head goes on alike. -/
theorem Callback.call_bind_of_alike {callback : Callback σ α} {first second : Frame}
    (alike : Frame.Alike callback.needsContext first second)
    {next : α × Frame → Task Event σ β}
    (modest : ∀ value (first second : Frame), first.head = second.head →
      next (value, first) = next (value, second))
    (payload : Option Json) :
    (callback.call payload first).bind next = (callback.call payload second).bind next := by
  have left := fun value => modest value first second alike.head
  have changed : ∀ value context,
      next (value, first.withContext context) = next (value, second.withContext context) :=
    fun value context => modest value _ _ rfl
  obtain ⟨id, body⟩ := callback
  cases body with
  | plain run => simp only [call, Task.emit_bind, Task.bind_assoc, Task.done_bind, left]
  | deferred run => simp only [call, Task.emit_bind, Task.bind_assoc, Task.done_bind, left]
  | contextual run =>
      obtain ⟨context, here, there⟩ := alike.context rfl
      simp only [call, Frame.demand_of_some here, Frame.demand_of_some there, Task.emit_bind,
        Task.bind_assoc, Task.done_bind, changed]
  | deferredContextual run =>
      obtain ⟨context, here, there⟩ := alike.context rfl
      simp only [call, Frame.demand_of_some here, Frame.demand_of_some there, Task.emit_bind,
        Task.bind_assoc, Task.done_bind, changed]

/-- A terminal with a function responds alike on frames that the function cannot
tell apart, and a page responds alike on all frames. -/
theorem Terminal.respond_of_alike {terminal : Terminal σ} {first second : Frame}
    (alike : (∃ page, terminal = .fixed page) ∨ Frame.Alike terminal.needsContext first second)
    (unhandled : Response) (payload : Option Json) :
    (terminal.endpoint unhandled).respond payload first =
      (terminal.endpoint unhandled).respond payload second := by
  cases terminal with
  | fixed page => rfl
  | function callback =>
      refine Callback.call_bind_of_alike (alike.resolve_left nofun) ?_ payload
      intro value first second same
      simp only [same]
  | formatted callback encoder =>
      refine Callback.call_bind_of_alike (alike.resolve_left nofun) ?_ payload
      intro value first second same
      simp only [same]

namespace FaultTable

variable {table : FaultTable σ} {registry : FaultRegistry} {unhandled : Response}
  {values : ValueTable} {built : BuiltSwitch σ}

/-- Nothing of the failed route shows in the answer to a fault, except the head
that it left, and that only if a function answers that is not given the context.
Let a fault be raised on two frames, with any captures, status, header fields
and state. If the terminal that answers uses the context or is a page, or if
there is none, the answers are the same on both frames. If it is any other
function, they are the same as soon as the two frames have the same head. Both
hold of faults raised before the deferred scope and inside it. -/
theorem answers_reveal_only_head
    (accepted : (table.compile registry unhandled values).1 = .ok built) (fault : Fault)
    {first second : Frame}
    (hidden : (∀ kind terminal, table.entry? fault.id = some (kind, terminal) →
        terminal.needsContext = true ∨ ∃ page, terminal = .fixed page) ∨
      first.head = second.head) :
    built.switch.dispatch fault first = built.switch.dispatch fault second ∧
      built.switch.dispatchInScope fault first = built.switch.dispatchInScope fault second := by
  rw [switch_compile accepted]
  cases found : table.entry? fault.id with
  | none =>
      obtain ⟨early, late⟩ := dispatch_of_no_entry unhandled fault found first
      obtain ⟨early', late'⟩ := dispatch_of_no_entry unhandled fault found second
      exact ⟨early.trans early'.symm, late.trans late'.symm⟩
  | some entry =>
      obtain ⟨kind, terminal⟩ := entry
      obtain ⟨early, late⟩ := dispatch_of_entry unhandled fault found first
      obtain ⟨early', late'⟩ := dispatch_of_entry unhandled fault found second
      have alike : (∃ page, terminal = .fixed page) ∨
          Frame.Alike terminal.needsContext
            (if terminal.needsContext then first.detach else first)
            (if terminal.needsContext then second.detach else second) := by
        cases reads : terminal.needsContext with
        | true => exact .inr ⟨rfl, fun _ => ⟨.new none, rfl, rfl⟩⟩
        | false =>
            rcases hidden with blank | same
            · exact .inl ((blank kind terminal found).resolve_left (by simp [reads]))
            · exact .inr ⟨same, nofun⟩
      have responds := fun payload => Terminal.respond_of_alike alike unhandled payload
      rw [early, early', late, late']
      simp only [Endpoint.call, responds, and_self]

end FaultTable

namespace Sample

/-- The kind of fault that is answered without a look at the context. -/
def missed : FaultKind := ⟨1, 0, false⟩

def apologize : Terminal Nat := .function ⟨4, .plain fun _ count => ("too late", count + 1)⟩

def discreetFaults : FaultTable Nat := ⟨0, [(refused, turnAway), (missed, apologize)]⟩

/-- A refused request is turned away alike whatever context it left. For a fault
that is answered without a look at the context, captures and state make no
difference. -/
theorem discreetFaults_hide : ∃ built,
    (discreetFaults.compile { id := 0, next := 2 } unhandled {}).1 = .ok built ∧
    (∀ payload context, built.switch.dispatch (refused.raise payload) (.new none) =
      built.switch.dispatch (refused.raise payload) ⟨none, some context⟩) ∧
    ∀ params state, built.switch.dispatchInScope (missed.raise .null) (.new params) =
      built.switch.dispatchInScope (missed.raise .null) ⟨none, some { state }⟩ := by
  obtain ⟨built, accepted⟩ : ∃ built,
      (discreetFaults.compile { id := 0, next := 2 } unhandled {}).1 = .ok built := ⟨_, rfl⟩
  refine ⟨built, accepted, ?_, ?_⟩
  · intro payload context
    refine (FaultTable.answers_reveal_only_head accepted _ (.inl ?_)).1
    rintro kind terminal ⟨⟩
    exact .inl rfl
  · intro params state
    have plain : (Frame.new params).head = (⟨none, some { state }⟩ : Frame).head := rfl
    exact (FaultTable.answers_reveal_only_head accepted _ (.inr plain)).2

end Sample

end RouteTree
