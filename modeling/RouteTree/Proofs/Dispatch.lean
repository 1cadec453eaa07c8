import Mathlib.Data.List.Nodup
import RouteTree.Proofs.Defects
import RouteTree.Proofs.Refinement

/-!
# Which terminal answers a fault

A switch knows a fault by its number alone, and the terminal that it finds may
want a payload or not. For the faults of the registry that the table was
compiled for this is enough: the registry gives no number twice, and the table
binds only kinds that the registry has issued, each once. So a fault is answered
by the terminal that is bound to its own kind, and that terminal gets the
payload with which the fault was raised.
-/

namespace RouteTree

open Http

variable {σ : Type}

/-- A fault carries the payload that it was raised with if its kind has one. -/
theorem FaultKind.payloadOrNull_raise (kind : FaultKind) (payload : Json) :
    (kind.raise payload).payloadOrNull = if kind.dynamic then payload else .null := by
  rw [raise, Fault.payloadOrNull]
  cases kind.dynamic <;> rfl

namespace FaultRegistry

variable {registry : FaultRegistry} {flags : List Bool}

theorem registry_of_owns {kind : FaultKind} (owned : registry.owns kind = true) :
    kind.registry = registry.id := by
  simp only [owns, Bool.and_eq_true, decide_eq_true_eq] at owned
  exact owned.1

/-- Declare kinds in order, with a payload or without as the flags say. Gives
the kinds, and the registry after them. -/
def declareAll (registry : FaultRegistry) : List Bool → List FaultKind × FaultRegistry
  | [] => ([], registry)
  | dynamic :: rest =>
    let (kind, registry) := registry.declare dynamic
    let (kinds, registry) := registry.declareAll rest
    (kind :: kinds, registry)

@[simp] theorem id_declareAll (registry : FaultRegistry) (flags : List Bool) :
    (registry.declareAll flags).2.id = registry.id := by
  induction flags generalizing registry with
  | nil => rfl
  | cons dynamic rest ih => exact ih (registry.declare dynamic).2

theorem next_le_of_mem_declareAll {kind : FaultKind}
    (issued : kind ∈ (registry.declareAll flags).1) : registry.next ≤ kind.id := by
  induction flags generalizing registry with
  | nil => cases issued
  | cons dynamic rest ih =>
      rcases List.mem_cons.1 issued with rfl | later
      · exact Nat.le_refl _
      · exact Nat.le_of_succ_le (ih later)

theorem lt_of_mem_declareAll {kind : FaultKind}
    (issued : kind ∈ (registry.declareAll flags).1) :
    kind.id < registry.next + flags.length := by
  induction flags generalizing registry with
  | nil => cases issued
  | cons dynamic rest ih =>
      rw [List.length_cons]
      rcases List.mem_cons.1 issued with rfl | later
      · change registry.next < _
        omega
      · have bound : kind.id < registry.next + 1 + rest.length := ih later
        omega

/-- As long as there are at most `2 ^ 32` kinds, a counter of 32 bits gives their
numbers. -/
theorem toNat_ofNat_id {kind : FaultKind} (few : registry.next + flags.length ≤ UInt32.size)
    (issued : kind ∈ (registry.declareAll flags).1) : (UInt32.ofNat kind.id).toNat = kind.id :=
  UInt32.toNat_ofNat_of_lt (Nat.lt_of_lt_of_le (lt_of_mem_declareAll issued) few)

/-- A registry gives no number twice. -/
theorem eq_of_mem_declareAll {first second : FaultKind}
    (here : first ∈ (registry.declareAll flags).1) (there : second ∈ (registry.declareAll flags).1)
    (same : first.id = second.id) : first = second := by
  induction flags generalizing registry with
  | nil => cases here
  | cons dynamic rest ih =>
      rcases List.mem_cons.1 here with rfl | here
      · rcases List.mem_cons.1 there with rfl | there
        · rfl
        · have later := next_le_of_mem_declareAll there
          rw [← same] at later
          exact absurd later (Nat.not_succ_le_self _)
      · rcases List.mem_cons.1 there with rfl | there
        · have later := next_le_of_mem_declareAll here
          rw [same] at later
          exact absurd later (Nat.not_succ_le_self _)
        · exact ih here there

end FaultRegistry

namespace FaultTable

variable {table : FaultTable σ}

/-- In a table that binds no number twice, the entry of a number is the one
that bears it. -/
theorem entry?_eq_some_iff (once : (table.entries.map fun entry => entry.1.id).Nodup) {id : Nat}
    {entry : FaultKind × Terminal σ} :
    table.entry? id = some entry ↔ entry ∈ table.entries ∧ entry.1.id = id := by
  constructor
  · intro found
    exact ⟨List.mem_of_find?_eq_some found, by simpa using List.find?_some found⟩
  · rintro ⟨mem, number⟩
    obtain ⟨other, found⟩ : ∃ other, table.entry? id = some other :=
      Option.isSome_iff_exists.1 (List.find?_isSome.2 ⟨entry, mem, by simpa using number⟩)
    have same : other.1.id = entry.1.id := by
      rw [number]
      simpa using List.find?_some found
    rw [found, List.inj_on_of_nodup_map once (List.mem_of_find?_eq_some found) mem same]

theorem entry?_eq_none_iff {id : Nat} :
    table.entry? id = none ↔ ∀ entry ∈ table.entries, entry.1.id ≠ id := by
  simp [List.find?_eq_none, entry?]

/-- A fault with an entry is answered by the terminal of the entry, which gets a
payload if the kind of the entry has one and a fresh context if it uses one. -/
theorem dispatch_of_entry (unhandled : Response) (fault : Fault) {kind : FaultKind}
    {terminal : Terminal σ} (found : table.entry? fault.id = some (kind, terminal))
    (frame : Frame) :
    (table.switch unhandled).dispatch fault frame =
        .emit (.count (.fault true)) ((terminal.endpoint unhandled).call
          (if kind.dynamic then some fault.payloadOrNull else none)
          (if terminal.needsContext then frame.detach else frame)) ∧
      (table.switch unhandled).dispatchInScope fault frame =
        .emit (.count (.fault true)) ((terminal.endpoint unhandled).respond
          (if kind.dynamic then some fault.payloadOrNull else none)
          (if terminal.needsContext then frame.detach else frame)) := by
  simp only [FaultSwitch.dispatch, FaultSwitch.dispatchInScope, FaultSwitch.select, find?_switch,
    found]
  exact ⟨rfl, rfl⟩

theorem dispatch_of_no_entry (unhandled : Response) (fault : Fault)
    (found : table.entry? fault.id = none) (frame : Frame) :
    (table.switch unhandled).dispatch fault frame =
        .emit (.log (.faultUnhandled fault.id))
          (.emit (.count (.fault false)) (.done (.ready unhandled))) ∧
      (table.switch unhandled).dispatchInScope fault frame =
        .emit (.log (.faultUnhandled fault.id))
          (.emit (.count (.fault false)) (.done unhandled)) := by
  simp only [FaultSwitch.dispatch, FaultSwitch.dispatchInScope, FaultSwitch.select, find?_switch,
    found]
  exact ⟨rfl, rfl⟩

/-- In a table that a registry accepts, the entry of an issued kind's number is
the entry of that kind. Kinds that the registry issues after it has accepted the
table count too. -/
theorem entry?_eq_some_iff_of_issued {registry : FaultRegistry} {issued : List FaultKind}
    (sound : Sound registry table.entries)
    (genuine : ∀ entry ∈ table.entries, entry.1 ∈ issued ∨ entry.1.registry ≠ registry.id)
    (apart : ∀ first ∈ issued, ∀ second ∈ issued, first.id = second.id → first = second)
    {kind : FaultKind} (mem : kind ∈ issued) {entry : FaultKind × Terminal σ} :
    table.entry? kind.id = some entry ↔ entry ∈ table.entries ∧ entry.1 = kind := by
  rw [entry?_eq_some_iff sound.once]
  refine and_congr_right fun bound => ⟨fun same => ?_, fun same => by rw [same]⟩
  have owned := FaultRegistry.registry_of_owns (sound.owned entry bound)
  have own : entry.1 ∈ issued := (genuine entry bound).resolve_right (not_not.2 owned)
  exact apart entry.1 own kind mem same

/-- The faults of a registry reach the terminals of their own kinds. The
registry has declared any kinds, in any order, when it accepts the table, and
may declare others later. A fault of any of these kinds is answered as follows,
both before the deferred scope and inside it.

* The terminal that the table binds to the kind answers, with the payload of the
  fault if the kind has one and with none otherwise.
* If the table binds no terminal to the kind, the fault is unhandled.
* A branch that hands on a payload is found only for faults that carry the one
  they were raised with, and any other branch only for faults without payload. -/
theorem own_faults_reach_own_terminals (id : Nat) (flags later : List Bool)
    (genuine : ∀ entry ∈ table.entries,
      entry.1 ∈ (FaultRegistry.declareAll { id } (flags ++ later)).1 ∨ entry.1.registry ≠ id)
    {unhandled : Response} {values : ValueTable} {built : BuiltSwitch σ}
    (accepted : (table.compile (FaultRegistry.declareAll { id } flags).2 unhandled values).1 =
      .ok built)
    {kind : FaultKind} (issued : kind ∈ (FaultRegistry.declareAll { id } (flags ++ later)).1)
    (payload : Json) (frame : Frame) :
    (∀ terminal, (kind, terminal) ∈ table.entries →
        built.switch.dispatch (kind.raise payload) frame =
            .emit (.count (.fault true)) ((terminal.endpoint unhandled).call
              (if kind.dynamic then some payload else none)
              (if terminal.needsContext then frame.detach else frame)) ∧
          built.switch.dispatchInScope (kind.raise payload) frame =
            .emit (.count (.fault true)) ((terminal.endpoint unhandled).respond
              (if kind.dynamic then some payload else none)
              (if terminal.needsContext then frame.detach else frame))) ∧
      ((∀ terminal, (kind, terminal) ∉ table.entries) →
        built.switch.dispatch (kind.raise payload) frame =
            .emit (.log (.faultUnhandled kind.id))
              (.emit (.count (.fault false)) (.done (.ready unhandled))) ∧
          built.switch.dispatchInScope (kind.raise payload) frame =
            .emit (.log (.faultUnhandled kind.id))
              (.emit (.count (.fault false)) (.done unhandled))) ∧
      ∀ branch, built.switch.cases.find? kind.id = some branch →
        (kind.raise payload).payload = if branch.dynamic then some payload else none := by
  have sound := compile_ok_iff.1 ⟨built, accepted⟩
  have entry_iff := fun entry => @entry?_eq_some_iff_of_issued σ table _ _ sound
    (by simpa using genuine) (fun _ here _ there => FaultRegistry.eq_of_mem_declareAll here there)
    kind issued entry
  have carried : (if kind.dynamic then some (kind.raise payload).payloadOrNull else none) =
      if kind.dynamic then some payload else none := by
    rw [kind.payloadOrNull_raise]
    cases kind.dynamic <;> rfl
  rw [switch_compile accepted]
  refine ⟨?_, ?_, ?_⟩
  · intro terminal bound
    have answered := dispatch_of_entry unhandled (kind.raise payload)
      ((entry_iff (kind, terminal)).2 ⟨bound, rfl⟩) frame
    rwa [carried] at answered
  · intro unbound
    refine dispatch_of_no_entry unhandled (kind.raise payload) ?_ frame
    refine Option.eq_none_iff_forall_ne_some.2 ?_
    rintro ⟨other, terminal⟩ found
    obtain ⟨bound, rfl⟩ := (entry_iff _).1 found
    exact unbound terminal bound
  · intro branch found
    rw [find?_switch] at found
    obtain ⟨⟨other, terminal⟩, entry, rfl⟩ := Option.map_eq_some_iff.1 found
    obtain ⟨-, rfl⟩ := (entry_iff _).1 entry
    rfl

end FaultTable

namespace Sample

/-- Three kinds are declared when the table is compiled, and a fourth one later.
The table binds the third kind, which carries a payload, and the first one. -/
def ownFaults : FaultTable Nat := ⟨0, [(⟨2, 4, true⟩, turnAway), (⟨0, 4, false⟩, welcome)]⟩

theorem genuine_ownFaults : ∀ entry ∈ ownFaults.entries,
    entry.1 ∈ (FaultRegistry.declareAll { id := 4 } ([false, true, true] ++ [false])).1 ∨
      entry.1.registry ≠ 4 :=
  List.forall_mem_cons.2 ⟨.inl (by decide), List.forall_mem_singleton.2 (.inl (by decide))⟩

/-- The third kind reaches its terminal with its payload, and the kind that was
declared after compiling is unhandled. -/
theorem ownFaults_dispatched : ∃ built,
    (ownFaults.compile (FaultRegistry.declareAll { id := 4 } [false, true, true]).2 unhandled
      {}).1 = .ok built ∧
    ∀ payload frame,
      built.switch.dispatch (FaultKind.raise ⟨2, 4, true⟩ payload) frame =
        .emit (.count (.fault true))
          ((turnAway.endpoint unhandled).call (some payload) frame.detach) ∧
      built.switch.dispatchInScope (FaultKind.raise ⟨3, 4, false⟩ payload) frame =
        .emit (.log (.faultUnhandled 3)) (.emit (.count (.fault false)) (.done unhandled)) := by
  obtain ⟨built, accepted⟩ : ∃ built, (ownFaults.compile
      (FaultRegistry.declareAll { id := 4 } [false, true, true]).2 unhandled {}).1 = .ok built :=
    ⟨_, rfl⟩
  have third : (⟨2, 4, true⟩ : FaultKind) ∈
      (FaultRegistry.declareAll { id := 4 } ([false, true, true] ++ [false])).1 := by decide
  have fourth : (⟨3, 4, false⟩ : FaultKind) ∈
      (FaultRegistry.declareAll { id := 4 } ([false, true, true] ++ [false])).1 := by decide
  refine ⟨built, accepted, fun payload frame => ⟨?_, ?_⟩⟩
  · obtain ⟨answered, _⟩ := FaultTable.own_faults_reach_own_terminals 4 _ _ genuine_ownFaults
      accepted third payload frame
    exact (answered turnAway List.mem_cons_self).1
  · obtain ⟨_, unanswered, _⟩ := FaultTable.own_faults_reach_own_terminals 4 _ _ genuine_ownFaults
      accepted fourth payload frame
    exact (unanswered (by simp [ownFaults])).2

end Sample

end RouteTree
