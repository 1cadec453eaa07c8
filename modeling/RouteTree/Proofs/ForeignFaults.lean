import RouteTree.Proofs.Discretion
import RouteTree.Proofs.Requests

/-!
# Faults of other trees

A tree rejects tables that bind kinds of another registry, but nothing keeps a
handler from raising a fault of such a kind. A raised fault no longer knows its
registry, so the tree goes by its number: a fault of a foreign kind is unhandled
if no kind of the table has that number, and otherwise it is taken for a fault
of the kind that has it.
-/

namespace RouteTree

open Http

variable {σ : Type}

namespace Tree

variable {tree : Tree σ} {dispatcher : Dispatcher σ}

/-- Faults of foreign kinds go by their number. Let a request to a compiled tree
be for a route whose groups end with a fault of a kind that another registry has
issued. The request is always answered.

* If the tree binds no kind with the number of the foreign kind, no terminal
  answers, and the response is the one for unhandled faults.
* If it binds a kind with that number, this is another kind, issued by the tree's
  own registry, and its terminal answers as it answers faults of its own kind. A
  terminal that wants a payload gets the one of the foreign fault, or null if it
  has none. -/
theorem foreign_faults_go_by_number {issued : List FaultKind} (built : tree.Built issued)
    {groups : List (Group σ)} (made : Group.Made groups)
    (known : ∀ registration ∈ tree.routes, ∀ group ∈ registration.groups, group ∈ groups)
    (compiled : tree.compile.result = .ok dispatcher) {method : Method} {path : String}
    {registration : Registration σ} {params : Option Params}
    (found : tree.route? method path = some (registration, params)) {kind : FaultKind}
    (foreign : kind.registry ≠ tree.registry.id) {payload : Json} {state : σ} {walk : Walk σ}
    (raised : Group.interpretAll registration.groups (.start params state) =
      (some (kind.raise payload), walk)) :
    ∃ reply middle events done,
      Reply.start (dispatcher.handle method path) state = (reply, middle, events) ∧
      reply.complete middle = some done ∧
      ((∀ entry ∈ tree.faults, entry.1.id ≠ kind.id) →
        done.value = tree.unhandled ∧ done.state = walk.state ∧
          Event.calls (events ++ done.events) = walk.calls) ∧
      ∀ own terminal, (own, terminal) ∈ tree.faults → own.id = kind.id →
        own ∈ issued ∧ own ≠ kind ∧
          ∃ after, terminal.interpret tree.unhandled
              (if own.dynamic then some (if kind.dynamic then payload else .null) else none)
              (walk.turnTo terminal) = (done.value, after) ∧
            done.state = after.state ∧ Event.calls (events ++ done.events) = after.calls := by
  have nonempty : tree.routes ≠ [] := by
    intro empty
    simp [route?, empty, Insertion.tried, Insertion.scan] at found
  have sound := sound_of_compile compiled nonempty
  obtain ⟨reply, middle, events, done, start, complete, value, left, calls⟩ :=
    served_of_route? (listsPlan_of_made made known) compiled found state
  have concluded : (tree.plan registration).interpret tree.unhandled params state =
      tree.faultTable.interpret tree.unhandled (kind.raise payload) walk := by
    simp only [RoutePlan.interpret, plan, raised, RoutePlan.conclude]
  rw [concluded] at value left calls
  refine ⟨reply, middle, events, done, start, complete, ?_, ?_⟩
  · intro unbound
    have missing : tree.faultTable.entry? kind.id = none := FaultTable.entry?_eq_none_iff.2 unbound
    simp only [FaultTable.interpret, FaultKind.raise_id, missing] at value left calls
    exact ⟨value, left, calls⟩
  · intro own terminal bound same
    have own_issued : own ∈ issued := (built.owns_iff bound).1 (sound.owned _ bound)
    have entry : tree.faultTable.entry? kind.id = some (own, terminal) :=
      (FaultTable.entry?_eq_some_iff sound.once).2 ⟨bound, same⟩
    simp only [FaultTable.interpret, FaultKind.raise_id, entry, kind.payloadOrNull_raise]
      at value left calls
    refine ⟨own_issued, ?_, _, Prod.ext value.symm rfl, left, calls⟩
    rintro rfl
    exact foreign (FaultRegistry.registry_of_owns (built.owns own own_issued))

end Tree

namespace Sample

/-- A kind of another registry, with the number of a kind of the tree below. -/
def stranger : FaultKind := ⟨0, 1, false⟩

def outsider : FaultKind := ⟨7, 1, true⟩

/-- Fail with faults of foreign kinds, the first time with that of a stranger. -/
def smuggle : SoundHandler Nat :=
  .checked ⟨5, .plain fun _ count =>
    (.error ((if count = 0 then stranger else outsider).raise (.str "foreign")), count + 1)⟩ none

def customs : Group Nat := .ofHandlers 0 [smuggle]

/-- A tree that answers faults of its only kind, and whose only route fails with
faults of foreign kinds. -/
def border : Tree Nat :=
  ((((Tree.new {} { id := 0 }).declare false).2.answer ⟨0, 0, false⟩ apologize).use
    customs).route ⟨"GET"⟩ "/" welcome

def crossing : Registration Nat := ⟨⟨"GET"⟩, "/", [customs], welcome⟩

def caught (count : Nat) : Walk Nat := ⟨.new none, count + 1, [⟨⟨5, none, none⟩, 0⟩]⟩

theorem built_border : border.Built [⟨0, 0, false⟩] :=
  ((((Tree.Built.new {} 0).declare false).answer (.inl (List.mem_singleton.2 rfl)) apologize).use
    customs).route _ _ _

theorem made_customs : Group.Made [customs] :=
  .more .none [smuggle] (List.forall_mem_singleton.2 trivial)

theorem route?_border : border.route? ⟨"GET"⟩ "/" = some (crossing, none) := by
  have read : Pattern.parse "/" = .ok ⟨"/", [.literal ""]⟩ := rfl
  have scanned : border.route? ⟨"GET"⟩ "/" =
      Insertion.scan "/" [⟨⟨"GET"⟩, ⟨"/", [.literal ""]⟩, crossing⟩] := rfl
  have answered := @Insertion.answer?_of_isStatic _
    ⟨⟨"GET"⟩, ⟨"/", [.literal ""]⟩, crossing⟩ read rfl "/"
  rw [scanned, Insertion.scan, List.findSome?_singleton, answered]
  rfl

/-- The first request to the tree is answered by the terminal of its own kind, and
the next one as unhandled. -/
theorem border_answers : ∃ dispatcher, border.compile.result = .ok dispatcher ∧
    (∃ reply middle events done,
      Reply.start (dispatcher.handle ⟨"GET"⟩ "/") 0 = (reply, middle, events) ∧
        reply.complete middle = some done ∧ done.value.body = "too late") ∧
    ∃ reply middle events done,
      Reply.start (dispatcher.handle ⟨"GET"⟩ "/") 1 = (reply, middle, events) ∧
        reply.complete middle = some done ∧ done.value = border.unhandled := by
  obtain ⟨dispatcher, compiled⟩ : ∃ dispatcher, border.compile.result = .ok dispatcher := ⟨_, rfl⟩
  have known : ∀ registration ∈ border.routes, ∀ group ∈ registration.groups,
      group ∈ [customs] := List.forall_mem_singleton.2 fun _ mem => mem
  refine ⟨dispatcher, compiled, ?_, ?_⟩
  · have raised : Group.interpretAll crossing.groups (.start none 0) =
        (some (stranger.raise (.str "foreign")), caught 0) := rfl
    obtain ⟨reply, middle, events, done, start, complete, _, taken⟩ :=
      Tree.foreign_faults_go_by_number built_border made_customs known compiled route?_border
        (by decide) raised
    obtain ⟨_, _, after, answered, _⟩ := taken ⟨0, 0, false⟩ apologize List.mem_cons_self rfl
    exact ⟨reply, middle, events, done, start, complete,
      congrArg (fun out => out.1.body) answered.symm⟩
  · have raised : Group.interpretAll crossing.groups (.start none 1) =
        (some (outsider.raise (.str "foreign")), caught 1) := rfl
    obtain ⟨reply, middle, events, done, start, complete, refused, _⟩ :=
      Tree.foreign_faults_go_by_number built_border made_customs known compiled route?_border
        (by decide) raised
    have unbound : ∀ entry ∈ border.faults, entry.1.id ≠ outsider.id :=
      List.forall_mem_singleton.2 (by decide)
    exact ⟨reply, middle, events, done, start, complete, (refused unbound).1⟩

/-- A fault of a foreign kind need not be unhandled: here it is raised in a tree
that answers it by a terminal of its own. -/
theorem foreign_fault_not_unhandled : ∃ (tree : Tree Nat) (issued : List FaultKind)
    (dispatcher : Dispatcher Nat) (registration : Registration Nat) (kind : FaultKind)
    (payload : Json) (walk : Walk Nat),
    tree.Built issued ∧ tree.compile.result = .ok dispatcher ∧
      tree.route? ⟨"GET"⟩ "/" = some (registration, none) ∧ kind.registry ≠ tree.registry.id ∧
      Group.interpretAll registration.groups (.start none 0) =
        (some (kind.raise payload), walk) ∧
      ∃ reply middle events done,
        Reply.start (dispatcher.handle ⟨"GET"⟩ "/") 0 = (reply, middle, events) ∧
          reply.complete middle = some done ∧ done.value ≠ tree.unhandled ∧
          Event.calls (events ++ done.events) ≠ walk.calls := by
  refine ⟨border, _, _, crossing, stranger, .str "foreign", caught 0, built_border, rfl,
    route?_border, by decide, rfl, _, _, _, _, rfl, rfl, ?_, ?_⟩
  · intro same
    exact absurd (congrArg Response.body same) (by decide)
  · intro same
    exact absurd (congrArg List.length same) (by decide)

end Sample

end RouteTree
