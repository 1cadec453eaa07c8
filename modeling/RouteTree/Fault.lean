import RouteTree.Json

/-!
# Faults

Handlers fail with faults of declared kinds. A registry hands out the kinds of
one route tree and numbers them from zero; a kind remembers its registry and
whether its faults carry a payload. A raised fault itself carries only the
number of its kind and the payload.

Registries and kinds are numbered without an end here. A counter of 32 bits gives
the same numbers for up to `2 ^ 32` registries, with up to `2 ^ 32` kinds each.
-/

namespace RouteTree

/-- A declared kind of fault. -/
structure FaultKind where
  id : Nat
  /-- The registry that declared the kind. -/
  registry : Nat
  /-- Whether faults of this kind carry a payload. -/
  dynamic : Bool
  deriving DecidableEq, Repr

/-- A raised fault. -/
structure Fault where
  id : Nat
  payload : Option Json

namespace Fault

def text (fault : Fault) : String := "controlled error #" ++ Nat.repr fault.id

/-- The payload handed to a route that wants one. -/
def payloadOrNull (fault : Fault) : Json := fault.payload.getD .null

end Fault

namespace FaultKind

def text (kind : FaultKind) : String :=
  (if kind.dynamic then "dynamic error #" else "static error #") ++ Nat.repr kind.id

/-- Raise a fault of this kind; a kind without payload drops it. -/
def raise (kind : FaultKind) (payload : Json) : Fault :=
  ⟨kind.id, if kind.dynamic then some payload else none⟩

@[simp] theorem raise_id (kind : FaultKind) (payload : Json) :
    (kind.raise payload).id = kind.id := rfl

end FaultKind

/-- The declared kinds of one route tree: the next number to give. -/
structure FaultRegistry where
  id : Nat
  next : Nat := 0
  deriving DecidableEq, Repr

namespace FaultRegistry

/-- Declare one more kind. -/
def declare (registry : FaultRegistry) (dynamic : Bool) : FaultKind × FaultRegistry :=
  (⟨registry.next, registry.id, dynamic⟩, { registry with next := registry.next + 1 })

/-- Whether this registry has declared the kind. -/
def owns (registry : FaultRegistry) (kind : FaultKind) : Bool :=
  kind.registry = registry.id && kind.id < registry.next

@[simp] theorem declare_next (registry : FaultRegistry) (dynamic : Bool) :
    (registry.declare dynamic).2.next = registry.next + 1 := rfl

theorem owns_declare (registry : FaultRegistry) (dynamic : Bool) :
    (registry.declare dynamic).2.owns (registry.declare dynamic).1 = true := by
  simp [owns, declare]

end FaultRegistry

end RouteTree
