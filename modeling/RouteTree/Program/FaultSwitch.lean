import RouteTree.Program.Endpoint

/-!
# Fault switches

A switch is a compiled table of faults: it finds the branch for the number of
a raised fault and answers with it, or with the shared response for faults
that no branch handles. A branch that uses the context starts from a fresh
one; any other branch keeps the head that the failed route left.
-/

namespace RouteTree

open Http

/-- The compiled terminal of one kind of fault. -/
structure Branch (σ : Type) where
  endpoint : Endpoint σ
  /-- Whether the fault's payload goes to the endpoint. -/
  dynamic : Bool
  needsContext : Bool

namespace Branch

variable {σ : Type}

/-- The frame on which the branch answers. -/
def prepare (branch : Branch σ) (frame : Frame) : Frame :=
  if branch.needsContext then frame.detach else frame

/-- The payload that the endpoint is given. -/
def payload (branch : Branch σ) (fault : Fault) : Option Json :=
  if branch.dynamic then some fault.payloadOrNull else none

end Branch

/-- How a branch is found, by the number of branches. -/
inductive Cases (σ : Type) : Type where
  | empty
  | single (id : Nat) (branch : Branch σ)
  | table (branches : List (Nat × Branch σ))

namespace Cases

variable {σ : Type}

/-- The cases for these branches. -/
def ofList : List (Nat × Branch σ) → Cases σ
  | [] => .empty
  | [(id, branch)] => .single id branch
  | branches => .table branches

/-- The branch for the number of a fault. -/
def find? (cases : Cases σ) (id : Nat) : Option (Branch σ) :=
  match cases with
  | .empty => none
  | .single only branch => if only = id then some branch else none
  | .table branches => (branches.find? fun entry => entry.1 = id).map Prod.snd

theorem find?_ofList (branches : List (Nat × Branch σ)) (id : Nat) :
    (ofList branches).find? id =
      (branches.find? fun entry => entry.1 = id).map Prod.snd := by
  match branches with
  | [] => rfl
  | [(only, branch)] =>
    by_cases h : only = id <;> simp [ofList, find?, h]
  | _ :: _ :: _ => rfl

end Cases

/-- A compiled table of faults. -/
structure FaultSwitch (σ : Type) where
  cases : Cases σ
  unhandled : Response

namespace FaultSwitch

variable {σ : Type}

/-- Find the branch for a fault, and record whether there is one. -/
def select (switch : FaultSwitch σ) (fault : Fault) : Task Event σ (Option (Branch σ)) :=
  match switch.cases.find? fault.id with
  | some branch => .emit (.count (.fault true)) (.done (some branch))
  | none =>
    .emit (.log (.faultUnhandled fault.id)) (.emit (.count (.fault false)) (.done none))

/-- Answer a fault raised before the deferred scope. -/
def dispatch (switch : FaultSwitch σ) (fault : Fault) (frame : Frame) :
    Task Event σ (Reply σ) :=
  (switch.select fault).bind fun found =>
    match found with
    | some branch => branch.endpoint.call (branch.payload fault) (branch.prepare frame)
    | none => .done (.ready switch.unhandled)

/-- Answer a fault raised inside the deferred scope. -/
def dispatchInScope (switch : FaultSwitch σ) (fault : Fault) (frame : Frame) :
    Task Event σ Response :=
  (switch.select fault).bind fun found =>
    match found with
    | some branch => branch.endpoint.respond (branch.payload fault) (branch.prepare frame)
    | none => .done switch.unhandled

end FaultSwitch

end RouteTree
