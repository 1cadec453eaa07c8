import RouteTree.Handler

/-!
# Fragments

A fragment is a compiled group: the calls of its handlers in order, nested
groups flattened. It runs either in the deferred scope of a route, where calls
may stop, or before it, where a call that may stop has no place.
-/

namespace RouteTree

/-- One compiled call: a function and where its value goes. -/
structure Op (σ : Type) where
  callback : Callback σ (Except Fault Json)
  target : Option Location

/-- What a route does after a call. -/
inductive Verdict where
  | proceed
  | raise (fault : Fault)
  /-- A call that may stop was met before the deferred scope. -/
  | misplaced

namespace Op

variable {σ : Type}

def suspends (op : Op σ) : Bool := op.callback.suspends

def needsContext (op : Op σ) : Bool := op.callback.needsContext || op.target.isSome

/-- Put a value where it goes. -/
def settle (op : Op σ) (value : Json) (frame : Frame) : Task Event σ Frame :=
  match op.target with
  | none => .done frame
  | some location =>
    frame.demand.bind fun held => .done (held.2.withContext (held.1.store location value))

/-- Call the function, then raise its fault or settle its value. -/
def run (op : Op σ) (frame : Frame) : Task Event σ (Verdict × Frame) :=
  (op.callback.call none frame).bind fun out =>
    match out.1 with
    | .ok value => (op.settle value out.2).bind fun frame => .done (.proceed, frame)
    | .error fault => .emit (.raised fault.id) (.done (.raise fault, out.2))

/-- Run calls in order until one raises. -/
def runAll : List (Op σ) → Frame → Task Event σ (Verdict × Frame)
  | [], frame => .done (.proceed, frame)
  | op :: ops, frame =>
    (op.run frame).bind fun out =>
      match out.1 with
      | .proceed => runAll ops out.2
      | verdict => .done (verdict, out.2)

/-- Run calls in order until one raises, none of which may stop. -/
def runAllNow : List (Op σ) → Frame → Task Event σ (Verdict × Frame)
  | [], frame => .done (.proceed, frame)
  | op :: ops, frame =>
    if op.suspends then .done (.misplaced, frame)
    else (op.run frame).bind fun out =>
      match out.1 with
      | .proceed => runAllNow ops out.2
      | verdict => .done (verdict, out.2)

end Op

/-- A compiled group. -/
structure Fragment (σ : Type) where
  group : Nat
  ops : List (Op σ)
  deferred : Bool
  needsContext : Bool
  listing : Listing
  /-- For each handler of the group, the number that its result got. -/
  bindings : List (Option Nat)

namespace Fragment

variable {σ : Type}

def size (fragment : Fragment σ) : Nat := fragment.ops.length

/-- A one-line summary. -/
def summary (fragment : Fragment σ) : String :=
  "Fragment \x7b ops: " ++ Nat.repr fragment.size ++ ", deferred: " ++
    Handler.flagText fragment.deferred ++ ", needs_context: " ++
    Handler.flagText fragment.needsContext ++ " \x7d"

end Fragment

end RouteTree
