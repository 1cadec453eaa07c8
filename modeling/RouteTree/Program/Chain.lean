import RouteTree.Program.FaultSwitch
import RouteTree.Program.Fragment

/-!
# Chains

A chain is a compiled route. Its stages are fragments and the place where the
context is allocated. The stages up to the first group that may stop run at
once; all later stages run in the deferred scope, when the reply is polled.
-/

namespace RouteTree

open Http

/-- One element of a chain. -/
inductive Stage (σ : Type) : Type where
  | allocate
  | group (fragment : Fragment σ)

namespace Stage

variable {σ : Type}

/-- The fragment of a stage that is one. -/
def fragment? : Stage σ → Option (Fragment σ)
  | .group fragment => some fragment
  | .allocate => none

/-- Whether the stage allocates the context. -/
def allocates : Stage σ → Bool
  | .allocate => true
  | .group _ => false

/-- Run a stage before the deferred scope. -/
def runNow (stage : Stage σ) (frame : Frame) : Task Event σ (Verdict × Frame) :=
  match stage with
  | .allocate => .emit (.allocated false) (.done (.proceed, frame.allocate))
  | .group fragment => Op.runAllNow fragment.ops frame

/-- Run a stage in the deferred scope. -/
def run (stage : Stage σ) (frame : Frame) : Task Event σ (Verdict × Frame) :=
  match stage with
  | .allocate => .emit (.allocated false) (.done (.proceed, frame.allocate))
  | .group fragment => Op.runAll fragment.ops frame

/-- Run stages in order before the deferred scope, until one raises. -/
def runAllNow : List (Stage σ) → Frame → Task Event σ (Verdict × Frame)
  | [], frame => .done (.proceed, frame)
  | stage :: stages, frame =>
    (stage.runNow frame).bind fun out =>
      match out.1 with
      | .proceed => runAllNow stages out.2
      | verdict => .done (verdict, out.2)

/-- Run stages in order in the deferred scope, until one raises. -/
def runAll : List (Stage σ) → Frame → Task Event σ (Verdict × Frame)
  | [], frame => .done (.proceed, frame)
  | stage :: stages, frame =>
    (stage.run frame).bind fun out =>
      match out.1 with
      | .proceed => runAll stages out.2
      | verdict => .done (verdict, out.2)

end Stage

structure Chain (σ : Type) where
  /-- The stages that run at once. -/
  eager : List (Stage σ)
  /-- The stages of the deferred scope, if the route has one. -/
  scope : Option (List (Stage σ))
  endpoint : Endpoint σ
  switch : FaultSwitch σ
  listing : Listing

namespace Chain

variable {σ : Type}

/-- All stages in order. -/
def stages (chain : Chain σ) : List (Stage σ) := chain.eager ++ chain.scope.getD []

/-- Whether the route has a deferred scope. -/
def deferred (chain : Chain σ) : Bool := chain.scope.isSome

/-- Whether some stage allocates the context. -/
def allocatesContext (chain : Chain σ) : Bool := chain.stages.any Stage.allocates

/-- The fragments in order. -/
def fragments (chain : Chain σ) : List (Fragment σ) := chain.stages.filterMap Stage.fragment?

/-- A one-line summary. -/
def summary (chain : Chain σ) : String :=
  let scope := match chain.scope with
    | some stages => "Some(" ++ Nat.repr stages.length ++ ")"
    | none => "None"
  "CompiledChain \x7b prefix: " ++ Nat.repr chain.eager.length ++ ", scope: " ++ scope ++ " \x7d"

/-- Run the deferred scope and answer. -/
def runScope (chain : Chain σ) (stages : List (Stage σ)) (frame : Frame) :
    Task Event σ Response :=
  (Stage.runAll stages frame).bind fun out =>
    match out.1 with
    | .proceed => chain.endpoint.respond none out.2
    | .raise fault => chain.switch.dispatchInScope fault out.2
    | .misplaced => .done chain.switch.unhandled

/-- Run the route for one request, up to the first place where it may stop. -/
def invoke (chain : Chain σ) (params : Option Params) : Task Event σ (Reply σ) :=
  (Stage.runAllNow chain.eager (.new params)).bind fun out =>
    match out.1 with
    | .raise fault => chain.switch.dispatch fault out.2
    | .misplaced => .done .aborted
    | .proceed =>
      match chain.scope with
      | none => chain.endpoint.call none out.2
      | some stages => .done (.pending (chain.runScope stages out.2))

end Chain

end RouteTree
