import RouteTree.Callback
import RouteTree.Fault

/-!
# Scripts

A script is a user function written as data: a list of actions that read and
change the request's context, keep tallies and a list of tags in a shared
world, pause, and end with a value or a fault. A script that runs off its end
answers null.
-/

namespace RouteTree

open Http

/-- An expression of a script. -/
inductive Expr where
  | literal (value : Json)
  /-- The capture at a position, or null. -/
  | param (index : Nat)
  /-- The first capture with a name, or null. -/
  | named (name : String)
  /-- All captures, or null. -/
  | params
  | status
  /-- The value at a location of the state, or null. -/
  | lookup (location : Location)
  /-- The whole context. -/
  | context
  /-- The payload of the fault that is answered, or null. -/
  | payload
  /-- Count one up and give the new count. -/
  | tally (name : String)
  /-- Texts, and the compact form of other values, one after the other. -/
  | concat (parts : List Expr)
  | list (items : List Expr)

/-- One action of a script. -/
inductive Action where
  | log (tag : String)
  | setStatus (status : Status)
  | addHeader (name : HeaderName) (value : HeaderValue)
  /-- Write a top-level field of the state. -/
  | assign (field : String) (value : Expr)
  /-- Stop this many times. -/
  | pause (polls : Nat)
  | raise (kind : FaultKind) (payload : Option Expr)
  | answer (value : Expr)
  /-- End with a result that is no value. -/
  | unencodable
  /-- Compare two values and run the actions of one side. -/
  | branch (left right : Expr) (same different : List Action)

/-- What all scripts share. -/
structure World where
  tallies : List (String × Nat) := []
  /-- The logged tags, the latest first. -/
  tags : List String := []

namespace World

/-- Count one up and give the new count, which starts at one. -/
def tallyUp (name : String) : List (String × Nat) → Nat × List (String × Nat)
  | [] => (1, [(name, 1)])
  | (key, count) :: rest =>
    if key = name then (count + 1, (key, count + 1) :: rest)
    else
      let (result, rest) := tallyUp name rest
      (result, (key, count) :: rest)

def log (world : World) (tag : String) : World := { world with tags := tag :: world.tags }

/-- The logged tags in order. -/
def logged (world : World) : List String := world.tags.reverse

/-- Forget the logged tags. -/
def forget (world : World) : World := { world with tags := [] }

end World

/-- How a script ended. -/
inductive Ending where
  | value (value : Json)
  | unencodable
  | raised (fault : Fault)

namespace Ending

/-- The result as a value; a result that is none counts as null. -/
def json : Ending → Json
  | .value out => out
  | .unencodable | .raised _ => .null

/-- The fault, or the result as a value. -/
def result : Ending → Except Fault Json
  | .raised fault => .error fault
  | ending => .ok ending.json

/-- The result as a body: null is empty, text is itself, and any other value is
its compact form. -/
def body : Ending → String
  | .value .null => ""
  | .value out => out.plainText
  | .unencodable | .raised _ => ""

/-- The result for encoding, or why it cannot be encoded. -/
def encoded : Ending → Except String Json
  | .unencodable => .error "unencodable"
  | ending => .ok ending.json

/-- The ending of a script whose results are always values. -/
def toValue : Ending → Ending
  | .unencodable => .value .null
  | ending => ending

end Ending

namespace Expr

/-- A text as a value, and nothing as null. -/
def textOrNull : Option String → Json
  | some text => .str text
  | none => .null

mutual

/-- The value of an expression. Without a context its parts are null. -/
def eval (payload : Option Json) (context : Option Context) : Expr → StateM World Json
  | .literal value => pure value
  | .param index => pure (textOrNull (context.bind (·.param? index)))
  | .named name => pure (textOrNull (context.bind (·.named? name)))
  | .params => pure (match context.bind (·.params) with
      | some captured => Context.paramsJson captured
      | none => .null)
  | .status => pure (match context with
      | some whole => .nat whole.status.code
      | none => .null)
  | .lookup location => pure ((context.bind (·.get? location)).getD .null)
  | .context => pure (match context with
      | some whole => whole.toJson
      | none => .null)
  | .payload => pure (payload.getD .null)
  | .tally name => fun world =>
    let (count, tallies) := World.tallyUp name world.tallies
    (.nat count, { world with tallies })
  | .concat parts => do
    let values ← evalAll payload context parts
    pure (.str (Text.join "" (values.map Json.plainText)))
  | .list items => do
    let values ← evalAll payload context items
    pure (.arr values)

/-- The values of expressions in order. -/
def evalAll (payload : Option Json) (context : Option Context) :
    List Expr → StateM World (List Json)
  | [] => pure []
  | expr :: rest => do
    let value ← eval payload context expr
    let values ← evalAll payload context rest
    pure (value :: values)

end

end Expr

namespace Action

mutual

/-- Run one action: how it ended the script, if it did, and the context. -/
def run (payload : Option Json) :
    Action → Option Context → Task Empty World (Option Ending × Option Context)
  | .log tag, context =>
    (Task.ofState fun world => ((), world.log tag)).bind fun _ => .done (none, context)
  | .setStatus status, context => .done (none, context.map (·.setStatus status))
  | .addHeader name value, context => .done (none, context.map (·.addHeader name value))
  | .assign field expr, context =>
    (Task.ofState (expr.eval payload context)).bind fun value =>
      .done (none, context.map (·.set field value))
  | .pause polls, context => (Task.pause polls).bind fun _ => .done (none, context)
  | .raise kind expr, context =>
    match kind.dynamic, expr with
    | true, some expr =>
      (Task.ofState (expr.eval payload context)).bind fun value =>
        .done (some (.raised (kind.raise value)), context)
    | _, _ => .done (some (.raised (kind.raise .null)), context)
  | .answer expr, context =>
    (Task.ofState (expr.eval payload context)).bind fun value =>
      .done (some (.value value), context)
  | .unencodable, context => .done (some .unencodable, context)
  | .branch left right same different, context =>
    (Task.ofState (left.eval payload context)).bind fun leftValue =>
      (Task.ofState (right.eval payload context)).bind fun rightValue =>
        if leftValue == rightValue then runAll payload same context
        else runAll payload different context

/-- Run actions in order until one ends the script. -/
def runAll (payload : Option Json) :
    List Action → Option Context → Task Empty World (Option Ending × Option Context)
  | [], context => .done (none, context)
  | action :: rest, context =>
    (run payload action context).bind fun out =>
      match out.1 with
      | some _ => .done out
      | none => runAll payload rest out.2

end

end Action

/-- How a script is called. -/
inductive CallStyle where
  | plain | contextual | deferred | deferredContextual
  deriving DecidableEq, Repr

/-- A script with its identity. -/
structure Script where
  id : Nat
  style : CallStyle
  actions : List Action

namespace Script

/-- Run the script. -/
def run (script : Script) (payload : Option Json) (context : Option Context) :
    Task Empty World (Ending × Option Context) :=
  (Action.runAll payload script.actions context).bind fun out =>
    .done (out.1.getD (.value .null), out.2)

/-- The outcome of a task whose stops do not matter. -/
def withoutStops {α : Type} (task : Task Empty World α) : StateM World α := fun world =>
  let completed := task.complete world
  (completed.value, completed.state)

/-- The script as a callback whose result is read off its ending. -/
def callback {α : Type} (script : Script) (read : Ending → α) : Callback World α :=
  let bare (payload : Option Json) : Task Empty World α :=
    (script.run payload none).bind fun out => .done (read out.1)
  let withContext (payload : Option Json) (context : Context) : Task Empty World (α × Context) :=
    (script.run payload (some context)).bind fun out =>
      .done (read out.1, out.2.getD context)
  ⟨script.id, match script.style with
    | .plain => .plain fun payload => withoutStops (bare payload)
    | .contextual => .contextual fun payload context => withoutStops (withContext payload context)
    | .deferred => .deferred bare
    | .deferredContextual => .deferredContextual withContext⟩

end Script

end RouteTree
