import RouteTree.Build.ValueTable
import RouteTree.Program.FaultSwitch

/-!
# Compiling terminals and fault tables

A terminal becomes an endpoint with the line that shows it. The line depends on
where the terminal stands: inside the deferred scope a function that may stop
is awaited, outside of it the reply is continued once it is done. A table of
faults becomes a switch, with one listing for faults raised before the deferred
scope and one for faults raised inside it.
-/

namespace RouteTree

open Http

/-- Why a route tree cannot be compiled. -/
inductive Defect where
  | duplicateFault (id : Nat)
  | unknownFault (id : Nat)
  | duplicateRoute (method : Method) (path : String)
  | invalidPath (path : String) (reason : PatternReason)
  deriving DecidableEq, Repr

namespace Defect

def message : Defect → String
  | .duplicateFault id => "error #" ++ Nat.repr id ++ " is handled more than once"
  | .unknownFault id => "error #" ++ Nat.repr id ++ " was not declared by this route tree"
  | .duplicateRoute method path =>
    "route " ++ method.name ++ " " ++ path ++ " is registered more than once"
  | .invalidPath path reason => Pattern.invalidMessage path reason

end Defect

/-- A compiled terminal. -/
structure BuiltTerminal (σ : Type) where
  endpoint : Endpoint σ
  needsContext : Bool
  /-- The line where the terminal stands. -/
  listing : Listing
  /-- The line inside a deferred scope. -/
  scopedListing : Listing

namespace Encoder

/-- Number the serializers of statuses in order, with the text of each case. -/
def compileCases : List (Status × Serializer) → ValueTable → List Listing × ValueTable
  | [], values => ([], values)
  | (status, serializer) :: rest, values =>
    let (index, values) := values.intern (.serializer serializer.id)
    let (cases, values) := compileCases rest values
    ((Listing.text (Nat.repr status.code ++ ": ") ++ Listing.value index) :: cases, values)

/-- Cases with commas and blanks between them. -/
def joinCases : List Listing → Listing
  | [] => Listing.empty
  | [only] => only
  | first :: next :: rest => first ++ Listing.text ", " ++ joinCases (next :: rest)

/-- Number the serializers, the default one first, and give the word for the
encoding. -/
def compile (encoder : Encoder) (values : ValueTable) : Listing × ValueTable :=
  let (default, values) : Option Listing × ValueTable := match encoder.default with
    | some serializer =>
      let (index, values) := values.intern (.serializer serializer.id)
      (some (Listing.value index), values)
    | none => (none, values)
  match encoder.byStatus, default with
  | [], none => (Listing.text "json", values)
  | [], some name => (Listing.text "json " ++ name, values)
  | byStatus, default =>
    let (cases, values) := compileCases byStatus values
    (Listing.text "json[" ++ joinCases cases ++ Listing.text "; default: " ++
      default.getD (Listing.text "encode") ++ Listing.text "]", values)

end Encoder

namespace Callback

variable {σ α : Type}

/-- The line that returns the result of a terminal's function, which has this
number. -/
def returnLine (callback : Callback σ α) (index : Nat) (wrap : Listing)
    (payload : Option String) (inScope : Bool) : Listing :=
  let arguments := match payload, callback.needsContext with
    | some payload, true => payload ++ ", c"
    | some payload, false => payload
    | none, true => "c"
    | none, false => ""
  let call := Listing.value index ++ Listing.text ("(" ++ arguments ++ ")")
  if !callback.suspends then
    Listing.text "return " ++ wrap ++ Listing.text "(" ++ call ++ Listing.text ")"
  else if inScope then
    Listing.text "return " ++ wrap ++ Listing.text "(await " ++ call ++ Listing.text ")"
  else
    Listing.text "return " ++ call ++ Listing.text ".then(" ++ wrap ++ Listing.text ")"

/-- Number the function and put its endpoint and lines together. -/
def compileTerminal (callback : Callback σ α) (endpoint : Endpoint σ) (wrap : Listing)
    (payload : Option String) (inScope : Bool) (values : ValueTable) :
    BuiltTerminal σ × ValueTable :=
  let (index, values) := values.intern (.callback callback.id)
  ({ endpoint
     needsContext := callback.needsContext
     listing := callback.returnLine index wrap payload inScope
     scopedListing := callback.returnLine index wrap payload true }, values)

end Callback

namespace Page

/-- Number what the page sends. Text is kept apart from its head. -/
def compile {σ : Type} (page : Page) (values : ValueTable) : BuiltTerminal σ × ValueTable :=
  let (line, values) : Listing × ValueTable := match page.body with
    | .null =>
      let (index, values) := values.internFresh
      (Listing.text "return " ++ Listing.value index, values)
    | .str _ =>
      let (_, values) := values.internFresh
      let (index, values) := values.internFresh
      (Listing.text "return new Response(" ++ Listing.value index ++ Listing.text ")", values)
    | _ =>
      let (index, values) := values.internFresh
      (Listing.text "return " ++ Listing.value index ++ Listing.text ".clone()", values)
  ({ endpoint := .fixed page.response
     needsContext := false
     listing := line
     scopedListing := line }, values)

end Page

namespace Terminal

variable {σ : Type}

/-- Compile a terminal. The payload is the text that stands for a fault's
payload, and the response answers for results that are no values. -/
def compile (terminal : Terminal σ) (payload : Option String) (inScope : Bool)
    (unhandled : Response) (values : ValueTable) : BuiltTerminal σ × ValueTable :=
  match terminal with
  | .function callback =>
    callback.compileTerminal (.function callback) (Listing.text "respond") payload inScope values
  | .formatted callback encoder =>
    let (wrap, values) := encoder.compile values
    callback.compileTerminal (.formatted callback encoder unhandled) wrap payload inScope values
  | .fixed page => page.compile values

end Terminal

/-- The compiled terminal of one kind of fault, with its listings. -/
structure BuiltBranch (σ : Type) where
  id : Nat
  branch : Branch σ
  listing : Listing
  scopedListing : Listing

/-- A compiled table of faults, with its listings. -/
structure BuiltSwitch (σ : Type) where
  switch : FaultSwitch σ
  /-- Shown for faults raised before the deferred scope. -/
  listing : Listing
  /-- Shown for faults raised inside the deferred scope. -/
  scopedListing : Listing

namespace BuiltBranch

variable {σ : Type}

/-- Put the allocation of a fresh context in front of a branch that uses it. -/
def withContext (needsContext : Bool) (listing : Listing) : Listing :=
  if needsContext then Listing.text "let c = \x7bstatus:200, headers:[]\x7d\n" ++ listing
  else listing

/-- Compile the terminal bound to a kind of fault. -/
def build (kind : FaultKind) (terminal : Terminal σ) (unhandled : Response)
    (values : ValueTable) : BuiltBranch σ × ValueTable :=
  let payload := if kind.dynamic then some "e.payload" else none
  let (built, values) := terminal.compile payload false unhandled values
  ({ id := kind.id
     branch := ⟨built.endpoint, kind.dynamic, built.needsContext⟩
     listing := withContext built.needsContext built.listing
     scopedListing := withContext built.needsContext built.scopedListing }, values)

/-- The block that shows branches, each with the listing chosen for it. -/
def render (listing : BuiltBranch σ → Listing) (branches : List (BuiltBranch σ)) : Listing :=
  let lines := match branches with
    | [] => [Listing.text "_ => return unhandled"]
    | [only] =>
      [Listing.block ("if e.id == " ++ Nat.repr only.id) (listing only),
        Listing.text "return unhandled"]
    | branches =>
      branches.map (fun branch =>
        Listing.block (Nat.repr branch.id ++ " =>") (listing branch)) ++
        [Listing.text "_ => return unhandled"]
  Listing.block "catch e" (Listing.unlines lines)

end BuiltBranch

namespace FaultTable

variable {σ : Type}

/-- Compile entries in order. Each kind must be the registry's own and must not
be bound twice; what was numbered before a defect stays numbered. -/
def compileEntries (registry : FaultRegistry) (unhandled : Response) :
    List Nat → List (FaultKind × Terminal σ) → ValueTable →
      Except Defect (List (BuiltBranch σ)) × ValueTable
  | _, [], values => (.ok [], values)
  | seen, (kind, terminal) :: rest, values =>
    if !registry.owns kind then (.error (.unknownFault kind.id), values)
    else if seen.contains kind.id then (.error (.duplicateFault kind.id), values)
    else
      let (branch, values) := BuiltBranch.build kind terminal unhandled values
      match compileEntries registry unhandled (kind.id :: seen) rest values with
      | (.ok branches, values) => (.ok (branch :: branches), values)
      | (.error error, values) => (.error error, values)

/-- The switch of compiled branches. -/
def switchOf (branches : List (BuiltBranch σ)) (unhandled : Response) : BuiltSwitch σ :=
  { switch := ⟨.ofList (branches.map fun branch => (branch.id, branch.branch)), unhandled⟩
    listing := BuiltBranch.render BuiltBranch.listing branches
    scopedListing := BuiltBranch.render BuiltBranch.scopedListing branches }

/-- Compile a table of faults. -/
def compile (table : FaultTable σ) (registry : FaultRegistry) (unhandled : Response)
    (values : ValueTable) : Except Defect (BuiltSwitch σ) × ValueTable :=
  match compileEntries registry unhandled [] table.entries values with
  | (.ok branches, values) => (.ok (switchOf branches unhandled), values)
  | (.error error, values) => (.error error, values)

end FaultTable

end RouteTree
