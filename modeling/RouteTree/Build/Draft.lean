import RouteTree.Build.ValueTable
import RouteTree.Program.Chain

/-!
# Drafts

A draft collects what compiling a group or a route produces: elements in order,
lines of the listing, and numbers for the results of checked calls. The tables
of a compilation (numbered values, compiled groups, events) pass through every
draft. A group is compiled in a derived draft that shares the tables and
continues the numbering; its counter is merged back afterwards.
-/

namespace RouteTree

/-- One element of a draft. -/
inductive Item (σ : Type) : Type where
  | op (op : Op σ)
  | allocate
  | openScope
  | group (fragment : Fragment σ)

/-- The compiled groups of one compilation, in the order of compilation. -/
structure FragmentCache (σ : Type) where
  fragments : List (Fragment σ) := []
  /-- How often a compiled group was used again. -/
  hits : Nat := 0

namespace FragmentCache

variable {σ : Type}

/-- The compiled form of a group. -/
def find? (cache : FragmentCache σ) (group : Nat) : Option (Fragment σ) :=
  cache.fragments.find? fun fragment => fragment.group = group

def size (cache : FragmentCache σ) : Nat := cache.fragments.length

end FragmentCache

/-- What one compilation shares between all its drafts. -/
structure Tables (σ : Type) where
  values : ValueTable := .empty
  cache : FragmentCache σ := {}
  /-- Everything that happened so far, the latest first. -/
  journal : List Event := []

namespace Tables

variable {σ : Type}

/-- Record events. -/
def record (tables : Tables σ) (events : List Event) : Tables σ :=
  { tables with journal := events.reverse ++ tables.journal }

/-- Everything that happened so far, in order. -/
def events (tables : Tables σ) : List Event := tables.journal.reverse

/-- Forget what happened so far. -/
def forget (tables : Tables σ) : Tables σ := { tables with journal := [] }

@[simp] theorem events_record (tables : Tables σ) (events : List Event) :
    (tables.record events).events = tables.events ++ events := by
  simp [record, Tables.events]

/-- A compiled group is used again. -/
def reuse (tables : Tables σ) (group : Nat) : Tables σ :=
  { tables with cache := { tables.cache with hits := tables.cache.hits + 1 } }.record
    [.count .groupReused, .log (.groupReused group)]

/-- Keep a newly compiled group, which had this many handlers. -/
def remember (tables : Tables σ) (handlers : Nat) (fragment : Fragment σ) : Tables σ :=
  { tables with
    cache := { tables.cache with fragments := tables.cache.fragments ++ [fragment] } }.record
    [.log (.groupCompiled fragment.group handlers fragment.size fragment.deferred
      fragment.needsContext), .count .groupCompiled]

end Tables

structure Draft (σ : Type) where
  items : List (Item σ) := []
  lines : List Listing := []
  /-- For each handler so far, the number that its result got. -/
  bindings : List (Option Nat) := []
  tables : Tables σ
  nextBinding : Nat
  /-- Whether the deferred scope has been opened. -/
  scopeOpen : Bool := false
  /-- Whether the context has been allocated. -/
  contextReady : Bool := false
  /-- Whether the route's pattern has parameters. -/
  parameterized : Bool

namespace Draft

variable {σ : Type}

/-- An empty draft over the tables of a compilation. -/
def new (tables : Tables σ) (nextBinding : Nat) (parameterized : Bool) : Draft σ :=
  { tables, nextBinding, parameterized }

/-- An empty draft that shares the tables and continues the numbering. -/
def derive (draft : Draft σ) : Draft σ := new draft.tables draft.nextBinding draft.parameterized

/-- Go on after a derived draft, with the tables as it left them. -/
def resume (draft child : Draft σ) : Draft σ := { draft with tables := child.tables }

/-- Merge a counter back: numbers below it are taken. -/
def sync (draft : Draft σ) (nextBinding : Nat) : Draft σ :=
  { draft with nextBinding := max draft.nextBinding nextBinding }

/-- Take the next number for a result. -/
def bind (draft : Draft σ) : Nat × Draft σ :=
  (draft.nextBinding, { draft with nextBinding := draft.nextBinding + 1 })

/-- Replace the numbered values. -/
def setValues (draft : Draft σ) (values : ValueTable) : Draft σ :=
  { draft with tables := { draft.tables with values } }

/-- The number of a shared object. -/
def intern (draft : Draft σ) (key : ValueKey) : Nat × Draft σ :=
  let (index, values) := draft.tables.values.intern key
  (index, draft.setValues values)

/-- The number of a new object. -/
def internFresh (draft : Draft σ) : Nat × Draft σ :=
  let (index, values) := draft.tables.values.internFresh
  (index, draft.setValues values)

/-- Keep the number that a handler's result got, if it got one. -/
def assign (draft : Draft σ) (binding : Option Nat) : Draft σ :=
  { draft with bindings := draft.bindings ++ [binding] }

/-- Add a line to the listing. -/
def note (draft : Draft σ) (line : Listing) : Draft σ :=
  { draft with lines := draft.lines ++ [line] }

/-- Add an element and its line. -/
def emit (draft : Draft σ) (item : Item σ) (line : Listing) : Draft σ :=
  { draft with items := draft.items ++ [item], lines := draft.lines ++ [line] }

/-- Add the calls of a nested group, which has a line of its own. -/
def splice (draft : Draft σ) (ops : List (Op σ)) : Draft σ :=
  { draft with items := draft.items ++ ops.map .op }

/-- Open the deferred scope, once. -/
def openScope (draft : Draft σ) : Draft σ :=
  if draft.scopeOpen then draft
  else { draft.emit .openScope (Listing.text "async \x7b") with scopeOpen := true }

/-- The line that allocates a context. -/
def allocationLine (parameterized : Bool) : String :=
  if parameterized then "let c = \x7bstatus:200, headers:[], params\x7d"
  else "let c = \x7bstatus:200, headers:[]\x7d"

/-- Allocate the context, once. -/
def allocate (draft : Draft σ) : Draft σ :=
  if draft.contextReady then draft
  else
    { draft.emit .allocate (Listing.text (allocationLine draft.parameterized)) with
      contextReady := true }

/-- The calls among the elements, in order. -/
def ops (draft : Draft σ) : List (Op σ) :=
  draft.items.filterMap fun item =>
    match item with
    | .op op => some op
    | _ => none

end Draft

end RouteTree
