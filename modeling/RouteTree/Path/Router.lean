import RouteTree.Http.Token
import RouteTree.Path.Pattern

/-!
# Routing tables

A path table finds a value by path. Patterns without parameters are found by
their exact text and come first; patterns with parameters are tried in the
order in which they were added. A router keeps one path table per method.
-/

namespace RouteTree

/-- Values by path. -/
structure PathIndex (α : Type) where
  /-- Values of patterns without parameters, by pattern text. -/
  exact : List (String × α) := []
  /-- Patterns with parameters, in the order in which they were added. -/
  patterns : List (Pattern × α) := []

namespace PathIndex

variable {α : Type}

def empty : PathIndex α := {}

/-- Add a value, and whether it was added: a pattern that is already there
keeps its value. -/
def insert (table : PathIndex α) (pattern : Pattern) (value : α) : Bool × PathIndex α :=
  if pattern.isStatic then
    if table.exact.any fun entry => entry.1 = pattern.text then (false, table)
    else (true, { table with exact := table.exact ++ [(pattern.text, value)] })
  else
    if table.patterns.any fun entry => entry.1 = pattern then (false, table)
    else (true, { table with patterns := table.patterns ++ [(pattern, value)] })

/-- The first pattern that matches the path, with its captures. -/
def scan (path : String) : List (Pattern × α) → Option (α × Option Params)
  | [] => none
  | (pattern, value) :: rest =>
    match pattern.capture path with
    | some params => some (value, some params)
    | none => scan path rest

/-- The value for a path. An exact match has no captures. -/
def lookup (table : PathIndex α) (path : String) : Option (α × Option Params) :=
  match table.exact.find? fun entry => entry.1 = path with
  | some (_, value) => some (value, none)
  | none => scan path table.patterns

def size (table : PathIndex α) : Nat := table.exact.length + table.patterns.length

end PathIndex

/-- One path table per method. -/
structure Router (α : Type) where
  tables : List (Http.Method × PathIndex α) := []

namespace Router

variable {α : Type}

def empty : Router α := {}

/-- The table of a method; a method without one has the empty table. -/
def table (router : Router α) (method : Http.Method) : PathIndex α :=
  match router.tables.find? fun entry => entry.1 = method with
  | some (_, table) => table
  | none => .empty

/-- Put a table in place of the method's former one. -/
def setTable (method : Http.Method) (table : PathIndex α) :
    List (Http.Method × PathIndex α) → List (Http.Method × PathIndex α)
  | [] => [(method, table)]
  | entry :: rest =>
    if entry.1 = method then (method, table) :: rest else entry :: setTable method table rest

/-- Add a value, and whether it was added. -/
def insert (router : Router α) (method : Http.Method) (pattern : Pattern) (value : α) :
    Bool × Router α :=
  let (added, table) := (router.table method).insert pattern value
  (added, ⟨setTable method table router.tables⟩)

/-- The value for a method and a path. -/
def lookup (router : Router α) (method : Http.Method) (path : String) :
    Option (α × Option Params) :=
  (router.table method).lookup path

/-- How many values the router holds. -/
def size (router : Router α) : Nat :=
  router.tables.foldl (fun total entry => total + entry.2.size) 0

end Router

end RouteTree
