import RouteTree.Build.Group
import RouteTree.Build.Terminal

/-!
# Compiling routes

A route is compiled from its groups, its terminal and its table of faults. The
deferred scope opens at the first group that may stop, and the context is
allocated in front of the first group that uses it, or at the end if only the
terminal does. A compiler keeps the tables between routes.
-/

namespace RouteTree

open Http

variable {σ : Type}

/-- What one route is compiled from. -/
structure RoutePlan (σ : Type) where
  groups : List (Group σ)
  terminal : Terminal σ
  faults : FaultTable σ

namespace Draft

/-- Add a group of the route. -/
def addGroup (draft : Draft σ) (group : Group σ) : Draft σ :=
  let (fragment, draft) := group.compile draft
  let draft := if fragment.deferred then draft.openScope else draft
  let draft := if fragment.needsContext then draft.allocate else draft
  draft.emit (.group fragment) (Listing.block (groupName group.id) fragment.listing)

/-- Add the terminal, behind the allocation of a context that only it uses. -/
def addTerminal (draft : Draft σ) (terminal : Terminal σ) (unhandled : Response) :
    Endpoint σ × Draft σ :=
  let (built, values) := terminal.compile none draft.scopeOpen unhandled draft.tables.values
  let draft := draft.setValues values
  let draft := if built.needsContext then draft.allocate else draft
  (built.endpoint, draft.note built.listing)

/-- The stage of a chain that an element becomes. -/
def stage? : Item σ → Option (Stage σ)
  | .allocate => some .allocate
  | .group fragment => some (.group fragment)
  | .openScope | .op _ => none

/-- Put one more element behind the stages before the opening of the scope, or after
it if there has been one. An opening starts the scope anew. -/
def place (parts : List (Stage σ) × Option (List (Stage σ))) (item : Item σ) :
    List (Stage σ) × Option (List (Stage σ)) :=
  match item with
  | .openScope => (parts.1, some [])
  | item =>
    match parts.2 with
    | some scope => (parts.1, some (scope ++ (stage? item).toList))
    | none => (parts.1 ++ (stage? item).toList, none)

/-- The stages before the opening of the scope and, if there is one, after it. -/
def split (items : List (Item σ)) : List (Stage σ) × Option (List (Stage σ)) :=
  items.foldl place ([], none)

/-- The chain that a finished draft describes. -/
def toChain (draft : Draft σ) (endpoint : Endpoint σ) (faults : BuiltSwitch σ) : Chain σ :=
  let (eager, scope) := split draft.items
  let inScope :=
    if draft.scopeOpen then Listing.text "\n\x7d " ++ faults.scopedListing
    else Listing.empty
  let before :=
    if eager.any fun stage => stage.fragment?.isSome then Listing.text "\n" ++ faults.listing
    else Listing.empty
  { eager
    scope
    endpoint
    switch := faults.switch
    listing := Listing.unlines draft.lines ++ inScope ++ before }

end Draft

/-- Totals of a compilation. -/
structure Stats where
  routes : Nat
  groups : Nat
  groupReuses : Nat
  faultTables : Nat
  values : Nat
  bindings : Nat
  deriving DecidableEq, Repr

namespace Stats

/-- A one-line summary. -/
def summary (stats : Stats) : String :=
  "CompileStats \x7b routes: " ++ Nat.repr stats.routes ++ ", groups: " ++
    Nat.repr stats.groups ++ ", group_cache_hits: " ++ Nat.repr stats.groupReuses ++
    ", error_tables: " ++ Nat.repr stats.faultTables ++ ", values: " ++
    Nat.repr stats.values ++ ", bindings: " ++ Nat.repr stats.bindings ++ " \x7d"

end Stats

/-- A compilation of several routes. -/
structure Compiler (σ : Type) where
  registry : FaultRegistry
  /-- The response for faults that nothing handles. -/
  unhandled : Response
  tables : Tables σ := {}
  /-- The compiled tables of faults, by identity. -/
  switches : List (Nat × BuiltSwitch σ) := []
  nextBinding : Nat := 0
  routes : Nat := 0

namespace Compiler

def new (registry : FaultRegistry) (unhandled : Response) : Compiler σ :=
  { registry, unhandled }

/-- The compiled form of a table of faults. -/
def switch? (compiler : Compiler σ) (table : Nat) : Option (BuiltSwitch σ) :=
  (compiler.switches.find? fun entry => entry.1 = table).map Prod.snd

/-- The compiled form of a table of faults, which is compiled when it is first
met. A table with a defect is compiled again at the next try. -/
def compileFaults (compiler : Compiler σ) (table : FaultTable σ) :
    Except Defect (BuiltSwitch σ) × Compiler σ :=
  match compiler.switch? table.id with
  | some built => (.ok built, compiler)
  | none =>
    match table.compile compiler.registry compiler.unhandled compiler.tables.values with
    | (.error error, values) =>
      (.error error, { compiler with tables := { compiler.tables with values } })
    | (.ok built, values) =>
      let (_, values) := values.intern (.table table.id)
      (.ok built,
        { compiler with
          tables := { compiler.tables with values }.record
            [.log (.tableCompiled table.entries.length)]
          switches := compiler.switches ++ [(table.id, built)] })

/-- The draft of a route whose faults go to a compiled table. -/
def assemble (compiler : Compiler σ) (plan : RoutePlan σ) (parameterized : Bool)
    (faults : BuiltSwitch σ) : Chain σ × Compiler σ :=
  let draft := Draft.new compiler.tables compiler.nextBinding parameterized
  let draft := plan.groups.foldl Draft.addGroup draft
  let (endpoint, draft) := draft.addTerminal plan.terminal faults.switch.unhandled
  (draft.toChain endpoint faults,
    { compiler with
      tables := draft.tables
      nextBinding := draft.nextBinding
      routes := compiler.routes + 1 })

/-- Compile one route. Only its table of faults can have a defect. -/
def compile (compiler : Compiler σ) (plan : RoutePlan σ) (parameterized : Bool) :
    Except Defect (Chain σ) × Compiler σ :=
  match compiler.compileFaults plan.faults with
  | (.error error, compiler) => (.error error, compiler)
  | (.ok faults, compiler) =>
    let (chain, compiler) := compiler.assemble plan parameterized faults
    (.ok chain, compiler)

/-- Record events. -/
def record (compiler : Compiler σ) (events : List Event) : Compiler σ :=
  { compiler with tables := compiler.tables.record events }

/-- The totals so far. -/
def stats (compiler : Compiler σ) : Stats :=
  { routes := compiler.routes
    groups := compiler.tables.cache.size
    groupReuses := compiler.tables.cache.hits
    faultTables := compiler.switches.length
    values := compiler.tables.values.size
    bindings := compiler.nextBinding }

end Compiler

end RouteTree
