import RouteTree.Context
import RouteTree.Listing

/-!
# Events

Compiling and running leave a trace of events: calls of user functions with
what they were given, contexts that were allocated, faults that were raised,
counter increments, and log records. A record states what happened; its level,
wording and fields are read off it.
-/

namespace RouteTree

/-- The name under which listings and logs show a group. -/
def groupName (group : Nat) : String := "g" ++ Nat.repr group

/-- A user function was entered with this leading payload and this context. -/
structure Call where
  callback : Nat
  payload : Option Json
  context : Option Context

/-- What the counters count. -/
inductive Counter where
  | request (matched : Bool)
  | fault (handled : Bool)
  | groupCompiled
  | groupReused
  deriving DecidableEq, Repr

namespace Counter

/-- The name under which totals are shown. -/
def name : Counter → String
  | .request true => "dispatch_requests_total\x7boutcome=matched\x7d"
  | .request false => "dispatch_requests_total\x7boutcome=not_found\x7d"
  | .fault true => "dispatch_controlled_errors_total\x7bhandled=true\x7d"
  | .fault false => "dispatch_controlled_errors_total\x7bhandled=false\x7d"
  | .groupCompiled => "dispatch_compiled_groups_total"
  | .groupReused => "dispatch_group_cache_hits_total"

/-- Every counter once. -/
def all : List Counter :=
  [.request true, .request false, .fault true, .fault false, .groupCompiled, .groupReused]

end Counter

inductive Level where
  | trace | debug | info | warn | error
  deriving DecidableEq, Repr

def Level.text : Level → String
  | .trace => "TRACE"
  | .debug => "DEBUG"
  | .info => "INFO"
  | .warn => "WARN"
  | .error => "ERROR"

/-- One log record. -/
inductive Record where
  | groupReused (group : Nat)
  | groupCompiled (group handlers ops : Nat) (deferred needsContext : Bool)
  | tableCompiled (kinds : Nat)
  | routeCompiled (method path : String) (listing : Listing)
  | treeCompiled (routes groups reuses values : Nat)
  | requestMatched (method path : String) (deferred : Bool)
  | requestUnmatched (method path : String)
  | faultUnhandled (id : Nat)
  | outputUnencodable (reason : String)
  | settingsLoaded (notFound unhandled : Nat) (logListings : Bool)
  deriving DecidableEq, Repr

namespace Record

def level : Record → Level
  | .groupReused .. | .groupCompiled .. | .tableCompiled .. | .routeCompiled .. => .debug
  | .treeCompiled .. | .settingsLoaded .. => .info
  | .requestMatched .. | .requestUnmatched .. => .trace
  | .faultUnhandled .. => .warn
  | .outputUnencodable .. => .error

def message : Record → String
  | .groupReused .. => "Handler group cache hit"
  | .groupCompiled .. => "Compiled handler group"
  | .tableCompiled .. => "Compiled error table"
  | .routeCompiled .. => "Compiled route"
  | .treeCompiled .. => "Compiled route tree"
  | .requestMatched .. => "Dispatching request"
  | .requestUnmatched .. => "No route matched"
  | .faultUnhandled .. => "Unhandled controlled error"
  | .outputUnencodable .. => "Formatted route produced a value that cannot be encoded"
  | .settingsLoaded .. => "Configuration loaded"

/-- Named values of a record, in the order in which it shows them. -/
def fields : Record → List (String × Json)
  | .groupReused group => [("group", .str (groupName group))]
  | .groupCompiled group handlers ops deferred needsContext =>
    [("group", .str (groupName group)), ("handlers", .nat handlers), ("ops", .nat ops),
      ("deferred", .bool deferred), ("needs_context", .bool needsContext)]
  | .tableCompiled kinds => [("kinds", .nat kinds)]
  | .routeCompiled method path listing =>
    [("method", .str method), ("path", .str path), ("listing", .str listing.render)]
  | .treeCompiled routes groups reuses values =>
    [("routes", .nat routes), ("groups", .nat groups), ("group_cache_hits", .nat reuses),
      ("values", .nat values)]
  | .requestMatched method path deferred =>
    [("method", .str method), ("path", .str path), ("deferred", .bool deferred)]
  | .requestUnmatched method path => [("method", .str method), ("path", .str path)]
  | .faultUnhandled id => [("error_id", .nat id)]
  | .outputUnencodable reason => [("error", .str reason)]
  | .settingsLoaded notFound unhandled logListings =>
    [("not_found", .nat notFound), ("unhandled", .nat unhandled),
      ("log_listings", .bool logListings)]

end Record

/-- One observable step of compiling or running. -/
inductive Event where
  | call (made : Call)
  /-- The request got its context: where the route placed the allocation, or
  on demand where a step missed it. -/
  | allocated (onDemand : Bool)
  /-- A checked call failed with a fault of this number. -/
  | raised (fault : Nat)
  | count (counter : Counter)
  | log (record : Record)

namespace Event

/-- The log record of an event that is one. -/
def record? : Event → Option Record
  | .log record => some record
  | _ => none

/-- The call of an event that is one. -/
def call? : Event → Option Call
  | .call made => some made
  | _ => none

/-- Whether the event increments this counter. -/
def counts (counter : Counter) : Event → Bool
  | .count other => other = counter
  | _ => false

/-- The log records among events, in order. -/
def records (events : List Event) : List Record := events.filterMap record?

/-- The calls among events, in order. -/
def calls (events : List Event) : List Call := events.filterMap call?

/-- How often events increment a counter. -/
def total (counter : Counter) (events : List Event) : Nat := events.countP (counts counter)

@[simp] theorem calls_append (first second : List Event) :
    calls (first ++ second) = calls first ++ calls second := by
  simp [calls]

@[simp] theorem total_append (counter : Counter) (first second : List Event) :
    total counter (first ++ second) = total counter first + total counter second := by
  simp [total]

end Event

end RouteTree
