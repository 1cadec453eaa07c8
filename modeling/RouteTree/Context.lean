import RouteTree.Context.Location
import RouteTree.Http.Response
import RouteTree.Path.Pattern

/-!
# Request contexts

A context is what one request shares between its handlers: the status and the
header fields of the coming response, the captures of the path, and a JSON
object of state. Storing at a location creates the objects on the way and
replaces anything on the way that is no object; reading never changes the
state.
-/

namespace RouteTree

namespace Fields

/-- Follow the parents through nested objects and read the field. -/
def getAt : List String → String → Fields → Option Json
  | [], field, fields => fields.find? field
  | parent :: parents, field, fields =>
    match fields.find? parent with
    | some (.obj inner) => getAt parents field inner
    | _ => none

/-- The object in a field, or the empty object if there is none. -/
def child (name : String) (fields : Fields) : Fields :=
  match fields.find? name with
  | some (.obj inner) => inner
  | _ => []

/-- Write the field inside the parents, which become objects. -/
def storeAt : List String → String → Json → Fields → Fields
  | [], field, value, fields => fields.insert field value
  | parent :: parents, field, value, fields =>
    fields.insert parent (.obj (storeAt parents field value (fields.child parent)))

@[simp] theorem getAt_nil (field : String) (fields : Fields) :
    getAt [] field fields = fields.find? field := rfl

@[simp] theorem storeAt_nil (field : String) (value : Json) (fields : Fields) :
    storeAt [] field value fields = fields.insert field value := rfl

@[simp] theorem storeAt_cons (parent : String) (parents : List String) (field : String)
    (value : Json) (fields : Fields) :
    storeAt (parent :: parents) field value fields =
      fields.insert parent (.obj (storeAt parents field value (fields.child parent))) := rfl

end Fields

structure Context where
  status : Http.Status := .ok
  headers : Http.Headers := .empty
  params : Option Params := none
  state : Fields := []

namespace Context

/-- The context at the start of a request. -/
def new (params : Option Params) : Context := { params }

/-- The capture at a position. -/
def param? (context : Context) (index : Nat) : Option String :=
  context.params.bind (·.get? index)

/-- The first capture with a name. -/
def named? (context : Context) (name : String) : Option String :=
  context.params.bind (·.named? name)

def setStatus (context : Context) (status : Http.Status) : Context := { context with status }

/-- Add a header field. -/
def addHeader (context : Context) (name : Http.HeaderName) (value : Http.HeaderValue) : Context :=
  { context with headers := context.headers.append name value }

/-- Write a top-level field whose name is taken as it is. -/
def set (context : Context) (name : String) (value : Json) : Context :=
  { context with state := context.state.insert name value }

/-- The value at a location. -/
def get? (context : Context) (location : Location) : Option Json :=
  context.state.getAt location.parents location.field

/-- Write the value at a location. -/
def store (context : Context) (location : Location) (value : Json) : Context :=
  { context with state := context.state.storeAt location.parents location.field value }

/-- Status and header fields for the response. -/
def head (context : Context) : Http.Head := ⟨context.status, context.headers⟩

@[simp] theorem store_status (context : Context) (location : Location) (value : Json) :
    (context.store location value).status = context.status := rfl

@[simp] theorem store_headers (context : Context) (location : Location) (value : Json) :
    (context.store location value).headers = context.headers := rfl

@[simp] theorem store_params (context : Context) (location : Location) (value : Json) :
    (context.store location value).params = context.params := rfl

/-- The header fields as an object: the last value of a name counts, and a
value that is not visible ASCII is left empty. -/
def headersJson (headers : Http.Headers) : Json :=
  .obj (Fields.ofList (headers.entries.map fun entry =>
    (entry.1.text, .str (entry.2.ascii?.getD ""))))

/-- The captured values as a list. -/
def paramsJson (params : Params) : Json := .arr (params.values.map .str)

/-- The context as a JSON object; without captures it has no such field. -/
def toJson (context : Context) : Json :=
  let captured := match context.params with
    | some params => [("params", paramsJson params)]
    | none => []
  .obj ([("headers", headersJson context.headers)] ++ captured ++
    [("state", .obj context.state), ("status", .nat context.status.code)])

end Context

end RouteTree
