import RouteTree.Http.Headers
import RouteTree.Json.Text

/-!
# Responses

A response is a status, header fields and a body. Routes build it from a head,
which is the status and the fields left by the request's context, or the plain
head (status 200, no fields) when the request has no context.
-/

namespace RouteTree.Http

/-- A status code. -/
structure Status where
  code : Nat
  valid : 100 ≤ code ∧ code ≤ 999
  deriving DecidableEq, Repr

namespace Status

/-- The status with this number, which has three digits. -/
def ofNat? (code : Nat) : Option Status :=
  if h : 100 ≤ code ∧ code ≤ 999 then some ⟨code, h⟩ else none

def ok : Status := ⟨200, by decide⟩

def notFound : Status := ⟨404, by decide⟩

def internalError : Status := ⟨500, by decide⟩

end Status

structure Response where
  status : Status
  headers : Headers
  body : String
  deriving DecidableEq, Repr

/-- Status and header fields of a response whose body is still open. -/
structure Head where
  status : Status := .ok
  headers : Headers := .empty
  deriving DecidableEq, Repr

namespace Head

/-- The head of a request without a context. -/
def plain : Head := {}

/-- Complete the head with a body. -/
def respond (head : Head) (body : String) : Response :=
  { status := head.status, headers := head.headers, body }

/-- Complete the head with a JSON body; the content type is set unless the
request chose one. -/
def respondJson (head : Head) (body : String) : Response :=
  { status := head.status
    headers := head.headers.appendIfAbsent .contentType .json
    body }

@[simp] theorem respond_status (head : Head) (body : String) :
    (head.respond body).status = head.status := rfl

@[simp] theorem respond_headers (head : Head) (body : String) :
    (head.respond body).headers = head.headers := rfl

@[simp] theorem respond_body (head : Head) (body : String) :
    (head.respond body).body = body := rfl

@[simp] theorem respondJson_status (head : Head) (body : String) :
    (head.respondJson body).status = head.status := rfl

@[simp] theorem respondJson_body (head : Head) (body : String) :
    (head.respondJson body).body = body := rfl

end Head

namespace Response

/-- A fixed response without header fields. -/
def fixed (status : Status) (body : String) : Response :=
  { status, headers := .empty, body }

end Response

end RouteTree.Http
