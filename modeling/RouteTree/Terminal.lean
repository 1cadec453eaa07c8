import RouteTree.Callback
import RouteTree.Fault
import RouteTree.Json.Writer

/-!
# Terminals

A terminal answers a request: by a user function whose result is the body, by
a user function whose result is encoded, or by a fixed page. A table of faults
binds terminals to the kinds of faults that handlers raise.
-/

namespace RouteTree

open Http

/-- A user's way to write a value, with its identity. -/
structure Serializer where
  id : Nat
  encode : Json → String

/-- How a formatted terminal writes its value: a serializer for certain
statuses, a serializer for all others, and plain JSON where there is none. -/
structure Encoder where
  default : Option Serializer := none
  byStatus : List (Status × Serializer) := []
  plain : Json.Writer := .exact

namespace Encoder

/-- Choose the serializer for statuses without one of their own. -/
def withDefault (encoder : Encoder) (serializer : Serializer) : Encoder :=
  { encoder with default := some serializer }

/-- Choose the serializer of one status; a former choice for it is dropped. -/
def withStatus (encoder : Encoder) (status : Status) (serializer : Serializer) : Encoder :=
  { encoder with
    byStatus := (encoder.byStatus.filter fun entry => entry.1 ≠ status) ++ [(status, serializer)] }

/-- The serializer that writes values under a status. -/
def select (encoder : Encoder) (status : Status) : Option Serializer :=
  match encoder.byStatus.find? fun entry => entry.1 = status with
  | some (_, serializer) => some serializer
  | none => encoder.default

/-- The body for a value under a status. -/
def encode (encoder : Encoder) (status : Status) (value : Json) : String :=
  match encoder.select status with
  | some serializer => serializer.encode value
  | none => encoder.plain.write value

end Encoder

/-- A page that is the same for every request. -/
structure Page where
  body : Json := .null
  status : Status := .ok
  headers : Headers := .empty
  plain : Json.Writer := .exact

namespace Page

/-- The response of a page: null is an empty body, text is sent as text, and
any other value as plain JSON. The content type is set unless the page chose one. -/
def response (page : Page) : Response :=
  match page.body with
  | .null => ⟨page.status, page.headers, ""⟩
  | .str text => ⟨page.status, page.headers.appendIfAbsent .contentType .plainText, text⟩
  | body => ⟨page.status, page.headers.appendIfAbsent .contentType .json, page.plain.write body⟩

end Page

inductive Terminal (σ : Type) : Type where
  /-- The function's result is the body. -/
  | function (callback : Callback σ String)
  /-- The function's result is encoded; it may turn out not to be a value. -/
  | formatted (callback : Callback σ (Except String Json)) (encoder : Encoder)
  | fixed (page : Page)

namespace Terminal

variable {σ : Type}

/-- Whether the terminal may stop before it answers. -/
def suspends : Terminal σ → Bool
  | .function callback => callback.suspends
  | .formatted callback _ => callback.suspends
  | .fixed _ => false

/-- Whether the terminal is given the context. -/
def needsContext : Terminal σ → Bool
  | .function callback => callback.needsContext
  | .formatted callback _ => callback.needsContext
  | .fixed _ => false

end Terminal

/-- Terminals for kinds of faults, in the order in which they were bound. Kinds
with a payload hand it to their terminal. -/
structure FaultTable (σ : Type) where
  id : Nat
  entries : List (FaultKind × Terminal σ) := []

namespace FaultTable

variable {σ : Type}

/-- Bind one more kind. -/
def bind (table : FaultTable σ) (kind : FaultKind) (terminal : Terminal σ) : FaultTable σ :=
  { table with entries := table.entries ++ [(kind, terminal)] }

end FaultTable

end RouteTree
