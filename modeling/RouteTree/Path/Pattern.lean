import RouteTree.Text.Quoted
import RouteTree.Text.Split

/-!
# Path patterns

A pattern is a path text whose segments are literal, a named parameter
(`:name`) or, in last place only, a star that takes the rest of the path.
Matching a path against a pattern captures one value for each parameter, in
pattern order.
-/

namespace RouteTree

/-- One segment of a pattern. -/
inductive Segment where
  /-- Text that the path must repeat. -/
  | literal (text : String)
  /-- One non-empty path segment. -/
  | param (name : String)
  /-- Everything that remains of the path. -/
  | rest
  deriving DecidableEq, Repr

/-- One captured value, named unless it is the rest of the path. -/
structure Capture where
  name : Option String
  value : String
  deriving DecidableEq, Repr

/-- The captures of a matched path, in pattern order. -/
structure Params where
  captures : List Capture := []
  deriving DecidableEq, Repr

namespace Params

/-- The value at a position. -/
def get? (params : Params) (index : Nat) : Option String :=
  params.captures[index]?.map Capture.value

/-- The value of the first capture with this name. -/
def named? (params : Params) (name : String) : Option String :=
  (params.captures.find? fun capture => capture.name = some name).map Capture.value

/-- All values in order. -/
def values (params : Params) : List String := params.captures.map Capture.value

end Params

/-- Why a text is no pattern. -/
inductive PatternReason where
  | noLeadingSlash
  | starNotLast
  | emptyName
  deriving DecidableEq, Repr

namespace PatternReason

def message : PatternReason → String
  | .noLeadingSlash => "must start with '/'"
  | .starNotLast => "'*' must be the last segment"
  | .emptyName => "parameter name is empty"

end PatternReason

/-- A path pattern with the text it was read from. -/
structure Pattern where
  text : String
  segments : List Segment
  deriving DecidableEq, Repr

namespace Pattern

/-- The segment that a piece between slashes stands for. A star is a segment of
its own kind only where nothing follows it. -/
def segment (piece : List Char) (isLast : Bool) : Except PatternReason Segment :=
  match piece with
  | ['*'] => if isLast then .ok .rest else .error .starNotLast
  | [':'] => .error .emptyName
  | ':' :: name => .ok (.param (String.ofList name))
  | piece => .ok (.literal (String.ofList piece))

/-- The segments of the pieces, or the reason of the leftmost offending one. -/
def segmentsOf : List (List Char) → Except PatternReason (List Segment)
  | [] => .ok []
  | piece :: pieces =>
    match segment piece pieces.isEmpty with
    | .error reason => .error reason
    | .ok first =>
      match segmentsOf pieces with
      | .error reason => .error reason
      | .ok others => .ok (first :: others)

/-- Read a pattern. -/
def parse (text : String) : Except PatternReason Pattern :=
  match text.toList with
  | '/' :: body =>
    match segmentsOf (Text.splitOn '/' body) with
    | .ok segments => .ok { text, segments }
    | .error reason => .error reason
  | _ => .error .noLeadingSlash

/-- The message for a text that is no pattern. -/
def invalidMessage (text : String) (reason : PatternReason) : String :=
  "invalid path pattern " ++ Text.quoted text ++ ": " ++ reason.message

/-- Whether a segment is literal text. -/
def isLiteral : Segment → Bool
  | .literal _ => true
  | _ => false

/-- Whether the pattern has no parameters. -/
def isStatic (pattern : Pattern) : Bool := pattern.segments.all isLiteral

/-- Match what is left of a path against the segments left. Each segment but
the last must be followed by a slash, and the last one by nothing. -/
def captureFrom : List Segment → List Char → Option (List Capture)
  | [], _ => some []
  | .rest :: _, path => some [⟨none, String.ofList path⟩]
  | segment :: others, path =>
    let (head, tail) := Text.splitFirst '/' path
    let here : Option (List Capture) := match segment with
      | .literal text => if head = text.toList then some [] else none
      | .param name => if head = [] then none else some [⟨some name, String.ofList head⟩]
      | .rest => none
    match here, tail, others with
    | none, _, _ => none
    | some found, none, [] => some found
    | some found, some path, next :: others =>
      (captureFrom (next :: others) path).map (found ++ ·)
    | some _, _, _ => none

/-- The captures of a path that matches the pattern. -/
def capture (pattern : Pattern) (path : String) : Option Params :=
  match path.toList with
  | '/' :: path => (captureFrom pattern.segments path).map Params.mk
  | _ => none

end Pattern

end RouteTree
