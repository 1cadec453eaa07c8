import RouteTree.Text.Quoted
import RouteTree.Text.Split

/-!
# Locations in the context state

A location is a non-empty list of field names, written with dots between them.
No name in it is empty, and a name cannot hold a dot.
-/

namespace RouteTree

/-- A place in the context state: the fields to pass through, outermost first,
and the field itself. -/
structure Location where
  parents : List String
  field : String
  deriving DecidableEq, Repr

namespace Location

/-- All field names, outermost first. -/
def segments (location : Location) : List String := location.parents ++ [location.field]

/-- The location with these segments, if there are any. -/
def ofSegments? : List String → Option Location
  | [] => none
  | [field] => some ⟨[], field⟩
  | parent :: next :: rest =>
    (ofSegments? (next :: rest)).map fun inner => ⟨parent :: inner.parents, inner.field⟩

/-- Read a location, unless some name is empty. -/
def parse? (text : String) : Option Location :=
  let pieces := Text.splitOn '.' text.toList
  if pieces.any List.isEmpty then none else ofSegments? (pieces.map String.ofList)

/-- The names with dots between them. -/
def text (location : Location) : String := Text.join "." location.segments

/-- The message for a text that is no location. -/
def invalidMessage (text : String) : String :=
  "invalid context path " ++ Text.quoted text ++ ": segments must be non-empty"

@[simp] theorem segments_mk (parents : List String) (field : String) :
    (Location.mk parents field).segments = parents ++ [field] := rfl

theorem segments_of_ofSegments? {names : List String} {location : Location}
    (h : ofSegments? names = some location) : location.segments = names := by
  induction names generalizing location with
  | nil => simp [ofSegments?] at h
  | cons name names ih =>
    cases names with
    | nil =>
      simp only [ofSegments?, Option.some.injEq] at h
      subst h
      rfl
    | cons next rest =>
      simp only [ofSegments?, Option.map_eq_some_iff] at h
      obtain ⟨inner, hi, rfl⟩ := h
      simp [segments, ← ih hi]

end Location

end RouteTree
