/-!
# Value tables

Compiled routes refer to the objects they use by number. An object with an
identity gets one number however often it is met; an object made during
compilation is new each time. Numbers are given in the order of first use, and
the table only grows, so a number never changes its meaning.
-/

namespace RouteTree

/-- The identity of an object that several routes may share. -/
inductive ValueKey where
  | callback (id : Nat)
  | serializer (id : Nat)
  | table (id : Nat)
  | named (name : String)
  deriving DecidableEq, Repr

/-- The numbered objects; objects made during compilation have no identity. -/
structure ValueTable where
  slots : List (Option ValueKey) := []
  deriving DecidableEq, Repr

namespace ValueTable

def empty : ValueTable := {}

def size (table : ValueTable) : Nat := table.slots.length

/-- The number of a shared object, which is given one if it has none yet. -/
def intern (table : ValueTable) (key : ValueKey) : Nat × ValueTable :=
  match table.slots.findIdx? fun slot => slot = some key with
  | some index => (index, table)
  | none => (table.size, ⟨table.slots ++ [some key]⟩)

/-- The number of a new object. -/
def internFresh (table : ValueTable) : Nat × ValueTable :=
  (table.size, ⟨table.slots ++ [none]⟩)

/-- A one-line summary. -/
def summary (table : ValueTable) : String :=
  "ValueTable \x7b len: " ++ Nat.repr table.size ++ " \x7d"

@[simp] theorem size_empty : empty.size = 0 := rfl

@[simp] theorem internFresh_fst (table : ValueTable) : table.internFresh.1 = table.size := rfl

/-- A shared object that has a number is given it again. -/
theorem intern_of_found {table : ValueTable} {key : ValueKey} {index : Nat}
    (found : table.slots.findIdx? (fun slot => slot = some key) = some index) :
    table.intern key = (index, table) := by
  simp [intern, found]

end ValueTable

end RouteTree
