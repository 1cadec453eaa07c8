/-!
# TOML documents as trees

A document is a table of keys. A key holds a scalar, a list, an inline table, a
table, or a list of tables. How a table came about matters while the document
is read: a table that was only implied by a longer header may still get a
header of its own, and one made by dotted keys may still grow by dotted keys.
-/

namespace RouteTree.Toml

/-- How a table came about. -/
inductive Origin where
  /-- By a header of its own, or by braces. -/
  | explicit
  /-- By the header of a table inside it. -/
  | implied
  /-- By a dotted key. -/
  | dotted
  deriving DecidableEq, Repr

inductive Node where
  | text (value : String)
  | integer (value : Int)
  | float
  | boolean (value : Bool)
  | moment
  | array (items : List Node)
  | inline (origin : Origin) (entries : List (String × Node))
  | table (origin : Origin) (entries : List (String × Node))
  /-- The tables of a repeated header, in order. -/
  | tables (items : List (List (String × Node)))

/-- The keys of a table with what they hold. -/
abbrev Entries := List (String × Node)

namespace Entries

/-- What a key holds. -/
def find? (key : String) : Entries → Option Node
  | [] => none
  | (other, node) :: rest => if other = key then some node else find? key rest

/-- Put something in place of what the key holds; a new key comes last. -/
def set (key : String) (node : Node) : Entries → Entries
  | [] => [(key, node)]
  | (other, old) :: rest =>
    if other = key then (key, node) :: rest else (other, old) :: set key node rest

/-- Forget a key. -/
def erase (key : String) (entries : Entries) : Entries :=
  entries.filter fun entry => entry.1 ≠ key

/-- Add a key that is not there yet. -/
def add? (key : String) (node : Node) (entries : Entries) : Option Entries :=
  match find? key entries with
  | some _ => none
  | none => some (entries ++ [(key, node)])

/-- Add a key at the end of a dotted path. A table reached by dots must have
been made by dots, and one reached directly must not. -/
def addAt? (direct : Bool) (key : String) (node : Node) (origin : Origin) (entries : Entries) :
    Option Entries :=
  if (origin == .dotted) == direct then none else add? key node entries

/-- Change the table at the end of a path of keys. Tables on the way are made
where they are missing; with `byDots`, tables with a header are closed. -/
def modifyAt (byDots : Bool) (change : Origin → Entries → Option Entries) :
    List String → Origin → Entries → Option Entries
  | [], origin, entries => change origin entries
  | key :: keys, _, entries =>
    match find? key entries with
    | none =>
      let origin : Origin := if byDots then .dotted else .implied
      (modifyAt byDots change keys origin []).map fun inner =>
        entries.set key (.table origin inner)
    | some (.table origin inner) =>
      if byDots && origin == .explicit then none
      else (modifyAt byDots change keys origin inner).map fun inner =>
        entries.set key (.table origin inner)
    | some (.tables items) =>
      match items.getLast? with
      | none => none
      | some last => (modifyAt byDots change keys .explicit last).map fun inner =>
        entries.set key (.tables (items.dropLast ++ [inner]))
    | some _ => none

/-- Change the table at the end of a dotted path inside an inline table. -/
def modifyInlineAt (change : Origin → Entries → Option Entries) :
    List String → Origin → Entries → Option Entries
  | [], origin, entries => change origin entries
  | key :: keys, _, entries =>
    match find? key entries with
    | none =>
      (modifyInlineAt change keys .dotted []).map fun inner =>
        entries.set key (.inline .dotted inner)
    | some (.inline origin inner) =>
      if origin == .explicit then none
      else (modifyInlineAt change keys origin inner).map fun inner =>
        entries.set key (.inline origin inner)
    | some _ => none

end Entries

end RouteTree.Toml
