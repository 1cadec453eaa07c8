import RouteTree.Text.Split

/-!
# Listings

A listing shows a compiled route as text of several lines. It is kept as a tree
in which nested listings are shared, and written out only when it is shown.
References to numbered values stay references until then, so that two listings
can be compared up to the numbering.

Nesting one listing inside another indents each of its lines by two blanks. A
line ends at a line feed; a carriage return directly before it belongs to the
line end, and a listing that ends in a line feed has no further empty line.
-/

namespace RouteTree

/-- The name under which listings show a numbered value. -/
def valueName (index : Nat) : String := "v" ++ Nat.repr index

/-- The name under which listings show the result of a checked call. -/
def bindingName (index : Nat) : String := "x" ++ Nat.repr index

/-- One symbol of a listing that is written out. -/
inductive Symbol where
  | char (c : Char)
  /-- A reference to a numbered value. -/
  | value (index : Nat)
  deriving DecidableEq, Repr

namespace Symbol

/-- The characters of a symbol. -/
def chars : Symbol → List Char
  | .char c => [c]
  | .value index => (valueName index).toList

/-- Change the number of a reference. -/
def rename (f : Nat → Nat) : Symbol → Symbol
  | .char c => .char c
  | .value index => .value (f index)

/-- The symbols of a text without references. -/
def ofText (content : String) : List Symbol := content.toList.map .char

/-- A line without one carriage return at its end. -/
def dropReturn : List Symbol → List Symbol
  | [] => []
  | [.char '\r'] => []
  | symbol :: rest => symbol :: dropReturn rest

/-- Turn the pieces between line feeds into lines: all but the last piece were
ended by a line feed, and an empty last piece is no line. -/
def linesOfPieces : List (List Symbol) → List (List Symbol)
  | [] => []
  | [last] => if last = [] then [] else [last]
  | piece :: next :: pieces => dropReturn piece :: linesOfPieces (next :: pieces)

/-- The lines of written symbols. -/
def lines (symbols : List Symbol) : List (List Symbol) :=
  linesOfPieces (Text.splitOn (.char '\n') symbols)

/-- Every line moved right by two blanks. -/
def indent (symbols : List Symbol) : List Symbol :=
  Text.joinWith (.char '\n') ((lines symbols).map (ofText "  " ++ ·))

@[simp] theorem rename_eq_char_iff (f : Nat → Nat) (symbol : Symbol) (c : Char) :
    symbol.rename f = .char c ↔ symbol = .char c := by
  cases symbol <;> simp [rename]

@[simp] theorem map_rename_ofText (f : Nat → Nat) (content : String) :
    (ofText content).map (rename f) = ofText content := by
  simp [ofText, rename]

theorem dropReturn_map_rename (f : Nat → Nat) (line : List Symbol) :
    dropReturn (line.map (rename f)) = (dropReturn line).map (rename f) := by
  fun_induction dropReturn line with
  | case1 => rfl
  | case2 => rfl
  | case3 symbol rest hlast ih =>
    rw [List.map_cons, dropReturn, ih, List.map_cons]
    intro hsymbol hrest
    exact hlast ((rename_eq_char_iff f symbol '\r').mp hsymbol) (List.map_eq_nil_iff.mp hrest)

theorem linesOfPieces_map_rename (f : Nat → Nat) (pieces : List (List Symbol)) :
    linesOfPieces (pieces.map (List.map (rename f))) =
      (linesOfPieces pieces).map (List.map (rename f)) := by
  fun_induction linesOfPieces pieces with
  | case1 => rfl
  | case2 => rfl
  | case3 last hlast => simp [linesOfPieces, hlast]
  | case4 piece next pieces ih => simpa [linesOfPieces, dropReturn_map_rename] using ih

/-- Changing numbers moves no line end. -/
theorem lines_map_rename (f : Nat → Nat) (symbols : List Symbol) :
    lines (symbols.map (rename f)) = (lines symbols).map (List.map (rename f)) := by
  rw [lines, Text.splitOn_map (rename f) (.char '\n') (by simp), lines, linesOfPieces_map_rename]

theorem indent_map_rename (f : Nat → Nat) (symbols : List Symbol) :
    indent (symbols.map (rename f)) = (indent symbols).map (rename f) := by
  rw [indent, indent, Text.map_joinWith, lines_map_rename]
  simp [rename, Function.comp_def]

end Symbol

/-- A text with references, as a tree of its parts. -/
inductive Listing where
  | text (content : String)
  /-- A reference to a numbered value. -/
  | value (index : Nat)
  | append (first second : Listing)
  /-- The label and an opening brace, the indented body, and the closing brace
  on a line of its own. -/
  | block (label : String) (body : Listing)
  deriving DecidableEq, Repr

namespace Listing

instance : Append Listing := ⟨.append⟩

/-- The listing without symbols. -/
def empty : Listing := .text ""

/-- Listings below each other. -/
def unlines : List Listing → Listing
  | [] => empty
  | [only] => only
  | first :: next :: rest => first ++ (.text "\n" ++ unlines (next :: rest))

/-- Change the numbers of all references. -/
def rename (f : Nat → Nat) : Listing → Listing
  | .text content => .text content
  | .value index => .value (f index)
  | .append first second => .append (first.rename f) (second.rename f)
  | .block label body => .block label (body.rename f)

/-- The symbols of a listing. -/
def symbols : Listing → List Symbol
  | .text content => Symbol.ofText content
  | .value index => [.value index]
  | .append first second => first.symbols ++ second.symbols
  | .block label body =>
    Symbol.ofText (label ++ " \x7b\n") ++ (Symbol.indent body.symbols ++ Symbol.ofText "\n\x7d")

/-- The text of a listing. -/
def render (listing : Listing) : String :=
  String.ofList (listing.symbols.flatMap Symbol.chars)

@[simp] theorem rename_append (f : Nat → Nat) (first second : Listing) :
    (first ++ second).rename f = first.rename f ++ second.rename f := rfl

@[simp] theorem symbols_append (first second : Listing) :
    (first ++ second).symbols = first.symbols ++ second.symbols := rfl

/-- Changing numbers changes the references of the written listing and nothing
else. -/
theorem symbols_rename (f : Nat → Nat) (listing : Listing) :
    (listing.rename f).symbols = listing.symbols.map (Symbol.rename f) := by
  induction listing with
  | text content => simp [rename, symbols]
  | value index => rfl
  | append first second first_ih second_ih => simp [rename, symbols, first_ih, second_ih]
  | block label body ih => simp [rename, symbols, ih, Symbol.indent_map_rename]

end Listing

end RouteTree
