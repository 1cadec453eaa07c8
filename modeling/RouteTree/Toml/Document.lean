import RouteTree.Toml.Number

/-!
# Reading TOML documents

Values are read to a bounded depth. A document is a sequence of lines: keys
with values, headers that open a table, and headers that open one more table of
a list. The table being filled is kept aside until the next header.
-/

namespace RouteTree.Toml

mutual

/-- A value. The fuel bounds the steps, and `depth` counts the brackets and
braces around it. -/
def value? : Nat → Nat → List Char → Option (Node × List Char)
  | 0, _, _ => none
  | fuel + 1, depth, text =>
    match text with
    | [] => none
    | c :: rest =>
      if c = '"' || c = '\x27' then
        (string? text).map fun out => (.text (String.ofList out.1), out.2)
      else if c = '[' then
        if depth + 1 ≥ depthLimit then none
        else (items? fuel (depth + 1) rest).map fun out => (.array out.1, out.2)
      else if c = '\x7b' then
        if depth + 1 ≥ depthLimit then none
        else match skipBlanks rest with
          | '\x7d' :: rest => some (.inline .explicit [], rest)
          | rest =>
            (pairs? fuel (depth + 1) [] rest).map fun out => (.inline .explicit out.1, out.2)
      else if c = '+' || c = '-' || isDigit c then numeral? text
      else match text with
        | 't' :: 'r' :: 'u' :: 'e' :: rest => some (.boolean true, rest)
        | 'f' :: 'a' :: 'l' :: 's' :: 'e' :: rest => some (.boolean false, rest)
        | text => special? text

/-- The rest of a list, up to its closing bracket. A comma may stand behind the
last item. -/
def items? : Nat → Nat → List Char → Option (List Node × List Char)
  | 0, _, _ => none
  | fuel + 1, depth, text =>
    match skipFiller false text with
    | ']' :: rest => some ([], rest)
    | text =>
      match value? fuel depth text with
      | none => none
      | some (item, rest) =>
        match skipFiller false rest with
        | ',' :: rest =>
          match items? fuel depth rest with
          | some (items, rest) => some (item :: items, rest)
          | none => none
        | ']' :: rest => some ([item], rest)
        | _ => none

/-- The rest of an inline table, up to its closing brace. -/
def pairs? : Nat → Nat → Entries → List Char → Option (Entries × List Char)
  | 0, _, _, _ => none
  | fuel + 1, depth, entries, text =>
    match key? text with
    | some ((path, key), '=' :: rest) =>
      match value? fuel depth (skipBlanks rest) with
      | none => none
      | some (node, rest) =>
        match entries.modifyInlineAt (Entries.addAt? path.isEmpty key node) path .explicit with
        | none => none
        | some entries =>
          match skipBlanks rest with
          | ',' :: rest => pairs? fuel depth entries rest
          | '\x7d' :: rest => some (entries, rest)
          | _ => none
    | _ => none

end

/-- A document that is being read. -/
structure Draft where
  /-- The tables that are complete. -/
  root : Entries := []
  /-- Where the table being filled belongs; nothing for the document itself. -/
  header : Option (List String × String) := none
  /-- Whether the table being filled is one of a list. -/
  repeated : Bool := false
  /-- The table being filled. -/
  current : Entries := []

namespace Draft

/-- Put the table being filled where it belongs. -/
def close (draft : Draft) : Option Entries :=
  match draft.header with
  | none => some draft.current
  | some (path, key) =>
    draft.root.modifyAt false (fun _ entries =>
      match entries.find? key, draft.repeated with
      | none, true => some (entries.set key (.tables [draft.current]))
      | some (.tables items), true => some (entries.set key (.tables (items ++ [draft.current])))
      | none, false => some (entries.set key (.table .explicit draft.current))
      | some (.table .implied _), false | some (.table .dotted _), false =>
        some (entries.set key (.table .explicit draft.current))
      | _, _ => none) path .explicit

/-- Start the table of a header. A table that was only implied goes on with
what it holds; any other table of that name is closed. -/
def openTable (draft : Draft) (path : List String) (key : String) : Option Draft :=
  match draft.close with
  | none => none
  | some root =>
    let held := fun (_ : Origin) (entries : Entries) =>
      match entries.find? key with
      | none => some entries
      | some (.table .implied _) => some entries
      | some _ => none
    match root.modifyAt false held path .explicit with
    | none => none
    | some root =>
      let current := implied key path root
      match root.modifyAt false (fun _ entries => some (entries.erase key)) path .explicit with
      | none => none
      | some root => some { root, header := some (path, key), current }
where
  /-- What the implied table at the end of a path holds. -/
  implied (key : String) : List String → Entries → Entries
    | [], entries =>
      match entries.find? key with
      | some (.table _ inner) => inner
      | _ => []
    | step :: path, entries =>
      match entries.find? step with
      | some (.table _ inner) => implied key path inner
      | some (.tables items) => implied key path (items.getLast?.getD [])
      | _ => []

/-- Start one more table of a list. -/
def openRepeated (draft : Draft) (path : List String) (key : String) : Option Draft :=
  match draft.close with
  | none => none
  | some root =>
    let listed := fun (_ : Origin) (entries : Entries) =>
      match entries.find? key with
      | none => some entries
      | some (.tables _) => some entries
      | some _ => none
    (root.modifyAt false listed path .explicit).map fun root =>
      { root, header := some (path, key), repeated := true }

/-- Add a key with its value to the table being filled. -/
def add (draft : Draft) (path : List String) (key : String) (node : Node) : Option Draft :=
  (draft.current.modifyAt true (Entries.addAt? path.isEmpty key node) path .explicit).map
    fun current => { draft with current }

end Draft

/-- Read a header: what follows it, and the document after it. -/
def header? (draft : Draft) : List Char → Option (Draft × List Char)
  | '[' :: '[' :: rest =>
    match key? rest with
    | some ((path, key), ']' :: ']' :: rest) =>
      match trailing? rest with
      | some rest => (draft.openRepeated path key).map (·, rest)
      | none => none
    | _ => none
  | '[' :: rest =>
    match key? rest with
    | some ((path, key), ']' :: rest) =>
      match trailing? rest with
      | some rest => (draft.openTable path key).map (·, rest)
      | none => none
    | _ => none
  | _ => none

/-- Read a line with a key and its value. -/
def pair? (draft : Draft) (text : List Char) : Option (Draft × List Char) :=
  match key? text with
  | some ((path, key), '=' :: rest) =>
    match value? (2 * rest.length + 2) 0 (skipBlanks rest) with
    | some (node, rest) =>
      match trailing? rest with
      | some rest => (draft.add path key node).map (·, rest)
      | none => none
    | none => none
  | _ => none

/-- Read the lines of a document. -/
def lines? : Nat → Draft → List Char → Option Entries
  | 0, _, _ => none
  | fuel + 1, draft, text =>
    match skipBlanks text with
    | [] => draft.close
    | '#' :: rest =>
      match lineEnd? (rest.dropWhile isCommentChar) with
      | some rest => lines? fuel draft rest
      | none => none
    | '[' :: rest =>
      match header? draft ('[' :: rest) with
      | some (draft, rest) => lines? fuel draft rest
      | none => none
    | text =>
      match newline? text with
      | some rest => lines? fuel draft rest
      | none =>
        match pair? draft text with
        | some (draft, rest) => lines? fuel draft rest
        | none => none

/-- Read a document. A byte order mark in front of it does not count. -/
def parse? (document : String) : Option Entries :=
  let text := match document.toList with
    | '\ufeff' :: rest => rest
    | text => text
  lines? (text.length + 1) {} text

end RouteTree.Toml
