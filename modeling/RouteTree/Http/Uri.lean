import RouteTree.Text.Split

/-!
# Request targets

A request names its target as a path with an optional query and fragment, as
an absolute target with scheme and authority in front, as an authority alone,
or as a single star. Routing sees the path part only, and nothing is decoded.
-/

namespace RouteTree.Http.Uri

/-- A target is refused when it takes more bytes than this. -/
def maxBytes : Nat := 65534

/-- A scheme longer than this is refused. -/
def maxScheme : Nat := 64

def isSchemeChar (c : Char) : Bool :=
  c.isAlphanum || ['+', '-', '.', '~'].contains c

/-- The characters an authority may hold. The percent sign is judged by its
place, and a slash, a question mark or a number sign ends the authority. -/
def isAuthorityChar (c : Char) : Bool :=
  c.isAlphanum ||
    ['!', '$', '&', '\x27', '(', ')', '*', '+', ',', '-', '.', ';', '=', '_', '~'].contains c

/-- The characters that may stand in a path as they are, among them all beyond
ASCII. -/
def isPathChar (c : Char) : Bool :=
  let n := c.toNat
  n = 0x21 || n = 0x22 || (0x24 ≤ n && n ≤ 0x3b) || n = 0x3d || (0x40 ≤ n && n ≤ 0x5f) ||
    (0x61 ≤ n && n ≤ 0x7e) || 0x80 ≤ n

/-- The characters that may stand in a query as they are, among them all beyond
ASCII. -/
def isQueryChar (c : Char) : Bool :=
  let n := c.toNat
  n = 0x21 || (0x24 ≤ n && n ≤ 0x3b) || n = 0x3d || (0x3f ≤ n && n ≤ 0x7e) || 0x80 ≤ n

/-- What follows a scheme and its `://`, if the text starts with a scheme.
The count is the number of scheme characters read so far. -/
def afterScheme : Nat → List Char → Option (Nat × List Char)
  | count, ':' :: '/' :: '/' :: rest => some (count, rest)
  | _, [] => none
  | count, c :: rest => if isSchemeChar c then afterScheme (count + 1) rest else none

/-- What the characters of an authority have shown so far. -/
structure AuthorityScan where
  colons : Nat := 0
  opened : Bool := false
  closed : Bool := false
  percent : Bool := false
  endsInAt : Bool := false

namespace AuthorityScan

/-- Take one character of the authority. An at sign or a closing bracket
forgives the colons and percent signs before it. -/
def push (scan : AuthorityScan) (c : Char) : Option AuthorityScan :=
  if c = ':' then
    if scan.colons ≥ 8 then none
    else some { scan with colons := scan.colons + 1, endsInAt := false }
  else if c = '[' then
    if scan.percent || scan.opened then none
    else some { scan with opened := true, endsInAt := false }
  else if c = ']' then
    if !scan.opened || scan.closed then none
    else some { scan with closed := true, colons := 0, percent := false, endsInAt := false }
  else if c = '@' then
    some { scan with colons := 0, percent := false, endsInAt := true }
  else if c = '%' then
    some { scan with percent := true, endsInAt := false }
  else if isAuthorityChar c then some { scan with endsInAt := false }
  else none

/-- Whether a complete authority may end here. -/
def complete (scan : AuthorityScan) : Bool :=
  scan.opened == scan.closed && scan.colons ≤ 1 && !scan.endsInAt && !scan.percent

end AuthorityScan

/-- Read an authority: how many characters it has and what follows it. -/
def authority : Nat → AuthorityScan → List Char → Option (Nat × List Char)
  | count, scan, [] => if scan.complete then some (count, []) else none
  | count, scan, c :: rest =>
    if c = '/' || c = '?' || c = '#' then
      if scan.complete then some (count, c :: rest) else none
    else match scan.push c with
      | none => none
      | some scan => authority (count + 1) scan rest

/-- The path part of a path with optional query and fragment; an empty path is
the root. -/
def pathPart (text : List Char) : Option (List Char) :=
  let (target, _) := Text.splitFirst '#' text
  let (path, query) := Text.splitFirst '?' target
  if path.all isPathChar && (query.getD []).all isQueryChar then
    some (if path = [] then ['/'] else path)
  else none

/-- The path of a target that does not start with a slash: an absolute target
has a scheme and a non-empty authority, and a bare authority has no path. -/
def absolutePath (text : List Char) : Option (List Char) :=
  match afterScheme 0 text with
  | some (length, rest) =>
    if length > maxScheme then none
    else match authority 0 {} rest with
      | some (0, _) => none
      | some (_, rest) => pathPart rest
      | none => none
  | none =>
    match authority 0 {} text with
    | some (_, []) => some []
    | _ => none

/-- The path that routing sees, or nothing for a malformed target. -/
def path? (target : String) : Option String :=
  if target.utf8ByteSize > maxBytes then none
  else match target.toList with
    | [] => none
    | ['*'] => some "*"
    | '/' :: rest => (pathPart ('/' :: rest)).map String.ofList
    | text => (absolutePath text).map String.ofList

end RouteTree.Http.Uri
