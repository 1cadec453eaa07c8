/-!
# TOML text and keys

Blanks, comments and line ends, the four kinds of strings, and keys. Every
function reads from the front of a text and gives back what it did not use.
-/

namespace RouteTree.Toml

def isBlank (c : Char) : Bool := c = ' ' || c = '\t'

/-- A character beyond ASCII, or a visible one, or a blank. -/
def isCommentChar (c : Char) : Bool :=
  c = '\t' || (0x20 ≤ c.toNat && c.toNat ≤ 0x7e) || 0x80 ≤ c.toNat

def skipBlanks (text : List Char) : List Char := text.dropWhile isBlank

/-- What follows a line feed, or a carriage return with a line feed. -/
def newline? : List Char → Option (List Char)
  | '\n' :: rest => some rest
  | '\r' :: '\n' :: rest => some rest
  | _ => none

/-- What follows the end of a line; the end of the text ends a line too. -/
def lineEnd? : List Char → Option (List Char)
  | [] => some []
  | text => newline? text

/-- What follows a comment, if there is one here. -/
def skipComment : List Char → List Char
  | '#' :: rest => rest.dropWhile isCommentChar
  | text => text

/-- What follows the rest of a line, which may hold blanks and a comment. -/
def trailing? (text : List Char) : Option (List Char) := lineEnd? (skipComment (skipBlanks text))

/-- Skip blanks, line ends and comments. -/
def skipFiller : Bool → List Char → List Char
  | _, [] => []
  | _, '\n' :: rest => skipFiller false rest
  | _, '\r' :: '\n' :: rest => skipFiller false rest
  | true, c :: rest => if isCommentChar c then skipFiller true rest else c :: rest
  | false, c :: rest =>
    if isBlank c then skipFiller false rest
    else if c = '#' then skipFiller true rest
    else c :: rest

/-- The value of a hexadecimal digit. -/
def hexValue? (c : Char) : Option Nat :=
  if '0' ≤ c ∧ c ≤ '9' then some (c.toNat - '0'.toNat)
  else if 'a' ≤ c ∧ c ≤ 'f' then some (c.toNat - 'a'.toNat + 10)
  else if 'A' ≤ c ∧ c ≤ 'F' then some (c.toNat - 'A'.toNat + 10)
  else none

/-- The number of hexadecimal digits, read on from `start`. -/
def hexNumber? : Nat → List Char → Option Nat
  | start, [] => some start
  | start, c :: rest =>
    match hexValue? c with
    | some digit => hexNumber? (start * 16 + digit) rest
    | none => none

/-- The character whose code point these digits name. -/
def charOfHex? (digits : List Char) : Option Char :=
  match hexNumber? 0 digits with
  | some point =>
    if point < 0xd800 ∨ (0xdfff < point ∧ point < 0x110000) then some (Char.ofNat point) else none
  | none => none

/-- The character that a letter after a backslash stands for. -/
def escape? (c : Char) : Option Char :=
  match c with
  | 'b' => some '\x08'
  | 't' => some '\t'
  | 'n' => some '\n'
  | 'f' => some '\x0c'
  | 'r' => some '\r'
  | '"' => some '"'
  | '\\' => some '\\'
  | _ => none

/-- A character that stands for itself in a basic string. -/
def isBasicChar (c : Char) : Bool := isCommentChar c && c ≠ '"' && c ≠ '\\'

/-- A character that stands for itself in a literal string. -/
def isLiteralChar (c : Char) : Bool := isCommentChar c && c ≠ '\x27'

/-- Put a character in front of a string that was read. -/
def consRead (c : Char) : Option (List Char × List Char) → Option (List Char × List Char)
  | some (chars, rest) => some (c :: chars, rest)
  | none => none

/-- One escaped character after a backslash. -/
def escaped? : List Char → Option (Char × List Char)
  | 'u' :: a :: b :: c :: d :: rest => (charOfHex? [a, b, c, d]).map (·, rest)
  | 'U' :: a :: b :: c :: d :: e :: f :: g :: h :: rest =>
    (charOfHex? [a, b, c, d, e, f, g, h]).map (·, rest)
  | c :: rest => (escape? c).map (·, rest)
  | [] => none

/-- The rest of a basic string, up to its closing quote. -/
def basicRest : Nat → List Char → Option (List Char × List Char)
  | 0, _ => none
  | _, [] => none
  | _ + 1, '"' :: rest => some ([], rest)
  | fuel + 1, '\\' :: rest =>
    match escaped? rest with
    | some (c, rest) => consRead c (basicRest fuel rest)
    | none => none
  | fuel + 1, c :: rest => if isBasicChar c then consRead c (basicRest fuel rest) else none

/-- The rest of a literal string, up to its closing apostrophe. -/
def literalRest : List Char → Option (List Char × List Char)
  | [] => none
  | c :: rest =>
    if c = '\x27' then some ([], rest)
    else if isLiteralChar c then consRead c (literalRest rest)
    else none

/-- What follows a backslash that hides a line end: all blanks and line ends. -/
def hiddenLineEnd? (text : List Char) : Option (List Char) :=
  match newline? (skipBlanks text) with
  | some rest => some (skipLines rest.length rest)
  | none => none
where
  /-- Skip blanks and line ends. -/
  skipLines : Nat → List Char → List Char
    | 0, text => text
    | fuel + 1, text =>
      match newline? (skipBlanks text) with
      | some rest => skipLines fuel rest
      | none => skipBlanks text

/-- The rest of a multi-line basic string. Up to two quotes may stand directly
in front of the three that close it. -/
def longBasicRest : Nat → List Char → Option (List Char × List Char)
  | 0, _ => none
  | _, [] => none
  | _ + 1, '"' :: '"' :: '"' :: '"' :: '"' :: rest => some (['"', '"'], rest)
  | _ + 1, '"' :: '"' :: '"' :: '"' :: rest => some (['"'], rest)
  | _ + 1, '"' :: '"' :: '"' :: rest => some ([], rest)
  | fuel + 1, '"' :: rest => consRead '"' (longBasicRest fuel rest)
  | fuel + 1, '\n' :: rest => consRead '\n' (longBasicRest fuel rest)
  | fuel + 1, '\r' :: '\n' :: rest => consRead '\n' (longBasicRest fuel rest)
  | fuel + 1, '\\' :: rest =>
    match hiddenLineEnd? rest with
    | some rest => longBasicRest fuel rest
    | none =>
      match escaped? rest with
      | some (c, rest) => consRead c (longBasicRest fuel rest)
      | none => none
  | fuel + 1, c :: rest => if isBasicChar c then consRead c (longBasicRest fuel rest) else none

/-- The rest of a multi-line literal string. -/
def longLiteralRest : List Char → Option (List Char × List Char)
  | [] => none
  | '\x27' :: '\x27' :: '\x27' :: '\x27' :: '\x27' :: rest => some (['\x27', '\x27'], rest)
  | '\x27' :: '\x27' :: '\x27' :: '\x27' :: rest => some (['\x27'], rest)
  | '\x27' :: '\x27' :: '\x27' :: rest => some ([], rest)
  | '\n' :: rest => consRead '\n' (longLiteralRest rest)
  | '\r' :: '\n' :: rest => consRead '\n' (longLiteralRest rest)
  | c :: rest => if isCommentChar c then consRead c (longLiteralRest rest) else none

/-- A line end directly after the opening quotes does not count. -/
def dropFirstLineEnd (text : List Char) : List Char := (newline? text).getD text

/-- A string of any kind. -/
def string? : List Char → Option (List Char × List Char)
  | '"' :: '"' :: '"' :: rest => longBasicRest (rest.length + 1) (dropFirstLineEnd rest)
  | '"' :: rest => basicRest (rest.length + 1) rest
  | '\x27' :: '\x27' :: '\x27' :: rest => longLiteralRest (dropFirstLineEnd rest)
  | '\x27' :: rest => literalRest rest
  | _ => none

/-- A character of a key without quotes. -/
def isBareKeyChar (c : Char) : Bool := c.isAlphanum || c = '_' || c = '-'

/-- One part of a key: a string on one line, or a bare word. -/
def simpleKey? : List Char → Option (String × List Char)
  | '"' :: rest => (basicRest (rest.length + 1) rest).map fun out => (String.ofList out.1, out.2)
  | '\x27' :: rest => (literalRest rest).map fun out => (String.ofList out.1, out.2)
  | text =>
    match text.takeWhile isBareKeyChar with
    | [] => none
    | word => some (String.ofList word, text.dropWhile isBareKeyChar)

/-- The parts of a key, with dots and blanks between them. -/
def keyParts : Nat → List Char → Option (List String × List Char)
  | 0, _ => none
  | fuel + 1, text =>
    match simpleKey? (skipBlanks text) with
    | none => none
    | some (part, rest) =>
      match skipBlanks rest with
      | '.' :: rest =>
        match keyParts fuel rest with
        | some (parts, rest) => some (part :: parts, rest)
        | none => none
      | rest => some ([part], rest)

/-- Lists, braces and keys may not be nested this deep. -/
def depthLimit : Nat := 80

/-- A key: the parts in front of the last dot, and the last part. -/
def key? (text : List Char) : Option ((List String × String) × List Char) :=
  match keyParts (text.length + 1) text with
  | some (parts, rest) =>
    if parts.length ≥ depthLimit then none
    else parts.getLast?.map fun last => ((parts.dropLast, last), rest)
  | none => none

end RouteTree.Toml
