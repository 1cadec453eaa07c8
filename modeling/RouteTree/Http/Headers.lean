import RouteTree.Http.Token

/-!
# Header fields

A message carries a list of header fields. A name may occur several times; the
values of one name keep the order in which they were added. Names are compared
in lower case.
-/

namespace RouteTree.Http

/-- A header name in lower case. -/
structure HeaderName where
  text : String
  deriving DecidableEq, Repr

namespace HeaderName

/-- The lower-cased name, if the text is a token. -/
def ofString? (text : String) : Option HeaderName :=
  if isToken text then some ⟨String.ofList (text.toList.map Char.toLower)⟩ else none

def contentType : HeaderName := ⟨"content-type"⟩

end HeaderName

/-- A header value: text without controls other than the tab. -/
structure HeaderValue where
  text : String
  deriving DecidableEq, Repr

namespace HeaderValue

/-- A tab, or a character that is neither a control below the blank nor the
delete character. -/
def isAllowed (c : Char) : Bool :=
  c = '\t' || (32 ≤ c.toNat && c.toNat ≠ 127)

/-- The value with this text, if all its characters are allowed. -/
def ofString? (text : String) : Option HeaderValue :=
  if text.toList.all isAllowed then some ⟨text⟩ else none

/-- The text of a value that is visible ASCII, blanks and tabs throughout. -/
def ascii? (value : HeaderValue) : Option String :=
  if value.text.toList.all fun c => c = '\t' || (32 ≤ c.toNat && c.toNat < 127) then
    some value.text
  else none

def json : HeaderValue := ⟨"application/json"⟩

def plainText : HeaderValue := ⟨"text/plain; charset=utf-8"⟩

end HeaderValue

/-- Header fields in the order in which they were added. -/
structure Headers where
  entries : List (HeaderName × HeaderValue) := []
  deriving DecidableEq, Repr

namespace Headers

def empty : Headers := {}

/-- Add one field; fields of the same name stay. -/
def append (headers : Headers) (name : HeaderName) (value : HeaderValue) : Headers :=
  ⟨headers.entries ++ [(name, value)]⟩

/-- Whether some field has this name. -/
def contains (headers : Headers) (name : HeaderName) : Bool :=
  headers.entries.any fun entry => entry.1 = name

/-- Add one field unless some field already has its name. -/
def appendIfAbsent (headers : Headers) (name : HeaderName) (value : HeaderValue) : Headers :=
  if headers.contains name then headers else headers.append name value

/-- The fields by name; the values of one name keep their order. -/
def sorted (headers : Headers) : List (HeaderName × HeaderValue) :=
  headers.entries.mergeSort fun a b => a.1.text ≤ b.1.text

@[simp] theorem contains_empty (name : HeaderName) : empty.contains name = false := rfl

end Headers

end RouteTree.Http
