/-!
# Tokens

Methods and header names are tokens: non-empty texts of ASCII letters, digits
and fifteen marks.
-/

namespace RouteTree.Http

/-- The marks a token may hold besides letters and digits. -/
def tokenMarks : List Char :=
  ['!', '#', '$', '%', '&', '\x27', '*', '+', '-', '.', '^', '_', '\x60', '|', '~']

/-- An ASCII letter, an ASCII digit or one of the marks. -/
def isTokenChar (c : Char) : Bool := c.isAlphanum || tokenMarks.contains c

/-- A non-empty text of token characters. -/
def isToken (text : String) : Bool :=
  text.toList ≠ [] && text.toList.all isTokenChar

/-- A request method. Any token is a method, and letter case matters. -/
structure Method where
  name : String
  deriving DecidableEq, Repr

namespace Method

/-- The method of this name, if the name is a token. -/
def ofString? (name : String) : Option Method :=
  if isToken name then some ⟨name⟩ else none

/-- The message for a text that names no method. -/
def invalidMessage : String := "invalid HTTP method"

end Method

end RouteTree.Http
