import RouteTree.Json
import RouteTree.Text.Quoted

/-!
# Compact JSON text

A value is written without blanks. Text escapes the quote, the backslash and
the controls below the blank: five controls have a letter, the others are
written as four lower-case hexadecimal digits. All other characters stand for
themselves. Whole numbers are written in decimal. A double is written with a
point and with all the places that its value has. Fields are written in the
order the object keeps them.
-/

namespace RouteTree

namespace Double

/-- Every double has at most this many places, in binary and in decimal. -/
def places : Nat := 1074

/-- The first decimals of `n / 10 ^ places`, up to the last one that is not zero. -/
def decimals : Nat → Nat → List Char
  | 0, _ => []
  | places + 1, n =>
    if n = 0 then []
    else Nat.digitChar (n / Nat.pow 10 places) :: decimals places (n % Nat.pow 10 places)

/-- The same with one place at least. -/
def fractionText (places n : Nat) : List Char :=
  if n = 0 then ['0'] else decimals places n

/-- The magnitude written out. -/
def unsigned (double : Double) : List Char :=
  -- One unit is `5 ^ 1074 / 10 ^ 1074`.
  let scaled := double.units * Nat.pow 5 places
  Nat.toDigits 10 (scaled / Nat.pow 10 places) ++
    '.' :: fractionText places (scaled % Nat.pow 10 places)

def text (double : Double) : List Char :=
  if double.negative then '-' :: double.unsigned else double.unsigned

end Double

/-- The text of a number. -/
def Number.text : Number → List Char
  | .nat value => Nat.toDigits 10 value.toNat
  | .negSucc value => '-' :: Nat.toDigits 10 (value.val + 1)
  | .double value => value.text

namespace Json

/-- The characters that are escaped by a letter, or by themselves. -/
def letters : List (Char × Char) :=
  [('"', '"'), ('\\', '\\'), ('\x08', 'b'), ('\t', 't'), ('\n', 'n'), ('\x0c', 'f'), ('\r', 'r')]

/-- One character inside a JSON string. -/
def escapedChar (c : Char) : List Char :=
  match letters.find? fun letter => letter.1 = c with
  | some letter => ['\\', letter.2]
  | none =>
    if c.toNat < 32 then
      ['\\', 'u', '0', '0', Text.hexDigit (c.toNat / 16), Text.hexDigit (c.toNat % 16)]
    else [c]

/-- A JSON string with its quotes. -/
def stringText (text : String) : List Char :=
  '"' :: text.toList.flatMap escapedChar ++ ['"']

mutual

/-- The characters of the compact text. -/
def chars : Json → List Char
  | .null => ['n', 'u', 'l', 'l']
  | .bool true => ['t', 'r', 'u', 'e']
  | .bool false => ['f', 'a', 'l', 's', 'e']
  | .num value => value.text
  | .str value => stringText value
  | .arr items => '[' :: itemChars items ++ [']']
  | .obj fields => '\x7b' :: fieldChars fields ++ ['\x7d']

/-- The items of a list with commas between them. -/
def itemChars : List Json → List Char
  | [] => []
  | [item] => chars item
  | item :: next :: items => chars item ++ ',' :: itemChars (next :: items)

/-- The fields of an object with commas between them. -/
def fieldChars : List (String × Json) → List Char
  | [] => []
  | [(name, value)] => stringText name ++ ':' :: chars value
  | (name, value) :: next :: fields =>
    stringText name ++ ':' :: chars value ++ ',' :: fieldChars (next :: fields)

end

/-- The compact text of a value. -/
def compact (value : Json) : String := String.ofList value.chars

/-- A text as it is, and any other value as its compact text. -/
def plainText : Json → String
  | .str value => value
  | value => value.compact

end Json

end RouteTree
