import RouteTree.Toml.Node
import RouteTree.Toml.Text

/-!
# TOML numbers and dates

Integers are decimal, hexadecimal, octal or binary and must fit 64 bits with a
sign. Floats and dates are read for their form only: their values are not kept,
but a float that is too large and a day that does not exist are refused.
-/

namespace RouteTree.Toml

def isDigit (c : Char) : Bool := '0' ≤ c && c ≤ '9'

/-- More digits of a number. A single underscore may stand between two. -/
def moreDigits (digit : Char → Bool) : List Char → Option (List Char × List Char)
  | [] => some ([], [])
  | ['_'] => none
  | '_' :: c :: rest => if digit c then consRead c (moreDigits digit rest) else none
  | c :: rest =>
    if digit c then consRead c (moreDigits digit rest) else some ([], c :: rest)

/-- At least one digit. -/
def someDigits (digit : Char → Bool) : List Char → Option (List Char × List Char)
  | c :: rest => if digit c then consRead c (moreDigits digit rest) else none
  | [] => none

/-- The value of a digit in a base up to sixteen. -/
def digitIn (base : Nat) (c : Char) : Bool :=
  match hexValue? c with
  | some value => value < base
  | none => false

/-- The value of digits in a base. -/
def valueOf (base : Nat) (digits : List Char) : Nat :=
  digits.foldl (fun total c => total * base + (hexValue? c).getD 0) 0

/-- The digits of a decimal integer: a zero alone, or digits that do not start
with a zero. -/
def decimalDigits : List Char → Option (List Char × List Char)
  | '0' :: rest => some (['0'], rest)
  | text => someDigits isDigit text

/-- The integer, if it fits. -/
def integer? (value : Int) : Option Node :=
  if Int64.minValue.toInt ≤ value ∧ value ≤ Int64.maxValue.toInt then some (.integer value)
  else none

/-- An integer in one of the other bases, after its two-letter mark. -/
def based? (base : Nat) (text : List Char) : Option (Node × List Char) :=
  match someDigits (digitIn base) text with
  | some (digits, rest) => (integer? (valueOf base digits)).map (·, rest)
  | none => none

/-- Whether `mantissa · 10 ^ exponent` rounds beyond the largest double. -/
def overflows (mantissa : Nat) (exponent : Int) : Bool :=
  let bound := Nat.pow 2 1024 - Nat.pow 2 970
  let magnitude : Int := (Nat.repr mantissa).length + exponent
  if mantissa = 0 then false
  else if magnitude < 309 then false
  else if 309 < magnitude then true
  else if 0 ≤ exponent then bound ≤ mantissa * Nat.pow 10 exponent.toNat
  else bound * Nat.pow 10 (-exponent).toNat ≤ mantissa

/-- The exponent of a float, after its letter. -/
def exponent? (text : List Char) : Option (Int × List Char) :=
  let (negative, text) := match text with
    | '-' :: rest => (true, rest)
    | '+' :: rest => (false, rest)
    | text => (false, text)
  (someDigits isDigit text).map fun out =>
    (if negative then -(valueOf 10 out.1 : Int) else valueOf 10 out.1, out.2)

/-- A float with these digits; one that is too large and positive is refused. -/
def float? (negative : Bool) (mantissa : List Char) (exponent : Int) (rest : List Char) :
    Option (Node × List Char) :=
  if !negative && overflows (valueOf 10 mantissa) exponent then none else some (.float, rest)

/-- A decimal number after its sign. -/
def decimal? (negative : Bool) (text : List Char) : Option (Node × List Char) :=
  match decimalDigits text with
  | none => none
  | some (whole, '.' :: rest) =>
    match someDigits isDigit rest with
    | none => none
    | some (fraction, rest) =>
      let places : Int := fraction.length
      match rest with
      | 'e' :: more | 'E' :: more =>
        match exponent? more with
        | some (exponent, rest) => float? negative (whole ++ fraction) (exponent - places) rest
        | none => none
      | rest => float? negative (whole ++ fraction) (-places) rest
  | some (whole, 'e' :: rest) | some (whole, 'E' :: rest) =>
    match exponent? rest with
    | some (exponent, rest) => float? negative whole exponent rest
    | none => none
  | some (whole, rest) =>
    let value : Int := valueOf 10 whole
    (integer? (if negative then -value else value)).map (·, rest)

/-- The special floats, after their sign. -/
def special? : List Char → Option (Node × List Char)
  | 'i' :: 'n' :: 'f' :: rest => some (.float, rest)
  | 'n' :: 'a' :: 'n' :: rest => some (.float, rest)
  | _ => none

/-- Two digits with a value between the bounds. -/
def twoDigits? (least greatest : Nat) : List Char → Option (Nat × List Char)
  | a :: b :: rest =>
    let value := valueOf 10 [a, b]
    if isDigit a && isDigit b && least ≤ value && value ≤ greatest then some (value, rest)
    else none
  | _ => none

/-- What follows a time of day: hours, minutes, seconds and any fraction. -/
def time? (text : List Char) : Option (List Char) :=
  match twoDigits? 0 23 text with
  | some (_, ':' :: rest) =>
    match twoDigits? 0 59 rest with
    | some (_, ':' :: rest) =>
      match twoDigits? 0 60 rest with
      | some (_, '.' :: rest) =>
        if rest.takeWhile isDigit = [] then none else some (rest.dropWhile isDigit)
      | some (_, rest) => some rest
      | none => none
    | _ => none
  | _ => none

/-- What follows an offset from universal time, if one is here. -/
def offset? : List Char → Option (List Char)
  | 'Z' :: rest | 'z' :: rest => some rest
  | '+' :: rest | '-' :: rest =>
    match twoDigits? 0 23 rest with
    | some (_, ':' :: rest) => (twoDigits? 0 59 rest).map Prod.snd
    | _ => none
  | text => some text

/-- The number of days of a month. -/
def daysIn (year month : Nat) : Nat :=
  if month = 2 then
    if year % 4 = 0 ∧ (year % 100 ≠ 0 ∨ year % 400 = 0) then 29 else 28
  else if [4, 6, 9, 11].contains month then 30
  else 31

/-- What follows a date, which starts with four digits and a dash. -/
def date? : List Char → Option (List Char)
  | a :: b :: c :: d :: '-' :: rest =>
    match twoDigits? 1 12 rest with
    | some (month, '-' :: rest) =>
      match twoDigits? 1 31 rest with
      | some (day, rest) =>
        if day ≤ daysIn (valueOf 10 [a, b, c, d]) month then some rest else none
      | none => none
    | _ => none
  | _ => none

/-- What follows the time of day after a date, if there is one. -/
def dateTime? (text : List Char) : Option (List Char) :=
  match date? text with
  | none => none
  | some (delimiter :: rest) =>
    if delimiter = 'T' || delimiter = 't' || delimiter = ' ' then
      match twoDigits? 0 23 rest with
      | some (_, ':' :: _) => (time? rest).bind offset?
      | _ => some (delimiter :: rest)
    else some (delimiter :: rest)
  | some [] => some []

/-- A date, a time or a number. -/
def numeral? (text : List Char) : Option (Node × List Char) :=
  match text with
  | '+' :: rest => (special? rest).orElse fun _ => decimal? false rest
  | '-' :: rest => (special? rest).orElse fun _ => decimal? true rest
  | '0' :: 'x' :: rest => based? 16 rest
  | '0' :: 'o' :: rest => based? 8 rest
  | '0' :: 'b' :: rest => based? 2 rest
  | a :: b :: ':' :: _ =>
    if isDigit a && isDigit b then (time? text).map (.moment, ·) else decimal? false text
  | a :: b :: c :: d :: '-' :: _ =>
    if [a, b, c, d].all isDigit then (dateTime? text).map (.moment, ·) else decimal? false text
  | text => decimal? false text

end RouteTree.Toml
