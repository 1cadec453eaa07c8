/-!
# JSON values

A value is null, a boolean, a number, a text, a list of values or an object. A
number is a whole number of 64 bits or a double. The fields of an object are kept
in the order of their names by code point, and writing a field keeps that order.
Reading a field after writing another one gives what was there before, whatever
the object holds.
-/

namespace RouteTree

/-- A finite binary64 number. The exponent field is below 2047, which would stand for an
infinity or for no number. -/
structure Double where
  negative : Bool
  exponent : Fin 2047
  fraction : Fin 4503599627370496
  deriving DecidableEq, Repr

namespace Double

/-- The magnitude as a multiple of `2 ^ -1074`, the least positive double. -/
def units (double : Double) : Nat :=
  if double.exponent.val = 0 then double.fraction.val
  else (4503599627370496 + double.fraction.val) * Nat.pow 2 (double.exponent.val - 1)

/-- Whether two doubles are the same number. Zero has two signs. -/
def same (a b : Double) : Bool := a == b || (a.units == 0 && b.units == 0)

end Double

inductive Number where
  | nat (value : UInt64)
  /-- The number `-(value + 1)`, down to `-2 ^ 63`. -/
  | negSucc (value : Fin 9223372036854775808)
  | double (value : Double)
  deriving DecidableEq, Repr

/-- Whether two numbers are the same. A double is no whole number. -/
def Number.same : Number → Number → Bool
  | .nat a, .nat b => a == b
  | .negSucc a, .negSucc b => a == b
  | .double a, .double b => a.same b
  | _, _ => false

inductive Json where
  | null
  | bool (value : Bool)
  | num (value : Number)
  | str (value : String)
  | arr (items : List Json)
  | obj (fields : List (String × Json))
  deriving Repr, Inhabited

/-- The fields of an object, by increasing name. -/
abbrev Fields := List (String × Json)

namespace Fields

/-- The value of the first field with this name. -/
def find? (name : String) : Fields → Option Json
  | [] => none
  | (key, value) :: rest => if key = name then some value else find? name rest

/-- Write one field, in front of the first greater name. -/
def insert (name : String) (value : Json) : Fields → Fields
  | [] => [(name, value)]
  | (key, old) :: rest =>
    if name < key then (name, value) :: (key, old) :: rest
    else if key = name then (name, value) :: rest
    else (key, old) :: insert name value rest

/-- Fields written one after the other into an empty object. -/
def ofList (fields : List (String × Json)) : Fields :=
  fields.foldl (fun all field => insert field.1 field.2 all) []

@[simp] theorem find?_nil (name : String) : find? name [] = none := rfl

@[simp] theorem insert_nil (name : String) (value : Json) :
    insert name value [] = [(name, value)] := rfl

/-- A written field is read back. -/
@[simp] theorem find?_insert_self (name : String) (value : Json) (fields : Fields) :
    find? name (insert name value fields) = some value := by
  induction fields with
  | nil => simp [insert, find?]
  | cons field rest ih =>
    obtain ⟨key, old⟩ := field
    simp only [insert]
    split
    · simp [find?]
    · split
      · simp [find?]
      · next h => simp [find?, h, ih]

/-- Writing one field leaves the others as they were. -/
theorem find?_insert_of_ne {name other : String} (h : other ≠ name) (value : Json)
    (fields : Fields) : find? other (insert name value fields) = find? other fields := by
  induction fields with
  | nil => simp [insert, find?, Ne.symm h]
  | cons field rest ih =>
    obtain ⟨key, old⟩ := field
    simp only [insert]
    split
    · simp [find?, Ne.symm h]
    · split
      · next hk => subst hk; simp [find?, Ne.symm h]
      · simp [find?, ih]

end Fields

namespace Json

/-- A count, which fits into 64 bits. -/
def nat (n : Nat) : Json := .num (.nat (.ofNat n))

/-- The fields, if the value is an object. -/
def fields? : Json → Option Fields
  | .obj fields => some fields
  | _ => none

mutual

/-- Whether two values are the same, field by field. -/
def same : Json → Json → Bool
  | .null, .null => true
  | .bool a, .bool b => a == b
  | .num a, .num b => a.same b
  | .str a, .str b => a == b
  | .arr a, .arr b => sameItems a b
  | .obj a, .obj b => sameFields a b
  | _, _ => false

/-- Whether two lists hold the same values in the same order. -/
def sameItems : List Json → List Json → Bool
  | [], [] => true
  | a :: as, b :: bs => same a b && sameItems as bs
  | _, _ => false

/-- Whether two objects hold the same fields in the same order. -/
def sameFields : List (String × Json) → List (String × Json) → Bool
  | [], [] => true
  | (k, a) :: as, (l, b) :: bs => k == l && same a b && sameFields as bs
  | _, _ => false

end

instance : BEq Json := ⟨same⟩

end Json

end RouteTree
