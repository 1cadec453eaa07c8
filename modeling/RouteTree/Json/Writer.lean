import RouteTree.Json.Text

/-!
# Writers of JSON

What a value looks like as compact JSON is fixed up to three things: which of the
characters that need no escape are escaped, how the exponent of a double is written,
and how many of its digits. A writer is any way to write values that keeps to this.
A double may be written as any decimal that rounding to the nearest double takes back
to it. The writer that gives all its digits is one.
-/

namespace RouteTree

/-! ## Numbers -/

/-- The text is a decimal without an exponent, for `n / 10 ^ places`. -/
inductive Mantissa : List Char → Nat → Nat → Prop
  | whole (n : Nat) : Mantissa (Nat.toDigits 10 n) n 0
  | point (n : Nat) {fraction : List Char} (some : fraction ≠ [])
      (digits : ∀ c ∈ fraction, c.isDigit = true) :
      Mantissa (Nat.toDigits 10 n ++ '.' :: fraction) (Nat.ofDigitChars 10 fraction n)
        fraction.length

/-- The text is a decimal with a point or an exponent, for `n · 10 ^ power`. -/
inductive Decimal : List Char → Nat → Int → Prop
  | plain {text : List Char} {n places : Nat} (mantissa : Mantissa text n places)
      (point : 0 < places) : Decimal text n (-places)
  | scaled {text sign : List Char} {n places : Nat} (mantissa : Mantissa text n places)
      (positive : sign = [] ∨ sign = ['+']) (exponent : Nat) :
      Decimal (text ++ 'e' :: sign ++ Nat.toDigits 10 exponent) n (exponent - places)
  | shrunk {text : List Char} {n places : Nat} (mantissa : Mantissa text n places)
      (exponent : Nat) :
      Decimal (text ++ 'e' :: '-' :: Nat.toDigits 10 exponent) n (-exponent - places)

namespace Double

/-- How far the magnitude is from `n · 10 ^ power`, up to a factor that is the same for
all doubles. -/
def gap (double : Double) (n : Nat) (power : Int) : Nat :=
  let read := n * Nat.pow 10 power.toNat * Nat.pow 2 places
  let own := double.units * Nat.pow 10 (-power).toNat
  (read - own) + (own - read)

/-- The magnitude is the one nearest to `n · 10 ^ power`. Of two that are, the even one
counts. -/
def Nearest (double : Double) (n : Nat) (power : Int) : Prop :=
  ∀ other : Double, other.units ≠ double.units →
    double.gap n power < other.gap n power ∨
      double.gap n power = other.gap n power ∧ double.fraction.val % 2 = 0

/-- The text is the sign and a decimal that is rounded to the magnitude. -/
def Spelled (double : Double) (text : List Char) : Prop :=
  ∃ unsigned n power, text = (if double.negative then '-' :: unsigned else unsigned) ∧
    Decimal unsigned n power ∧ double.Nearest n power

end Double

/-- The text is this number. -/
def Number.Spelled : Number → List Char → Prop
  | .nat value, text => text = Nat.toDigits 10 value.toNat
  | .negSucc value, text => text = '-' :: Nat.toDigits 10 (value.val + 1)
  | .double value, text => value.Spelled text

namespace Double

/-- Decimals that end with the last one that is not zero still give the number. -/
theorem decimals_spec (places n : Nat) (below : n < Nat.pow 10 places) :
    (decimals places n).length ≤ places ∧ (∀ c ∈ decimals places n, c.isDigit = true) ∧
      (n ≠ 0 → decimals places n ≠ []) ∧
      ∀ start, Nat.ofDigitChars 10 (decimals places n) start *
        Nat.pow 10 (places - (decimals places n).length) = start * Nat.pow 10 places + n := by
  simp only [Nat.pow_eq] at below ⊢
  induction places generalizing n with
  | zero =>
      have zero : n = 0 := by simpa using below
      subst zero
      simp [decimals]
  | succ places ih =>
      rw [decimals]
      split
      · next zero =>
          subst zero
          simp
      · next positive =>
          rw [Nat.pow_eq]
          have small : 0 < 10 ^ places := Nat.pow_pos (by decide)
          obtain ⟨short, digits, _, value⟩ := ih (n % 10 ^ places) (Nat.mod_lt n small)
          have digit : n / 10 ^ places < 10 := by
            rw [Nat.div_lt_iff_lt_mul small, Nat.mul_comm]
            exact below
          refine ⟨Nat.succ_le_succ short, ?_, fun _ => List.cons_ne_nil _ _, ?_⟩
          · refine List.forall_mem_cons.2 ⟨?_, digits⟩
            rw [Nat.isDigit_digitChar, decide_eq_true digit]
          · intro start
            have whole := Nat.div_add_mod n (10 ^ places)
            rw [Nat.ofDigitChars_cons, Nat.toNat_digitChar_of_lt_ten digit, List.length_cons,
              Nat.add_sub_add_right, value, Nat.pow_succ]
            grind

theorem fractionText_spec {places n : Nat} (some : 0 < places) (below : n < Nat.pow 10 places) :
    (fractionText places n).length ≤ places ∧ (∀ c ∈ fractionText places n, c.isDigit = true) ∧
      fractionText places n ≠ [] ∧
      ∀ start, Nat.ofDigitChars 10 (fractionText places n) start *
        Nat.pow 10 (places - (fractionText places n).length) = start * Nat.pow 10 places + n := by
  rw [fractionText]
  split
  · next zero =>
      subst zero
      obtain ⟨rest, rfl⟩ := Nat.exists_eq_add_one.2 some
      refine ⟨Nat.succ_le_succ (Nat.zero_le rest), ?_, List.cons_ne_nil _ _, ?_⟩
      · intro c mem
        obtain rfl := List.mem_singleton.1 mem
        rfl
      · intro start
        simp [Nat.ofDigitChars_cons, Nat.pow_succ, Nat.mul_comm, Nat.mul_assoc]
  · next positive =>
      obtain ⟨short, digits, nonempty, value⟩ := decimals_spec places n below
      exact ⟨short, digits, nonempty positive, value⟩

/-- Halving and dividing by ten come to the same once the fives are multiplied in. -/
theorem halves_eq_of_tenths_eq {n units count places : Nat} (short : count ≤ places)
    (same : n * Nat.pow 10 (places - count) = units * Nat.pow 5 places) :
    n * Nat.pow 2 places = units * Nat.pow 10 count := by
  simp only [Nat.pow_eq] at same ⊢
  have five : 0 < 5 ^ places := Nat.pow_pos (by decide)
  apply Nat.eq_of_mul_eq_mul_right five
  calc n * 2 ^ places * 5 ^ places = n * 10 ^ places := by rw [Nat.mul_assoc, ← Nat.mul_pow]
    _ = n * (10 ^ (places - count) * 10 ^ count) := by
      rw [← Nat.pow_add, Nat.sub_add_cancel short]
    _ = units * 5 ^ places * 10 ^ count := by rw [← Nat.mul_assoc, same]
    _ = units * 10 ^ count * 5 ^ places := Nat.mul_right_comm _ _ _

/-- A number of units written out is a decimal that is equal to it. -/
theorem exact_decimal {places : Nat} (some : 0 < places) (units : Nat) :
    let scaled := units * Nat.pow 5 places
    ∃ n count : Nat, Decimal (Nat.toDigits 10 (scaled / Nat.pow 10 places) ++
        '.' :: fractionText places (scaled % Nat.pow 10 places)) n (-count) ∧
      n * Nat.pow 2 places = units * Nat.pow 10 count := by
  intro scaled
  have power : 0 < Nat.pow 10 places := Nat.pow_pos (by decide)
  obtain ⟨short, digits, nonempty, value⟩ := fractionText_spec some (Nat.mod_lt scaled power)
  refine ⟨_, _, .plain (.point _ nonempty digits) (List.length_pos_iff.2 nonempty), ?_⟩
  apply halves_eq_of_tenths_eq short
  rw [value, Nat.div_add_mod']

theorem gap_eq_zero_iff {double : Double} {n count : Nat} :
    double.gap n (-count) = 0 ↔ n * Nat.pow 2 places = double.units * Nat.pow 10 count := by
  have none : (-(count : Int)).toNat = 0 := by omega
  have all : (- -(count : Int)).toNat = count := by omega
  have one : Nat.pow 10 0 = 1 := rfl
  rw [gap, none, all, one, Nat.mul_one]
  omega

theorem spelled_text (double : Double) : double.Spelled double.text := by
  obtain ⟨n, count, decimal, same⟩ := exact_decimal (by decide : 0 < places) double.units
  refine ⟨double.unsigned, n, -count, rfl, decimal, ?_⟩
  intro other differs
  rw [gap_eq_zero_iff.2 same]
  refine .inl (Nat.pos_of_ne_zero ?_)
  intro zero
  have power : 0 < Nat.pow 10 count := Nat.pow_pos (by decide)
  exact differs (Nat.eq_of_mul_eq_mul_right power ((gap_eq_zero_iff.1 zero).symm.trans same))

end Double

theorem Number.spelled_text (number : Number) : number.Spelled number.text := by
  cases number with
  | nat value => exact rfl
  | negSucc value => exact rfl
  | double value => exact value.spelled_text

/-! ## Texts and values -/

namespace Json

/-- These characters stand for the character inside a string. -/
inductive SpelledChar : Char → List Char → Prop
  | itself {c : Char} (printable : 32 ≤ c.toNat) (quote : c ≠ '"') (backslash : c ≠ '\\') :
      SpelledChar c [c]
  | letter {c letter : Char} (listed : (c, letter) ∈ letters) : SpelledChar c ['\\', letter]
  | code {c : Char} {first second third fourth : Nat}
      (value : c.toNat = ((first * 16 + second) * 16 + third) * 16 + fourth)
      (digits : first < 16 ∧ second < 16 ∧ third < 16 ∧ fourth < 16) :
      SpelledChar c ['\\', 'u', Text.hexDigit first, Text.hexDigit second, Text.hexDigit third,
        Text.hexDigit fourth]

inductive SpelledChars : List Char → List Char → Prop
  | nil : SpelledChars [] []
  | cons {c : Char} {rest here later : List Char} (char : SpelledChar c here)
      (chars : SpelledChars rest later) : SpelledChars (c :: rest) (here ++ later)

/-- The text is a string with its quotes. -/
inductive SpelledString (string : String) : List Char → Prop
  | quoted {inner : List Char} (chars : SpelledChars string.toList inner) :
      SpelledString string ('"' :: inner ++ ['"'])

mutual

/-- The text is the value as compact JSON. -/
inductive Spelled : Json → List Char → Prop
  | null : Spelled .null ['n', 'u', 'l', 'l']
  | bool (value : Bool) :
      Spelled (.bool value) (if value then ['t', 'r', 'u', 'e'] else ['f', 'a', 'l', 's', 'e'])
  | num {number : Number} {text : List Char} (spelled : number.Spelled text) :
      Spelled (.num number) text
  | str {string : String} {text : List Char} (spelled : SpelledString string text) :
      Spelled (.str string) text
  | arr {items : List Json} {inner : List Char} (spelled : SpelledItems items inner) :
      Spelled (.arr items) ('[' :: inner ++ [']'])
  | obj {fields : List (String × Json)} {inner : List Char}
      (spelled : SpelledFields fields inner) : Spelled (.obj fields) ('\x7b' :: inner ++ ['\x7d'])

inductive SpelledItems : List Json → List Char → Prop
  | none : SpelledItems [] []
  | one {item : Json} {text : List Char} (first : Spelled item text) : SpelledItems [item] text
  | more {item next : Json} {items : List Json} {text later : List Char}
      (first : Spelled item text) (rest : SpelledItems (next :: items) later) :
      SpelledItems (item :: next :: items) (text ++ ',' :: later)

inductive SpelledFields : List (String × Json) → List Char → Prop
  | none : SpelledFields [] []
  | one {name : String} {value : Json} {key text : List Char} (label : SpelledString name key)
      (first : Spelled value text) : SpelledFields [(name, value)] (key ++ ':' :: text)
  | more {name : String} {value : Json} {next : String × Json} {fields : List (String × Json)}
      {key text later : List Char} (label : SpelledString name key) (first : Spelled value text)
      (rest : SpelledFields (next :: fields) later) :
      SpelledFields ((name, value) :: next :: fields) (key ++ ':' :: text ++ ',' :: later)

end

theorem spelled_escapedChar (c : Char) : SpelledChar c (escapedChar c) := by
  rw [escapedChar]
  cases found : letters.find? fun letter => letter.1 = c with
  | some letter =>
      obtain rfl : letter.1 = c := by simpa using List.find?_some found
      exact .letter (List.mem_of_find?_eq_some found)
  | none =>
      have unlisted : ∀ letter ∈ letters, letter.1 ≠ c := by simpa using found
      by_cases control : c.toNat < 32
      · rw [if_pos control]
        exact @SpelledChar.code c 0 0 _ _ (by omega) (by omega)
      · rw [if_neg control]
        refine .itself (by omega) ?_ ?_
        · rintro rfl
          exact unlisted ('"', '"') (by decide) rfl
        · rintro rfl
          exact unlisted ('\\', '\\') (by decide) rfl

theorem spelled_stringText (string : String) : SpelledString string (stringText string) := by
  refine .quoted ?_
  generalize string.toList = chars
  induction chars with
  | nil => exact .nil
  | cons c rest ih =>
      rw [List.flatMap_cons]
      exact .cons (spelled_escapedChar c) ih

mutual

theorem spelled_chars : ∀ value : Json, Spelled value value.chars
  | .null => .null
  | .bool true => .bool true
  | .bool false => .bool false
  | .num number => .num number.spelled_text
  | .str string => .str (spelled_stringText string)
  | .arr items => .arr (spelled_itemChars items)
  | .obj fields => .obj (spelled_fieldChars fields)

theorem spelled_itemChars : ∀ items : List Json, SpelledItems items (itemChars items)
  | [] => .none
  | [item] => .one (spelled_chars item)
  | item :: next :: items => .more (spelled_chars item) (spelled_itemChars (next :: items))

theorem spelled_fieldChars :
    ∀ fields : List (String × Json), SpelledFields fields (fieldChars fields)
  | [] => .none
  | [(name, value)] => .one (spelled_stringText name) (spelled_chars value)
  | (name, value) :: next :: fields =>
    .more (spelled_stringText name) (spelled_chars value) (spelled_fieldChars (next :: fields))

end

/-- A way to write values as compact JSON. -/
structure Writer where
  write : Json → String
  spelled : ∀ value, Spelled value (write value).toList

/-- The writer that gives all the digits of a double. -/
def Writer.exact : Writer where
  write := compact
  spelled value := by
    rw [compact, String.toList_ofList]
    exact spelled_chars value

example : Writer.exact.write (.arr [.num (.double ⟨false, 1023, 2251799813685248⟩),
    .num (.double ⟨true, 1021, 0⟩), .num (.double ⟨true, 0, 0⟩), .num (.negSucc 2), .str "a\n"]) =
      "[1.5,-0.25,-0.0,-3,\"a\\n\"]" := by decide +kernel

end Json

end RouteTree
