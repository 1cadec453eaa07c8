import RouteTree.Build.Terminal

/-!
# Lines at the margin of a listing

A listing that is nested inside another one is moved right line by line, at each level.
So of a block only its two ends are at the margin, whatever it holds, even if texts in
it hold line feeds.

The listing of a terminal is one line at the margin. It says whether the terminal is
waited for. Apart from the word for that, it is written with few characters, and some
letter of each such word is not among them.
-/

namespace RouteTree

/-! ## Lines at the margin -/

namespace Text

/-- Joining splits at the separators between two parts. -/
theorem splitOn_append {α : Type} [DecidableEq α] (sep : α) (first second : List α) :
    splitOn sep (first ++ sep :: second) = splitOn sep first ++ splitOn sep second := by
  induction first with
  | nil => rw [List.nil_append, splitOn_cons_self, splitOn_nil, List.singleton_append]
  | cons c rest ih =>
      by_cases same : c = sep
      · rw [same, List.cons_append, splitOn_cons_self, ih, splitOn_cons_self, List.cons_append]
      · obtain ⟨piece, pieces, cut, grown⟩ := splitOn_cons_of_ne rest same
        obtain ⟨whole, others, cut', grown'⟩ := splitOn_cons_of_ne (rest ++ sep :: second) same
        rw [ih, cut, List.cons_append] at cut'
        obtain ⟨rfl, rfl⟩ := List.cons.inj cut'
        rw [List.cons_append, grown', grown, List.cons_append]

def atMargin (line : List Char) : Bool := !line.isEmpty && !([' ', ' '].isPrefixOf line)

/-- The lines of a text that are not empty and do not start with two blanks. -/
def margin (text : List Char) : List String :=
  ((splitOn '\n' text).filter atMargin).map String.ofList

theorem margin_append (first second : List Char) :
    margin (first ++ '\n' :: second) = margin first ++ margin second := by
  simp [margin, splitOn_append]

theorem margin_of_not_mem {line : List Char} (whole : '\n' ∉ line) :
    margin line = if atMargin line then [String.ofList line] else [] := by
  rw [margin, splitOn_of_not_mem whole]
  cases shown : atMargin line <;> simp [shown]

theorem newline_not_mem_repr (number : Nat) : '\n' ∉ (Nat.repr number).toList := by
  intro mem
  rw [Nat.toList_repr] at mem
  exact absurd (Nat.isDigit_of_mem_toDigits (by decide) (by decide) mem) (by decide)

/-- The lines at the margin of a joined text are those of its parts. -/
theorem margin_joinWith (parts : List (List Char)) :
    margin (joinWith '\n' parts) = parts.flatMap margin := by
  induction parts with
  | nil => rfl
  | cons part rest ih =>
      cases rest with
      | nil => simp
      | cons next rest => simp only [joinWith_cons_cons, margin_append, ih, List.flatMap_cons]

end Text

namespace Symbol

theorem flatMap_chars_ofText (content : String) :
    (ofText content).flatMap chars = content.toList := by
  simp [ofText, List.flatMap_map, chars]

theorem flatMap_chars_joinWith (pieces : List (List Symbol)) :
    (Text.joinWith (.char '\n') pieces).flatMap chars =
      Text.joinWith '\n' (pieces.map (List.flatMap chars)) := by
  fun_induction Text.joinWith (.char '\n') pieces with
  | case1 => rfl
  | case2 piece => rfl
  | case3 piece next pieces ih =>
      rw [List.flatMap_append, List.flatMap_cons, ih]
      rfl

theorem newline_not_mem_flatMap {line : List Symbol} (whole : .char '\n' ∉ line) :
    '\n' ∉ line.flatMap chars := by
  intro mem
  obtain ⟨symbol, there, inside⟩ := List.mem_flatMap.1 mem
  cases symbol with
  | char c =>
      obtain rfl := List.mem_singleton.1 inside
      exact whole there
  | value index =>
      rw [chars, valueName, String.toList_append] at inside
      rcases List.mem_append.1 inside with first | digit
      · exact absurd first (by decide)
      · exact Text.newline_not_mem_repr index digit

theorem dropReturn_subset (line : List Symbol) : dropReturn line ⊆ line := by
  fun_induction dropReturn line with
  | case1 => exact List.Subset.refl _
  | case2 => exact List.nil_subset _
  | case3 symbol rest _ ih => exact List.cons_subset_cons symbol ih

/-- Each line is what is left of a piece between line feeds. -/
theorem exists_piece_of_mem_linesOfPieces {pieces : List (List Symbol)} {line : List Symbol}
    (mem : line ∈ linesOfPieces pieces) : ∃ piece ∈ pieces, line ⊆ piece := by
  fun_induction linesOfPieces pieces with
  | case1 => cases mem
  | case2 => cases mem
  | case3 last _ => exact ⟨last, List.mem_singleton_self last, (List.mem_singleton.1 mem) ▸ .refl _⟩
  | case4 piece next pieces ih =>
      rcases List.mem_cons.1 mem with rfl | later
      · exact ⟨piece, List.mem_cons_self, dropReturn_subset piece⟩
      · obtain ⟨other, there, inside⟩ := ih later
        exact ⟨other, List.mem_cons_of_mem _ there, inside⟩

theorem newline_not_mem_of_mem_lines {symbols line : List Symbol} (mem : line ∈ lines symbols) :
    .char '\n' ∉ line := by
  obtain ⟨piece, there, inside⟩ := exists_piece_of_mem_linesOfPieces mem
  exact fun newline => Text.sep_not_mem_of_mem_splitOn there (inside newline)

theorem margin_indent (symbols : List Symbol) :
    Text.margin ((indent symbols).flatMap chars) = [] := by
  rw [indent, flatMap_chars_joinWith, Text.margin_joinWith, List.flatMap_eq_nil_iff]
  intro moved mem
  obtain ⟨_, ⟨line, there, rfl⟩, rfl⟩ := by simpa only [List.mem_map] using mem
  have whole : '\n' ∉ (ofText "  " ++ line).flatMap chars := by
    rw [List.flatMap_append, flatMap_chars_ofText, List.mem_append, not_or]
    exact ⟨by decide, newline_not_mem_flatMap (newline_not_mem_of_mem_lines there)⟩
  rw [Text.margin_of_not_mem whole, if_neg]
  rw [List.flatMap_append, flatMap_chars_ofText]
  simp [Text.atMargin]

end Symbol

namespace Listing

def chars (listing : Listing) : List Char := listing.symbols.flatMap Symbol.chars

theorem toList_render (listing : Listing) : listing.render.toList = listing.chars := by
  rw [render, String.toList_ofList, chars]

@[simp] theorem chars_text (content : String) : (text content).chars = content.toList :=
  Symbol.flatMap_chars_ofText content

@[simp] theorem chars_value (index : Nat) : (value index).chars = (valueName index).toList :=
  List.append_nil _

@[simp] theorem chars_append (first second : Listing) :
    (first ++ second).chars = first.chars ++ second.chars := by
  rw [chars, symbols_append, List.flatMap_append, chars, chars]

theorem chars_unlines (lines : List Listing) :
    (unlines lines).chars = Text.joinWith '\n' (lines.map chars) := by
  fun_induction unlines lines with
  | case1 => rfl
  | case2 only => rfl
  | case3 first next rest ih => simp [ih]

theorem chars_block (label : String) (body : Listing) :
    (block label body).chars = (label ++ " \x7b").toList ++ '\n' ::
      ((Symbol.indent body.symbols).flatMap Symbol.chars ++ '\n' :: "\x7d".toList) := by
  simp [chars, symbols, Symbol.flatMap_chars_ofText]

/-- Of a block, what stands in front of it and its two ends are at the margin. -/
theorem margin_block (front label : String) (body : Listing)
    (whole : '\n' ∉ (front ++ label).toList)
    (shown : Text.atMargin (front ++ label ++ " \x7b").toList = true) :
    Text.margin (front.toList ++ (block label body).chars) =
      [front ++ label ++ " \x7b", "\x7d"] := by
  have line : '\n' ∉ (front ++ label ++ " \x7b").toList := by
    rw [String.toList_append, List.mem_append, not_or]
    exact ⟨whole, by decide⟩
  have last : Text.margin "\x7d".toList = ["\x7d"] := by decide
  rw [chars_block, ← List.append_assoc, ← String.toList_append, ← String.append_assoc,
    Text.margin_append, Text.margin_append, Symbol.margin_indent, Text.margin_of_not_mem line,
    if_pos shown, last, String.ofList_toList]
  rfl

/-- Of a group, its number is at the margin and nothing that it holds. -/
theorem margin_group (group : Nat) (listing : Listing) :
    Text.margin (block (groupName group) listing).chars =
      [groupName group ++ " \x7b", "\x7d"] := by
  have whole : '\n' ∉ ("" ++ groupName group).toList := by
    rw [String.empty_append, groupName, String.toList_append, List.mem_append, not_or]
    exact ⟨by decide, Text.newline_not_mem_repr group⟩
  have shown : Text.atMargin ("" ++ groupName group ++ " \x7b").toList = true := by
    simp [groupName, Text.atMargin, List.isPrefixOf]
  simpa using margin_block "" (groupName group) listing whole shown

/-- What may be put below a text adds its lines to those of the text. -/
theorem margin_below (first : List Char) (given : Bool) {more : Listing} {rest : List Char}
    (below : more.chars = '\n' :: rest) :
    Text.margin (first ++ (if given then more else empty).chars) =
      Text.margin first ++ if given then Text.margin rest else [] := by
  cases given with
  | true => rw [if_pos rfl, if_pos rfl, below, Text.margin_append]
  | false =>
      rw [if_neg Bool.false_ne_true, if_neg Bool.false_ne_true, List.append_nil]
      exact congrArg Text.margin (List.append_nil first)

end Listing

/-! ## The line of a terminal -/

open Http

variable {σ α : Type}

namespace Listing

/-- The characters that the line of a terminal is written with, apart from the words
that say how it waits for its function. -/
def isPlain (c : Char) : Bool := c.isDigit || "Racdefjlnoprstuvw ()[],.:;".toList.contains c

def Plain (listing : Listing) : Prop := ∀ c ∈ listing.chars, isPlain c = true

theorem plain_text (content : String) (plain : content.toList.all isPlain = true) :
    (text content).Plain := by
  intro c mem
  rw [chars_text] at mem
  exact List.all_eq_true.1 plain c mem

theorem isPlain_of_mem_repr {c : Char} {number : Nat} (mem : c ∈ (Nat.repr number).toList) :
    isPlain c = true := by
  rw [Nat.toList_repr] at mem
  rw [isPlain, Nat.isDigit_of_mem_toDigits (by decide) (by decide) mem, Bool.true_or]

theorem plain_value (index : Nat) : (value index).Plain := by
  intro c mem
  rw [chars_value, valueName, String.toList_append] at mem
  rcases List.mem_append.1 mem with first | digit
  · obtain rfl := List.mem_singleton.1 first
    decide
  · exact isPlain_of_mem_repr digit

theorem Plain.append {first second : Listing} (here : first.Plain) (there : second.Plain) :
    (first ++ second).Plain := by
  intro c mem
  rw [chars_append] at mem
  rcases List.mem_append.1 mem with left | right
  · exact here c left
  · exact there c right

/-- One line that returns, and that waits for its function or goes on after it. -/
structure Returns (awaits continues : Bool) (listing : Listing) : Prop where
  starts : "return ".toList <+: listing.chars
  whole : '\n' ∉ listing.chars
  awaits : "await".toList <:+: listing.chars ↔ awaits = true
  continues : ".then".toList <:+: listing.chars ↔ continues = true

theorem Returns.margin {awaits continues : Bool} {listing : Listing}
    (returns : listing.Returns awaits continues) :
    Text.margin listing.chars = [String.ofList listing.chars] := by
  obtain ⟨rest, shape⟩ := returns.starts
  have shown : Text.atMargin listing.chars = true := by
    rw [← shape]
    rfl
  rw [Text.margin_of_not_mem returns.whole, if_pos shown]

/-- A word occurs in a text if it occurs in a part of it, and only if one letter of it
that is not plain does. -/
theorem infix_iff_of_plain {text part word : List Char} {letter : Char}
    (plain : ∀ c ∈ text, isPlain c = true ∨ c ∈ part) (inside : part <:+: text)
    (other : isPlain letter = false) (needed : letter ∈ word)
    (spelt : letter ∈ part → word <:+: part) :
    word <:+: text ↔ decide (letter ∈ part) = true := by
  rw [decide_eq_true_iff]
  refine ⟨fun occurs => ?_, fun mem => (spelt mem).trans inside⟩
  rcases plain letter (occurs.subset needed) with known | mem
  · rw [other] at known
    cases known
  · exact mem

/-- A line of plain characters around a few others waits or goes on if these say so. -/
theorem returns_of_plain {listing : Listing} {part : List Char}
    (plain : ∀ c ∈ listing.chars, isPlain c = true ∨ c ∈ part)
    (starts : "return ".toList <+: listing.chars) (inside : part <:+: listing.chars)
    (whole : '\n' ∉ part) (awaits : 'i' ∈ part → "await".toList <:+: part)
    (continues : 'h' ∈ part → ".then".toList <:+: part) :
    listing.Returns (decide ('i' ∈ part)) (decide ('h' ∈ part)) := by
  -- Each word has a letter that is not plain: `await` has an `i`, and `.then` has an `h`.
  refine ⟨starts, fun mem => ?_, infix_iff_of_plain plain inside (by decide) (by decide) awaits,
    infix_iff_of_plain plain inside (by decide) (by decide) continues⟩
  rcases plain _ mem with known | there
  · exact absurd known (by decide)
  · exact whole there

theorem Plain.returns {listing : Listing} (plain : listing.Plain)
    (starts : "return ".toList <+: listing.chars) : listing.Returns false false :=
  returns_of_plain (fun c mem => .inl (plain c mem)) starts List.nil_infix List.not_mem_nil
    (fun mem => absurd mem List.not_mem_nil) (fun mem => absurd mem List.not_mem_nil)

theorem starts_text (content : String) (starts : "return ".toList <+: content.toList) :
    "return ".toList <+: (text content).chars := by
  rwa [chars_text]

theorem starts_append {listing : Listing} (starts : "return ".toList <+: listing.chars)
    (more : Listing) : "return ".toList <+: (listing ++ more).chars := by
  rw [chars_append]
  exact starts.trans (List.prefix_append _ _)

/-- A line that is plain but for a word in its midst. -/
theorem returns_around {front back : Listing} (before : front.Plain) (after : back.Plain)
    (word : String) (whole : '\n' ∉ word.toList)
    (awaits : 'i' ∈ word.toList → "await".toList <:+: word.toList)
    (continues : 'h' ∈ word.toList → ".then".toList <:+: word.toList) :
    (text "return " ++ front ++ text word ++ back ++ text ")").Returns
      (decide ('i' ∈ word.toList)) (decide ('h' ∈ word.toList)) := by
  have first : (text "return " ++ front).Plain := (plain_text "return " (by decide)).append before
  have last : (back ++ text ")").Plain := after.append (plain_text ")" (by decide))
  have parts : (text "return " ++ front ++ text word ++ back ++ text ")").chars =
      (text "return " ++ front).chars ++ word.toList ++ (back ++ text ")").chars := by
    simp only [chars_append, chars_text, List.append_assoc]
  refine returns_of_plain ?_ ?_ ?_ whole awaits continues
  · intro c mem
    rw [parts, List.mem_append, List.mem_append] at mem
    rcases mem with (left | middle) | right
    · exact .inl (first c left)
    · exact .inr middle
    · exact .inl (last c right)
  · have starts : "return ".toList <+: (text "return ").chars := starts_text "return " (by decide)
    exact starts_append (starts_append (starts_append (starts_append starts _) _) _) _
  · rw [parts]
    exact List.infix_append _ _ _

end Listing

namespace Encoder

theorem plain_joinCases {cases : List Listing} (plain : ∀ listing ∈ cases, listing.Plain) :
    (joinCases cases).Plain := by
  fun_induction joinCases cases with
  | case1 => exact Listing.plain_text "" (by decide)
  | case2 only => exact plain only (List.mem_singleton_self only)
  | case3 first next rest ih =>
      obtain ⟨here, later⟩ := List.forall_mem_cons.1 plain
      exact (here.append (Listing.plain_text ", " (by decide))).append (ih later)

theorem plain_compileCases (choices : List (Status × Serializer)) (values : ValueTable) :
    ∀ listing ∈ (compileCases choices values).1, listing.Plain := by
  induction choices generalizing values with
  | nil => exact fun _ mem => absurd mem List.not_mem_nil
  | cons choice rest ih =>
      obtain ⟨status, serializer⟩ := choice
      refine List.forall_mem_cons.2 ⟨.append ?_ (Listing.plain_value _), ih _⟩
      intro c mem
      rw [Listing.chars_text, String.toList_append] at mem
      rcases List.mem_append.1 mem with digit | colon
      · exact Listing.isPlain_of_mem_repr digit
      · exact List.all_eq_true.1 (by decide : ": ".toList.all Listing.isPlain = true) c colon

theorem plain_compile (encoder : Encoder) (values : ValueTable) :
    (encoder.compile values).1.Plain := by
  have listed {cases default : Listing} (here : cases.Plain) (there : default.Plain) :
      (Listing.text "json[" ++ cases ++ Listing.text "; default: " ++ default ++
        Listing.text "]").Plain :=
    ((((Listing.plain_text "json[" (by decide)).append here).append
      (Listing.plain_text "; default: " (by decide))).append there).append
      (Listing.plain_text "]" (by decide))
  have shown (byStatus : List (Status × Serializer)) (values : ValueTable) :
      (joinCases (compileCases byStatus values).1).Plain :=
    plain_joinCases (plain_compileCases byStatus values)
  obtain ⟨default, byStatus⟩ := encoder
  cases default with
  | none =>
      cases byStatus with
      | nil => exact Listing.plain_text "json" (by decide)
      | cons choice rest =>
          exact listed (shown (choice :: rest) values) (Listing.plain_text "encode" (by decide))
  | some serializer =>
      cases byStatus with
      | nil => exact (Listing.plain_text "json " (by decide)).append (Listing.plain_value _)
      | cons choice rest => exact listed (shown (choice :: rest) _) (Listing.plain_value _)

end Encoder

/-- The line of a function that may stop waits for it inside a scope, and goes on after it
outside. -/
theorem Callback.returns_returnLine (callback : Callback σ α) (index : Nat) {wrap : Listing}
    (plain : wrap.Plain) (inScope : Bool) :
    (callback.returnLine index wrap none inScope).Returns (callback.suspends && inScope)
      (callback.suspends && !inScope) := by
  have line {call : Listing} (called : call.Plain) :
      (if !callback.suspends then
        Listing.text "return " ++ wrap ++ Listing.text "(" ++ call ++ Listing.text ")"
      else if inScope then
        Listing.text "return " ++ wrap ++ Listing.text "(await " ++ call ++ Listing.text ")"
      else
        Listing.text "return " ++ call ++ Listing.text ".then(" ++ wrap ++
          Listing.text ")").Returns (callback.suspends && inScope)
            (callback.suspends && !inScope) := by
    cases callback.suspends with
    | false =>
        exact Listing.returns_around plain called "(" (by decide) (by decide) (by decide)
    | true =>
        cases inScope with
        | true =>
            have spelt : "await".toList <:+: "(await ".toList := ⟨['('], [' '], by decide⟩
            exact Listing.returns_around plain called "(await " (by decide) (fun _ => spelt)
              (by decide)
        | false =>
            have spelt : ".then".toList <:+: ".then(".toList := ⟨[], ['('], by decide⟩
            exact Listing.returns_around called plain ".then(" (by decide) (by decide)
              (fun _ => spelt)
  cases needs : callback.needsContext with
  | true =>
      simp only [returnLine, needs]
      exact line ((Listing.plain_value index).append (Listing.plain_text "(c)" (by decide)))
  | false =>
      simp only [returnLine, needs]
      exact line ((Listing.plain_value index).append (Listing.plain_text "()" (by decide)))

namespace Terminal

theorem returns_compilePage (page : Page) (values : ValueTable) :
    (page.compile values : BuiltTerminal σ × ValueTable).1.listing.Returns false false := by
  have starts : "return ".toList <+: (Listing.text "return ").chars :=
    Listing.starts_text "return " (by decide)
  have bare (index : Nat) : (Listing.text "return " ++ Listing.value index).Plain :=
    (Listing.plain_text "return " (by decide)).append (Listing.plain_value index)
  have cloned (index : Nat) :
      (Listing.text "return " ++ Listing.value index ++ Listing.text ".clone()").Returns
        false false :=
    ((bare index).append (Listing.plain_text ".clone()" (by decide))).returns
      (Listing.starts_append (Listing.starts_append starts _) _)
  obtain ⟨body, status, headers⟩ := page
  cases body with
  | null => exact (bare _).returns (Listing.starts_append starts _)
  | str content =>
      have made : (Listing.text "return new Response(").Plain :=
        Listing.plain_text "return new Response(" (by decide)
      have starts := Listing.starts_text "return new Response(" (by decide)
      exact ((made.append (Listing.plain_value _)).append
        (Listing.plain_text ")" (by decide))).returns
          (Listing.starts_append (Listing.starts_append starts _) _)
  | bool _ => exact cloned _
  | num _ => exact cloned _
  | arr _ => exact cloned _
  | obj _ => exact cloned _

/-- The line of a terminal that may stop waits for it inside a scope, and goes on after it
outside. -/
theorem returns_compile (terminal : Terminal σ) (inScope : Bool) (unhandled : Response)
    (values : ValueTable) :
    (terminal.compile none inScope unhandled values).1.listing.Returns
      (terminal.suspends && inScope) (terminal.suspends && !inScope) := by
  cases terminal with
  | function callback =>
      exact callback.returns_returnLine _ (Listing.plain_text "respond" (by decide)) inScope
  | formatted callback encoder =>
      exact callback.returns_returnLine _ (encoder.plain_compile values) inScope
  | fixed page => exact returns_compilePage page values

end Terminal

end RouteTree
