import RouteTree.Proofs.LinearScan

/-!
# Which paths a pattern captures

A path matches a pattern exactly if it is the text of the pattern with values put
in the places of its parameters: a piece of its own that is not empty for a name,
and any text at all, slashes included, for the star at the end. The walk along the
path takes one piece after the other and never looks back; no path can be filled in
in two ways.
-/

namespace RouteTree.Pattern

/-! ## Filling in a pattern -/

def IsPlain (piece : List Char) : Prop := piece ≠ ['*'] ∧ ∀ name, piece ≠ ':' :: name

/-- What the parameters among the pieces of a pattern are called, in order. A star
has no name. -/
def names : List (List Char) → List (Option String)
  | [] => []
  | ['*'] :: pieces => none :: names pieces
  | (':' :: name) :: pieces => some (String.ofList name) :: names pieces
  | _ :: pieces => names pieces

/-- The pieces of a pattern with values in the places of its parameters, in order. -/
inductive Fills : List (List Char) → List String → List (List Char) → Prop
  | nil : Fills [] [] []
  /-- A star at the end takes any value. -/
  | star (value : String) : Fills [['*']] [value] [value.toList]
  /-- A name takes a value that is one whole piece of a path. -/
  | param {pieces filled : List (List Char)} {values : List String} (name : List Char)
      {value : String} (nonempty : value ≠ "") (whole : '/' ∉ value.toList)
      (rest : Fills pieces values filled) :
      Fills ((':' :: name) :: pieces) (value :: values) (value.toList :: filled)
  | plain {pieces filled : List (List Char)} {values : List String} {piece : List Char}
      (plain : IsPlain piece) (rest : Fills pieces values filled) :
      Fills (piece :: pieces) values (piece :: filled)

/-- The path is the text of a pattern with these values in the places of its
parameters. -/
def Filled (text : String) (values : List String) (path : String) : Prop :=
  ∃ filled, Fills (Text.splitOn '/' text.toList) values filled ∧
    path.toList = Text.joinWith '/' filled

theorem names_of_plain {piece : List Char} (plain : IsPlain piece) (pieces : List (List Char)) :
    names (piece :: pieces) = names pieces := by
  rw [names]
  · exact fun same => plain.1 same
  · exact fun name same => plain.2 name same

theorem Fills.length_eq {pieces filled : List (List Char)} {values : List String}
    (fills : Fills pieces values filled) : filled.length = pieces.length := by
  induction fills with
  | nil => rfl
  | star value => rfl
  | param name nonempty whole rest ih => exact congrArg (· + 1) ih
  | plain plain rest ih => exact congrArg (· + 1) ih

theorem Fills.ne_nil {pieces filled : List (List Char)} {values : List String}
    (fills : Fills pieces values filled) (nonempty : pieces ≠ []) : filled ≠ [] := by
  rw [← List.length_pos_iff, fills.length_eq, List.length_pos_iff]
  exact nonempty

/-! ## Reading a pattern -/

/-- The segment that a piece other than a star is read as. -/
inductive Reads : List Char → Segment → Prop
  | param {name : List Char} (nonempty : name ≠ []) :
      Reads (':' :: name) (.param (String.ofList name))
  | plain {piece : List Char} (plain : IsPlain piece) :
      Reads piece (.literal (String.ofList piece))

/-- The segments that pieces are read as. Only the last one can be a star. -/
inductive ReadsAll : List (List Char) → List Segment → Prop
  | star : ReadsAll [['*']] [.rest]
  | last {piece : List Char} {segment : Segment} (reads : Reads piece segment) :
      ReadsAll [piece] [segment]
  | cons {piece : List Char} {pieces : List (List Char)} {segment next : Segment}
      {others : List Segment} (reads : Reads piece segment)
      (rest : ReadsAll pieces (next :: others)) :
      ReadsAll (piece :: pieces) (segment :: next :: others)

theorem reads_segment {piece : List Char} {isLast : Bool} {segment : Segment}
    (read : Pattern.segment piece isLast = .ok segment) :
    Reads piece segment ∨ piece = ['*'] ∧ isLast = true ∧ segment = .rest := by
  unfold Pattern.segment at read
  split at read
  · split at read
    · rename_i last
      cases read
      exact .inr ⟨rfl, last, rfl⟩
    · cases read
  · cases read
  · rename_i name nonempty
    cases read
    exact .inl (.param fun empty => nonempty (by rw [empty]))
  · rename_i noStar _ noName
    cases read
    exact .inl (.plain ⟨noStar, noName⟩)

theorem readsAll_segmentsOf {pieces : List (List Char)} (nonempty : pieces ≠ [])
    {segments : List Segment} (read : segmentsOf pieces = .ok segments) :
    ReadsAll pieces segments := by
  induction pieces generalizing segments with
  | nil => exact absurd rfl nonempty
  | cons piece pieces ih =>
      rw [segmentsOf] at read
      split at read
      · cases read
      · rename_i first head
        split at read
        · cases read
        · rename_i others tail
          cases read
          cases pieces with
          | nil =>
              cases tail
              rcases reads_segment head with reads | ⟨rfl, _, rfl⟩
              · exact .last reads
              · exact .star
          | cons next pieces =>
              have rest := ih (by simp) tail
              rcases reads_segment head with reads | ⟨_, last, _⟩
              · cases rest with
                | star => exact .cons reads .star
                | last later => exact .cons reads (.last later)
                | cons later rest => exact .cons reads (.cons later rest)
              · cases last

/-! ## Walking along a path -/

/-- What a segment takes from the piece of a path in front of the next slash. -/
def take? : Segment → List Char → Option (List Capture)
  | .literal text, head => if head = text.toList then some [] else none
  | .param name, head => if head = [] then none else some [⟨some name, String.ofList head⟩]
  | .rest, _ => none

namespace Reads

variable {piece : List Char} {segment : Segment}

/-- A segment other than the star takes the piece in front of the next slash. If
there is a slash, other segments must go on behind it; if not, there may be none. -/
theorem captureFrom_eq (reads : Reads piece segment) (others : List Segment) (path : List Char) :
    captureFrom (segment :: others) path =
      match take? segment (Text.splitFirst '/' path).1, (Text.splitFirst '/' path).2, others with
      | none, _, _ => none
      | some found, none, [] => some found
      | some found, some path, next :: others =>
        (captureFrom (next :: others) path).map (found ++ ·)
      | some _, _, _ => none := by
  cases reads with
  | param nonempty =>
      rw [captureFrom]
      · rfl
      · intro star
        cases star
  | plain plain =>
      rw [captureFrom]
      · rfl
      · intro star
        cases star

/-- The last segment takes what is left of the path, if that is one piece. -/
theorem captureFrom_last (reads : Reads piece segment) {path : List Char}
    {captures : List Capture} :
    captureFrom [segment] path = some captures ↔
      '/' ∉ path ∧ take? segment path = some captures := by
  rw [reads.captureFrom_eq]
  by_cases slash : '/' ∈ path
  · obtain ⟨head, after, rfl, clean⟩ := List.eq_append_cons_of_mem slash
    rw [Text.splitFirst_append_cons clean]
    cases take? segment head <;> simp
  · rw [Text.splitFirst_of_not_mem slash]
    cases take? segment path <;> simp [slash]

/-- A segment that others follow takes one piece of the path and leaves what comes
behind its slash to them. -/
theorem captureFrom_cons (reads : Reads piece segment) {next : Segment} {others : List Segment}
    {path : List Char} {captures : List Capture} :
    captureFrom (segment :: next :: others) path = some captures ↔
      ∃ head after found later, '/' ∉ head ∧ path = head ++ '/' :: after ∧
        take? segment head = some found ∧ captureFrom (next :: others) after = some later ∧
        captures = found ++ later := by
  rw [reads.captureFrom_eq]
  constructor
  · intro matched
    obtain ⟨clean, _, cut⟩ := Text.splitFirst_spec '/' path
    split at matched
    · cases matched
    · rename_i empty
      cases empty
    · rename_i found after first others taken tail rest
      cases rest
      obtain ⟨later, matchedLater, rfl⟩ := Option.map_eq_some_iff.1 matched
      exact ⟨_, after, found, later, clean, cut after tail, taken, matchedLater, rfl⟩
    · cases matched
  · rintro ⟨head, after, found, later, clean, rfl, taken, matched, rfl⟩
    rw [Text.splitFirst_append_cons clean]
    simp [taken, matched]

/-- What a segment takes can be filled in at its piece. -/
theorem fills (reads : Reads piece segment) {head : List Char} {found : List Capture}
    (taken : take? segment head = some found) (whole : '/' ∉ head)
    {pieces filled : List (List Char)} {values : List String}
    (rest : Fills pieces values filled) :
    names (piece :: pieces) = found.map Capture.name ++ names pieces ∧
      Fills (piece :: pieces) (found.map Capture.value ++ values) (head :: filled) := by
  cases reads with
  | @param name nonempty =>
      rw [take?] at taken
      split at taken
      · cases taken
      · rename_i there
        cases taken
        have nonempty : String.ofList head ≠ "" := by simpa using there
        have filled := Fills.param name nonempty (by simpa using whole) rest
        rw [String.toList_ofList] at filled
        exact ⟨rfl, filled⟩
  | plain plain =>
      rw [take?] at taken
      split at taken
      · rename_i same
        cases taken
        rw [same, String.toList_ofList]
        exact ⟨names_of_plain plain pieces, .plain plain rest⟩
      · cases taken

/-- What is filled in at a piece is what its segment takes. -/
theorem taken (reads : Reads piece segment) (clean : '/' ∉ piece)
    {pieces filled : List (List Char)} {values : List String}
    (fills : Fills (piece :: pieces) values filled) :
    ∃ head found later rest, '/' ∉ head ∧ filled = head :: rest ∧
      take? segment head = some found ∧ values = found.map Capture.value ++ later ∧
      Fills pieces later rest := by
  cases reads with
  | @param name nonempty =>
      cases fills with
      | param name nonempty whole rest =>
          refine ⟨_, _, _, _, whole, rfl, if_neg ?_, ?_, rest⟩
          · simpa using nonempty
          · simp
      | plain plain rest => exact absurd rfl (plain.2 name)
  | plain plain =>
      cases fills with
      | star value => exact absurd rfl plain.1
      | param name nonempty whole rest => exact absurd rfl (plain.2 name)
      | plain plain rest =>
          refine ⟨_, _, _, _, clean, rfl, if_pos ?_, rfl, rest⟩
          rw [String.toList_ofList]

end Reads

namespace ReadsAll

variable {pieces : List (List Char)} {segments : List Segment}

theorem ne_nil (reads : ReadsAll pieces segments) : pieces ≠ [] := by
  cases reads <;> exact List.cons_ne_nil _ _

/-- A path that segments capture is their pieces with the captured values filled in. -/
theorem fills_of_captureFrom (reads : ReadsAll pieces segments) {path : List Char}
    {captures : List Capture} (matched : captureFrom segments path = some captures) :
    captures.map Capture.name = names pieces ∧
      ∃ filled, Fills pieces (captures.map Capture.value) filled ∧
        path = Text.joinWith '/' filled := by
  induction reads generalizing path captures with
  | star =>
      cases matched
      refine ⟨rfl, _, .star (String.ofList path), ?_⟩
      simp
  | last reads =>
      obtain ⟨whole, taken⟩ := reads.captureFrom_last.1 matched
      obtain ⟨called, fills⟩ := reads.fills taken whole .nil
      rw [names, List.append_nil] at called
      rw [List.append_nil] at fills
      exact ⟨called.symm, _, fills, rfl⟩
  | cons reads rest ih =>
      obtain ⟨head, after, found, later, whole, rfl, taken, behind, rfl⟩ :=
        reads.captureFrom_cons.1 matched
      obtain ⟨called, filled, fills, rfl⟩ := ih behind
      obtain ⟨called', fills'⟩ := reads.fills taken whole fills
      refine ⟨?_, head :: filled, ?_, ?_⟩
      · rw [called', List.map_append, called]
      · rw [List.map_append]
        exact fills'
      · exact (Text.joinWith_cons_of_ne_nil '/' head (fills.ne_nil rest.ne_nil)).symm

/-- Pieces with values filled in are captured, with these values. -/
theorem captureFrom_of_fills (reads : ReadsAll pieces segments)
    (clean : ∀ piece ∈ pieces, '/' ∉ piece) {values : List String} {filled : List (List Char)}
    (fills : Fills pieces values filled) :
    ∃ captures, captureFrom segments (Text.joinWith '/' filled) = some captures ∧
      captures.map Capture.value = values := by
  induction reads generalizing values filled with
  | star =>
      cases fills with
      | star value => exact ⟨_, rfl, by simp⟩
      | plain plain rest => exact absurd rfl plain.1
  | last reads =>
      obtain ⟨head, found, later, rest, whole, rfl, taken, rfl, none⟩ :=
        reads.taken (clean _ List.mem_cons_self) fills
      cases none
      exact ⟨found, reads.captureFrom_last.2 ⟨whole, taken⟩, by simp⟩
  | cons reads rest ih =>
      obtain ⟨here, behind⟩ := List.forall_mem_cons.1 clean
      obtain ⟨head, found, later, others, whole, rfl, taken, rfl, left⟩ := reads.taken here fills
      obtain ⟨captures, matched, same⟩ := ih behind left
      have more : others ≠ [] := left.ne_nil rest.ne_nil
      rw [Text.joinWith_cons_of_ne_nil '/' head more]
      refine ⟨found ++ captures, ?_, by rw [List.map_append, same]⟩
      exact reads.captureFrom_cons.2 ⟨head, _, found, captures, whole, rfl, taken, matched, rfl⟩

end ReadsAll

theorem parse_eq_ok {text : String} {pattern : Pattern} (read : parse text = .ok pattern) :
    ∃ pieces, Text.splitOn '/' text.toList = [] :: pieces ∧ ReadsAll pieces pattern.segments := by
  rw [parse] at read
  split at read
  · rename_i body slash
    split at read
    · rename_i segments pieces
      cases read
      refine ⟨Text.splitOn '/' body, ?_, ?_⟩
      · rw [slash, Text.splitOn_cons_self]
      · exact readsAll_segmentsOf (Text.splitOn_ne_nil '/' body) pieces
    · cases read
  · cases read

/-- What a pattern captures is filled in in its text. -/
theorem filled_of_capture {text : String} {pattern : Pattern} (read : parse text = .ok pattern)
    {path : String} {params : Params} (matched : pattern.capture path = some params) :
    params.captures.map Capture.name = names (Text.splitOn '/' text.toList) ∧
      Filled text params.values path := by
  obtain ⟨pieces, cut, reads⟩ := parse_eq_ok read
  have plain : IsPlain [] := ⟨by simp, by simp⟩
  rw [capture] at matched
  split at matched
  · rename_i rest slash
    obtain ⟨captures, found, rfl⟩ := Option.map_eq_some_iff.1 matched
    obtain ⟨called, filled, fills, rfl⟩ := reads.fills_of_captureFrom found
    rw [cut, names_of_plain plain]
    refine ⟨called, [] :: filled, ?_, ?_⟩
    · rw [cut]
      exact .plain plain fills
    · rw [slash, Text.joinWith_cons_of_ne_nil '/' [] (fills.ne_nil reads.ne_nil)]
      rfl
  · cases matched

/-- A text with values filled in is captured by its pattern, with these values. -/
theorem capture_of_filled {text : String} {pattern : Pattern} (read : parse text = .ok pattern)
    {path : String} {values : List String} (filled : Filled text values path) :
    ∃ params, pattern.capture path = some params ∧ params.values = values := by
  obtain ⟨pieces, cut, reads⟩ := parse_eq_ok read
  obtain ⟨all, fills, same⟩ := filled
  have clean : ∀ piece ∈ Text.splitOn '/' text.toList, '/' ∉ piece := fun piece mem =>
    Text.sep_not_mem_of_mem_splitOn mem
  rw [cut] at fills clean
  cases fills with
  | plain plain rest =>
      rw [Text.joinWith_cons_of_ne_nil '/' [] (rest.ne_nil reads.ne_nil)] at same
      obtain ⟨captures, matched, values⟩ :=
        reads.captureFrom_of_fills (List.forall_mem_cons.1 clean).2 rest
      refine ⟨⟨captures⟩, ?_, values⟩
      simp only [capture, same, List.nil_append, matched, Option.map_some]

/-- A pattern captures exactly the paths that are its text with values filled in.
For every path:

* it is captured with certain values exactly if it is the text of the pattern with
  these values in the places of its parameters, in order, where a name takes one
  piece that is not empty and the star at the end any text;
* the captures of names bear them, and that of the star bears none;
* the values are determined by the path;
* it is not captured exactly if it can be filled in with no values. -/
theorem capture_iff_filled {text : String} {pattern : Pattern} (read : parse text = .ok pattern)
    (path : String) :
    (∀ values, (∃ params, pattern.capture path = some params ∧ params.values = values) ↔
      Filled text values path) ∧
    (∀ params, pattern.capture path = some params →
      params.captures.map Capture.name = names (Text.splitOn '/' text.toList)) ∧
    (∀ values others, Filled text values path → Filled text others path → values = others) ∧
    (pattern.capture path = none ↔ ∀ values, ¬ Filled text values path) := by
  have exactly (values : List String) :
      (∃ params, pattern.capture path = some params ∧ params.values = values) ↔
        Filled text values path := by
    constructor
    · rintro ⟨params, matched, rfl⟩
      exact (filled_of_capture read matched).2
    · exact capture_of_filled read
  refine ⟨exactly, fun params matched => (filled_of_capture read matched).1, ?_, ?_⟩
  · intro values others filled filled'
    obtain ⟨params, matched, rfl⟩ := capture_of_filled read filled
    obtain ⟨params', matched', rfl⟩ := capture_of_filled read filled'
    rw [Option.some.inj (matched.symm.trans matched')]
  · simp only [← exactly, Option.eq_none_iff_forall_ne_some, not_exists, not_and]
    constructor
    · intro never values params matched
      exact absurd matched (never params)
    · intro never params matched
      exact never params.values params matched rfl

end RouteTree.Pattern

namespace RouteTree.Sample

def shelf : Pattern := ⟨"/files/:kind/*", [.literal "files", .param "kind", .rest]⟩

theorem pieces_shelf : Text.splitOn '/' shelf.text.toList =
    [[], "files".toList, ':' :: "kind".toList, ['*']] := rfl

theorem filled_shelf {kind : String} (nonempty : kind ≠ "") (whole : '/' ∉ kind.toList)
    {below path : String}
    (same : path.toList = "/files/".toList ++ kind.toList ++ '/' :: below.toList) :
    Pattern.Filled shelf.text [kind, below] path := by
  refine ⟨[[], "files".toList, kind.toList, below.toList], ?_, ?_⟩
  · rw [pieces_shelf]
    exact .plain (by simp [Pattern.IsPlain]) (.plain (by simp [Pattern.IsPlain])
      (.param _ nonempty whole (.star below)))
  · rw [same]
    simp [Text.joinWith]

/-- The star may take nothing, and it takes slashes, but a name takes neither. -/
theorem shelf_captures : Pattern.parse shelf.text = .ok shelf ∧
    (∃ params, shelf.capture "/files/img/" = some params ∧ params.values = ["img", ""]) ∧
    (∃ params, shelf.capture "/files/img/a//b" = some params ∧
      params.values = ["img", "a//b"] ∧ params.captures.map Capture.name = [some "kind", none]) ∧
    ∀ values, ¬ Pattern.Filled shelf.text values "/files//a" := by
  have read : Pattern.parse shelf.text = .ok shelf := rfl
  refine ⟨read, ?_, ?_, ?_⟩
  · exact ((Pattern.capture_iff_filled read _).1 _).2 (filled_shelf (by decide) (by decide) rfl)
  · have filled : Pattern.Filled shelf.text ["img", "a//b"] "/files/img/a//b" :=
      filled_shelf (by decide) (by decide) rfl
    obtain ⟨params, matched, values⟩ := ((Pattern.capture_iff_filled read _).1 _).2 filled
    refine ⟨params, matched, values, ?_⟩
    exact (Pattern.capture_iff_filled read _).2.1 params matched
  · have unmatched : shelf.capture "/files//a" = none := by
      simp [shelf, Pattern.capture, Pattern.captureFrom, Text.splitFirst]
    exact (Pattern.capture_iff_filled read _).2.2.2.1 unmatched

end RouteTree.Sample
