import RouteTree.Proofs.Captures

/-!
# The grammar of patterns

A text is read as a pattern exactly if a slash stands in front, no piece between its
slashes is a colon alone, and a star alone is the last piece if it is one at all. Of
several offending pieces the leftmost gives the reason, and a missing slash comes
before them all.

Reading undoes writing: the segments of a pattern, written out with a slash in front
of each, give its text back. A pattern is therefore known by its segments as well as
by its text, and a router that compares either turns away the same routes.
-/

namespace RouteTree

open Http

variable {α : Type}

/-! ## Writing segments out -/

namespace Segment

def text : Segment → String
  | .literal text => text
  | .param name => ":" ++ name
  | .rest => "*"

/-- A segment that its text stands for in any place: one piece of plain text, or a
name that is not empty. A star stands for the rest in the last place only. -/
def IsProper : Segment → Prop
  | .literal text => Pattern.IsPlain text.toList ∧ '/' ∉ text.toList
  | .param name => name ≠ "" ∧ '/' ∉ name.toList
  | .rest => False

end Segment

namespace Pattern

/-- Segments written out, a slash in front of each. -/
def render (segments : List Segment) : String :=
  "/" ++ Text.join "/" (segments.map Segment.text)

/-- Segments that their texts stand for: each of them does so in any place, and the
last may be the rest. -/
def Proper : List Segment → Prop
  | [] => False
  | [segment] => segment = .rest ∨ segment.IsProper
  | segment :: next :: others => segment.IsProper ∧ Proper (next :: others)

theorem toList_render (segments : List Segment) :
    (render segments).toList =
      '/' :: Text.joinWith '/' (segments.map fun segment => segment.text.toList) := by
  rw [render, String.toList_append, Text.toList_join rfl, List.map_map]
  rfl

/-- A piece is read as the segment that is written so. -/
theorem reads_iff {piece : List Char} {segment : Segment} :
    Reads piece segment ∧ '/' ∉ piece ↔ segment.IsProper ∧ piece = segment.text.toList := by
  constructor
  · rintro ⟨reads, whole⟩
    cases reads with
    | param nonempty => simpa [Segment.IsProper, Segment.text, nonempty] using whole
    | plain plain => simpa [Segment.IsProper, Segment.text, plain] using whole
  · rintro ⟨proper, rfl⟩
    cases segment with
    | literal text =>
        have reads := Reads.plain proper.1
        rw [String.ofList_toList] at reads
        exact ⟨reads, proper.2⟩
    | param name =>
        have nonempty : name.toList ≠ [] := by simpa using proper.1
        have reads := Reads.param nonempty
        rw [String.ofList_toList] at reads
        refine ⟨?_, ?_⟩
        · simpa [Segment.text] using reads
        · simpa [Segment.text] using proper.2
    | rest => exact proper.elim

theorem readsAll_iff {pieces : List (List Char)} {segments : List Segment} :
    ReadsAll pieces segments ∧ (∀ piece ∈ pieces, '/' ∉ piece) ↔
      Proper segments ∧ pieces = segments.map fun segment => segment.text.toList := by
  constructor
  · rintro ⟨reads, whole⟩
    induction reads with
    | star => exact ⟨.inl rfl, rfl⟩
    | last reads =>
        obtain ⟨proper, rfl⟩ := reads_iff.1 ⟨reads, whole _ List.mem_cons_self⟩
        exact ⟨.inr proper, rfl⟩
    | cons reads rest ih =>
        obtain ⟨here, later⟩ := List.forall_mem_cons.1 whole
        obtain ⟨proper, rfl⟩ := reads_iff.1 ⟨reads, here⟩
        obtain ⟨others, rfl⟩ := ih later
        exact ⟨⟨proper, others⟩, rfl⟩
  · rintro ⟨proper, rfl⟩
    induction segments with
    | nil => exact proper.elim
    | cons segment segments ih =>
        cases segments with
        | nil =>
            rcases proper with rfl | proper
            · exact ⟨.star, by simp [Segment.text]⟩
            · obtain ⟨reads, whole⟩ := reads_iff.2 ⟨proper, rfl⟩
              exact ⟨.last reads, List.forall_mem_singleton.2 whole⟩
        | cons next others =>
            obtain ⟨reads, whole⟩ := reads_iff.2 ⟨proper.1, rfl⟩
            obtain ⟨rest, later⟩ := ih proper.2
            exact ⟨.cons reads rest, List.forall_mem_cons.2 ⟨whole, later⟩⟩

theorem Reads.segment_eq {piece : List Char} {segment : Segment} (reads : Reads piece segment)
    (isLast : Bool) : Pattern.segment piece isLast = .ok segment := by
  cases reads with
  | @param name nonempty =>
      cases name with
      | nil => exact absurd rfl nonempty
      | cons c name => rfl
  | plain plain =>
      unfold Pattern.segment
      split
      · exact absurd rfl plain.1
      · exact absurd rfl (plain.2 [])
      · exact absurd rfl (plain.2 _)
      · rfl

theorem ReadsAll.segmentsOf_eq {pieces : List (List Char)} {segments : List Segment}
    (reads : ReadsAll pieces segments) : segmentsOf pieces = .ok segments := by
  induction reads with
  | star => rfl
  | last reads => simp [segmentsOf, reads.segment_eq]
  | cons reads rest ih => simp [segmentsOf, reads.segment_eq, ih]

/-- Reading undoes writing: a text is read as the proper segments that are written so. -/
theorem parse_eq_ok_iff {text : String} {pattern : Pattern} :
    parse text = .ok pattern ↔
      pattern.text = text ∧ Proper pattern.segments ∧ render pattern.segments = text := by
  constructor
  · intro read
    obtain ⟨pieces, cut, reads⟩ := parse_eq_ok read
    have joined := Text.joinWith_splitOn '/' text.toList
    have whole : ∀ piece ∈ [] :: pieces, '/' ∉ piece := by
      rw [← cut]
      exact fun piece mem => Text.sep_not_mem_of_mem_splitOn mem
    obtain ⟨proper, rfl⟩ := readsAll_iff.1 ⟨reads, (List.forall_mem_cons.1 whole).2⟩
    refine ⟨text_of_parse read, proper, ?_⟩
    rw [← String.toList_inj, toList_render, ← joined, cut,
      Text.joinWith_cons_of_ne_nil '/' [] reads.ne_nil, List.nil_append]
  · obtain ⟨written, segments⟩ := pattern
    rintro ⟨same, proper, rfl⟩
    change written = render segments at same
    subst same
    obtain ⟨reads, whole⟩ := readsAll_iff.2 ⟨proper, rfl⟩
    simp only [parse, toList_render, Text.splitOn_joinWith reads.ne_nil whole,
      reads.segmentsOf_eq]

/-! ## Offending pieces -/

/-- The piece at a place makes the pieces no pattern. -/
inductive Offends (pieces : List (List Char)) : Nat → PatternReason → Prop
  /-- It is a colon without a name. -/
  | emptyName {place : Nat} (colon : pieces[place]? = some [':']) :
      Offends pieces place .emptyName
  /-- It is a star, and another piece follows. -/
  | starNotLast {place : Nat} (star : pieces[place]? = some ['*'])
      (followed : place + 1 < pieces.length) : Offends pieces place .starNotLast

/-- The piece at a place offends, and none before it does. -/
structure OffendsFirst (pieces : List (List Char)) (place : Nat) (reason : PatternReason) :
    Prop where
  here : Offends pieces place reason
  first : ∀ earlier < place, ∀ other, ¬ Offends pieces earlier other

section Offends

variable {piece : List Char} {pieces : List (List Char)} {place : Nat} {reason : PatternReason}

theorem not_offends_nil (place : Nat) (reason : PatternReason) : ¬ Offends [] place reason := by
  intro offends
  cases offends with
  | emptyName colon => cases colon
  | starNotLast star => cases star

theorem offends_zero :
    Offends (piece :: pieces) 0 reason ↔ segment piece pieces.isEmpty = .error reason := by
  constructor
  · intro offends
    cases offends with
    | emptyName colon =>
        cases colon
        rfl
    | starNotLast star followed =>
        cases star
        cases pieces with
        | nil => simp at followed
        | cons next pieces => rfl
  · intro unread
    unfold segment at unread
    split at unread
    · split at unread
      · cases unread
      · rename_i more
        cases unread
        refine .starNotLast rfl ?_
        simpa [List.length_pos_iff] using more
    · cases unread
      exact .emptyName rfl
    · cases unread
    · cases unread

theorem offends_succ :
    Offends (piece :: pieces) (place + 1) reason ↔ Offends pieces place reason := by
  constructor
  · intro offends
    cases offends with
    | emptyName colon => exact .emptyName colon
    | starNotLast star followed => exact .starNotLast star (Nat.lt_of_succ_lt_succ followed)
  · intro offends
    cases offends with
    | emptyName colon => exact .emptyName colon
    | starNotLast star followed => exact .starNotLast star (Nat.succ_lt_succ followed)

/-- Behind a piece that is read, the next one to offend is the first. -/
theorem exists_offendsFirst_cons {read : Segment}
    (reads : segment piece pieces.isEmpty = .ok read) :
    (∃ place, OffendsFirst (piece :: pieces) place reason) ↔
      ∃ place, OffendsFirst pieces place reason := by
  have passes (other : PatternReason) : ¬ Offends (piece :: pieces) 0 other := by
    rw [offends_zero, reads]
    intro unread
    cases unread
  constructor
  · rintro ⟨_ | place, here, first⟩
    · exact absurd here (passes reason)
    · refine ⟨place, offends_succ.1 here, ?_⟩
      intro earlier before other offends
      exact first (earlier + 1) (Nat.succ_lt_succ before) other (offends_succ.2 offends)
  · rintro ⟨place, here, first⟩
    refine ⟨place + 1, offends_succ.2 here, ?_⟩
    rintro (_ | earlier) before other offends
    · exact passes other offends
    · exact first earlier (Nat.lt_of_succ_lt_succ before) other (offends_succ.1 offends)

/-- Pieces are not read for the reason of the first one to offend. -/
theorem segmentsOf_eq_error_iff :
    segmentsOf pieces = .error reason ↔ ∃ place, OffendsFirst pieces place reason := by
  induction pieces with
  | nil =>
      constructor
      · intro unread
        cases unread
      · rintro ⟨place, here, _⟩
        exact absurd here (not_offends_nil place reason)
  | cons piece pieces ih =>
      rw [segmentsOf]
      cases head : segment piece pieces.isEmpty with
      | error own =>
          have offends := offends_zero.2 head
          constructor
          · rintro ⟨⟩
            exact ⟨0, offends, fun earlier before => absurd before (Nat.not_lt_zero earlier)⟩
          · rintro ⟨_ | place, here, first⟩
            · cases head.symm.trans (offends_zero.1 here)
              rfl
            · exact absurd offends (first 0 (Nat.succ_pos place) own)
      | ok read =>
          rw [exists_offendsFirst_cons head, ← ih]
          cases segmentsOf pieces <;> simp

theorem exists_offendsFirst (offends : Offends pieces place reason) :
    ∃ place reason, OffendsFirst pieces place reason := by
  induction place using Nat.strongRecOn generalizing reason with
  | ind place ih =>
      by_cases first : ∀ earlier < place, ∀ other, ¬ Offends pieces earlier other
      · exact ⟨place, reason, offends, first⟩
      · push Not at first
        obtain ⟨earlier, before, other, offends⟩ := first
        exact ih earlier before offends

/-- No piece offends exactly if none is a colon and none but the last is a star. -/
theorem not_offends_iff :
    (∀ place reason, ¬ Offends pieces place reason) ↔
      [':'] ∉ pieces ∧ ['*'] ∉ pieces.dropLast := by
  simp only [List.mem_iff_getElem?, List.getElem?_dropLast]
  constructor
  · intro never
    refine ⟨?_, ?_⟩
    · rintro ⟨place, colon⟩
      exact never place _ (.emptyName colon)
    · rintro ⟨place, star⟩
      split at star
      · rename_i followed
        exact never place _ (.starNotLast star (Nat.add_lt_of_lt_sub followed))
      · cases star
  · rintro ⟨named, starLast⟩ place reason offends
    cases offends with
    | emptyName colon => exact named ⟨place, colon⟩
    | starNotLast star followed =>
        exact starLast ⟨place, by rw [if_pos (Nat.lt_sub_of_add_lt followed), star]⟩

end Offends

/-! ## The grammar of texts -/

/-- The texts of patterns, by the pieces between their slashes. The piece in front of
the first slash is empty. -/
structure WellFormed (text : String) : Prop where
  slash : ∃ body, text = "/" ++ body
  named : [':'] ∉ Text.splitOn '/' text.toList
  starLast : ['*'] ∉ (Text.splitOn '/' text.toList).dropLast

/-- Why a text is no pattern. The leftmost offending piece counts, and only if there
is a slash in front. -/
inductive Rejected (text : String) : PatternReason → Prop
  | noLeadingSlash (missing : ¬ ∃ body, text = "/" ++ body) : Rejected text .noLeadingSlash
  | piece {reason : PatternReason} (slash : ∃ body, text = "/" ++ body) (place : Nat)
      (offends : OffendsFirst (Text.splitOn '/' text.toList) place reason) : Rejected text reason

theorem slash_iff {text : String} :
    (∃ body, text = "/" ++ body) ↔ ∃ body, text.toList = '/' :: body := by
  constructor
  · rintro ⟨body, rfl⟩
    exact ⟨body.toList, by simp⟩
  · rintro ⟨body, cut⟩
    refine ⟨String.ofList body, ?_⟩
    rw [← String.toList_inj, cut]
    simp

theorem parse_eq_error_iff {text : String} {reason : PatternReason} :
    parse text = .error reason ↔ Rejected text reason := by
  by_cases slash : ∃ body, text = "/" ++ body
  · obtain ⟨body, cut⟩ := slash_iff.1 slash
    have pieces : Text.splitOn '/' text.toList = [] :: Text.splitOn '/' body := by
      rw [cut, Text.splitOn_cons_self]
    have rejected : Rejected text reason ↔
        ∃ place, OffendsFirst (Text.splitOn '/' text.toList) place reason := by
      constructor
      · rintro (missing | ⟨_, place, offends⟩)
        · exact absurd slash missing
        · exact ⟨place, offends⟩
      · rintro ⟨place, offends⟩
        exact .piece slash place offends
    -- The empty piece in front of the first slash is read as literal text.
    rw [rejected, pieces, exists_offendsFirst_cons rfl, ← segmentsOf_eq_error_iff]
    simp only [parse, cut]
    cases segmentsOf (Text.splitOn '/' body) <;> simp
  · have unread : parse text = .error .noLeadingSlash := by
      rw [parse]
      split
      · rename_i body cut
        exact absurd (slash_iff.2 ⟨body, cut⟩) slash
      · rfl
    rw [unread]
    constructor
    · rintro ⟨⟩
      exact .noLeadingSlash slash
    · rintro (missing | ⟨there, _, _⟩)
      · rfl
      · exact absurd there slash

theorem not_rejected_iff {text : String} :
    (∀ reason, ¬ Rejected text reason) ↔ WellFormed text := by
  constructor
  · intro never
    have slash : ∃ body, text = "/" ++ body := by
      by_contra missing
      exact never _ (.noLeadingSlash missing)
    have passes : ∀ place reason, ¬ Offends (Text.splitOn '/' text.toList) place reason := by
      intro place reason offends
      obtain ⟨place, reason, first⟩ := exists_offendsFirst offends
      exact never reason (.piece slash place first)
    obtain ⟨named, starLast⟩ := not_offends_iff.1 passes
    exact ⟨slash, named, starLast⟩
  · rintro ⟨slash, named, starLast⟩ reason rejected
    cases rejected with
    | noLeadingSlash missing => exact missing slash
    | piece _ place offends => exact not_offends_iff.2 ⟨named, starLast⟩ place reason offends.here

theorem exists_parse_eq_ok_iff {text : String} :
    (∃ pattern, parse text = .ok pattern) ↔ WellFormed text := by
  simp only [← not_rejected_iff, ← parse_eq_error_iff]
  cases parse text <;> simp

/-- Patterns that were read are the same if their segments are, and if their texts are. -/
theorem segments_inj {text other : String} {pattern otherPattern : Pattern}
    (read : parse text = .ok pattern) (otherRead : parse other = .ok otherPattern) :
    (pattern.segments = otherPattern.segments ↔ text = other) ∧
      (pattern = otherPattern ↔ text = other) := by
  have sameText : text = other → pattern = otherPattern := by
    rintro rfl
    exact Except.ok.inj (read.symm.trans otherRead)
  have sameSegments : pattern.segments = otherPattern.segments → text = other := by
    intro same
    rw [← (parse_eq_ok_iff.1 read).2.2, same, (parse_eq_ok_iff.1 otherRead).2.2]
  refine ⟨⟨sameSegments, ?_⟩, ?_, sameText⟩
  · intro same
    rw [sameText same]
  · rintro rfl
    exact sameSegments rfl

end Pattern

/-- An insertion is turned away exactly if one with its method and segments was
accepted before. -/
theorem Router.Records.refuses_segments_iff {router : Router α} {accepted : List (Insertion α)}
    (records : router.Records accepted) (method : Method) {pattern : Pattern}
    (read : Pattern.parse pattern.text = .ok pattern) (value : α) :
    (router.insert method pattern value).1 = false ↔
      ∃ earlier ∈ accepted, earlier.method = method ∧
        earlier.pattern.segments = pattern.segments := by
  rw [records.insert_eq_false_iff method read value]
  refine exists_congr fun earlier => and_congr_right fun there => ?_
  rw [(Pattern.segments_inj (records.read earlier there) read).1, Insertion.key, Prod.mk.injEq]

namespace Pattern

/-- Reading a pattern follows the grammar of paths. For every text:

* it is read exactly if it starts with a slash, none of its pieces is a colon alone,
  and a star alone is none but the last;
* it is not read for a certain reason exactly if that is the missing slash, or else
  the reason of the leftmost offending piece;
* the pattern that is read keeps the text, and its segments are the proper ones that
  give the text when they are written out;
* a pattern that was read from another text has other segments;
* whatever a router accepted before, it turns the pattern away exactly if it accepted
  the same segments for the method, and exactly if it accepted the same text. -/
theorem parse_follows_grammar (text : String) :
    ((∃ pattern, parse text = .ok pattern) ↔ WellFormed text) ∧
    (∀ reason, parse text = .error reason ↔ Rejected text reason) ∧
    (∀ pattern, parse text = .ok pattern ↔
      pattern.text = text ∧ Proper pattern.segments ∧ render pattern.segments = text) ∧
    (∀ pattern other otherPattern, parse text = .ok pattern → parse other = .ok otherPattern →
      (pattern.segments = otherPattern.segments ↔ text = other) ∧
      (pattern = otherPattern ↔ text = other)) ∧
    ∀ (history : List (Insertion α)) (next : Insertion α),
      (∀ insertion ∈ history, insertion.Read) → parse text = .ok next.pattern →
      let router := (Router.empty.insertAll history).1
      let accepted := (Router.empty.insertAll history).2
      ((router.insert next.method next.pattern next.value).1 = false ↔
        ∃ earlier ∈ accepted, earlier.method = next.method ∧
          earlier.pattern.segments = next.pattern.segments) ∧
      ((router.insert next.method next.pattern next.value).1 = false ↔
        ∃ earlier ∈ accepted, earlier.method = next.method ∧ earlier.pattern.text = text) := by
  refine ⟨exists_parse_eq_ok_iff, fun reason => parse_eq_error_iff, fun pattern => parse_eq_ok_iff,
    fun pattern other otherPattern => segments_inj, ?_⟩
  intro history next readAll read router accepted
  have records : router.Records accepted := Router.records_insertAll Router.records_empty readAll
  obtain rfl := text_of_parse read
  refine ⟨records.refuses_segments_iff next.method read next.value, ?_⟩
  have known := records.insert_eq_false_iff next.method read next.value
  simpa only [Insertion.key, Prod.mk.injEq] using known

end Pattern

namespace Sample

/-- Names and texts that hold the marks themselves, and an empty piece. -/
def marks : Pattern :=
  ⟨"/::/*x//:*/*", [.param ":", .literal "*x", .literal "", .param "*", .rest]⟩

/-- The marks are written back, and a second route with them is turned away. A star in
front of a colon is the one that is reported, and a missing slash before both. -/
theorem marks_written_back : Pattern.parse marks.text = .ok marks ∧
    Pattern.WellFormed marks.text ∧ Pattern.render marks.segments = marks.text ∧
    ((Router.empty.insertAll [⟨⟨"GET"⟩, marks, 1⟩]).1.insert ⟨"GET"⟩ marks 2).1 = false ∧
    Pattern.Rejected "/a/*/:" .starNotLast ∧ Pattern.Rejected "*/:" .noLeadingSlash := by
  have read : Pattern.parse marks.text = .ok marks := rfl
  obtain ⟨accepts, _, written, _, refuses⟩ := Pattern.parse_follows_grammar marks.text
  obtain ⟨_, rejectsStar, _⟩ := Pattern.parse_follows_grammar (α := Nat) "/a/*/:"
  obtain ⟨_, rejectsBare, _⟩ := Pattern.parse_follows_grammar (α := Nat) "*/:"
  refine ⟨read, accepts.1 ⟨marks, read⟩, ((written marks).1 read).2.2, ?_,
    (rejectsStar _).1 rfl, (rejectsBare _).1 rfl⟩
  have known := refuses [⟨⟨"GET"⟩, marks, 1⟩] ⟨⟨"GET"⟩, marks, 2⟩
    (List.forall_mem_singleton.2 read) read
  exact known.2.2 ⟨⟨⟨"GET"⟩, marks, 1⟩, List.mem_cons_self, rfl, rfl⟩

end Sample

end RouteTree
