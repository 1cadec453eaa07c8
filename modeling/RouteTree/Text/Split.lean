/-!
# Splitting and joining text

A text is a list of characters, or of other symbols. It is cut into pieces at
every occurrence of one separator, and put together again with that separator
between the pieces. The two operations undo each other: a cut text has at least
one piece, no piece contains the separator, and joining the pieces gives the
text back.
-/

namespace RouteTree.Text

variable {α : Type}

/-- The pieces in order with `sep` between neighbours. -/
def joinWith (sep : α) : List (List α) → List α
  | [] => []
  | [piece] => piece
  | piece :: next :: pieces => piece ++ sep :: joinWith sep (next :: pieces)

@[simp] theorem joinWith_singleton (sep : α) (piece : List α) :
    joinWith sep [piece] = piece := rfl

@[simp] theorem joinWith_cons_cons (sep : α) (piece next : List α)
    (pieces : List (List α)) :
    joinWith sep (piece :: next :: pieces) = piece ++ sep :: joinWith sep (next :: pieces) := rfl

theorem joinWith_cons_of_ne_nil (sep : α) (piece : List α) {pieces : List (List α)}
    (h : pieces ≠ []) :
    joinWith sep (piece :: pieces) = piece ++ sep :: joinWith sep pieces := by
  cases pieces with
  | nil => exact absurd rfl h
  | cons next pieces => rfl

theorem map_joinWith {β : Type} (f : α → β) (sep : α) (pieces : List (List α)) :
    (joinWith sep pieces).map f = joinWith (f sep) (pieces.map (List.map f)) := by
  fun_induction joinWith sep pieces with
  | case1 => rfl
  | case2 piece => rfl
  | case3 piece next pieces ih => simp [ih]

variable [DecidableEq α]

/-- The pieces of a text between the occurrences of `sep`. There is always at
least one piece, and pieces may be empty. -/
def splitOn (sep : α) : List α → List (List α)
  | [] => [[]]
  | c :: rest =>
    if c = sep then [] :: splitOn sep rest
    else match splitOn sep rest with
      | [] => [[c]]
      | piece :: pieces => (c :: piece) :: pieces

/-- The part before the first `sep`, and the part after it if there is one. -/
def splitFirst (sep : α) : List α → List α × Option (List α)
  | [] => ([], none)
  | c :: rest =>
    if c = sep then ([], some rest)
    else
      let (before, after) := splitFirst sep rest
      (c :: before, after)

@[simp] theorem splitOn_nil (sep : α) : splitOn sep [] = [[]] := rfl

@[simp] theorem splitOn_cons_self (sep : α) (rest : List α) :
    splitOn sep (sep :: rest) = [] :: splitOn sep rest := by
  simp [splitOn]

theorem splitOn_ne_nil (sep : α) (text : List α) : splitOn sep text ≠ [] := by
  cases text with
  | nil => simp
  | cons c rest =>
    simp only [splitOn]
    split
    · simp
    · split <;> simp

theorem splitOn_cons_of_ne {sep c : α} (rest : List α) (h : c ≠ sep) :
    ∃ piece pieces, splitOn sep rest = piece :: pieces ∧
      splitOn sep (c :: rest) = (c :: piece) :: pieces := by
  cases hs : splitOn sep rest with
  | nil => exact absurd hs (splitOn_ne_nil sep rest)
  | cons piece pieces => exact ⟨piece, pieces, rfl, by simp [splitOn, h, hs]⟩

/-- A change that makes no new separators and loses none keeps the cuts. -/
theorem splitOn_map (f : α → α) (sep : α) (h : ∀ c, f c = sep ↔ c = sep) (text : List α) :
    splitOn sep (text.map f) = (splitOn sep text).map (List.map f) := by
  induction text with
  | nil => rfl
  | cons c rest ih =>
    by_cases hc : c = sep
    · simp [splitOn, hc, (h sep).mpr rfl, ih]
    · obtain ⟨piece, pieces, hs, hsplit⟩ := splitOn_cons_of_ne rest hc
      rw [hsplit, List.map_cons, splitOn, if_neg (mt (h c).mp hc), ih, hs]
      rfl

/-- Joining the pieces of a text gives the text back. -/
@[simp] theorem joinWith_splitOn (sep : α) (text : List α) :
    joinWith sep (splitOn sep text) = text := by
  induction text with
  | nil => rfl
  | cons c rest ih =>
    by_cases h : c = sep
    · subst h
      rw [splitOn_cons_self, joinWith_cons_of_ne_nil _ _ (splitOn_ne_nil c rest), ih]
      rfl
    · obtain ⟨piece, pieces, hs, hc⟩ := splitOn_cons_of_ne rest h
      rw [hc]
      rw [hs] at ih
      cases pieces with
      | nil => simpa using ih
      | cons next pieces => simpa using ih

/-- No piece contains the separator. -/
theorem sep_not_mem_of_mem_splitOn {sep : α} {text piece : List α}
    (h : piece ∈ splitOn sep text) : sep ∉ piece := by
  induction text generalizing piece with
  | nil =>
    simp only [splitOn_nil, List.mem_singleton] at h
    simp [h]
  | cons c rest ih =>
    by_cases hc : c = sep
    · subst hc
      simp only [splitOn_cons_self, List.mem_cons] at h
      rcases h with rfl | h
      · simp
      · exact ih h
    · obtain ⟨first, pieces, hs, hsc⟩ := splitOn_cons_of_ne rest hc
      rw [hsc, List.mem_cons] at h
      rcases h with rfl | h
      · have : sep ∉ first := ih (by simp [hs])
        simp only [List.mem_cons, not_or]
        exact ⟨fun e => hc e.symm, this⟩
      · exact ih (by simp [hs, h])

/-- A piece without the separator is the only piece of itself. -/
theorem splitOn_of_not_mem {sep : α} {piece : List α} (h : sep ∉ piece) :
    splitOn sep piece = [piece] := by
  induction piece with
  | nil => rfl
  | cons c rest ih =>
    simp only [List.mem_cons, not_or] at h
    simp [splitOn, ih h.2, Ne.symm h.1]

theorem splitOn_append_cons {sep : α} {piece : List α} (h : sep ∉ piece)
    (rest : List α) : splitOn sep (piece ++ sep :: rest) = piece :: splitOn sep rest := by
  induction piece with
  | nil => simp
  | cons c piece ih =>
    simp only [List.mem_cons, not_or] at h
    simp [splitOn, ih h.2, Ne.symm h.1]

/-- Cutting a joined text gives the pieces back. -/
theorem splitOn_joinWith {sep : α} {pieces : List (List α)} (hne : pieces ≠ [])
    (h : ∀ piece ∈ pieces, sep ∉ piece) : splitOn sep (joinWith sep pieces) = pieces := by
  induction pieces with
  | nil => exact absurd rfl hne
  | cons piece pieces ih =>
    have hp := h piece (by simp)
    cases pieces with
    | nil => simpa using splitOn_of_not_mem hp
    | cons next pieces =>
      rw [joinWith_cons_cons, splitOn_append_cons hp, ih (by simp)]
      intro q hq
      exact h q (by simp [hq])

/-- The pieces of a string. -/
def segments (sep : Char) (text : String) : List String :=
  (splitOn sep text.toList).map String.ofList

/-- Strings in order with the string `sep` between neighbours. -/
def join (sep : String) : List String → String
  | [] => ""
  | [part] => part
  | part :: next :: parts => part ++ sep ++ join sep (next :: parts)

@[simp] theorem join_nil (sep : String) : join sep [] = "" := rfl

@[simp] theorem join_singleton (sep part : String) : join sep [part] = part := rfl

@[simp] theorem join_cons_cons (sep part next : String) (parts : List String) :
    join sep (part :: next :: parts) = part ++ sep ++ join sep (next :: parts) := rfl

/-- With a separator of one character, strings are joined as texts are. -/
theorem toList_join {sep : String} {c : Char} (single : sep.toList = [c])
    (parts : List String) :
    (join sep parts).toList = joinWith c (parts.map String.toList) := by
  fun_induction join sep parts with
  | case1 => rfl
  | case2 part => rfl
  | case3 part next parts ih => simp [ih, single]

/-- The pieces of a string are the only strings without the separator that give
it when joined. -/
theorem segments_eq_iff {sep : Char} {text : String} {parts : List String} :
    segments sep text = parts ↔ parts ≠ [] ∧ (∀ part ∈ parts, sep ∉ part.toList) ∧
      joinWith sep (parts.map String.toList) = text.toList := by
  constructor
  · rintro rfl
    refine ⟨by simp [segments, splitOn_ne_nil], ?_, ?_⟩
    · intro part mem
      obtain ⟨piece, there, rfl⟩ := List.mem_map.1 mem
      rw [String.toList_ofList]
      exact sep_not_mem_of_mem_splitOn there
    · simp [segments, Function.comp_def]
  · rintro ⟨nonempty, clean, joined⟩
    rw [segments, ← joined, splitOn_joinWith (by simpa using nonempty) (by simpa using clean)]
    simp [Function.comp_def]

end RouteTree.Text
