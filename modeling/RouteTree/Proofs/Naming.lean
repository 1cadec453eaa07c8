import RouteTree.Proofs.Storage

/-!
# Texts that name locations

A location is written as its names with dots between them, and it is read by cutting
at the dots. Each undoes the other as long as no name is empty or holds a dot, and a
text with an empty piece, be it in front, at the end or between two dots, names
nothing. So there is one text for each location that can be written, and what is
stored at one text is not found at another.
-/

namespace RouteTree

namespace Location

/-- A name that can stand between dots. -/
def IsName (name : String) : Prop := name ≠ "" ∧ '.' ∉ name.toList

theorem segments_ne_nil (location : Location) : location.segments ≠ [] := by
  simp [segments]

theorem exists_segments_eq {names : List String} (nonempty : names ≠ []) :
    ∃ location : Location, location.segments = names :=
  ⟨⟨names.dropLast, names.getLast nonempty⟩, List.dropLast_concat_getLast nonempty⟩

theorem ofSegments?_segments (location : Location) :
    ofSegments? location.segments = some location := by
  obtain ⟨parents, field⟩ := location
  induction parents with
  | nil => rfl
  | cons parent parents ih =>
      obtain ⟨next, rest, cut⟩ :=
        List.exists_cons_of_ne_nil (Location.mk parents field).segments_ne_nil
      have longer : (Location.mk (parent :: parents) field).segments = parent :: next :: rest :=
        congrArg (parent :: ·) cut
      rw [longer, ofSegments?, ← cut, ih]
      rfl

theorem ofSegments?_eq_some_iff {names : List String} {location : Location} :
    ofSegments? names = some location ↔ location.segments = names := by
  constructor
  · exact segments_of_ofSegments?
  · rintro rfl
    exact location.ofSegments?_segments

/-- A text is read as the location with its pieces, unless one of them is empty. -/
theorem parse?_eq_some_iff {text : String} {location : Location} :
    parse? text = some location ↔
      location.segments = Text.segments '.' text ∧ "" ∉ Text.segments '.' text := by
  have empty : (Text.splitOn '.' text.toList).any List.isEmpty = true ↔
      "" ∈ Text.segments '.' text := by
    simp [Text.segments]
  simp only [parse?]
  split
  · rename_i here
    simp [empty.1 here]
  · rename_i full
    rw [ofSegments?_eq_some_iff, ← Text.segments]
    simp [mt empty.2 full]

/-- The names of a location are the pieces of a text exactly if it is written so and
they hold no dots of their own. -/
theorem segments_eq_iff_text_eq {text : String} {location : Location} :
    location.segments = Text.segments '.' text ↔
      (∀ name ∈ location.segments, '.' ∉ name.toList) ∧ location.text = text := by
  have joined : location.text.toList =
      Text.joinWith '.' (location.segments.map String.toList) :=
    Text.toList_join rfl location.segments
  rw [eq_comm, Text.segments_eq_iff, ← joined, String.toList_inj]
  simp [segments_ne_nil]

/-- Reading undoes writing: a text is read as the location that is written so, if all
its names can stand between dots. -/
theorem parse?_eq_some_iff_text_eq {text : String} {location : Location} :
    parse? text = some location ↔
      (∀ name ∈ location.segments, IsName name) ∧ location.text = text := by
  rw [parse?_eq_some_iff]
  constructor
  · rintro ⟨same, full⟩
    obtain ⟨clean, written⟩ := segments_eq_iff_text_eq.1 same
    rw [← same] at full
    refine ⟨?_, written⟩
    intro name mem
    exact ⟨ne_of_mem_of_not_mem mem full, clean name mem⟩
  · rintro ⟨named, written⟩
    have same := segments_eq_iff_text_eq.2 ⟨fun name mem => (named name mem).2, written⟩
    refine ⟨same, ?_⟩
    rw [← same]
    intro empty
    exact (named "" empty).1 rfl

theorem exists_parse?_eq_some_iff {text : String} :
    (∃ location, parse? text = some location) ↔ "" ∉ Text.segments '.' text := by
  constructor
  · rintro ⟨location, read⟩
    exact (parse?_eq_some_iff.1 read).2
  · intro full
    have nonempty : Text.segments '.' text ≠ [] := (Text.segments_eq_iff.1 rfl).1
    obtain ⟨location, same⟩ := exists_segments_eq nonempty
    exact ⟨location, parse?_eq_some_iff.2 ⟨same, full⟩⟩

theorem parse?_join {names : List String} (nonempty : names ≠ [])
    (named : ∀ name ∈ names, IsName name) :
    ∃ location, parse? (Text.join "." names) = some location ∧ location.segments = names := by
  obtain ⟨location, rfl⟩ := exists_segments_eq nonempty
  exact ⟨location, parse?_eq_some_iff_text_eq.2 ⟨named, rfl⟩, rfl⟩

/-- A location on the way to another one lacks some of its names. -/
theorem ne_nil_of_segments_append {first second : Location} {rest : List String}
    (path : first.segments ++ rest = second.segments) (different : first ≠ second) :
    rest ≠ [] := by
  rintro rfl
  rw [List.append_nil] at path
  exact different (segments_injective path)

end Location

theorem Json.follow_eq_none {value : Json} (bare : value.fields? = none) {path : List String}
    (more : path ≠ []) : value.follow path = none := by
  obtain ⟨name, rest, rfl⟩ := List.exists_cons_of_ne_nil more
  rw [Json.follow, bare]
  rfl

/-- A value that is no object is found only where it was stored, or where it had been. -/
theorem Context.get?_store_ne {context : Context} {target location : Location}
    (different : target ≠ location) {value : Json} (bare : value.fields? = none)
    (absent : context.get? location ≠ some value) :
    (context.store target value).get? location ≠ some value := by
  rw [get?_eq_follow, obj_state_store]
  by_cases inside : target.segments <+: location.segments
  · obtain ⟨rest, path⟩ := inside
    have more := Location.ne_nil_of_segments_append path different
    rw [← path, Json.follow_write_append, Json.follow_eq_none bare more]
    simp
  by_cases above : location.segments <+: target.segments
  · -- An object stands on the way to what was stored.
    obtain ⟨rest, path⟩ := above
    have more := Location.ne_nil_of_segments_append path different.symm
    obtain ⟨fields, object⟩ :=
      Json.follow_write_prefix (.obj context.state) location.segments more value
    rw [← path, object]
    rintro ⟨⟩
    cases bare
  · have apart : target.Apart location := ⟨inside, above⟩
    obtain ⟨shared, name, other, rest, others, part, written, read⟩ := apart.fork
    rw [written, read, Json.follow_write_fork _ shared part, ← read, ← get?_eq_follow]
    exact absent

namespace Location

/-- Texts and locations name each other.

* A text is read exactly if none of its pieces between dots is empty.
* The names of the location that is read are not empty and hold no dots, and the
  location is written as the text.
* Any names, at least one, that are not empty and hold no dots are read back from the
  text that joins them with dots.
* Two texts that are read name two locations: a value that is no object and is stored
  at one of them is not found at the other, unless it had been there. -/
theorem texts_name_locations :
    (∀ text, (∃ location, parse? text = some location) ↔ "" ∉ Text.segments '.' text) ∧
    (∀ text location, parse? text = some location →
      (∀ name ∈ location.segments, IsName name) ∧ location.text = text) ∧
    (∀ names, names ≠ [] → (∀ name ∈ names, IsName name) →
      ∃ location, parse? (Text.join "." names) = some location ∧ location.segments = names) ∧
    (∀ text other location otherLocation, parse? text = some location →
      parse? other = some otherLocation → text ≠ other →
      location ≠ otherLocation ∧
      ∀ (context : Context) (value : Json), value.fields? = none →
        context.get? otherLocation ≠ some value →
        (context.store location value).get? otherLocation ≠ some value) := by
  refine ⟨fun text => exists_parse?_eq_some_iff,
    fun text location => parse?_eq_some_iff_text_eq.1, fun names => parse?_join, ?_⟩
  intro text other location otherLocation read otherRead distinct
  have different : location ≠ otherLocation := by
    rintro rfl
    have written := (parse?_eq_some_iff_text_eq.1 read).2
    have otherWritten := (parse?_eq_some_iff_text_eq.1 otherRead).2
    exact distinct (written.symm.trans otherWritten)
  refine ⟨different, ?_⟩
  intro context value bare absent
  exact Context.get?_store_ne different bare absent

end Location

namespace Sample

/-- Names may hold blanks, colons and stars. A dot at the end is too much, and a text
is not found at a location inside the one where it was stored. -/
theorem names_between_dots :
    (∃ location, Location.parse? "user id.:.*" = some location ∧
      location.segments = ["user id", ":", "*"] ∧ location.text = "user id.:.*") ∧
    (¬ ∃ location, Location.parse? "user." = some location) ∧
    (visitor.store ⟨[], "user"⟩ (.str "guest")).get? ⟨["user"], "id"⟩ ≠ some (.str "guest") := by
  obtain ⟨reads, written, joined, apart⟩ := Location.texts_name_locations
  refine ⟨?_, ?_, ?_⟩
  · have named : ∀ name ∈ ["user id", ":", "*"], Location.IsName name := by
      simp [Location.IsName]
    obtain ⟨location, read, same⟩ := joined ["user id", ":", "*"] (by simp) named
    exact ⟨location, read, same, (written _ location read).2⟩
  · rw [reads]
    decide
  · have nothing : visitor.get? ⟨["user"], "id"⟩ = none := rfl
    refine (apart "user" "user.id" ⟨[], "user"⟩ ⟨["user"], "id"⟩ rfl rfl (by decide)).2 visitor
      (.str "guest") rfl ?_
    rw [nothing]
    simp

end Sample

end RouteTree
