import RouteTree.Context

/-!
# Reading after writing the state

The state of a context is one value, and a location is a path of names into it.
Writing at a path puts a value at its end and objects along it; reading follows a
path through objects. What is written is read back, with everything inside it. A
path that parts from the written one reads what it read before, also where a value
that was no object had to make way for one: nothing could be read through it.

Writes along paths that part can be made in either order, and a write on the way to
an earlier one leaves nothing of that.
-/

namespace RouteTree

namespace Fields

theorem insert_insert_self (name : String) (first second : Json) (fields : Fields) :
    insert name second (insert name first fields) = insert name second fields := by
  induction fields with
  | nil => simp [insert]
  | cons field rest ih =>
      obtain ⟨key, old⟩ := field
      by_cases before : name < key
      · simp [insert, before]
      · by_cases same : key = name
        · simp [insert, same]
        · simp [insert, before, same, ih]

theorem insert_comm {name other : String} (different : name ≠ other) (first second : Json)
    (fields : Fields) :
    insert other second (insert name first fields) =
      insert name first (insert other second fields) := by
  induction fields with
  | nil => grind [insert]
  | cons field rest ih => grind [insert]

end Fields

namespace Json

/-- The fields of a value; one that is no object has none. -/
def members (value : Json) : Fields := value.fields?.getD []

/-- What is in a field of a value, or null if there is no such field. -/
def child (value : Json) (name : String) : Json := (value.members.find? name).getD .null

def follow : Json → List String → Option Json
  | value, [] => some value
  | value, name :: rest => do
    let fields ← value.fields?
    let inner ← fields.find? name
    inner.follow rest

/-- Put a value at the end of a path. The values along the path become objects, with
the fields that they had. -/
def write : Json → List String → Json → Json
  | _, [], written => written
  | value, name :: rest, written =>
    .obj (value.members.insert name ((value.child name).write rest written))

@[simp] theorem members_obj (fields : Fields) : (obj fields).members = fields := rfl

theorem write_cons (value : Json) (name : String) (rest : List String) (written : Json) :
    value.write (name :: rest) written =
      .obj (value.members.insert name ((value.child name).write rest written)) := rfl

/-- A value that is no object is followed as the empty object is. -/
theorem follow_cons (value : Json) (name : String) (rest : List String) :
    value.follow (name :: rest) = (value.members.find? name).bind (·.follow rest) := by
  cases value <;> rfl

/-- A missing field can be followed no further than null can. -/
theorem follow_child (value : Json) (name : String) {path : List String} (more : path ≠ []) :
    (value.child name).follow path = (value.members.find? name).bind (·.follow path) := by
  rw [child]
  cases value.members.find? name with
  | some inner => rfl
  | none =>
      obtain ⟨next, rest, rfl⟩ := List.exists_cons_of_ne_nil more
      rfl

/-! ## One write -/

/-- What was written is read back, with everything inside it. -/
theorem follow_write_append (value : Json) (path rest : List String) (written : Json) :
    (value.write path written).follow (path ++ rest) = written.follow rest := by
  induction path generalizing value with
  | nil => rfl
  | cons name path ih =>
      rw [List.cons_append, write_cons, follow_cons, members_obj, Fields.find?_insert_self]
      exact ih (value.child name)

/-- The values on the way to what was written are objects. -/
theorem follow_write_prefix (value : Json) (path : List String) {rest : List String}
    (more : rest ≠ []) (written : Json) :
    ∃ fields, (value.write (path ++ rest) written).follow path = some (.obj fields) := by
  induction path generalizing value with
  | nil =>
      obtain ⟨name, rest, rfl⟩ := List.exists_cons_of_ne_nil more
      exact ⟨_, rfl⟩
  | cons name path ih =>
      rw [List.cons_append, write_cons, follow_cons, members_obj, Fields.find?_insert_self]
      exact ih (value.child name)

/-- A path that parts from the written one reads what it read before. -/
theorem follow_write_fork (value : Json) (shared : List String) {name other : String}
    (different : other ≠ name) (rest others : List String) (written : Json) :
    (value.write (shared ++ name :: rest) written).follow (shared ++ other :: others) =
      value.follow (shared ++ other :: others) := by
  induction shared generalizing value with
  | nil =>
      rw [List.nil_append, List.nil_append, write_cons, follow_cons, members_obj,
        Fields.find?_insert_of_ne different, follow_cons]
  | cons next shared ih =>
      have more : shared ++ other :: others ≠ [] := by simp
      rw [List.cons_append, List.cons_append, write_cons, follow_cons, members_obj,
        Fields.find?_insert_self, Option.bind_some, ih, follow_child value next more, follow_cons]

/-! ## Two writes -/

@[simp] theorem members_write_cons (value : Json) (name : String) (rest : List String)
    (written : Json) :
    (value.write (name :: rest) written).members =
      value.members.insert name ((value.child name).write rest written) := rfl

@[simp] theorem child_write_cons_self (value : Json) (name : String) (rest : List String)
    (written : Json) :
    (value.write (name :: rest) written).child name = (value.child name).write rest written := by
  simp [child]

theorem child_write_cons_of_ne {name other : String} (different : other ≠ name) (value : Json)
    (rest : List String) (written : Json) :
    (value.write (name :: rest) written).child other = value.child other := by
  rw [child, members_write_cons, Fields.find?_insert_of_ne different, child]

/-- A write on the way to an earlier one leaves nothing of it. -/
theorem write_write_prefix (value : Json) (path rest : List String) (first second : Json) :
    (value.write (path ++ rest) first).write path second = value.write path second := by
  induction path generalizing value with
  | nil => rfl
  | cons name path ih =>
      rw [List.cons_append, write_cons (value.write _ _), child_write_cons_self,
        members_write_cons, Fields.insert_insert_self, ih, write_cons]

/-- Writes along paths that part can be made in either order. -/
theorem write_write_fork (value : Json) (shared : List String) {name other : String}
    (different : other ≠ name) (rest others : List String) (first second : Json) :
    (value.write (shared ++ name :: rest) first).write (shared ++ other :: others) second =
      (value.write (shared ++ other :: others) second).write (shared ++ name :: rest) first := by
  induction shared generalizing value with
  | nil =>
      rw [List.nil_append, List.nil_append, write_cons (value.write _ _),
        write_cons (value.write _ _), members_write_cons, members_write_cons,
        child_write_cons_of_ne different, child_write_cons_of_ne different.symm,
        Fields.insert_comm different.symm]
  | cons next shared ih =>
      rw [List.cons_append, List.cons_append, write_cons (value.write _ _),
        write_cons (value.write _ _), child_write_cons_self, child_write_cons_self,
        members_write_cons, members_write_cons, Fields.insert_insert_self,
        Fields.insert_insert_self, ih]

end Json

/-! ## Locations as paths -/

namespace Location

/-- Neither location is on the way to the other, and they are not the same. -/
def Apart (first second : Location) : Prop :=
  ¬ first.segments <+: second.segments ∧ ¬ second.segments <+: first.segments

instance (first second : Location) : Decidable (first.Apart second) :=
  inferInstanceAs (Decidable (_ ∧ _))

theorem segments_injective {first second : Location} (same : first.segments = second.segments) :
    first = second := by
  obtain ⟨parents, field⟩ := first
  obtain ⟨others, other⟩ := second
  obtain ⟨rfl, last⟩ := List.append_inj' same rfl
  cases last
  rfl

/-- Locations that are apart share names up to one at which they part. -/
theorem Apart.fork {first second : Location} (apart : first.Apart second) :
    ∃ shared name other rest others, other ≠ name ∧
      first.segments = shared ++ name :: rest ∧ second.segments = shared ++ other :: others := by
  obtain ⟨ahead, behind⟩ := apart
  generalize first.segments = path at ahead behind
  generalize second.segments = paths at ahead behind
  induction path generalizing paths with
  | nil => exact absurd List.nil_prefix ahead
  | cons name path ih =>
      cases paths with
      | nil => exact absurd List.nil_prefix behind
      | cons other paths =>
          by_cases different : other = name
          · subst different
            rw [List.prefix_cons_inj] at ahead behind
            obtain ⟨shared, left, right, rest, others, part, rfl, rfl⟩ := ih paths ahead behind
            exact ⟨other :: shared, left, right, rest, others, part, rfl, rfl⟩
          · exact ⟨[], name, other, path, paths, different, rfl, rfl⟩

end Location

namespace Fields

theorem getAt_eq_follow (parents : List String) (field : String) (fields : Fields) :
    fields.getAt parents field = (Json.obj fields).follow (parents ++ [field]) := by
  induction parents generalizing fields with
  | nil =>
      rw [getAt_nil, List.nil_append, Json.follow_cons, Json.members_obj]
      cases fields.find? field <;> rfl
  | cons parent parents ih =>
      rw [getAt, List.cons_append, Json.follow_cons, Json.members_obj]
      have more : parents ++ [field] ≠ [] := by simp
      obtain ⟨next, rest, path⟩ := List.exists_cons_of_ne_nil more
      cases fields.find? parent with
      | none => rfl
      | some value =>
          cases value with
          | obj inner => exact ih inner
          | _ =>
              rw [Option.bind_some, path]
              rfl

theorem child_eq_members (name : String) (fields : Fields) :
    fields.child name = ((Json.obj fields).child name).members := by
  rw [child, Json.child, Json.members_obj]
  cases fields.find? name with
  | none => rfl
  | some value => cases value <;> rfl

theorem storeAt_eq_write (parents : List String) (field : String) (written : Json)
    (value : Json) :
    Json.obj (value.members.storeAt parents field written) =
      value.write (parents ++ [field]) written := by
  induction parents generalizing value with
  | nil => rfl
  | cons parent parents ih =>
      rw [storeAt_cons, child_eq_members, ih, List.cons_append, Json.write_cons]
      rfl

end Fields

namespace Context

theorem get?_eq_follow (context : Context) (location : Location) :
    context.get? location = (Json.obj context.state).follow location.segments :=
  context.state.getAt_eq_follow location.parents location.field

theorem obj_state_store (context : Context) (target : Location) (value : Json) :
    Json.obj (context.store target value).state =
      (Json.obj context.state).write target.segments value :=
  Fields.storeAt_eq_write target.parents target.field value (.obj context.state)

/-- What a context holds after a write, whatever it held before and however the
location that is read lies to the one that was written.

* The location itself holds the value.
* A location inside it holds what following the remaining names in the value gives.
* A location on the way to it holds an object.
* A location apart from it holds what it held before, or nothing as before.

Status, header fields and captures stay as they were. -/
theorem reads_after_store (context : Context) (target location : Location) (value : Json) :
    (location = target → (context.store target value).get? location = some value) ∧
    (∀ rest, location.segments = target.segments ++ rest →
      (context.store target value).get? location = value.follow rest) ∧
    (location.segments <+: target.segments → location ≠ target →
      ∃ fields, (context.store target value).get? location = some (.obj fields)) ∧
    (target.Apart location →
      (context.store target value).get? location = context.get? location) ∧
    (context.store target value).status = context.status ∧
    (context.store target value).headers = context.headers ∧
    (context.store target value).params = context.params := by
  have inside : ∀ rest, location.segments = target.segments ++ rest →
      (context.store target value).get? location = value.follow rest := by
    intro rest path
    rw [get?_eq_follow, obj_state_store, path, Json.follow_write_append]
  refine ⟨?_, inside, ?_, ?_, rfl, rfl, rfl⟩
  · rintro rfl
    exact inside [] (List.append_nil _).symm
  · rintro ⟨rest, path⟩ different
    have more : rest ≠ [] := by
      rintro rfl
      rw [List.append_nil] at path
      exact different (Location.segments_injective path)
    rw [get?_eq_follow, obj_state_store, ← path]
    exact Json.follow_write_prefix _ _ more value
  · intro apart
    obtain ⟨shared, name, other, rest, others, part, written, read⟩ := apart.fork
    rw [get?_eq_follow, get?_eq_follow, obj_state_store, written, read,
      Json.follow_write_fork _ shared part]

theorem withState_eq (context : Context) {first second : Fields}
    (same : Json.obj first = Json.obj second) :
    ({ context with state := first } : Context) = { context with state := second } := by
  cases same
  rfl

/-- How two writes go together, as whole contexts. At locations apart they can be made
in either order. A write at a location, or on the way to it, makes an earlier write
there as if it had not been. -/
theorem stores_compose (context : Context) (first second : Location) (value later : Json) :
    (first.Apart second →
      (context.store first value).store second later =
        (context.store second later).store first value) ∧
    (second.segments <+: first.segments →
      (context.store first value).store second later = context.store second later) := by
  constructor
  · intro apart
    obtain ⟨shared, name, other, rest, others, part, here, there⟩ := apart.fork
    have same : Json.obj ((context.store first value).store second later).state =
        Json.obj ((context.store second later).store first value).state := by
      rw [obj_state_store, obj_state_store, obj_state_store, obj_state_store, here, there,
        Json.write_write_fork _ shared part]
    exact context.withState_eq same
  · rintro ⟨rest, path⟩
    have same : Json.obj ((context.store first value).store second later).state =
        Json.obj (context.store second later).state := by
      rw [obj_state_store, obj_state_store, obj_state_store, ← path, Json.write_write_prefix]
    exact context.withState_eq same

end Context

namespace Sample

def visitor : Context :=
  { status := .notFound
    state := [("tags", .arr [.str "new"]), ("user", .str "anonymous")] }

/-- The text makes way for an object when a field is written below it. -/
theorem visitor_reads :
    Location.parse? "user.id" = some ⟨["user"], "id"⟩ ∧
    ∃ context, context = visitor.store ⟨["user"], "id"⟩ (.obj [("number", .nat 7)]) ∧
      context.get? ⟨["user"], "id"⟩ = some (.obj [("number", .nat 7)]) ∧
      context.get? ⟨["user", "id"], "number"⟩ = some (.nat 7) ∧
      (∃ fields, context.get? ⟨[], "user"⟩ = some (.obj fields)) ∧
      context.get? ⟨["user"], "name"⟩ = none ∧
      context.get? ⟨[], "tags"⟩ = some (.arr [.str "new"]) ∧
      context.status = .notFound := by
  have reads := fun location =>
    visitor.reads_after_store ⟨["user"], "id"⟩ location (.obj [("number", .nat 7)])
  obtain ⟨itself, _, _, _, status, _⟩ := reads ⟨["user"], "id"⟩
  obtain ⟨_, inside, _⟩ := reads ⟨["user", "id"], "number"⟩
  obtain ⟨_, _, above, _⟩ := reads ⟨[], "user"⟩
  obtain ⟨_, _, _, beside, _⟩ := reads ⟨["user"], "name"⟩
  obtain ⟨_, _, _, apart, _⟩ := reads ⟨[], "tags"⟩
  exact ⟨by decide, _, rfl, itself rfl, inside ["number"] rfl, above (by decide) (by decide),
    beside (by decide), apart (by decide), status⟩

/-- Two fields are written below the text in either order, and both writes are lost
when the user is written. -/
theorem visitor_rewritten :
    (visitor.store ⟨["user"], "id"⟩ (.nat 7)).store ⟨["user", "name"], "first"⟩ (.str "guest") =
      (visitor.store ⟨["user", "name"], "first"⟩ (.str "guest")).store ⟨["user"], "id"⟩ (.nat 7) ∧
    (visitor.store ⟨["user"], "id"⟩ (.nat 7)).store ⟨[], "user"⟩ .null =
      visitor.store ⟨[], "user"⟩ .null := by
  obtain ⟨swap, _⟩ :=
    visitor.stores_compose ⟨["user"], "id"⟩ ⟨["user", "name"], "first"⟩ (.nat 7) (.str "guest")
  obtain ⟨_, lost⟩ := visitor.stores_compose ⟨["user"], "id"⟩ ⟨[], "user"⟩ (.nat 7) .null
  exact ⟨swap (by decide), lost (by decide)⟩

end Sample

end RouteTree
