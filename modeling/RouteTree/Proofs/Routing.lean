import Mathlib.Tactic.Tauto
import RouteTree.Path.Router

/-!
# Contents of routing tables

What a table holds after an insertion: the value is one of those that were there
or the new one, and a pattern is turned away exactly when its text is there
already. The latter needs that tables hold only patterns as they were read, so
that one text cannot stand for two patterns.
-/

namespace RouteTree

open Http

variable {α : Type}

namespace Pattern

theorem text_of_parse {text : String} {pattern : Pattern} (h : parse text = .ok pattern) :
    pattern.text = text := by
  rw [parse] at h
  split at h
  · split at h
    · cases h
      rfl
    · cases h
  · cases h

end Pattern

namespace PathIndex

def values (table : PathIndex α) : List α :=
  table.exact.map Prod.snd ++ table.patterns.map Prod.snd

def texts (table : PathIndex α) : List String :=
  table.exact.map Prod.fst ++ table.patterns.map fun entry => entry.1.text

/-- The patterns of the table are as they were read, and those without
parameters stand apart. -/
structure Filed (table : PathIndex α) : Prop where
  exact : ∀ entry ∈ table.exact, ∃ pattern,
    Pattern.parse entry.1 = .ok pattern ∧ pattern.isStatic = true
  patterns : ∀ entry ∈ table.patterns,
    Pattern.parse entry.1.text = .ok entry.1 ∧ entry.1.isStatic = false

theorem filed_empty : (empty : PathIndex α).Filed :=
  ⟨by simp [empty], by simp [empty]⟩

variable {table : PathIndex α} {text path : String} {pattern : Pattern} {value other : α}

theorem mem_values_of_scan {patterns : List (Pattern × α)} {found : α × Option Params}
    (h : scan path patterns = some found) : found.1 ∈ patterns.map Prod.snd := by
  induction patterns with
  | nil => simp [scan] at h
  | cons entry rest ih =>
      simp only [scan] at h
      split at h
      · cases h
        simp
      · exact List.mem_cons_of_mem _ (ih h)

theorem mem_values_of_lookup {found : α × Option Params} (h : table.lookup path = some found) :
    found.1 ∈ table.values := by
  rw [lookup] at h
  split at h
  · rename_i entry first
    cases h
    exact List.mem_append_left _ (List.mem_map.2 ⟨_, List.mem_of_find?_eq_some first, rfl⟩)
  · exact List.mem_append_right _ (mem_values_of_scan h)

/-- What an insertion can do: add the value where its pattern belongs, or leave
the table because the pattern is there. -/
inductive Inserts (table : PathIndex α) (pattern : Pattern) (value : α) :
    Bool × PathIndex α → Prop
  | exact (isStatic : pattern.isStatic = true) (fresh : pattern.text ∉ table.exact.map Prod.fst) :
      Inserts table pattern value
        (true, { table with exact := table.exact ++ [(pattern.text, value)] })
  | keepExact (isStatic : pattern.isStatic = true)
      (there : pattern.text ∈ table.exact.map Prod.fst) :
      Inserts table pattern value (false, table)
  | pattern (isStatic : pattern.isStatic = false)
      (fresh : pattern ∉ table.patterns.map Prod.fst) :
      Inserts table pattern value
        (true, { table with patterns := table.patterns ++ [(pattern, value)] })
  | keepPattern (isStatic : pattern.isStatic = false)
      (there : pattern ∈ table.patterns.map Prod.fst) :
      Inserts table pattern value (false, table)

theorem inserts_insert (table : PathIndex α) (pattern : Pattern) (value : α) :
    Inserts table pattern value (table.insert pattern value) := by
  have exact : (table.exact.any fun entry => entry.1 = pattern.text) = true ↔
      pattern.text ∈ table.exact.map Prod.fst := by
    simp
  have patterns : (table.patterns.any fun entry => entry.1 = pattern) = true ↔
      pattern ∈ table.patterns.map Prod.fst := by
    simp
  rw [insert]
  split
  · rename_i isStatic
    split
    · rename_i there
      exact .keepExact isStatic (exact.1 there)
    · rename_i fresh
      exact .exact isStatic (fun there => fresh (exact.2 there))
  · rename_i isStatic
    split
    · rename_i there
      exact .keepPattern (Bool.eq_false_iff.2 isStatic) (patterns.1 there)
    · rename_i fresh
      exact .pattern (Bool.eq_false_iff.2 isStatic) (fun there => fresh (patterns.2 there))

theorem mem_values_insert (h : other ∈ (table.insert pattern value).2.values) :
    other = value ∨ other ∈ table.values := by
  have inserts := table.inserts_insert pattern value
  generalize table.insert pattern value = out at inserts h
  cases inserts with
  | keepExact | keepPattern => exact .inr h
  | exact | pattern =>
      simp only [values, List.map_append, List.map_cons, List.map_nil, List.mem_append,
        List.mem_singleton] at h ⊢
      tauto

/-! ### Texts

A text stands for one pattern, so it is filed on one side only. -/

theorem mem_texts_of_isStatic (filed : table.Filed) (read : Pattern.parse text = .ok pattern)
    (isStatic : pattern.isStatic = true) :
    text ∈ table.texts ↔ text ∈ table.exact.map Prod.fst := by
  constructor
  · intro there
    rcases List.mem_append.1 there with filedExact | filedWith
    · exact filedExact
    · obtain ⟨entry, mem, rfl⟩ := List.mem_map.1 filedWith
      obtain ⟨otherRead, otherStatic⟩ := filed.patterns entry mem
      cases read.symm.trans otherRead
      cases isStatic.symm.trans otherStatic
  · intro there
    exact List.mem_append_left _ there

theorem mem_texts_of_not_isStatic (filed : table.Filed)
    (read : Pattern.parse text = .ok pattern) (isStatic : pattern.isStatic = false) :
    text ∈ table.texts ↔ pattern ∈ table.patterns.map Prod.fst := by
  constructor
  · intro there
    rcases List.mem_append.1 there with filedExact | filedWith
    · obtain ⟨entry, mem, rfl⟩ := List.mem_map.1 filedExact
      obtain ⟨other, otherRead, otherStatic⟩ := filed.exact entry mem
      cases read.symm.trans otherRead
      cases isStatic.symm.trans otherStatic
    · obtain ⟨entry, mem, rfl⟩ := List.mem_map.1 filedWith
      cases read.symm.trans (filed.patterns entry mem).1
      exact List.mem_map_of_mem mem
  · intro there
    obtain ⟨entry, mem, rfl⟩ := List.mem_map.1 there
    exact List.mem_append_right _ (List.mem_map.2 ⟨entry, mem, Pattern.text_of_parse read⟩)

theorem insert_fst (filed : table.Filed) (read : Pattern.parse text = .ok pattern) (value : α) :
    (table.insert pattern value).1 = true ↔ text ∉ table.texts := by
  have inserts := table.inserts_insert pattern value
  generalize table.insert pattern value = out at inserts
  cases inserts with
  | exact isStatic fresh =>
      rw [Pattern.text_of_parse read] at fresh
      simpa only [true_iff, mem_texts_of_isStatic filed read isStatic] using fresh
  | keepExact isStatic there =>
      rw [Pattern.text_of_parse read] at there
      simpa [mem_texts_of_isStatic filed read isStatic] using there
  | pattern isStatic fresh =>
      simpa only [true_iff, mem_texts_of_not_isStatic filed read isStatic] using fresh
  | keepPattern isStatic there =>
      simpa [mem_texts_of_not_isStatic filed read isStatic] using there

theorem mem_texts_insert (added : (table.insert pattern value).1 = true) :
    text ∈ (table.insert pattern value).2.texts ↔ text = pattern.text ∨ text ∈ table.texts := by
  have inserts := table.inserts_insert pattern value
  generalize table.insert pattern value = out at inserts added ⊢
  cases inserts with
  | keepExact | keepPattern => cases added
  | exact | pattern =>
      simp only [texts, List.map_append, List.map_cons, List.map_nil, List.mem_append,
        List.mem_singleton]
      tauto

theorem filed_insert (filed : table.Filed) (read : Pattern.parse text = .ok pattern) (value : α) :
    (table.insert pattern value).2.Filed := by
  obtain rfl := Pattern.text_of_parse read
  have inserts := table.inserts_insert pattern value
  generalize table.insert pattern value = out at inserts
  cases inserts with
  | keepExact | keepPattern => exact filed
  | exact isStatic fresh =>
      exact ⟨List.forall_mem_append.2
        ⟨filed.exact, List.forall_mem_singleton.2 ⟨pattern, read, isStatic⟩⟩, filed.patterns⟩
  | pattern isStatic fresh =>
      exact ⟨filed.exact, List.forall_mem_append.2
        ⟨filed.patterns, List.forall_mem_singleton.2 ⟨read, isStatic⟩⟩⟩

end PathIndex

namespace Router

variable {router : Router α} {method : Method} {text path : String} {pattern : Pattern} {value : α}

/-- Replacing the table of a method leaves those of all others. -/
theorem table_setTable (tables : List (Method × PathIndex α)) (method other : Method)
    (table : PathIndex α) :
    (Router.mk (setTable method table tables)).table other =
      if other = method then table else (Router.mk tables).table other := by
  induction tables with
  | nil =>
      by_cases same : other = method
      · subst same
        simp [setTable, Router.table]
      · simp [setTable, Router.table, same, Ne.symm same]
  | cons entry rest ih =>
      simp only [Router.table] at ih
      by_cases here : entry.1 = method
      · by_cases same : other = method
        · subst same
          simp [setTable, Router.table, here]
        · simp [setTable, Router.table, here, same, Ne.symm same]
      · by_cases found : entry.1 = other
        · have differs : other ≠ method := fun same => here (found.trans same)
          simp [setTable, Router.table, found, differs]
        · simpa [setTable, Router.table, here, found] using ih

theorem table_insert (router : Router α) (method other : Method) (pattern : Pattern) (value : α) :
    (router.insert method pattern value).2.table other =
      if other = method then ((router.table method).insert pattern value).2
      else router.table other :=
  table_setTable router.tables method other _

def Holds (router : Router α) (property : α → Prop) : Prop :=
  ∀ method, ∀ value ∈ (router.table method).values, property value

theorem holds_empty (property : α → Prop) : (empty : Router α).Holds property := by
  intro method value mem
  cases mem

theorem Holds.lookup {property : α → Prop} (holds : router.Holds property)
    {found : α × Option Params} (h : router.lookup method path = some found) :
    property found.1 :=
  holds method found.1 (PathIndex.mem_values_of_lookup h)

theorem Holds.insert {property : α → Prop} (holds : router.Holds property) (method : Method)
    (pattern : Pattern) (new : property value) :
    (router.insert method pattern value).2.Holds property := by
  intro other found mem
  rw [table_insert] at mem
  split at mem
  · rcases PathIndex.mem_values_insert mem with rfl | old
    · exact new
    · exact holds method found old
  · exact holds other found mem

def Filed (router : Router α) : Prop := ∀ method, (router.table method).Filed

def Has (router : Router α) (method : Method) (text : String) : Prop :=
  text ∈ (router.table method).texts

theorem filed_empty : (empty : Router α).Filed := fun _ => PathIndex.filed_empty

theorem not_has_empty (method : Method) (text : String) : ¬ (empty : Router α).Has method text := by
  simp [Has, empty, table, PathIndex.empty, PathIndex.texts]

/-- A route is turned away exactly if there is one with its method and text. -/
theorem insert_fst (filed : router.Filed) (method : Method)
    (read : Pattern.parse text = .ok pattern) (value : α) :
    (router.insert method pattern value).1 = true ↔ ¬ router.Has method text :=
  PathIndex.insert_fst (filed method) read value

theorem Filed.insert (filed : router.Filed) (method : Method)
    (read : Pattern.parse text = .ok pattern) (value : α) :
    (router.insert method pattern value).2.Filed := by
  intro other
  rw [table_insert]
  split
  · exact PathIndex.filed_insert (filed method) read value
  · exact filed other

theorem has_insert (read : Pattern.parse text = .ok pattern)
    (added : (router.insert method pattern value).1 = true) (other : Method) (otherText : String) :
    (router.insert method pattern value).2.Has other otherText ↔
      (other = method ∧ otherText = text) ∨ router.Has other otherText := by
  obtain rfl := Pattern.text_of_parse read
  rw [Has, table_insert]
  by_cases same : other = method
  · subst same
    rw [if_pos rfl, PathIndex.mem_texts_insert added]
    simp [Has]
  · rw [if_neg same]
    simp [Has, same]

end Router

end RouteTree
