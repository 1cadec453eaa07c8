import RouteTree.Proofs.Compilation

/-!
# Renumbering

Two compilations that met other objects before give the same objects other numbers.
Apart from the numbers nothing depends on this: what is compiled in one is compiled in
the other with the numbers changed, and one change of numbers does for everything.
-/

namespace RouteTree

open Http

variable {σ : Type}

/-! ## Value tables -/

namespace ValueTable

/-- Every shared object is found at its number. -/
def Once (table : ValueTable) : Prop :=
  ∀ index key, table.slots[index]? = some (some key) →
    table.slots.findIdx? (fun slot => slot = some key) = some index

theorem once_empty : empty.Once := by
  intro index key there
  simp [empty] at there

theorem Once.append {table : ValueTable} (once : table.Once) {slot : Option ValueKey}
    (new : ∀ key, slot = some key → table.slots.findIdx? (fun other => other = some key) = none) :
    Once ⟨table.slots ++ [slot]⟩ := by
  intro index key there
  simp only at there ⊢
  rw [List.findIdx?_append]
  rcases Nat.lt_or_ge index table.slots.length with less | more
  · rw [List.getElem?_append_left less] at there
    rw [once index key there, Option.some_or]
  · rw [List.getElem?_append_right more, List.getElem?_singleton] at there
    obtain ⟨last, same⟩ := Option.ite_none_right_eq_some.1 there
    cases same
    rw [new key rfl]
    simp
    omega

theorem Once.intern {table : ValueTable} (once : table.Once) (key : ValueKey) :
    table.slots <+: (table.intern key).2.slots ∧ (table.intern key).2.Once ∧
      (table.intern key).2.slots[(table.intern key).1]? = some (some key) := by
  cases found : table.slots.findIdx? (fun slot => slot = some key) with
  | some index =>
      obtain ⟨less, held, _⟩ := List.findIdx?_eq_some_iff_getElem.1 found
      rw [intern_of_found found]
      refine ⟨List.prefix_rfl, once, ?_⟩
      rw [List.getElem?_eq_getElem less, of_decide_eq_true held]
  | none =>
      have out : table.intern key = (table.size, ⟨table.slots ++ [some key]⟩) := by
        simp [ValueTable.intern, found]
      rw [out]
      refine ⟨List.prefix_append _ _, once.append ?_, ?_⟩
      · intro other same
        cases same
        exact found
      · simp [size]

/-- The object with the number `i` in the first table has the number `moved[i]` in the
second one, which may hold others besides. The second table still holds the base. -/
structure Moves (base : ValueTable) (moved : List Nat) (first second : ValueTable) : Prop where
  nodup : moved.Nodup
  slots : moved.map (fun index => second.slots[index]?) = first.slots.map some
  once : second.Once
  kept : base.slots <+: second.slots

namespace Moves

variable {base first second : ValueTable} {moved : List Nat}

theorem length_eq (moves : Moves base moved first second) : moved.length = first.size := by
  have lengths := congrArg List.length moves.slots
  rwa [List.length_map, List.length_map] at lengths

/-- The two numbers of an object. -/
theorem of_getElem? (moves : Moves base moved first second) {index : Nat}
    {slot : Option ValueKey} (there : first.slots[index]? = some slot) :
    ∃ number, moved[index]? = some number ∧ second.slots[number]? = some slot := by
  have same := congrArg (fun slots => slots[index]?) moves.slots
  simp only [List.getElem?_map, there, Option.map_some] at same
  obtain ⟨number, at_index, found⟩ := Option.map_eq_some_iff.1 same
  exact ⟨number, at_index, found⟩

/-- What the second table holds at a number that some object was moved to. -/
theorem of_mem (moves : Moves base moved first second) {number : Nat} (mem : number ∈ moved) :
    ∃ slot ∈ first.slots, second.slots[number]? = some slot := by
  have there := List.mem_map_of_mem (f := fun index => second.slots[index]?) mem
  rw [moves.slots] at there
  obtain ⟨slot, held, same⟩ := List.mem_map.1 there
  exact ⟨slot, held, same.symm⟩

/-- One more object, which the second table holds at a number that nothing was moved to. -/
theorem add (moves : Moves base moved first second) {third : ValueTable} {number : Nat}
    {slot : Option ValueKey} (grown : second.slots <+: third.slots) (once : third.Once)
    (there : third.slots[number]? = some slot) (free : number ∉ moved) :
    Moves base (moved ++ [number]) ⟨first.slots ++ [slot]⟩ third := by
  refine ⟨?_, ?_, once, moves.kept.trans grown⟩
  · exact List.nodup_append.2 ⟨moves.nodup, by simp, by
      intro old mem new single same
      cases List.mem_singleton.1 single
      exact free (same ▸ mem)⟩
  · have old : moved.map (fun index => third.slots[index]?) =
        moved.map fun index => second.slots[index]? := by
      apply List.map_congr_left
      intro index mem
      obtain ⟨slot, _, held⟩ := moves.of_mem mem
      obtain ⟨added, grown⟩ := grown
      have less := (List.getElem?_eq_some_iff.1 held).1
      rw [← grown, List.getElem?_append_left less]
    rw [List.map_append, old, moves.slots, List.map_append, List.map_singleton, there,
      List.map_singleton]

theorem intern (moves : Moves base moved first second) (key : ValueKey) :
    ∃ moved', moved <+: moved' ∧
      Moves base moved' (first.intern key).2 (second.intern key).2 ∧
      moved'[(first.intern key).1]? = some (second.intern key).1 := by
  cases found : first.slots.findIdx? (fun slot => slot = some key) with
  | some index =>
      obtain ⟨less, held, _⟩ := List.findIdx?_eq_some_iff_getElem.1 found
      have there : first.slots[index]? = some (some key) := by
        rw [List.getElem?_eq_getElem less, of_decide_eq_true held]
      obtain ⟨number, at_index, there'⟩ := moves.of_getElem? there
      rw [intern_of_found found, intern_of_found (moves.once number key there')]
      exact ⟨moved, List.prefix_rfl, moves, at_index⟩
  | none =>
      have absent : some key ∉ first.slots := by
        intro mem
        have unlike := List.findIdx?_eq_none_iff.1 found (some key) mem
        simp at unlike
      have first_intern : first.intern key = (first.size, ⟨first.slots ++ [some key]⟩) := by
        simp [ValueTable.intern, found]
      obtain ⟨grown, once, there⟩ := moves.once.intern key
      -- The second table may hold the object already, but nothing was moved there.
      have free : (second.intern key).1 ∉ moved := by
        intro mem
        obtain ⟨slot, held, there'⟩ := moves.of_mem mem
        obtain ⟨added, grown⟩ := grown
        have less := (List.getElem?_eq_some_iff.1 there').1
        rw [← grown, List.getElem?_append_left less, there'] at there
        exact absent (Option.some.inj there ▸ held)
      rw [first_intern]
      refine ⟨moved ++ [(second.intern key).1], List.prefix_append _ _,
        moves.add grown once there free, ?_⟩
      rw [← moves.length_eq, List.getElem?_concat_length]

theorem internFresh (moves : Moves base moved first second) :
    ∃ moved', moved <+: moved' ∧
      Moves base moved' first.internFresh.2 second.internFresh.2 ∧
      moved'[first.internFresh.1]? = some second.internFresh.1 := by
  have free : second.size ∉ moved := by
    intro mem
    obtain ⟨slot, _, there⟩ := moves.of_mem mem
    exact Nat.lt_irrefl _ (List.getElem?_eq_some_iff.1 there).1
  refine ⟨moved ++ [second.size], List.prefix_append _ _,
    moves.add (List.prefix_append _ _) (moves.once.append nofun) ?_ free, ?_⟩
  · simp [ValueTable.internFresh, size]
  · rw [internFresh_fst, internFresh_fst, ← moves.length_eq, List.getElem?_concat_length]

/-- A table moves to every table that keeps it as it is. -/
theorem of_grown (grown : first.slots <+: second.slots) (once : second.Once) :
    Moves first (List.range first.size) first second := by
  refine ⟨List.nodup_range, ?_, once, grown⟩
  obtain ⟨added, grown⟩ := grown
  apply List.ext_getElem?
  intro index
  rw [← grown, List.getElem?_map, List.getElem?_map]
  rcases Nat.lt_or_ge index first.slots.length with less | more
  · rw [List.getElem?_range (show index < first.size from less), Option.map_some,
      List.getElem?_append_left less, List.getElem?_eq_getElem less, Option.map_some]
  · have outside : (List.range first.size)[index]? = none := by simpa [size] using more
    rw [outside, List.getElem?_eq_none more]
    rfl

/-- A change of all numbers, without two becoming one, that moves the objects of the
first table. -/
theorem exists_injective (moves : Moves base moved first second) :
    ∃ number : Nat → Nat, Function.Injective number ∧
      ∀ index place : Nat, moved[index]? = some place → number index = place := by
  -- What the first table does not hold goes behind what the second one holds.
  refine ⟨fun index => moved[index]?.getD (second.size + index), ?_, ?_⟩
  · have bound : ∀ index place : Nat, moved[index]? = some place → place < second.size := by
      intro index place there
      obtain ⟨slot, _, held⟩ := moves.of_mem (List.mem_of_getElem? there)
      exact (List.getElem?_eq_some_iff.1 held).1
    intro index other same
    simp only at same
    cases here : moved[index]? with
    | some place =>
        have less := bound index place here
        cases there : moved[other]? with
        | some place' =>
            rw [here, there, Option.getD_some, Option.getD_some] at same
            have less := (List.getElem?_eq_some_iff.1 here).1
            exact (List.getElem?_inj less moves.nodup).1 (by rw [here, there, same])
        | none =>
            rw [here, there, Option.getD_some, Option.getD_none] at same
            omega
    | none =>
        cases there : moved[other]? with
        | some place =>
            have less := bound other place there
            rw [here, there, Option.getD_none, Option.getD_some] at same
            omega
        | none =>
            rw [here, there, Option.getD_none, Option.getD_none] at same
            omega
  · intro index place there
    simp only [there, Option.getD_some]

end Moves

end ValueTable

/-! ## Listings and fragments -/

namespace Listing

/-- The second listing is the first one with its numbers moved. -/
inductive Moved (moved : List Nat) : Listing → Listing → Prop
  | text (content : String) : Moved moved (.text content) (.text content)
  | value {index place : Nat} (there : moved[index]? = some place) :
      Moved moved (.value index) (.value place)
  | append {first first' second second' : Listing} (left : Moved moved first first')
      (right : Moved moved second second') : Moved moved (first ++ second) (first' ++ second')
  | block (label : String) {body body' : Listing} (inner : Moved moved body body') :
      Moved moved (.block label body) (.block label body')

variable {moved moved' : List Nat} {first second : Listing}

theorem Moved.mono (shown : Moved moved first second) (grown : moved <+: moved') :
    Moved moved' first second := by
  obtain ⟨added, rfl⟩ := grown
  induction shown with
  | text content => exact .text content
  | value there =>
      have less := (List.getElem?_eq_some_iff.1 there).1
      exact .value ((List.getElem?_append_left less).trans there)
  | append _ _ left right => exact .append left right
  | block label _ inner => exact .block label inner

/-- Moving the numbers of a listing is changing them. -/
theorem Moved.eq_rename (shown : Moved moved first second) {number : Nat → Nat}
    (agrees : ∀ index place : Nat, moved[index]? = some place → number index = place) :
    second = first.rename number := by
  induction shown with
  | text content => rfl
  | value there => exact congrArg Listing.value (agrees _ _ there).symm
  | append _ _ left right => rw [rename_append, left, right]
  | block label _ inner => rw [rename, inner]

/-- A listing whose numbers can be moved shows only those that are given. -/
theorem Moved.fixed (shown : Moved moved first second) :
    Moved (List.range moved.length) first first := by
  induction shown with
  | text content => exact .text content
  | value there => exact .value (List.getElem?_range (List.getElem?_eq_some_iff.1 there).1)
  | append _ _ left right => exact .append left right
  | block label _ inner => exact .block label inner

theorem moved_unlines {lines lines' : List Listing}
    (shown : List.Forall₂ (Moved moved) lines lines') :
    Moved moved (unlines lines) (unlines lines') := by
  induction shown with
  | nil => exact .text ""
  | cons head tail ih =>
      cases tail with
      | nil => exact head
      | cons next rest => exact .append head (.append (.text "\n") ih)

end Listing

structure Fragment.Moved (moved : List Nat) (first second : Fragment σ) : Prop where
  group : second.group = first.group
  ops : second.ops = first.ops
  deferred : second.deferred = first.deferred
  needsContext : second.needsContext = first.needsContext
  bindings : second.bindings = first.bindings
  listing : first.listing.Moved moved second.listing

inductive Item.Moved (moved : List Nat) : Item σ → Item σ → Prop
  | op (op : Op σ) : Moved moved (.op op) (.op op)
  | allocate : Moved moved .allocate .allocate
  | openScope : Moved moved .openScope .openScope
  | group {fragment fragment' : Fragment σ} (shown : fragment.Moved moved fragment') :
      Moved moved (.group fragment) (.group fragment')

variable {moved moved' : List Nat}

theorem Fragment.Moved.mono {fragment fragment' : Fragment σ}
    (shown : fragment.Moved moved fragment') (grown : moved <+: moved') :
    fragment.Moved moved' fragment' :=
  { shown with listing := shown.listing.mono grown }

theorem Item.Moved.mono {item item' : Item σ} (shown : item.Moved moved item')
    (grown : moved <+: moved') : item.Moved moved' item' := by
  cases shown with
  | op op => exact .op op
  | allocate => exact .allocate
  | openScope => exact .openScope
  | group shown => exact .group (shown.mono grown)

/-! ## Drafts -/

/-- The second tables are the first ones with all numbers moved. -/
structure Tables.Moves (base : ValueTable) (moved : List Nat) (first second : Tables σ) :
    Prop where
  values : ValueTable.Moves base moved first.values second.values
  fragments : List.Forall₂ (Fragment.Moved moved) first.cache.fragments second.cache.fragments
  hits : second.cache.hits = first.cache.hits
  journal : second.journal = first.journal

namespace Draft

structure Moves (base : ValueTable) (moved : List Nat) (first second : Draft σ) : Prop where
  items : List.Forall₂ (Item.Moved moved) first.items second.items
  lines : List.Forall₂ (Listing.Moved moved) first.lines second.lines
  bindings : second.bindings = first.bindings
  tables : first.tables.Moves base moved second.tables
  nextBinding : second.nextBinding = first.nextBinding
  scopeOpen : second.scopeOpen = first.scopeOpen
  contextReady : second.contextReady = first.contextReady
  parameterized : second.parameterized = first.parameterized

variable {base : ValueTable} {first second : Draft σ} {item item' : Item σ} {line line' : Listing}

/-- A step does the same to two drafts, up to the numbers. -/
def Respects (base : ValueTable) (step : Draft σ → Draft σ) : Prop :=
  ∀ moved first second, Moves base moved first second →
    ∃ moved', moved <+: moved' ∧ Moves base moved' (step first) (step second)

namespace Moves

theorem note (moves : Moves base moved first second) (shown : line.Moved moved line') :
    Moves base moved (first.note line) (second.note line') :=
  { moves with lines := List.rel_append moves.lines (.cons shown .nil) }

theorem emit (moves : Moves base moved first second) (same : item.Moved moved item')
    (shown : line.Moved moved line') :
    Moves base moved (first.emit item line) (second.emit item' line') :=
  { moves with
    items := List.rel_append moves.items (.cons same .nil)
    lines := List.rel_append moves.lines (.cons shown .nil) }

theorem assign (moves : Moves base moved first second) (binding : Option Nat) :
    Moves base moved (first.assign binding) (second.assign binding) :=
  { moves with bindings := congrArg (· ++ [binding]) moves.bindings }

theorem splice (moves : Moves base moved first second) (ops : List (Op σ)) :
    Moves base moved (first.splice ops) (second.splice ops) := by
  have same : List.Forall₂ (Item.Moved moved) (ops.map Item.op) (ops.map Item.op) := by
    rw [List.forall₂_map_left_iff, List.forall₂_map_right_iff, List.forall₂_same]
    exact fun op _ => .op op
  exact { moves with items := List.rel_append moves.items same }

theorem bind (moves : Moves base moved first second) :
    second.bind.1 = first.bind.1 ∧ Moves base moved first.bind.2 second.bind.2 :=
  ⟨moves.nextBinding, { moves with nextBinding := congrArg (· + 1) moves.nextBinding }⟩

theorem openScope (moves : Moves base moved first second) :
    Moves base moved first.openScope second.openScope := by
  rw [Draft.openScope, Draft.openScope, moves.scopeOpen]
  split
  · exact moves
  · exact { moves.emit .openScope (.text _) with scopeOpen := rfl }

theorem allocate (moves : Moves base moved first second) :
    Moves base moved first.allocate second.allocate := by
  rw [Draft.allocate, Draft.allocate, moves.contextReady, moves.parameterized]
  split
  · exact moves
  · exact { moves.emit .allocate (.text _) with contextReady := rfl }

theorem withTables (moves : Moves base moved first second) (grown : moved <+: moved')
    {tables tables' : Tables σ} (tables_move : tables.Moves base moved' tables') :
    Moves base moved' { first with tables } { second with tables := tables' } :=
  { moves with
    items := moves.items.imp fun _ _ same => same.mono grown
    lines := moves.lines.imp fun _ _ shown => shown.mono grown
    tables := tables_move }

theorem setValues (moves : Moves base moved first second) (grown : moved <+: moved')
    {values values' : ValueTable} (values_move : ValueTable.Moves base moved' values values') :
    Moves base moved' (first.setValues values) (second.setValues values') :=
  moves.withTables grown
    { moves.tables with
      values := values_move
      fragments := moves.tables.fragments.imp fun _ _ shown => shown.mono grown }

theorem ops_eq (moves : Moves base moved first second) : second.ops = first.ops := by
  have items := moves.items
  rw [Draft.ops, Draft.ops]
  generalize first.items = here at items ⊢
  generalize second.items = there at items ⊢
  induction items with
  | nil => rfl
  | cons same _ ih =>
      rw [List.filterMap_cons, List.filterMap_cons, ih]
      cases same <;> rfl

theorem callText {α : Type} (moves : Moves base moved first second) (callback : Callback σ α) :
    ∃ moved', moved <+: moved' ∧
      Listing.Moved moved' (first.callText callback).1 (second.callText callback).1 ∧
      Moves base moved' (first.callText callback).2 (second.callText callback).2 := by
  obtain ⟨moved', grown, values, there⟩ := moves.tables.values.intern (.callback callback.id)
  exact ⟨moved', grown, .append (.append (.text _) (.value there)) (.text _),
    moves.setValues grown values⟩

end Moves

end Draft

theorem rel_find? {α β : Type} {related : α → β → Prop} {here : α → Bool} {there : β → Bool}
    (agree : ∀ a b, related a b → there b = here a) {as : List α} {bs : List β}
    (lists : List.Forall₂ related as bs) :
    Option.Rel related (as.find? here) (bs.find? there) := by
  induction lists with
  | nil => exact .none
  | @cons a b _ _ head _ ih =>
      rw [List.find?_cons, List.find?_cons, agree a b head]
      cases here a with
      | false => exact ih
      | true => exact .some head

namespace Draft

variable {base : ValueTable} {first second : Draft σ}

theorem Moves.compiledGroup (moves : Moves base moved first second) (group : Nat)
    (traits : Traits) (handlers : Nat) {build : Draft σ → Draft σ}
    (respects : Respects base build) :
    ∃ moved', moved <+: moved' ∧
      Fragment.Moved moved' (first.compiledGroup group traits handlers build).1
        (second.compiledGroup group traits handlers build).1 ∧
      Moves base moved' (first.compiledGroup group traits handlers build).2
        (second.compiledGroup group traits handlers build).2 := by
  have found : Option.Rel (Fragment.Moved moved) (first.tables.cache.find? group)
      (second.tables.cache.find? group) :=
    rel_find? (fun _ _ same => by rw [same.group]) moves.tables.fragments
  rw [Draft.compiledGroup, Draft.compiledGroup]
  generalize first.tables.cache.find? group = here at found ⊢
  generalize second.tables.cache.find? group = there at found ⊢
  cases found with
  | some same =>
      refine ⟨moved, List.prefix_rfl, same, moves.withTables List.prefix_rfl
        { moves.tables with
          hits := congrArg (· + 1) moves.tables.hits
          journal := congrArg (_ ++ ·) moves.tables.journal }⟩
  | none =>
      have derived : Moves base moved first.derive second.derive :=
        { items := .nil, lines := .nil, bindings := rfl, tables := moves.tables
          nextBinding := moves.nextBinding, scopeOpen := rfl, contextReady := rfl
          parameterized := moves.parameterized }
      obtain ⟨moved', grown, built⟩ := respects moved _ _ derived
      simp only
      generalize build first.derive = child at built ⊢
      generalize build second.derive = child' at built ⊢
      have synced : Moves base moved (first.sync child.nextBinding)
          (second.sync child'.nextBinding) :=
        { moves with nextBinding := congrArg₂ max moves.nextBinding built.nextBinding }
      rw [built.ops_eq, built.bindings]
      have same : Fragment.Moved moved' ⟨group, child.ops, traits.suspends, traits.needsContext,
          Listing.unlines child.lines, child.bindings⟩ ⟨group, child.ops, traits.suspends,
          traits.needsContext, Listing.unlines child'.lines, child.bindings⟩ :=
        ⟨rfl, rfl, rfl, rfl, rfl, Listing.moved_unlines built.lines⟩
      exact ⟨moved', grown, same, synced.withTables grown
        { built.tables with
          fragments := List.rel_append built.tables.fragments (.cons same .nil)
          journal := congrArg (_ ++ ·) built.tables.journal }⟩

end Draft

/-! ## Groups -/

namespace Handler

variable {base : ValueTable}

theorem respects_compileAll {handlers : List (Handler σ)}
    (each : ∀ handler ∈ handlers, Draft.Respects base handler.compile) :
    Draft.Respects base (compileAll handlers) := by
  induction handlers with
  | nil => exact fun moved first second moves => ⟨moved, List.prefix_rfl, moves⟩
  | cons handler rest ih =>
      obtain ⟨here, later⟩ := List.forall_mem_cons.1 each
      intro moved first second moves
      obtain ⟨moved₁, grown₁, moves₁⟩ := here moved first second moves
      obtain ⟨moved₂, grown₂, moves₂⟩ := ih later moved₁ _ _ moves₁
      exact ⟨moved₂, grown₁.trans grown₂, moves₂⟩

theorem respects_compile (handler : Handler σ) : Draft.Respects base handler.compile := by
  induction handler using Handler.induction with
  | nested group traits handlers each =>
      intro moved first second moves
      obtain ⟨moved', grown, same, moves'⟩ := moves.compiledGroup group traits handlers.length
        (respects_compileAll each)
      refine ⟨moved', grown, ?_⟩
      simp only [compile, same.ops]
      exact ((moves'.splice _).note (.block _ same.listing)).assign none
  | checked callback target =>
      intro moved first second moves
      obtain ⟨number, bound⟩ := moves.bind
      obtain ⟨moved', grown, call, moves'⟩ := bound.callText callback
      refine ⟨moved', grown, ?_⟩
      simp only [compile, number]
      exact (moves'.emit (.op _) (.append (.append (.text _) call) (.text _))).assign _
  | unchecked callback target =>
      intro moved first second moves
      obtain ⟨moved', grown, call, moves'⟩ := moves.callText callback
      refine ⟨moved', grown, ?_⟩
      simp only [compile]
      exact (moves'.emit (.op _) (.append (.text _) call)).assign none

end Handler

namespace Draft

variable {base : ValueTable} {first second : Draft σ}

theorem Moves.compileGroup (moves : Moves base moved first second) (group : Group σ) :
    ∃ moved', moved <+: moved' ∧
      Fragment.Moved moved' (group.compile first).1 (group.compile second).1 ∧
      Moves base moved' (group.compile first).2 (group.compile second).2 :=
  moves.compiledGroup group.id group.traits group.handlers.length
    (Handler.respects_compileAll fun handler _ => handler.respects_compile)

theorem Moves.addGroup (moves : Moves base moved first second) (group : Group σ) :
    ∃ moved', moved <+: moved' ∧ Moves base moved' (first.addGroup group)
      (second.addGroup group) := by
  obtain ⟨moved', grown, same, moves'⟩ := moves.compileGroup group
  refine ⟨moved', grown, ?_⟩
  simp only [Draft.addGroup, same.deferred, same.needsContext]
  have opened := rel_ite (Moves base moved') (group.compile first).1.deferred moves'.openScope
    moves'
  have ready := rel_ite (Moves base moved') (group.compile first).1.needsContext opened.allocate
    opened
  exact ready.emit (.group same) (.block _ same.listing)

theorem respects_addGroups (groups : List (Group σ)) :
    Respects base fun draft => groups.foldl addGroup draft := by
  induction groups with
  | nil => exact fun moved first second moves => ⟨moved, List.prefix_rfl, moves⟩
  | cons group rest ih =>
      intro moved first second moves
      obtain ⟨moved₁, grown₁, moves₁⟩ := moves.addGroup group
      obtain ⟨moved₂, grown₂, moves₂⟩ := ih moved₁ _ _ moves₁
      exact ⟨moved₂, grown₁.trans grown₂, moves₂⟩

end Draft

end RouteTree
