import Mathlib.Data.List.ReduceOption
import RouteTree.Proofs.Memoisation

/-!
# Numbers of results

The result of a checked call gets a number, under which listings show it. The
counter goes along into the draft of a nested group and is merged back from it, and a
compiler carries it from route to route; a group from the cache keeps the numbers
that it has. So over a whole compilation each checked handler of each group gets one
number, no number is given twice, and none is left out.
-/

namespace RouteTree

open Http
open scoped List

variable {σ α : Type}

/-! ## Which numbers are given -/

/-- The numbers that the results of a group's handlers got. -/
def Fragment.given (fragment : Fragment σ) : List Nat := fragment.bindings.reduceOption

def FragmentCache.given (cache : FragmentCache σ) : List Nat :=
  cache.fragments.flatMap Fragment.given

namespace Draft

variable {draft before middle after : Draft σ}

/-- All numbers given so far, in compiled groups and in the draft itself. -/
def given (draft : Draft σ) : List Nat :=
  draft.tables.cache.given ++ draft.bindings.reduceOption

/-- From one draft to a later one the next numbers are given, each of them once. -/
def Takes (before after : Draft σ) : Prop :=
  ∃ count, after.nextBinding = before.nextBinding + count ∧
    after.given ~ before.given ++ List.range' before.nextBinding count

theorem takes_of_eq (next : after.nextBinding = before.nextBinding)
    (same : after.given = before.given) : before.Takes after :=
  ⟨0, next, by simp [same]⟩

theorem Takes.trans (first : before.Takes middle) (second : middle.Takes after) :
    before.Takes after := by
  obtain ⟨count, next, perm⟩ := first
  obtain ⟨more, next', perm'⟩ := second
  refine ⟨count + more, by omega, perm'.trans ?_⟩
  rw [next, ← List.range'_append_1, ← List.append_assoc]
  exact perm.append_right _

theorem given_assign_none (draft : Draft σ) : (draft.assign none).given = draft.given := by
  simp [given, assign, List.reduceOption]

theorem given_assign_some (draft : Draft σ) (number : Nat) :
    (draft.assign (some number)).given = draft.given ++ [number] := by
  simp [given, assign, List.reduceOption]

variable {group : Nat} {traits : Traits} {handlers : Nat} {build : Draft σ → Draft σ}

@[simp] theorem bindings_compiledGroup :
    (draft.compiledGroup group traits handlers build).2.bindings = draft.bindings := by
  rw [compiledGroup]
  split <;> rfl

/-- A group from the cache takes no number. One that is built takes what building it
takes: the numbers of its own handlers go into the cache with it, and the counter
comes back. -/
theorem takes_compiledGroup (builds : ∀ child : Draft σ, child.Takes (build child)) :
    draft.Takes (draft.compiledGroup group traits handlers build).2 := by
  rw [compiledGroup]
  cases found : draft.tables.cache.find? group with
  | some fragment => exact takes_of_eq rfl rfl
  | none =>
      obtain ⟨count, next, perm⟩ := builds draft.derive
      have start : draft.derive.given = draft.tables.cache.given := List.append_nil _
      change (build draft.derive).nextBinding = draft.nextBinding + count at next
      refine ⟨count, ?_, ?_⟩
      · change max draft.nextBinding (build draft.derive).nextBinding = _
        omega
      · rw [start] at perm
        calc ((build draft.derive).tables.cache.fragments ++ [_]).flatMap Fragment.given ++
              draft.bindings.reduceOption
            = (build draft.derive).given ++ draft.bindings.reduceOption := by
              rw [List.flatMap_append, List.flatMap_singleton]
              rfl
          _ ~ draft.tables.cache.given ++ List.range' draft.nextBinding count ++
              draft.bindings.reduceOption := perm.append_right _
          _ ~ draft.given ++ List.range' draft.nextBinding count := by
              rw [given, List.append_assoc, List.append_assoc]
              exact List.perm_append_comm.append_left _

end Draft

namespace Handler

theorem takes_compileAll_of_forall {handlers : List (Handler σ)}
    (each : ∀ handler ∈ handlers, ∀ draft : Draft σ, draft.Takes (handler.compile draft))
    (draft : Draft σ) : draft.Takes (compileAll handlers draft) := by
  induction handlers generalizing draft with
  | nil => exact Draft.takes_of_eq rfl rfl
  | cons handler rest ih =>
      obtain ⟨here, later⟩ := List.forall_mem_cons.1 each
      exact (here draft).trans (ih later (handler.compile draft))

/-- A checked handler takes one number, and a nested group those of its handlers
unless it is compiled already. -/
theorem takes_compile (handler : Handler σ) (draft : Draft σ) :
    draft.Takes (handler.compile draft) := by
  induction handler using Handler.induction generalizing draft with
  | nested group traits handlers ih =>
      have compiled : draft.Takes (draft.compiledGroup group traits handlers.length
          (compileAll handlers)).2 :=
        Draft.takes_compiledGroup (takes_compileAll_of_forall ih)
      refine compiled.trans (Draft.takes_of_eq rfl ?_)
      simp only [compile, Draft.given_assign_none]
      rfl
  | checked callback target =>
      refine ⟨1, rfl, ?_⟩
      simp only [compile, Draft.given_assign_some]
      rfl
  | unchecked callback target =>
      refine Draft.takes_of_eq rfl ?_
      simp only [compile, Draft.given_assign_none]
      rfl

theorem takes_compileAll (handlers : List (Handler σ)) (draft : Draft σ) :
    draft.Takes (compileAll handlers draft) :=
  takes_compileAll_of_forall (fun handler _ => handler.takes_compile) draft

end Handler

namespace Draft

@[simp] theorem nextBinding_openScope (draft : Draft σ) :
    draft.openScope.nextBinding = draft.nextBinding := by
  rw [openScope]
  split <;> rfl

@[simp] theorem nextBinding_allocate (draft : Draft σ) :
    draft.allocate.nextBinding = draft.nextBinding := by
  rw [allocate]
  split <;> rfl

@[simp] theorem bindings_openScope (draft : Draft σ) :
    draft.openScope.bindings = draft.bindings := by
  rw [openScope]
  split <;> rfl

@[simp] theorem bindings_allocate (draft : Draft σ) :
    draft.allocate.bindings = draft.bindings := by
  rw [allocate]
  split <;> rfl

theorem nextBinding_addGroup (draft : Draft σ) (group : Group σ) :
    (draft.addGroup group).nextBinding = (group.compile draft).2.nextBinding := by
  rw [addGroup]
  generalize group.compile draft = out
  obtain ⟨fragment, compiled⟩ := out
  cases deferred : fragment.deferred <;> cases needs : fragment.needsContext <;>
    simp [emit, deferred, needs]

/-- The results of a group are not results of the route that uses it. -/
theorem bindings_addGroup (draft : Draft σ) (group : Group σ) :
    (draft.addGroup group).bindings = draft.bindings := by
  have kept : (group.compile draft).2.bindings = draft.bindings := bindings_compiledGroup
  rw [addGroup]
  generalize group.compile draft = out at kept ⊢
  obtain ⟨fragment, compiled⟩ := out
  cases deferred : fragment.deferred <;> cases needs : fragment.needsContext <;>
    simpa [emit, deferred, needs] using kept

/-- A route takes what its groups take, and has no results of its own. -/
theorem takes_foldl_addGroup (groups : List (Group σ)) (draft : Draft σ) :
    draft.Takes (groups.foldl addGroup draft) ∧
      (groups.foldl addGroup draft).bindings = draft.bindings := by
  induction groups generalizing draft with
  | nil => exact ⟨takes_of_eq rfl rfl, rfl⟩
  | cons group rest ih =>
      obtain ⟨later, bindings⟩ := ih (draft.addGroup group)
      have compiled : draft.Takes (group.compile draft).2 :=
        takes_compiledGroup (Handler.takes_compileAll group.handlers)
      have here : (group.compile draft).2.Takes (draft.addGroup group) := by
        refine takes_of_eq (draft.nextBinding_addGroup group) ?_
        rw [given, given, tables_addGroup, bindings_addGroup]
        exact congrArg _ (congrArg _ bindings_compiledGroup.symm)
      exact ⟨(compiled.trans here).trans later, bindings.trans (draft.bindings_addGroup group)⟩

theorem nextBinding_addTerminal (draft : Draft σ) (terminal : Terminal σ)
    (unhandled : Response) :
    (draft.addTerminal terminal unhandled).2.nextBinding = draft.nextBinding := by
  simp only [addTerminal, note]
  split <;> simp [setValues]

end Draft

namespace Compiler

variable {compiler : Compiler σ} {plan : RoutePlan σ} {parameterized : Bool}

/-- The numbers given are those below the counter, each once. -/
def Numbered (compiler : Compiler σ) : Prop :=
  compiler.tables.cache.given ~ List.range compiler.nextBinding

theorem numbered_new (registry : FaultRegistry) (unhandled : Response) :
    (new registry unhandled : Compiler σ).Numbered :=
  .refl _

theorem nextBinding_compileFaults (compiler : Compiler σ) (table : FaultTable σ) :
    (compiler.compileFaults table).2.nextBinding = compiler.nextBinding := by
  rw [compileFaults]
  split
  · rfl
  · split <;> rfl

theorem numbered_assemble (numbered : compiler.Numbered) (faults : BuiltSwitch σ) :
    (compiler.assemble plan parameterized faults).2.Numbered := by
  obtain ⟨⟨count, next, perm⟩, bindings⟩ := Draft.takes_foldl_addGroup plan.groups
    (Draft.new compiler.tables compiler.nextBinding parameterized)
  have counter : (compiler.assemble plan parameterized faults).2.nextBinding =
      compiler.nextBinding + count :=
    (Draft.nextBinding_addTerminal _ plan.terminal faults.switch.unhandled).trans next
  -- Neither the empty draft nor the finished one has results of its own.
  rw [Draft.given, Draft.given, bindings] at perm
  change _ ++ [] ~ compiler.tables.cache.given ++ [] ++ _ at perm
  rw [List.append_nil, List.append_nil] at perm
  rw [Numbered, cache_assemble, counter]
  calc _ ~ compiler.tables.cache.given ++ List.range' compiler.nextBinding count := perm
    _ ~ List.range compiler.nextBinding ++ List.range' compiler.nextBinding count :=
      numbered.append_right _
    _ = List.range (compiler.nextBinding + count) := by
      rw [List.range_eq_range', List.range_eq_range', ← List.range'_append_1, Nat.zero_add]

/-- A compiler gives the next numbers, whether the plan compiles or not. -/
theorem numbered_compile (numbered : compiler.Numbered) :
    (compiler.compile plan parameterized).2.Numbered := by
  have kept : (compiler.compileFaults plan.faults).2.Numbered := by
    rw [Numbered, (compiler.still_compileFaults plan.faults).cache, nextBinding_compileFaults]
    exact numbered
  rw [compile]
  generalize compiler.compileFaults plan.faults = out at kept ⊢
  obtain ⟨defect | faults, after⟩ := out
  · exact kept
  · exact numbered_assemble kept faults

theorem numbered_after (numbered : compiler.Numbered) (history : List (RoutePlan σ × Bool)) :
    (compiler.after history).Numbered := by
  induction history generalizing compiler with
  | nil => exact numbered
  | cons entry rest ih => exact ih (numbered_compile numbered)

end Compiler

/-! ## Who gets them -/

/-- The text of a call of the function, which has this number among the values. -/
def Callback.callLine (callback : Callback σ α) (index : Nat) : Listing :=
  Listing.text (if callback.suspends then "await " else "") ++ Listing.value index ++
    Listing.text (if callback.needsContext then "(c)" else "()")

/-- How a listing shows a handler, with the number of its result if it gets one. A
nested group is shown by the listing that the cache has for it. -/
inductive Handler.ShownAs (cache : FragmentCache σ) :
    Handler σ → Option Nat → Listing → Prop
  | nested {group : Nat} {traits : Traits} {handlers : List (Handler σ)} {fragment : Fragment σ}
      (found : cache.find? group = some fragment) :
      ShownAs cache (.nested group traits handlers) none
        (Listing.block (groupName group) fragment.listing)
  | checked (callback : Callback σ (Except Fault Json)) (target : Option Location)
      (number index : Nat) :
      ShownAs cache (.checked callback target) (some number)
        (Listing.text ("let " ++ bindingName number ++ " = ") ++ callback.callLine index ++
          Listing.text ("; check " ++ bindingName number ++
            match target with
            | some location => "; c." ++ location.text ++ " = " ++ bindingName number
            | none => ""))
  | unchecked (callback : Callback σ Json) (target : Option Location) (index : Nat) :
      ShownAs cache (.unchecked callback target) none
        (Listing.text
          (match target with
          | some location => "c." ++ location.text ++ " = "
          | none => "") ++ callback.callLine index)

theorem Handler.ShownAs.mono {before after : FragmentCache σ} {handler : Handler σ}
    {number : Option Nat} {line : Listing} (shown : handler.ShownAs before number line)
    (kept : before.fragments <+: after.fragments) : handler.ShownAs after number line := by
  cases shown with
  | nested found => exact .nested (FragmentCache.find?_of_prefix kept found)
  | checked callback target number index => exact .checked callback target number index
  | unchecked callback target index => exact .unchecked callback target index

/-- A compiled group lists its handlers in order, each with the number of its
result. -/
def Fragment.Shows (fragment : Fragment σ) (cache : FragmentCache σ)
    (handlers : List (Handler σ)) : Prop :=
  ∃ shown : List (Option Nat × Listing),
    List.Forall₂ (fun handler entry => handler.ShownAs cache entry.1 entry.2) handlers shown ∧
      fragment.bindings = shown.map Prod.fst ∧
      fragment.listing = Listing.unlines (shown.map Prod.snd)

def FragmentCache.Labelled (cache : FragmentCache σ) (directory : Directory σ) : Prop :=
  ∀ fragment ∈ cache.fragments, fragment.Shows cache (directory.groups fragment.group)

theorem Fragment.Shows.mono {fragment : Fragment σ} {before after : FragmentCache σ}
    {handlers : List (Handler σ)} (listing : fragment.Shows before handlers)
    (kept : before.fragments <+: after.fragments) : fragment.Shows after handlers := by
  obtain ⟨shown, each, same⟩ := listing
  exact ⟨shown, each.imp fun _ _ one => one.mono kept, same⟩

namespace Draft

variable {directory : Directory σ} {draft before middle after : Draft σ}

/-- What adding handlers to a draft does: each is shown behind what was there, and the
cache goes on to be as it should be. -/
structure Labels (directory : Directory σ) (before : Draft σ) (handlers : List (Handler σ))
    (after : Draft σ) : Prop where
  memoised : after.tables.Memoised directory
  labelled : after.tables.cache.Labelled directory
  kept : before.tables.cache.fragments <+: after.tables.cache.fragments
  shown : ∃ shown : List (Option Nat × Listing),
    List.Forall₂ (fun handler entry => handler.ShownAs after.tables.cache entry.1 entry.2)
      handlers shown ∧
    after.bindings = before.bindings ++ shown.map Prod.fst ∧
    after.lines = before.lines ++ shown.map Prod.snd

theorem Labels.trans {handlers more : List (Handler σ)}
    (first : before.Labels directory handlers middle)
    (second : middle.Labels directory more after) :
    before.Labels directory (handlers ++ more) after := by
  obtain ⟨shown, each, bindings, lines⟩ := first.shown
  obtain ⟨shown', each', bindings', lines'⟩ := second.shown
  refine ⟨second.memoised, second.labelled, first.kept.trans second.kept, shown ++ shown',
    ?_, ?_, ?_⟩
  · exact List.rel_append (each.imp fun _ _ one => one.mono second.kept) each'
  · rw [bindings', bindings, List.map_append, List.append_assoc]
  · rw [lines', lines, List.map_append, List.append_assoc]

variable {group : Nat} {traits : Traits} {handlers : Nat} {build : Draft σ → Draft σ}

@[simp] theorem lines_compiledGroup :
    (draft.compiledGroup group traits handlers build).2.lines = draft.lines := by
  rw [compiledGroup]
  split <;> rfl

/-- A compiled group is kept with the listing of its handlers. -/
theorem labelled_compiledGroup (labelled : draft.tables.cache.Labelled directory)
    (builds : draft.derive.Labels directory (directory.groups group) (build draft.derive)) :
    (draft.compiledGroup group traits handlers build).2.tables.cache.Labelled directory := by
  rw [compiledGroup]
  cases found : draft.tables.cache.find? group with
  | some fragment =>
      -- Only the count of reuses has changed.
      intro fragment mem
      exact (labelled fragment mem).mono List.prefix_rfl
  | none =>
      obtain ⟨shown, each, bindings, lines⟩ := builds.shown
      intro fragment mem
      rcases List.mem_append.1 mem with old | new
      · exact (builds.labelled fragment old).mono (List.prefix_append _ _)
      · rw [List.mem_singleton.1 new]
        exact ⟨shown, each.imp fun _ _ one => one.mono (List.prefix_append _ _), bindings,
          congrArg Listing.unlines lines⟩

end Draft

namespace Handler

variable {directory : Directory σ}

theorem labels_compileAll_of_forall {handlers : List (Handler σ)}
    (each : ∀ handler ∈ handlers, ∀ draft : Draft σ, draft.tables.Memoised directory →
      draft.tables.cache.Labelled directory → draft.Labels directory [handler]
        (handler.compile draft))
    (draft : Draft σ) (memoised : draft.tables.Memoised directory)
    (labelled : draft.tables.cache.Labelled directory) :
    draft.Labels directory handlers (compileAll handlers draft) := by
  induction handlers generalizing draft with
  | nil => exact ⟨memoised, labelled, List.prefix_rfl, [], .nil, by simp [compileAll]⟩
  | cons handler rest ih =>
      obtain ⟨here, later⟩ := List.forall_mem_cons.1 each
      have first := here draft memoised labelled
      exact first.trans (ih later (handler.compile draft) first.memoised first.labelled)

/-- Compiling a handler shows it, with a number exactly if it is checked. -/
theorem labels_compile {handler : Handler σ} (sound : handler.Sound)
    (listed : directory.Lists handler) (draft : Draft σ)
    (memoised : draft.tables.Memoised directory)
    (labelled : draft.tables.cache.Labelled directory) :
    draft.Labels directory [handler] (handler.compile draft) := by
  induction handler using Handler.induction generalizing draft with
  | nested group traits handlers ih =>
      simp only [Sound] at sound
      simp only [Directory.Lists] at listed
      obtain ⟨known, inner⟩ := listed
      obtain ⟨_, innerSound⟩ := sound
      subst known
      have each : ∀ handler ∈ directory.groups group, handler.Sound ∧ directory.Lists handler :=
        fun handler mem => ⟨allSound_iff.1 innerSound handler mem,
          Directory.listsAll_iff.1 inner handler mem⟩
      have builds := labels_compileAll_of_forall (fun handler mem draft memoised labelled =>
        ih handler mem (each handler mem).1 (each handler mem).2 draft memoised labelled)
        draft.derive memoised labelled
      obtain ⟨kept, grows, found⟩ := @Draft.grows_compiledGroup σ directory draft group traits
        (directory.groups group).length _ memoised (Directory.not_mem_innerAll innerSound inner)
        (grows_compileAll_of_forall fun handler mem =>
          grows_compile (each handler mem).1 (each handler mem).2)
      refine ⟨kept, Draft.labelled_compiledGroup labelled builds, grows.kept, [(none, _)],
        .cons (.nested found) .nil, ?_, ?_⟩
      · simp [compile, Draft.assign, Draft.note, Draft.splice]
      · simp [compile, Draft.assign, Draft.note, Draft.splice]
  | checked callback target =>
      have still : draft.tables.Still ((checked callback target).compile draft).tables :=
        ⟨rfl, rfl⟩
      exact ⟨still.memoised memoised, labelled, List.prefix_rfl, [(some draft.nextBinding, _)],
        .cons (.checked callback target _ _) .nil, rfl, rfl⟩
  | unchecked callback target =>
      have still : draft.tables.Still ((unchecked callback target).compile draft).tables :=
        ⟨rfl, rfl⟩
      exact ⟨still.memoised memoised, labelled, List.prefix_rfl, [(none, _)],
        .cons (.unchecked callback target _) .nil, rfl, rfl⟩

end Handler

theorem Group.labelled_compile {directory : Directory σ} {group : Group σ}
    (listed : directory.ListsGroup group) {draft : Draft σ}
    (memoised : draft.tables.Memoised directory)
    (labelled : draft.tables.cache.Labelled directory) :
    (group.compile draft).2.tables.cache.Labelled directory := by
  obtain ⟨known, inner⟩ := listed
  refine Draft.labelled_compiledGroup labelled ?_
  rw [known]
  exact Handler.labels_compileAll_of_forall (fun handler mem =>
    Handler.labels_compile (Handler.allSound_iff.1 group.sound handler mem)
      (Directory.listsAll_iff.1 inner handler mem)) draft.derive memoised labelled

theorem Draft.labelled_foldl_addGroup {directory : Directory σ} {groups : List (Group σ)}
    (listed : ∀ group ∈ groups, directory.ListsGroup group) (draft : Draft σ)
    (memoised : draft.tables.Memoised directory)
    (labelled : draft.tables.cache.Labelled directory) :
    (groups.foldl addGroup draft).tables.cache.Labelled directory := by
  induction groups generalizing draft with
  | nil => exact labelled
  | cons group rest ih =>
      obtain ⟨here, later⟩ := List.forall_mem_cons.1 listed
      obtain ⟨kept, _, _⟩ := Group.grows_compile here memoised
      have shown := Group.labelled_compile here memoised labelled
      rw [← draft.tables_addGroup group] at kept shown
      exact ih later (draft.addGroup group) kept shown

namespace Compiler

variable {directory : Directory σ} {compiler : Compiler σ} {plan : RoutePlan σ}
  {parameterized : Bool}

theorem labelled_compile (memoises : compiler.Memoises directory)
    (labelled : compiler.tables.cache.Labelled directory)
    (listed : ∀ group ∈ plan.groups, directory.ListsGroup group) :
    (compiler.compile plan parameterized).2.tables.cache.Labelled directory := by
  have still := compiler.still_compileFaults plan.faults
  have memoised := still.memoised memoises.tables
  rw [← still.cache] at labelled
  rw [compile]
  generalize compiler.compileFaults plan.faults = out at memoised labelled ⊢
  obtain ⟨defect | faults, after⟩ := out
  · exact labelled
  · dsimp only
    rw [cache_assemble]
    exact Draft.labelled_foldl_addGroup listed _ memoised labelled

theorem labelled_after {history : List (RoutePlan σ × Bool)}
    (listed : ∀ entry ∈ history, ∀ group ∈ entry.1.groups, directory.ListsGroup group)
    (memoises : compiler.Memoises directory)
    (labelled : compiler.tables.cache.Labelled directory) :
    (compiler.after history).tables.cache.Labelled directory := by
  induction history generalizing compiler with
  | nil => exact labelled
  | cons entry rest ih =>
      obtain ⟨here, later⟩ := List.forall_mem_cons.1 listed
      exact ih later (memoises_compile memoises here).1 (labelled_compile memoises labelled here)

end Compiler

/-! ## Places and numbers -/

/-- A place in a compiled group has a number exactly if a checked handler is there. -/
theorem Fragment.Shows.bindings_iff {fragment : Fragment σ} {cache : FragmentCache σ}
    {handlers : List (Handler σ)} (listing : fragment.Shows cache handlers) (position : Nat) :
    (∃ number, fragment.bindings[position]? = some (some number)) ↔
      ∃ callback target, handlers[position]? = some (.checked callback target) := by
  obtain ⟨shown, each, bindings, -⟩ := listing
  rw [bindings]
  clear bindings
  induction each generalizing position with
  | nil => simp
  | @cons handler entry handlers shown one rest ih =>
      obtain ⟨number, line⟩ := entry
      cases position with
      | zero => cases one <;> simp
      | succ position => simpa using ih position

/-- Numbers that differ stand at one place each. -/
theorem Fragment.position_eq {fragment : Fragment σ} (apart : fragment.given.Nodup)
    {position other number : Nat} (here : fragment.bindings[position]? = some (some number))
    (there : fragment.bindings[other]? = some (some number)) : position = other := by
  rw [given, List.reduceOption, List.Nodup, List.pairwise_filterMap,
    List.pairwise_iff_getElem] at apart
  obtain ⟨bound, here⟩ := List.getElem?_eq_some_iff.1 here
  obtain ⟨bound', there⟩ := List.getElem?_eq_some_iff.1 there
  rcases Nat.lt_trichotomy position other with less | same | more
  · exact absurd rfl (apart position other bound bound' less number here number there)
  · exact same
  · exact absurd rfl (apart other position bound' bound more number there number here)

namespace FragmentCache

variable {cache : FragmentCache σ} {group position number : Nat}

def binding? (cache : FragmentCache σ) (group position : Nat) : Option Nat :=
  (cache.find? group).bind fun fragment => fragment.bindings[position]?.join

theorem binding?_eq_some_iff : cache.binding? group position = some number ↔
    ∃ fragment, cache.find? group = some fragment ∧
      fragment.bindings[position]? = some (some number) := by
  simp [binding?, Option.bind_eq_some_iff, Option.join_eq_some_iff]

/-- Groups that are compiled once each are found by their numbers. -/
theorem find?_of_mem (once : cache.numbers.Nodup) {fragment : Fragment σ}
    (mem : fragment ∈ cache.fragments) : cache.find? fragment.group = some fragment := by
  obtain ⟨other, found⟩ := exists_find?_of_mem (List.mem_map_of_mem mem)
  obtain ⟨there, same⟩ := of_find? found
  rw [found, List.inj_on_of_nodup_map once there mem same]

/-- The numbers at places in groups are those that were given. -/
theorem mem_given_iff (once : cache.numbers.Nodup) :
    number ∈ cache.given ↔ ∃ group position, cache.binding? group position = some number := by
  simp only [given, List.mem_flatMap, Fragment.given, List.reduceOption_mem_iff,
    binding?_eq_some_iff]
  constructor
  · rintro ⟨fragment, mem, there⟩
    obtain ⟨position, found⟩ := List.mem_iff_getElem?.1 there
    exact ⟨fragment.group, position, fragment, find?_of_mem once mem, found⟩
  · rintro ⟨group, position, fragment, found, there⟩
    exact ⟨fragment, (of_find? found).1, List.mem_of_getElem? there⟩

/-- Numbers that were given once each stand at one place. -/
theorem place_eq (apart : cache.given.Nodup) {group' position' : Nat}
    (here : cache.binding? group position = some number)
    (there : cache.binding? group' position' = some number) :
    group = group' ∧ position = position' := by
  obtain ⟨fragment, found, number_here⟩ := binding?_eq_some_iff.1 here
  obtain ⟨other, found', number_there⟩ := binding?_eq_some_iff.1 there
  obtain ⟨mem, rfl⟩ := of_find? found
  obtain ⟨mem', rfl⟩ := of_find? found'
  obtain ⟨within, between⟩ := List.nodup_flatMap.1 apart
  have symmetric : Std.Symm (Function.onFun List.Disjoint (@Fragment.given σ)) :=
    ⟨fun _ _ disjoint => disjoint.symm⟩
  have same : fragment = other := by
    by_contra differs
    have disjoint := between.forall mem mem' differs
    exact disjoint (List.reduceOption_mem_iff.2 (List.mem_of_getElem? number_here))
      (List.reduceOption_mem_iff.2 (List.mem_of_getElem? number_there))
  subst same
  exact ⟨rfl, fragment.position_eq (within fragment mem) number_here number_there⟩

end FragmentCache

namespace Compiler

/-- Results are numbered once each and without gaps. Over any history of plans, with
or without defects and sharing groups in any way, let the groups met be those of the
plans that compile, at any depth.

* The handlers that get a number are the checked handlers of the groups met, each at
  its place in its group, and no others.
* No number stands at two places.
* The numbers that stand somewhere are those below the count of results.
* These are the numbers under which listings show the results: a compiled group lists
  its handlers in order, a checked one with its number, and a nested group by the
  listing of its compiled form. All chains have the same compiled form of a group. -/
theorem results_numbered_once {directory : Directory σ} (registry : FaultRegistry)
    (unhandled : Response) {history : List (RoutePlan σ × Bool)}
    (listed : ∀ entry ∈ history, ∀ group ∈ entry.1.groups, directory.ListsGroup group) :
    let chains := (new registry unhandled).chains history
    let final := (new registry unhandled).after history
    let cache := final.tables.cache
    let met := chains.flatMap fun entry => entry.1.numbers
    (∀ group position, (∃ number, cache.binding? group position = some number) ↔
      group ∈ met ∧ ∃ callback target,
        (directory.groups group)[position]? = some (.checked callback target)) ∧
    (∀ group position group' position' number,
      cache.binding? group position = some number →
      cache.binding? group' position' = some number → group = group' ∧ position = position') ∧
    (∀ number, number < final.stats.bindings ↔
      ∃ group position, cache.binding? group position = some number) ∧
    (∀ group ∈ met, ∃ fragment, cache.find? group = some fragment ∧
      fragment.Shows cache (directory.groups group)) ∧
    ∀ entry ∈ chains, List.Forall₂ (fun group fragment => cache.find? group.id = some fragment)
      entry.1.groups entry.2.fragments := by
  intro chains final cache met
  obtain ⟨kept, _, _⟩ := memoises_after listed (memoises_new registry unhandled)
  have numbered : final.Numbered := numbered_after (numbered_new registry unhandled) history
  have labelled : cache.Labelled directory :=
    labelled_after listed (memoises_new registry unhandled) nofun
  have met_iff : ∀ id, id ∈ cache.numbers ↔ id ∈ met := mem_numbers_after registry unhandled listed
  have once : cache.numbers.Nodup := kept.tables.once
  have apart : cache.given.Nodup := numbered.nodup_iff.2 List.nodup_range
  refine ⟨?_, ?_, ?_, ?_, ?_⟩
  · intro group position
    simp only [FragmentCache.binding?_eq_some_iff, ← met_iff]
    constructor
    · rintro ⟨number, fragment, found, there⟩
      obtain ⟨mem, rfl⟩ := FragmentCache.of_find? found
      exact ⟨List.mem_map_of_mem mem, ((labelled fragment mem).bindings_iff position).1
        ⟨number, there⟩⟩
    · rintro ⟨compiled, checked⟩
      obtain ⟨fragment, found⟩ := FragmentCache.exists_find?_of_mem compiled
      obtain ⟨mem, rfl⟩ := FragmentCache.of_find? found
      obtain ⟨number, there⟩ := ((labelled fragment mem).bindings_iff position).2 checked
      exact ⟨number, fragment, found, there⟩
  · intro group position group' position' number here there
    exact FragmentCache.place_eq apart here there
  · intro number
    rw [← FragmentCache.mem_given_iff once, numbered.mem_iff, List.mem_range]
    rfl
  · intro group compiled
    obtain ⟨fragment, found⟩ := FragmentCache.exists_find?_of_mem ((met_iff group).2 compiled)
    obtain ⟨mem, rfl⟩ := FragmentCache.of_find? found
    exact ⟨fragment, found, labelled fragment mem⟩
  · intro entry mem
    exact (uses_of_mem_chains registry unhandled listed mem).fragments

end Compiler

namespace Sample

def lock : Group Nat := .ofHandlers 0 [guard]

/-- Checked handlers on both sides of a nested one. -/
def vault : Group Nat := .ofHandlers 1 [guard, .ofGroup lock, visit, guard]

def vaultDirectory : Directory Nat where
  groups id := (([lock, vault][id]?).map Group.handlers).getD []
  faults _ := []

def vaultPlans : List (RoutePlan Nat × Bool) :=
  [(⟨[vault], welcome, doubled⟩, false), (⟨[vault], welcome, faults⟩, false),
    (⟨[lock, vault], welcome, faults⟩, true)]

theorem listsGroup_vaultPlans :
    ∀ entry ∈ vaultPlans, ∀ group ∈ entry.1.groups, vaultDirectory.ListsGroup group := by
  have first : Group.Made ([] ++ [lock]) :=
    .more .none [guard] (List.forall_mem_singleton.2 trivial)
  have made : Group.Made ([lock] ++ [vault]) := .more first [guard, .ofGroup lock, visit, guard] <|
    List.forall_mem_cons.2 ⟨trivial, List.forall_mem_cons.2
      ⟨SoundHandler.uses_ofGroup (by simp), by simp [SoundHandler.Uses, visit, guard,
        SoundHandler.checked, SoundHandler.unchecked]⟩⟩
  have known := @Directory.listsGroup_of_made Nat _ _ made List.prefix_rfl vaultDirectory
    fun _ => rfl
  intro entry mem group inside
  apply known
  simp only [vaultPlans, List.mem_cons, List.not_mem_nil, or_false] at mem
  rcases mem with rfl | rfl | rfl <;> simp_all

/-- The three checked handlers of the two groups have the numbers 0, 1 and 2; the
handler that is not checked has none. -/
theorem vault_numbered :
    (∀ entry ∈ vaultPlans, ∀ group ∈ entry.1.groups, vaultDirectory.ListsGroup group) ∧
    let final := (Compiler.new registry unhandled).after vaultPlans
    final.stats.bindings = 3 ∧
    (∀ number, number < 3 ↔
      ∃ group position, final.tables.cache.binding? group position = some number) ∧
    (∃ number, final.tables.cache.binding? lock.id 0 = some number) ∧
    ¬ ∃ number, final.tables.cache.binding? vault.id 2 = some number := by
  refine ⟨listsGroup_vaultPlans, ?_⟩
  obtain ⟨places, _, numbers, _⟩ :=
    Compiler.results_numbered_once registry unhandled listsGroup_vaultPlans
  refine ⟨rfl, numbers, ?_, ?_⟩
  · exact (places lock.id 0).2 ⟨by decide, _, _, rfl⟩
  · rw [places]
    rintro ⟨_, _, _, there⟩
    cases there

end Sample

end RouteTree
