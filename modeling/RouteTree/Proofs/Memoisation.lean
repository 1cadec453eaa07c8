import Mathlib.Algebra.BigOperators.Group.Finset.Basic
import Mathlib.Algebra.Ring.Nat
import RouteTree.Proofs.Layout
import RouteTree.Proofs.Nesting
import RouteTree.Proofs.Refinement

/-!
# Every group is compiled once

However often a group is listed by routes or nested in other groups, it is compiled
when it is first met and taken from the cache from then on. Each time a group is
asked for, either the cache grows by one or there is one more reuse. A route
asks for each group it lists, and compiling a group asks for each group that is
directly nested in it; a group from the cache asks for nothing.
-/

namespace RouteTree

open Http

variable {σ : Type}

namespace Event

def compilation? : Event → Option Nat
  | .log (.groupCompiled group _ _ _ _) => some group
  | _ => none

def compilations (events : List Event) : List Nat := events.filterMap compilation?

@[simp] theorem compilations_append (first second : List Event) :
    compilations (first ++ second) = compilations first ++ compilations second := by
  simp [compilations]

end Event

namespace FragmentCache

variable {cache before after : FragmentCache σ} {id : Nat} {fragment : Fragment σ}

def numbers (cache : FragmentCache σ) : List Nat := cache.fragments.map Fragment.group

/-- How many handlers of the compiled groups stand for a group. -/
def nestings (cache : FragmentCache σ) (directory : Directory σ) : Nat :=
  (cache.numbers.map fun id => (directory.groups id).countP Handler.isNested).sum

theorem find?_eq_none_iff : cache.find? id = none ↔ id ∉ cache.numbers := by
  simp [find?, numbers]

theorem exists_find?_of_mem (there : id ∈ cache.numbers) :
    ∃ fragment, cache.find? id = some fragment := by
  cases found : cache.find? id with
  | none => exact absurd there (find?_eq_none_iff.1 found)
  | some fragment => exact ⟨fragment, rfl⟩

theorem of_find? (found : cache.find? id = some fragment) :
    fragment ∈ cache.fragments ∧ fragment.group = id :=
  ⟨List.mem_of_find?_eq_some found, by simpa using List.find?_some found⟩

theorem find?_of_prefix (kept : before.fragments <+: after.fragments)
    (found : before.find? id = some fragment) : after.find? id = some fragment := by
  obtain ⟨added, grown⟩ := kept
  rw [find?] at found ⊢
  rw [← grown, List.find?_append, found]
  rfl

end FragmentCache

/-! ## What the tables hold -/

namespace Tables

variable {directory : Directory σ} {tables before middle after : Tables σ}

/-- Every group was compiled once at most, with all the groups inside it, and the
compilations are on record. -/
structure Memoised (tables : Tables σ) (directory : Directory σ) : Prop where
  once : tables.cache.numbers.Nodup
  closed : ∀ id ∈ tables.cache.numbers,
    Handler.innerAll (directory.groups id) ⊆ tables.cache.numbers
  logged : Event.compilations tables.events = tables.cache.numbers

/-- What the tables gain when groups are asked for this many times and these
numbers are met on the way. Those that were compiled before stay as they are, and
those that are new are compiled. Each time a group was asked for, by a route or
by a newly compiled group, it was compiled or used again. -/
structure Grows (directory : Directory σ) (before : Tables σ) (met : List Nat) (asked : Nat)
    (after : Tables σ) : Prop where
  kept : before.cache.fragments <+: after.cache.fragments
  numbers : ∀ id, id ∈ after.cache.numbers ↔ id ∈ before.cache.numbers ∨ id ∈ met
  balance : after.cache.size + after.cache.hits + before.cache.nestings directory =
    before.cache.size + before.cache.hits + after.cache.nestings directory + asked

theorem Grows.refl (tables : Tables σ) : Grows directory tables [] 0 tables :=
  ⟨List.prefix_rfl, by simp, by omega⟩

theorem Grows.trans {met more : List Nat} {asked further : Nat}
    (first : Grows directory before met asked middle)
    (second : Grows directory middle more further after) :
    Grows directory before (met ++ more) (asked + further) after := by
  refine ⟨first.kept.trans second.kept, ?_, ?_⟩
  · intro id
    rw [second.numbers, first.numbers, List.mem_append, or_assoc]
  · have balance := first.balance
    have balance' := second.balance
    omega

/-- Tables with the same compiled groups that compiled nothing meanwhile. -/
structure Still (before after : Tables σ) : Prop where
  cache : after.cache = before.cache
  events : Event.compilations after.events = Event.compilations before.events

theorem Still.memoised (still : before.Still after) (memoised : before.Memoised directory) :
    after.Memoised directory := by
  refine ⟨?_, ?_, ?_⟩
  · rw [still.cache]
    exact memoised.once
  · rw [still.cache]
    exact memoised.closed
  · rw [still.events, still.cache]
    exact memoised.logged

theorem Still.grows (still : before.Still after) : Grows directory before [] 0 after := by
  refine ⟨?_, ?_, ?_⟩
  · rw [still.cache]
  · simp [still.cache]
  · rw [still.cache]
    omega

/-- A group that is compiled already is used again. -/
theorem grows_reuse (memoised : tables.Memoised directory) {group : Nat}
    (there : group ∈ tables.cache.numbers) :
    (tables.reuse group).Memoised directory ∧
      Grows directory tables (group :: Handler.innerAll (directory.groups group)) 1
        (tables.reuse group) := by
  have known := memoised.closed group there
  refine ⟨⟨memoised.once, memoised.closed, ?_⟩, List.prefix_rfl, ?_, ?_⟩
  · have events : (tables.reuse group).events =
        tables.events ++ [.count .groupReused, .log (.groupReused group)] := events_record _ _
    rw [events, Event.compilations_append, memoised.logged]
    exact List.append_nil _
  · intro id
    constructor
    · exact .inl
    · rintro (old | met)
      · exact old
      · rcases List.mem_cons.1 met with rfl | inside
        · exact there
        · exact known inside
  · simp only [reuse, record, FragmentCache.size, FragmentCache.nestings, FragmentCache.numbers]
    omega

/-- A group that has been compiled, after the groups inside it, is kept. -/
theorem grows_remember (fragment : Fragment σ) (memoised : after.Memoised directory)
    (grows : Grows directory before (Handler.innerAll (directory.groups fragment.group))
      ((directory.groups fragment.group).countP Handler.isNested) after)
    (fresh : fragment.group ∉ after.cache.numbers) (handlers : Nat) :
    (after.remember handlers fragment).Memoised directory ∧
      Grows directory before
        (fragment.group :: Handler.innerAll (directory.groups fragment.group)) 1
        (after.remember handlers fragment) := by
  have numbers : (after.remember handlers fragment).cache.numbers =
      after.cache.numbers ++ [fragment.group] := by
    simp [remember, record, FragmentCache.numbers]
  refine ⟨⟨?_, ?_, ?_⟩, ?_, ?_, ?_⟩
  · rw [numbers, List.nodup_append_comm]
    exact List.nodup_cons.2 ⟨fresh, memoised.once⟩
  · rw [numbers]
    intro id mem
    rcases List.mem_append.1 mem with old | new
    · exact List.Subset.trans (memoised.closed id old) (List.subset_append_left _ _)
    · obtain rfl := List.mem_singleton.1 new
      intro other inside
      exact List.mem_append_left _ ((grows.numbers other).2 (.inr inside))
  · have events : (after.remember handlers fragment).events =
        after.events ++ [.log (.groupCompiled fragment.group handlers fragment.size
          fragment.deferred fragment.needsContext), .count .groupCompiled] := events_record _ _
    rw [numbers, events, Event.compilations_append, memoised.logged]
    rfl
  · exact grows.kept.trans (List.prefix_append _ _)
  · intro id
    rw [numbers, List.mem_append, grows.numbers, List.mem_singleton, List.mem_cons]
    tauto
  · have balance := grows.balance
    have size : (after.remember handlers fragment).cache.size = after.cache.size + 1 := by
      simp [remember, record, FragmentCache.size]
    have hits : (after.remember handlers fragment).cache.hits = after.cache.hits := rfl
    have nestings : (after.remember handlers fragment).cache.nestings directory =
        after.cache.nestings directory +
          (directory.groups fragment.group).countP Handler.isNested := by
      simp [FragmentCache.nestings, numbers]
    omega

theorem find?_remember {fragment : Fragment σ} (fresh : fragment.group ∉ tables.cache.numbers)
    (handlers : Nat) :
    (tables.remember handlers fragment).cache.find? fragment.group = some fragment := by
  have nothing := FragmentCache.find?_eq_none_iff.2 fresh
  rw [FragmentCache.find?] at nothing
  simp only [remember, record, FragmentCache.find?, List.find?_append, nothing]
  simp

end Tables

/-! ## Compiling groups -/

/-- Asking for a group gives what is in the cache from then on. -/
theorem Draft.grows_compiledGroup {directory : Directory σ} {draft : Draft σ} {group : Nat}
    {traits : Traits} {handlers : Nat} {build : Draft σ → Draft σ}
    (memoised : draft.tables.Memoised directory)
    (outside : group ∉ Handler.innerAll (directory.groups group))
    (builds : ∀ child : Draft σ, child.tables.Memoised directory →
      (build child).tables.Memoised directory ∧
        Tables.Grows directory child.tables (Handler.innerAll (directory.groups group))
          ((directory.groups group).countP Handler.isNested) (build child).tables) :
    (draft.compiledGroup group traits handlers build).2.tables.Memoised directory ∧
      Tables.Grows directory draft.tables (group :: Handler.innerAll (directory.groups group)) 1
        (draft.compiledGroup group traits handlers build).2.tables ∧
      (draft.compiledGroup group traits handlers build).2.tables.cache.find? group =
        some (draft.compiledGroup group traits handlers build).1 := by
  rw [compiledGroup]
  cases found : draft.tables.cache.find? group with
  | some fragment =>
      obtain ⟨mem, number⟩ := FragmentCache.of_find? found
      have there : group ∈ draft.tables.cache.numbers := List.mem_map.2 ⟨fragment, mem, number⟩
      obtain ⟨kept, grows⟩ := Tables.grows_reuse memoised there
      exact ⟨kept, grows, found⟩
  | none =>
      obtain ⟨kept, grows⟩ := builds draft.derive memoised
      -- The group is new, and compiling what is inside it has not compiled it.
      have fresh : group ∉ (build draft.derive).tables.cache.numbers := by
        rw [grows.numbers]
        rintro (there | inside)
        · exact FragmentCache.find?_eq_none_iff.1 found there
        · exact outside inside
      obtain ⟨kept, grows⟩ := Tables.grows_remember ⟨group, (build draft.derive).ops,
        traits.suspends, traits.needsContext, Listing.unlines (build draft.derive).lines,
        (build draft.derive).bindings⟩ kept grows fresh handlers
      exact ⟨kept, grows, Tables.find?_remember fresh handlers⟩

namespace Handler

variable {directory : Directory σ}

theorem grows_compileAll_of_forall {handlers : List (Handler σ)}
    (each : ∀ handler ∈ handlers, ∀ draft : Draft σ, draft.tables.Memoised directory →
      (handler.compile draft).tables.Memoised directory ∧
        Tables.Grows directory draft.tables handler.inner ([handler].countP isNested)
          (handler.compile draft).tables)
    (draft : Draft σ) (memoised : draft.tables.Memoised directory) :
    (compileAll handlers draft).tables.Memoised directory ∧
      Tables.Grows directory draft.tables (innerAll handlers) (handlers.countP isNested)
        (compileAll handlers draft).tables := by
  induction handlers generalizing draft with
  | nil => exact ⟨memoised, .refl _⟩
  | cons handler rest ih =>
      obtain ⟨here, later⟩ := List.forall_mem_cons.1 each
      obtain ⟨kept, grows⟩ := here draft memoised
      obtain ⟨kept', grows'⟩ := ih later (handler.compile draft) kept
      refine ⟨kept', ?_⟩
      rw [← List.singleton_append, List.countP_append]
      exact grows.trans grows'

theorem grows_compile {handler : Handler σ} (sound : handler.Sound)
    (listed : directory.Lists handler) (draft : Draft σ)
    (memoised : draft.tables.Memoised directory) :
    (handler.compile draft).tables.Memoised directory ∧
      Tables.Grows directory draft.tables handler.inner ([handler].countP isNested)
        (handler.compile draft).tables := by
  induction handler using Handler.induction generalizing draft with
  | nested group traits handlers ih =>
      simp only [Sound] at sound
      simp only [Directory.Lists] at listed
      obtain ⟨known, inner⟩ := listed
      obtain ⟨_, innerSound⟩ := sound
      subst known
      have builds := grows_compileAll_of_forall fun handler mem =>
        ih handler mem (allSound_iff.1 innerSound handler mem)
          (Directory.listsAll_iff.1 inner handler mem)
      have outside := Directory.not_mem_innerAll innerSound inner
      obtain ⟨kept, grows, _⟩ := @Draft.grows_compiledGroup σ directory draft group traits
        (directory.groups group).length _ memoised outside builds
      exact ⟨kept, grows⟩
  | checked callback target =>
      have still : draft.tables.Still ((checked callback target).compile draft).tables :=
        ⟨rfl, rfl⟩
      exact ⟨still.memoised memoised, still.grows⟩
  | unchecked callback target =>
      have still : draft.tables.Still ((unchecked callback target).compile draft).tables :=
        ⟨rfl, rfl⟩
      exact ⟨still.memoised memoised, still.grows⟩

end Handler

/-- Compiling a group asks for it once. -/
theorem Group.grows_compile {directory : Directory σ} {group : Group σ}
    (listed : directory.ListsGroup group) {draft : Draft σ}
    (memoised : draft.tables.Memoised directory) :
    (group.compile draft).2.tables.Memoised directory ∧
      Tables.Grows directory draft.tables group.numbers 1 (group.compile draft).2.tables ∧
      (group.compile draft).2.tables.cache.find? group.id = some (group.compile draft).1 := by
  obtain ⟨known, inner⟩ := listed
  have outside : group.id ∉ Handler.innerAll (directory.groups group.id) := by
    apply Directory.not_mem_innerAll
    · rw [known]
      exact group.sound
    · rw [known]
      exact inner
  rw [numbers, ← known]
  refine Draft.grows_compiledGroup memoised outside ?_
  rw [known]
  exact Handler.grows_compileAll_of_forall fun handler mem =>
    Handler.grows_compile (Handler.allSound_iff.1 group.sound handler mem)
      (Directory.listsAll_iff.1 inner handler mem)

/-! ## Compiling routes -/

namespace Draft

variable {directory : Directory σ}

/-- A route asks once for each group that it lists. -/
theorem grows_foldl_addGroup {groups : List (Group σ)}
    (listed : ∀ group ∈ groups, directory.ListsGroup group) (draft : Draft σ)
    (memoised : draft.tables.Memoised directory) :
    ∃ fragments, draft.Adds fragments (groups.foldl addGroup draft) ∧
      List.Forall₂ (fun group fragment =>
        (groups.foldl addGroup draft).tables.cache.find? group.id = some fragment)
        groups fragments ∧
      (groups.foldl addGroup draft).tables.Memoised directory ∧
      Tables.Grows directory draft.tables (groups.flatMap Group.numbers) groups.length
        (groups.foldl addGroup draft).tables := by
  induction groups generalizing draft with
  | nil => exact ⟨[], .refl draft, .nil, memoised, .refl _⟩
  | cons group rest ih =>
      obtain ⟨here, later⟩ := List.forall_mem_cons.1 listed
      obtain ⟨kept, grows, found⟩ := Group.grows_compile here memoised
      rw [← draft.tables_addGroup group] at kept grows found
      obtain ⟨fragments, adds, others, kept, grows'⟩ := ih later (draft.addGroup group) kept
      refine ⟨_ :: fragments, (draft.adds_addGroup group).trans adds, ?_, kept, ?_⟩
      · exact .cons (FragmentCache.find?_of_prefix grows'.kept found) others
      · have whole := grows.trans grows'
        rw [Nat.add_comm] at whole
        exact whole

theorem still_addTerminal (draft : Draft σ) (terminal : Terminal σ) (unhandled : Response) :
    draft.tables.Still (draft.addTerminal terminal unhandled).2.tables := by
  refine ⟨draft.cache_addTerminal terminal unhandled, ?_⟩
  simp only [addTerminal, note]
  split
  · rw [tables_allocate]
    rfl
  · rfl

end Draft

def FaultSwitch.OfTable (switch : FaultSwitch σ) : Prop :=
  ∃ (table : FaultTable σ) (unhandled : Response), switch = table.switch unhandled

/-- The chain is put together from the groups of the plan as the cache has them. -/
structure Chain.Uses (chain : Chain σ) (plan : RoutePlan σ) (cache : FragmentCache σ) : Prop where
  fragments : List.Forall₂ (fun group fragment => cache.find? group.id = some fragment)
    plan.groups chain.fragments
  joins : ∃ switch : FaultSwitch σ, switch.OfTable ∧
    chain.Joins chain.fragments (plan.terminal.endpoint switch.unhandled) switch

theorem Chain.Uses.mono {chain : Chain σ} {plan : RoutePlan σ} {before after : FragmentCache σ}
    (uses : chain.Uses plan before) (kept : before.fragments <+: after.fragments) :
    chain.Uses plan after :=
  ⟨uses.fragments.imp fun _ _ found => FragmentCache.find?_of_prefix kept found, uses.joins⟩

def RoutePlan.numbers (plan : RoutePlan σ) : List Nat := plan.groups.flatMap Group.numbers

namespace Compiler

variable {directory : Directory σ} {compiler : Compiler σ} {plan : RoutePlan σ}
  {parameterized : Bool}

/-- A compiler that has compiled groups as it should. -/
structure Memoises (compiler : Compiler σ) (directory : Directory σ) : Prop
    extends compiler.Keeps (·.Faithful directory) (fun _ switch => switch.OfTable) where
  tables : compiler.tables.Memoised directory

theorem memoises_new (registry : FaultRegistry) (unhandled : Response) :
    (new registry unhandled : Compiler σ).Memoises directory :=
  ⟨⟨by simp [new, FragmentCache.Faithful], by simp [new]⟩,
    ⟨by simp [new, FragmentCache.numbers], by simp [new, FragmentCache.numbers], rfl⟩⟩

theorem still_compileFaults (compiler : Compiler σ) (table : FaultTable σ) :
    compiler.tables.Still (compiler.compileFaults table).2.tables := by
  rw [compileFaults]
  split
  · exact ⟨rfl, rfl⟩
  · split
    · exact ⟨rfl, rfl⟩
    · refine ⟨rfl, ?_⟩
      simp [Event.compilations, Event.compilation?, Tables.events, Tables.record]

/-- A route whose faults are compiled asks for the groups it lists. -/
theorem grows_assemble (listed : ∀ group ∈ plan.groups, directory.ListsGroup group)
    (memoised : compiler.tables.Memoised directory) {faults : BuiltSwitch σ}
    (known : faults.switch.OfTable) :
    (compiler.assemble plan parameterized faults).1.Uses plan
        (compiler.assemble plan parameterized faults).2.tables.cache ∧
      (compiler.assemble plan parameterized faults).2.tables.Memoised directory ∧
      Tables.Grows directory compiler.tables plan.numbers plan.groups.length
        (compiler.assemble plan parameterized faults).2.tables := by
  obtain ⟨fragments, adds, found, kept, grows⟩ := Draft.grows_foldl_addGroup listed
    (Draft.new compiler.tables compiler.nextBinding parameterized) memoised
  have joins := joins_of_adds adds faults
  have still : Tables.Still _ (compiler.assemble plan parameterized faults).2.tables :=
    Draft.still_addTerminal _ plan.terminal faults.switch.unhandled
  refine ⟨⟨?_, faults.switch, known, ?_⟩, still.memoised kept, ?_⟩
  · rw [joins.fragments_eq, cache_assemble]
    exact found
  · rw [joins.fragments_eq]
    exact joins
  · have rest : Tables.Grows directory _ [] 0 _ := still.grows
    have whole := grows.trans rest
    rw [List.append_nil] at whole
    exact whole

/-- Compiling a plan asks for the groups it lists if it gives a chain, and for
nothing otherwise. -/
theorem memoises_compile (memoises : compiler.Memoises directory)
    (listed : ∀ group ∈ plan.groups, directory.ListsGroup group) :
    (compiler.compile plan parameterized).2.Memoises directory ∧
      (∀ chain, (compiler.compile plan parameterized).1 = .ok chain →
        chain.Uses plan (compiler.compile plan parameterized).2.tables.cache ∧
          Tables.Grows directory compiler.tables plan.numbers plan.groups.length
            (compiler.compile plan parameterized).2.tables) ∧
      (∀ defect, (compiler.compile plan parameterized).1 = .error defect →
        Tables.Grows directory compiler.tables [] 0
          (compiler.compile plan parameterized).2.tables) := by
  have own : (plan.faults.switch compiler.unhandled).OfTable := ⟨_, _, rfl⟩
  obtain ⟨_, keeps, _⟩ := @keeps_compile σ compiler plan parameterized _ _
    (fun group fragment => fragment.Represents group.handlers) memoises.toKeeps
    (fun group mem draft cache => Group.represents_compile (listed group mem) cache) own
  obtain ⟨known, _, _⟩ := keeps_compileFaults memoises.toKeeps own
  have still := compiler.still_compileFaults plan.faults
  have memoised := still.memoised memoises.tables
  rw [compile] at keeps ⊢
  generalize compiler.compileFaults plan.faults = out at known still memoised keeps ⊢
  obtain ⟨defect | faults, after⟩ := out
  · refine ⟨⟨keeps, memoised⟩, by simp, ?_⟩
    intro _ _
    exact still.grows
  · obtain ⟨uses, kept, grows⟩ := @grows_assemble σ directory after plan parameterized listed
      memoised faults (known faults rfl)
    refine ⟨⟨keeps, kept⟩, ?_, by simp⟩
    rintro chain ⟨⟩
    have begun : Tables.Grows directory compiler.tables [] 0 after.tables := still.grows
    have whole := begun.trans grows
    rw [List.nil_append, Nat.zero_add] at whole
    exact ⟨uses, whole⟩

/-- The plans in a history that compile, each with its chain. -/
def chains (compiler : Compiler σ) : List (RoutePlan σ × Bool) → List (RoutePlan σ × Chain σ)
  | [] => []
  | (plan, parameterized) :: rest =>
    match compiler.compile plan parameterized with
    | (.ok chain, next) => (plan, chain) :: next.chains rest
    | (.error _, next) => next.chains rest

theorem mem_history_of_mem_chains {history : List (RoutePlan σ × Bool)}
    {entry : RoutePlan σ × Chain σ} (mem : entry ∈ compiler.chains history) :
    ∃ source ∈ history, source.1 = entry.1 := by
  induction history generalizing compiler with
  | nil => cases mem
  | cons source rest ih =>
      obtain ⟨plan, parameterized⟩ := source
      rw [chains] at mem
      split at mem
      · rcases List.mem_cons.1 mem with rfl | later
        · exact ⟨_, List.mem_cons_self, rfl⟩
        · obtain ⟨source, there, same⟩ := ih later
          exact ⟨source, List.mem_cons_of_mem _ there, same⟩
      · obtain ⟨source, there, same⟩ := ih mem
        exact ⟨source, List.mem_cons_of_mem _ there, same⟩

/-- Over a history of plans, the compiler asks for the groups of the plans that
compile, and their chains use what is in the cache at the end. -/
theorem memoises_after {history : List (RoutePlan σ × Bool)}
    (listed : ∀ entry ∈ history, ∀ group ∈ entry.1.groups, directory.ListsGroup group)
    (memoises : compiler.Memoises directory) :
    (compiler.after history).Memoises directory ∧
      Tables.Grows directory compiler.tables
        ((compiler.chains history).flatMap fun entry => entry.1.numbers)
        ((compiler.chains history).map fun entry => entry.1.groups.length).sum
        (compiler.after history).tables ∧
      ∀ entry ∈ compiler.chains history,
        entry.2.Uses entry.1 (compiler.after history).tables.cache := by
  induction history generalizing compiler with
  | nil => exact ⟨memoises, .refl _, by simp [chains]⟩
  | cons source rest ih =>
      obtain ⟨plan, parameterized⟩ := source
      obtain ⟨here, later⟩ := List.forall_mem_cons.1 listed
      obtain ⟨memoises, accepted, rejected⟩ :=
        @memoises_compile σ directory compiler plan parameterized memoises here
      obtain ⟨kept, grows, uses⟩ := ih later memoises
      simp only [chains, after]
      generalize compiler.compile plan parameterized = out
        at memoises accepted rejected kept grows uses ⊢
      obtain ⟨defect | chain, next⟩ := out
      · refine ⟨kept, ?_, uses⟩
        have whole := (rejected defect rfl).trans grows
        rw [List.nil_append, Nat.zero_add] at whole
        exact whole
      · obtain ⟨used, asked⟩ := accepted chain rfl
        exact ⟨kept, asked.trans grows, List.forall_mem_cons.2 ⟨used.mono grows.kept, uses⟩⟩

variable (registry : FaultRegistry) (unhandled : Response) {history : List (RoutePlan σ × Bool)}

theorem uses_of_mem_chains
    (listed : ∀ entry ∈ history, ∀ group ∈ entry.1.groups, directory.ListsGroup group)
    {entry : RoutePlan σ × Chain σ} (mem : entry ∈ (new registry unhandled).chains history) :
    entry.2.Uses entry.1 ((new registry unhandled).after history).tables.cache := by
  obtain ⟨_, _, uses⟩ := memoises_after listed (memoises_new registry unhandled)
  exact uses entry mem

theorem mem_numbers_after
    (listed : ∀ entry ∈ history, ∀ group ∈ entry.1.groups, directory.ListsGroup group) (id : Nat) :
    id ∈ ((new registry unhandled).after history).tables.cache.numbers ↔
      id ∈ ((new registry unhandled).chains history).flatMap fun entry => entry.1.numbers := by
  obtain ⟨_, grows, _⟩ := memoises_after listed (memoises_new registry unhandled)
  rw [grows.numbers id]
  simp [new, FragmentCache.numbers]

/-- A compiled group stands for sound handlers that the directory lists. -/
theorem represents_of_mem_cache
    (listed : ∀ entry ∈ history, ∀ group ∈ entry.1.groups, directory.ListsGroup group)
    {fragment : Fragment σ}
    (member : fragment ∈ ((new registry unhandled).after history).tables.cache.fragments) :
    fragment.Represents (directory.groups fragment.group) ∧
      Handler.AllSound (directory.groups fragment.group) ∧
      directory.ListsAll (directory.groups fragment.group) := by
  obtain ⟨kept, _, _⟩ := memoises_after listed (memoises_new registry unhandled)
  refine ⟨kept.cache fragment member, ?_⟩
  have known := (mem_numbers_after registry unhandled listed fragment.group).1
    (List.mem_map_of_mem member)
  obtain ⟨entry, compiled, inside⟩ := List.mem_flatMap.1 known
  obtain ⟨group, there, number⟩ := List.mem_flatMap.1 inside
  obtain ⟨source, given, same⟩ := mem_history_of_mem_chains compiled
  rw [← same] at there
  exact Directory.sound_of_mem_numbers (listed source given group there) number

end Compiler

/-- The calls that a handler adds to a group: those of the compiled form that the
cache has for a nested group, or its own. -/
def FragmentCache.spliced (cache : FragmentCache σ) : Handler σ → List (Op σ)
  | .nested group _ _ => ((cache.find? group).map Fragment.ops).getD []
  | .checked callback target => (Handler.checked callback target).ops
  | .unchecked callback target => (Handler.unchecked callback target).ops

/-- Handlers are compiled by putting the compiled forms of nested groups in their
places. -/
theorem FragmentCache.opsAll_eq_spliced {cache : FragmentCache σ} {directory : Directory σ}
    {handlers : List (Handler σ)} (listed : directory.ListsAll handlers)
    (found : ∀ id ∈ Handler.innerAll handlers, ∃ fragment, cache.find? id = some fragment ∧
      fragment.Represents (directory.groups id)) :
    Handler.opsAll handlers = handlers.flatMap cache.spliced := by
  induction handlers with
  | nil => rfl
  | cons handler rest ih =>
      simp only [Directory.ListsAll] at listed
      simp only [Handler.innerAll, List.mem_append] at found
      rw [Handler.opsAll, List.flatMap_cons, ih listed.2 fun id mem => found id (.inr mem)]
      congr 1
      cases handler with
      | nested group traits handlers =>
          have known : directory.groups group = handlers := by
            have here := listed.1
            simp only [Directory.Lists] at here
            exact here.1
          obtain ⟨fragment, there, represents⟩ :=
            found group (.inl (by simp [Handler.inner]))
          simp only [spliced, there, Option.map_some, Option.getD_some, represents.ops, known,
            Handler.ops]
      | checked callback target => rfl
      | unchecked callback target => rfl

namespace Compiler

/-- Groups are compiled once each. Over any history of plans, with or without
defects and sharing groups in any way, let the groups met be those of the plans that
compile, at any depth.

* Each group met was compiled exactly once, and no other group was compiled.
* All chains have the same compiled form of a group, the one in the cache.
* The compiled form of a group has one call for each of its leaves, in order, which
  is the same as putting the compiled forms of nested groups in their places. Its
  flags say whether some leaf may stop and whether some leaf uses the context.
* The count of groups is the number of different groups met. With the count of
  reuses it is the number of groups that the compiled plans list, and of handlers
  of different groups met that stand for a group.

The directory says what the numbers of groups stand for; groups that are made one
after the other have one, by `Directory.listsGroup_of_made`. -/
theorem compiles_each_group_once {directory : Directory σ} (registry : FaultRegistry)
    (unhandled : Response) {history : List (RoutePlan σ × Bool)}
    (listed : ∀ entry ∈ history, ∀ group ∈ entry.1.groups, directory.ListsGroup group) :
    let chains := (new registry unhandled).chains history
    let final := (new registry unhandled).after history
    let met := chains.flatMap fun entry => entry.1.numbers
    (∀ id, (Event.compilations final.tables.events).count id = if id ∈ met then 1 else 0) ∧
    (∀ entry ∈ chains, List.Forall₂
      (fun group fragment => final.tables.cache.find? group.id = some fragment)
      entry.1.groups entry.2.fragments) ∧
    (∀ id ∈ met, ∃ fragment, final.tables.cache.find? id = some fragment ∧
      List.Forall₂ Handler.Becomes (Handler.leavesAll (directory.groups id)) fragment.ops ∧
      fragment.ops = (directory.groups id).flatMap final.tables.cache.spliced ∧
      fragment.deferred = (Handler.leavesAll (directory.groups id)).any (·.traits.suspends) ∧
      fragment.needsContext =
        (Handler.leavesAll (directory.groups id)).any (·.traits.needsContext)) ∧
    final.stats.groups = met.toFinset.card ∧
    final.stats.groups + final.stats.groupReuses =
      (chains.map fun entry => entry.1.groups.length).sum +
        ∑ id ∈ met.toFinset, (directory.groups id).countP Handler.isNested := by
  intro chains final met
  obtain ⟨kept, grows, _⟩ := memoises_after listed (memoises_new registry unhandled)
  have numbers : ∀ id, id ∈ final.tables.cache.numbers ↔ id ∈ met :=
    mem_numbers_after registry unhandled listed
  have distinct : met.toFinset = final.tables.cache.numbers.toFinset := by
    ext id
    rw [List.mem_toFinset, List.mem_toFinset, numbers]
  have size : final.stats.groups = final.tables.cache.numbers.length :=
    (List.length_map _).symm
  have once : final.tables.cache.numbers.Nodup := kept.tables.once
  refine ⟨?_, ?_, ?_, ?_, ?_⟩
  · intro id
    rw [kept.tables.logged, once.count]
    simp only [numbers id]
  · intro entry mem
    exact (uses_of_mem_chains registry unhandled listed mem).fragments
  · intro id mem
    obtain ⟨fragment, found⟩ := FragmentCache.exists_find?_of_mem ((numbers id).2 mem)
    obtain ⟨member, rfl⟩ := FragmentCache.of_find? found
    obtain ⟨represents, sound, inner⟩ := represents_of_mem_cache registry unhandled listed member
    refine ⟨fragment, found, represents.leaves, ?_, represents.flags_of_leaves sound⟩
    rw [represents.ops]
    apply FragmentCache.opsAll_eq_spliced inner
    intro other inside
    have cached := kept.tables.closed fragment.group ((numbers _).2 mem) inside
    obtain ⟨nested, found⟩ := FragmentCache.exists_find?_of_mem cached
    obtain ⟨member, rfl⟩ := FragmentCache.of_find? found
    exact ⟨nested, found, (represents_of_mem_cache registry unhandled listed member).1⟩
  · rw [distinct, List.toFinset_card_of_nodup once, size]
  · have balance : final.stats.groups + final.stats.groupReuses + 0 =
        0 + 0 + final.tables.cache.nestings directory +
          (chains.map fun entry => entry.1.groups.length).sum := grows.balance
    rw [distinct, List.sum_toFinset _ once]
    rw [FragmentCache.nestings] at balance
    omega

end Compiler

namespace Sample

def plans : List (RoutePlan Nat × Bool) := history ++ [(plan, false)]

theorem listsGroup_plans :
    ∀ entry ∈ plans, ∀ group ∈ entry.1.groups, directory.ListsGroup group := by
  intro entry mem
  rcases List.mem_append.1 mem with old | last
  · exact (listsPlan_history entry old).groups
  · obtain rfl := List.mem_singleton.1 last
    exact listsPlan_plan.groups

/-- The two plans that compile list four groups, and two of the three different
groups nest the group of visits. -/
theorem groups_compiled_once :
    (∀ entry ∈ plans, ∀ group ∈ entry.1.groups, directory.ListsGroup group) ∧
    let final := (Compiler.new registry unhandled).after plans
    (Event.compilations final.tables.events).count visits.id = 1 ∧
    final.stats.groups = 3 ∧ final.stats.groups + final.stats.groupReuses = 4 + 2 := by
  refine ⟨listsGroup_plans, ?_⟩
  obtain ⟨once, _, _, groups, asked⟩ :=
    Compiler.compiles_each_group_once registry unhandled listsGroup_plans
  exact ⟨once visits.id, groups, asked⟩

end Sample

end RouteTree
