import RouteTree.Proofs.Enactment

/-!
# Compiled groups

A compiled group holds the calls of its handlers in order, those of a nested
group in its place, whether it was compiled just now or taken from the cache.
The cache goes by the numbers of groups, so this rests on what registration
guarantees: a number stands for one group only. A directory says what the
numbers stand for; the compiler neither has it nor needs it.
-/

namespace RouteTree

variable {σ : Type}

namespace Handler

/-- To show something of every handler, show it of the calls, and of a nested
group from its handlers. -/
theorem induction {motive : Handler σ → Prop}
    (nested : ∀ group traits handlers, (∀ handler ∈ handlers, motive handler) →
      motive (.nested group traits handlers))
    (checked : ∀ callback target, motive (.checked callback target))
    (unchecked : ∀ callback target, motive (.unchecked callback target))
    (handler : Handler σ) : motive handler :=
  @Handler.rec σ motive (fun handlers => ∀ handler ∈ handlers, motive handler)
    nested checked unchecked (by simp)
    (fun _ _ first rest => List.forall_mem_cons.2 ⟨first, rest⟩) handler

mutual

def ops : Handler σ → List (Op σ)
  | .nested _ _ handlers => opsAll handlers
  | .checked callback target => [⟨callback, target⟩]
  | .unchecked callback target => [⟨callback.map .ok, target⟩]

def opsAll : List (Handler σ) → List (Op σ)
  | [] => []
  | handler :: rest => handler.ops ++ opsAll rest

end

theorem interpretAll_eq_ops_of_forall {handlers : List (Handler σ)}
    (each : ∀ handler ∈ handlers, ∀ walk, handler.interpret walk = Op.interpretAll handler.ops walk)
    (walk : Walk σ) : interpretAll handlers walk = Op.interpretAll (opsAll handlers) walk := by
  induction handlers generalizing walk with
  | nil => rfl
  | cons handler rest ih =>
      obtain ⟨here, later⟩ := List.forall_mem_cons.1 each
      simp only [interpretAll, opsAll, Op.interpretAll_append, here walk]
      rcases Op.interpretAll handler.ops walk with ⟨_ | fault, after⟩
      · exact ih later after
      · rfl

/-- Running a handler is running its calls. -/
theorem interpret_eq_ops (handler : Handler σ) (walk : Walk σ) :
    handler.interpret walk = Op.interpretAll handler.ops walk := by
  induction handler using Handler.induction generalizing walk with
  | nested group traits handlers ih =>
      simp only [interpret, ops]
      exact interpretAll_eq_ops_of_forall ih walk
  | checked callback target =>
      simp only [interpret, ops, Op.interpretAll, Op.interpret]
      rcases callback.perform none walk with ⟨fault | value, after⟩ <;> rfl
  | unchecked callback target =>
      simp only [interpret, ops, Op.interpretAll, Op.interpret, Callback.perform_map]

theorem interpretAll_eq_ops (handlers : List (Handler σ)) (walk : Walk σ) :
    interpretAll handlers walk = Op.interpretAll (opsAll handlers) walk :=
  interpretAll_eq_ops_of_forall (fun handler _ => handler.interpret_eq_ops) walk

/-- Handlers may stop exactly when one of their calls may, if this is so for
each of them. -/
theorem suspends_jointTraits_of_forall {handlers : List (Handler σ)}
    (each : ∀ handler ∈ handlers, handler.traits.suspends = handler.ops.any Op.suspends) :
    (jointTraits handlers).suspends = (opsAll handlers).any Op.suspends := by
  induction handlers with
  | nil => rfl
  | cons handler rest ih =>
      obtain ⟨here, later⟩ := List.forall_mem_cons.1 each
      have rest := ih later
      simp only [jointTraits] at rest
      simp [jointTraits, opsAll, here, rest]

/-- A handler may stop exactly when one of its calls may. -/
theorem suspends_traits {handler : Handler σ} (sound : handler.Sound) :
    handler.traits.suspends = handler.ops.any Op.suspends := by
  induction handler using Handler.induction with
  | nested group traits handlers ih =>
      simp only [Sound] at sound
      obtain ⟨noted, inner⟩ := sound
      simp only [Handler.traits, ops, noted]
      exact suspends_jointTraits_of_forall fun handler mem =>
        ih handler mem (allSound_iff.1 inner handler mem)
  | checked callback target => simp [Handler.traits, ops, Op.suspends]
  | unchecked callback target => simp [Handler.traits, ops, Op.suspends]

theorem suspends_jointTraits {handlers : List (Handler σ)} (sound : AllSound handlers) :
    (jointTraits handlers).suspends = (opsAll handlers).any Op.suspends :=
  suspends_jointTraits_of_forall fun handler mem =>
    suspends_traits (allSound_iff.1 sound handler mem)

end Handler

/-- What the numbers of groups and of fault tables stand for. -/
structure Directory (σ : Type) where
  groups : Nat → List (Handler σ)
  faults : Nat → List (FaultKind × Terminal σ)

namespace Directory

mutual

/-- The directory lists every group that is nested in the handler. -/
def Lists (directory : Directory σ) : Handler σ → Prop
  | .nested group _ handlers => directory.groups group = handlers ∧ ListsAll directory handlers
  | .checked _ _ => True
  | .unchecked _ _ => True

def ListsAll (directory : Directory σ) : List (Handler σ) → Prop
  | [] => True
  | handler :: rest => directory.Lists handler ∧ ListsAll directory rest

end

theorem listsAll_iff {directory : Directory σ} {handlers : List (Handler σ)} :
    directory.ListsAll handlers ↔ ∀ handler ∈ handlers, directory.Lists handler := by
  induction handlers with
  | nil => simp [ListsAll]
  | cons handler rest ih => simp [ListsAll, ih]

/-- The directory lists a group and every group that is nested in it. -/
def ListsGroup (directory : Directory σ) (group : Group σ) : Prop :=
  directory.groups group.id = group.handlers ∧ directory.ListsAll group.handlers

end Directory

namespace SoundHandler

/-- The handler calls a function, or stands for one of the groups. -/
def Uses (groups : List (Group σ)) (handler : SoundHandler σ) : Prop :=
  match handler.handler with
  | .nested id _ handlers => ∃ group ∈ groups, group.id = id ∧ group.handlers = handlers
  | .checked _ _ => True
  | .unchecked _ _ => True

theorem uses_ofGroup {groups : List (Group σ)} {group : Group σ} (mem : group ∈ groups) :
    (ofGroup group).Uses groups := ⟨group, mem, rfl, rfl⟩

end SoundHandler

/-- Groups as they are made one after the other: each takes the next number, and
nests only groups that were made before it. -/
inductive Group.Made : List (Group σ) → Prop
  | none : Made []
  | more {groups : List (Group σ)} (made : Made groups) (handlers : List (SoundHandler σ))
      (uses : ∀ handler ∈ handlers, handler.Uses groups) :
      Made (groups ++ [.ofHandlers groups.length handlers])

/-- Making groups one after the other leaves a directory of them: the number of
a group is its place. -/
theorem Directory.listsGroup_of_made {groups all : List (Group σ)} (made : Group.Made groups)
    (early : groups <+: all) {directory : Directory σ}
    (known : ∀ id, directory.groups id = ((all[id]?).map Group.handlers).getD []) :
    ∀ group ∈ groups, directory.ListsGroup group := by
  induction made with
  | none => simp
  | @more groups made handlers uses ih =>
      have before := ih ((List.prefix_append _ _).trans early)
      intro group mem
      rcases List.mem_append.1 mem with old | new
      · exact before group old
      · obtain rfl := List.mem_singleton.1 new
        refine ⟨?_, Directory.listsAll_iff.2 ?_⟩
        · obtain ⟨later, rfl⟩ := early
          simp [known, Group.ofHandlers]
        · intro handler inside
          obtain ⟨source, used, rfl⟩ := List.mem_map.1 inside
          have uses := uses source used
          obtain ⟨handler, sound⟩ := source
          cases handler with
          | nested id traits inner =>
              obtain ⟨group, mem, rfl, rfl⟩ := uses
              exact before group mem
          | checked callback target => trivial
          | unchecked callback target => trivial

/-- The fragment is the compiled form of these handlers. -/
structure Fragment.Represents (fragment : Fragment σ) (handlers : List (Handler σ)) : Prop where
  ops : fragment.ops = Handler.opsAll handlers
  deferred : fragment.deferred = (Handler.jointTraits handlers).suspends
  needsContext : fragment.needsContext = (Handler.jointTraits handlers).needsContext

/-- Every compiled group is the compiled form of what its number stands for. -/
def FragmentCache.Faithful (cache : FragmentCache σ) (directory : Directory σ) : Prop :=
  ∀ fragment ∈ cache.fragments, fragment.Represents (directory.groups fragment.group)

namespace Draft

@[simp] theorem ops_derive (draft : Draft σ) : draft.derive.ops = [] := rfl

@[simp] theorem ops_emit_op (draft : Draft σ) (op : Op σ) (line : Listing) :
    (draft.emit (.op op) line).ops = draft.ops ++ [op] := by
  simp [emit, ops]

@[simp] theorem ops_splice (draft : Draft σ) (added : List (Op σ)) :
    (draft.splice added).ops = draft.ops ++ added := by
  simp only [splice, ops, List.filterMap_append, List.filterMap_map]
  exact congrArg _ (List.filterMap_some)

@[simp] theorem ops_note (draft : Draft σ) (line : Listing) : (draft.note line).ops = draft.ops :=
  rfl

@[simp] theorem ops_assign (draft : Draft σ) (binding : Option Nat) :
    (draft.assign binding).ops = draft.ops := rfl

@[simp] theorem ops_bind (draft : Draft σ) : draft.bind.2.ops = draft.ops := rfl

@[simp] theorem ops_callText {α : Type} (draft : Draft σ) (callback : Callback σ α) :
    (draft.callText callback).2.ops = draft.ops := rfl

variable {directory : Directory σ} {draft : Draft σ} {group : Nat} {traits : Traits}
  {handlers : Nat} {build : Draft σ → Draft σ}

/-- Compiling a group leaves the elements and the flags of the route's draft. -/
@[simp] theorem items_compiledGroup :
    (draft.compiledGroup group traits handlers build).2.items = draft.items := by
  rw [compiledGroup]
  split <;> rfl

@[simp] theorem scopeOpen_compiledGroup :
    (draft.compiledGroup group traits handlers build).2.scopeOpen = draft.scopeOpen := by
  rw [compiledGroup]
  split <;> rfl

@[simp] theorem contextReady_compiledGroup :
    (draft.compiledGroup group traits handlers build).2.contextReady = draft.contextReady := by
  rw [compiledGroup]
  split <;> rfl

/-- A compiled group bears the number of the group, also if it was in the cache. -/
theorem group_compiledGroup :
    (draft.compiledGroup group traits handlers build).1.group = group := by
  rw [compiledGroup]
  cases found : draft.tables.cache.find? group with
  | some fragment => simpa using List.find?_some found
  | none => rfl

/-- A group from the cache represents its handlers because the cache is
faithful, and a new one because building it adds their calls. -/
theorem represents_compiledGroup (faithful : draft.tables.cache.Faithful directory)
    (noted : traits = Handler.jointTraits (directory.groups group))
    (builds : ∀ child : Draft σ, child.tables.cache.Faithful directory →
      (build child).ops = child.ops ++ Handler.opsAll (directory.groups group) ∧
        (build child).tables.cache.Faithful directory) :
    (draft.compiledGroup group traits handlers build).1.Represents (directory.groups group) ∧
      (draft.compiledGroup group traits handlers build).2.tables.cache.Faithful directory := by
  rw [compiledGroup]
  cases found : draft.tables.cache.find? group with
  | some fragment =>
      have mem := List.mem_of_find?_eq_some found
      have number : fragment.group = group := by simpa using List.find?_some found
      refine ⟨?_, faithful⟩
      rw [← number]
      exact faithful fragment mem
  | none =>
      obtain ⟨ops, kept⟩ := builds draft.derive faithful
      have built : Fragment.Represents
          { group
            ops := (build draft.derive).ops
            deferred := traits.suspends
            needsContext := traits.needsContext
            listing := Listing.unlines (build draft.derive).lines
            bindings := (build draft.derive).bindings } (directory.groups group) :=
        ⟨ops, by rw [noted], by rw [noted]⟩
      refine ⟨built, ?_⟩
      intro fragment mem
      rcases List.mem_append.1 mem with old | new
      · exact kept fragment old
      · rw [List.mem_singleton.1 new]
        exact built

end Draft

namespace Handler

variable {directory : Directory σ}

theorem ops_compileAll_of_forall {handlers : List (Handler σ)}
    (each : ∀ handler ∈ handlers, ∀ draft : Draft σ, draft.tables.cache.Faithful directory →
      (handler.compile draft).ops = draft.ops ++ handler.ops ∧
        (handler.compile draft).tables.cache.Faithful directory)
    (draft : Draft σ) (faithful : draft.tables.cache.Faithful directory) :
    (compileAll handlers draft).ops = draft.ops ++ opsAll handlers ∧
      (compileAll handlers draft).tables.cache.Faithful directory := by
  induction handlers generalizing draft with
  | nil => simpa [compileAll, opsAll] using faithful
  | cons handler rest ih =>
      obtain ⟨here, later⟩ := List.forall_mem_cons.1 each
      obtain ⟨ops, kept⟩ := here draft faithful
      obtain ⟨ops', kept'⟩ := ih later (handler.compile draft) kept
      refine ⟨?_, kept'⟩
      simp only [compileAll, opsAll, ops', ops, List.append_assoc]

/-- Compiling a handler adds its calls to the draft and keeps the cache faithful. -/
theorem ops_compile {handler : Handler σ} (listed : directory.Lists handler)
    (sound : handler.Sound) (draft : Draft σ) (faithful : draft.tables.cache.Faithful directory) :
    (handler.compile draft).ops = draft.ops ++ handler.ops ∧
      (handler.compile draft).tables.cache.Faithful directory := by
  induction handler using Handler.induction generalizing draft with
  | nested group traits handlers ih =>
      simp only [Directory.Lists] at listed
      simp only [Sound] at sound
      obtain ⟨known, inner⟩ := listed
      obtain ⟨noted, innerSound⟩ := sound
      subst known
      have builds := ops_compileAll_of_forall fun handler mem =>
        ih handler mem (Directory.listsAll_iff.1 inner handler mem)
          (allSound_iff.1 innerSound handler mem)
      obtain ⟨represents, kept⟩ := Draft.represents_compiledGroup faithful noted builds
      refine ⟨?_, kept⟩
      simp only [compile, Draft.ops_assign, Draft.ops_note, Draft.ops_splice, represents.ops, ops]
      rw [Draft.ops, Draft.items_compiledGroup, ← Draft.ops]
  | checked callback target => exact ⟨by simp [compile, ops], faithful⟩
  | unchecked callback target => exact ⟨by simp [compile, ops], faithful⟩

end Handler

/-- Compiling a group of the directory gives its compiled form and keeps the
cache faithful. -/
theorem Group.represents_compile {directory : Directory σ} {group : Group σ}
    (listed : directory.ListsGroup group) {draft : Draft σ}
    (faithful : draft.tables.cache.Faithful directory) :
    (group.compile draft).1.Represents group.handlers ∧
      (group.compile draft).2.tables.cache.Faithful directory := by
  obtain ⟨known, inner⟩ := listed
  have noted : group.traits = Handler.jointTraits (directory.groups group.id) := by
    rw [known]
    exact group.traits_eq
  have builds : ∀ child : Draft σ, child.tables.cache.Faithful directory →
      (Handler.compileAll group.handlers child).ops =
          child.ops ++ Handler.opsAll (directory.groups group.id) ∧
        (Handler.compileAll group.handlers child).tables.cache.Faithful directory := by
    rw [known]
    exact Handler.ops_compileAll_of_forall fun handler mem =>
      Handler.ops_compile (Directory.listsAll_iff.1 inner handler mem)
        (Handler.allSound_iff.1 group.sound handler mem)
  rw [← known]
  exact Draft.represents_compiledGroup faithful noted builds

end RouteTree
