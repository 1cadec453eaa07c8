import Mathlib.Data.List.Forall2
import RouteTree.Proofs.Fragments

/-!
# What a group holds

A group nests other groups, which nest others in turn. Its leaves are the
handlers that call a function, depth first and in order; every leaf becomes one
call. The traits that were noted for a group are those of its leaves. The
numbers of the groups inside a group are all those that are met on the way to the
leaves.
-/

namespace RouteTree

variable {σ : Type}

namespace Handler

mutual

/-- The handlers inside a handler that call a function, depth first. -/
def leaves : Handler σ → List (Handler σ)
  | .nested _ _ handlers => leavesAll handlers
  | .checked callback target => [.checked callback target]
  | .unchecked callback target => [.unchecked callback target]

def leavesAll : List (Handler σ) → List (Handler σ)
  | [] => []
  | handler :: rest => handler.leaves ++ leavesAll rest

end

mutual

/-- The numbers of the groups inside a handler, at any depth. -/
def inner : Handler σ → List Nat
  | .nested group _ handlers => group :: innerAll handlers
  | .checked _ _ => []
  | .unchecked _ _ => []

def innerAll : List (Handler σ) → List Nat
  | [] => []
  | handler :: rest => handler.inner ++ innerAll rest

end

def isNested : Handler σ → Bool
  | .nested _ _ _ => true
  | .checked _ _ => false
  | .unchecked _ _ => false

/-- The call that a leaf becomes. A nested group is no leaf. -/
inductive Becomes : Handler σ → Op σ → Prop
  | checked (callback : Callback σ (Except Fault Json)) (target : Option Location) :
      Becomes (.checked callback target) ⟨callback, target⟩
  | unchecked (callback : Callback σ Json) (target : Option Location) :
      Becomes (.unchecked callback target) ⟨callback.map .ok, target⟩

theorem Becomes.traits {leaf : Handler σ} {op : Op σ} (becomes : leaf.Becomes op) :
    leaf.traits = ⟨op.suspends, op.needsContext⟩ := by
  cases becomes with
  | checked callback target => rfl
  | unchecked callback target => simp [Handler.traits, Op.suspends, Op.needsContext]

/-! ## Leaves -/

theorem becomes_leavesAll_of_forall {handlers : List (Handler σ)}
    (each : ∀ handler ∈ handlers, List.Forall₂ Becomes handler.leaves handler.ops) :
    List.Forall₂ Becomes (leavesAll handlers) (opsAll handlers) := by
  induction handlers with
  | nil => exact .nil
  | cons handler rest ih =>
      obtain ⟨here, later⟩ := List.forall_mem_cons.1 each
      exact List.rel_append here (ih later)

theorem becomes_leaves (handler : Handler σ) :
    List.Forall₂ Becomes handler.leaves handler.ops := by
  induction handler using Handler.induction with
  | nested group traits handlers ih =>
      simp only [leaves, ops]
      exact becomes_leavesAll_of_forall ih
  | checked callback target => exact .cons (.checked callback target) .nil
  | unchecked callback target => exact .cons (.unchecked callback target) .nil

/-- The leaves of handlers become their calls, one each and in order. -/
theorem becomes_leavesAll (handlers : List (Handler σ)) :
    List.Forall₂ Becomes (leavesAll handlers) (opsAll handlers) :=
  becomes_leavesAll_of_forall fun handler _ => handler.becomes_leaves

theorem jointTraits_append (first second : List (Handler σ)) :
    jointTraits (first ++ second) =
      ⟨(jointTraits first).suspends || (jointTraits second).suspends,
        (jointTraits first).needsContext || (jointTraits second).needsContext⟩ := by
  simp [jointTraits]

theorem jointTraits_leavesAll_of_forall {handlers : List (Handler σ)}
    (each : ∀ handler ∈ handlers, handler.traits = jointTraits handler.leaves) :
    jointTraits handlers = jointTraits (leavesAll handlers) := by
  induction handlers with
  | nil => rfl
  | cons handler rest ih =>
      obtain ⟨here, later⟩ := List.forall_mem_cons.1 each
      rw [leavesAll, jointTraits_append, ← ih later, ← here]
      simp [jointTraits]

theorem traits_eq_leaves {handler : Handler σ} (sound : handler.Sound) :
    handler.traits = jointTraits handler.leaves := by
  induction handler using Handler.induction with
  | nested group traits handlers ih =>
      simp only [Sound] at sound
      obtain ⟨noted, inner⟩ := sound
      simp only [Handler.traits, leaves, noted]
      exact jointTraits_leavesAll_of_forall fun handler mem =>
        ih handler mem (allSound_iff.1 inner handler mem)
  | checked callback target => simp [jointTraits, leaves]
  | unchecked callback target => simp [jointTraits, leaves]

/-- The traits noted for handlers are those of their leaves. -/
theorem jointTraits_eq_leaves {handlers : List (Handler σ)} (sound : AllSound handlers) :
    jointTraits handlers = jointTraits (leavesAll handlers) :=
  jointTraits_leavesAll_of_forall fun handler mem =>
    traits_eq_leaves (allSound_iff.1 sound handler mem)

theorem jointTraits_of_becomes {leaves : List (Handler σ)} {ops : List (Op σ)}
    (becomes : List.Forall₂ Becomes leaves ops) :
    jointTraits leaves = ⟨ops.any Op.suspends, ops.any Op.needsContext⟩ := by
  induction becomes with
  | nil => rfl
  | @cons leaf op leaves ops here rest ih =>
      simp only [jointTraits, Traits.mk.injEq] at ih
      simp [jointTraits, here.traits, ih]

/-- The traits noted for handlers are those of the calls they become. -/
theorem jointTraits_eq_ops {handlers : List (Handler σ)} (sound : AllSound handlers) :
    jointTraits handlers =
      ⟨(opsAll handlers).any Op.suspends, (opsAll handlers).any Op.needsContext⟩ := by
  rw [jointTraits_eq_leaves sound, jointTraits_of_becomes (becomes_leavesAll handlers)]

end Handler

namespace Fragment.Represents

variable {fragment : Fragment σ} {handlers : List (Handler σ)}

/-- The compiled form of sound handlers has one call for each leaf. -/
theorem leaves (represents : fragment.Represents handlers) :
    List.Forall₂ Handler.Becomes (Handler.leavesAll handlers) fragment.ops := by
  rw [represents.ops]
  exact Handler.becomes_leavesAll handlers

theorem flags_of_leaves (represents : fragment.Represents handlers)
    (sound : Handler.AllSound handlers) :
    fragment.deferred = (Handler.leavesAll handlers).any (·.traits.suspends) ∧
      fragment.needsContext = (Handler.leavesAll handlers).any (·.traits.needsContext) := by
  rw [represents.deferred, represents.needsContext, Handler.jointTraits_eq_leaves sound]
  exact ⟨rfl, rfl⟩

theorem flags_of_ops (represents : fragment.Represents handlers)
    (sound : Handler.AllSound handlers) :
    fragment.deferred = fragment.ops.any Op.suspends ∧
      fragment.needsContext = fragment.ops.any Op.needsContext := by
  rw [represents.deferred, represents.needsContext, represents.ops,
    Handler.jointTraits_eq_ops sound]
  exact ⟨rfl, rfl⟩

end Fragment.Represents

/-! ## Numbers -/

def Group.numbers (group : Group σ) : List Nat := group.id :: Handler.innerAll group.handlers

namespace Directory

variable {directory : Directory σ}

/-- What the directory says of a group inside other handlers: its handlers are
sound and listed themselves, all that is inside it is inside the others as well, and
there is less of it. -/
structure Contains (directory : Directory σ) (numbers : List Nat) (size : Nat) (id : Nat) :
    Prop where
  sound : Handler.AllSound (directory.groups id)
  listed : directory.ListsAll (directory.groups id)
  inside : Handler.innerAll (directory.groups id) ⊆ numbers
  smaller : sizeOf (directory.groups id) < size

theorem Contains.mono {numbers more : List Nat} {size bound id : Nat}
    (contains : directory.Contains numbers size id) (wider : numbers ⊆ more)
    (larger : size ≤ bound) : directory.Contains more bound id :=
  ⟨contains.sound, contains.listed, List.Subset.trans contains.inside wider,
    Nat.lt_of_lt_of_le contains.smaller larger⟩

theorem contains_innerAll_of_forall {handlers : List (Handler σ)}
    (each : ∀ handler ∈ handlers, ∀ id ∈ handler.inner,
      directory.Contains handler.inner (sizeOf handler) id) :
    ∀ id ∈ Handler.innerAll handlers,
      directory.Contains (Handler.innerAll handlers) (sizeOf handlers) id := by
  induction handlers with
  | nil => simp [Handler.innerAll]
  | cons handler rest ih =>
      obtain ⟨here, later⟩ := List.forall_mem_cons.1 each
      intro id mem
      rcases List.mem_append.1 mem with first | second
      · refine (here id first).mono (List.subset_append_left _ _) ?_
        simp only [List.cons.sizeOf_spec]
        omega
      · refine (ih later id second).mono (List.subset_append_right _ _) ?_
        simp only [List.cons.sizeOf_spec]
        omega

theorem contains_inner {handler : Handler σ} (sound : handler.Sound)
    (listed : directory.Lists handler) :
    ∀ id ∈ handler.inner, directory.Contains handler.inner (sizeOf handler) id := by
  induction handler using Handler.induction with
  | nested group traits handlers ih =>
      simp only [Handler.Sound] at sound
      simp only [Lists] at listed
      obtain ⟨known, listed⟩ := listed
      have within := contains_innerAll_of_forall fun handler mem =>
        ih handler mem (Handler.allSound_iff.1 sound.2 handler mem)
          (listsAll_iff.1 listed handler mem)
      have smaller : sizeOf handlers < sizeOf (Handler.nested group traits handlers) := by
        simp only [Handler.nested.sizeOf_spec]
        omega
      intro id mem
      rcases List.mem_cons.1 mem with rfl | deeper
      · refine ⟨?_, ?_, ?_, ?_⟩
        · exact known ▸ sound.2
        · exact known ▸ listed
        · rw [known]
          exact List.subset_cons_self _ _
        · exact known ▸ smaller
      · exact (within id deeper).mono (List.subset_cons_self _ _) (Nat.le_of_lt smaller)
  | checked callback target => simp [Handler.inner]
  | unchecked callback target => simp [Handler.inner]

/-- What the directory says of the groups inside sound handlers that it lists. -/
theorem contains_innerAll {handlers : List (Handler σ)} (sound : Handler.AllSound handlers)
    (listed : directory.ListsAll handlers) :
    ∀ id ∈ Handler.innerAll handlers,
      directory.Contains (Handler.innerAll handlers) (sizeOf handlers) id :=
  contains_innerAll_of_forall fun handler mem =>
    contains_inner (Handler.allSound_iff.1 sound handler mem) (listsAll_iff.1 listed handler mem)

/-- No group is inside itself. -/
theorem not_mem_innerAll {id : Nat} (sound : Handler.AllSound (directory.groups id))
    (listed : directory.ListsAll (directory.groups id)) :
    id ∉ Handler.innerAll (directory.groups id) := by
  intro mem
  have smaller := (contains_innerAll sound listed id mem).smaller
  exact absurd smaller (Nat.lt_irrefl _)

/-- The handlers of a listed group, and of the groups inside it, are sound and
listed. -/
theorem sound_of_mem_numbers {group : Group σ} (listed : directory.ListsGroup group) {id : Nat}
    (mem : id ∈ group.numbers) :
    Handler.AllSound (directory.groups id) ∧ directory.ListsAll (directory.groups id) := by
  obtain ⟨known, inner⟩ := listed
  rcases List.mem_cons.1 mem with rfl | inside
  · rw [known]
    exact ⟨group.sound, inner⟩
  · have contains := contains_innerAll group.sound inner id inside
    exact ⟨contains.sound, contains.listed⟩

end Directory

end RouteTree
