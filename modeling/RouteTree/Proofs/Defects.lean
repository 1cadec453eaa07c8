import RouteTree.Proofs.Registration
import RouteTree.Proofs.Routing

/-!
# Which trees compile

A tree with a route compiles exactly if all paths can be read, no two routes
have the same method and path, and its table of faults binds only kinds of its
own, each once. The table is looked at when a route is compiled and at no other
time, so a tree without routes compiles whatever its table holds.
-/

namespace RouteTree

open Http

variable {σ : Type}

namespace FaultTable

/-- The entries bind kinds of the registry, each once. -/
structure Sound (registry : FaultRegistry) (entries : List (FaultKind × Terminal σ)) : Prop where
  owned : ∀ entry ∈ entries, registry.owns entry.1 = true
  once : (entries.map fun entry => entry.1.id).Nodup

theorem sound_cons {registry : FaultRegistry} {entry : FaultKind × Terminal σ}
    {rest : List (FaultKind × Terminal σ)} :
    Sound registry (entry :: rest) ↔
      registry.owns entry.1 = true ∧ Sound registry rest ∧
        ∀ other ∈ rest, other.1.id ≠ entry.1.id := by
  constructor
  · rintro ⟨owned, once⟩
    obtain ⟨fresh, once⟩ := List.nodup_cons.1 once
    obtain ⟨here, later⟩ := List.forall_mem_cons.1 owned
    refine ⟨here, ⟨later, once⟩, ?_⟩
    intro other mem same
    exact fresh (List.mem_map.2 ⟨other, mem, same⟩)
  · rintro ⟨here, ⟨later, once⟩, fresh⟩
    refine ⟨List.forall_mem_cons.2 ⟨here, later⟩, List.nodup_cons.2 ⟨?_, once⟩⟩
    intro met
    obtain ⟨other, mem, same⟩ := List.mem_map.1 met
    exact fresh other mem same

/-- Entries compile exactly if they are sound and bind none of the numbers seen
before. -/
theorem compileEntries_ok_iff {registry : FaultRegistry} {unhandled : Response}
    {entries : List (FaultKind × Terminal σ)} {seen : List Nat} {values : ValueTable} :
    (∃ branches, (compileEntries registry unhandled seen entries values).1 = .ok branches) ↔
      Sound registry entries ∧ ∀ entry ∈ entries, entry.1.id ∉ seen := by
  induction entries generalizing seen values with
  | nil =>
      have empty : Sound registry ([] : List (FaultKind × Terminal σ)) := ⟨by simp, by simp⟩
      simp [compileEntries, empty]
  | cons entry rest ih =>
      obtain ⟨kind, terminal⟩ := entry
      rw [sound_cons, List.forall_mem_cons]
      by_cases owned : registry.owns kind = true
      · by_cases met : kind.id ∈ seen
        · simp [compileEntries, owned, met]
        · have later := @ih (kind.id :: seen) (BuiltBranch.build kind terminal unhandled values).2
          -- For the rest, the number of this entry is one of those seen before.
          have moved : (registry.owns kind = true ∧ Sound registry rest ∧
                ∀ other ∈ rest, other.1.id ≠ kind.id) ∧
                kind.id ∉ seen ∧ (∀ other ∈ rest, other.1.id ∉ seen) ↔
              Sound registry rest ∧ ∀ other ∈ rest, other.1.id ∉ kind.id :: seen := by
            simp only [List.mem_cons, not_or, imp_and, forall_and]
            tauto
          rw [moved, ← later]
          simp only [compileEntries, owned, met, List.contains_iff_mem, Bool.not_true,
            Bool.false_eq_true, if_false]
          generalize compileEntries registry unhandled (kind.id :: seen) rest
            (BuiltBranch.build kind terminal unhandled values).2 = out
          obtain ⟨defect | branches, after⟩ := out <;> simp
      · simp [compileEntries, owned]

theorem compile_ok_iff {table : FaultTable σ} {registry : FaultRegistry} {unhandled : Response}
    {values : ValueTable} :
    (∃ built, (table.compile registry unhandled values).1 = .ok built) ↔
      Sound registry table.entries := by
  have entries := @compileEntries_ok_iff σ registry unhandled table.entries [] values
  simp only [List.not_mem_nil, not_false_eq_true, implies_true, and_true] at entries
  rw [← entries]
  rw [compile]
  generalize compileEntries registry unhandled [] table.entries values = out
  obtain ⟨defect | branches, after⟩ := out
  · simp
  · simp

end FaultTable

namespace Compiler

variable {compiler : Compiler σ} {registry : FaultRegistry}
  {entries : List (FaultKind × Terminal σ)}

/-- A compiler for this registry that keeps a compiled table only if these
entries are sound. -/
structure Vetted (compiler : Compiler σ) (registry : FaultRegistry)
    (entries : List (FaultKind × Terminal σ)) : Prop where
  owner : compiler.registry = registry
  switches : ∀ entry ∈ compiler.switches, FaultTable.Sound registry entries

theorem vetted_new (unhandled : Response) :
    (new registry unhandled : Compiler σ).Vetted registry entries :=
  ⟨rfl, by simp [new]⟩

/-- A table is given exactly if it is sound, even if it is not compiled anew. -/
theorem compileFaults_ok_iff {table : FaultTable σ}
    (vetted : compiler.Vetted registry table.entries) :
    ((∃ built, (compiler.compileFaults table).1 = .ok built) ↔
        FaultTable.Sound registry table.entries) ∧
      (compiler.compileFaults table).2.Vetted registry table.entries := by
  obtain ⟨rfl, switches⟩ := vetted
  rw [compileFaults]
  cases found : compiler.switch? table.id with
  | some built =>
      obtain ⟨entry, first, rfl⟩ := Option.map_eq_some_iff.1 found
      have sound := switches entry (List.mem_of_find?_eq_some first)
      exact ⟨⟨fun _ => sound, fun _ => ⟨_, rfl⟩⟩, rfl, switches⟩
  | none =>
      have checked := @FaultTable.compile_ok_iff σ table compiler.registry compiler.unhandled
        compiler.tables.values
      rw [← checked]
      simp only
      generalize table.compile compiler.registry compiler.unhandled compiler.tables.values = out
        at checked ⊢
      obtain ⟨defect | built, values⟩ := out
      · exact ⟨by simp, rfl, switches⟩
      · exact ⟨by simp, rfl, fun _ _ => checked.1 ⟨built, rfl⟩⟩

theorem compile_ok_iff {plan : RoutePlan σ} {parameterized : Bool}
    (vetted : compiler.Vetted registry plan.faults.entries) :
    ((∃ chain, (compiler.compile plan parameterized).1 = .ok chain) ↔
        FaultTable.Sound registry plan.faults.entries) ∧
      (compiler.compile plan parameterized).2.Vetted registry plan.faults.entries := by
  obtain ⟨checked, kept⟩ := compileFaults_ok_iff vetted
  rw [← checked]
  rw [compile]
  generalize compiler.compileFaults plan.faults = out at kept ⊢
  obtain ⟨defect | built, after⟩ := out
  · exact ⟨by simp, kept⟩
  · exact ⟨by simp, kept.owner, kept.switches⟩

end Compiler

namespace Tree

variable {tree : Tree σ} {registration : Registration σ} {compiler : Compiler σ}
  {router : Router (Chain σ)}

/-- A route is added exactly if its path can be read, the table of faults is
sound, and its method and path are new. -/
theorem CompilesRoute.ok_iff {out : Except Defect (Router (Chain σ)) × Compiler σ}
    (compiles : tree.CompilesRoute registration compiler router out)
    (vetted : compiler.Vetted tree.registry tree.faults) (filed : router.Filed) :
    (∃ next, out.1 = .ok next) ↔
      (∃ pattern, Pattern.parse registration.path = .ok pattern) ∧
        FaultTable.Sound tree.registry tree.faults ∧
        ¬ router.Has registration.method registration.path := by
  have checked (parameterized : Bool) :
      (∃ chain, (compiler.compile (tree.plan registration) parameterized).1 = .ok chain) ↔
        FaultTable.Sound tree.registry tree.faults :=
    (Compiler.compile_ok_iff vetted).1
  cases compiles with
  | invalidPath read => simp [read]
  | rejected read compiled =>
      have unsound : ¬ FaultTable.Sound tree.registry tree.faults := by
        rw [← checked, compiled]
        rintro ⟨chain, ⟨⟩⟩
      simp [unsound]
  | @duplicate pattern chain after events read compiled refused =>
      have there : ¬ ¬ router.Has registration.method registration.path := by
        rw [← Router.insert_fst filed registration.method read chain, refused]
        exact nofun
      simp [there]
  | @added pattern chain after events read compiled accepted =>
      have sound : FaultTable.Sound tree.registry tree.faults := by
        rw [← checked, compiled]
        exact ⟨chain, rfl⟩
      have fresh := (Router.insert_fst filed registration.method read chain).1 accepted
      simp [read, sound, fresh]

/-- What holds before a route is added holds after it, and only its method and
path are new in the router. -/
theorem CompilesRoute.kept {next : Router (Chain σ)} {after : Compiler σ}
    (compiles : tree.CompilesRoute registration compiler router (.ok next, after))
    (vetted : compiler.Vetted tree.registry tree.faults) (filed : router.Filed) :
    after.Vetted tree.registry tree.faults ∧ next.Filed ∧
      ∀ method path, next.Has method path ↔
        (method = registration.method ∧ path = registration.path) ∨ router.Has method path := by
  cases compiles with
  | @added pattern chain between events read compiled accepted =>
      have kept : (compiler.compile (tree.plan registration) (!pattern.isStatic)).2.Vetted
          tree.registry tree.faults := (Compiler.compile_ok_iff vetted).2
      rw [compiled] at kept
      exact ⟨⟨kept.owner, kept.switches⟩, filed.insert registration.method read chain,
        Router.has_insert read accepted⟩

def key (registration : Registration σ) : Method × String :=
  (registration.method, registration.path)

/-- Routes compile exactly if all paths can be read, the table of faults is
sound unless there is no route, and all methods and paths are new. -/
theorem compileRoutes_ok_iff {routes : List (Registration σ)}
    (vetted : compiler.Vetted tree.registry tree.faults) (filed : router.Filed) :
    (∃ after, (tree.compileRoutes routes compiler router).1 = .ok after) ↔
      (∀ registration ∈ routes, ∃ pattern, Pattern.parse registration.path = .ok pattern) ∧
        (routes = [] ∨ FaultTable.Sound tree.registry tree.faults) ∧
        (routes.map key).Nodup ∧
        ∀ registration ∈ routes, ¬ router.Has registration.method registration.path := by
  induction routes generalizing compiler router with
  | nil => simp [compileRoutes]
  | cons registration rest ih =>
      have compiles := tree.compilesRoute registration compiler router
      have added := compiles.ok_iff vetted filed
      simp only [compileRoutes]
      generalize tree.compileRoute registration compiler router = out at compiles added ⊢
      obtain ⟨defect | next, after⟩ := out
      · -- This route has a defect, so the routes are not as they should be.
        constructor
        · rintro ⟨after, ⟨⟩⟩
        · rintro ⟨reads, sound, _, fresh⟩
          obtain ⟨next, ⟨⟩⟩ := added.2 ⟨reads registration List.mem_cons_self,
            sound.resolve_left (by simp), fresh registration List.mem_cons_self⟩
      · obtain ⟨reads, sound, fresh⟩ := added.1 ⟨next, rfl⟩
        obtain ⟨vetted, filed, has⟩ := compiles.kept vetted filed
        have unlike : key registration ∉ rest.map key ↔ ∀ other ∈ rest,
            ¬ (other.method = registration.method ∧ other.path = registration.path) := by
          simp [key]
        simp only [ih vetted filed, has, not_or, imp_and, forall_and, List.forall_mem_cons,
          List.map_cons, List.nodup_cons, unlike]
        tauto

theorem compile_ok_iff : (∃ dispatcher, tree.compile.result = .ok dispatcher) ↔
    ∃ router, (tree.compileRoutes tree.routes tree.compiler .empty).1 = .ok router := by
  rw [compile]
  generalize tree.compileRoutes tree.routes tree.compiler .empty = out
  obtain ⟨defect | router, compiler⟩ := out <;> simp

/-- A tree with a route compiles only if its table of faults is sound. -/
theorem sound_of_compile {dispatcher : Dispatcher σ}
    (compiled : tree.compile.result = .ok dispatcher)
    (nonempty : tree.routes ≠ []) : FaultTable.Sound tree.registry tree.faults := by
  have vetted : tree.compiler.Vetted tree.registry tree.faults := Compiler.vetted_new _
  have checked := (compileRoutes_ok_iff vetted Router.filed_empty).1
    (compile_ok_iff.1 ⟨dispatcher, compiled⟩)
  exact checked.2.1.resolve_left nonempty

/-- A tree that was put together by any registrations in any order, with the
kinds of fault that its registry has issued. A kind that is bound is one of them
or comes from another registry. -/
inductive Built : Tree σ → List FaultKind → Prop
  | new (settings : Settings) (id : Nat) : Built (.new settings { id }) []
  | use {tree : Tree σ} {issued : List FaultKind} (built : Built tree issued) (group : Group σ) :
      Built (tree.use group) issued
  | route {tree : Tree σ} {issued : List FaultKind} (built : Built tree issued) (method : Method)
      (path : String) (terminal : Terminal σ) : Built (tree.route method path terminal) issued
  | declare {tree : Tree σ} {issued : List FaultKind} (built : Built tree issued)
      (dynamic : Bool) :
      Built (tree.declare dynamic).2 (issued ++ [(tree.declare dynamic).1])
  | answer {tree : Tree σ} {issued : List FaultKind} (built : Built tree issued)
      {kind : FaultKind} (genuine : kind ∈ issued ∨ kind.registry ≠ tree.registry.id)
      (terminal : Terminal σ) : Built (tree.answer kind terminal) issued

namespace Built

variable {issued : List FaultKind}

/-- The registry owns what it has issued. -/
theorem owns (built : Built tree issued) : ∀ kind ∈ issued, tree.registry.owns kind = true := by
  induction built with
  | new => simp
  | use _ _ ih => exact ih
  | route _ _ _ _ ih => exact ih
  | answer _ _ _ ih => exact ih
  | @declare tree issued built dynamic ih =>
      refine List.forall_mem_append.2 ⟨?_, ?_⟩
      · intro kind mem
        have earlier := ih kind mem
        simp only [FaultRegistry.owns, Bool.and_eq_true, decide_eq_true_eq] at earlier ⊢
        exact ⟨earlier.1, Nat.lt_succ_of_lt earlier.2⟩
      · exact List.forall_mem_singleton.2 (tree.registry.owns_declare dynamic)

/-- A bound kind that bears the number of the registry was issued by it. -/
theorem genuine (built : Built tree issued) :
    ∀ entry ∈ tree.faults, entry.1 ∈ issued ∨ entry.1.registry ≠ tree.registry.id := by
  induction built with
  | new => simp [Tree.new]
  | use _ _ ih => exact ih
  | route _ _ _ _ ih => exact ih
  | declare _ _ ih =>
      intro entry mem
      rcases ih entry mem with earlier | foreign
      · exact .inl (List.mem_append_left _ earlier)
      · exact .inr foreign
  | answer _ genuine _ ih =>
      exact List.forall_mem_append.2 ⟨ih, List.forall_mem_singleton.2 genuine⟩

/-- The registry owns exactly those bound kinds that it has issued. -/
theorem owns_iff (built : Built tree issued) {entry : FaultKind × Terminal σ}
    (mem : entry ∈ tree.faults) : tree.registry.owns entry.1 = true ↔ entry.1 ∈ issued := by
  constructor
  · intro owned
    simp only [FaultRegistry.owns, Bool.and_eq_true, decide_eq_true_eq] at owned
    rcases built.genuine entry mem with issued | foreign
    · exact issued
    · exact absurd owned.1 foreign
  · exact built.owns entry.1

end Built

/-- Which trees compile. However a tree was put together, it compiles exactly if
every path can be read, no two routes have the same method and path, and, unless
there is no route at all, every bound kind of fault was issued by the tree's own
registry and no number is bound twice. -/
theorem compiles_iff {issued : List FaultKind} (built : Built tree issued) :
    (∃ dispatcher, tree.compile.result = .ok dispatcher) ↔
      (∀ registration ∈ tree.routes, ∃ pattern, Pattern.parse registration.path = .ok pattern) ∧
        (tree.routes.map key).Nodup ∧
        (tree.routes = [] ∨
          (∀ entry ∈ tree.faults, entry.1 ∈ issued) ∧
            (tree.faults.map fun entry => entry.1.id).Nodup) := by
  have sound : FaultTable.Sound tree.registry tree.faults ↔
      (∀ entry ∈ tree.faults, entry.1 ∈ issued) ∧
        (tree.faults.map fun entry => entry.1.id).Nodup := by
    constructor
    · rintro ⟨owned, once⟩
      exact ⟨fun entry mem => (built.owns_iff mem).1 (owned entry mem), once⟩
    · rintro ⟨own, once⟩
      exact ⟨fun entry mem => (built.owns_iff mem).2 (own entry mem), once⟩
  have vetted : tree.compiler.Vetted tree.registry tree.faults := Compiler.vetted_new _
  rw [compile_ok_iff, compileRoutes_ok_iff vetted Router.filed_empty, sound]
  simp only [Router.not_has_empty, not_false_eq_true, implies_true, and_true]
  tauto

/-- A tree with a route that binds a kind of another registry does not compile,
although the kind bears the number of one of its own. -/
theorem not_compiles_of_foreign_kind :
    ¬ ∃ dispatcher, ((((new {} { id := 0 } : Tree Nat).declare true).2.answer ⟨0, 1, true⟩
      (.fixed {})).route ⟨"GET"⟩ "/" (.fixed {})).compile.result = .ok dispatcher := by
  have built : Built ((((new {} { id := 0 } : Tree Nat).declare true).2.answer ⟨0, 1, true⟩
      (.fixed {})).route ⟨"GET"⟩ "/" (.fixed {})) [⟨0, 0, true⟩] :=
    (((Built.new {} 0).declare true).answer (.inr (by decide)) _).route _ _ _
  rw [compiles_iff built]
  rintro ⟨_, _, none | ⟨own, _⟩⟩
  · cases none
  · have issued := own (⟨0, 1, true⟩, .fixed {}) (List.mem_singleton.2 rfl)
    cases List.mem_singleton.1 issued

/-- A tree without routes compiles although its table binds a kind twice. -/
theorem compiles_with_doubled_kind : ∃ (tree : Tree Nat) (issued : List FaultKind),
    tree.Built issued ∧ ¬ (tree.faults.map fun entry => entry.1.id).Nodup ∧
      ∃ dispatcher, tree.compile.result = .ok dispatcher := by
  have declared : Built ((new {} { id := 0 } : Tree Nat).declare false).2 [⟨0, 0, false⟩] :=
    (Built.new {} 0).declare false
  have doubled := (declared.answer (.inl (List.mem_singleton.2 rfl)) (.fixed {})).answer
    (.inl (List.mem_singleton.2 rfl)) (.fixed {})
  exact ⟨_, _, doubled, by decide, _, rfl⟩

end Tree

end RouteTree
