import RouteTree.Proofs.Placement

/-!
# The chains of a compilation

A compiler that has compiled any routes before, with or without success, gives
for the next route a chain that realizes its plan: the calls of the plan's
groups in order, cut in front of the first group that may stop, with the
endpoint of its terminal and the switch of its own table of faults. This holds
although compiled groups and tables are taken from earlier routes, because the
compiler keeps only what agrees with the directory.
-/

namespace RouteTree

open Http

variable {σ : Type}

namespace RoutePlan

/-- The groups in front of the first one that may stop. -/
def eagerGroups (plan : RoutePlan σ) : List (Group σ) :=
  plan.groups.takeWhile (!·.traits.suspends)

def scopedGroups (plan : RoutePlan σ) : List (Group σ) :=
  plan.groups.dropWhile (!·.traits.suspends)

def deferred (plan : RoutePlan σ) : Bool := plan.groups.any (·.traits.suspends)

end RoutePlan

/-- The chain is a compiled form of the plan. -/
structure Chain.Realizes (chain : Chain σ) (plan : RoutePlan σ) (unhandled : Response) :
    Prop where
  endpoint : chain.endpoint = plan.terminal.endpoint unhandled
  switch : chain.switch = plan.faults.switch unhandled
  eager : chain.eager.flatMap Stage.ops = plan.eagerGroups.flatMap Group.ops
  scope : (chain.scope.getD []).flatMap Stage.ops = plan.scopedGroups.flatMap Group.ops
  deferred : chain.deferred = plan.deferred

/-- The chain is put together from these fragments, cut in front of the first
one that may stop. -/
structure Chain.Joins (chain : Chain σ) (fragments : List (Fragment σ)) (endpoint : Endpoint σ)
    (switch : FaultSwitch σ) : Prop where
  endpoint : chain.endpoint = endpoint
  switch : chain.switch = switch
  eager : chain.eager.flatMap Stage.ops =
    (fragments.takeWhile (!·.deferred)).flatMap Fragment.ops
  scope : (chain.scope.getD []).flatMap Stage.ops =
    (fragments.dropWhile (!·.deferred)).flatMap Fragment.ops
  deferred : chain.deferred = fragments.any Fragment.deferred
  /-- The stages are the fragments as they are placed, and the allocation for the
  endpoint if no fragment had one. -/
  layout : Draft.split (Draft.placed false false fragments ++
    Draft.tail (chain.endpoint.needsContext && !fragments.any Fragment.needsContext)) =
      (chain.eager, chain.scope)

theorem Chain.Joins.stages {chain : Chain σ} {fragments : List (Fragment σ)}
    {endpoint : Endpoint σ} {switch : FaultSwitch σ}
    (joins : chain.Joins fragments endpoint switch) :
    chain.stages.flatMap Stage.ops = fragments.flatMap Fragment.ops := by
  rw [Chain.stages, List.flatMap_append, joins.eager, joins.scope, ← List.flatMap_append,
    List.takeWhile_append_dropWhile]

structure Fragment.FormOf (fragment : Fragment σ) (group : Group σ) : Prop
    extends fragment.Represents group.handlers where
  number : fragment.group = group.id

/-- The chain is put together from the compiled forms of the plan's groups. -/
def Chain.Composes (chain : Chain σ) (plan : RoutePlan σ) (unhandled : Response) : Prop :=
  ∃ fragments, List.Forall₂ (fun group fragment => fragment.FormOf group) plan.groups fragments ∧
    chain.Joins fragments (plan.terminal.endpoint unhandled) (plan.faults.switch unhandled)

theorem Chain.Composes.realizes {chain : Chain σ} {plan : RoutePlan σ} {unhandled : Response}
    (composes : chain.Composes plan unhandled) : chain.Realizes plan unhandled := by
  obtain ⟨fragments, forms, joins⟩ := composes
  have represent := forms.imp fun _ _ form => form.toRepresents
  obtain ⟨eager, scope, opened⟩ := Group.ops_compiled represent
  exact ⟨joins.endpoint, joins.switch, joins.eager.trans eager, joins.scope.trans scope,
    joins.deferred.trans opened⟩

namespace FaultTable

/-- Entries that compile become their branches, in order. -/
theorem branches_compileEntries {registry : FaultRegistry} {unhandled : Response}
    {entries : List (FaultKind × Terminal σ)} {seen : List Nat} {values : ValueTable}
    {branches : List (BuiltBranch σ)}
    (ok : (compileEntries registry unhandled seen entries values).1 = .ok branches) :
    branches.map (fun built => (built.id, built.branch)) = entries.map (branch unhandled) := by
  induction entries generalizing seen values branches with
  | nil => cases ok; rfl
  | cons entry rest ih =>
      obtain ⟨kind, terminal⟩ := entry
      simp only [compileEntries] at ok
      split at ok
      · cases ok
      · split at ok
        · cases ok
        · split at ok
          · rename_i later _ compiled
            cases ok
            simp only [List.map_cons, List.cons.injEq]
            refine ⟨?_, ih (congrArg Prod.fst compiled)⟩
            simp only [BuiltBranch.build, branch, terminal.endpoint_compile,
              terminal.needsContext_compile]
          · cases ok

theorem switch_compile {table : FaultTable σ} {registry : FaultRegistry} {unhandled : Response}
    {values : ValueTable} {built : BuiltSwitch σ}
    (ok : (table.compile registry unhandled values).1 = .ok built) :
    built.switch = table.switch unhandled := by
  rw [compile] at ok
  split at ok
  · rename_i branches _ compiled
    cases ok
    simp only [switchOf, switch, branches_compileEntries (congrArg Prod.fst compiled)]
  · cases ok

end FaultTable

/-! ## What a compiler keeps

Chains are judged by the compiled groups and switches that they are made of, and
these may come from earlier routes. So the statements below are about any
properties that hold of all that a compiler keeps. -/

namespace Compiler

variable {compiler : Compiler σ} {plan : RoutePlan σ} {parameterized : Bool}

/-- A property of the compiled groups and one of the compiled tables of faults,
by number, hold of all that the compiler keeps. -/
structure Keeps (compiler : Compiler σ) (cached : FragmentCache σ → Prop)
    (bound : Nat → FaultSwitch σ → Prop) : Prop where
  cache : cached compiler.tables.cache
  switches : ∀ entry ∈ compiler.switches, bound entry.1 entry.2.switch

variable {cached : FragmentCache σ → Prop} {bound : Nat → FaultSwitch σ → Prop}

/-- What holds of all kept switches, and of the switch that the table becomes,
holds of the switch that the compiler gives for the table and of those it keeps
then. A table with a defect leaves all as it was. -/
theorem keeps_compileFaults (keeps : compiler.Keeps cached bound) {table : FaultTable σ}
    (own : bound table.id (table.switch compiler.unhandled)) :
    (∀ built, (compiler.compileFaults table).1 = .ok built → bound table.id built.switch) ∧
      (compiler.compileFaults table).2.Keeps cached bound ∧
      (compiler.compileFaults table).2.unhandled = compiler.unhandled := by
  rw [compileFaults]
  cases found : compiler.switch? table.id with
  | some built =>
      obtain ⟨entry, first, rfl⟩ := Option.map_eq_some_iff.1 found
      have number : entry.1 = table.id := by simpa using List.find?_some first
      have known := keeps.switches entry (List.mem_of_find?_eq_some first)
      rw [number] at known
      refine ⟨?_, keeps, rfl⟩
      rintro built ⟨⟩
      exact known
  | none =>
      have compiled := fun built => @FaultTable.switch_compile σ table compiler.registry
        compiler.unhandled compiler.tables.values built
      simp only
      generalize table.compile compiler.registry compiler.unhandled compiler.tables.values = out
        at compiled ⊢
      obtain ⟨defect | built, values⟩ := out
      · exact ⟨by simp, ⟨keeps.cache, keeps.switches⟩, rfl⟩
      · rw [← compiled built rfl] at own
        refine ⟨?_, ⟨keeps.cache, List.forall_mem_append.2 ⟨keeps.switches, ?_⟩⟩, rfl⟩
        · rintro built ⟨⟩
          exact own
        · exact List.forall_mem_singleton.2 own

theorem joins_of_adds {fragments : List (Fragment σ)}
    (adds : (Draft.new compiler.tables compiler.nextBinding parameterized).Adds fragments
      (plan.groups.foldl Draft.addGroup
        (Draft.new compiler.tables compiler.nextBinding parameterized)))
    (faults : BuiltSwitch σ) :
    (compiler.assemble plan parameterized faults).1.Joins fragments
      (plan.terminal.endpoint faults.switch.unhandled) faults.switch := by
  simp only [assemble]
  generalize plan.groups.foldl Draft.addGroup
    (Draft.new compiler.tables compiler.nextBinding parameterized) = draft at adds ⊢
  have items := draft.items_addTerminal plan.terminal faults.switch.unhandled
  rw [adds.items, adds.contextReady, ← plan.terminal.needsContext_endpoint faults.switch.unhandled]
    at items
  obtain ⟨eager, scope, opened⟩ := Draft.ops_split false fragments
    ((plan.terminal.endpoint faults.switch.unhandled).needsContext &&
      !fragments.any Fragment.needsContext)
  have endpoint : (draft.addTerminal plan.terminal faults.switch.unhandled).1 =
      plan.terminal.endpoint faults.switch.unhandled := by
    simp only [Draft.addTerminal, Terminal.endpoint_compile]
  simp only [Draft.toChain, items, endpoint]
  exact ⟨rfl, rfl, eager, scope, opened, rfl⟩

/-- A route leaves the tables as its groups left them, apart from the numbers of
values. -/
theorem cache_assemble (faults : BuiltSwitch σ) :
    (compiler.assemble plan parameterized faults).2.tables.cache =
      (plan.groups.foldl Draft.addGroup
        (Draft.new compiler.tables compiler.nextBinding parameterized)).tables.cache := by
  simp only [assemble, Draft.cache_addTerminal]

theorem joins_assemble (represents : Group σ → Fragment σ → Prop)
    (each : ∀ group ∈ plan.groups, ∀ draft : Draft σ, cached draft.tables.cache →
      represents group (group.compile draft).1 ∧ cached (group.compile draft).2.tables.cache)
    (cache : cached compiler.tables.cache) (faults : BuiltSwitch σ) :
    ∃ fragments, List.Forall₂ represents plan.groups fragments ∧
      (compiler.assemble plan parameterized faults).1.Joins fragments
        (plan.terminal.endpoint faults.switch.unhandled) faults.switch ∧
      cached (compiler.assemble plan parameterized faults).2.tables.cache := by
  obtain ⟨fragments, compiled, adds, cache⟩ := Draft.adds_foldl_addGroup represents cached each
    (Draft.new compiler.tables compiler.nextBinding parameterized) cache
  refine ⟨fragments, compiled, joins_of_adds adds faults, ?_⟩
  rw [cache_assemble]
  exact cache

/-- A compiler gives chains of compiled groups and switches with the properties
that hold of all it keeps, and these go on to hold, whether it gives a chain or
not. -/
theorem keeps_compile (represents : Group σ → Fragment σ → Prop)
    (keeps : compiler.Keeps cached bound)
    (each : ∀ group ∈ plan.groups, ∀ draft : Draft σ, cached draft.tables.cache →
      represents group (group.compile draft).1 ∧ cached (group.compile draft).2.tables.cache)
    (own : bound plan.faults.id (plan.faults.switch compiler.unhandled)) :
    (∀ chain, (compiler.compile plan parameterized).1 = .ok chain → ∃ fragments switch,
        List.Forall₂ represents plan.groups fragments ∧ bound plan.faults.id switch ∧
        chain.Joins fragments (plan.terminal.endpoint switch.unhandled) switch) ∧
      (compiler.compile plan parameterized).2.Keeps cached bound ∧
      (compiler.compile plan parameterized).2.unhandled = compiler.unhandled := by
  obtain ⟨known, kept, same⟩ := keeps_compileFaults keeps own
  rw [compile]
  generalize compiler.compileFaults plan.faults = out at known kept same ⊢
  obtain ⟨defect | built, after⟩ := out
  · exact ⟨by simp, kept, same⟩
  · obtain ⟨fragments, compiled, joins, cache⟩ :=
      @joins_assemble σ after plan parameterized cached represents each kept.cache built
    refine ⟨?_, ⟨cache, kept.switches⟩, same⟩
    rintro chain ⟨⟩
    exact ⟨fragments, built.switch, compiled, known built rfl, joins⟩

end Compiler

/-! ## Chains realize their plans -/

structure Directory.ListsPlan (directory : Directory σ) (plan : RoutePlan σ) : Prop where
  groups : ∀ group ∈ plan.groups, directory.ListsGroup group
  faults : directory.faults plan.faults.id = plan.faults.entries

/-- Compiling a group of the directory gives its compiled form. -/
theorem Group.formOf_compile {directory : Directory σ} {group : Group σ}
    (listed : directory.ListsGroup group) {draft : Draft σ}
    (faithful : draft.tables.cache.Faithful directory) :
    (group.compile draft).1.FormOf group ∧
      (group.compile draft).2.tables.cache.Faithful directory := by
  obtain ⟨represents, kept⟩ := Group.represents_compile listed faithful
  exact ⟨⟨represents, Draft.group_compiledGroup⟩, kept⟩

/-- The switch is that of the table which the number stands for. -/
def FaultSwitch.Faithful (directory : Directory σ) (unhandled : Response) (id : Nat)
    (switch : FaultSwitch σ) : Prop :=
  switch = FaultTable.switch ⟨id, directory.faults id⟩ unhandled

namespace Compiler

variable {directory : Directory σ} {registry : FaultRegistry} {unhandled : Response}
  {compiler : Compiler σ} {plan : RoutePlan σ} {parameterized : Bool}

/-- What a compiler keeps between routes agrees with the directory. -/
structure Faithful (compiler : Compiler σ) (directory : Directory σ) (unhandled : Response) :
    Prop extends compiler.Keeps (·.Faithful directory) (FaultSwitch.Faithful directory unhandled)
    where
  fallback : compiler.unhandled = unhandled

theorem faithful_new : (new registry unhandled : Compiler σ).Faithful directory unhandled :=
  ⟨⟨by simp [new, FragmentCache.Faithful], by simp [new]⟩, rfl⟩

/-- A compiler gives only chains of the compiled forms of the groups, and stays
faithful whether it gives one or not. -/
theorem composes_compile (faithful : compiler.Faithful directory unhandled)
    (listed : directory.ListsPlan plan) :
    (∀ chain, (compiler.compile plan parameterized).1 = .ok chain →
        chain.Composes plan unhandled) ∧
      (compiler.compile plan parameterized).2.Faithful directory unhandled := by
  have own : FaultSwitch.Faithful directory unhandled plan.faults.id
      (plan.faults.switch compiler.unhandled) := by
    rw [FaultSwitch.Faithful, listed.faults, faithful.fallback]
  obtain ⟨chains, kept, same⟩ := @keeps_compile σ compiler plan parameterized _ _
    (fun group fragment => fragment.FormOf group) faithful.toKeeps
    (fun group mem draft cache => Group.formOf_compile (listed.groups group mem) cache) own
  refine ⟨?_, kept, same.trans faithful.fallback⟩
  intro chain ok
  obtain ⟨fragments, switch, forms, rfl, joins⟩ := chains chain ok
  rw [listed.faults] at joins
  exact ⟨fragments, forms, joins⟩

/-- A compiler gives only chains that realize their plans, and stays faithful
whether it gives one or not. -/
theorem realizes_compile (faithful : compiler.Faithful directory unhandled)
    (listed : directory.ListsPlan plan) :
    (∀ chain, (compiler.compile plan parameterized).1 = .ok chain →
        chain.Realizes plan unhandled) ∧
      (compiler.compile plan parameterized).2.Faithful directory unhandled := by
  obtain ⟨composes, kept⟩ := @composes_compile σ directory unhandled compiler plan parameterized
    faithful listed
  exact ⟨fun chain ok => (composes chain ok).realizes, kept⟩

/-- The compiler after it was given plans in order. Plans with defects are
rejected, and the compiler goes on. -/
def after (compiler : Compiler σ) : List (RoutePlan σ × Bool) → Compiler σ
  | [] => compiler
  | (plan, parameterized) :: rest => (compiler.compile plan parameterized).2.after rest

def results (compiler : Compiler σ) : List (RoutePlan σ × Bool) → List (Except Defect (Chain σ))
  | [] => []
  | (plan, parameterized) :: rest =>
    (compiler.compile plan parameterized).1 ::
      (compiler.compile plan parameterized).2.results rest

/-- A compiler stays faithful over any history of plans. -/
theorem faithful_after (faithful : compiler.Faithful directory unhandled)
    {history : List (RoutePlan σ × Bool)}
    (listed : ∀ entry ∈ history, directory.ListsPlan entry.1) :
    (compiler.after history).Faithful directory unhandled := by
  induction history generalizing compiler with
  | nil => exact faithful
  | cons entry rest ih =>
      obtain ⟨here, later⟩ := List.forall_mem_cons.1 listed
      exact ih (realizes_compile faithful here).2 later

/-- A plan that compiles after any history of plans gives a chain that realizes it. -/
theorem realizes_after {history : List (RoutePlan σ × Bool)}
    (listed : ∀ entry ∈ history, directory.ListsPlan entry.1) (here : directory.ListsPlan plan)
    {chain : Chain σ}
    (compiled :
      (((new registry unhandled).after history).compile plan parameterized).1 = .ok chain) :
    chain.Realizes plan unhandled := by
  have faithful : ((new registry unhandled).after history).Faithful directory unhandled :=
    faithful_after faithful_new listed
  exact (realizes_compile faithful here).1 chain compiled

end Compiler

end RouteTree
