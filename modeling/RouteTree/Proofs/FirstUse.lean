import RouteTree.Proofs.Interning

/-!
# Routes number what they use

A table of faults that is new uses the objects of its entries and then itself; one that
was compiled before has used them all. After its table, a plan uses the functions of its
groups and the objects of its terminal. So a compiler always numbers what the plans
have used so far, as long as all of them compile, and the listing of each route refers
to what the route uses.
-/

namespace RouteTree

open Http

variable {σ : Type}

/-! ## Tables of faults -/

namespace BuiltBranch

variable {used : List ValueObject} {values : ValueTable}

theorem refersTo_withContext {listing : Listing} {shown : List ValueObject} (needsContext : Bool)
    (refers : listing.RefersTo used shown) :
    (withContext needsContext listing).RefersTo used shown := by
  cases needsContext with
  | false => exact refers
  | true => exact refers.textAppend _

theorem refersTo_build {terminal : Terminal σ} (made : terminal.Made) {own : Nat → ValueObject}
    (records : values.Records used) (unshared : ∀ part, (own part).key = none)
    (apart : own 1 ≠ own 0) (fresh : ∀ part, own part ∉ used) (kind : FaultKind)
    (unhandled : Response) :
    (build kind terminal unhandled values).1.listing.RefersTo (used ++ terminal.objects own)
        (terminal.shown own false) ∧
      (build kind terminal unhandled values).1.scopedListing.RefersTo
        (used ++ terminal.objects own) (terminal.shown own true) ∧
      (build kind terminal unhandled values).2.Records (used ++ terminal.objects own) := by
  obtain ⟨lines, records⟩ := Terminal.refersTo_compile made records unshared apart fresh
    (if kind.dynamic then some "e.payload" else none) false unhandled
  exact ⟨refersTo_withContext _ lines.listing, refersTo_withContext _ lines.scopedListing, records⟩

/-- A block that shows branches refers to what their listings refer to. -/
theorem refersTo_render {listing : BuiltBranch σ → Listing} {branches : List (BuiltBranch σ)}
    {shown : List ValueObject}
    (refers : (Listing.unlines (branches.map listing)).RefersTo used shown) :
    (render listing branches).RefersTo used shown := by
  have references := refers.references
  refine ⟨refers.known, ?_⟩
  rw [← references]
  match branches with
  | [] => rfl
  | [only] => simp [render]
  | first :: second :: rest => simp [render, List.flatMap_map]

end BuiltBranch

namespace FaultTable

/-- What the entries of a table use, from a place on. -/
def entryObjects (table : Nat) : Nat → List (FaultKind × Terminal σ) → List ValueObject
  | _, [] => []
  | place, (_, terminal) :: rest =>
    terminal.objects (.faultPage table place) ++ entryObjects table (place + 1) rest

def entryShown (table : Nat) (inScope : Bool) :
    Nat → List (FaultKind × Terminal σ) → List ValueObject
  | _, [] => []
  | place, (_, terminal) :: rest =>
    terminal.shown (.faultPage table place) inScope ++ entryShown table inScope (place + 1) rest

/-- What a table uses: the objects of its entries, and last the table itself. -/
def objects (table : FaultTable σ) : List ValueObject :=
  entryObjects table.id 0 table.entries ++ [.table table.id]

def shown (table : FaultTable σ) (inScope : Bool) : List ValueObject :=
  entryShown table.id inScope 0 table.entries

variable {used : List ValueObject} {values : ValueTable} {registry : FaultRegistry}
  {unhandled : Response}

/-- What entries use are parts of their pages, functions and serializers. -/
theorem of_mem_entryObjects {table place : Nat} {entries : List (FaultKind × Terminal σ)}
    {object : ValueObject} (mem : object ∈ entryObjects table place entries) :
    (∃ entry part, object = .faultPage table entry part) ∨ (∃ id, object = .function id) ∨
      ∃ id, object = .serializer id := by
  induction entries generalizing place with
  | nil => exact absurd mem List.not_mem_nil
  | cons entry rest ih =>
      rcases List.mem_append.1 mem with here | later
      · rcases Terminal.of_mem_objects here with ⟨part, rfl⟩ | shared
        · exact .inl ⟨place, part, rfl⟩
        · exact .inr shared
      · exact ih later

theorem eq_faultPage_of_mem_objects {table : FaultTable σ} {object : ValueObject}
    (mem : object ∈ table.objects) (unshared : object.key = none) :
    ∃ entry part, object = .faultPage table.id entry part := by
  rcases List.mem_append.1 mem with entries | itself
  · rcases of_mem_entryObjects entries with page | ⟨id, rfl⟩ | ⟨id, rfl⟩
    · exact page
    · cases unshared
    · cases unshared
  · cases List.mem_singleton.1 itself
    cases unshared

/-- Compiling entries uses their objects and shows them. -/
theorem refersTo_compileEntries {table place : Nat} {entries : List (FaultKind × Terminal σ)}
    {seen : List Nat} {branches : List (BuiltBranch σ)} (made : ∀ entry ∈ entries, entry.2.Made)
    (records : values.Records used)
    (fresh : ∀ entry part, .faultPage table entry part ∈ used → entry < place)
    (ok : (compileEntries registry unhandled seen entries values).1 = .ok branches) :
    (Listing.unlines (branches.map BuiltBranch.listing)).RefersTo
        (used ++ entryObjects table place entries) (entryShown table false place entries) ∧
      (Listing.unlines (branches.map BuiltBranch.scopedListing)).RefersTo
        (used ++ entryObjects table place entries) (entryShown table true place entries) ∧
      (compileEntries registry unhandled seen entries values).2.Records
        (used ++ entryObjects table place entries) := by
  induction entries generalizing place seen values used branches with
  | nil =>
      cases ok
      rw [entryObjects, List.append_nil]
      exact ⟨.text "", .text "", records⟩
  | cons entry rest ih =>
      obtain ⟨kind, terminal⟩ := entry
      obtain ⟨here, later⟩ := List.forall_mem_cons.1 made
      have unused (part : Nat) : .faultPage table place part ∉ used := by
        intro mem
        exact Nat.lt_irrefl place (fresh place part mem)
      have apart : ValueObject.faultPage table place 1 ≠ .faultPage table place 0 := by simp
      obtain ⟨listing, scopedListing, records⟩ := BuiltBranch.refersTo_build here records
        (fun _ => rfl) apart unused kind unhandled
      have fresh' (entry part : Nat) (mem : .faultPage table entry part ∈
          used ++ terminal.objects (.faultPage table place)) : entry < place + 1 := by
        rcases List.mem_append.1 mem with old | new
        · exact Nat.lt_succ_of_lt (fresh entry part old)
        · obtain ⟨part, same⟩ := Terminal.eq_own_of_mem_objects new rfl
          cases same
          exact Nat.lt_succ_self place
      simp only [compileEntries] at ok ⊢
      split at ok
      · cases ok
      split at ok
      · cases ok
      rename_i owned new
      simp only [owned, new]
      have compiled := @ih (used ++ terminal.objects (.faultPage table place))
        (BuiltBranch.build kind terminal unhandled values).2 (place + 1) (kind.id :: seen)
      generalize compileEntries registry unhandled (kind.id :: seen) rest
        (BuiltBranch.build kind terminal unhandled values).2 = out at ok compiled ⊢
      obtain ⟨defect | branches, after⟩ := out
      · cases ok
      · cases ok
        obtain ⟨listings, scopedListings, records⟩ := compiled later records fresh' rfl
        rw [List.append_assoc] at listings scopedListings records
        have listing := listing.later (entryObjects table (place + 1) rest)
        have scopedListing := scopedListing.later (entryObjects table (place + 1) rest)
        rw [List.append_assoc] at listing scopedListing
        exact ⟨listing.cons listings, scopedListing.cons scopedListings, records⟩

theorem refersTo_compile {table : FaultTable σ} {built : BuiltSwitch σ}
    (made : ∀ entry ∈ table.entries, entry.2.Made) (records : values.Records used)
    (fresh : ∀ entry part, .faultPage table.id entry part ∉ used)
    (ok : (table.compile registry unhandled values).1 = .ok built) :
    built.listing.RefersTo (used ++ entryObjects table.id 0 table.entries) (table.shown false) ∧
      built.scopedListing.RefersTo (used ++ entryObjects table.id 0 table.entries)
        (table.shown true) ∧
      (table.compile registry unhandled values).2.Records
        (used ++ entryObjects table.id 0 table.entries) := by
  have compiled := fun branches => @refersTo_compileEntries σ used values registry unhandled
    table.id 0 table.entries [] branches made records fun entry part mem =>
      absurd mem (fresh entry part)
  rw [compile] at ok ⊢
  generalize compileEntries registry unhandled [] table.entries values = out at ok compiled ⊢
  obtain ⟨defect | branches, after⟩ := out
  · cases ok
  · cases ok
    obtain ⟨listings, scopedListings, records⟩ := compiled branches rfl
    exact ⟨BuiltBranch.refersTo_render listings, BuiltBranch.refersTo_render scopedListings,
      records⟩

end FaultTable

/-- The listings of a compiled table refer to what the table uses, and all of that was
used. -/
structure BuiltSwitch.RefersTo (built : BuiltSwitch σ) (used : List ValueObject)
    (table : FaultTable σ) : Prop where
  known : ∀ object ∈ table.objects, object ∈ used
  listing : built.listing.RefersTo used (table.shown false)
  scopedListing : built.scopedListing.RefersTo used (table.shown true)

theorem BuiltSwitch.RefersTo.later {built : BuiltSwitch σ} {used : List ValueObject}
    {table : FaultTable σ} (refers : built.RefersTo used table) (more : List ValueObject) :
    built.RefersTo (used ++ more) table :=
  ⟨fun object mem => List.mem_append_left _ (refers.known object mem),
    refers.listing.later more, refers.scopedListing.later more⟩

/-! ## Routes -/

namespace RoutePlan

def functions (plan : RoutePlan σ) : List ValueObject :=
  plan.groups.flatMap fun group => Handler.functionsAll group.handlers

theorem shared_of_mem_functions (plan : RoutePlan σ) {object : ValueObject}
    (mem : object ∈ plan.functions) : object.key ≠ none := by
  obtain ⟨group, _, inside⟩ := List.mem_flatMap.1 mem
  obtain ⟨id, rfl⟩ := Handler.eq_function_of_mem_functionsAll inside
  exact Option.some_ne_none _

/-- What the groups and the terminal of a plan use is shared, or a part of its page. -/
theorem eq_page_of_mem (plan : RoutePlan σ) {route : Nat} {object : ValueObject}
    (mem : object ∈ plan.functions ++ plan.terminal.objects (.page route))
    (unshared : object.key = none) : ∃ part, object = .page route part := by
  rcases List.mem_append.1 mem with function | own
  · exact absurd unshared (plan.shared_of_mem_functions function)
  · exact Terminal.eq_own_of_mem_objects own unshared

/-- What a plan uses if this many routes were compiled before: its table of faults, its
groups and its terminal. -/
def objects (plan : RoutePlan σ) (route : Nat) : List ValueObject :=
  plan.faults.objects ++ (plan.functions ++ plan.terminal.objects (.page route))

/-- What the listing of a route refers to: the functions of the groups, what the terminal
shows, and the table of faults for the deferred scope and for the groups before it. -/
def shown (plan : RoutePlan σ) (route : Nat) (deferred runsAtOnce : Bool) : List ValueObject :=
  plan.functions ++ plan.terminal.shown (.page route) deferred ++
    (if deferred then plan.faults.shown true else []) ++
    (if runsAtOnce then plan.faults.shown false else [])

structure Made (plan : RoutePlan σ) : Prop where
  terminal : plan.terminal.Made
  faults : ∀ entry ∈ plan.faults.entries, entry.2.Made

/-- What plans use in order, if this many routes were compiled before. -/
def uses (route : Nat) : List (RoutePlan σ × Bool) → List ValueObject
  | [] => []
  | (plan, _) :: rest => plan.objects route ++ uses (route + 1) rest

end RoutePlan

def Chain.runsAtOnce (chain : Chain σ) : Bool :=
  chain.eager.any fun stage => stage.fragment?.isSome

variable {directory : Directory σ}

namespace Draft

variable {draft : Draft σ} {used shown : List ValueObject}

@[simp] theorem scopeOpen_addTerminal (terminal : Terminal σ) (unhandled : Response) :
    (draft.addTerminal terminal unhandled).2.scopeOpen = draft.scopeOpen := by
  simp only [addTerminal, note]
  split
  · rw [allocate]
    split <;> rfl
  · rfl

theorem Indexed.addTerminal (indexed : draft.Indexed directory used shown)
    {terminal : Terminal σ} (made : terminal.Made) {route : Nat}
    (fresh : ∀ part, .page route part ∉ used) (unhandled : Response) :
    (draft.addTerminal terminal unhandled).2.Indexed directory
      (used ++ terminal.objects (.page route))
      (shown ++ terminal.shown (.page route) draft.scopeOpen) := by
  have apart : ValueObject.page route 1 ≠ .page route 0 := by simp
  obtain ⟨lines, records⟩ := Terminal.refersTo_compile made indexed.tables.values
    (fun _ => rfl) apart fresh none draft.scopeOpen unhandled
  have set := indexed.setValues records
  have ready := iteInduction (motive := fun draft : Draft σ => draft.Indexed directory _ shown)
    (c := (terminal.compile none draft.scopeOpen unhandled draft.tables.values).1.needsContext)
    (fun _ => set.allocate) (fun _ => set)
  exact ready.note lines.listing

theorem Indexed.toChain (indexed : draft.Indexed directory used shown) (endpoint : Endpoint σ)
    {faults : BuiltSwitch σ} {table : FaultTable σ} (refers : faults.RefersTo used table) :
    (draft.toChain endpoint faults).listing.RefersTo used
      (shown ++ (if draft.scopeOpen then table.shown true else []) ++
        (if (draft.toChain endpoint faults).runsAtOnce then table.shown false else [])) := by
  have inScope := rel_ite (fun listing : Listing => listing.RefersTo used) draft.scopeOpen
    (refers.scopedListing.textAppend "\n\x7d ") (.text "")
  have before := rel_ite (fun listing : Listing => listing.RefersTo used)
    (draft.toChain endpoint faults).runsAtOnce (refers.listing.textAppend "\n") (.text "")
  exact (indexed.lines.append inScope).append before

end Draft

namespace Compiler

/-- A compiler numbers what was used. Its compiled groups and tables refer to what they
use, and no page of a route or of a table is used before it is compiled. -/
structure Indexed (compiler : Compiler σ) (directory : Directory σ)
    (used : List ValueObject) : Prop where
  tables : compiler.tables.Indexed directory used
  switches : ∀ entry ∈ compiler.switches,
    entry.2.RefersTo used ⟨entry.1, directory.faults entry.1⟩
  pages : ∀ route part, .page route part ∈ used → route < compiler.routes
  faultPages : ∀ table entry part, .faultPage table entry part ∈ used →
    ∃ entry ∈ compiler.switches, entry.1 = table

theorem indexed_new (registry : FaultRegistry) (unhandled : Response) :
    (new registry unhandled : Compiler σ).Indexed directory [] := by
  refine ⟨⟨rfl, ?_⟩, ?_, ?_, ?_⟩ <;> simp [new]

namespace Indexed

variable {compiler : Compiler σ} {used : List ValueObject} {plan : RoutePlan σ}
  {parameterized : Bool}

theorem again (indexed : compiler.Indexed directory used) {more : List ValueObject}
    (old : ∀ object ∈ more, object ∈ used) : compiler.Indexed directory (used ++ more) := by
  have back : ∀ object ∈ used ++ more, object ∈ used := List.forall_mem_append.2
    ⟨fun object mem => mem, old⟩
  exact
    { tables := indexed.tables.withValues (indexed.tables.values.again old)
      switches := fun entry mem => (indexed.switches entry mem).later more
      pages := fun route part mem => indexed.pages route part (back _ mem)
      faultPages := fun table entry part mem => indexed.faultPages table entry part (back _ mem) }

theorem addSwitch (indexed : compiler.Indexed directory used) {table : FaultTable σ}
    (listed : directory.faults table.id = table.entries) {tables : Tables σ}
    (kept : tables.Indexed directory (used ++ table.objects)) {built : BuiltSwitch σ}
    (refers : built.RefersTo (used ++ table.objects) table) :
    { compiler with tables, switches := compiler.switches ++ [(table.id, built)] }.Indexed
      directory (used ++ table.objects) := by
  refine ⟨kept, ?_, ?_, ?_⟩
  · refine List.forall_mem_append.2 ⟨?_, List.forall_mem_singleton.2 ?_⟩
    · exact fun entry mem => (indexed.switches entry mem).later table.objects
    · rw [listed]
      exact refers
  · intro route part mem
    rcases List.mem_append.1 mem with old | new
    · exact indexed.pages route part old
    · obtain ⟨_, _, ⟨⟩⟩ := FaultTable.eq_faultPage_of_mem_objects new rfl
  · intro other entry part mem
    rcases List.mem_append.1 mem with old | new
    · obtain ⟨entry, there, number⟩ := indexed.faultPages other entry part old
      exact ⟨entry, List.mem_append_left _ there, number⟩
    · obtain ⟨_, _, same⟩ := FaultTable.eq_faultPage_of_mem_objects new rfl
      cases same
      exact ⟨(table.id, built), List.mem_append_right _ (List.mem_singleton.2 rfl), rfl⟩

/-- A table of faults uses its objects, whether it was compiled before or is new. -/
theorem compileFaults (indexed : compiler.Indexed directory used) {table : FaultTable σ}
    (listed : directory.faults table.id = table.entries)
    (made : ∀ entry ∈ table.entries, entry.2.Made) {built : BuiltSwitch σ}
    (ok : (compiler.compileFaults table).1 = .ok built) :
    built.RefersTo (used ++ table.objects) table ∧
      (compiler.compileFaults table).2.Indexed directory (used ++ table.objects) ∧
      (compiler.compileFaults table).2.routes = compiler.routes := by
  rw [Compiler.compileFaults] at ok ⊢
  cases found : compiler.switch? table.id with
  | some built' =>
      simp only [found] at ok ⊢
      cases ok
      obtain ⟨entry, first, rfl⟩ := Option.map_eq_some_iff.1 found
      have number : entry.1 = table.id := by simpa using List.find?_some first
      have refers := indexed.switches entry (List.mem_of_find?_eq_some first)
      rw [number, listed] at refers
      exact ⟨refers.later _, indexed.again refers.known, trivial⟩
  | none =>
      -- Only compiling the table uses its pages, and it was not compiled before.
      have fresh : ∀ entry part, .faultPage table.id entry part ∉ used := by
        intro entry part mem
        obtain ⟨entry, there, number⟩ := indexed.faultPages table.id entry part mem
        have absent := List.find?_eq_none.1 (Option.map_eq_none_iff.1 found) entry there
        exact absent (by simpa using number)
      have compiled := fun built => @FaultTable.refersTo_compile σ used compiler.tables.values
        compiler.registry compiler.unhandled table built made indexed.tables.values fresh
      simp only [found] at ok ⊢
      generalize table.compile compiler.registry compiler.unhandled compiler.tables.values = out
        at ok compiled ⊢
      obtain ⟨defect | built', values⟩ := out
      · cases ok
      cases ok
      obtain ⟨listing, scopedListing, records⟩ := compiled built rfl
      obtain ⟨records, _⟩ := records.intern (.table table.id) rfl
      have listing := listing.later [.table table.id]
      have scopedListing := scopedListing.later [.table table.id]
      rw [List.append_assoc] at listing scopedListing records
      have refers : built.RefersTo (used ++ table.objects) table :=
        ⟨fun object inside => List.mem_append_right _ inside, listing, scopedListing⟩
      have kept := indexed.tables.withValues records
      refine ⟨refers, indexed.addSwitch listed ?_ refers, rfl⟩
      exact ⟨kept.values, kept.fragments⟩

theorem assemble (indexed : compiler.Indexed directory used)
    (listed : ∀ group ∈ plan.groups, directory.ListsGroup group) (made : plan.terminal.Made)
    {faults : BuiltSwitch σ} (refers : faults.RefersTo used plan.faults) :
    (compiler.assemble plan parameterized faults).1.listing.RefersTo
        (used ++ (plan.functions ++ plan.terminal.objects (.page compiler.routes)))
        (plan.shown compiler.routes (compiler.assemble plan parameterized faults).1.deferred
          (compiler.assemble plan parameterized faults).1.runsAtOnce) ∧
      (compiler.assemble plan parameterized faults).2.Indexed directory
        (used ++ (plan.functions ++ plan.terminal.objects (.page compiler.routes))) := by
  have start : (Draft.new compiler.tables compiler.nextBinding parameterized).Indexed directory
      used [] := ⟨indexed.tables, .text ""⟩
  obtain ⟨fragments, _, adds, _⟩ := @Draft.adds_foldl_addGroup σ (fun _ _ => True) (fun _ => True)
    plan.groups (fun _ _ _ _ => ⟨trivial, trivial⟩)
    (Draft.new compiler.tables compiler.nextBinding parameterized) trivial
  have opened : (compiler.assemble plan parameterized faults).1.deferred =
      (plan.groups.foldl Draft.addGroup
        (Draft.new compiler.tables compiler.nextBinding parameterized)).scopeOpen := by
    rw [(joins_of_adds adds faults).deferred, adds.scopeOpen]
    rfl
  have fresh : ∀ part, .page compiler.routes part ∉ used ++ plan.functions := by
    intro part mem
    rcases List.mem_append.1 mem with old | function
    · exact Nat.lt_irrefl _ (indexed.pages compiler.routes part old)
    · exact plan.shared_of_mem_functions function rfl
  have ended := (start.addGroups listed).addTerminal made fresh faults.switch.unhandled
  rw [List.append_assoc] at ended
  refine ⟨?_, ⟨ended.tables.values, ended.tables.fragments⟩, ?_, ?_, ?_⟩
  · rw [opened]
    have chain := ended.toChain ((plan.groups.foldl Draft.addGroup
      (Draft.new compiler.tables compiler.nextBinding parameterized)).addTerminal plan.terminal
        faults.switch.unhandled).1 (refers.later _)
    rw [Draft.scopeOpen_addTerminal] at chain
    exact chain
  · exact fun entry mem => (indexed.switches entry mem).later _
  · intro route part mem
    rcases List.mem_append.1 mem with old | new
    · exact Nat.lt_succ_of_lt (indexed.pages route part old)
    · obtain ⟨part, same⟩ := plan.eq_page_of_mem new rfl
      cases same
      exact Nat.lt_succ_self _
  · intro table entry part mem
    rcases List.mem_append.1 mem with old | new
    · exact indexed.faultPages table entry part old
    · obtain ⟨part, ⟨⟩⟩ := plan.eq_page_of_mem new rfl

/-- A plan that compiles uses its objects, and its listing refers to what it shows. -/
theorem compile (indexed : compiler.Indexed directory used) (listed : directory.ListsPlan plan)
    (made : plan.Made) {chain : Chain σ}
    (ok : (compiler.compile plan parameterized).1 = .ok chain) :
    chain.listing.RefersTo (used ++ plan.objects compiler.routes)
        (plan.shown compiler.routes chain.deferred chain.runsAtOnce) ∧
      (compiler.compile plan parameterized).2.Indexed directory
        (used ++ plan.objects compiler.routes) ∧
      (compiler.compile plan parameterized).2.routes = compiler.routes + 1 := by
  have faults := fun built => @compileFaults σ directory compiler used indexed plan.faults
    listed.faults made.faults built
  rw [Compiler.compile] at ok ⊢
  generalize compiler.compileFaults plan.faults = out at ok faults ⊢
  obtain ⟨defect | built, after⟩ := out
  · cases ok
  cases ok
  obtain ⟨refers, indexed, routes⟩ := faults built rfl
  have assembled := @assemble σ directory after _ plan parameterized indexed listed.groups
    made.terminal built refers
  simp only at routes
  rw [routes, List.append_assoc] at assembled
  exact ⟨assembled.1, assembled.2, congrArg (· + 1) routes⟩

theorem after (indexed : compiler.Indexed directory used) {history : List (RoutePlan σ × Bool)}
    {chains : List (Chain σ)} (listed : ∀ entry ∈ history, directory.ListsPlan entry.1)
    (made : ∀ entry ∈ history, entry.1.Made)
    (accepted : compiler.results history = chains.map .ok) :
    (compiler.after history).Indexed directory (used ++ RoutePlan.uses compiler.routes history) ∧
      ∀ (place : Nat) (plan : RoutePlan σ) (parameterized : Bool) (chain : Chain σ),
        history[place]? = some (plan, parameterized) → chains[place]? = some chain →
          chain.listing.RefersTo (used ++ RoutePlan.uses compiler.routes history)
            (plan.shown (compiler.routes + place) chain.deferred chain.runsAtOnce) := by
  induction history generalizing compiler used chains with
  | nil =>
      rw [RoutePlan.uses, List.append_nil]
      refine ⟨indexed, ?_⟩
      intro place plan _ chain here
      simp at here
  | cons entry rest ih =>
      obtain ⟨plan, parameterized⟩ := entry
      obtain ⟨here, later⟩ := List.forall_mem_cons.1 listed
      obtain ⟨madeHere, madeLater⟩ := List.forall_mem_cons.1 made
      cases chains with
      | nil => cases accepted
      | cons chain others =>
          obtain ⟨ok, accepted⟩ := List.cons.inj accepted
          obtain ⟨refers, indexed, routes⟩ := indexed.compile here madeHere ok
          obtain ⟨indexed, shown⟩ := ih indexed later madeLater accepted
          rw [routes, List.append_assoc] at indexed shown
          refine ⟨indexed, ?_⟩
          intro place plan' parameterized' chain' there given
          cases place with
          | zero =>
              cases there
              cases given
              have kept := refers.later (RoutePlan.uses (compiler.routes + 1) rest)
              rw [List.append_assoc] at kept
              exact kept
          | succ place =>
              have refers := shown place plan' parameterized' chain' there given
              rw [Nat.add_assoc, Nat.add_comm 1 place] at refers
              exact refers

end Indexed

end Compiler

end RouteTree
