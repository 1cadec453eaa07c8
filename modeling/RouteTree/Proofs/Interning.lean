import Mathlib.Data.List.Induction
import Mathlib.Data.List.Nodup
import RouteTree.Proofs.Compilation
import RouteTree.Proofs.Nesting

/-!
# Numbers by first use

What a plan uses is written down here without regard to what was used before: the
functions of its groups, what its terminal needs, what its table of faults needs, and
the table itself, in the order in which they are met. An object then has the number of
its place among all uses, repetitions left out. The functions that compile groups,
terminals and tables give exactly these numbers, and their listings show them.
-/

namespace RouteTree

open Http

variable {σ : Type}

/-- An object that compiled routes refer to by a number. -/
inductive ValueObject where
  | function (id : Nat)
  | serializer (id : Nat)
  | table (id : Nat)
  /-- A part of the page that ends a route. Routes are counted as they are compiled. -/
  | page (route part : Nat)
  /-- A part of the page that answers for an entry of a table of faults. -/
  | faultPage (table entry part : Nat)
  deriving DecidableEq

namespace ValueObject

/-- The identity of an object that several routes may share. -/
def key : ValueObject → Option ValueKey
  | .function id => some (.callback id)
  | .serializer id => some (.serializer id)
  | .table id => some (.table id)
  | .page _ _ | .faultPage _ _ _ => none

/-- The number of an object if these are used in order: its place among them without
repetitions. -/
def number (used : List ValueObject) (object : ValueObject) : Nat := used.eraseDups.idxOf object

variable {used more : List ValueObject} {object other : ValueObject}

theorem eq_of_key_eq {key : ValueKey} (here : object.key = some key)
    (there : other.key = some key) : other = object := by
  cases object <;> cases other <;> cases here <;> cases there <;> rfl

theorem eraseDups_concat (used : List ValueObject) (object : ValueObject) :
    (used ++ [object]).eraseDups =
      if object ∈ used then used.eraseDups else used.eraseDups ++ [object] := by
  rw [List.eraseDups_append]
  split
  · rename_i mem
    simp [List.removeAll, mem]
  · rename_i absent
    simp [List.removeAll, absent, List.eraseDups_cons]

/-- What was used already adds nothing. -/
theorem eraseDups_append_of_subset (old : ∀ object ∈ more, object ∈ used) :
    (used ++ more).eraseDups = used.eraseDups := by
  have none : more.removeAll used = [] := by
    simpa [List.removeAll, List.filter_eq_nil_iff] using old
  rw [List.eraseDups_append, none, List.eraseDups_nil, List.append_nil]

theorem nodup_eraseDups (used : List ValueObject) : used.eraseDups.Nodup := by
  induction used using List.reverseRecOn with
  | nil => exact List.nodup_nil
  | append_singleton used object ih =>
      rw [eraseDups_concat]
      split
      · exact ih
      · rename_i absent
        rw [List.nodup_append_comm]
        exact List.nodup_cons.2 ⟨mt List.mem_eraseDups.1 absent, ih⟩

theorem number_append (mem : object ∈ used) (more : List ValueObject) :
    number (used ++ more) object = number used object := by
  rw [number, List.eraseDups_append, List.idxOf_append_of_mem (List.mem_eraseDups.2 mem), number]

theorem number_concat_self (used : List ValueObject) (object : ValueObject)
    (fresh : object ∉ used) : number (used ++ [object]) object = used.eraseDups.length := by
  rw [number, eraseDups_concat, if_neg fresh,
    List.idxOf_append_of_notMem (mt List.mem_eraseDups.1 fresh)]
  simp

end ValueObject

/-! ## Value tables -/

/-- The table numbers these objects, which were used in order. -/
def ValueTable.Records (values : ValueTable) (used : List ValueObject) : Prop :=
  values.slots = used.eraseDups.map ValueObject.key

namespace ValueTable.Records

variable {values : ValueTable} {used more : List ValueObject} {object : ValueObject}

theorem size_eq (records : values.Records used) : values.size = used.eraseDups.length := by
  rw [size, records, List.length_map]

theorem again (records : values.Records used) (old : ∀ object ∈ more, object ∈ used) :
    values.Records (used ++ more) := by
  rw [Records, ValueObject.eraseDups_append_of_subset old]
  exact records

theorem intern (records : values.Records used) (object : ValueObject) {key : ValueKey}
    (own : object.key = some key) :
    (values.intern key).2.Records (used ++ [object]) ∧
      (values.intern key).1 = ValueObject.number (used ++ [object]) object := by
  have same : (fun other : ValueObject => decide (other.key = some key)) = (· == object) := by
    funext other
    rw [beq_eq_decide]
    congr 1
    exact propext ⟨ValueObject.eq_of_key_eq own, fun same => same ▸ own⟩
  have search : values.slots.findIdx? (fun slot => slot = some key) =
      used.eraseDups.findIdx? (· == object) := by
    rw [records, List.findIdx?_map, ← same]
    rfl
  by_cases mem : object ∈ used
  · have place : used.eraseDups.findIdx? (· == object) = some (ValueObject.number used object) :=
      List.findIdx?_eq_some_iff_findIdx_eq.2
        ⟨List.idxOf_lt_length_of_mem (List.mem_eraseDups.2 mem), rfl⟩
    rw [intern_of_found (search.trans place), ValueObject.number_append mem]
    exact ⟨records.again (by simpa using mem), rfl⟩
  · have absent : used.eraseDups.findIdx? (· == object) = none := by
      rw [List.findIdx?_eq_none_iff]
      intro other there
      exact beq_false_of_ne fun same => mem (same ▸ List.mem_eraseDups.1 there)
    have out : values.intern key = (values.size, ⟨values.slots ++ [some key]⟩) := by
      simp [ValueTable.intern, search.trans absent]
    rw [out]
    refine ⟨?_, ?_⟩
    · rw [Records, ValueObject.eraseDups_concat, if_neg mem, List.map_append, records,
        List.map_singleton, own]
    · rw [ValueObject.number_concat_self used object mem, records.size_eq]

theorem internFresh (records : values.Records used) (unshared : object.key = none)
    (fresh : object ∉ used) :
    values.internFresh.2.Records (used ++ [object]) ∧
      values.internFresh.1 = ValueObject.number (used ++ [object]) object := by
  refine ⟨?_, ?_⟩
  · rw [Records, ValueObject.eraseDups_concat, if_neg fresh, List.map_append, List.map_singleton,
      unshared]
    exact congrArg (· ++ [none]) records
  · rw [internFresh_fst, ValueObject.number_concat_self used object fresh, records.size_eq]

end ValueTable.Records

/-! ## Listings -/

namespace Listing

def references : Listing → List Nat
  | .text _ => []
  | .value index => [index]
  | .append first second => first.references ++ second.references
  | .block _ body => body.references

@[simp] theorem references_append (first second : Listing) :
    (first ++ second).references = first.references ++ second.references := rfl

@[simp] theorem references_text (content : String) : (text content).references = [] := rfl

@[simp] theorem references_value (index : Nat) : (value index).references = [index] := rfl

@[simp] theorem references_block (label : String) (body : Listing) :
    (block label body).references = body.references := rfl

@[simp] theorem references_unlines (lines : List Listing) :
    (unlines lines).references = lines.flatMap references := by
  fun_induction unlines lines with
  | case1 => rfl
  | case2 only => simp
  | case3 first next rest ih => simp [ih]

/-- The listing refers to these objects, in order, by the numbers they have after what
was used. -/
structure RefersTo (listing : Listing) (used shown : List ValueObject) : Prop where
  known : ∀ object ∈ shown, object ∈ used
  references : listing.references = shown.map (ValueObject.number used)

namespace RefersTo

variable {first second : Listing} {used more shown shown' : List ValueObject}

/-- A listing goes on to refer to its objects when others are used. -/
theorem later (refers : first.RefersTo used shown) (more : List ValueObject) :
    first.RefersTo (used ++ more) shown := by
  refine ⟨fun object mem => List.mem_append_left _ (refers.known object mem), ?_⟩
  rw [refers.references]
  apply List.map_congr_left
  intro object mem
  rw [ValueObject.number_append (refers.known object mem)]

theorem text (content : String) : (Listing.text content).RefersTo used [] :=
  ⟨fun _ mem => absurd mem List.not_mem_nil, rfl⟩

theorem append (left : first.RefersTo used shown) (right : second.RefersTo used shown') :
    (first ++ second).RefersTo used (shown ++ shown') := by
  refine ⟨List.forall_mem_append.2 ⟨left.known, right.known⟩, ?_⟩
  rw [references_append, left.references, right.references, List.map_append]

theorem appendText (left : first.RefersTo used shown) (content : String) :
    (first ++ Listing.text content).RefersTo used shown := by
  simpa using left.append (.text content)

theorem textAppend (content : String) (right : second.RefersTo used shown) :
    (Listing.text content ++ second).RefersTo used shown :=
  RefersTo.append (.text content) right

theorem block (label : String) (inner : first.RefersTo used shown) :
    (Listing.block label first).RefersTo used shown :=
  ⟨inner.known, inner.references⟩

/-- A reference to an object that was used last. -/
theorem last {index : Nat} {object : ValueObject}
    (given : index = ValueObject.number (used ++ [object]) object) :
    (Listing.value index).RefersTo (used ++ [object]) [object] := by
  refine ⟨by simp, ?_⟩
  rw [given]
  rfl

theorem concat {lines : List Listing} (above : (unlines lines).RefersTo used shown)
    (line : first.RefersTo used shown') :
    (unlines (lines ++ [first])).RefersTo used (shown ++ shown') := by
  refine ⟨List.forall_mem_append.2 ⟨above.known, line.known⟩, ?_⟩
  have references := above.references
  rw [references_unlines] at references
  rw [references_unlines, List.flatMap_append, references, List.flatMap_singleton,
    line.references, List.map_append]

theorem cons {lines : List Listing} (line : first.RefersTo used shown)
    (below : (unlines lines).RefersTo used shown') :
    (unlines (first :: lines)).RefersTo used (shown ++ shown') := by
  refine ⟨List.forall_mem_append.2 ⟨line.known, below.known⟩, ?_⟩
  have references := below.references
  rw [references_unlines] at references
  rw [references_unlines, List.flatMap_cons, references, line.references, List.map_append]

end RefersTo

end Listing

/-! ## Groups -/

namespace Handler

mutual

/-- The functions that a handler calls, depth first. -/
def functions : Handler σ → List ValueObject
  | .nested _ _ handlers => functionsAll handlers
  | .checked callback _ => [.function callback.id]
  | .unchecked callback _ => [.function callback.id]

def functionsAll : List (Handler σ) → List ValueObject
  | [] => []
  | handler :: rest => handler.functions ++ functionsAll rest

end

theorem eq_function_of_mem_functionsAll_of_forall {handlers : List (Handler σ)}
    (each : ∀ handler ∈ handlers, ∀ object ∈ handler.functions, ∃ id, object = .function id) :
    ∀ object ∈ functionsAll handlers, ∃ id, object = .function id := by
  induction handlers with
  | nil => exact fun object mem => absurd mem List.not_mem_nil
  | cons handler rest ih =>
      obtain ⟨here, later⟩ := List.forall_mem_cons.1 each
      exact List.forall_mem_append.2 ⟨here, ih later⟩

theorem eq_function_of_mem_functions (handler : Handler σ) :
    ∀ object ∈ handler.functions, ∃ id, object = .function id := by
  induction handler using Handler.induction with
  | nested group traits handlers each =>
      simp only [functions]
      exact eq_function_of_mem_functionsAll_of_forall each
  | checked callback target => exact List.forall_mem_singleton.2 ⟨callback.id, rfl⟩
  | unchecked callback target => exact List.forall_mem_singleton.2 ⟨callback.id, rfl⟩

theorem eq_function_of_mem_functionsAll {handlers : List (Handler σ)} {object : ValueObject}
    (mem : object ∈ functionsAll handlers) : ∃ id, object = .function id :=
  eq_function_of_mem_functionsAll_of_forall
    (fun handler _ => handler.eq_function_of_mem_functions) object mem

end Handler

/-- The tables number what was used, and every compiled group refers to its functions. -/
structure Tables.Indexed (tables : Tables σ) (directory : Directory σ)
    (used : List ValueObject) : Prop where
  values : tables.values.Records used
  fragments : ∀ fragment ∈ tables.cache.fragments, fragment.listing.RefersTo used
    (Handler.functionsAll (directory.groups fragment.group))

/-- The tables of a draft number what was used, and its lines refer to what is shown. -/
structure Draft.Indexed (draft : Draft σ) (directory : Directory σ)
    (used shown : List ValueObject) : Prop where
  tables : draft.tables.Indexed directory used
  lines : (Listing.unlines draft.lines).RefersTo used shown

variable {directory : Directory σ}

theorem Tables.Indexed.withValues {tables : Tables σ} {used more : List ValueObject}
    (indexed : tables.Indexed directory used) {values : ValueTable}
    (records : values.Records (used ++ more)) :
    { tables with values }.Indexed directory (used ++ more) :=
  ⟨records, fun fragment mem => (indexed.fragments fragment mem).later more⟩

namespace Draft.Indexed

variable {draft : Draft σ} {used more shown shown' : List ValueObject} {line : Listing}

theorem note (indexed : draft.Indexed directory used shown)
    (refers : line.RefersTo used shown') :
    (draft.note line).Indexed directory used (shown ++ shown') :=
  ⟨indexed.tables, indexed.lines.concat refers⟩

theorem emit (indexed : draft.Indexed directory used shown) (item : Item σ)
    (refers : line.RefersTo used shown') :
    (draft.emit item line).Indexed directory used (shown ++ shown') :=
  ⟨indexed.tables, indexed.lines.concat refers⟩

theorem assign (indexed : draft.Indexed directory used shown) (binding : Option Nat) :
    (draft.assign binding).Indexed directory used shown :=
  ⟨indexed.tables, indexed.lines⟩

theorem splice (indexed : draft.Indexed directory used shown) (ops : List (Op σ)) :
    (draft.splice ops).Indexed directory used shown :=
  ⟨indexed.tables, indexed.lines⟩

theorem bind (indexed : draft.Indexed directory used shown) :
    draft.bind.2.Indexed directory used shown :=
  ⟨indexed.tables, indexed.lines⟩

theorem openScope (indexed : draft.Indexed directory used shown) :
    draft.openScope.Indexed directory used shown := by
  rw [Draft.openScope]
  split
  · exact indexed
  · have emitted := indexed.emit .openScope (.text "async \x7b")
    rw [List.append_nil] at emitted
    exact ⟨emitted.tables, emitted.lines⟩

theorem allocate (indexed : draft.Indexed directory used shown) :
    draft.allocate.Indexed directory used shown := by
  rw [Draft.allocate]
  split
  · exact indexed
  · have emitted := indexed.emit .allocate (.text (allocationLine draft.parameterized))
    rw [List.append_nil] at emitted
    exact ⟨emitted.tables, emitted.lines⟩

theorem setValues (indexed : draft.Indexed directory used shown) {values : ValueTable}
    (records : values.Records (used ++ more)) :
    (draft.setValues values).Indexed directory (used ++ more) shown :=
  ⟨indexed.tables.withValues records, indexed.lines.later more⟩

theorem callText {α : Type} (indexed : draft.Indexed directory used shown)
    (callback : Callback σ α) :
    (draft.callText callback).1.RefersTo (used ++ [.function callback.id])
        [.function callback.id] ∧
      (draft.callText callback).2.Indexed directory (used ++ [.function callback.id]) shown := by
  obtain ⟨records, given⟩ := indexed.tables.values.intern (.function callback.id) rfl
  refine ⟨?_, indexed.setValues records⟩
  exact ((Listing.RefersTo.last given).textAppend _).appendText _

/-- A compiled group refers to the functions of the group, whether it is from the cache
or new. -/
theorem compiledGroup (indexed : draft.Indexed directory used shown) {group : Nat}
    (traits : Traits) (handlers : Nat) {build : Draft σ → Draft σ}
    (builds : ∀ child : Draft σ, child.Indexed directory used [] → (build child).Indexed directory
      (used ++ Handler.functionsAll (directory.groups group))
      (Handler.functionsAll (directory.groups group))) :
    (draft.compiledGroup group traits handlers build).1.listing.RefersTo
        (used ++ Handler.functionsAll (directory.groups group))
        (Handler.functionsAll (directory.groups group)) ∧
      (draft.compiledGroup group traits handlers build).2.Indexed directory
        (used ++ Handler.functionsAll (directory.groups group)) shown := by
  rw [Draft.compiledGroup]
  cases found : draft.tables.cache.find? group with
  | some fragment =>
      -- The functions were used when the group was first compiled.
      have number : fragment.group = group := by simpa using List.find?_some found
      have refers := indexed.tables.fragments fragment (List.mem_of_find?_eq_some found)
      rw [number] at refers
      have kept := indexed.setValues (indexed.tables.values.again refers.known)
      exact ⟨refers.later _, ⟨kept.tables.values, kept.tables.fragments⟩, kept.lines⟩
  | none =>
      have built := builds draft.derive ⟨indexed.tables, .text ""⟩
      refine ⟨built.lines, ⟨built.tables.values, ?_⟩, indexed.lines.later _⟩
      exact List.forall_mem_append.2
        ⟨built.tables.fragments, List.forall_mem_singleton.2 built.lines⟩

end Draft.Indexed

namespace Handler

variable {used shown : List ValueObject}

theorem indexed_compileAll {handlers : List (Handler σ)}
    (each : ∀ handler ∈ handlers, ∀ (draft : Draft σ) (used shown : List ValueObject),
      draft.Indexed directory used shown → (handler.compile draft).Indexed directory
        (used ++ handler.functions) (shown ++ handler.functions))
    (draft : Draft σ) (indexed : draft.Indexed directory used shown) :
    (compileAll handlers draft).Indexed directory (used ++ functionsAll handlers)
      (shown ++ functionsAll handlers) := by
  induction handlers generalizing draft used shown with
  | nil => simpa only [functionsAll, compileAll, List.append_nil] using indexed
  | cons handler rest ih =>
      obtain ⟨here, later⟩ := List.forall_mem_cons.1 each
      have step := ih later (handler.compile draft) (here draft used shown indexed)
      rw [List.append_assoc, List.append_assoc] at step
      exact step

/-- Compiling a handler uses its functions and shows them. -/
theorem indexed_compile {handler : Handler σ} (listed : directory.Lists handler)
    (draft : Draft σ) (used shown : List ValueObject)
    (indexed : draft.Indexed directory used shown) :
    (handler.compile draft).Indexed directory (used ++ handler.functions)
      (shown ++ handler.functions) := by
  induction handler using Handler.induction generalizing draft used shown with
  | nested group traits handlers each =>
      simp only [Directory.Lists] at listed
      obtain ⟨known, inner⟩ := listed
      subst known
      have builds := fun (child : Draft σ) (start : child.Indexed directory used []) =>
        indexed_compileAll (fun handler mem =>
          each handler mem (Directory.listsAll_iff.1 inner handler mem)) child start
      obtain ⟨refers, kept⟩ := indexed.compiledGroup traits
        (directory.groups group).length builds
      simp only [functions, compile]
      exact ((kept.splice _).note (refers.block _)).assign none
  | checked callback target =>
      obtain ⟨call, kept⟩ := indexed.bind.callText callback
      simp only [functions, compile]
      exact (kept.emit _ ((call.textAppend _).appendText _)).assign _
  | unchecked callback target =>
      obtain ⟨call, kept⟩ := indexed.callText callback
      simp only [functions, compile]
      exact (kept.emit _ (call.textAppend _)).assign none

end Handler

namespace Draft.Indexed

variable {draft : Draft σ} {used shown : List ValueObject}

theorem compileGroup (indexed : draft.Indexed directory used shown) {group : Group σ}
    (listed : directory.ListsGroup group) :
    (group.compile draft).1.listing.RefersTo (used ++ Handler.functionsAll group.handlers)
        (Handler.functionsAll group.handlers) ∧
      (group.compile draft).2.Indexed directory (used ++ Handler.functionsAll group.handlers)
        shown := by
  obtain ⟨known, inner⟩ := listed
  have builds := fun (child : Draft σ) (start : child.Indexed directory used []) =>
    Handler.indexed_compileAll (fun handler mem =>
      Handler.indexed_compile (Directory.listsAll_iff.1 inner handler mem)) child start
  rw [List.nil_append, ← known] at builds
  have compiled := indexed.compiledGroup group.traits group.handlers.length builds
  rw [known] at compiled
  exact compiled

theorem addGroup (indexed : draft.Indexed directory used shown) {group : Group σ}
    (listed : directory.ListsGroup group) :
    (draft.addGroup group).Indexed directory (used ++ Handler.functionsAll group.handlers)
      (shown ++ Handler.functionsAll group.handlers) := by
  obtain ⟨refers, kept⟩ := indexed.compileGroup listed
  have opened := iteInduction (motive := fun draft : Draft σ => draft.Indexed directory _ shown)
    (c := (group.compile draft).1.deferred) (fun _ => kept.openScope) (fun _ => kept)
  have ready := iteInduction (motive := fun draft : Draft σ => draft.Indexed directory _ shown)
    (c := (group.compile draft).1.needsContext) (fun _ => opened.allocate) (fun _ => opened)
  exact ready.emit _ (refers.block _)

/-- Adding groups uses their functions in order and shows them. -/
theorem addGroups (indexed : draft.Indexed directory used shown) {groups : List (Group σ)}
    (listed : ∀ group ∈ groups, directory.ListsGroup group) :
    (groups.foldl Draft.addGroup draft).Indexed directory
      (used ++ groups.flatMap fun group => Handler.functionsAll group.handlers)
      (shown ++ groups.flatMap fun group => Handler.functionsAll group.handlers) := by
  induction groups generalizing draft used shown with
  | nil => simpa only [List.flatMap_nil, List.append_nil, List.foldl_nil] using indexed
  | cons group rest ih =>
      obtain ⟨here, later⟩ := List.forall_mem_cons.1 listed
      have step := ih (indexed.addGroup here) later
      rw [List.append_assoc, List.append_assoc] at step
      exact step

end Draft.Indexed

/-! ## Terminals -/

namespace Encoder

/-- An encoder as it is put together, by one choice after the other. -/
inductive Made : Encoder → Prop
  | plain (plain : Json.Writer) : Made { plain }
  | withDefault {encoder : Encoder} (made : Made encoder) (serializer : Serializer) :
      Made (encoder.withDefault serializer)
  | withStatus {encoder : Encoder} (made : Made encoder) (status : Status)
      (serializer : Serializer) : Made (encoder.withStatus status serializer)

def defaults (encoder : Encoder) : List ValueObject :=
  encoder.default.toList.map fun serializer => .serializer serializer.id

/-- The serializers that are in effect for the statuses that have one of their own. -/
def effective (encoder : Encoder) : List ValueObject :=
  encoder.byStatus.filterMap fun choice =>
    (encoder.select choice.1).map fun serializer => .serializer serializer.id

variable {encoder : Encoder}

theorem Made.nodup (made : Made encoder) : (encoder.byStatus.map Prod.fst).Nodup := by
  induction made with
  | plain => exact List.nodup_nil
  | withDefault _ _ ih => exact ih
  | @withStatus encoder made status serializer ih =>
      rw [Encoder.withStatus, List.map_append, List.nodup_append_comm]
      refine List.nodup_cons.2 ⟨?_, ih.sublist (List.filter_sublist.map _)⟩
      simp

/-- All serializers that an encoder keeps for statuses are in effect. -/
theorem Made.effective_eq (made : Made encoder) :
    encoder.effective = encoder.byStatus.map fun choice => .serializer choice.2.id := by
  have once := made.nodup
  rw [effective, ← List.filterMap_eq_map]
  apply List.filterMap_congr
  intro choice mem
  obtain ⟨other, found⟩ : ∃ other, encoder.byStatus.find? (fun entry => entry.1 = choice.1) =
      some other := Option.isSome_iff_exists.1 (List.find?_isSome.2 ⟨choice, mem, by simp⟩)
  have same : other.1 = choice.1 := by simpa using List.find?_some found
  obtain rfl := List.inj_on_of_nodup_map once (List.mem_of_find?_eq_some found) mem same
  rw [select, found]
  rfl

theorem eq_serializer_of_mem {object : ValueObject}
    (mem : object ∈ encoder.defaults ++ encoder.effective) : ∃ id, object = .serializer id := by
  rcases List.mem_append.1 mem with default | status
  · obtain ⟨serializer, _, rfl⟩ := List.mem_map.1 default
    exact ⟨serializer.id, rfl⟩
  · obtain ⟨choice, _, chosen⟩ := List.mem_filterMap.1 status
    obtain ⟨serializer, _, rfl⟩ := Option.map_eq_some_iff.1 chosen
    exact ⟨serializer.id, rfl⟩

variable {values : ValueTable} {used : List ValueObject}

theorem references_joinCases (cases : List Listing) :
    (joinCases cases).references = cases.flatMap Listing.references := by
  fun_induction joinCases cases with
  | case1 => rfl
  | case2 only => simp
  | case3 first next rest ih => simp [ih]

theorem references_compileCases (records : values.Records used)
    (choices : List (Status × Serializer)) :
    (compileCases choices values).2.Records
        (used ++ choices.map fun choice => .serializer choice.2.id) ∧
      (compileCases choices values).1.flatMap Listing.references =
        (choices.map fun choice => .serializer choice.2.id).map
          (ValueObject.number (used ++ choices.map fun choice => .serializer choice.2.id)) := by
  induction choices generalizing values used with
  | nil =>
      rw [List.map_nil, List.append_nil]
      exact ⟨records, rfl⟩
  | cons choice rest ih =>
      obtain ⟨status, serializer⟩ := choice
      obtain ⟨records, given⟩ := records.intern (.serializer serializer.id) rfl
      obtain ⟨records, references⟩ := ih records
      rw [List.append_assoc, List.singleton_append] at records references
      refine ⟨records, ?_⟩
      have last : .serializer serializer.id ∈ used ++ [.serializer serializer.id] := by simp
      have kept := ValueObject.number_append last
        (rest.map fun choice => ValueObject.serializer choice.2.id)
      rw [List.append_assoc, List.singleton_append] at kept
      simp only [compileCases, List.flatMap_cons, references, given, Listing.references_append,
        Listing.references_text, Listing.references_value, List.map_cons, List.nil_append,
        List.singleton_append, kept]

theorem refersTo_joinCases (records : values.Records used) (choices : List (Status × Serializer)) :
    (joinCases (compileCases choices values).1).RefersTo
      (used ++ choices.map fun choice => .serializer choice.2.id)
      (choices.map fun choice => .serializer choice.2.id) := by
  refine ⟨fun object mem => List.mem_append_right _ mem, ?_⟩
  rw [references_joinCases, (references_compileCases records choices).2]

/-- Compiling an encoder uses the default serializer and then those in effect for
statuses, and shows those for statuses first. -/
theorem refersTo_compile (made : Made encoder) (records : values.Records used) :
    (encoder.compile values).1.RefersTo (used ++ (encoder.defaults ++ encoder.effective))
        (encoder.effective ++ encoder.defaults) ∧
      (encoder.compile values).2.Records
        (used ++ (encoder.defaults ++ encoder.effective)) := by
  rw [made.effective_eq]
  obtain ⟨default, byStatus, plain⟩ := encoder
  cases default with
  | none =>
      have none : (Encoder.mk none byStatus plain).defaults = [] := rfl
      rw [none, List.nil_append, List.append_nil]
      cases byStatus with
      | nil =>
          rw [List.map_nil, List.append_nil]
          exact ⟨.text "json", records⟩
      | cons choice rest =>
          have cases := refersTo_joinCases records (choice :: rest)
          exact ⟨(((cases.textAppend "json[").appendText "; default: ").appendText
            "encode").appendText "]", (references_compileCases records (choice :: rest)).1⟩
  | some serializer =>
      obtain ⟨records, given⟩ := records.intern (.serializer serializer.id) rfl
      have name := Listing.RefersTo.last given
      cases byStatus with
      | nil => exact ⟨name.textAppend "json ", records⟩
      | cons choice rest =>
          have cases := refersTo_joinCases records (choice :: rest)
          have shown := (((cases.textAppend "json[").appendText "; default: ").append
            (name.later _)).appendText "]"
          have out := (references_compileCases records (choice :: rest)).1
          rw [List.append_assoc] at shown out
          exact ⟨shown, out⟩

end Encoder

namespace Page

/-- How many parts of a page are kept apart: text is kept apart from its head. -/
def parts (page : Page) : Nat :=
  match page.body with
  | .str _ => 2
  | _ => 1

end Page

namespace Terminal

/-- What a terminal uses, in order. The parts of a page are objects of its own. -/
def objects (own : Nat → ValueObject) : Terminal σ → List ValueObject
  | .function callback => [.function callback.id]
  | .formatted callback encoder =>
    encoder.defaults ++ encoder.effective ++ [.function callback.id]
  | .fixed page => (List.range page.parts).map own

/-- What the line of a terminal refers to, in order. A function that may stop is shown
before the encoding unless the line stands in a deferred scope; of a page the last part
is shown. -/
def shown (own : Nat → ValueObject) (inScope : Bool) : Terminal σ → List ValueObject
  | .function callback => [.function callback.id]
  | .formatted callback encoder =>
    if callback.suspends && !inScope then
      .function callback.id :: (encoder.effective ++ encoder.defaults)
    else encoder.effective ++ encoder.defaults ++ [.function callback.id]
  | .fixed page => [own (page.parts - 1)]

def Made : Terminal σ → Prop
  | .formatted _ encoder => encoder.Made
  | .function _ | .fixed _ => True

variable {values : ValueTable} {used : List ValueObject}

theorem refersTo_returnLine {α : Type} (callback : Callback σ α) {index : Nat} {wrap : Listing}
    {wrapped : List ValueObject} {object : ValueObject} (wraps : wrap.RefersTo used wrapped)
    (calls : (Listing.value index).RefersTo used [object]) (payload : Option String)
    (inScope : Bool) :
    (callback.returnLine index wrap payload inScope).RefersTo used
      (if callback.suspends && !inScope then object :: wrapped else wrapped ++ [object]) := by
  simp only [Callback.returnLine]
  cases suspends : callback.suspends with
  | false =>
      exact (((wraps.textAppend "return ").appendText "(").append
        (calls.appendText _)).appendText ")"
  | true =>
      cases inScope with
      | true =>
          exact (((wraps.textAppend "return ").appendText "(await ").append
            (calls.appendText _)).appendText ")"
      | false =>
          exact ((((calls.appendText _).textAppend "return ").appendText ".then(").append
            wraps).appendText ")"

end Terminal

/-- The lines of a compiled terminal refer to what is shown outside and inside of a
deferred scope. -/
structure BuiltTerminal.RefersTo (built : BuiltTerminal σ) (used : List ValueObject)
    (inScope : Bool) (shown : Bool → List ValueObject) : Prop where
  listing : built.listing.RefersTo used (shown inScope)
  scopedListing : built.scopedListing.RefersTo used (shown true)

namespace Terminal

variable {values : ValueTable} {used : List ValueObject}

/-- The function of a terminal is used last. -/
theorem refersTo_compileTerminal {α : Type} (callback : Callback σ α) (endpoint : Endpoint σ)
    {wrap : Listing} {wrapped : List ValueObject} (wraps : wrap.RefersTo used wrapped)
    (records : values.Records used) (payload : Option String) (inScope : Bool) :
    (callback.compileTerminal endpoint wrap payload inScope values).1.RefersTo
        (used ++ [.function callback.id]) inScope (fun inScope =>
          if callback.suspends && !inScope then .function callback.id :: wrapped
          else wrapped ++ [.function callback.id]) ∧
      (callback.compileTerminal endpoint wrap payload inScope values).2.Records
        (used ++ [.function callback.id]) := by
  obtain ⟨records, given⟩ := records.intern (.function callback.id) rfl
  have line := refersTo_returnLine callback (wraps.later _) (.last given) payload
  exact ⟨⟨line inScope, line true⟩, records⟩

/-- A page is new whenever it is compiled. -/
theorem refersTo_compilePage (page : Page) {own : Nat → ValueObject} (records : values.Records used)
    (unshared : ∀ part, (own part).key = none) (apart : own 1 ≠ own 0)
    (fresh : ∀ part, own part ∉ used) (inScope : Bool) :
    (page.compile values : BuiltTerminal σ × ValueTable).1.RefersTo
        (used ++ (List.range page.parts).map own) inScope (fun _ => [own (page.parts - 1)]) ∧
      (page.compile values : BuiltTerminal σ × ValueTable).2.Records
        (used ++ (List.range page.parts).map own) := by
  obtain ⟨records₁, given₁⟩ := records.internFresh (unshared 0) (fresh 0)
  obtain ⟨body, status, headers⟩ := page
  cases body with
  | null =>
      have line := (Listing.RefersTo.last given₁).textAppend "return "
      exact ⟨⟨line, line⟩, records₁⟩
  | str text =>
      have fresh₁ : own 1 ∉ used ++ [own 0] := by simp [fresh 1, apart]
      obtain ⟨records₂, given₂⟩ := records₁.internFresh (unshared 1) fresh₁
      have line := ((Listing.RefersTo.last given₂).textAppend "return new Response(").appendText
        ")"
      rw [List.append_assoc] at line records₂
      exact ⟨⟨line, line⟩, records₂⟩
  | _ =>
      have line := ((Listing.RefersTo.last given₁).textAppend "return ").appendText ".clone()"
      exact ⟨⟨line, line⟩, records₁⟩

/-- Compiling a terminal uses its objects and shows them. -/
theorem refersTo_compile {terminal : Terminal σ} (made : terminal.Made) {own : Nat → ValueObject}
    (records : values.Records used) (unshared : ∀ part, (own part).key = none)
    (apart : own 1 ≠ own 0) (fresh : ∀ part, own part ∉ used) (payload : Option String)
    (inScope : Bool) (unhandled : Response) :
    (terminal.compile payload inScope unhandled values).1.RefersTo
        (used ++ terminal.objects own) inScope (terminal.shown own) ∧
      (terminal.compile payload inScope unhandled values).2.Records
        (used ++ terminal.objects own) := by
  cases terminal with
  | function callback =>
      obtain ⟨lines, records⟩ := refersTo_compileTerminal callback (.function callback)
        (.text "respond") records payload inScope
      have only (condition : Bool) : (if condition then [ValueObject.function callback.id]
          else [] ++ [.function callback.id]) = [.function callback.id] := by
        cases condition <;> rfl
      simp only [only] at lines
      exact ⟨lines, records⟩
  | formatted callback encoder =>
      obtain ⟨wraps, records⟩ := Encoder.refersTo_compile made records
      obtain ⟨lines, records⟩ := refersTo_compileTerminal callback
        (.formatted callback encoder unhandled) wraps records payload inScope
      rw [List.append_assoc] at lines records
      exact ⟨lines, records⟩
  | fixed page => exact refersTo_compilePage page records unshared apart fresh inScope

/-- What a terminal uses is a part of its page, a function or a serializer. -/
theorem of_mem_objects {terminal : Terminal σ} {own : Nat → ValueObject} {object : ValueObject}
    (mem : object ∈ terminal.objects own) :
    (∃ part, object = own part) ∨ (∃ id, object = .function id) ∨
      ∃ id, object = .serializer id := by
  cases terminal with
  | function callback => exact .inr (.inl ⟨_, List.mem_singleton.1 mem⟩)
  | formatted callback encoder =>
      rcases List.mem_append.1 mem with serializer | function
      · exact .inr (.inr (Encoder.eq_serializer_of_mem serializer))
      · exact .inr (.inl ⟨_, List.mem_singleton.1 function⟩)
  | fixed page =>
      obtain ⟨part, _, rfl⟩ := List.mem_map.1 mem
      exact .inl ⟨part, rfl⟩

theorem eq_own_of_mem_objects {terminal : Terminal σ} {own : Nat → ValueObject}
    {object : ValueObject} (mem : object ∈ terminal.objects own) (unshared : object.key = none) :
    ∃ part, object = own part := by
  rcases of_mem_objects mem with page | ⟨id, rfl⟩ | ⟨id, rfl⟩
  · exact page
  · cases unshared
  · cases unshared

end Terminal

end RouteTree
