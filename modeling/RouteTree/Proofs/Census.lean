import Mathlib.Algebra.BigOperators.Fin
import RouteTree.Proofs.FirstUse
import RouteTree.Proofs.Refinement

/-!
# How many values there are

The numbers of a compilation are those of the distinct objects that its plans use, and
these are counted kind by kind. Functions, serializers and tables are shared, so only
distinct ones count. The parts of pages are never shared: each route has its own, and
each distinct table.
-/

namespace RouteTree

open Http

variable {σ : Type}

namespace ValueObject

def function? : ValueObject → Option Nat
  | .function id => some id
  | _ => none

def serializer? : ValueObject → Option Nat
  | .serializer id => some id
  | _ => none

inductive Kind where
  | function
  | serializer
  | table
  | page
  | faultPage
  deriving DecidableEq

namespace Kind

def shared : Kind → Bool
  | .function | .serializer | .table => true
  | .page | .faultPage => false

instance : Fintype Kind where
  elems := {.function, .serializer, .table, .page, .faultPage}
  complete kind := by cases kind <;> decide

theorem sum_eq (count : Kind → Nat) :
    ∑ kind, count kind = count .function + count .serializer + count .table + count .page +
      count .faultPage := by
  change ∑ kind ∈ {.function, .serializer, .table, .page, .faultPage}, count kind = _
  rw [Finset.sum_insert (by decide), Finset.sum_insert (by decide), Finset.sum_insert (by decide),
    Finset.sum_insert (by decide), Finset.sum_singleton]
  omega

end Kind

def kind : ValueObject → Kind
  | .function _ => .function
  | .serializer _ => .serializer
  | .table _ => .table
  | .page _ _ => .page
  | .faultPage _ _ _ => .faultPage

theorem key_eq_none {object : ValueObject} (unshared : object.kind.shared = false) :
    object.key = none := by
  cases object with
  | page | faultPage => rfl
  | _ => cases unshared

theorem length_eraseDups (used : List ValueObject) :
    used.eraseDups.length = used.toFinset.card := by
  have same : used.eraseDups.toFinset = used.toFinset := by
    ext object
    rw [List.mem_toFinset, List.mem_toFinset, List.mem_eraseDups]
  rw [← same, List.toFinset_card_of_nodup (nodup_eraseDups used)]

/-- Objects in the order of their first use have the numbers from zero on. -/
theorem map_number_eraseDups (used : List ValueObject) :
    used.eraseDups.map (number used) = List.range used.eraseDups.length := by
  apply List.ext_getElem
  · rw [List.length_map, List.length_range]
  · intro place here _
    rw [List.getElem_map, List.getElem_range, number, (nodup_eraseDups used).idxOf_getElem]

/-- Distinct objects are counted kind by kind. -/
theorem card_eq_sum_kinds (used : List ValueObject) :
    used.toFinset.card = ∑ kind : Kind, ((used.filter (·.kind = kind)).toFinset).card := by
  rw [Finset.card_eq_sum_card_fiberwise (f := kind) (t := Finset.univ) (by simp)]
  apply Finset.sum_congr rfl
  intro kind _
  rw [List.toFinset_filter]
  simp

/-- The objects of one kind, if they are given by numbers, are as many as the numbers. -/
theorem card_kind {used : List ValueObject} {kind : Kind} {make : Nat → ValueObject}
    {ids : Finset Nat} (injective : Function.Injective make)
    (made : ∀ object : ValueObject, object.kind = kind ↔ ∃ id, make id = object)
    (mem : ∀ id, id ∈ ids ↔ make id ∈ used) :
    (used.filter (·.kind = kind)).toFinset.card = ids.card := by
  rw [← Finset.card_image_of_injective ids injective]
  congr 1
  ext object
  rw [List.mem_toFinset, List.mem_filter, decide_eq_true_eq, made, Finset.mem_image]
  constructor
  · rintro ⟨there, id, rfl⟩
    exact ⟨id, (mem id).2 there, rfl⟩
  · rintro ⟨id, there, rfl⟩
    exact ⟨(mem id).1 there, id, rfl⟩

/-- Objects that tell their numbers are as many as these. -/
theorem card_told (used : List ValueObject) {kind : Kind} {make : Nat → ValueObject}
    {tell : ValueObject → Option Nat}
    (made : ∀ object : ValueObject, object.kind = kind ↔ ∃ id, make id = object)
    (told : ∀ (object : ValueObject) (id : Nat), tell object = some id ↔ object = make id) :
    (used.filter (·.kind = kind)).toFinset.card = (used.filterMap tell).toFinset.card := by
  have back (id : Nat) : tell (make id) = some id := (told _ id).2 rfl
  apply card_kind _ made
  · intro id
    simp only [List.mem_toFinset, List.mem_filterMap, told, exists_eq_right]
  · intro id other same
    have both : some id = some other := by rw [← back, ← back, same]
    exact Option.some.inj both

theorem card_functions (used : List ValueObject) :
    (used.filter (·.kind = .function)).toFinset.card =
      (used.filterMap function?).toFinset.card := by
  apply @card_told used .function .function
  · intro object
    cases object <;> simp [kind]
  · intro object id
    cases object <;> simp [function?]

theorem card_serializers (used : List ValueObject) :
    (used.filter (·.kind = .serializer)).toFinset.card =
      (used.filterMap serializer?).toFinset.card := by
  apply @card_told used .serializer .serializer
  · intro object
    cases object <;> simp [kind]
  · intro object id
    cases object <;> simp [serializer?]

/-! ## Pages -/

/-- The parts of pages, of which these are the numbers, in order and from a place on. -/
def pagesFrom (own : Nat → Nat → ValueObject) : Nat → List Nat → List ValueObject
  | _, [] => []
  | place, parts :: rest => (List.range parts).map (own place) ++ pagesFrom own (place + 1) rest

variable {own : Nat → Nat → ValueObject}

theorem le_of_mem_pagesFrom {place : Nat} {parts : List Nat} {object : ValueObject}
    (mem : object ∈ pagesFrom own place parts) :
    ∃ page part, place ≤ page ∧ object = own page part := by
  induction parts generalizing place with
  | nil => exact absurd mem List.not_mem_nil
  | cons first rest ih =>
      rcases List.mem_append.1 mem with here | later
      · obtain ⟨part, _, rfl⟩ := List.mem_map.1 here
        exact ⟨place, part, Nat.le_refl _, rfl⟩
      · obtain ⟨page, part, less, rfl⟩ := ih later
        exact ⟨page, part, Nat.le_of_succ_le less, rfl⟩

theorem card_pagesFrom (apart : ∀ page part page' part', own page part = own page' part' →
      page = page' ∧ part = part') (place : Nat) (parts : List Nat) :
    (pagesFrom own place parts).toFinset.card = parts.sum := by
  have sized : (pagesFrom own place parts).Nodup ∧
      (pagesFrom own place parts).length = parts.sum := by
    induction parts generalizing place with
    | nil => exact ⟨List.nodup_nil, rfl⟩
    | cons first rest ih =>
        obtain ⟨nodup, length⟩ := ih (place + 1)
        refine ⟨List.nodup_append.2 ⟨?_, nodup, ?_⟩, ?_⟩
        · exact List.nodup_range.map fun part part' same => (apart _ _ _ _ same).2
        · intro object here other later same
          obtain ⟨part, _, rfl⟩ := List.mem_map.1 here
          obtain ⟨page, part', less, rfl⟩ := le_of_mem_pagesFrom later
          obtain ⟨rfl, _⟩ := apart _ _ _ _ same
          exact Nat.not_succ_le_self _ less
        · rw [pagesFrom, List.length_append, List.length_map, List.length_range, length,
            List.sum_cons]
  rw [List.toFinset_card_of_nodup sized.1, sized.2]

end ValueObject

namespace Terminal

def pageParts : Terminal σ → Nat
  | .fixed page => page.parts
  | .function _ | .formatted _ _ => 0

/-- The parts of the page are what a terminal uses that is not shared. -/
theorem filter_objects (terminal : Terminal σ) {own : Nat → ValueObject} {kind : ValueObject.Kind}
    (owned : ∀ part, (own part).kind = kind) (unshared : kind.shared = false) :
    (terminal.objects own).filter (·.kind = kind) = (List.range terminal.pageParts).map own := by
  have shared (object : ValueObject) (there : object.key ≠ none) :
      ¬ decide (object.kind = kind) = true := by
    rw [decide_eq_true_eq]
    rintro rfl
    exact there (ValueObject.key_eq_none unshared)
  cases terminal with
  | function callback =>
      refine List.filter_eq_nil_iff.2 (List.forall_mem_singleton.2 ?_)
      exact shared _ (Option.some_ne_none _)
  | formatted callback encoder =>
      refine List.filter_eq_nil_iff.2 (List.forall_mem_append.2
        ⟨?_, List.forall_mem_singleton.2 ?_⟩)
      · intro object mem
        obtain ⟨id, rfl⟩ := Encoder.eq_serializer_of_mem mem
        exact shared _ (Option.some_ne_none _)
      · exact shared _ (Option.some_ne_none _)
  | fixed page =>
      refine List.filter_eq_self.2 ?_
      intro object mem
      obtain ⟨part, _, rfl⟩ := List.mem_map.1 mem
      exact decide_eq_true (owned part)

end Terminal

namespace FaultTable

theorem filter_entryObjects (table place : Nat) (entries : List (FaultKind × Terminal σ)) :
    (entryObjects table place entries).filter (·.kind = .faultPage) =
      ValueObject.pagesFrom (.faultPage table) place
        (entries.map fun entry => entry.2.pageParts) := by
  induction entries generalizing place with
  | nil => rfl
  | cons entry rest ih =>
      have here : (entry.2.objects (.faultPage table place)).filter (·.kind = .faultPage) =
          (List.range entry.2.pageParts).map (.faultPage table place) :=
        entry.2.filter_objects (fun _ => rfl) rfl
      rw [entryObjects, List.filter_append, here, ih]
      rfl

end FaultTable

namespace RoutePlan

theorem uses_append (route : Nat) (early late : List (RoutePlan σ × Bool)) :
    uses route (early ++ late) = uses route early ++ uses (route + early.length) late := by
  induction early generalizing route with
  | nil => rfl
  | cons entry rest ih =>
      obtain ⟨plan, parameterized⟩ := entry
      rw [List.cons_append, uses, uses, ih, List.append_assoc, List.length_cons,
        Nat.add_right_comm, Nat.add_assoc]

theorem filter_uses (route : Nat) (history : List (RoutePlan σ × Bool)) :
    (uses route history).filter (·.kind = .page) =
      ValueObject.pagesFrom .page route (history.map fun entry => entry.1.terminal.pageParts) := by
  induction history generalizing route with
  | nil => rfl
  | cons entry rest ih =>
      obtain ⟨plan, parameterized⟩ := entry
      have faults : plan.faults.objects.filter (·.kind = .page) = [] := by
        refine List.filter_eq_nil_iff.2 fun object mem => ?_
        rw [decide_eq_true_eq]
        intro page
        obtain ⟨_, _, rfl⟩ := FaultTable.eq_faultPage_of_mem_objects mem
          (ValueObject.key_eq_none (page ▸ rfl))
        cases page
      have functions : plan.functions.filter (·.kind = .page) = [] := by
        refine List.filter_eq_nil_iff.2 fun object mem => ?_
        rw [decide_eq_true_eq]
        exact fun page => plan.shared_of_mem_functions mem
          (ValueObject.key_eq_none (page ▸ rfl))
      have here : (plan.terminal.objects (.page route)).filter (·.kind = .page) =
          (List.range plan.terminal.pageParts).map (.page route) :=
        plan.terminal.filter_objects (fun _ => rfl) rfl
      rw [uses, objects, List.filter_append, List.filter_append, List.filter_append, faults,
        functions, here, ih]
      rfl

def tables (history : List (RoutePlan σ × Bool)) : Finset Nat :=
  (history.map fun entry => entry.1.faults.id).toFinset

/-- A table, or a page of a table, is used only with its table. -/
theorem mem_uses_iff {route : Nat} {history : List (RoutePlan σ × Bool)} {object : ValueObject}
    (bound : object.kind = .table ∨ object.kind = .faultPage) :
    object ∈ uses route history ↔ ∃ entry ∈ history, object ∈ entry.1.faults.objects := by
  induction history generalizing route with
  | nil => simp [uses]
  | cons entry rest ih =>
      obtain ⟨plan, parameterized⟩ := entry
      have elsewhere : object ∉ plan.functions ++ plan.terminal.objects (.page route) := by
        intro mem
        rcases List.mem_append.1 mem with function | terminal
        · obtain ⟨group, _, inside⟩ := List.mem_flatMap.1 function
          obtain ⟨id, rfl⟩ := Handler.eq_function_of_mem_functionsAll inside
          simp [ValueObject.kind] at bound
        · rcases Terminal.of_mem_objects terminal with ⟨part, rfl⟩ | ⟨id, rfl⟩ | ⟨id, rfl⟩ <;>
            simp [ValueObject.kind] at bound
      rw [uses, List.mem_append, ih, objects, List.mem_append, or_iff_left elsewhere,
        List.exists_mem_cons_iff]

theorem card_tables (route : Nat) (history : List (RoutePlan σ × Bool)) :
    ((uses route history).filter (·.kind = .table)).toFinset.card = (tables history).card := by
  refine ValueObject.card_kind (fun _ _ same => ValueObject.table.inj same) ?_ ?_
  · intro object
    cases object <;> simp [ValueObject.kind]
  · intro id
    rw [mem_uses_iff (.inl rfl), tables, List.mem_toFinset, List.mem_map]
    constructor
    · rintro ⟨entry, mem, rfl⟩
      exact ⟨entry, mem, List.mem_append_right _ (List.mem_singleton.2 rfl)⟩
    · rintro ⟨entry, mem, inside⟩
      rcases List.mem_append.1 inside with entries | itself
      · rcases FaultTable.of_mem_entryObjects entries with ⟨_, _, ⟨⟩⟩ | ⟨_, ⟨⟩⟩ | ⟨_, ⟨⟩⟩
      · cases List.mem_singleton.1 itself
        exact ⟨entry, mem, rfl⟩

variable {directory : Directory σ}

/-- The pages of tables are those of the entries that the tables stand for. -/
theorem faultPages_uses {history : List (RoutePlan σ × Bool)}
    (listed : ∀ entry ∈ history, directory.faults entry.1.faults.id = entry.1.faults.entries)
    (route : Nat) :
    ((uses route history).filter (·.kind = .faultPage)).toFinset =
      (tables history).biUnion fun table => (ValueObject.pagesFrom (.faultPage table) 0
        ((directory.faults table).map fun entry => entry.2.pageParts)).toFinset := by
  ext object
  simp only [List.mem_toFinset, Finset.mem_biUnion, ← FaultTable.filter_entryObjects,
    List.mem_filter, decide_eq_true_eq, tables, List.mem_map]
  constructor
  · rintro ⟨used, page⟩
    obtain ⟨entry, mem, inside⟩ := (mem_uses_iff (.inr page)).1 used
    refine ⟨entry.1.faults.id, ⟨entry, mem, rfl⟩, ?_, page⟩
    rw [listed entry mem]
    rcases List.mem_append.1 inside with entries | itself
    · exact entries
    · cases List.mem_singleton.1 itself
      cases page
  · rintro ⟨table, ⟨entry, mem, rfl⟩, inside, page⟩
    rw [listed entry mem] at inside
    exact ⟨(mem_uses_iff (.inr page)).2 ⟨entry, mem, List.mem_append_left _ inside⟩, page⟩

theorem card_faultPages {history : List (RoutePlan σ × Bool)}
    (listed : ∀ entry ∈ history, directory.faults entry.1.faults.id = entry.1.faults.entries)
    (route : Nat) :
    ((uses route history).filter (·.kind = .faultPage)).toFinset.card =
      ∑ table ∈ tables history,
        ((directory.faults table).map fun entry => entry.2.pageParts).sum := by
  rw [faultPages_uses listed, Finset.card_biUnion]
  · apply Finset.sum_congr rfl
    intro table _
    apply ValueObject.card_pagesFrom
    intro page part page' part' same
    cases same
    exact ⟨rfl, rfl⟩
  · intro table _ other _ unlike
    refine Finset.disjoint_left.2 fun object here there => ?_
    obtain ⟨_, _, _, same⟩ := ValueObject.le_of_mem_pagesFrom (List.mem_toFinset.1 here)
    obtain ⟨_, _, _, same'⟩ := ValueObject.le_of_mem_pagesFrom (List.mem_toFinset.1 there)
    cases same.symm.trans same'
    exact unlike rfl

/-- How many distinct objects plans use. -/
theorem length_eraseDups_uses {history : List (RoutePlan σ × Bool)}
    (listed : ∀ entry ∈ history, directory.faults entry.1.faults.id = entry.1.faults.entries)
    (route : Nat) :
    (uses route history).eraseDups.length =
      ((uses route history).filterMap ValueObject.function?).toFinset.card +
        ((uses route history).filterMap ValueObject.serializer?).toFinset.card +
        ((history.map fun entry => entry.1.terminal.pageParts).sum +
          ∑ table ∈ tables history,
            ((directory.faults table).map fun entry => entry.2.pageParts).sum) +
        (tables history).card := by
  have pages : ((uses route history).filter (·.kind = .page)).toFinset.card =
      (history.map fun entry => entry.1.terminal.pageParts).sum := by
    rw [filter_uses]
    apply ValueObject.card_pagesFrom
    intro page part page' part' same
    cases same
    exact ⟨rfl, rfl⟩
  rw [ValueObject.length_eraseDups, ValueObject.card_eq_sum_kinds, ValueObject.Kind.sum_eq,
    ValueObject.card_functions, ValueObject.card_serializers, card_tables, pages,
    card_faultPages listed]
  omega

end RoutePlan

namespace Compiler

variable {directory : Directory σ}

theorem results_append (compiler : Compiler σ) (early late : List (RoutePlan σ × Bool)) :
    compiler.results (early ++ late) =
      compiler.results early ++ (compiler.after early).results late := by
  induction early generalizing compiler with
  | nil => rfl
  | cons entry rest ih =>
      obtain ⟨plan, parameterized⟩ := entry
      exact congrArg _ (ih _)

/-- Numbers are given by first use. Of plans that all compile, one after the other:
the objects that have numbers are those that the plans use, in the order of their first
use; the numbers are those from zero on, two of them are the same only if the objects
are, for a function whatever becomes of its results, and no later plan changes any;
every listing refers to the objects it should. The objects are the distinct functions of
groups, terminals and entries of tables, the distinct serializers that are the default or
in effect for a status, one or two parts for each page of a route and for each page of a
distinct table, and the distinct tables. -/
theorem numbers_by_first_use {registry : FaultRegistry} {unhandled : Response}
    {history : List (RoutePlan σ × Bool)} {chains : List (Chain σ)}
    (listed : ∀ entry ∈ history, directory.ListsPlan entry.1)
    (made : ∀ entry ∈ history, entry.1.Made)
    (accepted : (new registry unhandled).results history = chains.map .ok) :
    ((new registry unhandled).after history).tables.values.slots =
      (RoutePlan.uses 0 history).eraseDups.map ValueObject.key ∧
    (RoutePlan.uses 0 history).eraseDups.map (ValueObject.number (RoutePlan.uses 0 history)) =
      List.range ((new registry unhandled).after history).stats.values ∧
    (∀ object ∈ RoutePlan.uses 0 history, ∀ other ∈ RoutePlan.uses 0 history,
      ValueObject.number (RoutePlan.uses 0 history) object =
        ValueObject.number (RoutePlan.uses 0 history) other ↔ object = other) ∧
    (∀ (α β : Type) (callback : Callback σ α) (adapt : α → β),
      ValueObject.function (callback.map adapt).id = .function callback.id) ∧
    (∀ early late, history = early ++ late →
      ((new registry unhandled).after early).tables.values.slots <+:
        ((new registry unhandled).after history).tables.values.slots ∧
      ∀ object ∈ RoutePlan.uses 0 early,
        ValueObject.number (RoutePlan.uses 0 history) object =
          ValueObject.number (RoutePlan.uses 0 early) object) ∧
    (∀ (place : Nat) (plan : RoutePlan σ) (parameterized : Bool) (chain : Chain σ),
      history[place]? = some (plan, parameterized) → chains[place]? = some chain →
        chain.listing.RefersTo (RoutePlan.uses 0 history)
          (plan.shown place chain.deferred chain.runsAtOnce)) ∧
    (∀ fragment ∈ ((new registry unhandled).after history).tables.cache.fragments,
      fragment.listing.RefersTo (RoutePlan.uses 0 history)
        (Handler.functionsAll (directory.groups fragment.group))) ∧
    ((new registry unhandled).after history).stats.values =
      ((RoutePlan.uses 0 history).filterMap ValueObject.function?).toFinset.card +
        ((RoutePlan.uses 0 history).filterMap ValueObject.serializer?).toFinset.card +
        ((history.map fun entry => entry.1.terminal.pageParts).sum +
          ∑ table ∈ RoutePlan.tables history,
            ((directory.faults table).map fun entry => entry.2.pageParts).sum) +
        (RoutePlan.tables history).card := by
  obtain ⟨indexed, shown⟩ := (indexed_new registry unhandled).after listed made accepted
  simp only [List.nil_append, new, Nat.zero_add] at shown
  have size := indexed.tables.values.size_eq
  refine ⟨indexed.tables.values, ?_, ?_, fun _ _ _ _ => rfl, ?_, shown,
    indexed.tables.fragments, ?_⟩
  · rw [ValueObject.map_number_eraseDups]
    exact congrArg List.range size.symm
  · intro object mem other _
    exact List.idxOf_inj (List.mem_eraseDups.2 mem)
  · rintro early late rfl
    obtain ⟨earlyListed, _⟩ := List.forall_mem_append.1 listed
    obtain ⟨earlyMade, _⟩ := List.forall_mem_append.1 made
    rw [results_append] at accepted
    obtain ⟨earlyChains, _, _, earlyAccepted, _⟩ := List.map_eq_append_iff.1 accepted.symm
    obtain ⟨before, _⟩ := (indexed_new registry unhandled).after earlyListed earlyMade
      earlyAccepted.symm
    have numbers := indexed.tables.values
    rw [List.nil_append, RoutePlan.uses_append] at numbers
    rw [before.tables.values, numbers, RoutePlan.uses_append]
    refine ⟨?_, fun object mem => ValueObject.number_append mem _⟩
    rw [List.nil_append, List.eraseDups_append, List.map_append]
    exact List.prefix_append _ _
  · rw [← RoutePlan.length_eraseDups_uses (fun entry mem => (listed entry mem).faults) 0]
    exact size

end Compiler

namespace Sample

/-- Answer with the count, which is written in its own way, and under one status in
another that replaced a third. -/
def tally : Terminal Nat :=
  .formatted ⟨4, .plain fun _ count => (.ok .null, count)⟩
    (((({} : Encoder).withStatus .ok ⟨0, fun _ => "first"⟩).withStatus .ok
      ⟨1, fun _ => "second"⟩).withDefault ⟨2, fun _ => "default"⟩)

def shared : List (RoutePlan Nat × Bool) :=
  [(plan, false), (⟨[visits, gate], tally, faults⟩, true), (⟨[], turnAway, faults⟩, false)]

theorem listsPlan_shared : ∀ entry ∈ shared, directory.ListsPlan entry.1 :=
  List.forall_mem_cons.2 ⟨listsPlan_plan, List.forall_mem_cons.2
    ⟨listsPlan (by simp) _ rfl, List.forall_mem_singleton.2 (listsPlan (by simp) _ rfl)⟩⟩

theorem made_shared : ∀ entry ∈ shared, entry.1.Made := by
  have faults : ∀ entry ∈ faults.entries, entry.2.Made := List.forall_mem_singleton.2 trivial
  refine List.forall_mem_cons.2 ⟨⟨trivial, faults⟩, List.forall_mem_cons.2
    ⟨⟨?_, faults⟩, List.forall_mem_singleton.2 ⟨trivial, faults⟩⟩⟩
  exact .withDefault (.withStatus (.withStatus (.plain _) _ _) _ _) _

/-- Three plans number five functions, the table, two serializers and the two parts of a
page. The serializer that was replaced has no number. -/
theorem shared_numbered :
    ((Compiler.new registry unhandled).after shared).stats.values = 10 ∧
      ((Compiler.new registry unhandled).after shared).tables.values.slots =
        [some (.callback 3), some (.table 0), some (.callback 0), some (.callback 1),
          some (.callback 2), none, none, some (.serializer 2), some (.serializer 1),
          some (.callback 4)] := by
  obtain ⟨chains, accepted⟩ : ∃ chains,
      (Compiler.new registry unhandled).results shared = chains.map .ok := ⟨[_, _, _], rfl⟩
  obtain ⟨slots, _, _, _, _, _, _, count⟩ :=
    Compiler.numbers_by_first_use listsPlan_shared made_shared accepted
  exact ⟨count.trans (by decide), slots.trans (by decide)⟩

end Sample

end RouteTree
