import RouteTree.Proofs.Defects
import RouteTree.Proofs.LinearScan

/-!
# Which defect is reported

A tree with several defects reports one of them. The path of the first route is read
before anything else; then comes the table of faults, entry by entry, once and for
all routes; then the routes in order, each with its path and then with its place in
the router. The first defect on this way is the one that is reported.
-/

namespace RouteTree

open Http

variable {σ : Type}

theorem getElem?_middle {α : Type} (early : List α) (item : α) (rest : List α) :
    (early ++ item :: rest)[early.length]? = some item := by
  simp

namespace Defect

variable {defectAt : Nat → Defect → Prop} {defect other : Defect} {place : Nat}

def ClearTo (defectAt : Nat → Defect → Prop) (place : Nat) : Prop :=
  ∀ earlier < place, ∀ defect, ¬ defectAt earlier defect

/-- The defect is at the first place that has one. -/
def IsFirst (defectAt : Nat → Defect → Prop) (defect : Defect) : Prop :=
  ∃ place, defectAt place defect ∧ ClearTo defectAt place

theorem clearTo_zero : ClearTo defectAt 0 := by
  intro earlier less
  exact absurd less (Nat.not_lt_zero earlier)

theorem ClearTo.succ (clear : ClearTo defectAt place) (here : ∀ defect, ¬ defectAt place defect) :
    ClearTo defectAt (place + 1) := by
  intro earlier less defect found
  rcases Nat.lt_succ_iff_lt_or_eq.1 less with before | rfl
  · exact clear earlier before defect found
  · exact here defect found

theorem not_isFirst (none : ∀ place defect, ¬ defectAt place defect) (defect : Defect) :
    ¬ IsFirst defectAt defect := by
  rintro ⟨place, here, _⟩
  exact none place defect here

/-- If the first place with a defect has only one, it is the first defect. -/
theorem IsFirst.eq (first : IsFirst defectAt defect) (second : IsFirst defectAt other)
    (single : ∀ place, ClearTo defectAt place → ∀ defect other, defectAt place defect →
      defectAt place other → defect = other) : defect = other := by
  obtain ⟨place, here, clear⟩ := first
  obtain ⟨place', there, clear'⟩ := second
  have same : place = place' := by
    rcases Nat.lt_trichotomy place place' with less | same | more
    · exact absurd here (clear' place less defect)
    · exact same
    · exact absurd there (clear place' more other)
  subst same
  exact single place clear defect other here there

end Defect

/-! ## Tables of faults -/

namespace FaultTable

/-- The entry at this place binds a kind that was not issued, or else a number that an
earlier entry binds. -/
inductive DefectAt (issued : List FaultKind) (entries : List (FaultKind × Terminal σ)) :
    Nat → Defect → Prop
  | unknown {place : Nat} {kind : FaultKind} {terminal : Terminal σ}
      (here : entries[place]? = some (kind, terminal)) (foreign : kind ∉ issued) :
      DefectAt issued entries place (.unknownFault kind.id)
  | duplicate {place earlier : Nat} {kind : FaultKind} {terminal : Terminal σ}
      {other : FaultKind × Terminal σ} (here : entries[place]? = some (kind, terminal))
      (own : kind ∈ issued) (less : earlier < place) (there : entries[earlier]? = some other)
      (same : other.1.id = kind.id) :
      DefectAt issued entries place (.duplicateFault kind.id)

variable {issued : List FaultKind} {early rest : List (FaultKind × Terminal σ)} {place : Nat}
  {defect other : Defect}

theorem DefectAt.lt_length (found : DefectAt issued early place defect) :
    place < early.length := by
  cases found with
  | unknown here _ => exact (List.getElem?_eq_some_iff.1 here).1
  | duplicate here _ _ _ _ => exact (List.getElem?_eq_some_iff.1 here).1

/-- An entry has one defect at most. -/
theorem DefectAt.single (found : DefectAt issued early place defect)
    (again : DefectAt issued early place other) : defect = other := by
  cases found with
  | unknown here foreign =>
      cases again with
      | unknown here' _ =>
          cases here.symm.trans here'
          rfl
      | duplicate here' own _ _ _ =>
          cases here.symm.trans here'
          exact absurd own foreign
  | duplicate here own _ _ _ =>
      cases again with
      | unknown here' foreign =>
          cases here.symm.trans here'
          exact absurd own foreign
      | duplicate here' _ _ _ _ =>
          cases here.symm.trans here'
          rfl

section Entry

variable {kind : FaultKind} {terminal : Terminal σ}

theorem DefectAt.of_foreign (foreign : kind ∉ issued) :
    DefectAt issued (early ++ (kind, terminal) :: rest) early.length (.unknownFault kind.id) :=
  .unknown (getElem?_middle early _ rest) foreign

theorem DefectAt.of_bound (own : kind ∈ issued) (bound : ∃ entry ∈ early, entry.1.id = kind.id) :
    DefectAt issued (early ++ (kind, terminal) :: rest) early.length
      (.duplicateFault kind.id) := by
  obtain ⟨entry, mem, same⟩ := bound
  obtain ⟨earlier, less, rfl⟩ := List.getElem_of_mem mem
  refine .duplicate (getElem?_middle early _ rest) own less ?_ same
  rw [List.getElem?_append_left less, List.getElem?_eq_getElem less]

theorem not_defectAt_of_new (own : kind ∈ issued)
    (new : ¬ ∃ entry ∈ early, entry.1.id = kind.id) (defect : Defect) :
    ¬ DefectAt issued (early ++ (kind, terminal) :: rest) early.length defect := by
  intro found
  cases found with
  | unknown here foreign =>
      cases (getElem?_middle early _ rest).symm.trans here
      exact foreign own
  | @duplicate earlier _ _ other here _ less there same =>
      cases (getElem?_middle early _ rest).symm.trans here
      rw [List.getElem?_append_left less] at there
      exact new ⟨other, List.mem_of_getElem? there, same⟩

end Entry

/-- Compiling the entries that are left, after clear ones, gives the first defect of all
entries, or there is none. -/
theorem compileEntries_first {registry : FaultRegistry} {unhandled : Response} {seen : List Nat}
    {values : ValueTable}
    (owns : ∀ entry ∈ rest, registry.owns entry.1 = true ↔ entry.1 ∈ issued)
    (met : seen = (early.map fun entry => entry.1.id).reverse)
    (clear : Defect.ClearTo (DefectAt issued (early ++ rest)) early.length) :
    match (compileEntries registry unhandled seen rest values).1 with
    | .error defect => Defect.IsFirst (DefectAt issued (early ++ rest)) defect
    | .ok _ => ∀ place defect, ¬ DefectAt issued (early ++ rest) place defect := by
  induction rest generalizing early seen values with
  | nil =>
      intro place defect found
      have less := found.lt_length
      rw [List.append_nil] at less
      exact clear place less defect found
  | cons entry rest ih =>
      obtain ⟨kind, terminal⟩ := entry
      obtain ⟨own, later⟩ := List.forall_mem_cons.1 owns
      have mem_seen : kind.id ∈ seen ↔ ∃ entry ∈ early, entry.1.id = kind.id := by
        rw [met, List.mem_reverse, List.mem_map]
      by_cases owned : registry.owns kind = true
      · by_cases bound : kind.id ∈ seen
        · simp only [compileEntries, owned, bound, List.contains_iff_mem, Bool.not_true,
            Bool.false_eq_true, if_false, if_true]
          exact ⟨early.length, .of_bound (own.1 owned) (mem_seen.1 bound), clear⟩
        · -- This entry is clear as well, and is one of those that were met.
          have fine := @not_defectAt_of_new σ issued early rest kind terminal (own.1 owned)
            (mt mem_seen.2 bound)
          have step := @ih (early ++ [(kind, terminal)]) (kind.id :: seen)
            (BuiltBranch.build kind terminal unhandled values).2 later (by simp [met])
          rw [List.append_assoc, List.singleton_append, List.length_append] at step
          have step := step (clear.succ fine)
          simp only [compileEntries, owned, bound, List.contains_iff_mem, Bool.not_true,
            Bool.false_eq_true, if_false]
          generalize compileEntries registry unhandled (kind.id :: seen) rest
            (BuiltBranch.build kind terminal unhandled values).2 = out at step ⊢
          obtain ⟨defect | branches, after⟩ := out
          · exact step
          · exact step
      · simp only [compileEntries, owned, Bool.not_false, if_true]
        exact ⟨early.length, .of_foreign (mt own.2 owned), clear⟩

end FaultTable

/-! ## Routes -/

namespace Registration

/-- The route at this place has a path that cannot be read, or the method and the path
of an earlier route. -/
inductive DefectAt (routes : List (Registration σ)) : Nat → Defect → Prop
  | invalidPath {place : Nat} {route : Registration σ} {reason : PatternReason}
      (here : routes[place]? = some route) (unread : Pattern.parse route.path = .error reason) :
      DefectAt routes place (.invalidPath route.path reason)
  | duplicate {place earlier : Nat} {route other : Registration σ}
      (here : routes[place]? = some route) (less : earlier < place)
      (there : routes[earlier]? = some other) (method : other.method = route.method)
      (path : other.path = route.path) :
      DefectAt routes place (.duplicateRoute route.method route.path)

variable {routes : List (Registration σ)} {place : Nat} {defect other : Defect}

theorem DefectAt.lt_length (found : DefectAt routes place defect) : place < routes.length := by
  cases found with
  | invalidPath here _ => exact (List.getElem?_eq_some_iff.1 here).1
  | duplicate here _ _ _ _ => exact (List.getElem?_eq_some_iff.1 here).1

/-- An unread path is not a second one, because the route before it would have been the
first with a defect. -/
theorem read_of_duplicate {earlier : Nat} {route before : Registration σ} {reason : PatternReason}
    (clear : Defect.ClearTo (DefectAt routes) place) (less : earlier < place)
    (there : routes[earlier]? = some before) (path : before.path = route.path) :
    Pattern.parse route.path ≠ .error reason := by
  intro unread
  rw [← path] at unread
  exact clear earlier less _ (.invalidPath there unread)

/-- The first route with a defect has only one. -/
theorem DefectAt.single (clear : Defect.ClearTo (DefectAt routes) place)
    (found : DefectAt routes place defect) (again : DefectAt routes place other) :
    defect = other := by
  cases found with
  | invalidPath here unread =>
      cases again with
      | invalidPath here' unread' =>
          cases here.symm.trans here'
          cases unread.symm.trans unread'
          rfl
      | duplicate here' less there _ path =>
          cases here.symm.trans here'
          exact absurd unread (read_of_duplicate clear less there path)
  | duplicate here less there _ path =>
      cases again with
      | invalidPath here' unread =>
          cases here.symm.trans here'
          exact absurd unread (read_of_duplicate clear less there path)
      | duplicate here' _ _ _ _ =>
          cases here.symm.trans here'
          rfl

section Route

variable {early rest : List (Registration σ)} {route : Registration σ}

theorem DefectAt.of_unread {reason : PatternReason}
    (unread : Pattern.parse route.path = .error reason) :
    DefectAt (early ++ route :: rest) early.length (.invalidPath route.path reason) :=
  .invalidPath (getElem?_middle early route rest) unread

theorem DefectAt.of_bound
    (bound : ∃ other ∈ early, other.method = route.method ∧ other.path = route.path) :
    DefectAt (early ++ route :: rest) early.length
      (.duplicateRoute route.method route.path) := by
  obtain ⟨other, mem, method, path⟩ := bound
  obtain ⟨earlier, less, rfl⟩ := List.getElem_of_mem mem
  refine .duplicate (getElem?_middle early route rest) less ?_ method path
  rw [List.getElem?_append_left less, List.getElem?_eq_getElem less]

theorem not_defectAt_of_new {pattern : Pattern} (read : Pattern.parse route.path = .ok pattern)
    (new : ¬ ∃ other ∈ early, other.method = route.method ∧ other.path = route.path)
    (defect : Defect) : ¬ DefectAt (early ++ route :: rest) early.length defect := by
  intro found
  cases found with
  | invalidPath here unread =>
      cases (getElem?_middle early route rest).symm.trans here
      cases read.symm.trans unread
  | @duplicate earlier _ other here less there method path =>
      cases (getElem?_middle early route rest).symm.trans here
      rw [List.getElem?_append_left less] at there
      exact new ⟨other, List.mem_of_getElem? there, method, path⟩

end Route

end Registration

namespace Tree

variable {tree : Tree σ} {early rest : List (Registration σ)} {compiler : Compiler σ}
  {router : Router (Chain σ)}

structure HoldsRoutes (router : Router (Chain σ)) (routes : List (Registration σ)) : Prop where
  filed : router.Filed
  has : ∀ method path, router.Has method path ↔
    ∃ route ∈ routes, route.method = method ∧ route.path = path
  size : router.size = routes.length

theorem holdsRoutes_empty : HoldsRoutes (.empty : Router (Chain σ)) [] :=
  ⟨Router.filed_empty, fun method path => by simp [Router.not_has_empty], rfl⟩

theorem CompilesRoute.holds {registration : Registration σ} {next : Router (Chain σ)}
    {after : Compiler σ}
    (compiles : tree.CompilesRoute registration compiler router (.ok next, after))
    (vetted : compiler.Vetted tree.registry tree.faults) (holds : HoldsRoutes router early) :
    HoldsRoutes next (early ++ [registration]) := by
  obtain ⟨_, filed, has⟩ := compiles.kept vetted holds.filed
  refine ⟨filed, ?_, ?_⟩
  · intro method path
    rw [has, holds.has]
    constructor
    · rintro (⟨rfl, rfl⟩ | ⟨route, mem, same⟩)
      · exact ⟨registration, List.mem_append_right _ List.mem_cons_self, rfl, rfl⟩
      · exact ⟨route, List.mem_append_left _ mem, same⟩
    · rintro ⟨route, mem, method, path⟩
      rcases List.mem_append.1 mem with old | new
      · exact .inr ⟨route, old, method, path⟩
      · cases List.mem_singleton.1 new
        exact .inl ⟨method.symm, path.symm⟩
  · cases compiles with
    | added read compiled accepted =>
        rw [Router.size_insert, accepted, holds.size, List.length_append]
        rfl

/-- If the table of faults is sound, compiling the routes that are left, after clear ones,
gives the first defect of all routes, or there is none and the router holds them all. -/
theorem compileRoutes_first (sound : FaultTable.Sound tree.registry tree.faults)
    (vetted : compiler.Vetted tree.registry tree.faults) (holds : HoldsRoutes router early)
    (clear : Defect.ClearTo (Registration.DefectAt (early ++ rest)) early.length) :
    match (tree.compileRoutes rest compiler router).1 with
    | .error defect => Defect.IsFirst (Registration.DefectAt (early ++ rest)) defect
    | .ok after => (∀ place defect, ¬ Registration.DefectAt (early ++ rest) place defect) ∧
        HoldsRoutes after (early ++ rest) := by
  induction rest generalizing early compiler router with
  | nil =>
      rw [List.append_nil] at clear ⊢
      exact ⟨fun place defect found => clear place found.lt_length defect found, holds⟩
  | cons route rest ih =>
      have compiles := tree.compilesRoute route compiler router
      have added := compiles.ok_iff vetted holds.filed
      simp only [compileRoutes]
      generalize tree.compileRoute route compiler router = out at compiles added ⊢
      obtain ⟨defect | next, after⟩ := out
      · cases compiles with
        | invalidPath unread => exact ⟨early.length, .of_unread unread, clear⟩
        | @rejected pattern _ _ read compiled =>
            obtain ⟨chain, fine⟩ := (@Compiler.compile_ok_iff σ compiler tree.registry
              (tree.plan route) (!pattern.isStatic) vetted).1.2 sound
            rw [compiled] at fine
            cases fine
        | @duplicate _ chain _ _ read compiled refused =>
            have there : router.Has route.method route.path := by
              by_contra fresh
              rw [(Router.insert_fst holds.filed route.method read chain).2 fresh] at refused
              cases refused
            exact ⟨early.length, .of_bound ((holds.has _ _).1 there), clear⟩
      · obtain ⟨⟨pattern, read⟩, _, fresh⟩ := added.1 ⟨next, rfl⟩
        have fine := @Registration.not_defectAt_of_new σ early rest route pattern read
          (mt (holds.has _ _).2 fresh)
        have step := @ih (early ++ [route]) after next (compiles.kept vetted holds.filed).1
          (compiles.holds vetted holds)
        rw [List.append_assoc, List.singleton_append, List.length_append] at step
        exact step (clear.succ fine)

/-- If the path of a route can be read, compiling it brings the table of faults with it,
and a defect of the table is then a defect of the tree. -/
theorem compileRoutes_of_unsound {route : Registration σ} {pattern : Pattern} {defect : Defect}
    (read : Pattern.parse route.path = .ok pattern)
    (unsound : (FaultTable.compileEntries tree.registry tree.compiler.unhandled [] tree.faults
      tree.compiler.tables.values).1 = .error defect) :
    (tree.compileRoutes (route :: rest) tree.compiler router).1 = .error defect := by
  have table : (tree.faultTable.compile tree.registry tree.compiler.unhandled
      tree.compiler.tables.values).1 = .error defect := by
    simp only [FaultTable.compile, faultTable]
    generalize FaultTable.compileEntries _ _ _ _ _ = out at unsound ⊢
    obtain ⟨found | branches, values⟩ := out
    · cases unsound
      rfl
    · cases unsound
  have faults : (tree.compiler.compileFaults tree.faultTable).1 = .error defect := by
    have unmet : tree.compiler.switch? tree.faultTable.id = none := rfl
    have owner : tree.compiler.registry = tree.registry := rfl
    simp only [Compiler.compileFaults, unmet, owner]
    generalize tree.faultTable.compile _ _ _ = out at table ⊢
    obtain ⟨found | built, values⟩ := out
    · cases table
      rfl
    · cases table
  simp only [compileRoutes, compileRoute, read, Compiler.compile]
  generalize tree.compiler.compileFaults tree.faultTable = out at faults ⊢
  obtain ⟨found | built, after⟩ := out
  · cases faults
    rfl
  · cases faults

/-- The table of faults of a tree gives its first defect, or it has none and is sound. -/
theorem Built.faults_first {issued : List FaultKind} (built : Built tree issued)
    (unhandled : Response) (values : ValueTable) :
    match (FaultTable.compileEntries tree.registry unhandled [] tree.faults values).1 with
    | .error defect => Defect.IsFirst (FaultTable.DefectAt issued tree.faults) defect
    | .ok _ => (∀ place defect, ¬ FaultTable.DefectAt issued tree.faults place defect) ∧
        FaultTable.Sound tree.registry tree.faults := by
  have first := @FaultTable.compileEntries_first σ issued [] tree.faults tree.registry unhandled []
    values (fun entry mem => built.owns_iff mem) rfl Defect.clearTo_zero
  have sound := @FaultTable.compileEntries_ok_iff σ tree.registry unhandled tree.faults [] values
  rw [List.nil_append] at first
  generalize FaultTable.compileEntries tree.registry unhandled [] tree.faults values = out
    at first sound ⊢
  obtain ⟨defect | branches, after⟩ := out
  · exact first
  · exact ⟨first, (sound.1 ⟨branches, rfl⟩).1⟩

theorem compile_of_error {defect : Defect}
    (failed : (tree.compileRoutes tree.routes tree.compiler .empty).1 = .error defect) :
    tree.compile.result = .error defect := by
  rw [compile]
  generalize tree.compileRoutes tree.routes tree.compiler .empty = out at failed ⊢
  obtain ⟨found | router, compiler⟩ := out
  · cases failed
    rfl
  · cases failed

/-- The defect that is reported is the first one. However a tree with a route was put
together: if the path of its first route cannot be read, this is reported. Otherwise,
if the table of faults has a defect, its first one is reported. Otherwise, if a route has
a defect, the first one is reported. Otherwise the tree compiles, and its router has as
many routes as were registered. -/
theorem reports_first_defect {issued : List FaultKind} {first : Registration σ}
    (built : Built tree issued) (routes : tree.routes = first :: rest) :
    (∀ reason, Pattern.parse first.path = .error reason →
      tree.compile.result = .error (.invalidPath first.path reason)) ∧
    ∀ pattern, Pattern.parse first.path = .ok pattern →
      (∀ defect, Defect.IsFirst (FaultTable.DefectAt issued tree.faults) defect →
        tree.compile.result = .error defect) ∧
      ((∀ place defect, ¬ FaultTable.DefectAt issued tree.faults place defect) →
        (∀ defect, Defect.IsFirst (Registration.DefectAt tree.routes) defect →
          tree.compile.result = .error defect) ∧
        ((∀ place defect, ¬ Registration.DefectAt tree.routes place defect) →
          ∃ dispatcher, tree.compile.result = .ok dispatcher ∧
            dispatcher.router.size = tree.routes.length)) := by
  constructor
  · intro reason unread
    apply compile_of_error
    simp only [routes, compileRoutes, compileRoute, unread]
  intro pattern read
  have faults := built.faults_first tree.compiler.unhandled tree.compiler.tables.values
  cases table : (FaultTable.compileEntries tree.registry tree.compiler.unhandled [] tree.faults
      tree.compiler.tables.values).1 with
  | error found =>
      rw [table] at faults
      refine ⟨?_, fun none => ?_⟩
      · intro defect asked
        obtain rfl := asked.eq faults fun _ _ _ _ here there => here.single there
        apply compile_of_error
        rw [routes]
        exact compileRoutes_of_unsound read table
      · exact absurd faults (Defect.not_isFirst none found)
  | ok branches =>
      rw [table] at faults
      obtain ⟨none, sound⟩ := faults
      refine ⟨fun defect asked => absurd asked (Defect.not_isFirst none defect), fun _ => ?_⟩
      have compiled := @compileRoutes_first σ tree [] tree.routes tree.compiler .empty sound
        (Compiler.vetted_new _) holdsRoutes_empty Defect.clearTo_zero
      rw [List.nil_append] at compiled
      cases out : (tree.compileRoutes tree.routes tree.compiler .empty).1 with
      | error found =>
          rw [out] at compiled
          refine ⟨?_, fun none => ?_⟩
          · intro defect asked
            obtain rfl := asked.eq compiled fun _ clear _ _ here there => here.single clear there
            exact compile_of_error out
          · exact absurd compiled (Defect.not_isFirst none found)
      | ok router =>
          rw [out] at compiled
          obtain ⟨none, holds⟩ := compiled
          refine ⟨fun defect asked => absurd asked (Defect.not_isFirst none defect), fun _ => ?_⟩
          obtain ⟨dispatcher, done⟩ := compile_ok_iff.2 ⟨router, out⟩
          have same := out.symm.trans (router_of_compile done)
          cases same
          exact ⟨dispatcher, done, holds.size⟩

end Tree

namespace Sample

def tidy : Tree Nat := ((Tree.new {} { id := 0 }).declare true).2.answer ⟨0, 0, true⟩ (.fixed {})

/-- Two routes are the same, and a third has a path that cannot be read. -/
def withRoutes (tree : Tree Nat) : Tree Nat :=
  ((tree.route ⟨"GET"⟩ "/" (.fixed {})).route ⟨"GET"⟩ "/" (.fixed {})).route ⟨"GET"⟩ "a" (.fixed {})

/-- The kind is bound again, and then a kind of another registry. -/
def withKinds (tree : Tree Nat) : Tree Nat :=
  (tree.answer ⟨0, 0, true⟩ (.fixed {})).answer ⟨0, 1, true⟩ (.fixed {})

theorem built_tidy : tidy.Built [⟨0, 0, true⟩] :=
  ((Tree.Built.new {} 0).declare true).answer (.inl (List.mem_singleton.2 rfl)) _

/-- Of two defects in the table and two in the routes the first of the table is reported,
and without those in the table the first of the routes. -/
theorem reported_first :
    (withRoutes (withKinds tidy)).compile.result = .error (.duplicateFault 0) ∧
      (withRoutes tidy).compile.result = .error (.duplicateRoute ⟨"GET"⟩ "/") := by
  have read : Pattern.parse "/" = .ok ⟨"/", [.literal ""]⟩ := rfl
  have kinds : (withRoutes (withKinds tidy)).Built [⟨0, 0, true⟩] :=
    ((((built_tidy.answer (.inl (List.mem_singleton.2 rfl)) _).answer
      (.inr (by decide)) _).route _ _ _).route _ _ _).route _ _ _
  have plain : (withRoutes tidy).Built [⟨0, 0, true⟩] :=
    ((built_tidy.route _ _ _).route _ _ _).route _ _ _
  constructor
  · refine ((Tree.reports_first_defect kinds rfl).2 _ read).1 _ ⟨1, ?_, ?_⟩
    · exact .duplicate rfl (List.mem_singleton.2 rfl) Nat.zero_lt_one rfl rfl
    · intro earlier less defect found
      cases found with
      | unknown here foreign =>
          obtain rfl := Nat.lt_one_iff.1 less
          cases here
          exact foreign (List.mem_singleton.2 rfl)
      | duplicate _ _ before _ _ => omega
  · refine (((Tree.reports_first_defect plain rfl).2 _ read).2 ?_).1 _ ⟨1, ?_, ?_⟩
    · intro place defect found
      obtain rfl := Nat.lt_one_iff.1 found.lt_length
      cases found with
      | unknown here foreign =>
          cases here
          exact foreign (List.mem_singleton.2 rfl)
      | duplicate _ _ before _ _ => omega
    · have second : (withRoutes tidy).routes[1]? = some ⟨⟨"GET"⟩, "/", [], .fixed {}⟩ := rfl
      exact .duplicate second Nat.zero_lt_one rfl rfl rfl
    · intro earlier less defect found
      obtain rfl := Nat.lt_one_iff.1 less
      cases found with
      | invalidPath here unread =>
          cases here
          cases read.symm.trans unread
      | duplicate _ before _ _ _ => omega

end Sample

end RouteTree
