import RouteTree.Proofs.Refinement
import RouteTree.Proofs.Renumbering

/-!
# Recovery from a failed compilation

A plan with a defect leaves nothing behind in the compiler but numbers for objects that
were met before the defect. All later plans compile as if it had not been tried: the
same plans fail in the same way, and the others give the same chains, except that their
listings show other numbers.
-/

namespace RouteTree

open Http

variable {σ : Type} {moved moved' : List Nat}

/-! ## Terminals and tables of faults -/

namespace Encoder

variable {base : ValueTable} {first second : ValueTable}

theorem moved_joinCases {cases cases' : List Listing}
    (shown : List.Forall₂ (Listing.Moved moved) cases cases') :
    Listing.Moved moved (joinCases cases) (joinCases cases') := by
  induction shown with
  | nil => exact .text ""
  | cons head tail ih =>
      cases tail with
      | nil => exact head
      | cons next rest => exact .append (.append head (.text ", ")) ih

theorem moves_compileCases (choices : List (Status × Serializer))
    (moves : ValueTable.Moves base moved first second) :
    ∃ moved', moved <+: moved' ∧
      List.Forall₂ (Listing.Moved moved') (compileCases choices first).1
        (compileCases choices second).1 ∧
      ValueTable.Moves base moved' (compileCases choices first).2
        (compileCases choices second).2 := by
  induction choices generalizing moved first second with
  | nil => exact ⟨moved, List.prefix_rfl, .nil, moves⟩
  | cons choice rest ih =>
      obtain ⟨status, serializer⟩ := choice
      obtain ⟨moved₁, grown₁, moves₁, there⟩ := moves.intern (.serializer serializer.id)
      obtain ⟨moved₂, grown₂, shown, moves₂⟩ := ih moves₁
      exact ⟨moved₂, grown₁.trans grown₂,
        .cons (.append (.text _) ((Listing.Moved.value there).mono grown₂)) shown, moves₂⟩

theorem moves_compile (encoder : Encoder) (moves : ValueTable.Moves base moved first second) :
    ∃ moved', moved <+: moved' ∧
      Listing.Moved moved' (encoder.compile first).1 (encoder.compile second).1 ∧
      ValueTable.Moves base moved' (encoder.compile first).2 (encoder.compile second).2 := by
  obtain ⟨default, byStatus⟩ := encoder
  cases default with
  | none =>
      cases byStatus with
      | nil => exact ⟨moved, List.prefix_rfl, .text "json", moves⟩
      | cons choice rest =>
          obtain ⟨moved', grown, shown, moves'⟩ := moves_compileCases (choice :: rest) moves
          exact ⟨moved', grown, .append (.append (.append (.append (.text _)
            (moved_joinCases shown)) (.text _)) (.text _)) (.text _), moves'⟩
  | some serializer =>
      obtain ⟨moved₁, grown₁, moves₁, there⟩ := moves.intern (.serializer serializer.id)
      cases byStatus with
      | nil => exact ⟨moved₁, grown₁, .append (.text _) (.value there), moves₁⟩
      | cons choice rest =>
          obtain ⟨moved₂, grown₂, shown, moves₂⟩ := moves_compileCases (choice :: rest) moves₁
          exact ⟨moved₂, grown₁.trans grown₂, .append (.append (.append (.append (.text _)
            (moved_joinCases shown)) (.text _)) ((Listing.Moved.value there).mono grown₂))
            (.text _), moves₂⟩

end Encoder

/-- The second compiled terminal is the first one with the numbers of its lines moved. -/
structure BuiltTerminal.Moved (moved : List Nat) (first second : BuiltTerminal σ) : Prop where
  endpoint : second.endpoint = first.endpoint
  needsContext : second.needsContext = first.needsContext
  listing : first.listing.Moved moved second.listing
  scopedListing : first.scopedListing.Moved moved second.scopedListing

namespace Terminal

variable {base : ValueTable} {first second : ValueTable}

theorem moved_returnLine {α : Type} (callback : Callback σ α) {index index' : Nat}
    {wrap wrap' : Listing} (there : moved[index]? = some index') (wraps : wrap.Moved moved wrap')
    (payload : Option String) (inScope : Bool) :
    Listing.Moved moved (callback.returnLine index wrap payload inScope)
      (callback.returnLine index' wrap' payload inScope) := by
  have call (arguments : String) : Listing.Moved moved
      (Listing.value index ++ Listing.text ("(" ++ arguments ++ ")"))
      (Listing.value index' ++ Listing.text ("(" ++ arguments ++ ")")) :=
    .append (.value there) (.text _)
  simp only [Callback.returnLine]
  split
  · exact .append (.append (.append (.append (.text _) wraps) (.text _)) (call _)) (.text _)
  · split
    · exact .append (.append (.append (.append (.text _) wraps) (.text _)) (call _)) (.text _)
    · exact .append (.append (.append (.append (.text _) (call _)) (.text _)) wraps) (.text _)

theorem moves_compileTerminal {α : Type} (callback : Callback σ α) (endpoint : Endpoint σ)
    {wrap wrap' : Listing} (payload : Option String) (inScope : Bool)
    (moves : ValueTable.Moves base moved first second) (wraps : wrap.Moved moved wrap') :
    ∃ moved', moved <+: moved' ∧
      BuiltTerminal.Moved moved' (callback.compileTerminal endpoint wrap payload inScope first).1
        (callback.compileTerminal endpoint wrap' payload inScope second).1 ∧
      ValueTable.Moves base moved'
        (callback.compileTerminal endpoint wrap payload inScope first).2
        (callback.compileTerminal endpoint wrap' payload inScope second).2 := by
  obtain ⟨moved', grown, moves', there⟩ := moves.intern (.callback callback.id)
  refine ⟨moved', grown, ⟨rfl, rfl, ?_, ?_⟩, moves'⟩
  · exact moved_returnLine callback there (wraps.mono grown) payload inScope
  · exact moved_returnLine callback there (wraps.mono grown) payload true

theorem moves_compilePage (page : Page) (moves : ValueTable.Moves base moved first second) :
    ∃ moved', moved <+: moved' ∧
      BuiltTerminal.Moved moved' (page.compile first : BuiltTerminal σ × ValueTable).1
        (page.compile second).1 ∧
      ValueTable.Moves base moved' (page.compile first : BuiltTerminal σ × ValueTable).2
        (page.compile second : BuiltTerminal σ × ValueTable).2 := by
  obtain ⟨moved₁, grown₁, moves₁, there₁⟩ := moves.internFresh
  obtain ⟨body, status, headers⟩ := page
  cases body with
  | null =>
      have line := Listing.Moved.append (.text "return ") (.value there₁)
      exact ⟨moved₁, grown₁, ⟨rfl, rfl, line, line⟩, moves₁⟩
  | str text =>
      obtain ⟨moved₂, grown₂, moves₂, there₂⟩ := moves₁.internFresh
      have line := Listing.Moved.append (.append (.text "return new Response(") (.value there₂))
        (.text ")")
      exact ⟨moved₂, grown₁.trans grown₂, ⟨rfl, rfl, line, line⟩, moves₂⟩
  | _ =>
      have line := Listing.Moved.append (.append (.text "return ") (.value there₁))
        (.text ".clone()")
      exact ⟨moved₁, grown₁, ⟨rfl, rfl, line, line⟩, moves₁⟩

theorem moves_compile (terminal : Terminal σ) (payload : Option String) (inScope : Bool)
    (unhandled : Response) (moves : ValueTable.Moves base moved first second) :
    ∃ moved', moved <+: moved' ∧
      BuiltTerminal.Moved moved' (terminal.compile payload inScope unhandled first).1
        (terminal.compile payload inScope unhandled second).1 ∧
      ValueTable.Moves base moved' (terminal.compile payload inScope unhandled first).2
        (terminal.compile payload inScope unhandled second).2 := by
  cases terminal with
  | function callback =>
      exact moves_compileTerminal callback (.function callback) payload inScope moves
        (.text "respond")
  | formatted callback encoder =>
      obtain ⟨moved₁, grown₁, wraps, moves₁⟩ := encoder.moves_compile moves
      obtain ⟨moved₂, grown₂, built, moves₂⟩ := moves_compileTerminal callback
        (.formatted callback encoder unhandled) payload inScope moves₁ wraps
      exact ⟨moved₂, grown₁.trans grown₂, built, moves₂⟩
  | fixed page => exact moves_compilePage page moves

end Terminal

/-- Two results are the same defect, or both are fine and related. -/
inductive Agree {α β : Type} (related : α → β → Prop) :
    Except Defect α → Except Defect β → Prop
  | error (defect : Defect) : Agree related (.error defect) (.error defect)
  | ok {a : α} {b : β} (same : related a b) : Agree related (.ok a) (.ok b)

theorem Agree.imp {α β : Type} {related related' : α → β → Prop}
    {result : Except Defect α} {result' : Except Defect β} (agree : Agree related result result')
    (weaker : ∀ a b, related a b → related' a b) : Agree related' result result' := by
  cases agree with
  | error defect => exact .error defect
  | ok same => exact .ok (weaker _ _ same)

structure BuiltBranch.Moved (moved : List Nat) (first second : BuiltBranch σ) : Prop where
  id : second.id = first.id
  branch : second.branch = first.branch
  listing : first.listing.Moved moved second.listing
  scopedListing : first.scopedListing.Moved moved second.scopedListing

structure BuiltSwitch.Moved (moved : List Nat) (first second : BuiltSwitch σ) : Prop where
  switch : second.switch = first.switch
  listing : first.listing.Moved moved second.listing
  scopedListing : first.scopedListing.Moved moved second.scopedListing

theorem BuiltSwitch.Moved.mono {switch switch' : BuiltSwitch σ}
    (same : switch.Moved moved switch') (grown : moved <+: moved') : switch.Moved moved' switch' :=
  { same with
    listing := same.listing.mono grown
    scopedListing := same.scopedListing.mono grown }

namespace BuiltBranch

variable {base first second : ValueTable}

theorem Moved.mono {branch branch' : BuiltBranch σ} (same : branch.Moved moved branch')
    (grown : moved <+: moved') : branch.Moved moved' branch' :=
  { same with
    listing := same.listing.mono grown
    scopedListing := same.scopedListing.mono grown }

theorem moved_withContext (needsContext : Bool) {listing listing' : Listing}
    (shown : listing.Moved moved listing') :
    Listing.Moved moved (withContext needsContext listing) (withContext needsContext listing') := by
  cases needsContext with
  | false => exact shown
  | true => exact .append (.text _) shown

theorem moves_build (kind : FaultKind) (terminal : Terminal σ) (unhandled : Response)
    (moves : ValueTable.Moves base moved first second) :
    ∃ moved', moved <+: moved' ∧
      Moved moved' (build kind terminal unhandled first).1
        (build kind terminal unhandled second).1 ∧
      ValueTable.Moves base moved' (build kind terminal unhandled first).2
        (build kind terminal unhandled second).2 := by
  obtain ⟨moved', grown, built, moves'⟩ := terminal.moves_compile
    (if kind.dynamic then some "e.payload" else none) false unhandled moves
  refine ⟨moved', grown, ?_, moves'⟩
  simp only [build, built.endpoint, built.needsContext]
  exact ⟨rfl, rfl, moved_withContext _ built.listing, moved_withContext _ built.scopedListing⟩

theorem moved_render {listing : BuiltBranch σ → Listing} {branches branches' : List (BuiltBranch σ)}
    (shows : ∀ branch branch', branch.Moved moved branch' →
      Listing.Moved moved (listing branch) (listing branch'))
    (same : List.Forall₂ (Moved moved) branches branches') :
    Listing.Moved moved (render listing branches) (render listing branches') := by
  refine .block _ (Listing.moved_unlines ?_)
  cases same with
  | nil => exact .cons (.text _) .nil
  | cons head tail =>
      cases tail with
      | nil =>
          simp only [head.id]
          exact .cons (.block _ (shows _ _ head)) (.cons (.text _) .nil)
      | cons next rest =>
          refine List.rel_append ?_ (.cons (.text _) .nil)
          rw [List.forall₂_map_left_iff, List.forall₂_map_right_iff]
          refine (List.Forall₂.cons head (.cons next rest)).imp fun branch branch' same => ?_
          rw [same.id]
          exact .block _ (shows _ _ same)

end BuiltBranch

namespace FaultTable

variable {base first second : ValueTable}

theorem moves_compileEntries (registry : FaultRegistry) (unhandled : Response)
    (entries : List (FaultKind × Terminal σ)) (seen : List Nat)
    (moves : ValueTable.Moves base moved first second) :
    ∃ moved', moved <+: moved' ∧
      Agree (List.Forall₂ (BuiltBranch.Moved moved'))
        (compileEntries registry unhandled seen entries first).1
        (compileEntries registry unhandled seen entries second).1 ∧
      ValueTable.Moves base moved' (compileEntries registry unhandled seen entries first).2
        (compileEntries registry unhandled seen entries second).2 := by
  induction entries generalizing seen moved first second with
  | nil => exact ⟨moved, List.prefix_rfl, .ok .nil, moves⟩
  | cons entry rest ih =>
      obtain ⟨kind, terminal⟩ := entry
      simp only [compileEntries]
      split
      · exact ⟨moved, List.prefix_rfl, .error _, moves⟩
      · split
        · exact ⟨moved, List.prefix_rfl, .error _, moves⟩
        · obtain ⟨moved₁, grown₁, built, moves₁⟩ :=
            BuiltBranch.moves_build kind terminal unhandled moves
          obtain ⟨moved₂, grown₂, later, moves₂⟩ := ih (kind.id :: seen) moves₁
          refine ⟨moved₂, grown₁.trans grown₂, ?_⟩
          generalize compileEntries registry unhandled (kind.id :: seen) rest
            (BuiltBranch.build kind terminal unhandled first).2 = out at later moves₂ ⊢
          generalize compileEntries registry unhandled (kind.id :: seen) rest
            (BuiltBranch.build kind terminal unhandled second).2 = out' at later moves₂ ⊢
          obtain ⟨result, values⟩ := out
          obtain ⟨result', values'⟩ := out'
          cases later with
          | error defect => exact ⟨.error defect, moves₂⟩
          | ok same => exact ⟨.ok (.cons (built.mono grown₂) same), moves₂⟩

theorem moved_switchOf {branches branches' : List (BuiltBranch σ)} (unhandled : Response)
    (same : List.Forall₂ (BuiltBranch.Moved moved) branches branches') :
    (switchOf branches unhandled).Moved moved (switchOf branches' unhandled) := by
  have entries : branches'.map (fun branch => (branch.id, branch.branch)) =
      branches.map fun branch => (branch.id, branch.branch) := by
    induction same with
    | nil => rfl
    | cons head _ ih => rw [List.map_cons, List.map_cons, ih, head.id, head.branch]
  refine ⟨?_, ?_, ?_⟩
  · simp only [switchOf, entries]
  · exact BuiltBranch.moved_render (fun _ _ same => same.listing) same
  · exact BuiltBranch.moved_render (fun _ _ same => same.scopedListing) same

theorem moves_compile (table : FaultTable σ) (registry : FaultRegistry) (unhandled : Response)
    (moves : ValueTable.Moves base moved first second) :
    ∃ moved', moved <+: moved' ∧
      Agree (BuiltSwitch.Moved moved') (table.compile registry unhandled first).1
        (table.compile registry unhandled second).1 ∧
      ValueTable.Moves base moved' (table.compile registry unhandled first).2
        (table.compile registry unhandled second).2 := by
  obtain ⟨moved', grown, same, moves'⟩ :=
    moves_compileEntries registry unhandled table.entries [] moves
  refine ⟨moved', grown, ?_⟩
  rw [compile, compile]
  generalize compileEntries registry unhandled [] table.entries first = out at same moves' ⊢
  generalize compileEntries registry unhandled [] table.entries second = out' at same moves' ⊢
  obtain ⟨result, values⟩ := out
  obtain ⟨result', values'⟩ := out'
  cases same with
  | error defect => exact ⟨.error defect, moves'⟩
  | ok same => exact ⟨.ok (moved_switchOf unhandled same), moves'⟩

end FaultTable

/-! ## Chains -/

inductive Stage.Moved (moved : List Nat) : Stage σ → Stage σ → Prop
  | allocate : Moved moved .allocate .allocate
  | group {fragment fragment' : Fragment σ} (same : fragment.Moved moved fragment') :
      Moved moved (.group fragment) (.group fragment')

structure Chain.Moved (moved : List Nat) (first second : Chain σ) : Prop where
  eager : List.Forall₂ (Stage.Moved moved) first.eager second.eager
  scope : Option.Rel (List.Forall₂ (Stage.Moved moved)) first.scope second.scope
  endpoint : second.endpoint = first.endpoint
  switch : second.switch = first.switch
  listing : first.listing.Moved moved second.listing

theorem Stage.Moved.mono {stage stage' : Stage σ} (same : stage.Moved moved stage')
    (grown : moved <+: moved') : stage.Moved moved' stage' := by
  cases same with
  | allocate => exact .allocate
  | group same => exact .group (same.mono grown)

theorem Chain.Moved.mono {chain chain' : Chain σ} (same : chain.Moved moved chain')
    (grown : moved <+: moved') : chain.Moved moved' chain' :=
  { same with
    eager := same.eager.imp fun _ _ same => same.mono grown
    scope := by
      have scope := same.scope
      generalize chain.scope = here at scope ⊢
      generalize chain'.scope = there at scope ⊢
      cases scope with
      | none => exact .none
      | some stages => exact .some (stages.imp fun _ _ same => same.mono grown)
    listing := same.listing.mono grown }

namespace Draft

variable {base : ValueTable} {first second : Draft σ}

def PartsMoved (moved : List Nat) (parts parts' : List (Stage σ) × Option (List (Stage σ))) :
    Prop :=
  List.Forall₂ (Stage.Moved moved) parts.1 parts'.1 ∧
    Option.Rel (List.Forall₂ (Stage.Moved moved)) parts.2 parts'.2

theorem PartsMoved.place {parts parts' : List (Stage σ) × Option (List (Stage σ))}
    (same : PartsMoved moved parts parts') {item item' : Item σ} (one : item.Moved moved item') :
    PartsMoved moved (place parts item) (place parts' item') := by
  obtain ⟨eager, scope⟩ := parts
  obtain ⟨eager', scope'⟩ := parts'
  obtain ⟨first, second⟩ := same
  have behind {stages stages' : List (Stage σ)} {stage stage' : Stage σ}
      (front : List.Forall₂ (Stage.Moved moved) stages stages') (last : stage.Moved moved stage') :
      List.Forall₂ (Stage.Moved moved) (stages ++ [stage]) (stages' ++ [stage']) :=
    List.rel_append front (.cons last .nil)
  cases one with
  | openScope => exact ⟨first, .some .nil⟩
  | op =>
      cases second with
      | none => simpa [Draft.place, stage?] using ⟨first, .none⟩
      | some second => simpa [Draft.place, stage?] using ⟨first, .some second⟩
  | allocate =>
      cases second with
      | none => exact ⟨behind first .allocate, .none⟩
      | some second => exact ⟨first, .some (behind second .allocate)⟩
  | group one =>
      cases second with
      | none => exact ⟨behind first (.group one), .none⟩
      | some second => exact ⟨first, .some (behind second (.group one))⟩

theorem PartsMoved.foldl {items items' : List (Item σ)}
    (all : List.Forall₂ (Item.Moved moved) items items')
    {parts parts' : List (Stage σ) × Option (List (Stage σ))}
    (same : PartsMoved moved parts parts') :
    PartsMoved moved (items.foldl Draft.place parts) (items'.foldl Draft.place parts') := by
  induction all generalizing parts parts' with
  | nil => exact same
  | cons head _ ih => exact ih (same.place head)

theorem moved_split {items items' : List (Item σ)}
    (all : List.Forall₂ (Item.Moved moved) items items') :
    PartsMoved moved (split items) (split items') :=
  .foldl all ⟨.nil, .none⟩

theorem any_fragment_eq {stages stages' : List (Stage σ)}
    (same : List.Forall₂ (Stage.Moved moved) stages stages') :
    (stages'.any fun stage => stage.fragment?.isSome) =
      stages.any fun stage => stage.fragment?.isSome := by
  induction same with
  | nil => rfl
  | cons head _ ih =>
      rw [List.any_cons, List.any_cons, ih]
      cases head <;> rfl

theorem Moves.toChain (moves : Moves base moved first second) (endpoint : Endpoint σ)
    {faults faults' : BuiltSwitch σ} (same : faults.Moved moved faults') :
    (first.toChain endpoint faults).Moved moved (second.toChain endpoint faults') := by
  obtain ⟨eager, scope⟩ := moved_split moves.items
  refine ⟨eager, scope, rfl, same.switch, ?_⟩
  simp only [Draft.toChain, moves.scopeOpen, any_fragment_eq eager]
  refine .append (.append (Listing.moved_unlines moves.lines) ?_) ?_
  · split
    · exact .append (.text _) same.scopedListing
    · exact .text _
  · split
    · exact .append (.text _) same.listing
    · exact .text _

theorem Moves.addTerminal (moves : Moves base moved first second) (terminal : Terminal σ)
    (unhandled : Response) :
    ∃ moved', moved <+: moved' ∧
      (second.addTerminal terminal unhandled).1 = (first.addTerminal terminal unhandled).1 ∧
      Moves base moved' (first.addTerminal terminal unhandled).2
        (second.addTerminal terminal unhandled).2 := by
  obtain ⟨moved', grown, built, values⟩ :=
    terminal.moves_compile none first.scopeOpen unhandled moves.tables.values
  simp only [Draft.addTerminal, moves.scopeOpen, built.needsContext]
  have set := moves.setValues grown values
  have ready := rel_ite (Moves base moved') (terminal.compile none first.scopeOpen unhandled
    first.tables.values).1.needsContext set.allocate set
  exact ⟨moved', grown, built.endpoint, ready.note built.listing⟩

end Draft

/-! ## Compilers -/

namespace Compiler

/-- The second compiler is the first one with all numbers moved. -/
structure Moves (base : ValueTable) (moved : List Nat) (first second : Compiler σ) : Prop where
  registry : second.registry = first.registry
  unhandled : second.unhandled = first.unhandled
  tables : first.tables.Moves base moved second.tables
  switches : List.Forall₂ (fun entry entry' : Nat × BuiltSwitch σ =>
    entry'.1 = entry.1 ∧ entry.2.Moved moved entry'.2) first.switches second.switches
  nextBinding : second.nextBinding = first.nextBinding
  routes : second.routes = first.routes

namespace Moves

variable {base : ValueTable} {first second : Compiler σ}

theorem withValues (moves : Moves base moved first second) (grown : moved <+: moved')
    {values values' : ValueTable} (values_move : ValueTable.Moves base moved' values values') :
    Moves base moved' { first with tables := { first.tables with values } }
      { second with tables := { second.tables with values := values' } } :=
  { moves with
    tables :=
      { moves.tables with
        values := values_move
        fragments := moves.tables.fragments.imp fun _ _ same => same.mono grown }
    switches := moves.switches.imp fun _ _ same => ⟨same.1, same.2.mono grown⟩ }

theorem switch? (moves : Moves base moved first second) (table : Nat) :
    Option.Rel (BuiltSwitch.Moved moved) (first.switch? table) (second.switch? table) := by
  have found := @rel_find? _ _ _ (fun entry => entry.1 = table) (fun entry => entry.1 = table)
    (fun _ _ same => by rw [same.1]) _ _ moves.switches
  rw [Compiler.switch?, Compiler.switch?]
  generalize first.switches.find? _ = here at found ⊢
  generalize second.switches.find? _ = there at found ⊢
  cases found with
  | none => exact .none
  | some same => exact .some same.2

theorem compileFaults (moves : Moves base moved first second) (table : FaultTable σ) :
    ∃ moved', moved <+: moved' ∧
      Agree (BuiltSwitch.Moved moved') (first.compileFaults table).1
        (second.compileFaults table).1 ∧
      Moves base moved' (first.compileFaults table).2 (second.compileFaults table).2 := by
  have found := moves.switch? table.id
  rw [Compiler.compileFaults, Compiler.compileFaults]
  generalize first.switch? table.id = here at found ⊢
  generalize second.switch? table.id = there at found ⊢
  cases found with
  | some same => exact ⟨moved, List.prefix_rfl, .ok same, moves⟩
  | none =>
      obtain ⟨moved₁, grown₁, same, values₁⟩ :=
        table.moves_compile first.registry first.unhandled moves.tables.values
      have arguments : table.compile second.registry second.unhandled second.tables.values =
          table.compile first.registry first.unhandled second.tables.values := by
        rw [moves.registry, moves.unhandled]
      simp only [arguments]
      generalize table.compile first.registry first.unhandled first.tables.values = out
        at same values₁ ⊢
      generalize table.compile first.registry first.unhandled second.tables.values = out'
        at same values₁ ⊢
      obtain ⟨result, values⟩ := out
      obtain ⟨result', values'⟩ := out'
      cases same with
      | error defect => exact ⟨moved₁, grown₁, .error defect, moves.withValues grown₁ values₁⟩
      | ok same =>
          obtain ⟨moved₂, grown₂, values₂, _⟩ := values₁.intern (.table table.id)
          have later := moves.withValues (grown₁.trans grown₂) values₂
          have kept := same.mono grown₂
          exact ⟨moved₂, grown₁.trans grown₂, .ok kept,
            { later with
              tables := { later.tables with journal := congrArg (_ ++ ·) moves.tables.journal }
              switches := List.rel_append later.switches (.cons ⟨rfl, kept⟩ .nil) }⟩

theorem assemble (moves : Moves base moved first second) (plan : RoutePlan σ)
    (parameterized : Bool) {faults faults' : BuiltSwitch σ} (same : faults.Moved moved faults') :
    ∃ moved', moved <+: moved' ∧
      (first.assemble plan parameterized faults).1.Moved moved'
        (second.assemble plan parameterized faults').1 ∧
      Moves base moved' (first.assemble plan parameterized faults).2
        (second.assemble plan parameterized faults').2 := by
  have start : Draft.Moves base moved
      (.new first.tables first.nextBinding parameterized)
      (.new second.tables second.nextBinding parameterized) :=
    { items := .nil, lines := .nil, bindings := rfl, tables := moves.tables
      nextBinding := moves.nextBinding, scopeOpen := rfl, contextReady := rfl
      parameterized := rfl }
  obtain ⟨moved₁, grown₁, grouped⟩ := Draft.respects_addGroups plan.groups moved _ _ start
  obtain ⟨moved₂, grown₂, endpoint, ended⟩ :=
    grouped.addTerminal plan.terminal faults.switch.unhandled
  have grown := grown₁.trans grown₂
  refine ⟨moved₂, grown, ?_⟩
  simp only [Compiler.assemble, same.switch, endpoint]
  exact ⟨ended.toChain _ (same.mono grown),
    { moves with
      tables := ended.tables
      switches := moves.switches.imp fun _ _ same => ⟨same.1, same.2.mono grown⟩
      nextBinding := ended.nextBinding
      routes := congrArg (· + 1) moves.routes }⟩

theorem compile (moves : Moves base moved first second) (plan : RoutePlan σ)
    (parameterized : Bool) :
    ∃ moved', moved <+: moved' ∧
      Agree (Chain.Moved moved') (first.compile plan parameterized).1
        (second.compile plan parameterized).1 ∧
      Moves base moved' (first.compile plan parameterized).2
        (second.compile plan parameterized).2 := by
  obtain ⟨moved₁, grown₁, faults, moves₁⟩ := moves.compileFaults plan.faults
  rw [Compiler.compile, Compiler.compile]
  generalize first.compileFaults plan.faults = out at faults moves₁ ⊢
  generalize second.compileFaults plan.faults = out' at faults moves₁ ⊢
  obtain ⟨result, after⟩ := out
  obtain ⟨result', after'⟩ := out'
  cases faults with
  | error defect => exact ⟨moved₁, grown₁, .error defect, moves₁⟩
  | ok same =>
      obtain ⟨moved₂, grown₂, chain, moves₂⟩ := moves₁.assemble plan parameterized same
      exact ⟨moved₂, grown₁.trans grown₂, .ok chain, moves₂⟩

/-- Plans in order give the same in both, up to the numbers. -/
theorem results (moves : Moves base moved first second) (later : List (RoutePlan σ × Bool)) :
    ∃ moved', moved <+: moved' ∧
      List.Forall₂ (Agree (Chain.Moved moved')) (first.results later) (second.results later) ∧
      Moves base moved' (first.after later) (second.after later) := by
  induction later generalizing moved first second with
  | nil => exact ⟨moved, List.prefix_rfl, .nil, moves⟩
  | cons entry rest ih =>
      obtain ⟨plan, parameterized⟩ := entry
      obtain ⟨moved₁, grown₁, same, moves₁⟩ := moves.compile plan parameterized
      obtain ⟨moved₂, grown₂, later, moves₂⟩ := ih moves₁
      exact ⟨moved₂, grown₁.trans grown₂,
        .cons (same.imp fun _ _ same => same.mono grown₂) later, moves₂⟩

/-- A compiler with its own numbers moves to the one that numbers more objects. -/
theorem extended {moved : List Nat} (moves : Moves base moved first first) {values : ValueTable}
    (grown : first.tables.values.slots <+: values.slots) (once : values.Once) :
    Moves first.tables.values (List.range first.tables.values.size) first
      { first with tables := { first.tables with values } } := by
  rw [← moves.tables.values.length_eq]
  refine ⟨rfl, rfl, ⟨?_, ?_, rfl, rfl⟩, ?_, rfl, rfl⟩
  · rw [moves.tables.values.length_eq]
    exact .of_grown grown once
  · have shown := List.forall₂_same.1 moves.tables.fragments
    exact List.forall₂_same.2 fun fragment mem =>
      { shown fragment mem with listing := (shown fragment mem).listing.fixed }
  · have shown := List.forall₂_same.1 moves.switches
    exact List.forall₂_same.2 fun entry mem =>
      ⟨rfl, rfl, (shown entry mem).2.listing.fixed, (shown entry mem).2.scopedListing.fixed⟩

theorem stats_eq (moves : Moves base moved first second) :
    second.stats = { first.stats with values := second.stats.values } := by
  have groups : second.tables.cache.size = first.tables.cache.size :=
    moves.tables.fragments.length_eq.symm
  have faultTables : second.switches.length = first.switches.length :=
    moves.switches.length_eq.symm
  simp only [stats, moves.routes, groups, moves.tables.hits, faultTables, moves.nextBinding]

end Moves

end Compiler

/-! ## Chains with other numbers -/

def Fragment.rename (number : Nat → Nat) (fragment : Fragment σ) : Fragment σ :=
  { fragment with listing := fragment.listing.rename number }

def Stage.rename (number : Nat → Nat) : Stage σ → Stage σ
  | .allocate => .allocate
  | .group fragment => .group (fragment.rename number)

/-- Change the numbers that the listings of a chain show. -/
def Chain.rename (number : Nat → Nat) (chain : Chain σ) : Chain σ :=
  { chain with
    eager := chain.eager.map (Stage.rename number)
    scope := chain.scope.map (List.map (Stage.rename number))
    listing := chain.listing.rename number }

section Rename

variable {number : Nat → Nat}
  (agrees : ∀ index place : Nat, moved[index]? = some place → number index = place)

include agrees

theorem Fragment.Moved.eq_rename {fragment fragment' : Fragment σ}
    (same : fragment.Moved moved fragment') : fragment' = fragment.rename number := by
  obtain ⟨group, ops, deferred, needsContext, listing, bindings⟩ := fragment'
  obtain ⟨rfl, rfl, rfl, rfl, rfl, shown⟩ := same
  have relisted : listing = fragment.listing.rename number := shown.eq_rename agrees
  rw [rename, relisted]

theorem Stage.forall₂_eq_rename {stages stages' : List (Stage σ)}
    (same : List.Forall₂ (Stage.Moved moved) stages stages') :
    stages' = stages.map (Stage.rename number) := by
  induction same with
  | nil => rfl
  | cons head _ ih =>
      rw [List.map_cons, ih]
      cases head with
      | allocate => rfl
      | group same => rw [rename, same.eq_rename agrees]

theorem Chain.Moved.eq_rename {chain chain' : Chain σ} (same : chain.Moved moved chain') :
    chain' = chain.rename number := by
  obtain ⟨eager, scope, endpoint, switch, listing⟩ := chain
  obtain ⟨eager', scope', endpoint', switch', listing'⟩ := chain'
  obtain ⟨prompt, deferred, rfl, rfl, shown⟩ := same
  have eagers : eager' = eager.map (Stage.rename number) := Stage.forall₂_eq_rename agrees prompt
  have scopes : scope' = scope.map (List.map (Stage.rename number)) := by
    cases deferred with
    | none => rfl
    | some stages => rw [Stage.forall₂_eq_rename agrees stages, Option.map_some]
  have relisted : listing' = listing.rename number := shown.eq_rename agrees
  rw [rename, eagers, scopes, relisted]

theorem results_eq_rename {results results' : List (Except Defect (Chain σ))}
    (same : List.Forall₂ (Agree (Chain.Moved moved)) results results') :
    results' = results.map (Except.map (Chain.rename number)) := by
  induction same with
  | nil => rfl
  | cons head _ ih =>
      rw [List.map_cons, ih]
      cases head with
      | error defect => rfl
      | ok same => rw [same.eq_rename agrees, Except.map]

end Rename

namespace Stage

theorem runAllNow_rename (number : Nat → Nat) (stages : List (Stage σ)) (frame : Frame) :
    runAllNow (stages.map (rename number)) frame = runAllNow stages frame := by
  induction stages generalizing frame with
  | nil => rfl
  | cons stage rest ih =>
      have here : (stage.rename number).runNow frame = stage.runNow frame := by
        cases stage <;> rfl
      simp only [List.map_cons, runAllNow, here, ih]

theorem runAll_rename (number : Nat → Nat) (stages : List (Stage σ)) (frame : Frame) :
    runAll (stages.map (rename number)) frame = runAll stages frame := by
  induction stages generalizing frame with
  | nil => rfl
  | cons stage rest ih =>
      have here : (stage.rename number).run frame = stage.run frame := by
        cases stage <;> rfl
      simp only [List.map_cons, runAll, here, ih]

end Stage

/-- What a chain does has nothing to do with the numbers that its listings show. -/
theorem Chain.invoke_rename (number : Nat → Nat) (chain : Chain σ) (params : Option Params) :
    (chain.rename number).invoke params = chain.invoke params := by
  obtain ⟨eager, scope, endpoint, switch, listing⟩ := chain
  cases scope with
  | none => simp only [invoke, rename, Stage.runAllNow_rename, Option.map_none]
  | some stages =>
      simp only [invoke, rename, runScope, Stage.runAllNow_rename, Stage.runAll_rename,
        Option.map_some]

/-! ## After a failure -/

namespace Compiler

variable {compiler left : Compiler σ} {plan : RoutePlan σ} {parameterized : Bool}
  {defect : Defect}

theorem moves_new (registry : FaultRegistry) (unhandled : Response) :
    Moves .empty [] (new registry unhandled : Compiler σ) (new registry unhandled) :=
  { registry := rfl, unhandled := rfl
    tables := ⟨⟨List.nodup_nil, rfl, ValueTable.once_empty, List.prefix_rfl⟩, .nil, rfl, rfl⟩
    switches := .nil, nextBinding := rfl, routes := rfl }

/-- A compilation fails with its table of faults, and leaves only numbers behind. -/
theorem of_compile_error (failed : compiler.compile plan parameterized = (.error defect, left)) :
    (plan.faults.compile compiler.registry compiler.unhandled compiler.tables.values).1 =
        .error defect ∧
      left = { compiler with tables := { compiler.tables with values := (plan.faults.compile
        compiler.registry compiler.unhandled compiler.tables.values).2 } } := by
  rw [compile, compileFaults] at failed
  cases found : compiler.switch? plan.faults.id with
  | some built =>
      simp only [found] at failed
      cases failed
  | none =>
      simp only [found] at failed
      generalize plan.faults.compile compiler.registry compiler.unhandled
        compiler.tables.values = out at failed ⊢
      obtain ⟨error | built, values⟩ := out
      · cases failed
        exact ⟨rfl, rfl⟩
      · cases failed

/-- A failed compilation leaves no trace. In whatever state a compiler is, if a plan has
a defect then everything is as before, except that more objects may have numbers, and
those that had one keep it. All later plans give what they would have given: the same
defects, and the same chains up to one change of the numbers in the listings. The change
leaves the earlier numbers alone, makes no two numbers one, and keeps what a number stands
for. Chains that differ in the numbers do the same, and their listings are written with
the same symbols except for the references. -/
theorem failure_leaves_no_trace {registry : FaultRegistry} {unhandled : Response}
    {history : List (RoutePlan σ × Bool)}
    (reached : compiler = (new registry unhandled).after history)
    (failed : compiler.compile plan parameterized = (.error defect, left)) :
    left = { compiler with
      tables := { compiler.tables with values := left.tables.values } } ∧
    compiler.tables.values.slots <+: left.tables.values.slots ∧
    (∀ later, ∃ number : Nat → Nat, Function.Injective number ∧
      (∀ index < compiler.tables.values.size, number index = index) ∧
      (∀ index slot, (compiler.after later).tables.values.slots[index]? = some slot →
        (left.after later).tables.values.slots[number index]? = some slot) ∧
      left.results later = (compiler.results later).map (Except.map (Chain.rename number)) ∧
      (left.after later).stats =
        { (compiler.after later).stats with values := (left.after later).stats.values }) ∧
    (∀ (number : Nat → Nat) (chain : Chain σ) (params : Option Params),
      (chain.rename number).invoke params = chain.invoke params) ∧
    ∀ (number : Nat → Nat) (chain : Chain σ),
      (chain.rename number).listing.symbols =
        chain.listing.symbols.map (Symbol.rename number) := by
  obtain ⟨moved, _, _, moves⟩ := (moves_new registry unhandled).results history
  rw [← reached] at moves
  obtain ⟨_, rfl⟩ := of_compile_error failed
  -- The numbers given before the defect, found by compiling the table beside itself.
  obtain ⟨_, _, _, values⟩ := plan.faults.moves_compile compiler.registry compiler.unhandled
    (.of_grown List.prefix_rfl moves.tables.values.once)
  have start := moves.extended values.kept values.once
  refine ⟨rfl, values.kept, ?_, fun number chain params => chain.invoke_rename number params,
    fun number chain => chain.listing.symbols_rename number⟩
  intro later
  obtain ⟨moved', grown, results, after⟩ := start.results later
  obtain ⟨number, injective, agrees⟩ := after.tables.values.exists_injective
  refine ⟨number, injective, ?_, ?_, results_eq_rename agrees results, after.stats_eq⟩
  · intro index less
    obtain ⟨added, rfl⟩ := grown
    apply agrees
    rw [List.getElem?_append_left (by rwa [List.length_range]), List.getElem?_range less]
  · intro index slot there
    obtain ⟨place, moved_to, there'⟩ := after.tables.values.of_getElem? there
    rwa [agrees index place moved_to]

end Compiler

namespace Sample

/-- A table that numbers a page before its defect is met. -/
def unfinished : FaultTable Nat :=
  ⟨2, [(refused, .fixed { body := .str "closed" }), (refused, turnAway)]⟩

/-- The page of the unfinished table takes two numbers, and a later plan still gives its
chain, with other numbers behind them. -/
theorem recovered_from_unfinished : ∃ left,
    ((Compiler.new registry unhandled).after history).compile ⟨[entrance], welcome, unfinished⟩
        false = (.error (.duplicateFault 0), left) ∧
      left.tables.values.size =
        ((Compiler.new registry unhandled).after history).tables.values.size + 2 ∧
      ∃ number : Nat → Nat, Function.Injective number ∧
        left.results [(plan, false)] =
          (((Compiler.new registry unhandled).after history).results [(plan, false)]).map
            (Except.map (Chain.rename number)) := by
  obtain ⟨left, failed⟩ : ∃ left, ((Compiler.new registry unhandled).after history).compile
      ⟨[entrance], welcome, unfinished⟩ false = (.error (.duplicateFault 0), left) := ⟨_, rfl⟩
  obtain ⟨_, _, later, _⟩ := Compiler.failure_leaves_no_trace rfl failed
  obtain ⟨number, injective, _, _, results, _⟩ := later [(plan, false)]
  refine ⟨left, failed, ?_, number, injective, results⟩
  cases failed
  rfl

end Sample

end RouteTree
