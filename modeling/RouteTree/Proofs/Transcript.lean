import RouteTree.Proofs.FirstUse
import RouteTree.Proofs.Layout
import RouteTree.Proofs.Margin
import RouteTree.Proofs.Refinement

/-!
# Listings show the stages of a chain

A draft collects its elements and the lines of its listing side by side, and the two
are put to use apart: the elements are cut into stages, and the lines are joined to a
text. They stay in step. The lines of the text at its margin name the stages in
order, the opening of the deferred scope, the terminal and the blocks for faults.
-/

namespace RouteTree

open Http

variable {σ : Type}

/-! ## Elements and lines in step -/

def Stage.outline (parameterized : Bool) : Stage σ → List String
  | .allocate => [Draft.allocationLine parameterized]
  | .group fragment => [groupName fragment.group ++ " \x7b", "\x7d"]

def Item.outline (parameterized : Bool) : Item σ → List String
  | .allocate => (Stage.allocate : Stage σ).outline parameterized
  | .group fragment => (Stage.group fragment).outline parameterized
  | .openScope => ["async \x7b"]
  | .op _ => []

namespace Draft

variable {draft : Draft σ} {parameterized : Bool}

/-- The lines of a draft show its elements. -/
structure Transcribes (draft : Draft σ) (parameterized : Bool) : Prop where
  same : draft.parameterized = parameterized
  lines : draft.lines.flatMap (fun line => Text.margin line.chars) =
    draft.items.flatMap (Item.outline parameterized)

theorem transcribes_new (tables : Tables σ) (nextBinding : Nat) (parameterized : Bool) :
    (new tables nextBinding parameterized).Transcribes parameterized :=
  ⟨rfl, rfl⟩

/-- An element and a line that shows it keep a draft in step. -/
theorem Transcribes.emit (transcribes : draft.Transcribes parameterized) {item : Item σ}
    {line : Listing} (shows : Text.margin line.chars = item.outline parameterized) :
    (draft.emit item line).Transcribes parameterized := by
  refine ⟨transcribes.same, ?_⟩
  simp only [Draft.emit, List.flatMap_append, transcribes.lines, List.flatMap_singleton, shows]

theorem Transcribes.openScope (transcribes : draft.Transcribes parameterized) :
    draft.openScope.Transcribes parameterized := by
  rw [Draft.openScope]
  split
  · exact transcribes
  · have line : Text.margin "async \x7b".toList = ["async \x7b"] := by decide
    have shows : Text.margin (Listing.text "async \x7b").chars =
        (Item.openScope : Item σ).outline parameterized := by
      rw [Listing.chars_text, line, Item.outline]
    -- The flag is on neither side.
    obtain ⟨same, lines⟩ := transcribes.emit shows
    exact ⟨same, lines⟩

theorem margin_allocationLine (parameterized : Bool) :
    Text.margin (allocationLine parameterized).toList = [allocationLine parameterized] := by
  cases parameterized <;> decide

theorem params_allocationLine (parameterized : Bool) :
    "params".toList <:+: (allocationLine parameterized).toList ↔ parameterized = true := by
  cases parameterized with
  | true =>
      have written : "let c = \x7bstatus:200, headers:[], ".toList ++ "params".toList ++
          "\x7d".toList = (allocationLine true).toList := by
        decide
      exact iff_of_true ⟨_, _, written⟩ rfl
  | false =>
      have missing : 'p' ∉ (allocationLine false).toList := by decide
      exact iff_of_false (fun occurs => missing (occurs.subset (by decide))) Bool.false_ne_true

theorem Transcribes.allocate (transcribes : draft.Transcribes parameterized) :
    draft.allocate.Transcribes parameterized := by
  rw [Draft.allocate]
  split
  · exact transcribes
  · have shows : Text.margin (Listing.text (allocationLine draft.parameterized)).chars =
        (Item.allocate : Item σ).outline parameterized := by
      rw [Listing.chars_text, transcribes.same, margin_allocationLine, Item.outline, Stage.outline]
    obtain ⟨same, lines⟩ := transcribes.emit shows
    exact ⟨same, lines⟩

theorem Transcribes.compile (transcribes : draft.Transcribes parameterized) (group : Group σ) :
    (group.compile draft).2.Transcribes parameterized := by
  rw [Group.compile, compiledGroup]
  split
  · exact ⟨transcribes.same, transcribes.lines⟩
  · exact ⟨transcribes.same, transcribes.lines⟩

theorem Transcribes.addGroup (transcribes : draft.Transcribes parameterized) (group : Group σ) :
    (draft.addGroup group).Transcribes parameterized := by
  have number : (group.compile draft).1.group = group.id := group_compiledGroup
  have compiled := transcribes.compile group
  have opened := iteInduction (motive := fun draft : Draft σ => draft.Transcribes parameterized)
    (c := (group.compile draft).1.deferred) (fun _ => compiled.openScope) (fun _ => compiled)
  have ready := iteInduction (motive := fun draft : Draft σ => draft.Transcribes parameterized)
    (c := (group.compile draft).1.needsContext) (fun _ => opened.allocate) (fun _ => opened)
  have shows : Text.margin
      (Listing.block (groupName group.id) (group.compile draft).1.listing).chars =
        (Item.group (group.compile draft).1).outline parameterized := by
    rw [Listing.margin_group, Item.outline, Stage.outline, number]
  exact ready.emit shows

theorem Transcribes.addGroups (transcribes : draft.Transcribes parameterized)
    (groups : List (Group σ)) : (groups.foldl Draft.addGroup draft).Transcribes parameterized := by
  induction groups generalizing draft with
  | nil => exact transcribes
  | cons group rest ih => exact ih (transcribes.addGroup group)

theorem Transcribes.addTerminal (transcribes : draft.Transcribes parameterized)
    (terminal : Terminal σ) (unhandled : Response) :
    ∃ line : Listing,
      line.Returns (terminal.suspends && draft.scopeOpen)
        (terminal.suspends && !draft.scopeOpen) ∧
      (draft.addTerminal terminal unhandled).2.lines.flatMap
          (fun line => Text.margin line.chars) =
        (draft.addTerminal terminal unhandled).2.items.flatMap (Item.outline parameterized) ++
          [String.ofList line.chars] := by
  have returns := terminal.returns_compile draft.scopeOpen unhandled draft.tables.values
  simp only [Draft.addTerminal]
  generalize terminal.compile none draft.scopeOpen unhandled draft.tables.values = out
    at returns ⊢
  obtain ⟨built, values⟩ := out
  have kept : (draft.setValues values).Transcribes parameterized :=
    ⟨transcribes.same, transcribes.lines⟩
  have ready := iteInduction (motive := fun draft : Draft σ => draft.Transcribes parameterized)
    (c := built.needsContext) (fun _ => kept.allocate) (fun _ => kept)
  refine ⟨built.listing, returns, ?_⟩
  simp only [note, List.flatMap_append, ready.lines, List.flatMap_singleton, returns.margin]

/-! ## Cutting the elements -/

/-- Once the scope is open, fragments are shown as they are arranged. -/
theorem outline_placed (parameterized ready : Bool) (fragments : List (Fragment σ)) :
    (placed true ready fragments).flatMap (Item.outline parameterized) =
      (Stage.arrange ready fragments).flatMap (Stage.outline parameterized) := by
  induction fragments generalizing ready with
  | nil => rfl
  | cons fragment rest ih =>
      simp only [placed, Stage.arrange, Bool.not_true, Bool.and_false, Bool.false_eq_true,
        if_false, Bool.true_or, List.nil_append]
      split <;> simp [Item.outline, ih]

theorem outline_tail (parameterized allocates : Bool) :
    (tail allocates : List (Item σ)).flatMap (Item.outline parameterized) =
      ((tail allocates : List (Item σ)).filterMap stage?).flatMap
        (Stage.outline parameterized) := by
  cases allocates <;> rfl

/-- The stages and the opening of the scope are shown in order. -/
theorem outline_split (parameterized ready : Bool) (fragments : List (Fragment σ))
    (allocates : Bool) :
    (placed false ready fragments ++ tail allocates).flatMap (Item.outline parameterized) =
      (split (placed false ready fragments ++ tail allocates)).1.flatMap
          (Stage.outline parameterized) ++
        (split (placed false ready fragments ++ tail allocates)).2.elim []
          fun scope => "async \x7b" :: scope.flatMap (Stage.outline parameterized) := by
  induction fragments generalizing ready with
  | nil => cases allocates <;> rfl
  | cons fragment rest ih =>
      cases deferred : fragment.deferred with
      | true =>
          rw [split_placed_deferred deferred, placed_of_deferred deferred, List.cons_append,
            List.flatMap_cons, List.flatMap_append, outline_placed, outline_tail,
            ← List.flatMap_append]
          rfl
      | false =>
          have first : placed false ready (fragment :: rest) =
              placed true ready [fragment] ++
                placed false (ready || fragment.needsContext) rest := by
            simp [placed, deferred]
          rw [split_placed_cons deferred, first, List.append_assoc, List.flatMap_append,
            outline_placed, ih, List.flatMap_append, List.append_assoc]

end Draft

/-! ## The blocks for faults -/

/-- Both listings of a compiled table are blocks for faults. -/
structure BuiltSwitch.Framed (built : BuiltSwitch σ) : Prop where
  listing : ∃ body, built.listing = .block "catch e" body
  scopedListing : ∃ body, built.scopedListing = .block "catch e" body

theorem FaultTable.framed_compile {table : FaultTable σ} {registry : FaultRegistry}
    {unhandled : Response} {values : ValueTable} {built : BuiltSwitch σ}
    (ok : (table.compile registry unhandled values).1 = .ok built) : built.Framed := by
  rw [compile] at ok
  split at ok
  · cases ok
    exact ⟨⟨_, rfl⟩, ⟨_, rfl⟩⟩
  · cases ok

namespace Compiler

variable {compiler : Compiler σ}

def Framed (compiler : Compiler σ) : Prop := ∀ entry ∈ compiler.switches, entry.2.Framed

theorem framed_compileFaults (framed : compiler.Framed) (table : FaultTable σ) :
    (∀ built, (compiler.compileFaults table).1 = .ok built → built.Framed) ∧
      (compiler.compileFaults table).2.Framed := by
  rw [compileFaults]
  cases found : compiler.switch? table.id with
  | some built =>
      obtain ⟨entry, first, rfl⟩ := Option.map_eq_some_iff.1 found
      refine ⟨?_, framed⟩
      rintro built ⟨⟩
      exact framed entry (List.mem_of_find?_eq_some first)
  | none =>
      have compiled := fun built => @FaultTable.framed_compile σ table compiler.registry
        compiler.unhandled compiler.tables.values built
      simp only
      generalize table.compile compiler.registry compiler.unhandled compiler.tables.values = out
        at compiled ⊢
      obtain ⟨defect | built, values⟩ := out
      · exact ⟨by simp, framed⟩
      · refine ⟨?_, List.forall_mem_append.2 ⟨framed, ?_⟩⟩
        · rintro built ⟨⟩
          exact compiled built rfl
        · exact List.forall_mem_singleton.2 (compiled built rfl)

theorem framed_compile (framed : compiler.Framed) (plan : RoutePlan σ) (parameterized : Bool) :
    (compiler.compile plan parameterized).2.Framed := by
  have kept := (framed_compileFaults framed plan.faults).2
  rw [compile]
  generalize compiler.compileFaults plan.faults = out at kept ⊢
  obtain ⟨defect | built, after⟩ := out
  · exact kept
  · exact kept

theorem framed_after (framed : compiler.Framed) (history : List (RoutePlan σ × Bool)) :
    (compiler.after history).Framed := by
  induction history generalizing compiler with
  | nil => exact framed
  | cons entry rest ih => exact ih (framed_compile framed entry.1 entry.2)

end Compiler

/-! ## Chains and their listings -/

namespace Chain

/-- The lines that show a chain whose terminal has this line. -/
def transcript (chain : Chain σ) (parameterized : Bool) (answer : String) : List String :=
  chain.eager.flatMap (Stage.outline parameterized) ++
    (chain.scope.elim [] fun scope =>
      "async \x7b" :: scope.flatMap (Stage.outline parameterized)) ++
    [answer] ++
    (if chain.scope.isSome then ["\x7d catch e \x7b", "\x7d"] else []) ++
    (if chain.runsAtOnce then ["catch e \x7b", "\x7d"] else [])

end Chain

/-- Putting a chain together puts the blocks for faults below the lines of the draft. -/
theorem Draft.margin_toChain (draft : Draft σ) {faults : BuiltSwitch σ} (framed : faults.Framed)
    (endpoint : Endpoint σ) :
    Text.margin (draft.toChain endpoint faults).listing.chars =
      draft.lines.flatMap (fun line => Text.margin line.chars) ++
        (if draft.scopeOpen then ["\x7d catch e \x7b", "\x7d"] else []) ++
        (if (draft.toChain endpoint faults).runsAtOnce then ["catch e \x7b", "\x7d"]
          else []) := by
  obtain ⟨⟨outer, before⟩, ⟨inner, inside⟩⟩ := framed
  have shut : Text.margin ("\x7d ".toList ++ (Listing.block "catch e" inner).chars) =
      ["\x7d catch e \x7b", "\x7d"] :=
    Listing.margin_block "\x7d " "catch e" inner (by decide) (by decide)
  have whole : Text.margin (Listing.block "catch e" outer).chars = ["catch e \x7b", "\x7d"] :=
    Listing.margin_block "" "catch e" outer (by decide) (by decide)
  have lines : Text.margin (Listing.unlines draft.lines).chars =
      draft.lines.flatMap (fun line => Text.margin line.chars) := by
    rw [Listing.chars_unlines, Text.margin_joinWith, List.flatMap_map]
  have inScope : (Listing.text "\n\x7d " ++ Listing.block "catch e" inner).chars =
      '\n' :: ("\x7d ".toList ++ (Listing.block "catch e" inner).chars) := by
    rw [Listing.chars_append, Listing.chars_text]
    rfl
  have behind : (Listing.text "\n" ++ Listing.block "catch e" outer).chars =
      '\n' :: (Listing.block "catch e" outer).chars := by
    rw [Listing.chars_append, Listing.chars_text]
    rfl
  simp only [toChain, Chain.runsAtOnce, before, inside, Listing.chars_append (_ ++ _),
    Listing.chars_append (Listing.unlines _)]
  rw [Listing.margin_below _ _ behind, Listing.margin_below _ _ inScope, lines, shut, whole]

namespace Compiler

/-- A chain that is put together has a listing that shows it. -/
theorem transcript_assemble (compiler : Compiler σ) (plan : RoutePlan σ) (parameterized : Bool)
    {faults : BuiltSwitch σ} (framed : faults.Framed) {chain : Chain σ}
    (assembled : (compiler.assemble plan parameterized faults).1 = chain) :
    ∃ line : Listing,
      line.Returns (plan.terminal.suspends && chain.scope.isSome)
        (plan.terminal.suspends && !chain.scope.isSome) ∧
      Text.margin chain.listing.chars =
        chain.transcript parameterized (String.ofList line.chars) ∧
      chain.fragments.map Fragment.group = plan.groups.map Group.id := by
  obtain ⟨fragments, numbers, adds, -⟩ := @Draft.adds_foldl_addGroup σ
    (fun group fragment => group.id = fragment.group) (fun _ => True) plan.groups
    (fun group _ draft _ => ⟨Draft.group_compiledGroup.symm, trivial⟩)
    (Draft.new compiler.tables compiler.nextBinding parameterized) trivial
  have joins := joins_of_adds adds faults
  rw [assembled] at joins
  have groups : chain.fragments.map Fragment.group = plan.groups.map Group.id := by
    rw [joins.fragments_eq]
    have same := List.forall₂_map_left_iff.2 (List.forall₂_map_right_iff.2 numbers)
    rw [List.forall₂_eq_eq_eq] at same
    exact same.symm
  have transcribes := (Draft.transcribes_new compiler.tables compiler.nextBinding
    parameterized).addGroups plan.groups
  simp only [assemble] at assembled
  generalize plan.groups.foldl Draft.addGroup
    (Draft.new compiler.tables compiler.nextBinding parameterized) = draft
    at adds transcribes assembled
  obtain ⟨line, returns, lines⟩ := transcribes.addTerminal plan.terminal faults.switch.unhandled
  have opened : chain.scope.isSome = draft.scopeOpen := joins.deferred.trans adds.scopeOpen.symm
  have stages : (draft.addTerminal plan.terminal faults.switch.unhandled).2.items.flatMap
      (Item.outline parameterized) = chain.eager.flatMap (Stage.outline parameterized) ++
        chain.scope.elim []
          fun scope => "async \x7b" :: scope.flatMap (Stage.outline parameterized) := by
    have items : (draft.addTerminal plan.terminal faults.switch.unhandled).2.items =
        Draft.placed false false fragments ++
          Draft.tail (plan.terminal.needsContext && !draft.contextReady) := by
      rw [draft.items_addTerminal, adds.items]
      rfl
    have cut : Draft.split (draft.addTerminal plan.terminal faults.switch.unhandled).2.items =
        (chain.eager, chain.scope) := by
      rw [← assembled]
      rfl
    rw [items] at cut ⊢
    rw [Draft.outline_split, cut]
  refine ⟨line, ?_, ?_, groups⟩
  · rw [opened]
    exact returns
  · have shown := (draft.addTerminal plan.terminal faults.switch.unhandled).2.margin_toChain framed
      (draft.addTerminal plan.terminal faults.switch.unhandled).1
    rw [assembled, lines, stages, Draft.scopeOpen_addTerminal, ← opened] at shown
    exact shown

/-- Listings are transcripts. After any history of plans, the lines of a chain's listing
that are not empty and do not start with two blanks are those of its stages before the
scope, the opening of the scope and the lines of its stages if there is a scope, one line
that returns, and the blocks for faults raised in the scope and before it. The line that
returns waits for the terminal if the terminal may stop and there is a scope, and goes on
after it if the terminal may stop and there is none. The fragments are those of the
plan's groups, and the allocation mentions parameters if the pattern has them. Nothing is
asked of the texts that name locations. -/
theorem listing_transcribes_stages (registry : FaultRegistry) (unhandled : Response)
    (history : List (RoutePlan σ × Bool)) (plan : RoutePlan σ) (parameterized : Bool)
    {chain : Chain σ}
    (compiled :
      (((new registry unhandled).after history).compile plan parameterized).1 = .ok chain) :
    (∃ answer : String,
      Text.margin chain.listing.render.toList = chain.transcript parameterized answer ∧
      "return ".toList <+: answer.toList ∧
      ("await".toList <:+: answer.toList ↔
        plan.terminal.suspends = true ∧ chain.scope.isSome = true) ∧
      (".then".toList <:+: answer.toList ↔
        plan.terminal.suspends = true ∧ chain.scope.isSome = false)) ∧
    chain.fragments.map Fragment.group = plan.groups.map Group.id ∧
    ("params".toList <:+: (Draft.allocationLine parameterized).toList ↔ parameterized = true) := by
  have framed : ((new registry unhandled : Compiler σ).after history).Framed :=
    framed_after (fun _ mem => absurd mem List.not_mem_nil) history
  have tables := (framed_compileFaults framed plan.faults).1
  rw [compile] at compiled
  generalize ((new registry unhandled).after history).compileFaults plan.faults = out
    at compiled tables
  obtain ⟨defect | built, after⟩ := out
  · cases compiled
  obtain ⟨line, returns, lines, groups⟩ := transcript_assemble after plan parameterized
    (tables built rfl) (Except.ok.inj compiled)
  have written : (String.ofList line.chars).toList = line.chars := String.toList_ofList
  refine ⟨⟨String.ofList line.chars, ?_, ?_, ?_, ?_⟩, groups, ?_⟩
  · rw [Listing.toList_render]
    exact lines
  · rw [written]
    exact returns.starts
  · rw [written, returns.awaits, Bool.and_eq_true]
  · rw [written, returns.continues, Bool.and_eq_true, Bool.not_eq_true']
  · exact Draft.params_allocationLine parameterized

end Compiler

namespace Sample

/-- Store under a name that looks like the end of a scope on a line of its own. -/
def sign : Group Nat :=
  .ofHandlers 3 [.unchecked ⟨1, .contextual fun _ context count => ((.str "guest", context), count)⟩
    (some ⟨["guests\n\x7d catch e \x7b\n"], "name"⟩)]

/-- The line feeds in the name bring nothing to the margin. -/
theorem sign_transcribed : ∃ chain,
    (((Compiler.new registry unhandled).after history).compile
      ⟨[sign, gate], turnAway, faults⟩ true).1 = .ok chain ∧
    ∃ answer : String, "await".toList <:+: answer.toList ∧
      Text.margin chain.listing.render.toList =
        ["let c = \x7bstatus:200, headers:[], params\x7d", "g3 \x7b", "\x7d", "async \x7b",
          "g2 \x7b", "\x7d", answer, "\x7d catch e \x7b", "\x7d", "catch e \x7b", "\x7d"] := by
  refine ⟨_, rfl, ?_⟩
  obtain ⟨⟨answer, lines, _, awaits, _⟩, _⟩ := Compiler.listing_transcribes_stages registry
    unhandled history ⟨[sign, gate], turnAway, faults⟩ true rfl
  exact ⟨answer, awaits.2 ⟨rfl, rfl⟩, lines⟩

end Sample

end RouteTree
