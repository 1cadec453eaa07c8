import RouteTree.Build.Group

/-!
# Sessions with a draft

A session numbers results and objects, compiles groups and works in derived
drafts, step by step. After each step it reports the counters of the draft the
step ran on.
-/

namespace RouteTree

variable {σ : Type}

/-- One step on a draft. -/
inductive DraftStep (σ : Type) : Type where
  | bind
  | intern (name : String)
  | internFresh (value : String)
  | group (group : Group σ)
  /-- Run steps on a derived draft, and merge its counter back if asked. -/
  | derive (steps : List (DraftStep σ)) (sync : Bool)
  /-- Merge the counter of the last derived draft, however long ago it was. -/
  | syncLast

/-- The counters of a draft. -/
structure DraftCounters where
  nextBinding : Nat
  scopeOpen : Bool
  contextReady : Bool
  values : Nat
  fragments : Nat
  hits : Nat

/-- What a step gave, with the counters of its draft after it. -/
inductive DraftReport (σ : Type) : Type where
  | bound (binding : Nat) (counters : DraftCounters)
  | interned (index : Nat) (value : Option String) (counters : DraftCounters)
  /-- A compiled group, and whether it had been compiled before. -/
  | compiled (cached : Bool) (fragment : Fragment σ) (counters : DraftCounters)
  /-- The reports of a derived draft, and its counter at the end. -/
  | derived (reports : List (DraftReport σ)) (nextBinding : Nat) (counters : DraftCounters)
  | synced (nextBinding : Nat) (counters : DraftCounters)

namespace DraftStep

/-- The counters of a draft. -/
def counters (draft : Draft σ) : DraftCounters :=
  { nextBinding := draft.nextBinding
    scopeOpen := draft.scopeOpen
    contextReady := draft.contextReady
    values := draft.tables.values.size
    fragments := draft.tables.cache.size
    hits := draft.tables.cache.hits }

mutual

/-- Run one step. The number `last` is the counter of the last derived draft;
it is passed on. -/
def run : DraftStep σ → Nat → Draft σ → DraftReport σ × Nat × Draft σ
  | .bind, last, draft =>
    let (binding, draft) := draft.bind
    (.bound binding (counters draft), last, draft)
  | .intern name, last, draft =>
    let (index, draft) := draft.intern (.named name)
    (.interned index none (counters draft), last, draft)
  | .internFresh value, last, draft =>
    let (index, draft) := draft.internFresh
    (.interned index (some value) (counters draft), last, draft)
  | .group used, last, draft =>
    let cached := (draft.tables.cache.find? used.id).isSome
    let (fragment, draft) := used.compile draft
    (.compiled cached fragment (counters draft), last, draft)
  | .derive steps sync, _, draft =>
    let (reports, child) := runAll steps draft.nextBinding draft.derive
    let draft := draft.resume child
    let draft := if sync then draft.sync child.nextBinding else draft
    (.derived reports child.nextBinding (counters draft), child.nextBinding, draft)
  | .syncLast, last, draft =>
    let draft := draft.sync last
    (.synced last (counters draft), last, draft)

/-- Run steps in order. -/
def runAll : List (DraftStep σ) → Nat → Draft σ → List (DraftReport σ) × Draft σ
  | [], _, draft => ([], draft)
  | step :: rest, last, draft =>
    let (report, last, draft) := run step last draft
    let (reports, draft) := runAll rest last draft
    (report :: reports, draft)

end

end DraftStep

end RouteTree
