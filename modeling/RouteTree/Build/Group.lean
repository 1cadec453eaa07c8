import RouteTree.Build.Draft

/-!
# Compiling groups

A group is compiled once per compilation; wherever it is used again, its
compiled form is taken from the cache. Its handlers become calls in order. A
nested group is compiled on its own, and its calls are put in its place.
-/

namespace RouteTree

variable {σ : Type}

namespace Draft

/-- The text of a call, after its function was given a number. -/
def callText {α : Type} (draft : Draft σ) (callback : Callback σ α) : Listing × Draft σ :=
  let (index, draft) := draft.intern (.callback callback.id)
  (Listing.text (if callback.suspends then "await " else "") ++ Listing.value index ++
    Listing.text (if callback.needsContext then "(c)" else "()"), draft)

/-- The compiled form of a group with these traits and this many handlers: from
the cache, or built in a derived draft and then kept. -/
def compiledGroup (draft : Draft σ) (group : Nat) (traits : Traits) (handlers : Nat)
    (build : Draft σ → Draft σ) : Fragment σ × Draft σ :=
  match draft.tables.cache.find? group with
  | some fragment => (fragment, { draft with tables := draft.tables.reuse group })
  | none =>
    let child := build draft.derive
    let fragment : Fragment σ :=
      { group
        ops := child.ops
        deferred := traits.suspends
        needsContext := traits.needsContext
        listing := Listing.unlines child.lines
        bindings := child.bindings }
    let draft := (draft.resume child).sync child.nextBinding
    (fragment, { draft with tables := draft.tables.remember handlers fragment })

end Draft

namespace Handler

mutual

/-- Add a handler to a draft. -/
def compile : Handler σ → Draft σ → Draft σ
  | .nested group traits handlers, draft =>
    let (fragment, draft) :=
      draft.compiledGroup group traits handlers.length (compileAll handlers)
    ((draft.splice fragment.ops).note
      (Listing.block (groupName group) fragment.listing)).assign none
  | .checked callback target, draft =>
    let (binding, draft) := draft.bind
    let (call, draft) := draft.callText callback
    let name := bindingName binding
    let stored := match target with
      | some location => "; c." ++ location.text ++ " = " ++ name
      | none => ""
    (draft.emit (.op ⟨callback, target⟩)
      (Listing.text ("let " ++ name ++ " = ") ++ call ++
        Listing.text ("; check " ++ name ++ stored))).assign (some binding)
  | .unchecked callback target, draft =>
    let (call, draft) := draft.callText callback
    let stored := match target with
      | some location => "c." ++ location.text ++ " = "
      | none => ""
    (draft.emit (.op ⟨callback.map .ok, target⟩) (Listing.text stored ++ call)).assign none

/-- Add handlers to a draft in order. -/
def compileAll : List (Handler σ) → Draft σ → Draft σ
  | [], draft => draft
  | handler :: rest, draft => compileAll rest (handler.compile draft)

end

end Handler

namespace Group

/-- The compiled form of a group. -/
def compile (group : Group σ) (draft : Draft σ) : Fragment σ × Draft σ :=
  draft.compiledGroup group.id group.traits group.handlers.length
    (Handler.compileAll group.handlers)

end Group

end RouteTree
