import RouteTree.Callback
import RouteTree.Fault

/-!
# Handlers and groups

A route runs groups of handlers before it answers. A handler calls a user
function and either drops its value or stores it in the context; a checked
handler ends the route when the function fails. A handler may also be another
group, which is then run in its place.

What running a group involves is found out once, when the group is put
together, and noted wherever the group is nested. A group carries the proof
that these notes are right.
-/

namespace RouteTree

/-- What running a handler involves. -/
structure Traits where
  /-- It may stop before it is done. -/
  suspends : Bool
  /-- It uses the context, by reading it or storing into it. -/
  needsContext : Bool
  deriving DecidableEq, Repr

/-- One step of a group. -/
inductive Handler (σ : Type) : Type where
  /-- Run the handlers of another group, whose traits are noted. -/
  | nested (group : Nat) (traits : Traits) (handlers : List (Handler σ))
  /-- Call a function that may fail, and store its value if a place is given. -/
  | checked (callback : Callback σ (Except Fault Json)) (target : Option Location)
  /-- Call a function and store its value if a place is given. -/
  | unchecked (callback : Callback σ Json) (target : Option Location)

namespace Handler

variable {σ : Type}

/-- The traits of a handler; those of a nested group are read off its note. -/
def traits : Handler σ → Traits
  | .nested _ noted _ => noted
  | .checked callback target => ⟨callback.suspends, callback.needsContext || target.isSome⟩
  | .unchecked callback target => ⟨callback.suspends, callback.needsContext || target.isSome⟩

/-- The traits of handlers that run one after the other. -/
def jointTraits (handlers : List (Handler σ)) : Traits :=
  ⟨handlers.any (·.traits.suspends), handlers.any (·.traits.needsContext)⟩

mutual

/-- Every nested group is noted with the traits of its handlers. -/
def Sound : Handler σ → Prop
  | .nested _ noted handlers => noted = jointTraits handlers ∧ AllSound handlers
  | .checked _ _ => True
  | .unchecked _ _ => True

/-- All the handlers are sound. -/
def AllSound : List (Handler σ) → Prop
  | [] => True
  | handler :: rest => handler.Sound ∧ AllSound rest

end

theorem allSound_iff {handlers : List (Handler σ)} :
    AllSound handlers ↔ ∀ handler ∈ handlers, handler.Sound := by
  induction handlers with
  | nil => simp [AllSound]
  | cons handler rest ih => simp [AllSound, ih]

/-- The word for the kind of a handler. -/
def kind : Handler σ → String
  | .nested .. => "composable"
  | .checked _ none => "checked"
  | .checked _ (some _) => "checked-store"
  | .unchecked _ none => "unchecked"
  | .unchecked _ (some _) => "unchecked-store"

/-- A truth value in summaries. -/
def flagText (flag : Bool) : String := if flag then "true" else "false"

/-- A one-line summary. -/
def summary (handler : Handler σ) : String :=
  "Handler \x7b kind: \"" ++ handler.kind ++ "\", deferred: " ++
    flagText handler.traits.suspends ++ ", needs_context: " ++
    flagText handler.traits.needsContext ++ " \x7d"

end Handler

/-- A handler with right notes. -/
structure SoundHandler (σ : Type) where
  handler : Handler σ
  sound : handler.Sound

/-- Handlers that are compiled together and can be used in many places. -/
structure Group (σ : Type) where
  id : Nat
  handlers : List (Handler σ)
  traits : Traits
  traits_eq : traits = Handler.jointTraits handlers
  sound : Handler.AllSound handlers

namespace Group

variable {σ : Type}

/-- The group of these handlers. -/
def ofHandlers (id : Nat) (handlers : List (SoundHandler σ)) : Group σ :=
  { id
    handlers := handlers.map SoundHandler.handler
    traits := Handler.jointTraits (handlers.map SoundHandler.handler)
    traits_eq := rfl
    sound := by
      rw [Handler.allSound_iff]
      intro handler mem
      obtain ⟨source, _, rfl⟩ := List.mem_map.1 mem
      exact source.sound }

end Group

namespace SoundHandler

variable {σ : Type}

/-- The handler that stands for a group. -/
def ofGroup (group : Group σ) : SoundHandler σ :=
  ⟨.nested group.id group.traits group.handlers, by
    simp only [Handler.Sound]
    exact ⟨group.traits_eq, group.sound⟩⟩

/-- The handler that calls a function that may fail. -/
def checked (callback : Callback σ (Except Fault Json)) (target : Option Location) :
    SoundHandler σ :=
  ⟨.checked callback target, by simp only [Handler.Sound]⟩

/-- The handler that calls a function that does not fail. -/
def unchecked (callback : Callback σ Json) (target : Option Location) : SoundHandler σ :=
  ⟨.unchecked callback target, by simp only [Handler.Sound]⟩

end SoundHandler

end RouteTree
