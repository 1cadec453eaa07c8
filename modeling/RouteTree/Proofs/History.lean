import RouteTree.Proofs.Requests
import RouteTree.Session.Tree

/-!
# What a session has registered

The tree of a session holds what its steps have registered so far, in order: the
kinds of fault they bound, the groups they put to use, and the routes, each with
the groups in use at its step. Compiling and requests leave the tree alone. Since
a handler in use takes the next number for its group, numbers stay with one group
each, and the routes of a session always have a directory.
-/

namespace RouteTree

open Http

variable {σ : Type}

namespace TreeStep

def advance (next : Nat) : TreeStep σ → Nat
  | .useHandler _ => next + 1
  | _ => next

/-- The group that the step puts to use. A handler becomes a group of its own. -/
def group? (next : Nat) : TreeStep σ → Option (Group σ)
  | .useHandler handler => some (.ofHandlers next [handler])
  | .useGroup group => some group
  | _ => none

/-- The route that the step registers while these groups are in use. -/
def route? (inUse : List (Group σ)) : TreeStep σ → Option (Registration σ)
  | .route method path terminal => some ⟨method, path, inUse, terminal⟩
  | _ => none

def binding? : TreeStep σ → Option (FaultKind × Terminal σ)
  | .answer kind terminal => some (kind, terminal)
  | _ => none

def used (next : Nat) : List (TreeStep σ) → List (Group σ)
  | [] => []
  | step :: steps => (step.group? next).toList ++ used (step.advance next) steps

/-- The routes that steps register, in order, each with the groups in use then. -/
def registered (next : Nat) (inUse : List (Group σ)) : List (TreeStep σ) → List (Registration σ)
  | [] => []
  | step :: steps =>
    (step.route? inUse).toList ++
      registered (step.advance next) (inUse ++ (step.group? next).toList) steps

/-- Later steps register their routes behind those of earlier ones. -/
theorem registered_append (next : Nat) (inUse : List (Group σ)) (steps more : List (TreeStep σ)) :
    registered next inUse (steps ++ more) = registered next inUse steps ++
      registered (steps.foldl advance next) (inUse ++ used next steps) more := by
  induction steps generalizing next inUse with
  | nil => simp [registered, used]
  | cons step steps ih => simp [registered, used, ih]

/-- A registered route comes from a step, with groups in use. -/
theorem exists_step_of_mem_registered {next : Nat} {inUse : List (Group σ)}
    {steps : List (TreeStep σ)} {registration : Registration σ}
    (mem : registration ∈ registered next inUse steps) :
    .route registration.method registration.path registration.terminal ∈ steps ∧
      ∀ group ∈ registration.groups, group ∈ inUse ++ used next steps := by
  induction steps generalizing next inUse with
  | nil => cases mem
  | cons step steps ih =>
      rw [registered] at mem
      rcases List.mem_append.1 mem with here | later
      · cases step with
        | route method path terminal =>
            obtain rfl := List.mem_singleton.1 here
            exact ⟨List.mem_cons_self, fun group inside => List.mem_append_left _ inside⟩
        | useHandler | useGroup | answer | compile | inspect | request | start | poll | drop =>
            cases here
      · obtain ⟨there, known⟩ := ih later
        refine ⟨List.mem_cons_of_mem _ there, fun group inside => ?_⟩
        rw [used, ← List.append_assoc]
        exact known group inside

/-- Steps that bind kinds of fault register no routes. -/
theorem registered_filter (next : Nat) (inUse : List (Group σ)) (steps : List (TreeStep σ)) :
    registered next inUse (steps.filter (·.binding?.isNone)) = registered next inUse steps := by
  induction steps generalizing next inUse with
  | nil => rfl
  | cons step steps ih =>
      cases step with
      | answer kind terminal =>
          rw [registered]
          simpa [binding?, route?, group?, advance] using ih next inUse
      | useHandler | useGroup | route | compile | inspect | request | start | poll | drop =>
          exact congrArg (_ ++ ·) (ih _ _)

/-- The step puts to use only what was made before the session. -/
def Uses (groups : List (Group σ)) : TreeStep σ → Prop
  | .useHandler handler => handler.Uses groups
  | .useGroup group => group ∈ groups
  | _ => True

end TreeStep

theorem SoundHandler.Uses.mono {handler : SoundHandler σ} {groups : List (Group σ)}
    (uses : handler.Uses groups) (more : List (Group σ)) : handler.Uses (groups ++ more) := by
  obtain ⟨handler, sound⟩ := handler
  cases handler with
  | nested id traits handlers =>
      obtain ⟨group, mem, same⟩ := uses
      exact ⟨group, List.mem_append_left _ mem, same⟩
  | checked callback target => trivial
  | unchecked callback target => trivial

namespace TreeStep

variable {groups : List (Group σ)} {steps : List (TreeStep σ)}

theorem Uses.mono {step : TreeStep σ} (uses : step.Uses groups) (more : List (Group σ)) :
    step.Uses (groups ++ more) := by
  cases step with
  | useHandler handler => exact SoundHandler.Uses.mono uses more
  | useGroup group => exact List.mem_append_left _ uses
  | route | answer | compile | inspect | request | start | poll | drop => trivial

/-- What steps put to use can be made one after the other, since handlers take the
next numbers. -/
theorem exists_made (made : Group.Made groups) (uses : ∀ step ∈ steps, step.Uses groups) :
    ∃ all, Group.Made all ∧ groups <+: all ∧ ∀ group ∈ used groups.length steps, group ∈ all := by
  induction steps generalizing groups with
  | nil => exact ⟨groups, made, List.prefix_rfl, by simp [used]⟩
  | cons step steps ih =>
      obtain ⟨here, later⟩ := List.forall_mem_cons.1 uses
      cases step with
      | useHandler handler =>
          have new : Group.Made (groups ++ [.ofHandlers groups.length [handler]]) :=
            .more made [handler] (List.forall_mem_singleton.2 here)
          obtain ⟨all, made, early, known⟩ := ih new fun step mem => (later step mem).mono _
          refine ⟨all, made, (List.prefix_append _ _).trans early, List.forall_mem_cons.2 ⟨?_, ?_⟩⟩
          · exact early.subset (List.mem_append_right _ (List.mem_singleton.2 rfl))
          · rwa [List.length_append] at known
      | useGroup group =>
          obtain ⟨all, made, early, known⟩ := ih made later
          exact ⟨all, made, early, List.forall_mem_cons.2 ⟨early.subset here, known⟩⟩
      | route | answer | compile | inspect | request | start | poll | drop => exact ih made later

end TreeStep

namespace Tree

/-- The tree with what a step registers. -/
def noting (tree : Tree σ) (next : Nat) (step : TreeStep σ) : Tree σ :=
  { tree with
    faults := tree.faults ++ step.binding?.toList
    middleware := tree.middleware ++ (step.group? next).toList
    routes := tree.routes ++ (step.route? tree.middleware).toList }

theorem noting_eq_self {tree : Tree σ} {next : Nat} {step : TreeStep σ}
    (unbound : step.binding? = none) (unused : step.group? next = none)
    (unrouted : step.route? tree.middleware = none) : tree.noting next step = tree := by
  simp [noting, unbound, unused, unrouted]

/-- The tree that steps register, from nothing. -/
def ofSteps (settings : Settings) (registry : FaultRegistry) (next : Nat)
    (steps : List (TreeStep σ)) : Tree σ where
  settings
  registry
  faults := steps.filterMap TreeStep.binding?
  middleware := TreeStep.used next steps
  routes := TreeStep.registered next [] steps

/-- The routes of a session have a directory. -/
theorem exists_listsPlan {groups : List (Group σ)} (made : Group.Made groups)
    {steps : List (TreeStep σ)} (uses : ∀ step ∈ steps, step.Uses groups) (settings : Settings)
    (registry : FaultRegistry) : ∃ directory : Directory σ,
      ∀ registration ∈ (ofSteps settings registry groups.length steps).routes, directory.ListsPlan
        ((ofSteps settings registry groups.length steps).plan registration) := by
  obtain ⟨all, made, _, known⟩ := TreeStep.exists_made made uses
  refine ⟨_, listsPlan_of_made made ?_⟩
  intro registration mem group inside
  have inUse := (TreeStep.exists_step_of_mem_registered mem).2 group inside
  exact known group inUse

end Tree

namespace TreeSession

def fresh (settings : Settings) (registry : FaultRegistry) (nextGroup : Nat) (state : σ) :
    TreeSession σ :=
  { tree := .new settings registry, nextGroup, state }

def after (session : TreeSession σ) : List (TreeStep σ) → TreeSession σ
  | [] => session
  | step :: steps => (session.step step).session.after steps

theorem tree_request (session : TreeSession σ) (dispatcher : Dispatcher σ) (method : Method)
    (path : String) :
    (session.request dispatcher method path).session.nextGroup = session.nextGroup ∧
      (session.request dispatcher method path).session.tree = session.tree := by
  rw [request]
  obtain ⟨reply, state, events⟩ := Reply.start (dispatcher.handle method path) session.state
  dsimp only
  split
  · exact ⟨rfl, rfl⟩
  · exact ⟨rfl, rfl⟩

theorem tree_step (session : TreeSession σ) (step : TreeStep σ) :
    (session.step step).session.nextGroup = step.advance session.nextGroup ∧
      (session.step step).session.tree = session.tree.noting session.nextGroup step := by
  cases step with
  | useHandler | useGroup | route | answer =>
      simp [TreeSession.step, register, Tree.noting, Tree.use, Tree.route, Tree.answer,
        TreeStep.advance, TreeStep.group?, TreeStep.route?, TreeStep.binding?]
  | compile =>
      rw [Tree.noting_eq_self rfl rfl rfl, TreeSession.step, TreeSession.compile]
      split
      · exact ⟨rfl, rfl⟩
      · exact ⟨rfl, rfl⟩
  | inspect method path =>
      rw [Tree.noting_eq_self rfl rfl rfl, TreeSession.step]
      split
      · exact ⟨rfl, rfl⟩
      · split
        · exact ⟨rfl, rfl⟩
        · exact ⟨rfl, rfl⟩
  | request method path =>
      rw [Tree.noting_eq_self rfl rfl rfl, TreeSession.step]
      split
      · exact ⟨rfl, rfl⟩
      · exact session.tree_request _ method path
  | start flight method path =>
      rw [Tree.noting_eq_self rfl rfl rfl, TreeSession.step]
      split
      · exact ⟨rfl, rfl⟩
      · exact ⟨rfl, rfl⟩
  | poll | drop =>
      rw [Tree.noting_eq_self rfl rfl rfl]
      exact ⟨rfl, rfl⟩

theorem tree_after (session : TreeSession σ) (steps : List (TreeStep σ)) :
    (session.after steps).tree = { session.tree with
      faults := session.tree.faults ++ steps.filterMap TreeStep.binding?
      middleware := session.tree.middleware ++ TreeStep.used session.nextGroup steps
      routes := session.tree.routes ++
        TreeStep.registered session.nextGroup session.tree.middleware steps } := by
  induction steps generalizing session with
  | nil => simp [after, TreeStep.used, TreeStep.registered]
  | cons step steps ih =>
      obtain ⟨next, tree⟩ := session.tree_step step
      rw [after, ih, next, tree, Tree.noting]
      cases bound : step.binding? <;>
        simp [TreeStep.used, TreeStep.registered, bound]

theorem tree_fresh_after (settings : Settings) (registry : FaultRegistry) (nextGroup : Nat)
    (state : σ) (steps : List (TreeStep σ)) :
    ((fresh settings registry nextGroup state).after steps).tree =
      .ofSteps settings registry nextGroup steps := by
  rw [tree_after]
  simp [fresh, Tree.new, Tree.ofSteps]

end TreeSession

end RouteTree
