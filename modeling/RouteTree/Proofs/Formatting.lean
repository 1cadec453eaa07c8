import RouteTree.Proofs.Refinement

/-!
# How formatted terminals answer

A formatted terminal is put together by choosing serializers one after the other,
for single statuses or for all others. Whatever was chosen before, the last choice
counts. Which choice that is depends on a status that is known only at the end: the
one that the context has once the function is done, after all its stops. Others may
change the shared state at each of these stops, so outcomes are taken along the
states that the polls of a task find.
-/

namespace RouteTree

open Http

variable {σ ε α β : Type}

/-! ## Outcomes -/

namespace Task

/-- The value that the task ends in if it goes on with this state and is polled until
it is done, where the later polls find the states `found 0`, `found 1` and so on. -/
def outcome : Task ε σ α → σ → (Nat → σ) → α
  | .done value, _, _ => value
  | .wait 0 rest, state, found => rest.outcome state found
  | .wait (polls + 1) rest, _, found => rest.outcome (found polls) fun k => found (k + (polls + 1))
  | .emit _ rest, state, found => rest.outcome state found
  | .read rest, state, found => (rest state).outcome state found
  | .write state rest, _, found => rest.outcome state found

theorem outcome_eq_poll (task : Task ε σ α) (state : σ) (found : Nat → σ) :
    task.outcome state found =
      match (task.poll state).progress with
      | .finished value => value
      | .waiting rest => rest.outcome (found 0) fun k => found (k + 1) := by
  induction task generalizing state with
  | done value => rfl
  | wait polls rest ih =>
      cases polls with
      | zero => exact ih state
      | succ polls => cases polls <;> rfl
  | emit event rest ih => exact ih state
  | read rest ih => exact ih state state
  | write next rest ih => exact ih next

/-- A task that is followed by something without stops. -/
theorem outcome_bind {next : α → Task ε σ β} (last : α → β)
    (prompt : ∀ value state found, (next value).outcome state found = last value)
    (task : Task ε σ α) (state : σ) (found : Nat → σ) :
    (task.bind next).outcome state found = last (task.outcome state found) := by
  induction task generalizing state found with
  | done value => exact prompt value state found
  | wait polls rest ih =>
      cases polls with
      | zero => exact ih state found
      | succ polls => exact ih _ _
  | emit event rest ih => exact ih state found
  | read rest ih => exact ih state state found
  | write next rest ih => exact ih next found

theorem outcome_ofSilent (task : Task Empty σ α) (state : σ) (found : Nat → σ) :
    (task.ofSilent : Task ε σ α).outcome state found = task.outcome state found := by
  induction task generalizing state found with
  | done value => rfl
  | wait polls rest ih =>
      cases polls with
      | zero => exact ih state found
      | succ polls => exact ih _ _
  | emit event rest ih => exact event.elim
  | read rest ih => exact ih state state found
  | write next rest ih => exact ih next found

/-- A task that does not stop has the outcome that completing it has, whatever later
polls would find. -/
theorem outcome_of_stops_eq_zero {task : Task ε σ α} {state : σ} (prompt : task.stops state = 0)
    (found : Nat → σ) : task.outcome state found = (task.complete state).value := by
  rw [outcome_eq_poll, poll_of_stops_eq_zero prompt]

end Task

/-- What a call of the function on a frame comes to: its result, and the context that
the request has when the function is done, if it has one. -/
def Body.outcome (body : Body σ α) (payload : Option Json) (frame : Frame) (state : σ)
    (found : Nat → σ) : α × Option Context :=
  match body with
  | .plain run => (((run payload).run state).1, frame.context)
  | .contextual run =>
    let out := ((run payload frame.view).run state).1
    (out.1, some out.2)
  | .deferred run => ((run payload).outcome state found, frame.context)
  | .deferredContextual run =>
    let out := (run payload frame.view).outcome state found
    (out.1, some out.2)

namespace Frame

theorem outcome_demand_bind (frame : Frame) (next : Context × Frame → Task Event σ β)
    (state : σ) (found : Nat → σ) :
    (frame.demand.bind next).outcome state found =
      (next (frame.view, frame.allocate)).outcome state found := by
  obtain ⟨params, _ | context⟩ := frame <;> rfl

theorem head_eq (frame : Frame) :
    frame.head = ⟨(frame.context.map Context.status).getD .ok,
      (frame.context.map Context.headers).getD .empty⟩ := by
  obtain ⟨params, _ | context⟩ := frame <;> rfl

end Frame

/-- A call hands on the result of the function, and leaves its context in the frame. -/
theorem Callback.outcome_call (callback : Callback σ α) (payload : Option Json) (frame : Frame)
    (state : σ) (found : Nat → σ) :
    let called := (callback.call payload frame).outcome state found
    called.1 = (callback.body.outcome payload frame state found).1 ∧
      called.2.context = (callback.body.outcome payload frame state found).2 := by
  obtain ⟨id, body⟩ := callback
  cases body with
  | plain run => exact ⟨rfl, rfl⟩
  | contextual run =>
      simp only [call, Frame.outcome_demand_bind]
      exact ⟨rfl, rfl⟩
  | deferred run =>
      simp only [call, Body.outcome, Task.outcome]
      rw [Task.outcome_bind (·, frame) fun _ _ _ => rfl, Task.outcome_ofSilent]
      exact ⟨rfl, rfl⟩
  | deferredContextual run =>
      simp only [call, Body.outcome, Frame.outcome_demand_bind, Task.outcome]
      rw [Task.outcome_bind (fun out => (out.1, frame.allocate.withContext out.2)) fun _ _ _ => rfl,
        Task.outcome_ofSilent]
      exact ⟨rfl, rfl⟩

/-! ## Choosing serializers -/

namespace Encoder

inductive Choice where
  /-- For all statuses without one of their own. -/
  | byDefault (serializer : Serializer)
  | forStatus (status : Status) (serializer : Serializer)

namespace Choice

def default? : Choice → Option Serializer
  | .byDefault serializer => some serializer
  | .forStatus _ _ => none

def for? (status : Status) : Choice → Option Serializer
  | .byDefault _ => none
  | .forStatus chosen serializer => if chosen = status then some serializer else none

def apply (encoder : Encoder) : Choice → Encoder
  | .byDefault serializer => encoder.withDefault serializer
  | .forStatus status serializer => encoder.withStatus status serializer

/-- The serializer that was last chosen for a status, or else the last one that was
chosen for all others. -/
def last? (choices : List Choice) (status : Status) : Option Serializer :=
  (choices.filterMap (for? status)).getLast?.or (choices.filterMap default?).getLast?

end Choice

/-- The encoder that choices in order lead to, with this way to write plain JSON. -/
def ofChoices (plain : Json.Writer) (choices : List Choice) : Encoder :=
  choices.foldl Choice.apply { plain }

/-- The serializer that the encoder has for just this status. -/
def own? (encoder : Encoder) (status : Status) : Option Serializer :=
  (encoder.byStatus.find? fun entry => entry.1 = status).map Prod.snd

theorem select_eq (encoder : Encoder) (status : Status) :
    encoder.select status = (encoder.own? status).or encoder.default := by
  rw [select, own?]
  cases encoder.byStatus.find? fun entry => entry.1 = status <;> rfl

/-- A choice for one status replaces the former one for it, and no other. -/
theorem own?_withStatus (encoder : Encoder) (chosen status : Status) (serializer : Serializer) :
    (encoder.withStatus chosen serializer).own? status =
      if chosen = status then some serializer else encoder.own? status := by
  rw [own?, withStatus, List.find?_append]
  by_cases same : chosen = status
  · subst same
    have dropped : (encoder.byStatus.filter fun entry => entry.1 ≠ chosen).find?
        (fun entry => entry.1 = chosen) = none := by
      simp
    rw [dropped]
    simp
  · have kept : (encoder.byStatus.filter fun entry => entry.1 ≠ chosen).find?
        (fun entry => entry.1 = status) =
          encoder.byStatus.find? fun entry => entry.1 = status := by
      rw [List.find?_filter]
      grind
    rw [kept, own?]
    simp [same]

/-- A choice counts for its status, and otherwise nothing changes there. -/
theorem own?_apply (encoder : Encoder) (choice : Choice) (status : Status) :
    (choice.apply encoder).own? status = (choice.for? status).or (encoder.own? status) := by
  cases choice with
  | byDefault serializer => rfl
  | forStatus chosen serializer =>
      rw [Choice.apply, own?_withStatus, Choice.for?]
      split <;> rfl

theorem default_apply (encoder : Encoder) (choice : Choice) :
    (choice.apply encoder).default = choice.default?.or encoder.default := by
  cases choice <;> rfl

/-- If one choice overrides what is read off an encoder, then of many choices the last
one that says anything about it does. -/
theorem read_foldl_apply (read : Encoder → Option Serializer) (given : Choice → Option Serializer)
    (step : ∀ encoder choice, read (choice.apply encoder) = (given choice).or (read encoder))
    (choices : List Choice) (encoder : Encoder) :
    read (choices.foldl Choice.apply encoder) =
      (choices.filterMap given).getLast?.or (read encoder) := by
  induction choices generalizing encoder with
  | nil => rfl
  | cons choice rest ih =>
      rw [List.foldl_cons, ih, step, List.filterMap_cons]
      cases given choice with
      | none => rfl
      | some serializer =>
          rw [Option.some_or, List.getLast?_cons]
          cases (rest.filterMap given).getLast? <;> rfl

/-- The encoder selects by the last choices. -/
theorem select_ofChoices (plain : Json.Writer) (choices : List Choice) (status : Status) :
    (ofChoices plain choices).select status = Choice.last? choices status := by
  have own := read_foldl_apply (·.own? status) (·.for? status)
    (fun encoder choice => own?_apply encoder choice status) choices { plain }
  have others := read_foldl_apply (·.default) (·.default?) default_apply choices { plain }
  rw [select_eq, ofChoices, own, others]
  simp [Choice.last?, own?]

/-- Choosing serializers leaves plain JSON as it is. -/
theorem plain_foldl_apply (choices : List Choice) (encoder : Encoder) :
    (choices.foldl Choice.apply encoder).plain = encoder.plain := by
  induction choices generalizing encoder with
  | nil => rfl
  | cons choice rest ih =>
      rw [List.foldl_cons, ih]
      cases choice <;> rfl

theorem encode_eq (encoder : Encoder) (status : Status) (value : Json) :
    encoder.encode status value =
      ((encoder.select status).map (·.encode value)).getD (encoder.plain.write value) := by
  rw [encode]
  cases encoder.select status <;> rfl

end Encoder

/-! ## Answering -/

namespace Http

theorem Headers.entries_appendIfAbsent (headers : Headers) (name : HeaderName)
    (value : HeaderValue) :
    (headers.appendIfAbsent name value).entries =
      headers.entries ++ if headers.contains name then [] else [(name, value)] := by
  rw [appendIfAbsent]
  split
  · exact (List.append_nil _).symm
  · rfl

end Http

namespace Endpoint

def format (encoder : Encoder) (unhandled : Response) (head : Head) :
    Except String Json → Response
  | .ok value => head.respondJson (encoder.encode head.status value)
  | .error _ => unhandled

theorem outcome_respond_formatted (callback : Callback σ (Except String Json)) (encoder : Encoder)
    (unhandled : Response) (payload : Option Json) (frame : Frame) (state : σ)
    (found : Nat → σ) :
    let out := callback.body.outcome payload frame state found
    ((formatted callback encoder unhandled).respond payload frame).outcome state found =
      format encoder unhandled ⟨(out.2.map Context.status).getD .ok,
        (out.2.map Context.headers).getD .empty⟩ out.1 := by
  intro out
  have ended : ((formatted callback encoder unhandled).respond payload frame).outcome state found =
      format encoder unhandled ((callback.call payload frame).outcome state found).2.head
        ((callback.call payload frame).outcome state found).1 := by
    rw [respond]
    apply Task.outcome_bind fun done : Except String Json × Frame =>
      format encoder unhandled done.2.head done.1
    intro done state found
    obtain ⟨reason | value, after⟩ := done <;> rfl
  obtain ⟨result, context⟩ := callback.outcome_call payload frame state found
  rw [ended, Frame.head_eq, result, context]

end Endpoint

/-- Outside a deferred scope, an endpoint that may stop is left pending and any other
is ready with its outcome. -/
theorem Terminal.start_call (terminal : Terminal σ) (unhandled : Response) (payload : Option Json)
    (frame : Frame) (state : σ) (found : Nat → σ) :
    (Reply.start ((terminal.endpoint unhandled).call payload frame) state).1 =
      if terminal.suspends then .pending ((terminal.endpoint unhandled).respond payload frame)
      else .ready (((terminal.endpoint unhandled).respond payload frame).outcome state found) := by
  have same : frame.view = (⟨frame.view, state, []⟩ : Walk σ).context := rfl
  have delivers := terminal.delivers_call unhandled payload same
  rw [Reply.start_of_stops_eq_zero delivers.prompt,
    ← Task.outcome_of_stops_eq_zero delivers.prompt found, Endpoint.call,
    terminal.suspends_endpoint]
  split
  · rfl
  · exact Task.outcome_bind Reply.ready (fun _ _ _ => rfl) _ state found

/-- Formatted terminals answer by the last choices. Take a terminal with a function of
any shape and serializers chosen in any order, compiled anywhere, and call it on any
frame; others may change the shared state wherever the function stops. Inside the
deferred scope and outside of it, the response is the same:

* If the function gives a value, the status and the header fields are those that the
  context has when the function is done, or 200 and none if there is no context. The
  body is written by the serializer that was last chosen for that status, else by the
  last one for all others, else as plain JSON by any way to write it, and so it spells
  the value. The content type for JSON is added exactly if the context has set none.
* If its result is no value, the response is the one for unhandled faults. -/
theorem Terminal.formatted_by_last_choice (callback : Callback σ (Except String Json))
    (plain : Json.Writer) (choices : List Encoder.Choice) (unhandled : Response)
    (name : Option String) (inScope : Bool) (values : ValueTable) (payload : Option Json)
    (frame : Frame) (state : σ) (found : Nat → σ) :
    let terminal : Terminal σ := .formatted callback (.ofChoices plain choices)
    let endpoint := (terminal.compile name inScope unhandled values).1.endpoint
    let response := (endpoint.respond payload frame).outcome state found
    let out := callback.body.outcome payload frame state found
    let status := (out.2.map Context.status).getD .ok
    let headers := (out.2.map Context.headers).getD .empty
    (Reply.start (endpoint.call payload frame) state).1 =
      (if callback.suspends then .pending (endpoint.respond payload frame) else .ready response) ∧
    (∀ value, out.1 = .ok value →
      response.status = status ∧
      response.body = ((Encoder.Choice.last? choices status).map (·.encode value)).getD
        (plain.write value) ∧
      (Encoder.Choice.last? choices status = none → value.Spelled response.body.toList) ∧
      response.headers.entries =
        headers.entries ++ if headers.contains .contentType then [] else [(.contentType, .json)]) ∧
    (∀ reason, out.1 = .error reason → response = unhandled) := by
  intro terminal endpoint response out status headers
  have compiled : endpoint = terminal.endpoint unhandled :=
    terminal.endpoint_compile name inScope unhandled values
  have ended : response =
      Endpoint.format (.ofChoices plain choices) unhandled ⟨status, headers⟩ out.1 := by
    simp only [response, compiled]
    exact Endpoint.outcome_respond_formatted callback _ unhandled payload frame state found
  refine ⟨?_, ?_, ?_⟩
  · simp only [response, compiled]
    exact terminal.start_call unhandled payload frame state found
  · intro value ok
    have body : response.body = ((Encoder.Choice.last? choices status).map (·.encode value)).getD
        (plain.write value) := by
      rw [ended, ok, Endpoint.format, Head.respondJson_body, Encoder.encode_eq,
        Encoder.select_ofChoices, Encoder.ofChoices, Encoder.plain_foldl_apply]
    refine ⟨?_, body, ?_, ?_⟩
    · rw [ended, ok]
      rfl
    · intro none
      rw [body, none]
      exact plain.spelled value
    · rw [ended, ok]
      exact headers.entries_appendIfAbsent .contentType .json
  · intro reason failed
    rw [ended, failed, Endpoint.format]

namespace Sample

/-- Stop twice, then set the status and give the count of visits that is found. -/
def count : Callback Nat (Except String Json) :=
  ⟨7, .deferredContextual fun _ context =>
    .wait 2 (.read fun visits => .done (.ok (counted visits), context.setStatus .notFound))⟩
where
  -- The double is one and a half.
  counted (visits : Nat) : Json :=
    .arr [.nat visits, .num (.double ⟨false, 1023, 2251799813685248⟩)]

/-- Set the status, and then give what is no value. -/
def muddle : Callback Nat (Except String Json) :=
  ⟨8, .contextual fun _ context visits =>
    ((.error "no value", context.setStatus .notFound), visits)⟩

/-- The second choice for the status counts, and the one for all others does not. -/
def choices : List Encoder.Choice :=
  [.forStatus .notFound ⟨0, fun _ => "lost"⟩, .byDefault ⟨1, fun _ => "found"⟩,
    .forStatus .notFound ⟨2, fun value => "visits: " ++ value.compact⟩]

def otherChoices : List Encoder.Choice := [.forStatus .ok ⟨1, fun _ => "found"⟩]

/-- The count is written for the status that the function set at its end, with the
visits that were made while it stopped: by the serializer that was chosen last, and as
plain JSON if none was chosen. The muddle is answered as if unhandled. -/
theorem count_formatted : ∃ task other,
    (Reply.start ((Endpoint.formatted count (.ofChoices .exact choices) unhandled).call none
      (.new none)) 5).1 = .pending task ∧
    (task.outcome 5 (· + 10)).status = .notFound ∧
    (task.outcome 5 (· + 10)).body = "visits: [11,1.5]" ∧
    (task.outcome 5 (· + 10)).headers.entries = [(.contentType, .json)] ∧
    (Reply.start ((Endpoint.formatted count (.ofChoices .exact otherChoices) unhandled).call none
      (.new none)) 5).1 = .pending other ∧
    (other.outcome 5 (· + 10)).body = "[11,1.5]" ∧
    (count.counted 11).Spelled (other.outcome 5 (· + 10)).body.toList ∧
    (Reply.start ((Endpoint.formatted muddle (.ofChoices .exact choices) unhandled).call none
      (.new none)) 5).1 = .ready unhandled := by
  obtain ⟨pending, written, _⟩ := Terminal.formatted_by_last_choice count .exact choices unhandled
    none false .empty none (.new none) 5 (· + 10)
  obtain ⟨left, plain, _⟩ := Terminal.formatted_by_last_choice count .exact otherChoices unhandled
    none false .empty none (.new none) 5 (· + 10)
  obtain ⟨ready, _, failed⟩ := Terminal.formatted_by_last_choice muddle .exact choices unhandled
    none false .empty none (.new none) 5 (· + 10)
  obtain ⟨status, body, _, headers⟩ := written (count.counted 11) rfl
  obtain ⟨_, text, spelled, _⟩ := plain (count.counted 11) rfl
  refine ⟨_, _, pending, status, ?_, headers, left, ?_, spelled rfl, ?_⟩
  · rw [body]
    decide +kernel
  · rw [text]
    decide +kernel
  · refine ready.trans ?_
    rw [failed "no value" rfl]
    rfl

end Sample

end RouteTree
