import Mathlib.Data.List.Nodup
import Mathlib.Data.List.Perm.Basic
import RouteTree.Proofs.Routing

/-!
# Looking up a path is scanning the routes

A router answers a path as if it tried the patterns of the method one by one: first
those without parameters, in whatever order, and then those with parameters in the
order in which they were added. The tables find a pattern without parameters by
its text, and the scan finds it by walking its segments; the two agree because a
path matches such a pattern exactly if it is its text.
-/

namespace RouteTree

open Http

variable {α : Type}

namespace Text

variable {β : Type} [DecidableEq β]

/-- What cutting at the first separator gives: a part without it, and what
follows it if it is there. -/
theorem splitFirst_spec (sep : β) (text : List β) :
    sep ∉ (splitFirst sep text).1 ∧
      ((splitFirst sep text).2 = none → text = (splitFirst sep text).1) ∧
      ∀ after, (splitFirst sep text).2 = some after →
        text = (splitFirst sep text).1 ++ sep :: after := by
  induction text with
  | nil => simp [splitFirst]
  | cons c rest ih =>
      obtain ⟨clean, whole, cut⟩ := ih
      by_cases here : c = sep
      · simp [splitFirst, here]
      · have differs : sep ≠ c := Ne.symm here
        simp only [splitFirst, here, if_false, List.mem_cons, not_or, List.cons_append,
          List.cons.injEq, true_and]
        exact ⟨⟨differs, clean⟩, whole, cut⟩

theorem splitFirst_of_not_mem {sep : β} {piece : List β} (clean : sep ∉ piece) :
    splitFirst sep piece = (piece, none) := by
  induction piece with
  | nil => rfl
  | cons c rest ih =>
      simp only [List.mem_cons, not_or] at clean
      simp [splitFirst, ih clean.2, Ne.symm clean.1]

theorem splitFirst_append_cons {sep : β} {piece : List β} (clean : sep ∉ piece)
    (rest : List β) : splitFirst sep (piece ++ sep :: rest) = (piece, some rest) := by
  induction piece with
  | nil => simp [splitFirst]
  | cons c piece ih =>
      simp only [List.mem_cons, not_or] at clean
      simp [splitFirst, ih clean.2, Ne.symm clean.1]

end Text

/-! ## Patterns without parameters -/

namespace Pattern

theorem segment_eq_literal {piece : List Char} {isLast : Bool} {segment : Segment}
    (read : Pattern.segment piece isLast = .ok segment) (literal : isLiteral segment = true) :
    segment = .literal (String.ofList piece) := by
  unfold Pattern.segment at read
  split at read
  · split at read
    · cases read
      cases literal
    · cases read
  · cases read
  · cases read
    cases literal
  · cases read
    rfl

theorem segmentsOf_eq_literals {pieces : List (List Char)} {segments : List Segment}
    (read : segmentsOf pieces = .ok segments) (literal : segments.all isLiteral = true) :
    segments = pieces.map fun piece => .literal (String.ofList piece) := by
  induction pieces generalizing segments with
  | nil =>
      cases read
      rfl
  | cons piece pieces ih =>
      simp only [segmentsOf] at read
      split at read
      · cases read
      · rename_i first head
        split at read
        · cases read
        · rename_i others tail
          cases read
          simp only [List.all_cons, Bool.and_eq_true] at literal
          rw [segment_eq_literal head literal.1, ih tail literal.2]
          rfl

/-- A literal piece that is followed by others takes its part of the path and
leaves the rest to them. -/
theorem captureFrom_literal_cons {piece path after : List Char}
    (cut : Text.splitFirst '/' path = (piece, some after)) (next : Segment)
    (others : List Segment) :
    captureFrom (.literal (String.ofList piece) :: next :: others) path =
      captureFrom (next :: others) after := by
  rw [captureFrom]
  · simp [cut]
  · exact nofun

/-- Literal pieces match what they give when joined, and nothing else. -/
theorem captureFrom_literals {pieces : List (List Char)} (nonempty : pieces ≠ [])
    (clean : ∀ piece ∈ pieces, '/' ∉ piece) (path : List Char) :
    (captureFrom (pieces.map fun piece => .literal (String.ofList piece)) path).isSome = true ↔
      path = Text.joinWith '/' pieces := by
  induction pieces generalizing path with
  | nil => exact absurd rfl nonempty
  | cons piece pieces ih =>
      obtain ⟨here, later⟩ := List.forall_mem_cons.1 clean
      obtain ⟨_, whole, cut⟩ := Text.splitFirst_spec '/' path
      constructor
      · intro matched
        have head : (Text.splitFirst '/' path).1 = piece := by
          by_contra differs
          simp [captureFrom, differs] at matched
        cases tail : (Text.splitFirst '/' path).2 with
        | none =>
            cases pieces with
            | nil => rw [Text.joinWith_singleton, whole tail, head]
            | cons next pieces => simp [captureFrom, head, tail] at matched
        | some after =>
            cases pieces with
            | nil => simp [captureFrom, head, tail] at matched
            | cons next pieces =>
                have rest := (ih (by simp) later after).1
                rw [List.map_cons, List.map_cons, captureFrom_literal_cons (Prod.ext head tail)]
                  at matched
                rw [Text.joinWith_cons_cons, ← rest matched, ← head]
                exact cut after tail
      · rintro rfl
        cases pieces with
        | nil => simp [captureFrom, Text.splitFirst_of_not_mem here]
        | cons next pieces =>
            have rest := (ih (by simp) later _).2 rfl
            rw [List.map_cons, List.map_cons, Text.joinWith_cons_cons,
              captureFrom_literal_cons (Text.splitFirst_append_cons here _)]
            exact rest

/-- A path matches a pattern without parameters exactly if it is its text. -/
theorem capture_isSome_of_isStatic {text : String} {pattern : Pattern}
    (read : parse text = .ok pattern) (isStatic : pattern.isStatic = true) (path : String) :
    (pattern.capture path).isSome = true ↔ text = path := by
  rw [parse] at read
  split at read
  · rename_i body slash
    split at read
    · rename_i segments pieces
      cases read
      have literals := captureFrom_literals (Text.splitOn_ne_nil '/' body)
        fun piece mem => Text.sep_not_mem_of_mem_splitOn mem
      rw [Text.joinWith_splitOn, ← segmentsOf_eq_literals pieces isStatic] at literals
      rw [capture, ← String.toList_inj, slash]
      split
      · rename_i rest start
        simp [start, literals, eq_comm]
      · rename_i elsewhere
        constructor
        · intro found
          cases found
        · intro same
          exact absurd same.symm (elsewhere body)
    · cases read
  · cases read

end Pattern

/-! ## Insertions in order -/

structure Insertion (α : Type) where
  method : Method
  pattern : Pattern
  value : α

namespace Insertion

/-- The pattern is as it was read from its text. -/
def Read (insertion : Insertion α) : Prop :=
  Pattern.parse insertion.pattern.text = .ok insertion.pattern

def key (insertion : Insertion α) : Method × String :=
  (insertion.method, insertion.pattern.text)

def isExact (method : Method) (insertion : Insertion α) : Bool :=
  insertion.method = method && insertion.pattern.isStatic

def isPatterned (method : Method) (insertion : Insertion α) : Bool :=
  insertion.method = method && !insertion.pattern.isStatic

/-- What the insertion answers to a path that its pattern matches. The captures
are left out if the pattern has no parameters. -/
def answer? (path : String) (insertion : Insertion α) : Option (α × Option Params) :=
  (insertion.pattern.capture path).map fun params =>
    (insertion.value, if insertion.pattern.isStatic then none else some params)

def scan (path : String) (insertions : List (Insertion α)) : Option (α × Option Params) :=
  insertions.findSome? (answer? path)

/-- An insertion without parameters answers its text and nothing else. -/
theorem answer?_of_isStatic {insertion : Insertion α} (read : insertion.Read)
    (isStatic : insertion.pattern.isStatic = true) (path : String) :
    insertion.answer? path =
      if insertion.pattern.text = path then some (insertion.value, none) else none := by
  have matched := Pattern.capture_isSome_of_isStatic read isStatic path
  rw [answer?]
  cases found : insertion.pattern.capture path with
  | none =>
      rw [found] at matched
      simp [show ¬ insertion.pattern.text = path from fun same => nomatch matched.2 same]
  | some params =>
      rw [found] at matched
      simp [matched.1 rfl, isStatic]

end Insertion

/-- If no two elements both give something, the order of the elements does not
matter for what the first one gives. -/
theorem findSome?_eq_of_perm {β γ : Type} {f : β → Option γ} {first second : List β}
    (alone : first.Pairwise fun a b => f a = none ∨ f b = none) (same : first.Perm second) :
    first.findSome? f = second.findSome? f := by
  induction same with
  | nil => rfl
  | cons a _ ih => simp only [List.findSome?_cons, ih (List.pairwise_cons.1 alone).2]
  | swap a b rest =>
      have apart := (List.pairwise_cons.1 alone).1 a List.mem_cons_self
      simp only [List.findSome?_cons]
      rcases apart with silent | silent
      · simp only [silent]
      · simp only [silent]
  | trans first _ ih ih' => exact (ih alone).trans (ih' (first.pairwise alone Or.symm))

theorem PathIndex.size_insert (table : PathIndex α) (pattern : Pattern) (value : α) :
    (table.insert pattern value).2.size = table.size + (table.insert pattern value).1.toNat := by
  have inserts := table.inserts_insert pattern value
  generalize table.insert pattern value = out at inserts ⊢
  cases inserts with
  | keepExact | keepPattern => rfl
  | exact | pattern =>
      simp only [size, List.length_append, List.length_singleton, Bool.toNat_true]
      omega

namespace Router

variable {router : Router α} {accepted : List (Insertion α)}

/-- Try insertions in order. Gives the router, and the insertions that were
accepted. -/
def insertAll (router : Router α) : List (Insertion α) → Router α × List (Insertion α)
  | [] => (router, [])
  | insertion :: rest =>
    match router.insert insertion.method insertion.pattern insertion.value with
    | (true, router) => ((router.insertAll rest).1, insertion :: (router.insertAll rest).2)
    | (false, router) => router.insertAll rest

/-! ### Size -/

theorem size_cons (entry : Method × PathIndex α) (rest : List (Method × PathIndex α)) :
    (Router.mk (entry :: rest)).size = entry.2.size + (Router.mk rest).size := by
  have shifted : ∀ (tables : List (Method × PathIndex α)) (start : Nat),
      tables.foldl (fun total entry => total + entry.2.size) start =
        start + tables.foldl (fun total entry => total + entry.2.size) 0 := by
    intro tables
    induction tables with
    | nil => simp
    | cons first rest ih =>
        intro start
        simp only [List.foldl_cons]
        rw [ih (start + first.2.size), ih (0 + first.2.size)]
        omega
  simp only [size, List.foldl_cons]
  rw [shifted rest]
  omega

theorem size_setTable (tables : List (Method × PathIndex α)) (method : Method)
    (table : PathIndex α) :
    (Router.mk (setTable method table tables)).size + ((Router.mk tables).table method).size =
      (Router.mk tables).size + table.size := by
  induction tables with
  | nil => simp [setTable, Router.table, PathIndex.empty, PathIndex.size, size]
  | cons entry rest ih =>
      by_cases here : entry.1 = method
      · simp only [setTable, here, if_true, size_cons, Router.table, List.find?_cons,
          decide_true]
        omega
      · have elsewhere : (Router.mk (entry :: rest)).table method =
            (Router.mk rest).table method := by
          simp [Router.table, here]
        simp only [setTable, here, if_false, size_cons, elsewhere]
        omega

theorem size_insert (router : Router α) (method : Method) (pattern : Pattern) (value : α) :
    (router.insert method pattern value).2.size =
      router.size + (router.insert method pattern value).1.toNat := by
  have replaced : (router.insert method pattern value).2.size + (router.table method).size =
      router.size + ((router.table method).insert pattern value).2.size :=
    size_setTable router.tables method _
  have grown : ((router.table method).insert pattern value).2.size =
      (router.table method).size + (router.insert method pattern value).1.toNat :=
    PathIndex.size_insert (router.table method) pattern value
  omega

/-! ### The router holds what was accepted -/

/-- The router holds these insertions, in their order, and no others. -/
structure Records (router : Router α) (accepted : List (Insertion α)) : Prop where
  read : ∀ insertion ∈ accepted, insertion.Read
  once : (accepted.map Insertion.key).Nodup
  exact : ∀ method, (router.table method).exact =
    (accepted.filter (Insertion.isExact method)).map fun insertion =>
      (insertion.pattern.text, insertion.value)
  patterns : ∀ method, (router.table method).patterns =
    (accepted.filter (Insertion.isPatterned method)).map fun insertion =>
      (insertion.pattern, insertion.value)
  size : router.size = accepted.length

theorem records_empty : (empty : Router α).Records [] :=
  ⟨by simp, by simp, fun _ => rfl, fun _ => rfl, rfl⟩

namespace Records

theorem filed (records : router.Records accepted) : router.Filed := by
  intro method
  refine ⟨?_, ?_⟩
  · rw [records.exact]
    intro entry mem
    obtain ⟨insertion, kept, rfl⟩ := List.mem_map.1 mem
    obtain ⟨there, isExact⟩ := List.mem_filter.1 kept
    simp only [Insertion.isExact, Bool.and_eq_true] at isExact
    exact ⟨insertion.pattern, records.read insertion there, isExact.2⟩
  · rw [records.patterns]
    intro entry mem
    obtain ⟨insertion, kept, rfl⟩ := List.mem_map.1 mem
    obtain ⟨there, isPatterned⟩ := List.mem_filter.1 kept
    simp only [Insertion.isPatterned, Bool.and_eq_true, Bool.not_eq_true'] at isPatterned
    exact ⟨records.read insertion there, isPatterned.2⟩

/-- The router has a text for a method exactly if an insertion with them was
accepted. -/
theorem has_iff (records : router.Records accepted) (method : Method) (text : String) :
    router.Has method text ↔ ∃ earlier ∈ accepted, earlier.key = (method, text) := by
  rw [Has, PathIndex.texts, records.exact, records.patterns]
  simp only [List.map_map, List.mem_append, List.mem_map, List.mem_filter, Function.comp_apply,
    Insertion.isExact, Insertion.isPatterned, Insertion.key, Bool.and_eq_true,
    decide_eq_true_eq, Prod.mk.injEq, Bool.not_eq_true']
  constructor
  · rintro (⟨earlier, ⟨there, same, _⟩, rfl⟩ | ⟨earlier, ⟨there, same, _⟩, rfl⟩)
    · exact ⟨earlier, there, same, rfl⟩
    · exact ⟨earlier, there, same, rfl⟩
  · rintro ⟨earlier, there, same, rfl⟩
    cases isStatic : earlier.pattern.isStatic with
    | true => exact .inl ⟨earlier, ⟨there, same, isStatic⟩, rfl⟩
    | false => exact .inr ⟨earlier, ⟨there, same, isStatic⟩, rfl⟩

/-- An insertion is turned away exactly if one with its method and text was
accepted before. -/
theorem insert_eq_false_iff (records : router.Records accepted) (method : Method)
    {pattern : Pattern} (read : Pattern.parse pattern.text = .ok pattern) (value : α) :
    (router.insert method pattern value).1 = false ↔
      ∃ earlier ∈ accepted, earlier.key = (method, pattern.text) := by
  rw [← records.has_iff, ← Bool.not_eq_true, insert_fst records.filed method read value, not_not]

variable {method : Method} {pattern : Pattern} {value : α}

/-- An insertion that is turned away leaves all tables, and so the record. -/
theorem refused (records : router.Records accepted)
    (out : (router.insert method pattern value).1 = false) :
    (router.insert method pattern value).2.Records accepted ∧
      ∀ other, (router.insert method pattern value).2.table other = router.table other := by
  have same : ∀ other,
      (router.insert method pattern value).2.table other = router.table other := by
    intro other
    rw [table_insert]
    split
    · rename_i here
      subst here
      have inserts := (router.table other).inserts_insert pattern value
      change ((router.table other).insert pattern value).1 = false at out
      generalize (router.table other).insert pattern value = result at inserts out ⊢
      cases inserts with
      | exact | pattern => cases out
      | keepExact | keepPattern => rfl
    · rfl
  refine ⟨⟨records.read, records.once, ?_, ?_, ?_⟩, same⟩
  · intro other
    rw [same, records.exact]
  · intro other
    rw [same, records.patterns]
  · rw [size_insert, out, records.size]
    rfl

/-- An insertion that is accepted stands behind the others of its kind. -/
theorem tables_added (out : (router.insert method pattern value).1 = true) (other : Method) :
    ((router.insert method pattern value).2.table other).exact =
        (router.table other).exact ++
          ([Insertion.mk method pattern value].filter (Insertion.isExact other)).map
            (fun insertion => (insertion.pattern.text, insertion.value)) ∧
      ((router.insert method pattern value).2.table other).patterns =
        (router.table other).patterns ++
          ([Insertion.mk method pattern value].filter (Insertion.isPatterned other)).map
            (fun insertion => (insertion.pattern, insertion.value)) := by
  rw [table_insert]
  split
  · rename_i here
    subst here
    have inserts := (router.table other).inserts_insert pattern value
    change ((router.table other).insert pattern value).1 = true at out
    generalize (router.table other).insert pattern value = result at inserts out ⊢
    cases inserts with
    | keepExact | keepPattern => cases out
    | exact isStatic | pattern isStatic =>
        simp [Insertion.isExact, Insertion.isPatterned, isStatic]
  · rename_i elsewhere
    simp [Insertion.isExact, Insertion.isPatterned, Ne.symm elsewhere]

theorem added (records : router.Records accepted)
    (read : Pattern.parse pattern.text = .ok pattern)
    (out : (router.insert method pattern value).1 = true) :
    (router.insert method pattern value).2.Records (accepted ++ [⟨method, pattern, value⟩]) := by
  have fresh : (method, pattern.text) ∉ accepted.map Insertion.key := by
    intro there
    obtain ⟨earlier, mem, same⟩ := List.mem_map.1 there
    have refused := (records.insert_eq_false_iff method read value).2 ⟨earlier, mem, same⟩
    rw [refused] at out
    cases out
  refine ⟨?_, ?_, ?_, ?_, ?_⟩
  · exact List.forall_mem_append.2 ⟨records.read, List.forall_mem_singleton.2 read⟩
  · rw [List.map_append, List.map_singleton, List.nodup_append_comm]
    exact List.nodup_cons.2 ⟨fresh, records.once⟩
  · intro other
    rw [(tables_added out other).1, records.exact, List.filter_append, List.map_append]
  · intro other
    rw [(tables_added out other).2, records.patterns, List.filter_append, List.map_append]
  · rw [size_insert, out, records.size, List.length_append]
    rfl

end Records

/-- After any insertions the router holds exactly those that were accepted. -/
theorem records_insertAll (records : router.Records accepted) {history : List (Insertion α)}
    (read : ∀ insertion ∈ history, insertion.Read) :
    (router.insertAll history).1.Records (accepted ++ (router.insertAll history).2) := by
  induction history generalizing router accepted with
  | nil => simpa [insertAll] using records
  | cons insertion rest ih =>
      obtain ⟨here, later⟩ := List.forall_mem_cons.1 read
      have refused := @Records.refused α router accepted insertion.method insertion.pattern
        insertion.value records
      have added := @Records.added α router accepted insertion.method insertion.pattern
        insertion.value records here
      rw [insertAll]
      generalize router.insert insertion.method insertion.pattern insertion.value = out
        at refused added ⊢
      obtain ⟨_ | _, next⟩ := out
      · exact ih (refused rfl).1 later
      · have rest := ih (added rfl) later
        rw [List.append_assoc] at rest
        exact rest

/-! ### Lookup -/

/-- Finding a pattern without parameters by its text is scanning for it. -/
theorem find?_exact_eq_scan {insertions : List (Insertion α)}
    (plain : ∀ insertion ∈ insertions, insertion.Read ∧ insertion.pattern.isStatic = true)
    (path : String) :
    (((insertions.map fun insertion => (insertion.pattern.text, insertion.value)).find?
        fun entry => entry.1 = path).map fun entry => (entry.2, none)) =
      Insertion.scan path insertions := by
  induction insertions with
  | nil => rfl
  | cons insertion rest ih =>
      obtain ⟨⟨read, isStatic⟩, later⟩ := List.forall_mem_cons.1 plain
      have here := Insertion.answer?_of_isStatic read isStatic path
      rw [Insertion.scan] at ih
      by_cases same : insertion.pattern.text = path
      · simp [Insertion.scan, here, same]
      · simp [Insertion.scan, here, same, ← ih later]

/-- Trying patterns with parameters in order is scanning for them. -/
theorem scan_patterns_eq_scan {insertions : List (Insertion α)}
    (dynamic : ∀ insertion ∈ insertions, insertion.pattern.isStatic = false) (path : String) :
    PathIndex.scan path (insertions.map fun insertion => (insertion.pattern, insertion.value)) =
      Insertion.scan path insertions := by
  induction insertions with
  | nil => rfl
  | cons insertion rest ih =>
      obtain ⟨isStatic, later⟩ := List.forall_mem_cons.1 dynamic
      have rest := ih later
      rw [Insertion.scan] at rest
      cases found : insertion.pattern.capture path with
      | none => simp [PathIndex.scan, Insertion.scan, Insertion.answer?, found, rest]
      | some params => simp [PathIndex.scan, Insertion.scan, Insertion.answer?, found, isStatic]

/-- At most one accepted insertion without parameters answers a path. -/
theorem Records.pairwise_exact (records : router.Records accepted) (method : Method)
    (path : String) :
    (accepted.filter (Insertion.isExact method)).Pairwise fun first second =>
      first.answer? path = none ∨ second.answer? path = none := by
  have apart := (List.pairwise_map.1 records.once).filter (Insertion.isExact method)
  refine apart.imp_of_mem ?_
  intro first second mem mem' unlike
  obtain ⟨there, isExact⟩ := List.mem_filter.1 mem
  obtain ⟨there', isExact'⟩ := List.mem_filter.1 mem'
  simp only [Insertion.isExact, Bool.and_eq_true, decide_eq_true_eq] at isExact isExact'
  rw [Insertion.answer?_of_isStatic (records.read first there) isExact.2,
    Insertion.answer?_of_isStatic (records.read second there') isExact'.2]
  by_cases same : first.pattern.text = path
  · have differs : second.pattern.text ≠ path := by
      intro same'
      exact unlike (Prod.ext (isExact.1.trans isExact'.1.symm) (same.trans same'.symm))
    exact .inr (if_neg differs)
  · exact .inl (if_neg same)

/-- A path is looked up as if the accepted insertions of its method were scanned:
those without parameters first, in any order, and then the others in theirs. -/
theorem Records.lookup_eq_scan (records : router.Records accepted) (method : Method)
    (path : String) {exact : List (Insertion α)}
    (arranged : exact.Perm (accepted.filter (Insertion.isExact method))) :
    router.lookup method path =
      Insertion.scan path (exact ++ accepted.filter (Insertion.isPatterned method)) := by
  have plain : ∀ insertion ∈ accepted.filter (Insertion.isExact method),
      insertion.Read ∧ insertion.pattern.isStatic = true := by
    intro insertion mem
    obtain ⟨there, isExact⟩ := List.mem_filter.1 mem
    simp only [Insertion.isExact, Bool.and_eq_true] at isExact
    exact ⟨records.read insertion there, isExact.2⟩
  have dynamic : ∀ insertion ∈ accepted.filter (Insertion.isPatterned method),
      insertion.pattern.isStatic = false := by
    intro insertion mem
    obtain ⟨_, isPatterned⟩ := List.mem_filter.1 mem
    simp only [Insertion.isPatterned, Bool.and_eq_true, Bool.not_eq_true'] at isPatterned
    exact isPatterned.2
  have anyOrder := findSome?_eq_of_perm (records.pairwise_exact method path) arranged.symm
  rw [Insertion.scan, List.findSome?_append, ← anyOrder, ← Insertion.scan, ← Insertion.scan,
    ← find?_exact_eq_scan plain, ← scan_patterns_eq_scan dynamic, ← records.exact,
    ← records.patterns, lookup, PathIndex.lookup]
  cases (router.table method).exact.find? fun entry => entry.1 = path <;> rfl

/-- A router refines a linear scan. However values were inserted under patterns
that were read:

* the next insertion is turned away exactly if one with the same method and text
  was accepted before, and then every path is answered as it was;
* a path is answered by the first accepted insertion of its method whose pattern
  matches it, where those without parameters come first, in any order, and give
  no captures, and the others come in the order of insertion and give theirs;
* the size of the router is the number of accepted insertions. -/
theorem refines_linear_scan {history : List (Insertion α)}
    (read : ∀ insertion ∈ history, insertion.Read) :
    let router := (empty.insertAll history).1
    let accepted := (empty.insertAll history).2
    (∀ next : Insertion α, next.Read →
      ((router.insert next.method next.pattern next.value).1 = false ↔
        ∃ earlier ∈ accepted, earlier.method = next.method ∧
          earlier.pattern.text = next.pattern.text) ∧
      ((router.insert next.method next.pattern next.value).1 = false →
        ∀ method path, (router.insert next.method next.pattern next.value).2.lookup method path =
          router.lookup method path)) ∧
    (∀ method path exact, exact.Perm (accepted.filter (Insertion.isExact method)) →
      router.lookup method path =
        Insertion.scan path (exact ++ accepted.filter (Insertion.isPatterned method))) ∧
    router.size = accepted.length := by
  intro router accepted
  have records : router.Records accepted := records_insertAll records_empty read
  refine ⟨?_, ?_, records.size⟩
  · intro next readNext
    constructor
    · have known := records.insert_eq_false_iff next.method readNext next.value
      simpa only [Insertion.key, Prod.mk.injEq] using known
    · intro refused method path
      rw [lookup, (records.refused refused).2 method, lookup]
  · intro method path exact arranged
    exact records.lookup_eq_scan method path arranged

end Router

/-! ## A small router

A pattern with a parameter is added first, then a text that ends with an empty
segment; the pattern is added once more, and the text for another method. -/

namespace Sample

def byId : Pattern := ⟨"/:id", [.param "id"]⟩

def about : Pattern := ⟨"/about/", [.literal "about", .literal ""]⟩

def insertions : List (Insertion Nat) :=
  [⟨⟨"GET"⟩, byId, 1⟩, ⟨⟨"GET"⟩, about, 2⟩, ⟨⟨"GET"⟩, byId, 3⟩, ⟨⟨"POST"⟩, about, 4⟩]

/-- The second insertion of the pattern is turned away, as one more of the text
would be. The text is found before the pattern, and without its last slash the
pattern takes it. -/
theorem insertions_scanned : (∀ insertion ∈ insertions, insertion.Read) ∧
    ((Router.empty.insertAll insertions).1.insert ⟨"GET"⟩ about 5).1 = false ∧
    (Router.empty.insertAll insertions).1.lookup ⟨"GET"⟩ "/about/" = some (2, none) ∧
    (Router.empty.insertAll insertions).1.lookup ⟨"GET"⟩ "/about" =
      some (1, some ⟨[⟨some "id", "about"⟩]⟩) ∧
    (Router.empty.insertAll insertions).1.size = 3 := by
  have read : ∀ insertion ∈ insertions, insertion.Read := by
    intro insertion mem
    simp only [insertions, List.mem_cons, List.not_mem_nil, or_false] at mem
    rcases mem with rfl | rfl | rfl | rfl <;> rfl
  have accepted : (Router.empty.insertAll insertions).2 =
      [⟨⟨"GET"⟩, byId, 1⟩, ⟨⟨"GET"⟩, about, 2⟩, ⟨⟨"POST"⟩, about, 4⟩] := rfl
  obtain ⟨inserts, scans, size⟩ := Router.refines_linear_scan read
  refine ⟨read, ?_, ?_, ?_, size⟩
  · refine (inserts ⟨⟨"GET"⟩, about, 5⟩ rfl).1.2 ⟨⟨⟨"GET"⟩, about, 2⟩, ?_, rfl, rfl⟩
    rw [accepted]
    exact List.mem_cons_of_mem _ List.mem_cons_self
  · refine (scans ⟨"GET"⟩ "/about/" _ (.refl _)).trans ?_
    rw [accepted]
    decide +kernel
  · refine (scans ⟨"GET"⟩ "/about" _ (.refl _)).trans ?_
    rw [accepted]
    decide +kernel

end Sample

end RouteTree
