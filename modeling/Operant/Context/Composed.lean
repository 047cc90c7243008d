import Operant.Context.Delivered

/-! What `compose` sends of its references, whatever it makes of the other messages. -/
namespace Operant.Context
open Operant.Python Operant.Security

/-! ### Resolved references -/

variable {lib : Libraries} {sources : Sources} {request : ReferenceRequest} {reference : Resolved}

theorem checkedReference_request {rendered : Refs} {sourceRefs : List ContextSourceRef} {first last : Option Nat}
    {compaction : Option Compaction} (h : lib.checkedReference request rendered sourceRefs first last compaction = .ok reference) :
    reference.request = request ∧ reference.cursorEnd = last := by
  unfold Libraries.checkedReference at h
  split at h
  · exact nomatch h
  · cases h
    exact ⟨rfl, rfl⟩

theorem of_liftError {α : Type} {x : Except ContextError α} {a : α} (h : liftError x = .ok a) : x = .ok a := by
  cases x with
  | error e => exact nomatch h
  | ok b =>
    cases h
    rfl

theorem resolveThreadInline_request {reader : ThreadReader}
    (h : lib.resolveThreadInline reader request = .ok reference) : reference.request = request := by
  unfold Libraries.resolveThreadInline at h
  obtain ⟨baseline, -, hread⟩ := Calls.ok_of_bind h
  obtain ⟨selection, -, hmade⟩ := Calls.ok_of_bind hread
  split at hmade
  · unfold Libraries.emptyThread at hmade
    split at hmade
    · exact (checkedReference_request hmade).1
    · exact (checkedReference_request hmade).1
  · split at hmade
    · unfold Libraries.compactedThread at hmade
      obtain ⟨compaction, -, hchecked⟩ := Calls.ok_of_bind hmade
      exact (checkedReference_request hchecked).1
    · unfold Libraries.fullThread at hmade
      dsimp only at hmade
      split at hmade
      · exact (checkedReference_request hmade).1
      · exact (checkedReference_request hmade).1

/-- What has been resolved of a thread. -/
theorem resolveThread_ok (h : lib.resolveThread sources request = .ok reference) :
    reference.request = request ∧ (request.includeMode = .inline →
      ∃ reader, sources.thread = some reader ∧ lib.resolveThreadInline reader request = .ok reference) := by
  unfold Libraries.resolveThread at h
  split at h
  · exact nomatch h
  · split at h
    · exact nomatch h
    · rename_i reader hreader
      split at h
      · exact nomatch h
      · split at h
        · have hinline := of_liftError h
          exact ⟨resolveThreadInline_request hinline, fun _ => ⟨reader, hreader, hinline⟩⟩
        · rename_i hmode
          refine ⟨(checkedReference_request (of_liftError h)).1, fun hinline => ?_⟩
          rw [hmode] at hinline
          exact nomatch hinline

theorem resolveItem_ok (h : lib.resolveItem sources request = .ok reference) :
    reference.request = request ∧ ∃ item threadId, sources.item request.targetId = some (item, threadId) ∧
      reference.cursorEnd = some item.cursor := by
  unfold Libraries.resolveItem at h
  split at h
  · exact nomatch h
  · rename_i item threadId hitem
    split at h
    · exact nomatch h
    · obtain ⟨hrequest, hcursor⟩ := checkedReference_request (of_liftError h)
      exact ⟨hrequest, item, threadId, hitem, hcursor⟩

theorem resolveArtifact_ok (h : lib.resolveArtifact sources request = .ok reference) : reference.request = request := by
  unfold Libraries.resolveArtifact at h
  split at h
  · exact nomatch h
  · split at h
    · exact nomatch h
    · split at h
      · exact nomatch h
      · obtain ⟨content, -, hchecked⟩ := Calls.ok_of_bind h
        exact (checkedReference_request (of_liftError hchecked)).1

theorem resolveMemory_ok (h : lib.resolveMemory sources request = .ok reference) : reference.request = request := by
  unfold Libraries.resolveMemory at h
  obtain ⟨memory, -, hmemory⟩ := Calls.ok_of_bind h
  split at hmemory
  · exact nomatch hmemory
  · exact (checkedReference_request (of_liftError hmemory)).1

/-- A reference keeps what was asked for. -/
theorem resolveReference_request (h : lib.resolveReference sources request = .ok reference) :
    reference.request = request := by
  unfold Libraries.resolveReference at h
  split at h
  · exact (resolveThread_ok h).1
  · exact (resolveItem_ok h).1
  · exact resolveArtifact_ok h
  · exact resolveMemory_ok h

/-! ### The message -/

variable {requests : List ReferenceRequest} {prepare : List Resolved → String → Except ComposeError Prepared}
variable {composed : Composed}

/-- The references, redacted. -/
def referenceText (lib : Libraries) (resolved : List Resolved) : List Char :=
  lib.redactSecrets (lib.referenceContent resolved).toList

def truncationMark : String := "...[truncated]"

/-- The text fits, or what is cut off is the mark that replaces it. -/
def Fitting (text : List Char) : Prop :=
  text.length ≤ Libraries.referenceMaxChars ∨ text.drop Libraries.referenceMaxChars = truncationMark.toList

/-- What a request that was composed has resolved and sends. -/
theorem compose_ok (h : lib.compose sources requests prepare = .ok composed) :
    lib.resolveReferences sources requests = .ok composed.references ∧
      composed.bindings = (composed.references.zipIdx 1).map (fun entry => lib.binding entry.1 entry.2) ∧
      ∃ prepared : Prepared, composed.messages = Libraries.withReferenceMessage prepared
        (lib.redactPublicText Libraries.referenceMaxChars (lib.referenceContent composed.references)) := by
  unfold Libraries.compose at h
  obtain ⟨-, -, hchecked⟩ := Calls.ok_of_bind h
  obtain ⟨resolved, hresolved, hone⟩ := Calls.ok_of_bind hchecked
  dsimp only at hone
  split at hone
  · exact nomatch hone
  · obtain ⟨prepared, -, hprepared⟩ := Calls.ok_of_bind hone
    split at hprepared
    · exact nomatch hprepared
    · have heq := Except.ok.inj hprepared
      subst heq
      dsimp only
      exact ⟨hresolved, rfl, prepared, rfl⟩

/-- Every reference has its binding. -/
theorem compose_bindings (h : lib.compose sources requests prepare = .ok composed) :
    composed.bindings.map (·.resolvedTarget) = composed.references.map (·.request.targetId) := by
  obtain ⟨-, hbindings, -⟩ := compose_ok h
  have hall (references : List Resolved) (start : Nat) : ((references.zipIdx start).map fun entry =>
      lib.binding entry.1 entry.2).map (·.resolvedTarget) = references.map (·.request.targetId) := by
    induction references generalizing start with
    | nil => rfl
    | cons reference rest ih =>
      rw [List.zipIdx_cons, List.map_cons, List.map_cons, List.map_cons, ih]
      rfl
  rw [hbindings]
  exact hall composed.references 1

theorem take_append_eq {text mark : List Char} {n : Nat} :
    text.take n ++ mark = text ↔ text.drop n = mark := by
  constructor
  · intro h
    have hsplit := List.take_append_drop n text
    exact List.append_cancel_left (hsplit.trans h.symm)
  · intro h
    rw [← h, List.take_append_drop]

theorem redactPublicText_whole {value : String} :
    lib.redactPublicText Libraries.referenceMaxChars value = .ofList (lib.redactSecrets value.toList) ↔
      Fitting (lib.redactSecrets value.toList) := by
  unfold Interpreter.redactPublicText
  generalize lib.redactSecrets value.toList = text
  generalize hmax : Libraries.referenceMaxChars = n
  unfold Fitting truncationMark
  rw [hmax]
  by_cases hshort : text.length ≤ n
  · simp [hshort]
  · simp only [hshort, if_false, String.ofList_inj, take_append_eq, false_or]

/-- The message holds the whole text iff it fits. -/
theorem whole_iff (prepared : Prepared) (resolved : List Resolved) :
    (referenceText lib resolved ≠ [] →
      (Libraries.withReferenceMessage prepared (lib.redactPublicText Libraries.referenceMaxChars
        (lib.referenceContent resolved)))[1]?.bind (·.content) =
          some (Libraries.referenceHeader ++ .ofList (referenceText lib resolved))) ↔
      Fitting (referenceText lib resolved) := by
  have hwhole := @redactPublicText_whole lib (lib.referenceContent resolved)
  change _ = String.ofList (referenceText lib resolved) ↔ Fitting (referenceText lib resolved) at hwhole
  by_cases htext : referenceText lib resolved = []
  · have hfits : Fitting (referenceText lib resolved) := by
      rw [htext]
      exact .inl (Nat.zero_le _)
    exact ⟨fun _ => hfits, fun _ h => absurd htext h⟩
  · have hne : lib.redactPublicText Libraries.referenceMaxChars (lib.referenceContent resolved) ≠ "" := by
      unfold referenceText at htext
      unfold Interpreter.redactPublicText
      generalize Libraries.referenceMaxChars = n
      dsimp only
      split
      · exact fun hempty => htext (String.ofList_eq_empty_iff.mp hempty)
      · intro hempty
        have hnil := String.ofList_eq_empty_iff.mp hempty
        exact absurd (List.append_eq_nil_iff.mp hnil).2 (by decide)
    unfold Libraries.withReferenceMessage
    rw [if_neg hne, ← hwhole]
    show (_ → some (Libraries.referenceHeader ++ _) = some (Libraries.referenceHeader ++ _)) ↔ _
    constructor
    · intro h
      have heq := congrArg String.toList (Option.some.inj (h htext))
      rw [String.toList_append, String.toList_append] at heq
      exact String.toList_injective (List.append_cancel_left heq)
    · intro h _
      rw [h]

/-! ### What is delivered -/

/-- The references are sent whole, the items of the thread once, and nothing beyond its end. -/
structure Delivered (lib : Libraries) (items : List Item) (sources : Sources) (composed : Composed) : Prop where
  whole : referenceText lib composed.references ≠ [] → composed.messages[1]?.bind (·.content) =
    some (Libraries.referenceHeader ++ .ofList (referenceText lib composed.references))
  thread : ∀ reader, sources.thread = some reader → ∀ reference ∈ composed.references,
    reference.request.refType = .thread → reference.request.includeMode = .inline →
      DeliversItems lib items reader reference
  item : ∀ reader last, sources.thread = some reader → reader.threadItemCursorEnd = some last →
    ∀ reference ∈ composed.references, reference.request.refType = .item →
      ∀ cursor, reference.cursorEnd = some cursor → cursor ≤ last

/-- The references fit the message, and neither the thread's baseline nor an item that is asked for is
beyond the end. -/
structure Fits (lib : Libraries) (sources : Sources) (requests : List ReferenceRequest) : Prop where
  whole : ∀ resolved, lib.resolveReferences sources requests = .ok resolved → Fitting (referenceText lib resolved)
  thread : ∀ reader, sources.thread = some reader → ∀ request ∈ Libraries.withThread sources requests,
    request.refType = .thread → request.includeMode = .inline → reader.BaselineWithin
  item : ∀ reader last, sources.thread = some reader → reader.threadItemCursorEnd = some last →
    ∀ request ∈ Libraries.withThread sources requests, request.refType = .item →
      ∀ item threadId, sources.item request.targetId = some (item, threadId) → item.cursor ≤ last

theorem resolved_thread (h : lib.resolveReference sources request = .ok reference) (htype : request.refType = .thread)
    (hmode : request.includeMode = .inline) {reader : ThreadReader} (hreader : sources.thread = some reader) :
    lib.resolveThreadInline reader request = .ok reference := by
  unfold Libraries.resolveReference at h
  rw [htype] at h
  obtain ⟨reader', hreader', hinline⟩ := (resolveThread_ok h).2 hmode
  rw [hreader] at hreader'
  cases hreader'
  exact hinline

theorem resolved_item (h : lib.resolveReference sources request = .ok reference) (htype : request.refType = .item) :
    ∃ item threadId, sources.item request.targetId = some (item, threadId) ∧
      reference.cursorEnd = some item.cursor := by
  unfold Libraries.resolveReference at h
  rw [htype] at h
  exact (resolveItem_ok h).2

/-- For every thread, every request and every window: what is composed is delivered iff the references fit. -/
theorem references_delivered_iff (lib : Libraries) (sessionId threadId : String) (events : List ThreadEvent)
    {sources : Sources} (hthread : ∀ reader, sources.thread = some reader → ∃ view,
      reader = (Thread.run lib { sessionId := sessionId, threadId := threadId } events).readBy view)
    {requests : List ReferenceRequest} {prepare : List Resolved → String → Except ComposeError Prepared}
    {composed : Composed} (h : lib.compose sources requests prepare = .ok composed) :
    Delivered lib (Thread.run lib { sessionId := sessionId, threadId := threadId } events).items sources composed ↔
      Fits lib sources requests := by
  have good := (Thread.good_empty lib sessionId threadId).run events
  obtain ⟨hresolved, -, prepared, hmessages⟩ := compose_ok h
  have hwhole := @whole_iff lib prepared composed.references
  rw [← hmessages] at hwhole
  constructor
  · intro hdelivered
    refine ⟨fun resolved hsame => ?_, fun reader hreader request hrequest htype hmode => ?_,
      fun reader last hreader hlast request hrequest htype item owner hitem => ?_⟩
    · rw [hresolved] at hsame
      cases hsame
      exact hwhole.mp hdelivered.whole
    · obtain ⟨reference, hreference, hmade⟩ := Calls.mapM_ok_mem hresolved hrequest
      have hasked := resolveReference_request hmade
      have hitems := hdelivered.thread reader hreader reference hreference (hasked ▸ htype) (hasked ▸ hmode)
      obtain ⟨view, hview⟩ := hthread reader hreader
      have hinline := resolved_thread hmade htype hmode hreader
      rw [hview] at hinline hitems ⊢
      exact (good.delivers_iff hinline).mp hitems
    · obtain ⟨reference, hreference, hmade⟩ := Calls.mapM_ok_mem hresolved hrequest
      have hasked := resolveReference_request hmade
      obtain ⟨found, thread, hfound, hcursor⟩ := resolved_item hmade htype
      rw [hitem] at hfound
      cases hfound
      exact hdelivered.item reader last hreader hlast reference hreference (hasked ▸ htype) item.cursor hcursor
  · intro hfits
    refine ⟨hwhole.mpr (hfits.whole _ hresolved), fun reader hreader reference hreference htype hmode => ?_,
      fun reader last hreader hlast reference hreference htype cursor hcursor => ?_⟩
    · obtain ⟨request, hrequest, hmade⟩ := Calls.mapM_ok_of_mem hresolved hreference
      have hasked := resolveReference_request hmade
      rw [hasked] at htype hmode
      have hwithin := hfits.thread reader hreader request hrequest htype hmode
      obtain ⟨view, hview⟩ := hthread reader hreader
      have hinline := resolved_thread hmade htype hmode hreader
      rw [hview] at hinline hwithin ⊢
      exact (good.delivers_iff hinline).mpr hwithin
    · obtain ⟨request, hrequest, hmade⟩ := Calls.mapM_ok_of_mem hresolved hreference
      rw [resolveReference_request hmade] at htype
      obtain ⟨item, thread, hitem, hmine⟩ := resolved_item hmade htype
      rw [hcursor] at hmine
      cases hmine
      exact hfits.item reader last hreader hlast request hrequest htype item thread hitem

/-! A thread of one event that is read, and a thread of two that is compacted behind what may be read. -/

def noteBody : Value := .dict [("id", .str "item_1"), ("cursor", .null), ("thread_id", .str "thread_1"),
  ("turn_id", .str "turn_1"), ("position", .int 1),
  ("payload", .dict [("type", .str "system_event"), ("event_type", .str "note"), ("summary", .str "started"),
    ("source_ref", .null)]), ("created_at", .str "2025-01-01T00:00:00Z")]

def note : Item where
  id := "item_1"
  turnId := "turn_1"
  cursor := 0
  itemType := .systemEvent
  payload := [("type", .str "system_event"), ("event_type", .str "note"), ("summary", .str "started"),
    ("source_ref", .null)]
  body := .ofList ((asciiTables.dumps noteBody).getD [])

def noteView : ThreadReader where
  workspace := "/w"
  sessionId := "session_1"
  agentId := "agent_1"
  threadId := "thread_1"
  threadCursor := some 1
  threadStatus := "active"
  workspaceRef := some "/w"
  threadBodyHash := "e3b0c44298fc1c149afbf4c8996fb92427ae41e4649b934ca495991b7852b855"
  items := []
  baseline := none
  threadItemCursorEnd := some 1
  countProviderTokens := false
  referenceTokenBudget := 50000

def noteRendered : Value := .dict [("id", .str "thread_1"),
  ("items", .list [.dict [("cursor", .int 1), ("id", .str "item_1"), ("item_type", .str "system_event"),
    ("payload", .dict [("event_type", .str "note"), ("source_ref", .null), ("summary", .str "started"),
      ("type", .str "system_event")]), ("turn_id", .str "turn_1"), ("type", .str "item")]]),
  ("status", .str "active"), ("type", .str "thread"), ("workspace_ref", .str "/w")]

def noteLibraries : Libraries := asciiLibraries
  [(noteBody, "febe0baec676bdc83b265ea31a3855b057be4a41ac5106db4ffb0d6db458db57"),
    (noteRendered, "359f1ef79da611c864718c899fa0d0fd5793db98b809915bf5a57f2affbc3ced")]

def noteThread (events : List ThreadEvent) : Thread :=
  Thread.run noteLibraries { sessionId := "session_1", threadId := "thread_1" } events

def noteSources (events : List ThreadEvent) : Sources where
  threadId := some "thread_1"
  thread := some ((noteThread events).readBy noteView)
  resolvePath path := path
  item _ := none
  artifact _ := none
  artifactText _ := none
  memory _ := throw .notFound

def onlyInstructions (_ : List Resolved) (_ : String) : Except ComposeError Prepared :=
  .ok { instructions := { role := .system, content := some "s" }, messages := [] }

theorem exists_ok {ε α : Type} {x : Except ε α} (h : x.toOption.isSome = true) : ∃ a, x = .ok a := by
  cases x with
  | error e => exact nomatch h
  | ok a => exact ⟨a, rfl⟩

/-- The thread of one event is composed, and delivered as the theorem says. -/
theorem note_delivered : ∃ composed, noteLibraries.compose (noteSources [.append note 0]) [] onlyInstructions =
      .ok composed ∧
    (Delivered noteLibraries (noteThread [.append note 0]).items (noteSources [.append note 0]) composed ↔
      Fits noteLibraries (noteSources [.append note 0]) []) := by
  have hsome : (noteLibraries.compose (noteSources [.append note 0]) [] onlyInstructions).toOption.isSome = true := by
    decide +kernel
  obtain ⟨composed, h⟩ := exists_ok hsome
  refine ⟨composed, h, references_delivered_iff noteLibraries "session_1" "thread_1" [.append note 0] ?_ h⟩
  exact fun reader hreader => ⟨noteView, (Option.some.inj hreader).symm⟩

def compactedEvents : List ThreadEvent := [.append note 0, .append note 0, .compact "agent_1"]

/-- The run may see one item; the compaction that it is sent covers two. -/
theorem compacted_beyond_end : ∃ composed,
    noteLibraries.compose (noteSources compactedEvents) [] onlyInstructions = .ok composed ∧
      ¬Delivered noteLibraries (noteThread compactedEvents).items (noteSources compactedEvents) composed := by
  have hsome : (noteLibraries.compose (noteSources compactedEvents) [] onlyInstructions).toOption.isSome = true := by
    decide +kernel
  have hbaseline : ((noteThread compactedEvents).baselines.getLast?.map fun baseline =>
      (baseline.operation, baseline.itemCursorEnd)) = some (.compact, 2) := by
    decide +kernel
  have good : (noteThread compactedEvents).Good noteLibraries :=
    (Thread.good_empty noteLibraries "session_1" "thread_1").run compactedEvents
  obtain ⟨composed, h⟩ := exists_ok hsome
  refine ⟨composed, h, fun hdelivered => ?_⟩
  obtain ⟨hresolved, -, -⟩ := compose_ok h
  obtain ⟨reference, hreference, hmade⟩ := Calls.mapM_ok_mem hresolved List.mem_cons_self
  have hasked := resolveReference_request hmade
  have hinline : noteLibraries.resolveThreadInline ((noteThread compactedEvents).readBy noteView) _ = .ok reference :=
    resolved_thread hmade rfl rfl rfl
  have hitems : DeliversItems noteLibraries (noteThread compactedEvents).items
      ((noteThread compactedEvents).readBy noteView) reference :=
    hdelivered.thread _ rfl reference hreference (by rw [hasked]) (by rw [hasked])
  have hwithin := (good.delivers_iff hinline).mp hitems
  obtain ⟨baseline, hlast, hend⟩ := Option.map_eq_some_iff.mp hbaseline
  obtain ⟨hop, hcursor⟩ := Prod.mk.inj hend
  have hle : baseline.itemCursorEnd ≤ 1 := hwithin baseline 1 ((Thread.readBy_baseline _ _).trans hlast) hop rfl
  omega

end Operant.Context
