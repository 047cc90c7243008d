import Operant.Team.Mailbox

/-! Who reads a team's messages.

An agent asks for its context page by page, and a viewer for what it may see, each with the cursor it was given last;
between two pages anything can be written. -/
namespace Operant.Team
open Operant.Tables

variable {Content Digest : Type}

/-! ### Readers of a run -/

/-- The store, and what an agent and a viewer have read of it. -/
structure Watch (Content Digest : Type) where
  store : Store Content Digest := {}
  context : Reader (MessageEnvelope Content) := {}
  screen : Reader (MessageEnvelope Content) := {}

inductive Step (Content : Type) where
  | act (op : Op Content)
  /-- `project_context`, from where the agent has got to. -/
  | read (limit : Nat)
  /-- `list_messages_for_viewer`, from where the viewer has got to. -/
  | view (limit : Nat)

section
variable [DecidableEq Digest] (hashes : Hashes Content Digest) (teamRunId agentId : String)

def Watch.step (watch : Watch Content Digest) : Step Content → Watch Content Digest
  | .act op => { watch with store := watch.store.step hashes op }
  | .read limit => match projectContext watch.store teamRunId agentId watch.context.cursor limit with
    | .ok page => { watch with context := ⟨page.cursor, watch.context.received ++ page.messages⟩ }
    | .error _ => watch
  | .view limit => match watch.store.listMessagesForViewer teamRunId agentId watch.screen.cursor limit with
    | .ok page => { watch with screen := watch.screen.read page some }
    | .error _ => watch

def Watch.run (watch : Watch Content Digest) (steps : List (Step Content)) : Watch Content Digest :=
  steps.foldl (fun watch step => watch.step hashes teamRunId agentId step) watch

end

/-! ### What should be read -/

/-- The messages for an agent that may take part in its next turn. -/
def Store.contextFor (store : Store Content Digest) (teamRunId agentId : String) : List (MessageEnvelope Content) :=
  (store.messagesTo teamRunId agentId).filter MessageEnvelope.forModel

/-- The messages a viewer may see. -/
def Store.screenFor (store : Store Content Digest) (teamRunId viewerId : String) : List (MessageEnvelope Content) :=
  (store.messages.map MessageRow.message).filter fun message =>
    message.teamRunId = teamRunId && message.visibleTo viewerId

/-- What is shown to the model of an agent's inbox. -/
def forContext (agentId : String) (message : MessageEnvelope Content) : Option (MessageEnvelope Content) :=
  if message.isRecipient agentId && message.forModel then some message else none

variable {store after : Store Content Digest} {hash : MessageEnvelope Content → Digest} {teamRunId agentId : String}

theorem filterMap_forContext {messages : List (MessageEnvelope Content)}
    (h : ∀ message ∈ messages, message.isRecipient agentId = true) :
    messages.filterMap (forContext agentId) = messages.filter MessageEnvelope.forModel := by
  induction messages with
  | nil => rfl
  | cons message rest ih =>
    have hto := h message List.mem_cons_self
    have hrest := ih fun other hother => h other (List.mem_cons_of_mem _ hother)
    rw [List.filterMap_cons, hrest, List.filter_cons, forContext, hto, Bool.true_and]
    cases message.forModel <;> rfl

theorem inbox_context (h : store.Sound hash) :
    ((store.inbox teamRunId agentId).map Prod.snd).filterMap (forContext agentId) =
      store.contextFor teamRunId agentId := by
  rw [inbox_messages h]
  refine filterMap_forContext fun message hmessage => ?_
  have hto := (List.mem_filter.mp hmessage).2
  rw [Bool.and_eq_true] at hto
  exact hto.2

theorem view_screen : (store.view teamRunId agentId).map Prod.snd = store.screenFor teamRunId agentId := by
  unfold Store.view Store.screenFor
  induction store.messages with
  | nil => rfl
  | cons row rest ih =>
    rw [List.map_cons, List.map_cons, List.filter_cons, List.filter_cons, ← ih]
    dsimp only
    split <;> rfl

/-- A page of a context is a page of the inbox. -/
theorem projectContext_page (h : store.Sound hash) {reader : Reader (MessageEnvelope Content)} {limit : Nat}
    {page : AgentContextProjection Content}
    (hpage : projectContext store teamRunId agentId reader.cursor limit = .ok page) :
    0 < limit ∧ (⟨page.cursor, reader.received ++ page.messages⟩ : Reader (MessageEnvelope Content)) =
      reader.read ((later (store.inbox teamRunId agentId) reader.cursor).take limit) (forContext agentId) := by
  unfold projectContext at hpage
  cases hrows : store.listInbox teamRunId agentId reader.cursor limit with
  | error =>
    rw [hrows] at hpage
    cases hpage
  | ok rows =>
    rw [hrows] at hpage
    cases hpage
    obtain ⟨hlimit, heq⟩ := listInbox_page h hrows
    have hto : ∀ row ∈ rows, row.1.recipientId = agentId := by
      intro row hrow
      unfold Store.listInbox at hrows
      split at hrows
      · cases hrows
      · cases hrows
        have hmatch := (of_mem_page hrow).2
        simp only [Bool.and_eq_true, decide_eq_true_eq] at hmatch
        exact hmatch.1.2
    have hmessages : rows.filterMap (contextMessage agentId) =
        ((rows.map fun row => (row.1.sequence, row.2)).map Prod.snd).filterMap (forContext agentId) := by
      rw [List.map_map, List.filterMap_map]
      refine List.filterMap_congr fun row hrow => ?_
      rw [contextMessage, hto row hrow]
      simp [forContext]
    refine ⟨hlimit, ?_⟩
    rw [Reader.read, pageEnd, ← heq, ← hmessages, List.map_map]
    rfl

/-- The deliveries of a message are its recipients. -/
theorem deliveries_of (h : store.Sound hash) {row : MessageRow Content Digest} (hrow : row ∈ store.messages) :
    (store.deliveries.filter fun delivery => delivery.messageId = row.message.messageId).map DeliveryRow.recipientId =
      row.message.recipientIds := by
  have hother (other : MessageRow Content Digest) (hmem : other ∈ store.messages) :
      other.addresses.filter (fun address => address.2.1 = row.message.messageId) =
        if other.message.messageId = row.message.messageId then other.addresses else [] := by
    unfold MessageRow.addresses
    rw [List.filter_map]
    split
    · rename_i heq
      simp [Function.comp_def, heq]
    · rename_i hne
      simp [Function.comp_def, hne]
  have honce : store.messages.flatMap (fun other =>
      if other.message.messageId = row.message.messageId then other.addresses else []) = row.addresses := by
    have hids := h.messageIds
    revert hrow hids
    clear hother h
    induction store.messages with
    | nil => exact fun hrow => by cases hrow
    | cons first rest ih =>
      intro hrow hids
      obtain ⟨hfirst, hrest⟩ := List.nodup_cons.mp hids
      rw [List.flatMap_cons]
      rcases List.mem_cons.mp hrow with rfl | hmem
      · rw [if_pos rfl, List.flatMap_eq_nil_iff.mpr fun other hmem => if_neg fun heq =>
          hfirst (List.mem_map.mpr ⟨other, hmem, heq⟩), List.append_nil]
      · have hne : first.message.messageId ≠ row.message.messageId :=
          fun heq => hfirst (List.mem_map.mpr ⟨row, hmem, heq.symm⟩)
        rw [if_neg hne, List.nil_append]
        exact ih hmem hrest
  calc (store.deliveries.filter fun delivery => delivery.messageId = row.message.messageId).map DeliveryRow.recipientId
      = ((store.deliveries.map DeliveryRow.address).filter fun address =>
          address.2.1 = row.message.messageId).map fun address => address.2.2 := by
        rw [List.filter_map, List.map_map]
        rfl
    _ = row.addresses.map fun address => address.2.2 := by
        rw [h.addressed, List.filter_flatMap, List.flatMap_congr hother, honce]
    _ = row.message.recipientIds := by
        rw [MessageRow.addresses, List.map_map]
        exact List.map_id _

/-- A command that comes again finds its message, with one delivery for each recipient. -/
theorem projectMessage_again [DecidableEq Digest] (h : store.Sound hash) {row : MessageRow Content Digest}
    (hrow : row ∈ store.messages) (deliveryId : String → String) :
    ∃ deliveries, store.projectMessage hash row.message row.commandKey deliveryId =
      .ok (store, ⟨row.message, deliveries, false⟩) ∧
        deliveries.map DeliveryRow.recipientId = row.message.recipientIds := by
  refine ⟨store.deliveries.filter fun delivery => delivery.messageId = row.message.messageId, ?_, deliveries_of h hrow⟩
  unfold Store.projectMessage
  rw [find?_of_key h.commandKeys hrow]
  dsimp only
  rw [if_neg (not_not.mpr (h.hashed row hrow))]

/-! ### Every run -/

/-- What holds in every run. -/
structure Watch.Sound (hash : MessageEnvelope Content → Digest) (teamRunId agentId : String)
    (watch : Watch Content Digest) : Prop where
  store : watch.store.Sound hash
  context : watch.context.Level (watch.store.inbox teamRunId agentId) (forContext agentId) watch.store.nextDelivery
  screen : watch.screen.Level (watch.store.view teamRunId agentId) some watch.store.nextMessage

theorem watch_new : (({} : Watch Content Digest)).Sound hash teamRunId agentId where
  store := sound_new
  context := level_new Nat.one_pos fun _ hrow => by cases hrow
  screen := level_new Nat.one_pos fun _ hrow => by cases hrow

variable [DecidableEq Digest] {hashes : Hashes Content Digest} {watch : Watch Content Digest}

theorem watch_step (h : watch.Sound hashes.message teamRunId agentId) (step : Step Content) :
    (watch.step hashes teamRunId agentId step).Sound hashes.message teamRunId agentId := by
  cases step with
  | act op =>
    have hmail : MailStep hashes.message watch.store (watch.store.step hashes op) := step_mail hashes op
    obtain ⟨delivered, hinbox, hkeys, hnext⟩ := inbox_step h.store hmail teamRunId agentId
    obtain ⟨shown, hview, hshown, hlater⟩ := view_step hmail teamRunId agentId
    refine ⟨sound_step h.store hmail, ?_, ?_⟩
    · unfold Watch.step
      rw [hinbox]
      exact level_put h.context hkeys hnext
    · unfold Watch.step
      rw [hview]
      exact level_put h.screen hshown hlater
  | read limit =>
    unfold Watch.step
    dsimp only
    split
    · rename_i page hpage
      refine ⟨h.store, ?_, h.screen⟩
      dsimp only
      rw [(projectContext_page h.store hpage).2]
      exact level_read h.context (inbox_growing h.store _ _) (fun row hrow => (inbox_keys h.store hrow).2) limit
    · exact h
  | view limit =>
    unfold Watch.step
    dsimp only
    split
    · rename_i page hpage
      refine ⟨h.store, h.context, ?_⟩
      dsimp only
      rw [(listMessagesForViewer_page h.store hpage).2]
      exact level_read h.screen (view_growing h.store _ _) (fun row hrow => (view_keys h.store hrow).2) limit
    · exact h

theorem watch_run (h : watch.Sound hashes.message teamRunId agentId) (steps : List (Step Content)) :
    (watch.run hashes teamRunId agentId steps).Sound hashes.message teamRunId agentId := by
  induction steps generalizing watch with
  | nil => exact h
  | cons step rest ih => exact ih (watch_step h step)

/-- In every run, with any pages and whatever is written between them, an agent has received a front of the messages
for it and a viewer a front of what it may see: each message once and in the order sent. When a page brings nothing
new, they have all of them. A command key has one message, with one delivery for each recipient whenever it is asked
for again. -/
theorem mailboxes_deliver (hashes : Hashes Content Digest) (teamRunId agentId : String) (steps : List (Step Content)) :
    let watch := ({} : Watch Content Digest).run hashes teamRunId agentId steps
    watch.context.received <+: watch.store.contextFor teamRunId agentId ∧
    watch.screen.received <+: watch.store.screenFor teamRunId agentId ∧
    (∀ limit page, projectContext watch.store teamRunId agentId watch.context.cursor limit = .ok page →
      page.cursor = watch.context.cursor → watch.context.received = watch.store.contextFor teamRunId agentId) ∧
    (∀ limit, watch.store.listMessagesForViewer teamRunId agentId watch.screen.cursor limit = .ok [] →
      watch.screen.received = watch.store.screenFor teamRunId agentId) ∧
    (watch.store.messages.map fun row => row.message.messageId).Nodup ∧
    (watch.store.messages.map MessageRow.commandKey).Nodup ∧
    ∀ row ∈ watch.store.messages, ∀ deliveryId, ∃ deliveries,
      watch.store.projectMessage hashes.message row.message row.commandKey deliveryId =
        .ok (watch.store, ⟨row.message, deliveries, false⟩) ∧
      deliveries.map DeliveryRow.recipientId = row.message.recipientIds := by
  intro watch
  have h : watch.Sound hashes.message teamRunId agentId := watch_run watch_new steps
  have hgrowing := inbox_growing h.store teamRunId agentId
  have hshown := view_growing h.store teamRunId agentId
  refine ⟨?_, ?_, ?_, ?_, h.store.messageIds, h.store.commandKeys, fun row hrow deliveryId =>
    projectMessage_again h.store hrow deliveryId⟩
  · rw [← inbox_context h.store]
    exact level_prefix h.context hgrowing
  · rw [← view_screen, ← List.filterMap_some (l := (watch.store.view teamRunId agentId).map Prod.snd)]
    exact level_prefix h.screen hshown
  · intro limit page hpage hend
    obtain ⟨hlimit, heq⟩ := projectContext_page h.store hpage
    rw [← inbox_context h.store]
    exact level_all h.context hgrowing hlimit ((congrArg Reader.cursor heq).symm.trans hend)
  · intro limit hpage
    obtain ⟨hlimit, hempty⟩ := listMessagesForViewer_page h.store hpage
    rw [← view_screen, ← List.filterMap_some (l := (watch.store.view teamRunId agentId).map Prod.snd)]
    refine level_all h.screen hshown hlimit ?_
    rw [← hempty]
    rfl

/-! ### A message that is read -/

/-- Hashes that tell messages and items by their names. -/
def plainHashes : Hashes Unit String where
  message message := message.messageId
  task write := write.item.taskId
  artifact write := write.item.artifactId

def office : Others where
  agents := [⟨"lead", "first", .created⟩, ⟨"helper", "second", .created⟩]
  threads := ["thread"]
  workflowRuns := ["flow"]
  teamDefinitions := [("team", 1)]
  artifacts := ["report"]

def teamRun : TeamRun where
  teamRunId := "run"
  teamId := "team"
  teamVersion := 1
  workflowRunId := "flow"
  createdAt := 0
  updatedAt := 0

theorem active_stays (h : RosterMemberStatus.active.isTerminal = true) : (none : Option Memory.Instant).isSome = true := by
  cases h

theorem never_left (h : (none : Option Memory.Instant).isSome = true) : (none : Option Memory.Instant).isSome = true := h

def helper : RosterEntry where
  teamRunId := "run"
  memberId := "second"
  agentInstanceId := "helper"
  threadId := "thread"
  status := .active
  terminal_left := active_stays
  left_joined := never_left

theorem helper_named : ∀ recipient ∈ ["helper"], Memory.isBlank recipient = false := by decide

theorem next_turn (h : ModelDelivery.nextTurn = .none) : ContextEffect.appendUntrusted = .none := by cases h

def question : MessageEnvelope Unit where
  messageId := "question"
  workflowRunId := "flow"
  teamRunId := "run"
  senderId := "lead"
  recipientIds := ["helper"]
  content := ()
  recipients_some := List.cons_ne_nil _ _
  recipients_named := helper_named
  recipients_unique := List.nodup_singleton _
  outside_context := next_turn

/-- The lead asks, the helper reads, and asks for more. -/
def asked : List (Step Unit) :=
  [.act (.others office), .act (.putTeamRun teamRun), .act (.putRosterEntry helper 0),
    .act (.sendMessage question "key" id), .read 10]

theorem mailboxes_deliver_asked :
    let watch := ({} : Watch Unit String).run plainHashes "run" "helper" asked
    watch.context.received = watch.store.contextFor "run" "helper" ∧ watch.context.received = [question] :=
  ⟨(mailboxes_deliver plainHashes "run" "helper" asked).2.2.1 10 ⟨[], 1⟩ rfl rfl, rfl⟩

end Operant.Team
