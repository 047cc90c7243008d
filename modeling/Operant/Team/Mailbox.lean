import Operant.Tables.Feed
import Operant.Team.Steps

/-! Mailboxes deliver.

The rows of `mailbox_deliveries` are the recipients of the messages, one by one and in the order sent. So the inbox of
an agent and what a viewer may see are feeds, and one who reads them page by page gets each message once and in order,
whatever is sent between two pages. -/
namespace Operant.Team
open Operant.Tables

variable {Content Digest : Type} {store after : Store Content Digest} {hash : MessageEnvelope Content → Digest}

/-! ### Messages and their deliveries -/

/-- Whom a message goes to. -/
def MessageRow.addresses (row : MessageRow Content Digest) : List (String × String × String) :=
  row.message.recipientIds.map fun recipient => (row.message.teamRunId, row.message.messageId, recipient)

/-- The mailboxes hold one delivery for each recipient of each message, and nothing else. -/
structure Store.Sound (hash : MessageEnvelope Content → Digest) (store : Store Content Digest) : Prop where
  hashed : ∀ row ∈ store.messages, row.commandHash = hash row.message
  messageIds : (store.messages.map fun row => row.message.messageId).Nodup
  commandKeys : (store.messages.map MessageRow.commandKey).Nodup
  messages : store.messages.Pairwise fun first second => first.sequence < second.sequence
  nextMessage : 0 < store.nextMessage ∧ ∀ row ∈ store.messages, 0 < row.sequence ∧ row.sequence < store.nextMessage
  addressed : store.deliveries.map DeliveryRow.address = store.messages.flatMap MessageRow.addresses
  deliveries : store.deliveries.Pairwise fun first second => first.sequence < second.sequence
  nextDelivery : 0 < store.nextDelivery ∧
    ∀ row ∈ store.deliveries, 0 < row.sequence ∧ row.sequence < store.nextDelivery

theorem sound_new : (({} : Store Content Digest)).Sound hash where
  hashed _ hrow := by cases hrow
  messageIds := List.nodup_nil
  commandKeys := List.nodup_nil
  messages := List.Pairwise.nil
  nextMessage := ⟨Nat.one_pos, fun _ hrow => by cases hrow⟩
  addressed := rfl
  deliveries := List.Pairwise.nil
  nextDelivery := ⟨Nat.one_pos, fun _ hrow => by cases hrow⟩

theorem newDeliveries_address (message : MessageEnvelope Content) (deliveryId : String → String) :
    (store.newDeliveries message deliveryId).map DeliveryRow.address =
      message.recipientIds.map fun recipient => (message.teamRunId, message.messageId, recipient) := by
  rw [Store.newDeliveries, List.map_map]
  calc (message.recipientIds.zipIdx store.nextDelivery).map
        (DeliveryRow.address ∘ fun recipient => ⟨recipient.2, deliveryId recipient.1, message.messageId,
          message.teamRunId, recipient.1, none⟩)
      = ((message.recipientIds.zipIdx store.nextDelivery).map Prod.fst).map
          fun recipient => (message.teamRunId, message.messageId, recipient) := by
        rw [List.map_map]
        rfl
    _ = _ := by rw [List.zipIdx_map_fst]

/-- The deliveries of a message come behind those there are, in order. -/
theorem newDeliveries_sequence (message : MessageEnvelope Content) (deliveryId : String → String) :
    (store.newDeliveries message deliveryId).map DeliveryRow.sequence =
      List.range' store.nextDelivery message.recipientIds.length := by
  rw [Store.newDeliveries, List.map_map]
  exact List.zipIdx_map_snd _ _

theorem newDeliveries_bounds {message : MessageEnvelope Content} {deliveryId : String → String} {row : DeliveryRow}
    (h : row ∈ store.newDeliveries message deliveryId) :
    store.nextDelivery ≤ row.sequence ∧ row.sequence < store.nextDelivery + message.recipientIds.length := by
  have hmem : row.sequence ∈ List.range' store.nextDelivery message.recipientIds.length :=
    newDeliveries_sequence message deliveryId ▸ List.mem_map_of_mem h
  exact List.mem_range'_1.mp hmem

theorem newDeliveries_pairwise (message : MessageEnvelope Content) (deliveryId : String → String) :
    (store.newDeliveries message deliveryId).Pairwise fun first second => first.sequence < second.sequence := by
  rw [← List.pairwise_map (f := DeliveryRow.sequence), newDeliveries_sequence]
  exact List.pairwise_lt_range'

/-- Each step keeps it. -/
theorem sound_step (h : store.Sound hash) (hstep : MailStep hash store after) : after.Sound hash := by
  cases hstep with
  | same same =>
    obtain ⟨hmessages, hnextMessage, hdeliveries, hnextDelivery⟩ := same
    constructor <;> simp only [hmessages, hnextMessage, hdeliveries, hnextDelivery]
    exacts [h.hashed, h.messageIds, h.commandKeys, h.messages, h.nextMessage, h.addressed, h.deliveries, h.nextDelivery]
  | acked ack hmessages hnextMessage hdeliveries hnextDelivery =>
    have haddresses : after.deliveries.map DeliveryRow.address = store.deliveries.map DeliveryRow.address := by
      rw [hdeliveries]
      exact map_update _ fun _ _ _ => rfl
    have hsequences : after.deliveries.map DeliveryRow.sequence = store.deliveries.map DeliveryRow.sequence := by
      rw [hdeliveries]
      exact map_update _ fun _ _ _ => rfl
    refine ⟨hmessages ▸ h.hashed, hmessages ▸ h.messageIds, hmessages ▸ h.commandKeys, hmessages ▸ h.messages, ?_, ?_, ?_, ?_⟩
    · rw [hnextMessage, hmessages]
      exact h.nextMessage
    · rw [hmessages]
      exact haddresses.trans h.addressed
    · rw [← List.pairwise_map (f := DeliveryRow.sequence), hsequences, List.pairwise_map]
      exact h.deliveries
    · rw [hnextDelivery]
      refine ⟨h.nextDelivery.1, fun row hrow => ?_⟩
      have hmem : row.sequence ∈ store.deliveries.map DeliveryRow.sequence := hsequences ▸ List.mem_map_of_mem hrow
      obtain ⟨old, hold, heq⟩ := List.mem_map.mp hmem
      rw [← heq]
      exact h.nextDelivery.2 old hold
  | sent row deliveryId sent =>
    obtain ⟨hmessages, ⟨hsequence, hnextMessage⟩, hdeliveries, hnextDelivery, hhashed, hfresh⟩ := sent
    constructor <;> simp only [hmessages, hnextMessage, hdeliveries, hnextDelivery]
    · intro old hold
      rcases List.mem_append.mp hold with hold | hnew
      · exact h.hashed old hold
      · rw [List.mem_singleton.mp hnew]
        exact hhashed
    · rw [List.map_append, List.nodup_append]
      refine ⟨h.messageIds, List.nodup_singleton _, fun id hid other hother => ?_⟩
      obtain ⟨old, hold, rfl⟩ := List.mem_map.mp hid
      rw [List.mem_singleton.mp hother]
      exact (hfresh old hold).1
    · rw [List.map_append, List.nodup_append]
      refine ⟨h.commandKeys, List.nodup_singleton _, fun key hkey other hother => ?_⟩
      obtain ⟨old, hold, rfl⟩ := List.mem_map.mp hkey
      rw [List.mem_singleton.mp hother]
      exact (hfresh old hold).2
    · refine List.pairwise_append.mpr ⟨h.messages, List.pairwise_singleton _ _, fun old hold new hnew => ?_⟩
      rw [List.mem_singleton.mp hnew, hsequence]
      exact (h.nextMessage.2 old hold).2
    · refine ⟨Nat.succ_pos _, fun old hold => ?_⟩
      rcases List.mem_append.mp hold with hold | hnew
      · exact ⟨(h.nextMessage.2 old hold).1, Nat.lt_succ_of_lt (h.nextMessage.2 old hold).2⟩
      · rw [List.mem_singleton.mp hnew, hsequence]
        exact ⟨h.nextMessage.1, Nat.lt_succ_self _⟩
    · rw [List.map_append, List.flatMap_append, h.addressed, newDeliveries_address, List.flatMap_singleton]
      rfl
    · exact List.pairwise_append.mpr ⟨h.deliveries, newDeliveries_pairwise _ _, fun old hold new hnew =>
        (h.nextDelivery.2 old hold).2.trans_le (newDeliveries_bounds hnew).1⟩
    · refine ⟨Nat.add_pos_left h.nextDelivery.1 _, fun old hold => ?_⟩
      rcases List.mem_append.mp hold with hold | hnew
      · exact ⟨(h.nextDelivery.2 old hold).1, Nat.lt_add_right _ (h.nextDelivery.2 old hold).2⟩
      · exact ⟨h.nextDelivery.1.trans_le (newDeliveries_bounds hnew).1, (newDeliveries_bounds hnew).2⟩

/-! ### The inbox of an agent -/

/-- What is shown of a delivery. -/
def DeliveryRow.entry (row : DeliveryRow) : Nat × String × String × String := (row.sequence, row.address)

/-- The message of a delivery, when it is the agent's. -/
def Store.addressed (store : Store Content Digest) (teamRunId agentId : String)
    (entry : Nat × String × String × String) : Option (Nat × MessageEnvelope Content) :=
  if entry.2.1 = teamRunId ∧ entry.2.2.2 = agentId then (store.message? entry.2.2.1).map fun message => (entry.1, message)
  else none

/-- The messages that were delivered to an agent, with the sequence numbers of their deliveries. -/
def Store.inbox (store : Store Content Digest) (teamRunId agentId : String) : List (Nat × MessageEnvelope Content) :=
  (store.deliveries.map DeliveryRow.entry).filterMap (store.addressed teamRunId agentId)

theorem message?_mem (h : store.Sound hash) {row : MessageRow Content Digest} (hrow : row ∈ store.messages) :
    store.message? row.message.messageId = some row.message := by
  rw [Store.message?, @find?_of_key _ _ _ _ (fun row => row.message.messageId) h.messageIds row hrow]
  rfl

/-- Every delivery has its message. -/
theorem message?_delivery (h : store.Sound hash) {row : DeliveryRow} (hrow : row ∈ store.deliveries) :
    (store.message? row.messageId).isSome = true := by
  have hmem : row.address ∈ store.messages.flatMap MessageRow.addresses := h.addressed ▸ List.mem_map_of_mem hrow
  obtain ⟨message, hmessage, haddress⟩ := List.mem_flatMap.mp hmem
  obtain ⟨recipient, -, heq⟩ := List.mem_map.mp haddress
  have hid : row.messageId = message.message.messageId := congrArg (fun address => address.2.1) heq.symm
  rw [hid, message?_mem h hmessage]
  rfl

theorem addressed_entry (teamRunId agentId : String) (row : DeliveryRow) :
    store.addressed teamRunId agentId row.entry =
      if row.teamRunId = teamRunId ∧ row.recipientId = agentId then
        (store.message? row.messageId).map fun message => (row.sequence, message)
      else none := rfl

theorem inbox_joined (teamRunId agentId : String) :
    (store.joined.filter fun row => row.1.teamRunId = teamRunId && row.1.recipientId = agentId).map
      (fun row => (row.1.sequence, row.2)) = store.inbox teamRunId agentId := by
  unfold Store.joined Store.inbox
  induction store.deliveries with
  | nil => rfl
  | cons row rest ih =>
    rw [List.filterMap_cons, List.map_cons, List.filterMap_cons, ← ih, addressed_entry]
    cases store.message? row.messageId with
    | none => by_cases hto : row.teamRunId = teamRunId ∧ row.recipientId = agentId <;> simp [hto]
    | some message =>
      by_cases hto : row.teamRunId = teamRunId ∧ row.recipientId = agentId
      · simp [hto]
      · rw [if_neg hto]
        exact congrArg _ (List.filter_cons_of_neg (by simpa using hto))

/-- A list without repetitions names an entry once. -/
theorem filterMap_once {α : Type} {names : List String} (hnodup : names.Nodup) (name : String) (value : α) :
    names.filterMap (fun other => if other = name then some value else none) =
      if name ∈ names then [value] else [] := by
  induction names with
  | nil => simp
  | cons first rest ih =>
    obtain ⟨hfirst, hrest⟩ := List.nodup_cons.mp hnodup
    rw [List.filterMap_cons, ih hrest]
    by_cases heq : first = name
    · subst heq
      simp [hfirst]
    · simp [heq, Ne.symm heq]

/-- The messages for an agent of a run, in the order sent. -/
def Store.messagesTo (store : Store Content Digest) (teamRunId agentId : String) : List (MessageEnvelope Content) :=
  (store.messages.map MessageRow.message).filter fun message =>
    message.teamRunId = teamRunId && message.isRecipient agentId

/-- An inbox holds each message for the agent once, in the order sent. -/
theorem inbox_messages (h : store.Sound hash) (teamRunId agentId : String) :
    (store.inbox teamRunId agentId).map Prod.snd = store.messagesTo teamRunId agentId := by
  have hof (row : MessageRow Content Digest) (hrow : row ∈ store.messages) :
      row.addresses.filterMap (fun address => if address.1 = teamRunId ∧ address.2.2 = agentId then
        store.message? address.2.1 else none) =
      if row.message.teamRunId = teamRunId ∧ agentId ∈ row.message.recipientIds then [row.message] else [] := by
    rw [MessageRow.addresses, List.filterMap_map]
    by_cases hrun : row.message.teamRunId = teamRunId
    · have honce := filterMap_once row.message.recipients_unique agentId row.message
      simp only [Function.comp_def, hrun, true_and, message?_mem h hrow]
      exact honce
    · simp [hrun]
  calc (store.inbox teamRunId agentId).map Prod.snd
      = (store.deliveries.map DeliveryRow.address).filterMap (fun address =>
          if address.1 = teamRunId ∧ address.2.2 = agentId then store.message? address.2.1 else none) := by
        rw [Store.inbox, List.filterMap_map, List.map_filterMap, List.filterMap_map]
        refine List.filterMap_congr fun row _ => ?_
        rw [Function.comp_apply, addressed_entry]
        by_cases hto : row.teamRunId = teamRunId ∧ row.recipientId = agentId
        · rw [if_pos hto, Option.map_map]
          exact Option.map_id'.trans (if_pos hto).symm
        · rw [if_neg hto]
          exact (if_neg hto).symm
    _ = store.messages.flatMap fun row => if row.message.teamRunId = teamRunId ∧ agentId ∈ row.message.recipientIds
          then [row.message] else [] := by
        rw [h.addressed, List.filterMap_flatMap]
        exact List.flatMap_congr hof
    _ = store.messagesTo teamRunId agentId := by
        unfold Store.messagesTo
        induction store.messages with
        | nil => rfl
        | cons row rest ih =>
          rw [List.flatMap_cons, List.map_cons, List.filter_cons, ih]
          simp only [MessageEnvelope.isRecipient, Bool.and_eq_true, decide_eq_true_eq, List.contains_iff_mem]
          split <;> rfl

theorem addressed_sequence {teamRunId agentId : String} {entry : Nat × String × String × String}
    {shown : Nat × MessageEnvelope Content} (h : store.addressed teamRunId agentId entry = some shown) :
    shown.1 = entry.1 := by
  unfold Store.addressed at h
  split at h
  · obtain ⟨message, -, rfl⟩ := Option.map_eq_some_iff.mp h
    rfl
  · cases h

theorem inbox_growing (h : store.Sound hash) (teamRunId agentId : String) : Growing (store.inbox teamRunId agentId) := by
  have hentries : (store.deliveries.map DeliveryRow.entry).Pairwise fun first second => first.1 < second.1 :=
    List.pairwise_map.mpr h.deliveries
  refine List.pairwise_filterMap.mpr (hentries.imp fun hlt shown hshown other hother => ?_)
  rw [addressed_sequence hshown, addressed_sequence hother]
  exact hlt

theorem inbox_keys (h : store.Sound hash) {teamRunId agentId : String} {row : Nat × MessageEnvelope Content}
    (hrow : row ∈ store.inbox teamRunId agentId) : 0 < row.1 ∧ row.1 < store.nextDelivery := by
  obtain ⟨entry, hentry, hshown⟩ := List.mem_filterMap.mp hrow
  obtain ⟨delivery, hdelivery, rfl⟩ := List.mem_map.mp hentry
  rw [addressed_sequence hshown]
  exact h.nextDelivery.2 delivery hdelivery

/-- Each step puts what it delivers behind the inbox, with keys that are new. -/
theorem inbox_step (h : store.Sound hash) (hstep : MailStep hash store after) (teamRunId agentId : String) :
    ∃ more, after.inbox teamRunId agentId = store.inbox teamRunId agentId ++ more ∧
      (∀ row ∈ more, store.nextDelivery ≤ row.1) ∧ store.nextDelivery ≤ after.nextDelivery := by
  cases hstep with
  | same same =>
    refine ⟨[], ?_, by simp, same.nextDelivery.ge⟩
    rw [List.append_nil]
    unfold Store.inbox Store.addressed Store.message?
    rw [same.deliveries, same.messages]
  | acked ack hmessages hnextMessage hdeliveries hnextDelivery =>
    refine ⟨[], ?_, by simp, hnextDelivery.ge⟩
    have hentries : after.deliveries.map DeliveryRow.entry = store.deliveries.map DeliveryRow.entry := by
      rw [hdeliveries]
      exact map_update _ fun _ _ _ => rfl
    rw [List.append_nil]
    unfold Store.inbox Store.addressed Store.message?
    rw [hentries, hmessages]
  | sent row deliveryId sent =>
    refine ⟨((store.newDeliveries row.message deliveryId).map DeliveryRow.entry).filterMap
      (after.addressed teamRunId agentId), ?_, ?_, by rw [sent.nextDelivery]; exact Nat.le_add_right _ _⟩
    · rw [Store.inbox, sent.deliveries, List.map_append, List.filterMap_append]
      congr 1
      -- A delivery that was there has its message already.
      refine List.filterMap_congr fun entry hentry => ?_
      obtain ⟨delivery, hdelivery, rfl⟩ := List.mem_map.mp hentry
      obtain ⟨message, hmessage⟩ := Option.isSome_iff_exists.mp (message?_delivery h hdelivery)
      have hkept : after.message? delivery.messageId = store.message? delivery.messageId := by
        rw [hmessage]
        obtain ⟨found, hfound, rfl⟩ := Option.map_eq_some_iff.mp hmessage
        rw [Store.message?, sent.messages, find?_append_some hfound]
        rfl
      unfold Store.addressed
      exact if_congr Iff.rfl (congrArg _ hkept) rfl
    · intro shown hshown
      obtain ⟨entry, hentry, hshows⟩ := List.mem_filterMap.mp hshown
      obtain ⟨delivery, hdelivery, rfl⟩ := List.mem_map.mp hentry
      rw [addressed_sequence hshows]
      exact (newDeliveries_bounds hdelivery).1

/-- What `list_inbox` returns is the next page of the inbox. -/
theorem listInbox_page (h : store.Sound hash) {teamRunId agentId : String} {cursor limit : Nat}
    {rows : List (DeliveryRow × MessageEnvelope Content)}
    (hrows : store.listInbox teamRunId agentId cursor limit = .ok rows) :
    0 < limit ∧ rows.map (fun row => (row.1.sequence, row.2)) =
      (later (store.inbox teamRunId agentId) cursor).take limit := by
  unfold Store.listInbox at hrows
  split at hrows
  · cases hrows
  · rename_i hlimit
    cases hrows
    refine ⟨?_, ?_⟩
    · simp only [Store.pageInvalid, Bool.or_eq_true, decide_eq_true_eq, not_or] at hlimit
      omega
    · have hjoined : store.joined.Pairwise fun first second => first.1.sequence < second.1.sequence := by
        refine List.pairwise_filterMap.mpr (h.deliveries.imp fun hlt first hfirst second hsecond => ?_)
        obtain ⟨_, -, rfl⟩ := Option.map_eq_some_iff.mp hfirst
        obtain ⟨_, -, rfl⟩ := Option.map_eq_some_iff.mp hsecond
        exact hlt
      rw [page_growing hjoined, List.map_take, ← inbox_joined, later, List.filter_map, List.filter_filter]
      congr 3
      funext row
      rw [Function.comp_apply, Bool.and_comm]

/-! ### What a viewer sees -/

/-- What a viewer may see of a message. -/
def MessageEnvelope.visibleTo (message : MessageEnvelope Content) (viewerId : String) : Bool :=
  message.uiVisibility ≠ .hidden && message.uiVisibility ≠ .ownerAudit &&
    (message.senderId = viewerId || message.audience = .team || message.uiVisibility = .team ||
      (message.uiVisibility = .recipients && message.isRecipient viewerId))

/-- The deliveries of a message tell its recipients. -/
theorem visible_iff (h : store.Sound hash) {viewerId : String} {row : MessageRow Content Digest}
    (hrow : row ∈ store.messages) : store.visible viewerId row = row.message.visibleTo viewerId := by
  have hdelivered : (store.deliveries.any fun delivery => delivery.messageId = row.message.messageId &&
      delivery.teamRunId = row.message.teamRunId && delivery.recipientId = viewerId) =
        row.message.isRecipient viewerId := by
    rw [Bool.eq_iff_iff, List.any_eq_true, MessageEnvelope.isRecipient, List.contains_iff_mem]
    constructor
    · rintro ⟨delivery, hdelivery, hsame⟩
      simp only [Bool.and_eq_true, decide_eq_true_eq] at hsame
      obtain ⟨⟨hid, -⟩, hviewer⟩ := hsame
      have hmem : delivery.address ∈ store.messages.flatMap MessageRow.addresses :=
        h.addressed ▸ List.mem_map_of_mem hdelivery
      obtain ⟨other, hother, haddress⟩ := List.mem_flatMap.mp hmem
      obtain ⟨recipient, hrecipient, heq⟩ := List.mem_map.mp haddress
      have hsame : other = row := eq_of_key h.messageIds hother hrow
        ((congrArg (fun address => address.2.1) heq).trans hid)
      have hto : recipient = viewerId := (congrArg (fun address => address.2.2) heq).trans hviewer
      rw [← hsame, ← hto]
      exact hrecipient
    · intro hrecipient
      have hmem : (row.message.teamRunId, row.message.messageId, viewerId) ∈
          store.messages.flatMap MessageRow.addresses :=
        List.mem_flatMap.mpr ⟨row, hrow, List.mem_map.mpr ⟨viewerId, hrecipient, rfl⟩⟩
      rw [← h.addressed] at hmem
      obtain ⟨delivery, hdelivery, heq⟩ := List.mem_map.mp hmem
      refine ⟨delivery, hdelivery, ?_⟩
      simp only [Bool.and_eq_true, decide_eq_true_eq]
      exact ⟨⟨congrArg (fun address => address.2.1) heq, congrArg Prod.fst heq⟩,
        congrArg (fun address => address.2.2) heq⟩
  unfold Store.visible MessageEnvelope.visibleTo
  rw [hdelivered]

/-- The messages a viewer may see of a run, with their sequence numbers. -/
def Store.view (store : Store Content Digest) (teamRunId viewerId : String) : List (Nat × MessageEnvelope Content) :=
  (store.messages.map fun row => (row.sequence, row.message)).filter fun row =>
    row.2.teamRunId = teamRunId && row.2.visibleTo viewerId

theorem view_growing (h : store.Sound hash) (teamRunId viewerId : String) : Growing (store.view teamRunId viewerId) := by
  have hrows : (store.messages.map fun row => (row.sequence, row.message)).Pairwise
      fun first second => first.1 < second.1 := List.pairwise_map.mpr h.messages
  exact hrows.sublist List.filter_sublist

theorem view_keys (h : store.Sound hash) {teamRunId viewerId : String} {row : Nat × MessageEnvelope Content}
    (hrow : row ∈ store.view teamRunId viewerId) : 0 < row.1 ∧ row.1 < store.nextMessage := by
  obtain ⟨stored, hstored, rfl⟩ := List.mem_map.mp (List.mem_filter.mp hrow).1
  exact h.nextMessage.2 stored hstored

theorem view_step (hstep : MailStep hash store after) (teamRunId viewerId : String) :
    ∃ more, after.view teamRunId viewerId = store.view teamRunId viewerId ++ more ∧
      (∀ row ∈ more, store.nextMessage ≤ row.1) ∧ store.nextMessage ≤ after.nextMessage := by
  cases hstep with
  | same same => exact ⟨[], by rw [List.append_nil, Store.view, same.messages, Store.view], by simp, same.nextMessage.ge⟩
  | acked ack hmessages hnextMessage =>
    exact ⟨[], by rw [List.append_nil, Store.view, hmessages, Store.view], by simp, hnextMessage.ge⟩
  | sent row deliveryId sent =>
    refine ⟨[(row.sequence, row.message)].filter fun row => row.2.teamRunId = teamRunId && row.2.visibleTo viewerId,
      ?_, ?_, sent.nextMessage.2 ▸ Nat.le_succ _⟩
    · rw [Store.view, sent.messages, List.map_append, List.filter_append]
      rfl
    · intro shown hshown
      rw [List.mem_singleton.mp (List.mem_filter.mp hshown).1, sent.nextMessage.1]

theorem listMessagesForViewer_page (h : store.Sound hash) {teamRunId viewerId : String} {cursor limit : Nat}
    {rows : List (Nat × MessageEnvelope Content)}
    (hrows : store.listMessagesForViewer teamRunId viewerId cursor limit = .ok rows) :
    0 < limit ∧ rows = (later (store.view teamRunId viewerId) cursor).take limit := by
  unfold Store.listMessagesForViewer at hrows
  split at hrows
  · cases hrows
  · rename_i hlimit
    cases hrows
    refine ⟨?_, ?_⟩
    · simp only [Store.pageInvalid, Bool.or_eq_true, decide_eq_true_eq, not_or] at hlimit
      omega
    · have hvisible : store.messages.filter (fun row => row.message.teamRunId = teamRunId &&
          decide (cursor < row.sequence) && store.visible viewerId row) =
          store.messages.filter fun row => decide (cursor < row.sequence) &&
            (decide (row.message.teamRunId = teamRunId) && row.message.visibleTo viewerId) := by
        refine List.filter_congr fun row hrow => ?_
        rw [visible_iff h hrow]
        cases decide (row.message.teamRunId = teamRunId) <;> cases decide (cursor < row.sequence) <;> rfl
      rw [page_growing h.messages, List.map_take, hvisible, later, Store.view, List.filter_filter, List.filter_map]
      rfl

end Operant.Team
