import Operant.Team.Store

/-! What the operations do to the mailboxes.

Only a message adds deliveries, one for each recipient; an ack writes into its delivery; nothing is taken away. -/
namespace Operant.Team
open Operant.Tables

variable {Content Digest : Type} {store after : Store Content Digest} {hash : MessageEnvelope Content → Digest}

/-! ### What a step does to the mailboxes -/

/-- A message that is stored, with a delivery for each recipient. -/
structure Sent (hash : MessageEnvelope Content → Digest) (store after : Store Content Digest) (row : MessageRow Content Digest)
    (deliveryId : String → String) : Prop where
  messages : after.messages = store.messages ++ [row]
  nextMessage : row.sequence = store.nextMessage ∧ after.nextMessage = store.nextMessage + 1
  deliveries : after.deliveries = store.deliveries ++ store.newDeliveries row.message deliveryId
  nextDelivery : after.nextDelivery = store.nextDelivery + row.message.recipientIds.length
  hashed : row.commandHash = hash row.message
  fresh : ∀ old ∈ store.messages, old.message.messageId ≠ row.message.messageId ∧ old.commandKey ≠ row.commandKey

/-- A step that leaves the mailboxes as they are. -/
structure SameMail (store after : Store Content Digest) : Prop where
  messages : after.messages = store.messages
  nextMessage : after.nextMessage = store.nextMessage
  deliveries : after.deliveries = store.deliveries
  nextDelivery : after.nextDelivery = store.nextDelivery

inductive MailStep (hash : MessageEnvelope Content → Digest) (store after : Store Content Digest) : Prop where
  | same (same : SameMail store after)
  | acked (ack : MessageAck) (messages : after.messages = store.messages)
      (nextMessage : after.nextMessage = store.nextMessage)
      (deliveries : after.deliveries = update store.deliveries (fun row => row.deliveryId = ack.deliveryId)
        fun row => { row with ack := some ack })
      (nextDelivery : after.nextDelivery = store.nextDelivery)
  | sent (row : MessageRow Content Digest) (deliveryId : String → String) (sent : Sent hash store after row deliveryId)

theorem same_refl : SameMail store store := ⟨rfl, rfl, rfl, rfl⟩

theorem message?_none {messageId : String} (h : (store.message? messageId).isNone = true) :
    ∀ old ∈ store.messages, old.message.messageId ≠ messageId := by
  intro old hold
  rw [Store.message?, Option.isNone_map, Option.isNone_iff_eq_none, List.find?_eq_none] at h
  simpa using h old hold

theorem ackDelivery_mail {ack result : MessageAck} (h : store.ackDelivery ack = .ok (after, result)) :
    MailStep hash store after := by
  unfold Store.ackDelivery at h
  split at h
  · cases h
  · split at h
    · cases h
    · split at h
      · cases h
      · split at h
        · split at h
          · cases h
          · cases h
            exact .same same_refl
        · cases h
          exact .acked ack rfl rfl rfl rfl

theorem putTeamRun_same {run result : TeamRun} (h : store.putTeamRun run = .ok (after, result)) :
    SameMail store after := by
  unfold Store.putTeamRun at h
  split at h
  · split at h
    · cases h
    · cases h
      exact same_refl
  · split at h
    · cases h
    · cases h
      exact ⟨rfl, rfl, rfl, rfl⟩

theorem putRosterEntry_same {entry result : RosterEntry} {now : Memory.Instant}
    (h : store.putRosterEntry entry now = .ok (after, result)) : SameMail store after := by
  unfold Store.putRosterEntry at h
  dsimp only at h
  split at h
  · cases h
  · split at h
    · cases h
      exact ⟨rfl, rfl, rfl, rfl⟩
    · cases h
      exact ⟨rfl, rfl, rfl, rfl⟩

/-- A transaction that is not done leaves the store as it was. -/
theorem after_mail {α : Type} {result : Except Error (Store Content Digest × α)}
    (h : ∀ done, result = .ok done → MailStep hash store done.1) : MailStep hash store (store.after result) := by
  cases result with
  | error => exact .same same_refl
  | ok done => exact h done rfl

variable [DecidableEq Digest]

theorem projectMessage_mail {message : MessageEnvelope Content}
    {key : String} {deliveryId : String → String} {result : Store.ProjectionApplyResult Content}
    (h : store.projectMessage hash message key deliveryId = .ok (after, result)) : MailStep hash store after := by
  unfold Store.projectMessage at h
  cases hfound : store.messages.find? fun row => row.commandKey = key with
  | some existing =>
    rw [hfound] at h
    dsimp only at h
    split at h
    · cases h
    · cases h
      exact .same same_refl
  | none =>
    rw [hfound] at h
    dsimp only at h
    split at h
    · cases h
    · split at h
      · cases h
      · rename_i hkeys
        cases h
        have hnew : (store.message? message.messageId).isNone = true := by
          simp only [Store.messageKeys, Bool.not_eq_true', Bool.not_eq_false, Bool.and_eq_true] at hkeys
          exact hkeys.1.1.1.1.1
        refine .sent ⟨store.nextMessage, message, key, hash message⟩ deliveryId ⟨rfl, ⟨rfl, rfl⟩, rfl, rfl, rfl, ?_⟩
        intro old hold
        exact ⟨message?_none hnew old hold, by simpa using List.find?_eq_none.mp hfound old hold⟩

theorem applyTaskUpdate_same {digest : TaskBoardUpdate Content → Digest} {write : TaskBoardUpdate Content}
    {result : BoardApplyResult} (h : store.applyTaskUpdate digest write = .ok (after, result)) :
    SameMail store after := by
  unfold Store.applyTaskUpdate at h
  split at h
  · cases h
  · cases h
  · cases h
    exact same_refl
  · split at h
    · cases h
    · split at h
      · split at h
        · cases h
        · cases h
          exact ⟨rfl, rfl, rfl, rfl⟩
      · cases h
        exact ⟨rfl, rfl, rfl, rfl⟩

theorem applyArtifactUpdate_same {digest : ArtifactBoardUpdate Content → Digest}
    {write : ArtifactBoardUpdate Content} {result : BoardApplyResult}
    (h : store.applyArtifactUpdate digest write = .ok (after, result)) : SameMail store after := by
  unfold Store.applyArtifactUpdate at h
  split at h
  · cases h
  · cases h
  · cases h
    exact same_refl
  · split at h
    · cases h
    · split at h
      · dsimp only at h
        split at h
        · cases h
        · cases h
          exact ⟨rfl, rfl, rfl, rfl⟩
      · cases h
        exact ⟨rfl, rfl, rfl, rfl⟩

theorem replaceRosterAgent_same {digest : TaskBoardUpdate Content → Digest} {old new result : RosterEntry}
    {allowCompleted : Bool} {now : Memory.Instant}
    (h : store.replaceRosterAgent digest old new allowCompleted now = .ok (after, result)) : SameMail store after := by
  unfold Store.replaceRosterAgent at h
  split at h
  · cases h
  · split at h
    · split at h
      · cases h
      · split at h
        · cases h
        · split at h
          · cases h
          · split at h
            · cases h
            · dsimp only at h
              split at h
              · cases h
                exact ⟨rfl, rfl, rfl, rfl⟩
              · generalize happlied : Store.applyTaskUpdate _ digest _ = applied at h
                cases applied with
                | error => cases h
                | ok applied =>
                  cases h
                  have hsame := applyTaskUpdate_same happlied
                  exact ⟨hsame.messages, hsame.nextMessage, hsame.deliveries, hsame.nextDelivery⟩
    · cases h

theorem step_mail (hashes : Hashes Content Digest) (op : Op Content) :
    MailStep hashes.message store (store.step hashes op) := by
  cases op with
  | others others => exact .same ⟨rfl, rfl, rfl, rfl⟩
  | putTeamRun run => exact after_mail fun _ h => .same (putTeamRun_same h)
  | putRosterEntry entry now => exact after_mail fun _ h => .same (putRosterEntry_same h)
  | replaceRosterAgent old new allowCompleted now => exact after_mail fun _ h => .same (replaceRosterAgent_same h)
  | sendMessage message key deliveryId =>
    refine after_mail fun done h => ?_
    unfold Store.sendMessage at h
    split at h
    · cases h
    · exact projectMessage_mail h
  | ackDelivery ack => exact after_mail fun _ h => ackDelivery_mail h
  | applyTaskUpdate write => exact after_mail fun _ h => .same (applyTaskUpdate_same h)
  | applyArtifactUpdate write => exact after_mail fun _ h => .same (applyArtifactUpdate_same h)

end Operant.Team
