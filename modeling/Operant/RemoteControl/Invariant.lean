import Operant.RemoteControl.Runtime

/-! What is true between any two calls, and what every call leaves for others.

The ticket of a submission is the command whose execution it has claimed. What is known
depends on what is asked of a run: `once`, that no code from outside makes an executed receipt
await an approval, that what is stored as a result can be read, and that a resubmission claims
only what still awaits an approval; `final`, that nobody is revoked or disabled between the
checks of a submission and its executor. -/
namespace Operant.RemoteControl
open Operant.Tables Operant.Calls Operant.Security
open Operant.Scheduler (Instant seconds)

/-- The receipt is not to be executed (again). -/
def ReceiptRow.isFinal (row : ReceiptRow) : Bool := !row.status.isOpen && !row.awaitsApproval

/-- What the statement may do to the receipt. -/
def Writer.allows (before after : ReceiptRow) : Writer → Prop
  | .reserve => False
  | .claim _ => (before.status = .received ∨ before.awaitsApproval = true) ∧ after.status = .accepted
  | .status _ => before.status.isOpen = true ∧ after.status.isOpen = false
  | .renew => before.status = .accepted ∧ after.status = .accepted
  | .sweep _ => before.status.isOpen = true ∧ after.status.isOpen = false
  | .reconcile => before.status = .outcomeUnknown ∧ after.status.isOpen = false

/-- The two are of one command. -/
structure ReceiptRow.SameCommand (a b : ReceiptRow) : Prop where
  id : a.commandId = b.commandId
  key : a.idempotencyKey = b.idempotencyKey
  device : a.deviceId = b.deviceId
  host : a.hostId = b.hostId

theorem ReceiptRow.SameCommand.refl (a : ReceiptRow) : a.SameCommand a := ⟨rfl, rfl, rfl, rfl⟩

theorem ReceiptRow.SameCommand.trans {a b c : ReceiptRow} (h : a.SameCommand b) (h' : b.SameCommand c) :
    a.SameCommand c :=
  ⟨h.id.trans h'.id, h.key.trans h'.key, h.device.trans h'.device, h.host.trans h'.host⟩

namespace ReceiptWrite

def isClaim (e : ReceiptWrite) : Bool :=
  match e.writer with
  | .claim _ => true
  | .reserve | .status _ | .renew | .sweep _ | .reconcile => false

/-- The receipt is moved to the accepted status. -/
def accepts (e : ReceiptWrite) : Prop :=
  e.after.status = .accepted ∧ ∀ before ∈ e.before, before.status ≠ .accepted

structure Lawful (e : ReceiptWrite) : Prop where
  inserted : e.before = none → e.after.status = .received
  same : ∀ before ∈ e.before, e.after.SameCommand before
  allowed : ∀ before ∈ e.before, e.writer.allows before e.after

/-- A final receipt is written by a reconciliation only, and stays closed. -/
theorem Lawful.final {e : ReceiptWrite} (h : e.Lawful) {row : ReceiptRow} (hrow : e.before = some row)
    (hfinal : row.isFinal = true) :
    row.status = .outcomeUnknown ∧ e.writer = .reconcile ∧ e.after.status.isOpen = false := by
  have hallowed := h.allowed row hrow
  unfold ReceiptRow.isFinal at hfinal
  rw [Bool.and_eq_true, Bool.not_eq_true', Bool.not_eq_true'] at hfinal
  obtain ⟨hclosed, hawaits⟩ := hfinal
  cases hw : e.writer with
  | reserve =>
    rw [hw] at hallowed
    exact hallowed.elim
  | claim =>
    rw [hw] at hallowed
    cases hallowed.1 with
    | inl hreceived =>
      rw [hreceived] at hclosed
      exact nomatch hclosed
    | inr happroval =>
      rw [happroval] at hawaits
      exact nomatch hawaits
  | status | sweep =>
    rw [hw] at hallowed
    rw [hallowed.1] at hclosed
    exact nomatch hclosed
  | renew =>
    rw [hw] at hallowed
    rw [hallowed.1] at hclosed
    exact nomatch hclosed
  | reconcile =>
    rw [hw] at hallowed
    exact ⟨hallowed.1, rfl, hallowed.2⟩

/-- Only a claim moves a receipt to the accepted status. -/
theorem Lawful.claims {e : ReceiptWrite} (h : e.Lawful) (haccepts : e.accepts) : e.isClaim = true := by
  obtain ⟨hafter, hbefore⟩ := haccepts
  cases hb : e.before with
  | none =>
    rw [h.inserted hb] at hafter
    exact nomatch hafter
  | some before =>
    have hallowed := h.allowed before hb
    unfold isClaim
    cases hw : e.writer with
    | claim => rfl
    | reserve =>
      rw [hw] at hallowed
      exact hallowed.elim
    | renew =>
      rw [hw] at hallowed
      exact absurd hallowed.1 (hbefore before hb)
    | status | sweep | reconcile =>
      rw [hw] at hallowed
      have hclosed := hallowed.2
      rw [hafter] at hclosed
      exact nomatch hclosed

end ReceiptWrite

/-- The exception is one of the store, or of the leases. -/
def Raised.fromBelow : Raised → Bool
  | .other _ | .mcp _ => true
  | .remote .. | .conflict _ | .idempotencyConflict _ | .key | .validation => false

/-- What is stored as a result can be read. -/
def fits (resultRef : Option String) : Bool := resultRef.all fun ref => ref.length ≤ 500

/-- An execution that ended so awaits an approval. -/
def reopens (status : RemoteCommandStatus) (errorCode : Option String) : Bool :=
  status = .rejected && errorCode = "remote.approval_required"

namespace World

/-- The execution of the command has been claimed. -/
def claimed (w : World) (id : String) : Prop :=
  ∃ e ∈ w.history, e.isClaim = true ∧ e.after.commandId = id

/-- The device has been revoked. -/
def isRevoked (w : World) (id : String) : Prop :=
  ∃ device, w.device? id = some device ∧ device.revokedAt.isSome = true

theorem isRevoked_iff {w : World} {id : String} :
    w.isRevoked id ↔ (w.device? id).any (fun row => row.revokedAt.isSome) = true :=
  (Option.any_eq_true _ _).symm

theorem isRevoked.inactive {w : World} {id : String} (h : w.isRevoked id) : w.deviceActive id = false := by
  obtain ⟨device, hdevice, hrevoked⟩ := h
  unfold deviceActive
  rw [hdevice, Option.any_some, ← Option.not_isSome, hrevoked]
  rfl

def hasStarted (w : World) (id : String) : Prop := ∃ s ∈ w.starts, s.commandId = id

def recorded (w : World) (receipt : RemoteCommandReceipt) : Prop :=
  ∃ e ∈ w.history, e.after.receipt = receipt

/-- The executor would raise the code of a missing approval. -/
def asksApproval (w : World) : Bool :=
  match w.outside.execute with
  | .error (.remote code _ _) => code = "remote.approval_required"
  | _ => false

/-- What is asked of calls for a command to execute at most once, and for its duplicates to get
its receipt. -/
def allowsOnce (w : World) : Call → Prop
  | .execute .. => w.asksApproval = false
  | .setCommandStatus _ _ _ _ _ resultRef _ _ => fits resultRef = true
  | .reconcileCommand _ status resultRef errorCode =>
    fits resultRef = true ∧ reopens status errorCode = false
  | .claimCommandExecution id _ _ _ claimant => claimant.resubmitted = true →
    w.receipts.any (fun row => row.commandId = id && row.awaitsApproval) = true
  | _ => True

instance (c : Call) (w : World) : Decidable (w.allowsOnce c) := by
  unfold allowsOnce
  split <;> infer_instance

/-- Since the submission has read them, the device has not been revoked, nor the host
disabled. -/
def activeSince (w : World) (claimant : Claimant) : Prop :=
  (∀ row ∈ w.device? claimant.device.deviceId, row.revokedAt = claimant.device.revokedAt) ∧
    ∀ row ∈ w.host? claimant.host.hostId, row.isActive = claimant.host.isActive

/-- What is asked of calls for a revocation to be final. -/
def allowsFinal (w : World) : Call → Prop
  | .claimCommandExecution _ _ _ _ claimant => w.activeSince claimant
  | .execute _ _ claimant => w.activeSince claimant
  | _ => True

instance (claimant : Claimant) (w : World) : Decidable (w.activeSince claimant) := by
  unfold activeSince
  infer_instance

instance (c : Call) (w : World) : Decidable (w.allowsFinal c) := by
  unfold allowsFinal
  split <;> infer_instance

end World

/-- A submission that has ended returned a receipt as it was recorded; one that found its
receipt reserved failed for exceptions from below only. -/
def Submission.Answered (s : Submission) (w : World) : Prop :=
  match s.result with
  | .ok receipt => receipt.commandId = s.commandId ∧ w.recorded receipt
  | .error e => s.resubmitted = true → e.fromBelow = true

/-- The claims that have been made, by their commands. -/
def World.claims (w : World) : List String :=
  (w.history.filter ReceiptWrite.isClaim).map fun e => e.after.commandId

structure Inv (once final : Prop) (w : World) : Prop where
  ids : (w.receipts.map ReceiptRow.commandId).Nodup
  keys : (w.receipts.map ReceiptRow.idempotencyKey).Nodup
  bound : ∀ row ∈ w.receipts, ∃ device, w.device? row.deviceId = some device ∧
    device.hostId = row.hostId
  recorded : ∀ row ∈ w.receipts, w.recorded row.receipt
  lawful : ∀ e ∈ w.history, e.Lawful
  rows : ∀ e ∈ w.history, ∃ row ∈ w.receipts, row.commandId = e.after.commandId
  starts : ∀ s ∈ w.starts, w.claimed s.commandId ∧ ∃ row ∈ w.receipts,
    row.commandId = s.commandId ∧ row.deviceId = s.deviceId ∧ some row.idempotencyKey = s.idempotencyKey
  reconciled : once → ∀ e ∈ w.history, e.writer = .reconcile → e.after.awaitsApproval = false
  /-- A claimed command is never claimable again. -/
  spent : once → ∀ row ∈ w.receipts, w.claimed row.commandId →
    row.status ≠ .received ∧ row.awaitsApproval = false
  readable : once → ∀ row ∈ w.receipts, row.readable = true
  claimedOnce : once → w.claims.Nodup
  startedOnce : once → (w.starts.map Start.commandId).Nodup
  submissions : once → ∀ s ∈ w.submissions, s.Answered w
  active : final → (∀ e ∈ w.history, e.isClaim = true → e.deviceActive = true ∧ e.hostActive = true) ∧
    ∀ s ∈ w.starts, s.deviceActive = true ∧ s.hostActive = true

/-- Hosts stay, and devices, with their host, and revoked ones revoked. -/
structure World.Keeps (w w' : World) : Prop where
  devices : ∀ id device, w.device? id = some device → ∃ device', w'.device? id = some device' ∧
    device'.hostId = device.hostId ∧ (device.revokedAt.isSome = true → device'.revokedAt.isSome = true)
  hosts : ∀ id, (w.host? id).isSome = true → (w'.host? id).isSome = true

theorem World.Keeps.same {w w' : World} (hdevices : w'.devices = w.devices)
    (hhosts : w'.hosts = w.hosts) : w.Keeps w' := by
  constructor
  · intro id device hd
    refine ⟨device, ?_, rfl, fun hr => hr⟩
    unfold World.device? at hd ⊢
    rwa [hdevices]
  · intro id hid
    unfold World.host? at hid ⊢
    rwa [hhosts]

theorem World.Keeps.refl (w : World) : w.Keeps w := .same rfl rfl

theorem World.Keeps.trans {a b c : World} (h : a.Keeps b) (h' : b.Keeps c) : a.Keeps c where
  devices id device hd := by
    obtain ⟨mid, hmid, hhost, hrevoked⟩ := h.devices id device hd
    obtain ⟨last, hlast, hhost', hrevoked'⟩ := h'.devices id mid hmid
    exact ⟨last, hlast, hhost'.trans hhost, fun hr => hrevoked' (hrevoked hr)⟩
  hosts id hid := h'.hosts id (h.hosts id hid)

/-- What others leave as it is, for everybody and for the owner of a command. -/
structure Rely (once : Prop) (k : Option String) (w w' : World) : Prop extends w.Keeps w' where
  receipts : ∀ row ∈ w.receipts, ∃ row' ∈ w'.receipts, row'.SameCommand row
  history : ∃ more, w'.history = w.history ++ more ∧
    ∀ e ∈ more, w.isRevoked e.after.deviceId → e.deviceActive = false
  starts : ∃ more, w'.starts = w.starts ++ more ∧
    ∀ s ∈ more, w.isRevoked s.deviceId → s.deviceActive = false
  owned : once → ∀ t, k = some t → w'.hasStarted t → w.hasStarted t

namespace Rely
variable {once : Prop} {k : Option String} {a b c w w' : World}

theorem refl (k : Option String) (w : World) : Rely once k w w where
  toKeeps := .refl w
  receipts row h := ⟨row, h, .refl row⟩
  history := ⟨[], (List.append_nil _).symm, fun _ h => nomatch h⟩
  starts := ⟨[], (List.append_nil _).symm, fun _ h => nomatch h⟩
  owned _ _ _ h := h

theorem revoked (h : Rely once k w w') {id : String} (hr : w.isRevoked id) : w'.isRevoked id := by
  obtain ⟨device, hdevice, hrevoked⟩ := hr
  obtain ⟨device', hdevice', -, hkept⟩ := h.devices id device hdevice
  exact ⟨device', hdevice', hkept hrevoked⟩

theorem trans (h : Rely once k a b) (h' : Rely once k b c) : Rely once k a c where
  toKeeps := h.toKeeps.trans h'.toKeeps
  receipts row hrow := by
    obtain ⟨mid, hmid, hsame⟩ := h.receipts row hrow
    obtain ⟨last, hlast, hsame'⟩ := h'.receipts mid hmid
    exact ⟨last, hlast, hsame'.trans hsame⟩
  history := by
    obtain ⟨more, heq, hmore⟩ := h.history
    obtain ⟨more', heq', hmore'⟩ := h'.history
    refine ⟨more ++ more', by rw [heq', heq, List.append_assoc], fun e he hrevoked => ?_⟩
    cases List.mem_append.mp he with
    | inl hfirst => exact hmore e hfirst hrevoked
    | inr hlater => exact hmore' e hlater (h.revoked hrevoked)
  starts := by
    obtain ⟨more, heq, hmore⟩ := h.starts
    obtain ⟨more', heq', hmore'⟩ := h'.starts
    refine ⟨more ++ more', by rw [heq', heq, List.append_assoc], fun s hs hrevoked => ?_⟩
    cases List.mem_append.mp hs with
    | inl hfirst => exact hmore s hfirst hrevoked
    | inr hlater => exact hmore' s hlater (h.revoked hrevoked)
  owned ho t ht hs := h.owned ho t ht (h'.owned ho t ht hs)

theorem weak (h : Rely once k w w') : Rely once none w w' :=
  { h with owned := fun _ _ hn => nomatch hn }

theorem written (h : Rely once k w w') {e : ReceiptWrite} (he : e ∈ w.history) : e ∈ w'.history := by
  obtain ⟨more, heq, -⟩ := h.history
  rw [heq]
  exact List.mem_append_left _ he

theorem claimed (h : Rely once k w w') {id : String} (hc : w.claimed id) : w'.claimed id := by
  obtain ⟨e, he, hall⟩ := hc
  exact ⟨e, h.written he, hall⟩

theorem recorded (h : Rely once k w w') {receipt : RemoteCommandReceipt} (hr : w.recorded receipt) :
    w'.recorded receipt := by
  obtain ⟨e, he, hall⟩ := hr
  exact ⟨e, h.written he, hall⟩

theorem answered (h : Rely once k w w') {s : Submission} (hs : s.Answered w) : s.Answered w' := by
  unfold Submission.Answered at hs ⊢
  split at hs
  · exact ⟨hs.1, h.recorded hs.2⟩
  · exact hs

end Rely

/-- The rules of the system. -/
def rules (once final : Prop) : OwnerRules Call Answer Raised World String where
  exec c w := .ok (w.exec c)
  inv := Inv once final
  issued t w := w.claimed t
  rely := Rely once
  allowed c w := (once → w.allowsOnce c) ∧ (final → w.allowsFinal c)
  refl := Rely.refl
  trans := Rely.trans
  keep h ht := h.claimed ht

/-- Nothing is asked of the end of a program. -/
abbrev Anyhow {α : Type} (_ : Option String) (_ : α) (_ : World) : Prop := True

end Operant.RemoteControl
