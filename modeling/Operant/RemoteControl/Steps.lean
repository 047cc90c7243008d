import Operant.RemoteControl.Invariant

/-! One rule for each call. -/
namespace Operant.RemoteControl
open Operant.Tables Operant.Calls Operant.Security
open Operant.Scheduler (Instant seconds)

section Rules
variable {once final : Prop} {k : Option String} {w : World}
  {X : Option String → Raised → World → Prop}

/-! ### Calls in general -/

/-- A call that is answered, or at fault. -/
theorem ask_holds {c : Call} {Q : Option String → Reply c → World → Prop}
    (h : ∀ w', Rely once k w w' → Inv once final w' → (once → w'.allowsOnce c) →
      (final → w'.allowsFinal c) →
      ∃ k', (rules once final).Step k w' (w'.answer c).2 k' ∧
        (∀ a, (w'.answer c).1 = .ok a → Q k' a (w'.answer c).2) ∧
        ∀ e, (w'.answer c).1 = .error e → X k' e (w'.answer c).2)
    (hfault : ∀ w' typeName, Rely once k w w' → X k (.other typeName) w') :
    (ask c).HoldsAs (rules once final) k Q X w := by
  show (Prog.call c Prog.lift : Action (Reply c)).HoldsAs (rules once final) k Q X w
  apply Prog.holdsAs_ask (fun w => w.exec c) fun _ => rfl
  intro w' hr hi hc
  unfold World.exec
  split
  · exact h w' hr hi hc.1 hc.2
  · split
    · refine ⟨k, ⟨hi, fun _ _ => Rely.refl _ _, .inl rfl⟩, fun _ hok => (nomatch hok), ?_⟩
      intro e he
      cases he
      exact hfault w' _ hr
    · exact h w' hr hi hc.1 hc.2

/-- A call that reads. -/
theorem ask_read {c : Call} {Q : Option String → Reply c → World → Prop}
    (hread : ∀ w' : World, (w'.answer c).2 = w')
    (hok : ∀ (w' : World) a, Rely once k w w' → Inv once final w' → (w'.answer c).1 = .ok a → Q k a w')
    (herror : ∀ (w' : World) e, Rely once k w w' → Inv once final w' → (w'.answer c).1 = .error e →
      X k e w')
    (hfault : ∀ w' typeName, Rely once k w w' → X k (.other typeName) w') :
    (ask c).HoldsAs (rules once final) k Q X w := by
  apply ask_holds ?_ hfault
  intro w' hr hi _ _
  rw [hread w']
  exact ⟨k, ⟨hi, fun _ _ => Rely.refl _ _, .inl rfl⟩, fun a => hok w' a hr hi,
    fun e => herror w' e hr hi⟩

/-! ### What does not touch the receipts -/

/-- The tables of receipts, and what we note, are as they were. -/
structure World.SameReceipts (w w' : World) : Prop where
  receipts : w'.receipts = w.receipts
  history : w'.history = w.history
  starts : w'.starts = w.starts
  submissions : w'.submissions = w.submissions

theorem World.SameReceipts.rely {w' : World} (h : w.SameReceipts w') (hkeeps : w.Keeps w')
    (k : Option String) : Rely once k w w' where
  toKeeps := hkeeps
  receipts row hrow := ⟨row, h.receipts ▸ hrow, .refl row⟩
  history := ⟨[], by rw [h.history, List.append_nil], fun _ h => nomatch h⟩
  starts := ⟨[], by rw [h.starts, List.append_nil], fun _ h => nomatch h⟩
  owned _ _ _ hs := by
    unfold World.hasStarted at hs ⊢
    rwa [h.starts] at hs

theorem World.SameReceipts.step {w' : World} (h : w.SameReceipts w') (hkeeps : w.Keeps w')
    (hi : Inv once final w) : (rules once final).Step k w w' k := by
  have hr : Rely once none w w' := h.rely hkeeps none
  refine ⟨?_, fun other _ => h.rely hkeeps other, .inl rfl⟩
  constructor
  · rw [h.receipts]; exact hi.ids
  · rw [h.receipts]; exact hi.keys
  · intro row hrow
    rw [h.receipts] at hrow
    obtain ⟨device, hdevice, hhost⟩ := hi.bound row hrow
    obtain ⟨device', hdevice', hhost', -⟩ := hkeeps.devices _ _ hdevice
    exact ⟨device', hdevice', hhost'.trans hhost⟩
  · intro row hrow
    rw [h.receipts] at hrow
    exact hr.recorded (hi.recorded row hrow)
  · rw [h.history]; exact hi.lawful
  · rw [h.history, h.receipts]; exact hi.rows
  · intro s hs
    rw [h.starts] at hs
    obtain ⟨hclaimed, hrow⟩ := hi.starts s hs
    rw [h.receipts]
    exact ⟨hr.claimed hclaimed, hrow⟩
  · rw [h.history]; exact hi.reconciled
  · intro ho row hrow hclaimed
    rw [h.receipts] at hrow
    unfold World.claimed at hclaimed
    rw [h.history] at hclaimed
    exact hi.spent ho row hrow hclaimed
  · rw [h.receipts]; exact hi.readable
  · unfold World.claims; rw [h.history]; exact hi.claimedOnce
  · rw [h.starts]; exact hi.startedOnce
  · intro ho s hs
    rw [h.submissions] at hs
    exact hr.answered (hi.submissions ho s hs)
  · rw [h.history, h.starts]; exact hi.active

theorem change_step (hi : Inv once final w) (c : Change) :
    (rules once final).Step k w (w.change c) k := by
  cases c with
  | outside f => exact World.SameReceipts.step ⟨rfl, rfl, rfl, rfl⟩ (.same rfl rfl) hi
  | putDevice device =>
    show (rules once final).Step k w (w.putDevice device) k
    unfold World.putDevice
    split
    · exact World.SameReceipts.step ⟨rfl, rfl, rfl, rfl⟩ (.same rfl rfl) hi
    · have hsame : w.SameReceipts { w with devices := w.devices ++ [device] } := ⟨rfl, rfl, rfl, rfl⟩
      refine hsame.step ⟨?_, fun _ h => h⟩ hi
      intro id old hold
      exact ⟨old, find?_append_some hold, rfl, fun h => h⟩
  | putSession session =>
    show (rules once final).Step k w (w.putSession session) k
    unfold World.putSession
    split <;> exact World.SameReceipts.step ⟨rfl, rfl, rfl, rfl⟩ (.same rfl rfl) hi

theorem revokeDevice_step (hi : Inv once final w) (id : String) (now : Instant) :
    (rules once final).Step k w (w.revokeDevice id now).2 k := by
  unfold World.revokeDevice
  dsimp only
  have hstep : ∀ sessions, (rules once final).Step k w { w with
      devices := update w.devices (fun row => row.deviceId = id && row.revokedAt.isNone) fun row =>
        { row with revokedAt := some now, version := row.version + 1 }
      sessions := sessions } k := by
    intro sessions
    have hsame : w.SameReceipts { w with
        devices := update w.devices (fun row => row.deviceId = id && row.revokedAt.isNone) fun row =>
          { row with revokedAt := some now, version := row.version + 1 }
        sessions := sessions } := ⟨rfl, rfl, rfl, rfl⟩
    refine hsame.step ⟨?_, fun _ h => h⟩ hi
    intro other device hdevice
    unfold World.device? at hdevice ⊢
    dsimp only
    rw [find?_update, hdevice]
    · refine ⟨_, rfl, ?_, ?_⟩
      · dsimp only
        split <;> rfl
      · intro hrevoked
        dsimp only
        split
        · rfl
        · exact hrevoked
    · intro row _ _
      rfl
  split
  · exact hstep _
  · exact hstep _

theorem closeSession_step (hi : Inv once final w) (id : String) :
    (rules once final).Step k w (w.closeSession id).2 k := by
  unfold World.closeSession
  dsimp only
  split <;> exact World.SameReceipts.step ⟨rfl, rfl, rfl, rfl⟩ (.same rfl rfl) hi

theorem putHost_step (hi : Inv once final w) (host : HostInstance) :
    (rules once final).Step k w (w.putHost host) k := by
  unfold World.putHost
  split
  · have hsame : w.SameReceipts { w with
        hosts := update w.hosts (fun row => row.hostId = host.hostId) fun _ => host } :=
      ⟨rfl, rfl, rfl, rfl⟩
    refine hsame.step ⟨fun _ device h => ⟨device, h, rfl, fun hr => hr⟩, ?_⟩ hi
    intro id hid
    unfold World.host? at hid ⊢
    dsimp only
    rw [find?_update, Option.isSome_map]
    · exact hid
    · intro row _ hrow
      rw [of_decide_eq_true hrow]
  · have hsame : w.SameReceipts { w with hosts := w.hosts ++ [host] } := ⟨rfl, rfl, rfl, rfl⟩
    refine hsame.step ⟨fun _ device h => ⟨device, h, rfl, fun hr => hr⟩, ?_⟩ hi
    intro id hid
    obtain ⟨row, hrow⟩ := Option.isSome_iff_exists.mp hid
    exact Option.isSome_iff_exists.mpr ⟨row, find?_append_some hrow⟩

/-! ### Writes to receipts -/

theorem mem_claims {id : String} : id ∈ w.claims ↔ w.claimed id := by
  unfold World.claims World.claimed
  rw [List.mem_map]
  constructor
  · intro h
    obtain ⟨e, he, hid⟩ := h
    obtain ⟨hmem, hclaim⟩ := List.mem_filter.mp he
    exact ⟨e, hmem, hclaim, hid⟩
  · intro h
    obtain ⟨e, hmem, hclaim, hid⟩ := h
    exact ⟨e, List.mem_filter.mpr ⟨hmem, hclaim⟩, hid⟩

theorem row_unique (hi : Inv once final w) {a b : ReceiptRow} (ha : a ∈ w.receipts)
    (hb : b ∈ w.receipts) (hid : a.commandId = b.commandId) : a = b :=
  eq_of_key hi.ids ha hb hid

theorem receipt?_eq (hi : Inv once final w) {row : ReceiptRow} (hrow : row ∈ w.receipts) :
    w.receipt? row.commandId = some row := by
  unfold World.receipt?
  cases hfind : w.receipts.find? fun other => other.commandId = row.commandId with
  | none =>
    have hnone := List.find?_eq_none.mp hfind row hrow
    simp at hnone
  | some other =>
    have hid : other.commandId = row.commandId := by simpa using List.find?_some hfind
    rw [row_unique hi (List.mem_of_find?_eq_some hfind) hrow hid]

/-- A statement that is lawful on every receipt it matches. -/
structure Lawfully (once : Prop) (w : World) (writer : Writer) (p : ReceiptRow → Bool)
    (f : ReceiptRow → ReceiptRow) : Prop where
  same : ∀ row, (f row).SameCommand row
  allowed : ∀ row ∈ w.receipts, p row = true → writer.allows row (f row)
  spent : once → ∀ row ∈ w.receipts, p row = true → w.claimed row.commandId →
    (f row).status ≠ .received ∧ (f row).awaitsApproval = false
  readable : once → ∀ row ∈ w.receipts, p row = true → (f row).readable = true
  reconciled : once → writer = .reconcile → ∀ row, (f row).awaitsApproval = false

variable {writer : Writer} {p : ReceiptRow → Bool} {f : ReceiptRow → ReceiptRow}

/-- What a write adds to the history. -/
theorem mem_writes {e : ReceiptWrite} (he : e ∈ (w.write writer p f).history) :
    e ∈ w.history ∨ ∃ row ∈ w.receipts, p row = true ∧ e = w.noted writer (some row) (f row) := by
  cases List.mem_append.mp he with
  | inl hold => exact .inl hold
  | inr hnew =>
    obtain ⟨row, hrow, rfl⟩ := List.mem_map.mp hnew
    obtain ⟨hmem, hp⟩ := List.mem_filter.mp hrow
    exact .inr ⟨row, hmem, hp, rfl⟩

theorem Lawfully.rely (h : Lawfully once w writer p f) (k : Option String) :
    Rely once k w (w.write writer p f) where
  toKeeps := .same rfl rfl
  receipts row hrow := by
    refine ⟨if p row then f row else row, List.mem_map.mpr ⟨row, hrow, rfl⟩, ?_⟩
    split
    · exact h.same row
    · exact .refl row
  history := by
    refine ⟨_, rfl, fun e he hrevoked => ?_⟩
    obtain ⟨row, -, rfl⟩ := List.mem_map.mp he
    exact hrevoked.inactive
  starts := ⟨[], (List.append_nil _).symm, fun _ h => nomatch h⟩
  owned _ _ _ hs := hs

/-- A row after a write. -/
theorem mem_written {row : ReceiptRow} (hrow : row ∈ (w.write writer p f).receipts) :
    (∃ old ∈ w.receipts, p old = true ∧ row = f old) ∨ (row ∈ w.receipts ∧ p row = false) :=
  mem_update.mp hrow

/-- A write that is no claim, but for the claims. -/
theorem Lawfully.inv (h : Lawfully once w writer p f) (hi : Inv once final w)
    (hclaimed : once → ∀ id, (w.write writer p f).claimed id → w.claimed id ∨
      ∀ row ∈ (w.write writer p f).receipts, row.commandId = id →
        row.status ≠ .received ∧ row.awaitsApproval = false)
    (hclaims : once → (w.write writer p f).claims.Nodup)
    (hactive : final → ∀ e ∈ (w.write writer p f).history, e.isClaim = true →
      e.deviceActive = true ∧ e.hostActive = true) :
    Inv once final (w.write writer p f) := by
  have hr : Rely once none w (w.write writer p f) := h.rely none
  constructor
  · show ((update w.receipts p f).map ReceiptRow.commandId).Nodup
    rw [map_update _ fun row _ _ => (h.same row).id]
    exact hi.ids
  · show ((update w.receipts p f).map ReceiptRow.idempotencyKey).Nodup
    rw [map_update _ fun row _ _ => (h.same row).key]
    exact hi.keys
  · intro row hrow
    cases mem_written hrow with
    | inl hnew =>
      obtain ⟨old, hold, -, rfl⟩ := hnew
      rw [(h.same old).device, (h.same old).host]
      exact hi.bound old hold
    | inr hold => exact hi.bound row hold.1
  · intro row hrow
    cases mem_written hrow with
    | inl hnew =>
      obtain ⟨old, hold, hp, rfl⟩ := hnew
      refine ⟨w.noted writer (some old) (f old), ?_, rfl⟩
      exact List.mem_append_right _ (List.mem_map.mpr ⟨old, List.mem_filter.mpr ⟨hold, hp⟩, rfl⟩)
    | inr hold => exact hr.recorded (hi.recorded row hold.1)
  · intro e he
    cases mem_writes he with
    | inl hold => exact hi.lawful e hold
    | inr hnew =>
      obtain ⟨row, hrow, hp, rfl⟩ := hnew
      constructor
      · exact fun hn => nomatch hn
      · intro before hbefore
        cases hbefore
        exact h.same row
      · intro before hbefore
        cases hbefore
        exact h.allowed row hrow hp
  · intro e he
    have hrow : ∃ row ∈ w.receipts, row.commandId = e.after.commandId := by
      cases mem_writes he with
      | inl hold => exact hi.rows e hold
      | inr hnew =>
        obtain ⟨row, hrow, -, rfl⟩ := hnew
        exact ⟨row, hrow, (h.same row).id.symm⟩
    obtain ⟨row, hmem, hid⟩ := hrow
    obtain ⟨row', hrow', hsame⟩ := hr.receipts row hmem
    exact ⟨row', hrow', hsame.id.trans hid⟩
  · intro s hs
    obtain ⟨hc, row, hrow, hid, hdevice, hkey⟩ := hi.starts s hs
    obtain ⟨row', hrow', hsame⟩ := hr.receipts row hrow
    exact ⟨hr.claimed hc, row', hrow', hsame.id.trans hid, hsame.device.trans hdevice,
      (congrArg some hsame.key).trans hkey⟩
  · intro ho e he hreconcile
    cases mem_writes he with
    | inl hold => exact hi.reconciled ho e hold hreconcile
    | inr hnew =>
      obtain ⟨row, -, -, rfl⟩ := hnew
      exact h.reconciled ho hreconcile row
  · intro ho row hrow hc
    cases hclaimed ho _ hc with
    | inr hspent => exact hspent row hrow rfl
    | inl hc =>
      cases mem_written hrow with
      | inl hnew =>
        obtain ⟨old, hold, hp, rfl⟩ := hnew
        rw [(h.same old).id] at hc
        exact h.spent ho old hold hp hc
      | inr hold => exact hi.spent ho row hold.1 hc
  · intro ho row hrow
    cases mem_written hrow with
    | inl hnew =>
      obtain ⟨old, hold, hp, rfl⟩ := hnew
      exact h.readable ho old hold hp
    | inr hold => exact hi.readable ho row hold.1
  · exact hclaims
  · exact hi.startedOnce
  · intro ho s hs
    exact hr.answered (hi.submissions ho s hs)
  · intro hf
    exact ⟨hactive hf, (hi.active hf).2⟩

/-- A write that is no claim. -/
theorem Lawfully.step (h : Lawfully once w writer p f) (hi : Inv once final w)
    (hwriter : ∀ row, (w.noted writer (some row) (f row)).isClaim = false) :
    (rules once final).Step k w (w.write writer p f) k := by
  have hfilter : (w.write writer p f).history.filter ReceiptWrite.isClaim =
      w.history.filter ReceiptWrite.isClaim := by
    have hnone : ((w.receipts.filter p).map fun row => w.noted writer (some row) (f row)).filter
        ReceiptWrite.isClaim = [] := by
      rw [List.filter_eq_nil_iff]
      intro e he
      obtain ⟨row, -, rfl⟩ := List.mem_map.mp he
      rw [hwriter row]
      exact Bool.false_ne_true
    show (w.history ++ _).filter ReceiptWrite.isClaim = _
    rw [List.filter_append, hnone, List.append_nil]
  have hsame : (w.write writer p f).claims = w.claims := by
    unfold World.claims
    rw [hfilter]
  refine ⟨h.inv hi ?_ ?_ ?_, fun other _ => h.rely other, .inl rfl⟩
  · intro _ id hc
    left
    rw [← mem_claims] at hc ⊢
    rwa [hsame] at hc
  · intro ho
    rw [hsame]
    exact hi.claimedOnce ho
  · intro hf e he hclaim
    have hmem : e ∈ (w.write writer p f).history.filter ReceiptWrite.isClaim :=
      List.mem_filter.mpr ⟨he, hclaim⟩
    rw [hfilter] at hmem
    exact (hi.active hf).1 e (List.mem_filter.mp hmem).1 hclaim

/-- The same, where it wants one row. -/
theorem Lawfully.stepOne (h : Lawfully once w writer p f) (hi : Inv once final w)
    (hwriter : ∀ row, (w.noted writer (some row) (f row)).isClaim = false) (message : String) :
    (rules once final).Step k w (w.writeOne writer p f message).2 k := by
  unfold World.writeOne
  split
  · exact ⟨hi, fun _ _ => Rely.refl _ _, .inl rfl⟩
  · exact h.step hi hwriter

theorem writeOne_error {message : String} {e : Raised}
    (h : (w.writeOne writer p f message).1 = .error e) :
    e = .conflict message ∧ (w.receipts.filter p).length ≠ 1 := by
  unfold World.writeOne at h
  split at h
  · rename_i hcount
    cases h
    exact ⟨rfl, hcount⟩
  · cases h

theorem endOne_step {status : RemoteCommandStatus} {resultRef errorCode : Option String}
    {hostAck : Option Instant} (hi : Inv once final w)
    (h : ∀ closed : status.isOpen = false, Lawfully once w writer p fun row =>
      row.ended status closed resultRef errorCode (row.hostAcknowledgedAt <|> hostAck))
    (hwriter : ∀ before after, (w.noted writer before after).isClaim = false) (message : String) :
    (rules once final).Step k w (w.endOne writer p status resultRef errorCode hostAck message).2 k := by
  unfold World.endOne
  split
  · rename_i hfits
    exact (h hfits.1).stepOne hi (fun _ => hwriter _ _) message
  · split <;> exact ⟨hi, fun _ _ => Rely.refl _ _, .inl rfl⟩

theorem endOne_error {status : RemoteCommandStatus} {resultRef errorCode : Option String}
    {hostAck : Option Instant} {message : String} {e : Raised}
    (h : (w.endOne writer p status resultRef errorCode hostAck message).1 = .error e) :
    e.isConflict = true ∨ e.fromBelow = true := by
  unfold World.endOne at h
  split at h
  · rw [(writeOne_error h).1]
    exact .inl rfl
  · split at h
    · cases h
      exact .inr rfl
    · cases h
      exact .inl rfl

/-- A status that ends an execution, where what is stored with it can be read. -/
theorem ended_lawfully {status : RemoteCommandStatus} (closed : status.isOpen = false)
    {resultRef errorCode : Option String} {hostAck : ReceiptRow → Option Instant}
    (hallowed : ∀ row ∈ w.receipts, p row = true →
      writer.allows row (row.ended status closed resultRef errorCode (hostAck row)))
    (hspent : once → ∀ row ∈ w.receipts, p row = true → w.claimed row.commandId →
      reopens status errorCode = false)
    (hfits : once → fits resultRef = true)
    (hreconciled : once → writer = .reconcile → reopens status errorCode = false) :
    Lawfully once w writer p fun row => row.ended status closed resultRef errorCode (hostAck row) where
  same _ := ⟨rfl, rfl, rfl, rfl⟩
  allowed := hallowed
  spent ho row hrow hp hclaimed := by
    refine ⟨fun hreceived => ?_, hspent ho row hrow hp hclaimed⟩
    have hstatus : status = .received := hreceived
    rw [hstatus] at closed
    exact nomatch closed
  readable ho _ _ _ := hfits ho
  reconciled ho hreconcile _ := hreconciled ho hreconcile

/-! ### The calls that write -/

theorem renew_step (hi : Inv once final w) (id ownerId : String) (leaseExpiresAt : Instant) :
    (rules once final).Step k w (w.renewCommandExecutionLease id ownerId leaseExpiresAt).2 k := by
  unfold World.renewCommandExecutionLease
  apply Lawfully.stepOne ?_ hi fun _ => rfl
  constructor
  · exact fun _ => ⟨rfl, rfl, rfl, rfl⟩
  · intro row _ hp
    simp only [Bool.and_eq_true, decide_eq_true_eq] at hp
    exact ⟨hp.1.2, hp.1.2⟩
  · exact fun ho row hrow _ hclaimed => hi.spent ho row hrow hclaimed
  · exact fun ho row hrow _ => hi.readable ho row hrow
  · exact fun _ h => nomatch h

theorem setCommandStatus_step (hi : Inv once final w) {id ownerId : String}
    {status expected : RemoteCommandStatus} {now : Instant} {resultRef errorCode : Option String}
    {hostAck : Bool} (hcode : once → expected = .received ∨ reopens status errorCode = false)
    (hfits : once → fits resultRef = true) :
    (rules once final).Step k w
      (w.setCommandStatus id status expected ownerId now resultRef errorCode hostAck).2 k := by
  unfold World.setCommandStatus
  apply endOne_step hi ?_ fun _ _ => rfl
  intro closed
  apply ended_lawfully closed ?_ ?_ hfits ?_
  · intro row _ hp
    simp only [Bool.and_eq_true] at hp
    refine ⟨?_, closed⟩
    rw [← row.held]
    unfold ReceiptRow.ownedBy at hp
    cases hexecution : row.execution with
    | none =>
      rw [hexecution] at hp
      exact nomatch hp.2
    | some held => rfl
  · intro ho row hrow hp hclaimed
    cases hcode ho with
    | inl hreceived =>
      simp only [Bool.and_eq_true, decide_eq_true_eq] at hp
      exact absurd (hp.1.2.trans hreceived) (hi.spent ho row hrow hclaimed).1
    | inr hreopens => exact hreopens
  · exact fun _ h => nomatch h

theorem reconcileCommand_step (hi : Inv once final w) {id : String} {status : RemoteCommandStatus}
    {resultRef errorCode : Option String}
    (hallows : once → fits resultRef = true ∧ reopens status errorCode = false) :
    (rules once final).Step k w (w.reconcileCommand id status resultRef errorCode).2 k := by
  unfold World.reconcileCommand
  apply endOne_step hi ?_ fun _ _ => rfl
  intro closed
  apply ended_lawfully closed ?_ ?_ (fun ho => (hallows ho).1) fun ho _ => (hallows ho).2
  · intro row _ hp
    simp only [Bool.and_eq_true, decide_eq_true_eq] at hp
    exact ⟨hp.2, closed⟩
  · exact fun ho _ _ _ _ => (hallows ho).2

/-- One of the two statements of a sweep. -/
theorem sweep_lawfully (hi : Inv once final w) (now : Instant) (before status : RemoteCommandStatus)
    (code : String) (hopen : before.isOpen = true) (closed : status.isOpen = false)
    (hcode : code ≠ "remote.approval_required") :
    Lawfully once w (.sweep now) (fun row => row.status = before && row.expired now) fun row =>
      row.ended status closed row.resultRef code row.hostAcknowledgedAt where
  same _ := ⟨rfl, rfl, rfl, rfl⟩
  allowed row _ hp := by
    simp only [Bool.and_eq_true, decide_eq_true_eq] at hp
    refine ⟨?_, closed⟩
    rw [hp.1]
    exact hopen
  spent _ row _ _ _ := by
    constructor
    · intro hreceived
      have hstatus : status = .received := hreceived
      rw [hstatus] at closed
      exact nomatch closed
    · have hne : some code ≠ some "remote.approval_required" := fun h => hcode (Option.some.inj h)
      show (_ && decide (some code = some "remote.approval_required")) = false
      rw [decide_eq_false hne, Bool.and_false]
  readable ho row hrow _ := hi.readable ho row hrow
  reconciled _ h := nomatch h

theorem sweep_step (hi : Inv once final w) (now : Instant) :
    (rules once final).Step k w (w.reconcileIncompleteCommands now) k := by
  unfold World.reconcileIncompleteCommands
  dsimp only
  have hfirst := (sweep_lawfully hi now .accepted .outcomeUnknown
    "remote.manual_reconcile_required" rfl rfl (by decide)).step (k := k) hi fun _ => rfl
  have hsecond := (sweep_lawfully hfirst.inv now .received .rejected
    "remote.interrupted_before_execution" rfl rfl (by decide)).step (k := k) hfirst.inv fun _ => rfl
  refine ⟨hsecond.inv, ?_, .inl rfl⟩
  intro other hother
  apply (hfirst.others other hother).trans
  apply hsecond.others other
  intro t ht
  exact ⟨(hother t ht).1, (hfirst.others none fun _ hn => nomatch hn).claimed (hother t ht).2⟩

end Rules
end Operant.RemoteControl
