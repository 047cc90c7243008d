import Operant.RemoteControl.Steps

/-! The calls of a submission: it reserves its receipt, claims the execution, and starts the
executor as the owner of that claim. -/
namespace Operant.RemoteControl
open Operant.Tables Operant.Calls Operant.Security
open Operant.Scheduler (Instant seconds)

section Rules
variable {once final : Prop} {k : Option String} {w : World}
  {X : Option String → Raised → World → Prop}

/-- What the checks of a submission have found, as far as it lasts. -/
structure Checked (command : EncryptedRemoteCommand) (host : HostInstance) (device : RemoteDevice)
    (w : World) : Prop where
  hostId : host.hostId = command.hostId
  active : host.isActive = true
  deviceId : device.deviceId = command.deviceId
  unrevoked : device.revokedAt = none
  device : ∃ row, w.device? command.deviceId = some row ∧ row.hostId = command.hostId
  host : (w.host? command.hostId).isSome = true

/-- The command has a receipt, of its device. -/
def Reserved (command : EncryptedRemoteCommand) (w : World) : Prop :=
  ∃ row ∈ w.receipts, row.commandId = command.commandId ∧ row.deviceId = command.deviceId

theorem Checked.later {command : EncryptedRemoteCommand} {host : HostInstance} {device : RemoteDevice}
    {w' : World} (h : Checked command host device w) (hr : Rely once k w w') :
    Checked command host device w' := by
  refine { h with device := ?_, host := hr.hosts _ h.host }
  obtain ⟨row, hrow, hhost⟩ := h.device
  obtain ⟨row', hrow', hhost', -⟩ := hr.devices _ _ hrow
  exact ⟨row', hrow', hhost'.trans hhost⟩

theorem Reserved.later {command : EncryptedRemoteCommand} {w' : World} (h : Reserved command w)
    (hr : Rely once k w w') : Reserved command w' := by
  obtain ⟨row, hrow, hid, hdevice⟩ := h
  obtain ⟨row', hrow', hsame⟩ := hr.receipts row hrow
  exact ⟨row', hrow', hsame.id.trans hid, hsame.device.trans hdevice⟩

/-- The device and the host are active as long as they have been since the checks. -/
theorem Checked.stillActive {command : EncryptedRemoteCommand} {claimant : Claimant}
    (h : Checked command claimant.host claimant.device w) (hsince : w.activeSince claimant) :
    w.deviceActive command.deviceId = true ∧ w.hostActive command.hostId = true := by
  constructor
  · obtain ⟨device, hfound, -⟩ := h.device
    have hsame := hsince.1 device (by rw [h.deviceId]; exact hfound)
    unfold World.deviceActive
    rw [hfound, Option.any_some, hsame, h.unrevoked]
    rfl
  · obtain ⟨host, hsome⟩ := Option.isSome_iff_exists.mp h.host
    have hsame := hsince.2 host (by rw [h.hostId]; exact hsome)
    unfold World.hostActive
    rw [hsome, Option.any_some, hsame]
    exact h.active

/-- A receipt is of the device and the host of its command. -/
theorem Checked.bound {command : EncryptedRemoteCommand} {host : HostInstance} {device : RemoteDevice}
    (h : Checked command host device w) (hreserved : Reserved command w) (hi : Inv once final w)
    {row : ReceiptRow} (hrow : row ∈ w.receipts) (hid : row.commandId = command.commandId) :
    row.deviceId = command.deviceId ∧ row.hostId = command.hostId := by
  obtain ⟨own, hown, hid', hdevice⟩ := hreserved
  obtain rfl := row_unique hi hrow hown (hid.trans hid'.symm)
  obtain ⟨device, hfound, hhost⟩ := h.device
  obtain ⟨device', hfound', hhost'⟩ := hi.bound row hrow
  rw [hdevice, hfound] at hfound'
  cases hfound'
  exact ⟨hdevice, hhost'.symm.trans hhost⟩

/-- A statement that claims: the command had not been claimed before. -/
theorem claim_lawfully (claimant : Claimant) {id ownerId : String}
    {leaseExpiresAt now : Instant} :
    Lawfully once w (.claim claimant) (fun row => row.commandId = id && row.claimableBy ownerId)
      fun row => row.claimed ownerId leaseExpiresAt now where
  same _ := ⟨rfl, rfl, rfl, rfl⟩
  allowed row _ hp := by
    simp only [ReceiptRow.claimableBy, Bool.and_eq_true, Bool.or_eq_true, decide_eq_true_eq] at hp
    exact ⟨hp.2.imp_left fun h => h.1, rfl⟩
  spent _ _ _ _ _ := ⟨nofun, rfl⟩
  readable _ _ _ _ := rfl
  reconciled _ h := nomatch h

theorem unclaimed_of_claimable (hi : Inv once final w) (ho : once) {row : ReceiptRow} {ownerId : String}
    (hrow : row ∈ w.receipts) (hclaimable : row.claimableBy ownerId = true) :
    ¬w.claimed row.commandId := by
  intro hclaimed
  obtain ⟨hreceived, hawaits⟩ := hi.spent ho row hrow hclaimed
  simp only [ReceiptRow.claimableBy, Bool.or_eq_true, Bool.and_eq_true, decide_eq_true_eq] at hclaimable
  cases hclaimable with
  | inl h => exact hreceived h.1
  | inr h =>
    rw [h] at hawaits
    exact nomatch hawaits

/-- The write of a claim is of one row, and notes one claim. -/
theorem claims_of_write (hi : Inv once final w) (claimant : Claimant) {id ownerId : String}
    (leaseExpiresAt now : Instant) {row : ReceiptRow} (hrow : row ∈ w.receipts)
    (hid : row.commandId = id) (hclaimable : row.claimableBy ownerId = true) :
    (w.write (.claim claimant) (fun row => row.commandId = id && row.claimableBy ownerId)
      fun row => row.claimed ownerId leaseExpiresAt now).history =
    w.history ++ [w.noted (.claim claimant) (some row) (row.claimed ownerId leaseExpiresAt now)] := by
  have hfilter : w.receipts.filter (fun row => row.commandId = id && row.claimableBy ownerId) = [row] := by
    have hp : (row.commandId = id && row.claimableBy ownerId) = true := by
      rw [hid, hclaimable, decide_eq_true rfl]
      rfl
    have hone := rowcount_of_key hi.ids (k := id)
      (p := fun row => row.commandId = id && row.claimableBy ownerId) (by
        intro other _ hother
        rw [Bool.and_eq_true] at hother
        exact of_decide_eq_true hother.1) hrow hp
    obtain ⟨only, honly⟩ := List.length_eq_one_iff.mp hone
    have hmem : row ∈ w.receipts.filter fun row => row.commandId = id && row.claimableBy ownerId :=
      List.mem_filter.mpr ⟨hrow, hp⟩
    rw [honly, List.mem_singleton] at hmem
    rw [honly, hmem]
  show w.history ++ _ = _
  rw [hfilter]
  rfl

theorem claim_inv (hi : Inv once final w) (claimant : Claimant) {id ownerId : String}
    (leaseExpiresAt now : Instant) {row : ReceiptRow} (hrow : row ∈ w.receipts)
    (hid : row.commandId = id) (hclaimable : row.claimableBy ownerId = true)
    (hactive : final → w.deviceActive row.deviceId = true ∧ w.hostActive row.hostId = true) :
    Inv once final (w.write (.claim claimant)
      (fun row => row.commandId = id && row.claimableBy ownerId)
      fun row => row.claimed ownerId leaseExpiresAt now) := by
  have hhistory := claims_of_write hi claimant leaseExpiresAt now hrow hid hclaimable
  apply (claim_lawfully claimant).inv hi
  · intro _ other hclaimed
    obtain ⟨e, he, hclaim, hother⟩ := hclaimed
    rw [hhistory] at he
    cases List.mem_append.mp he with
    | inl hold => exact .inl ⟨e, hold, hclaim, hother⟩
    | inr hnew =>
      right
      rw [List.mem_singleton.mp hnew] at hother
      intro row' hrow' hid'
      cases mem_written hrow' with
      | inl hwritten =>
        obtain ⟨old, -, -, rfl⟩ := hwritten
        exact ⟨nofun, rfl⟩
      | inr hkept =>
        -- Another row is of another command.
        obtain rfl := row_unique hi hkept.1 hrow (hid'.trans hother.symm)
        have hp := hkept.2
        rw [hid, hclaimable, decide_eq_true rfl] at hp
        exact nomatch hp
  · intro ho
    have hclaims : ∀ {w' : World}, w'.history = w.history ++
        [w.noted (.claim claimant) (some row) (row.claimed ownerId leaseExpiresAt now)] →
        w'.claims = w.claims ++ [id] := by
      intro w' heq
      unfold World.claims
      rw [heq, List.filter_append, List.map_append, ← hid]
      rfl
    rw [hclaims hhistory, List.nodup_append]
    refine ⟨hi.claimedOnce ho, List.nodup_singleton _, ?_⟩
    intro a ha b hb heq
    rw [List.mem_singleton.mp hb] at heq
    rw [heq, mem_claims, ← hid] at ha
    exact unclaimed_of_claimable hi ho hrow hclaimable ha
  · intro hf e he hclaim
    rw [hhistory] at he
    cases List.mem_append.mp he with
    | inl hold => exact (hi.active hf).1 e hold hclaim
    | inr hnew =>
      rw [List.mem_singleton.mp hnew]
      exact hactive hf

/-- The claim of an execution issues the ticket. -/
theorem claim_holds {command : EncryptedRemoteCommand} {claimant : Claimant}
    {leaseExpiresAt now : Instant} {ownerId : String} {Q : Option String → Unit → World → Prop}
    (hchecked : Checked command claimant.host claimant.device w) (hreserved : Reserved command w)
    (hok : ∀ k' w', w'.claimed command.commandId → Rely once none w w' →
      (once → k' = some command.commandId ∧ ¬w'.hasStarted command.commandId) → Q k' () w')
    (herror : ∀ e w', (once → claimant.resubmitted = true → e.fromBelow = true) → X none e w') :
    (ask (.claimCommandExecution command.commandId ownerId leaseExpiresAt now claimant)).HoldsAs
      (rules once final) none Q X w := by
  apply ask_holds ?_ fun w' typeName _ => herror _ _ fun _ _ => rfl
  intro w' hr hi honce hfinal
  have hidle : (rules once final).Step none w' w' none := .idle hi
  show ∃ k', (rules once final).Step none w' (w'.claimCommandExecution _ _ _ _ _).2 k' ∧ _
  dsimp only [World.answer]
  unfold World.claimCommandExecution
  dsimp only
  split
  · refine ⟨none, hidle, fun _ h => (nomatch h), fun e he => ?_⟩
    cases he
    exact herror _ _ fun _ _ => rfl
  · unfold World.writeOne
    split
    · rename_i hcount
      refine ⟨none, hidle, fun _ h => (nomatch h), fun e he => ?_⟩
      apply herror
      intro ho hresubmitted
      -- What awaits its approval can be claimed.
      obtain ⟨row, hrow, hawaits⟩ := List.any_eq_true.mp (honce ho hresubmitted)
      simp only [Bool.and_eq_true, decide_eq_true_eq] at hawaits
      refine absurd (rowcount_of_key hi.ids (k := command.commandId) ?_ hrow ?_) hcount
      · intro other _ hother
        rw [Bool.and_eq_true] at hother
        exact of_decide_eq_true hother.1
      · simp [ReceiptRow.claimableBy, hawaits]
    · rename_i hcount
      obtain ⟨row, hrow, hp⟩ := exists_of_rowcount (not_not.mp hcount)
      rw [Bool.and_eq_true, decide_eq_true_eq] at hp
      have hlawfully : Lawfully once w' (.claim claimant)
          (fun row => row.commandId = command.commandId && row.claimableBy ownerId)
          fun row => row.claimed ownerId leaseExpiresAt now := claim_lawfully claimant
      have hinv := claim_inv hi claimant leaseExpiresAt now hrow hp.1 hp.2 (by
        intro hf
        obtain ⟨hdevice, hhost⟩ := (hchecked.later hr).bound (hreserved.later hr) hi hrow hp.1
        rw [hdevice, hhost]
        exact (hchecked.later hr).stillActive (hfinal hf))
      have hclaimed : (w'.write (.claim claimant)
          (fun row => row.commandId = command.commandId && row.claimableBy ownerId)
          fun row => row.claimed ownerId leaseExpiresAt now).claimed command.commandId := by
        refine ⟨w'.noted (.claim claimant) (some row) (row.claimed ownerId leaseExpiresAt now), ?_,
          rfl, hp.1⟩
        rw [claims_of_write hi claimant leaseExpiresAt now hrow hp.1 hp.2]
        exact List.mem_append_right _ (List.mem_singleton_self _)
      have hlater := hr.weak.trans (hlawfully.rely none)
      by_cases ho : once
      · have hfresh : ¬w'.claimed command.commandId := by
          rw [← hp.1]
          exact unclaimed_of_claimable hi ho hrow hp.2
        refine ⟨some command.commandId, ⟨hinv, fun other _ => hlawfully.rely other,
          .inr (.inr ⟨_, rfl, hfresh, hclaimed⟩)⟩, fun _ _ => ?_, fun _ h => (nomatch h)⟩
        apply hok _ _ hclaimed hlater
        intro _
        refine ⟨rfl, fun hstarted => ?_⟩
        obtain ⟨s, hs, hid⟩ := hstarted
        rw [← hid] at hfresh
        exact hfresh (hi.starts s hs).1
      · exact ⟨none, ⟨hinv, fun other _ => hlawfully.rely other, .inl rfl⟩,
          fun _ _ => hok _ _ hclaimed hlater fun h => absurd h ho, fun _ h => (nomatch h)⟩

theorem started_rely (id : String) (claimant : Claimant) (k : Option String)
    (hother : once → ∀ t, k = some t → id ≠ t) : Rely once k w (w.started id claimant) where
  toKeeps := .same rfl rfl
  receipts row hrow := ⟨row, hrow, .refl row⟩
  history := ⟨[], (List.append_nil _).symm, fun _ h => nomatch h⟩
  starts := by
    refine ⟨_, rfl, fun s hs hrevoked => ?_⟩
    rw [List.mem_singleton.mp hs] at hrevoked ⊢
    exact hrevoked.inactive
  owned ho t ht hs := by
    obtain ⟨s, hs, hid⟩ := hs
    cases List.mem_append.mp hs with
    | inl hold => exact ⟨s, hold, hid⟩
    | inr hnew =>
      rw [List.mem_singleton.mp hnew] at hid
      exact absurd hid (hother ho t ht)

theorem started_inv (hi : Inv once final w) {claimant : Claimant} {row : ReceiptRow}
    (hrow : row ∈ w.receipts) (hdevice : row.deviceId = claimant.device.deviceId)
    (hclaimed : w.claimed row.commandId) (hfresh : once → ¬w.hasStarted row.commandId)
    (hactive : final → w.deviceActive claimant.device.deviceId = true ∧
      w.hostActive claimant.host.hostId = true) :
    Inv once final (w.started row.commandId claimant) := by
  refine { hi with starts := ?_, startedOnce := ?_, submissions := ?_, active := ?_ }
  · intro s hs
    cases List.mem_append.mp hs with
    | inl hold => exact hi.starts s hold
    | inr hnew =>
      rw [List.mem_singleton.mp hnew]
      exact ⟨hclaimed, row, hrow, rfl, hdevice, by rw [receipt?_eq hi hrow]; rfl⟩
  · intro ho
    show ((w.starts ++ _).map Start.commandId).Nodup
    rw [List.map_append, List.nodup_append]
    refine ⟨hi.startedOnce ho, List.nodup_singleton _, ?_⟩
    intro a ha b hb heq
    rw [List.mem_singleton.mp hb] at heq
    obtain ⟨s, hs, hid⟩ := List.mem_map.mp ha
    exact hfresh ho ⟨s, hs, hid.trans heq⟩
  · intro ho s hs
    have hr : Rely once none w (w.started row.commandId claimant) :=
      started_rely _ _ none fun _ _ hn => nomatch hn
    exact hr.answered (hi.submissions ho s hs)
  · intro hf
    refine ⟨(hi.active hf).1, fun s hs => ?_⟩
    cases List.mem_append.mp hs with
    | inl hold => exact (hi.active hf).2 s hold
    | inr hnew =>
      rw [List.mem_singleton.mp hnew]
      exact hactive hf

/-- Only the owner of a claim starts the executor, and only once. -/
theorem execute_holds {command : EncryptedRemoteCommand} {claimant : Claimant}
    {payload : RemoteActionPayload} {Q : Option String → Option String → World → Prop}
    (hchecked : Checked command claimant.host claimant.device w) (hreserved : Reserved command w)
    (hclaimed : w.claimed command.commandId)
    (hticket : once → k = some command.commandId ∧ ¬w.hasStarted command.commandId)
    (hok : ∀ a w', Reserved command w' → Q k a w')
    (herror : ∀ e w', Reserved command w' →
      (once → ∀ message statusCode, e ≠ .remote "remote.approval_required" message statusCode) →
      X k e w') :
    (ask (.execute command.commandId payload claimant)).HoldsAs (rules once final) k Q X w := by
  apply ask_holds
  · intro w' hr hi honce hfinal
    obtain ⟨row, hrow, hid, hdevice⟩ := hreserved.later hr
    rw [← hid] at hclaimed hticket
    have hfresh : once → ¬w'.hasStarted row.commandId := fun ho hs =>
      (hticket ho).2 (hr.owned ho _ (hticket ho).1 hs)
    have hinv : Inv once final (w'.started row.commandId claimant) := by
      apply started_inv hi hrow (hdevice.trans hchecked.deviceId.symm) (hr.claimed hclaimed) hfresh
      intro hf
      rw [hchecked.deviceId, hchecked.hostId]
      exact (hchecked.later hr).stillActive (hfinal hf)
    have hreserved' : Reserved command (w'.started row.commandId claimant) := ⟨row, hrow, hid, hdevice⟩
    show ∃ k', (rules once final).Step k w' (w'.started command.commandId claimant) k' ∧ _
    rw [← hid]
    refine ⟨k, ⟨hinv, ?_, .inl rfl⟩, fun a _ => ?_, fun e he => ?_⟩
    · intro other hother
      apply started_rely _ _ other
      intro ho t ht heq
      rw [heq] at hticket
      exact (hother t ht).1 (hticket ho).1
    · exact hok a _ hreserved'
    · apply herror
      · exact hreserved'
      · intro ho message statusCode heq
        have hasks : w'.asksApproval = false := honce ho
        have he : w'.outside.execute = .error e := he
        unfold World.asksApproval at hasks
        rw [he, heq] at hasks
        simp at hasks
  · intro w' typeName hr
    exact herror _ _ (hreserved.later hr) fun _ _ _ h => nomatch h

/-- A receipt that is there is read as it was recorded. -/
theorem getCommand_holds {command : EncryptedRemoteCommand}
    {Q : Option String → RemoteCommandReceipt → World → Prop} (hreserved : Reserved command w)
    (hok : ∀ w' receipt, Rely once k w w' → receipt.commandId = command.commandId → w'.recorded receipt →
      Q k receipt w')
    (herror : ∀ w' e, Rely once k w w' → (once → e.fromBelow = true) → X k e w') :
    (ask (.getCommand command.commandId)).HoldsAs (rules once final) k Q X w := by
  have hread : ∀ w', Rely once k w w' → Inv once final w' → ∃ row ∈ w'.receipts,
      row.commandId = command.commandId ∧ w'.getCommand command.commandId =
        if row.readable then .ok row.receipt else .error .validation := by
    intro w' hr hi
    obtain ⟨row, hrow, hid, -⟩ := hreserved.later hr
    refine ⟨row, hrow, hid, ?_⟩
    unfold World.getCommand
    rw [← hid, receipt?_eq hi hrow]
  apply ask_read (fun _ => rfl)
  · intro w' receipt hr hi ha
    obtain ⟨row, hrow, hid, heq⟩ := hread w' hr hi
    have ha : w'.getCommand command.commandId = .ok receipt := ha
    rw [heq] at ha
    split at ha
    · cases ha
      exact hok w' _ hr hid (hi.recorded row hrow)
    · exact nomatch ha
  · intro w' e hr hi he
    obtain ⟨row, hrow, -, heq⟩ := hread w' hr hi
    have he : w'.getCommand command.commandId = .error e := he
    rw [heq] at he
    split at he
    · exact nomatch he
    · rename_i hunreadable
      exact herror w' e hr fun ho => absurd (hi.readable ho row hrow) hunreadable
  · exact fun w' typeName hr => herror w' _ hr fun _ => rfl

theorem received_inv (hi : Inv once final w) {reservation : Reservation}
    (hfresh : ∀ old ∈ w.receipts, old.commandId ≠ reservation.command.commandId ∧
      old.idempotencyKey ≠ reservation.command.idempotencyKey)
    (hdevice : ∃ device, w.device? reservation.command.deviceId = some device ∧
      device.hostId = reservation.command.hostId) {w' : World}
    (hreceipts : w'.receipts = w.receipts ++ [World.received reservation])
    (hhistory : w'.history = w.history ++ [w.noted .reserve none (World.received reservation)])
    (hr : Rely once none w w') (hstarts : w'.starts = w.starts)
    (hsubmissions : w'.submissions = w.submissions) : Inv once final w' := by
  have hmem : ∀ {row}, row ∈ w'.receipts → row ∈ w.receipts ∨ row = World.received reservation := by
    intro row hrow
    rw [hreceipts] at hrow
    exact (List.mem_append.mp hrow).imp_right List.mem_singleton.mp
  have hwritten : ∀ {e}, e ∈ w'.history →
      e ∈ w.history ∨ e = w.noted .reserve none (World.received reservation) := by
    intro e he
    rw [hhistory] at he
    exact (List.mem_append.mp he).imp_right List.mem_singleton.mp
  have hclaims : w'.claims = w.claims := by
    unfold World.claims
    rw [hhistory, List.filter_append, List.map_append]
    exact List.append_nil _
  have hkept : ∀ row ∈ w.receipts, row ∈ w'.receipts := by
    intro row hrow
    rw [hreceipts]
    exact List.mem_append_left _ hrow
  have hnew : World.received reservation ∈ w'.receipts := by
    rw [hreceipts]
    exact List.mem_append_right _ (List.mem_singleton_self _)
  constructor
  · rw [hreceipts, List.map_append, List.nodup_append]
    refine ⟨hi.ids, List.nodup_singleton _, ?_⟩
    intro a ha b hb heq
    obtain ⟨old, hold, rfl⟩ := List.mem_map.mp ha
    rw [List.mem_singleton.mp hb] at heq
    exact (hfresh old hold).1 heq
  · rw [hreceipts, List.map_append, List.nodup_append]
    refine ⟨hi.keys, List.nodup_singleton _, ?_⟩
    intro a ha b hb heq
    obtain ⟨old, hold, rfl⟩ := List.mem_map.mp ha
    rw [List.mem_singleton.mp hb] at heq
    exact (hfresh old hold).2 heq
  · intro row hrow
    have hbound : ∃ device, w.device? row.deviceId = some device ∧ device.hostId = row.hostId := by
      cases hmem hrow with
      | inl hold => exact hi.bound row hold
      | inr heq =>
        rw [heq]
        exact hdevice
    obtain ⟨device, hfound, hhost⟩ := hbound
    obtain ⟨device', hfound', hhost', -⟩ := hr.devices _ _ hfound
    exact ⟨device', hfound', hhost'.trans hhost⟩
  · intro row hrow
    cases hmem hrow with
    | inl hold => exact hr.recorded (hi.recorded row hold)
    | inr heq =>
      rw [heq]
      refine ⟨w.noted .reserve none (World.received reservation), ?_, rfl⟩
      rw [hhistory]
      exact List.mem_append_right _ (List.mem_singleton_self _)
  · intro e he
    cases hwritten he with
    | inl hold => exact hi.lawful e hold
    | inr heq =>
      rw [heq]
      exact ⟨fun _ => rfl, (fun _ h => nomatch h), fun _ h => nomatch h⟩
  · intro e he
    cases hwritten he with
    | inl hold =>
      obtain ⟨row, hrow, hid⟩ := hi.rows e hold
      exact ⟨row, hkept row hrow, hid⟩
    | inr heq =>
      rw [heq]
      exact ⟨_, hnew, rfl⟩
  · intro s hs
    rw [hstarts] at hs
    obtain ⟨hclaimed, row, hrow, hid, hdevice, hkey⟩ := hi.starts s hs
    exact ⟨hr.claimed hclaimed, row, hkept row hrow, hid, hdevice, hkey⟩
  · intro ho e he hreconcile
    cases hwritten he with
    | inl hold => exact hi.reconciled ho e hold hreconcile
    | inr heq =>
      rw [heq] at hreconcile
      exact nomatch hreconcile
  · intro ho row hrow hclaimed
    rw [← mem_claims, hclaims, mem_claims] at hclaimed
    cases hmem hrow with
    | inl hold => exact hi.spent ho row hold hclaimed
    | inr heq =>
      -- Nothing has been written about a command that has no receipt.
      rw [heq] at hclaimed
      obtain ⟨e, he, -, hid⟩ := hclaimed
      obtain ⟨old, hold, hid'⟩ := hi.rows e he
      exact absurd (hid'.trans hid) (hfresh old hold).1
  · intro ho row hrow
    cases hmem hrow with
    | inl hold => exact hi.readable ho row hold
    | inr heq =>
      rw [heq]
      rfl
  · rw [hclaims]
    exact hi.claimedOnce
  · rw [hstarts]
    exact hi.startedOnce
  · intro ho s hs
    rw [hsubmissions] at hs
    exact hr.answered (hi.submissions ho s hs)
  · intro hf
    rw [hstarts]
    refine ⟨fun e he hclaim => ?_, (hi.active hf).2⟩
    cases hwritten he with
    | inl hold => exact (hi.active hf).1 e hold hclaim
    | inr heq =>
      rw [heq] at hclaim
      exact nomatch hclaim

/-- A reservation finds a receipt, or leaves one. -/
theorem reserve_holds {reservation : Reservation} {host : HostInstance} {device : RemoteDevice}
    {Q : Option String → Option RemoteCommandReceipt → World → Prop}
    (hchecked : Checked reservation.command host device w)
    (hnew : ∀ w', Rely once none w w' → Reserved reservation.command w' → Q k none w')
    (hfound : ∀ receipt w', Rely once none w w' → Reserved reservation.command w' →
      receipt.commandId = reservation.command.commandId → w'.recorded receipt → Q k (some receipt) w')
    (herror : ∀ e w', (once → e ≠ .validation) → X k e w') :
    (ask (.reserveCommand reservation)).HoldsAs (rules once final) k Q X w := by
  apply ask_holds ?_ fun w' typeName _ => herror _ _ fun _ => nofun
  intro w' hr hi _ _
  have hidle : (rules once final).Step k w' w' k := ⟨hi, fun _ _ => Rely.refl _ _, .inl rfl⟩
  show ∃ k', (rules once final).Step k w' (w'.reserveCommand reservation).2 k' ∧ _
  dsimp only [World.answer]
  unfold World.reserveCommand
  dsimp only
  split
  · rename_i existing hexisting
    have hmem := List.mem_of_find?_eq_some hexisting
    split
    · refine ⟨k, hidle, fun _ h => (nomatch h), fun e he => ?_⟩
      cases he
      exact herror _ _ fun _ => nofun
    · rename_i hbound
      rw [not_or, not_or, not_not, not_not, not_not] at hbound
      split
      · refine ⟨k, hidle, fun a ha => ?_, fun _ h => (nomatch h)⟩
        cases ha
        exact hfound _ _ hr.weak ⟨existing, hmem, hbound.1, hbound.2.2⟩ hbound.1
          (hi.recorded existing hmem)
      · rename_i hunreadable
        refine ⟨k, hidle, fun _ h => (nomatch h), fun e he => ?_⟩
        exact herror _ _ fun ho => absurd (hi.readable ho existing hmem) hunreadable
  · rename_i hnone
    split
    · refine ⟨k, hidle, fun _ h => (nomatch h), fun e he => ?_⟩
      cases he
      exact herror _ _ fun _ => nofun
    · have hfresh : ∀ old ∈ w'.receipts, old.commandId ≠ reservation.command.commandId ∧
          old.idempotencyKey ≠ reservation.command.idempotencyKey := by
        intro old hold
        have hno := List.find?_eq_none.mp hnone old hold
        rw [Bool.or_eq_true, not_or, decide_eq_true_eq, decide_eq_true_eq] at hno
        exact hno
      have hrely : ∀ other, Rely once other w' { w' with
          receipts := w'.receipts ++ [World.received reservation]
          history := w'.history ++ [w'.noted .reserve none (World.received reservation)] } := by
        intro other
        constructor
        · exact .same rfl rfl
        · exact fun row hrow => ⟨row, List.mem_append_left _ hrow, .refl row⟩
        · refine ⟨_, rfl, fun e he hrevoked => ?_⟩
          rw [List.mem_singleton.mp he] at hrevoked ⊢
          exact hrevoked.inactive
        · exact ⟨[], (List.append_nil _).symm, fun _ h => nomatch h⟩
        · exact fun _ _ _ hs => hs
      have hinv := received_inv hi hfresh (hchecked.later hr).device rfl rfl (hrely none) rfl rfl
      refine ⟨k, ⟨hinv, fun other _ => hrely other, .inl rfl⟩, fun a ha => ?_, fun _ h => (nomatch h)⟩
      cases ha
      exact hnew _ (hr.weak.trans (hrely none))
        ⟨_, List.mem_append_right _ (List.mem_singleton_self _), rfl, rfl⟩

end Rules
end Operant.RemoteControl
