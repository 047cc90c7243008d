import Operant.RemoteControl.Claims

/-! The programs keep the rules.

What the checks of a submission find, but for what may be revoked, lasts until its claim; from
there on it owns its command. -/
namespace Operant.RemoteControl
open Operant.Tables Operant.Calls Operant.Security
open Operant.Scheduler (Instant seconds)

section Programs
variable {once final : Prop} {k : Option String} {w : World}

theorem exec_ok (c : Call) (w : World) (e : Raised) : (rules once final).exec c w ≠ .error e :=
  fun h => nomatch h

theorem rely_weak {k : Option String} {a b : World} (h : (rules once final).rely k a b) :
    (rules once final).rely none a b := Rely.weak h

/-- A read of which only the value is of interest. -/
theorem ask_value {c : Call} (hread : ∀ w' : World, (w'.answer c).2 = w') :
    (ask c).HoldsAs (rules once final) k (fun k' _ w' => k' = k ∧ Rely once k w w')
      (fun k' _ w' => k' = k ∧ Rely once k w w') w :=
  ask_read hread (fun _ _ hr _ _ => ⟨rfl, hr⟩) (fun _ _ hr _ _ => ⟨rfl, hr⟩) fun _ _ hr => ⟨rfl, hr⟩

theorem found_ok {α : Type} {row : Option α} {a : α} (h : World.found row = .ok a) : row = some a := by
  unfold World.found at h
  cases row with
  | none => exact nomatch h
  | some row =>
    cases h
    rfl

/-! ### The checks -/

theorem activeHost_holds (id : String) : (activeHost id).HoldsAs (rules once final) none
    (fun k' host w' => k' = none ∧ host.hostId = id ∧ host.isActive = true ∧
      (w'.host? id).isSome = true) Anyhow w := by
  unfold activeHost
  apply Prog.HoldsAs.bind
  apply Prog.HoldsAs.attempt exec_ok
  apply ask_read (fun _ => rfl)
  · intro w' host hr hi ha
    have hfound : w'.host? id = some host := found_ok ha
    have hid : host.hostId = id := by simpa using List.find?_some hfound
    show Prog.HoldsAs (rules once final) none (if _ then _ else _) _ _ w'
    split
    · trivial
    · rename_i hactive
      rw [Bool.not_eq_true', Bool.not_eq_false] at hactive
      exact ⟨rfl, hid, hactive, by rw [hfound]; rfl⟩
  · intro w' e _ _ _
    cases e <;> trivial
  · exact fun _ _ _ => trivial

theorem activeDevice_holds (id hostId : String) :
    (activeDevice id hostId).HoldsAs (rules once final) none
      (fun k' device w' => k' = none ∧ device.deviceId = id ∧ device.revokedAt = none ∧
        ∃ row, w'.device? id = some row ∧ row.hostId = hostId) Anyhow w := by
  unfold activeDevice
  apply Prog.HoldsAs.bind
  apply Prog.HoldsAs.attempt exec_ok
  apply ask_read (fun _ => rfl)
  · intro w' device hr hi ha
    have hfound : w'.device? id = some device := found_ok ha
    have hid : device.deviceId = id := by simpa using List.find?_some hfound
    show Prog.HoldsAs (rules once final) none (if _ then _ else _) _ _ w'
    split
    · trivial
    · rename_i hactive
      rw [not_or, not_not, not_not] at hactive
      exact ⟨rfl, hid, hactive.2, device, hfound, hactive.1⟩
  · intro w' e _ _ _
    cases e <;> trivial
  · exact fun _ _ _ => trivial

theorem activeSession_holds (id : String) (now : Instant) :
    (activeSession id now).HoldsAs (rules once final) none (fun k' _ w' => k' = none ∧ Rely once none w w')
      Anyhow w := by
  unfold activeSession
  apply Prog.HoldsAs.bind
  apply Prog.HoldsAs.attempt exec_ok
  apply ask_read (fun _ => rfl)
  · intro w' session hr _ _
    show Prog.HoldsAs (rules once final) none (if _ then _ else _) _ _ w'
    split
    · trivial
    · exact ⟨rfl, hr⟩
  · intro w' e _ _ _
    cases e <;> trivial
  · exact fun _ _ _ => trivial

theorem openCommand_holds (s : Service) (command : EncryptedRemoteCommand) (device : RemoteDevice)
    (session : RemoteSession) :
    (openCommand s command device session).HoldsAs (rules once final) none
      (fun k' _ w' => k' = none ∧ Rely once none w w') Anyhow w := by
  unfold openCommand
  apply Prog.HoldsAs.bind
  apply Prog.HoldsAs.attempt exec_ok
  apply ask_read (fun _ => rfl)
  · intro w' key hr _ _
    dsimp only
    split
    · trivial
    · trivial
    · exact ⟨rfl, hr⟩
  · exact fun _ _ _ _ _ => trivial
  · exact fun _ _ _ => trivial

theorem sweep_holds (now : Instant) : (ask (.reconcileIncompleteCommands now)).HoldsAs (rules once final)
    k (fun k' _ _ => k' = k) Anyhow w := by
  apply ask_holds ?_ fun _ _ _ => trivial
  intro w' _ hi _ _
  exact ⟨k, sweep_step hi now, fun _ _ => rfl, fun _ _ => trivial⟩

theorem prepare_holds (s : Service) (command : EncryptedRemoteCommand) :
    (prepare s command).HoldsAs (rules once final) none
      (fun k' p w' => k' = none ∧ Checked command p.host p.device w') Anyhow w := by
  unfold prepare
  apply Prog.HoldsAs.bind
  apply (ask_value fun _ => rfl).mono ?_ fun _ _ _ _ => trivial
  intro k₀ now w₀ h
  obtain ⟨rfl, -⟩ := h
  apply Prog.HoldsAs.bind
  apply (sweep_holds now).mono ?_ fun _ _ _ _ => trivial
  intro k₁ _ w₁ hk
  obtain rfl := hk
  apply Prog.HoldsAs.bind
  apply Prog.holdsAs_lift ?_ fun _ _ => trivial
  intro _ _
  apply Prog.HoldsAs.bind
  apply (activeHost_holds command.hostId).mono ?_ fun _ _ _ _ => trivial
  intro k₂ host w₂ h
  obtain ⟨rfl, hhostId, hactive, hhost⟩ := h
  apply Prog.HoldsAs.bind
  apply ((activeDevice_holds command.deviceId command.hostId).later rely_weak).mono ?_
    fun _ _ _ _ => trivial
  intro k₃ device w₃ h
  obtain ⟨⟨rfl, hdeviceId, hunrevoked, hdevice⟩, hr₃⟩ := h
  have hkeeps : w₂.Keeps w₃ := Rely.toKeeps hr₃
  have hchecked : Checked command host device w₃ :=
    ⟨hhostId, hactive, hdeviceId, hunrevoked, hdevice, hkeeps.hosts _ hhost⟩
  apply Prog.HoldsAs.bind
  apply (activeSession_holds command.remoteSessionId now).mono ?_ fun _ _ _ _ => trivial
  intro k₄ session w₄ h
  obtain ⟨rfl, hr₄⟩ := h
  split
  · trivial
  · split
    · trivial
    · apply Prog.HoldsAs.bind
      apply (openCommand_holds s command device session).mono ?_ fun _ _ _ _ => trivial
      intro k₅ payload w₅ h
      obtain ⟨rfl, hr₅⟩ := h
      apply Prog.HoldsAs.bind
      apply Prog.holdsAs_lift ?_ fun _ _ => trivial
      intro _ _
      apply Prog.HoldsAs.bind
      apply (ask_value fun _ => rfl).mono ?_ fun _ _ _ _ => trivial
      intro k₆ guarded w₆ h
      obtain ⟨rfl, hr₆⟩ := h
      exact ⟨rfl, ((hchecked.later hr₄).later hr₅).later hr₆⟩

/-! ### Submissions -/

/-- A receipt of the command, as it was recorded. -/
def Receives (command : EncryptedRemoteCommand) (receipt : RemoteCommandReceipt) (w : World) : Prop :=
  receipt.commandId = command.commandId ∧ w.recorded receipt

/-- How a submission may fail. -/
def Fails (once : Prop) (resubmitted : Bool) (e : Raised) : Prop :=
  once → resubmitted = true → e.fromBelow = true

theorem reserve_keeps (s : Service) (command : EncryptedRemoteCommand) (p : Prepared)
    (hchecked : Checked command p.host p.device w) :
    (reserve s command p).HoldsAs (rules once final) none
      (fun k' reserved w' => k' = none ∧ Checked command p.host p.device w' ∧ Reserved command w' ∧
        Receives command reserved.1 w') (fun _ e _ => once → e ≠ .validation) w := by
  unfold reserve
  apply Prog.HoldsAs.bind
  apply reserve_holds hchecked
  · intro w' hr hreserved
    apply Prog.HoldsAs.bind
    apply getCommand_holds hreserved
    · intro w'' receipt hr' hid hrecorded
      exact ⟨rfl, (hchecked.later hr).later hr', hreserved.later hr', hid, hrecorded⟩
    · intro w'' e _ hbelow ho heq
      rw [heq] at hbelow
      exact nomatch hbelow ho
  · intro receipt w' hr hreserved hid hrecorded
    exact ⟨rfl, hchecked.later hr, hreserved, hid, hrecorded⟩
  · exact fun e w' h => h

/-- The end of an execution. -/
theorem setCommandStatus_holds {command : EncryptedRemoteCommand} {status expected : RemoteCommandStatus}
    {ownerId : String} {now : Instant} {resultRef errorCode : Option String} {hostAck : Bool}
    (hreserved : Reserved command w)
    (hcode : once → expected = .received ∨ reopens status errorCode = false) :
    (setCommandStatus command.commandId status expected ownerId now resultRef errorCode hostAck).HoldsAs
      (rules once final) k (fun _ receipt w' => Receives command receipt w')
      (fun _ e w' => Reserved command w' ∧ (once → e.isConflict = true ∨ e.fromBelow = true)) w := by
  unfold setCommandStatus
  apply Prog.HoldsAs.bind
  apply ask_holds
  · intro w' hr hi honce _
    have hstep : (rules once final).Step k w' (w'.setCommandStatus command.commandId status expected
        ownerId now resultRef errorCode hostAck).2 k := setCommandStatus_step hi hcode honce
    have hreserved' := (hreserved.later hr).later (hstep.others none fun _ hn => nomatch hn)
    refine ⟨k, hstep, fun _ _ => ?_, fun e he => ⟨hreserved', fun _ => endOne_error he⟩⟩
    apply getCommand_holds hreserved'
    · exact fun w'' receipt _ hid hrecorded => ⟨hid, hrecorded⟩
    · exact fun w'' e hr' hbelow => ⟨hreserved'.later hr', fun ho => .inr (hbelow ho)⟩
  · exact fun w' typeName hr => ⟨hreserved.later hr, fun _ => .inr rfl⟩

theorem finishOwnedCommand_holds (s : Service) {command : EncryptedRemoteCommand}
    {status : RemoteCommandStatus} {resultRef errorCode : Option String} (resubmitted : Bool)
    (hreserved : Reserved command w) (hcode : once → reopens status errorCode = false) :
    (finishOwnedCommand s command.commandId status resultRef errorCode).HoldsAs (rules once final) k
      (fun _ receipt w' => Receives command receipt w') (fun _ e _ => Fails once resubmitted e) w := by
  unfold finishOwnedCommand
  apply Prog.HoldsAs.bind
  apply ask_read (fun _ => rfl)
  · intro w₁ now hr₁ _ _
    apply Prog.HoldsAs.bind
    apply Prog.HoldsAs.attempt exec_ok
    apply (setCommandStatus_holds (hreserved.later hr₁) fun ho => .inr (hcode ho)).mono
    · exact fun _ _ _ h => h
    · intro k₂ e w₂ h
      obtain ⟨hreserved₂, hbelow⟩ := h
      show Prog.HoldsAs (rules once final) k₂ (if _ then _ else _) _ _ w₂
      split
      · apply getCommand_holds hreserved₂
        · exact fun w₃ receipt _ hid hrecorded => ⟨hid, hrecorded⟩
        · exact fun w₃ e _ hbelow ho _ => hbelow ho
      · rename_i hconflict
        intro ho _
        exact (hbelow ho).resolve_left hconflict
  · intro w₁ e _ _ he
    exact nomatch he
  · exact fun _ _ _ _ _ => rfl

theorem executeCommand_holds (s : Service) {command : EncryptedRemoteCommand} (p : Prepared)
    (resubmitted : Bool) (hchecked : Checked command p.host p.device w) (hreserved : Reserved command w)
    (hclaimed : w.claimed command.commandId)
    (hticket : once → k = some command.commandId ∧ ¬w.hasStarted command.commandId) :
    (executeCommand s command p ⟨p.host, p.device, resubmitted⟩).HoldsAs (rules once final) k
      (fun _ receipt w' => Receives command receipt w') (fun _ e _ => Fails once resubmitted e) w := by
  unfold executeCommand
  apply Prog.HoldsAs.bind
  apply Prog.HoldsAs.attempt exec_ok
  apply execute_holds hchecked hreserved hclaimed hticket
  · exact fun resultRef w' hreserved' => finishOwnedCommand_holds s resubmitted hreserved' fun _ => rfl
  · intro e w' hreserved' hcode
    cases e with
    | remote code message statusCode =>
      apply finishOwnedCommand_holds s resubmitted hreserved'
      intro ho
      have hne : some code ≠ some "remote.approval_required" := by
        intro heq
        cases heq
        exact hcode ho message statusCode rfl
      exact decide_eq_false hne
    | conflict | idempotencyConflict | key | mcp | validation | other =>
      show Prog.HoldsAs (rules once final) k (if _ then _ else _) _ _ w'
      split
      · exact finishOwnedCommand_holds s resubmitted hreserved' fun _ => rfl
      · exact finishOwnedCommand_holds s resubmitted hreserved' fun _ => rfl

theorem respond_holds (s : Service) {command : EncryptedRemoteCommand} (p : Prepared)
    (receipt : RemoteCommandReceipt) (created : Bool) (hchecked : Checked command p.host p.device w)
    (hreserved : Reserved command w) (hreceipt : Receives command receipt w) :
    (respond s command p receipt created).HoldsAs (rules once final) none
      (fun _ receipt w' => Receives command receipt w') (fun _ e _ => Fails once (!created) e) w := by
  unfold respond
  split
  · exact hreceipt
  · split
    · split
      · exact hreceipt
      · rename_i hcreated
        apply (setCommandStatus_holds hreserved fun _ => .inl rfl).mono
        · exact fun _ _ _ h => h
        · exact fun _ _ _ _ _ hresubmitted => absurd hresubmitted hcreated
    · apply Prog.HoldsAs.bind
      apply ask_read (fun _ => rfl)
      · intro w₁ _ hr₁ _ _
        apply Prog.HoldsAs.bind
        apply claim_holds
        · exact hchecked.later hr₁
        · exact hreserved.later hr₁
        · intro k₂ w₂ hclaimed hr₂ hticket
          have hchecked₂ := (hchecked.later hr₁).later hr₂
          have hreserved₂ := (hreserved.later hr₁).later hr₂
          apply Prog.HoldsAs.bind
          apply getCommand_holds hreserved₂
          · intro w₃ _ hr₃ _ _
            apply executeCommand_holds s p (!created) (hchecked₂.later hr₃) (hreserved₂.later hr₃)
              (hr₃.claimed hclaimed)
            exact fun ho => ⟨(hticket ho).1, fun hs => (hticket ho).2
              (hr₃.owned ho _ (hticket ho).1 hs)⟩
          · exact fun _ _ _ hbelow ho _ => hbelow ho
        · exact fun _ _ h => h
      · intro w₁ e _ _ he
        have he : (if w₁.outside.leasesValid then Except.ok ()
          else Except.error (Raised.mcp "mcp.capability_lease_invalid")) = .error e := he
        split at he
        · exact nomatch he
        · cases he
          exact fun _ _ => rfl
      · exact fun _ _ _ _ _ => rfl

theorem submission_holds (s : Service) (command : EncryptedRemoteCommand) :
    (submission s command).HoldsAs (rules once final) none
      (fun _ noted w' => once → noted.Answered w') Anyhow w := by
  unfold submission
  apply Prog.HoldsAs.bind
  apply (prepare_holds s command).mono ?_ fun _ _ _ _ => trivial
  intro k₁ p w₁ h
  obtain ⟨rfl, hchecked⟩ := h
  apply Prog.HoldsAs.bind
  apply Prog.HoldsAs.attempt exec_ok
  apply (reserve_keeps s command p hchecked).mono
  · intro k₂ reserved w₂ h
    obtain ⟨rfl, hchecked₂, hreserved, hreceipt⟩ := h
    obtain ⟨receipt, created⟩ := reserved
    apply Prog.HoldsAs.bind
    apply Prog.HoldsAs.attempt exec_ok
    apply (respond_holds s p receipt created hchecked₂ hreserved hreceipt).mono
    · exact fun _ _ _ h _ => h
    · exact fun _ _ _ h ho hresubmitted => h ho hresubmitted
  · intro k₂ e w₂ hreadable
    cases e with
    | validation => exact fun ho => absurd rfl (hreadable ho)
    | remote | conflict | idempotencyConflict | key | mcp | other => trivial

/-! ### The other operations -/

/-- A call of somebody who owns nothing. -/
theorem ask_nobody {c : Call} (h : ∀ w', Inv once final w' → (once → w'.allowsOnce c) →
    (rules once final).Step none w' (w'.answer c).2 none) :
    (ask c).HoldsAs (rules once final) none (fun k' _ _ => k' = none) (fun k' _ _ => k' = none) w := by
  apply ask_holds ?_ fun _ _ _ => rfl
  intro w' _ hi honce _
  exact ⟨none, h w' hi honce, fun _ _ => rfl, fun _ _ => rfl⟩

theorem ask_reading {c : Call} (hread : ∀ w' : World, (w'.answer c).2 = w') :
    (ask c).HoldsAs (rules once final) none (fun k' _ _ => k' = none) (fun k' _ _ => k' = none) w := by
  apply ask_nobody
  intro w' hi _
  rw [hread w']
  exact .idle hi

theorem reconcileCommand_keeps (id : String) (status : RemoteCommandStatus)
    (resultRef errorCode : Option String) :
    (reconcileCommand id status resultRef errorCode).HoldsAs (rules once final) none
      (fun k' _ _ => k' = none) Anyhow w := by
  unfold reconcileCommand
  split
  · trivial
  · dsimp only
    apply Prog.HoldsAs.bind
    apply Prog.HoldsAs.attempt exec_ok
    have herror : ∀ k' (e : Raised) w', k' = none → Prog.HoldsAs (rules once final) k'
        (if e.isConflict then .fail (.remote "remote.reconciliation_conflict"
          "only outcome-unknown commands can be reconciled" 409) else .fail e)
        (fun k' (_ : RemoteCommandReceipt) _ => k' = none) Anyhow w' := by
      intro k' e w' _
      split <;> trivial
    apply Prog.HoldsAs.bind
    apply (ask_nobody (c := .reconcileCommand id status resultRef errorCode) fun w' hi honce =>
      reconcileCommand_step hi honce).mono ?_ herror
    intro k' _ w' hk
    obtain rfl := hk
    exact (ask_reading fun _ => rfl).mono (fun _ _ _ h => h) herror

theorem heartbeat_keeps (s : Service) (id : String) :
    (heartbeat s id).HoldsAs (rules once final) none (fun k' _ _ => k' = none) Anyhow w := by
  unfold heartbeat
  apply Prog.HoldsAs.bind
  apply (ask_reading fun _ => rfl).mono ?_ fun _ _ _ _ => trivial
  intro k' now w' hk
  obtain rfl := hk
  exact (ask_nobody fun w' hi _ => renew_step hi id s.ownerId _).mono (fun _ _ _ h => h)
    fun _ _ _ _ => trivial

theorem construct_keeps :
    construct.HoldsAs (rules once final) none (fun k' _ _ => k' = none) Anyhow w := by
  unfold construct
  apply Prog.HoldsAs.bind
  apply (ask_reading fun _ => rfl).mono ?_ fun _ _ _ _ => trivial
  intro k' now w' hk
  obtain rfl := hk
  exact sweep_holds now

theorem deleteKey_keeps (ref : String) : (ask (.deleteKey ref)).HoldsAs (rules once final) none
    (fun k' _ _ => k' = none) (fun k' _ _ => k' = none) w := by
  apply ask_nobody
  exact fun w' hi _ => World.SameReceipts.step ⟨rfl, rfl, rfl, rfl⟩ (.same rfl rfl) hi

/-- A loop over sessions. -/
theorem sessions_keep {α : Type} {f : RemoteSession → Action α} {sessions : List RemoteSession}
    (h : ∀ session w', (f session).HoldsAs (rules once final) none (fun k' _ _ => k' = none) Anyhow w') :
    (sessions.mapM f).HoldsAs (rules once final) none (fun k' _ _ => k' = none) Anyhow w := by
  apply (Prog.HoldsAs.mapM rely_weak (P := fun _ _ _ => True) (fun _ _ _ _ _ h => h) ?_).mono
  · exact fun _ _ _ h => h.1
  · exact fun _ _ _ h => h
  · exact fun session _ w' _ => (h session w').mono (fun _ _ _ hk => ⟨hk, trivial⟩) fun _ _ _ h => h

theorem revokeDevice_keeps (id : String) :
    (revokeDevice id).HoldsAs (rules once final) none (fun k' _ _ => k' = none) Anyhow w := by
  unfold revokeDevice
  apply Prog.HoldsAs.bind
  apply (ask_reading fun _ => rfl).mono ?_ fun _ _ _ _ => trivial
  intro k₁ now w₁ hk
  obtain rfl := hk
  apply Prog.HoldsAs.bind
  apply (ask_nobody fun w' hi _ => revokeDevice_step hi id now).mono ?_ fun _ _ _ _ => trivial
  intro k₂ device w₂ hk
  obtain rfl := hk
  apply Prog.HoldsAs.bind
  apply (ask_reading fun _ => rfl).mono ?_ fun _ _ _ _ => trivial
  intro k₃ sessions w₃ hk
  obtain rfl := hk
  apply Prog.HoldsAs.bind
  exact sessions_keep fun session w' =>
    (deleteKey_keeps session.sessionKeyRef).mono (fun _ _ _ h => h) fun _ _ _ _ => trivial

theorem closeSession_keeps (id : String) :
    (closeSession id).HoldsAs (rules once final) none (fun k' _ _ => k' = none) Anyhow w := by
  unfold closeSession
  apply Prog.HoldsAs.bind
  apply (ask_nobody fun w' hi _ => closeSession_step hi id).mono ?_ fun _ _ _ _ => trivial
  intro k₁ session w₁ hk
  obtain rfl := hk
  apply Prog.HoldsAs.bind
  exact (deleteKey_keeps session.sessionKeyRef).mono (fun _ _ _ h => h) fun _ _ _ _ => trivial

theorem putHost_keeps (host : HostInstance) : (ask (.putHost host)).HoldsAs (rules once final) none
    (fun k' _ _ => k' = none) Anyhow w :=
  (ask_nobody fun _ hi _ => putHost_step hi host).mono (fun _ _ _ h => h) fun _ _ _ _ => trivial

theorem enableHost_keeps (id protocolVersion : String) (enabled : Bool) :
    (enableHost id protocolVersion enabled).HoldsAs (rules once final) none (fun k' _ _ => k' = none)
      Anyhow w := by
  unfold enableHost
  apply Prog.HoldsAs.bind
  apply Prog.HoldsAs.attempt exec_ok
  apply (ask_reading fun _ => rfl).mono
  · intro k₁ existing w₁ hk
    obtain rfl := hk
    apply Prog.HoldsAs.bind
    apply (putHost_keeps _).mono ?_ fun _ _ _ h => h
    intro k₂ _ w₂ hk
    obtain rfl := hk
    split
    · rfl
    · apply Prog.HoldsAs.bind
      apply (ask_reading fun _ => rfl).mono ?_ fun _ _ _ _ => trivial
      intro k₃ sessions w₃ hk
      obtain rfl := hk
      apply Prog.HoldsAs.bind
      exact sessions_keep fun session _ => closeSession_keeps session.remoteSessionId
  · intro k₁ e w₁ _
    cases e <;> trivial

/-- What is asked of the end of a task. -/
def Ends (once : Prop) (_ : Task) (_ : Option String) (ending : Option Submission) (w : World) : Prop :=
  once → ∀ noted ∈ ending, noted.Answered w

/-- A task of which we note nothing. -/
theorem unnoted_keeps {α : Type} {p : Action α} {task : Task}
    (h : p.HoldsAs (rules once final) none (fun k' _ _ => k' = none) Anyhow w) :
    (p >>= fun _ => pure (none : Option Submission)).HoldsAs (rules once final) none (Ends once task)
      Anyhow w := by
  apply Prog.HoldsAs.bind
  exact h.mono (fun _ _ _ _ _ _ hn => nomatch hn) fun _ _ _ h => h

theorem code_keeps (task : Task) :
    task.code.HoldsAs (rules once final) none (Ends once task) Anyhow w := by
  cases task with
  | submit service command =>
    apply Prog.HoldsAs.bind
    apply (submission_holds service command).mono ?_ fun _ _ _ h => h
    intro k' noted w' h ho noted' hnoted
    cases hnoted
    exact h ho
  | reconcile id status resultRef errorCode =>
    exact unnoted_keeps (reconcileCommand_keeps id status resultRef errorCode)
  | heartbeat service id => exact unnoted_keeps (heartbeat_keeps service id)
  | construct => exact unnoted_keeps construct_keeps
  | revoke deviceId => exact unnoted_keeps (revokeDevice_keeps deviceId)
  | closeSession id => exact unnoted_keeps (closeSession_keeps id)
  | enableHost id protocolVersion enabled =>
    exact unnoted_keeps (enableHost_keeps id protocolVersion enabled)
  | createHost host => exact unnoted_keeps (putHost_keeps host)
  | other change =>
    apply unnoted_keeps
    exact (ask_nobody fun w' hi _ => change_step hi change).mono (fun _ _ _ h => h)
      fun _ _ _ _ => trivial

/-- All programs keep the rules. -/
theorem system_sound (once final : Prop) :
    Pool.OwnersSound (rules once final) (Ends once) system where
  exec := rfl
  code _ _ _ := code_keeps _
  note task k ending w w' h hr hi := by
    have hrely : ∀ other, Rely once other w' (system.note task ending w') := by
      intro other
      constructor
      · exact .same rfl rfl
      · exact fun row hrow => ⟨row, hrow, .refl row⟩
      · exact ⟨[], (List.append_nil _).symm, fun _ h => nomatch h⟩
      · exact ⟨[], (List.append_nil _).symm, fun _ h => nomatch h⟩
      · exact fun _ _ _ hs => hs
    refine ⟨{ hi with submissions := ?_ }, fun other _ => hrely other, .inr (.inl rfl)⟩
    intro ho noted hnoted
    apply (hrely none).answered
    cases List.mem_append.mp hnoted with
    | inl hold => exact hi.submissions ho noted hold
    | inr hnew =>
      have hr : Rely once k w w' := hr
      exact hr.answered (h ho noted (Option.mem_toList.mp hnew))

end Programs
end Operant.RemoteControl
