import Operant.RemoteControl.Programs

/-! A command executes at most once, and not after its device was revoked. -/
namespace Operant.RemoteControl
open Operant.Calls Operant.Security
open Operant.Scheduler (Instant seconds)

/-! ### Every run -/

theorem inv_empty (once final : Prop) : Inv once final {} where
  ids := List.nodup_nil
  keys := List.nodup_nil
  bound _ h := nomatch h
  recorded _ h := nomatch h
  lawful _ h := nomatch h
  rows _ h := nomatch h
  starts _ h := nomatch h
  reconciled _ _ h := nomatch h
  spent _ _ h := nomatch h
  readable _ _ h := nomatch h
  claimedOnce _ := List.nodup_nil
  startedOnce _ := List.nodup_nil
  submissions _ _ h := nomatch h
  active _ := by constructor <;> exact fun _ h => nomatch h

theorem reached_inv {once final : Prop} {moves : List (Move Task)}
    (h : Pool.Meets system (rules once final).allowed start moves) : Inv once final (reached moves) := by
  obtain ⟨⟨ks, howns⟩, -⟩ :=
    (Pool.Owns.init (inv_empty once final)).play (system_sound once final) moves h
  exact howns.inv

/-- What happens after some moves is what everybody relies on. -/
theorem reached_rely {once final : Prop} {moves more : List (Move Task)}
    (h : Pool.Meets system (rules once final).allowed start (moves ++ more)) :
    Rely once none (reached moves) (reached (moves ++ more)) := by
  rw [Pool.meets_append] at h
  obtain ⟨⟨ks, howns⟩, -⟩ :=
    (Pool.Owns.init (inv_empty once final)).play (system_sound once final) moves h.1
  obtain ⟨-, hr⟩ := howns.play (system_sound once final) more h.2
  unfold reached start
  rw [Pool.play_append]
  exact hr

/-- A final receipt stays final. -/
theorem Inv.final_stays {once final : Prop} {w : World} (hi : Inv once final w) (ho : once)
    {e : ReceiptWrite} (he : e ∈ w.history) {row : ReceiptRow} (hrow : e.before = some row)
    (hfinal : row.isFinal = true) : e.after.isFinal = true := by
  obtain ⟨-, hwriter, hclosed⟩ := (hi.lawful e he).final hrow hfinal
  unfold ReceiptRow.isFinal
  rw [hclosed, hi.reconciled ho e he hwriter]
  rfl

/-- No two commands share an idempotency key. -/
theorem Inv.startedKeys {once final : Prop} {w : World} (hi : Inv once final w) (ho : once) :
    (w.starts.map fun s => (s.deviceId, s.idempotencyKey)).Nodup := by
  have hids := hi.startedOnce ho
  rw [List.nodup_iff_pairwise_ne, List.pairwise_map] at hids ⊢
  refine hids.imp_of_mem ?_
  intro a b ha hb hne heq
  apply hne
  obtain ⟨-, row, hrow, hid, -, hkey⟩ := hi.starts a ha
  obtain ⟨-, row', hrow', hid', -, hkey'⟩ := hi.starts b hb
  have hkeys : row.idempotencyKey = row'.idempotencyKey := by
    have hsame : a.idempotencyKey = b.idempotencyKey := congrArg Prod.snd heq
    rw [← hkey, ← hkey'] at hsame
    exact Option.some.inj hsame
  rw [← hid, ← hid', Operant.Tables.eq_of_key hi.keys hrow hrow' hkeys]

/-- A task alone, for this many steps. -/
def alone (task : Task) (steps : Nat) : List (Move Task) :=
  .start task :: List.replicate steps (.step 0)

def desk : HostInstance :=
  { hostId := "desk", protocolVersion := "v1", enabled := true, onlineState := .online }

def phone : RemoteDevice :=
  { deviceId := "phone", hostId := "desk", signingPublicKey := "signing"
    exchangePublicKey := "exchange", scopes := [.observe, .command] }

def call : RemoteSession :=
  { remoteSessionId := "call", hostId := "desk", deviceId := "phone", protocolVersion := "v1"
    connectionState := .connected, sessionKeyRef := "key", expiresAt := seconds 1000 }

def runTests : RemoteActionPayload :=
  { tool := "tasks", operation := "run", targetId := "tests", arguments := .null
    capabilities := [.remoteControlCommand] }

def agent : Service :=
  { ownerId := "agent", operationCapabilities := [(("tasks", "run"), [.remoteControlCommand])]
    decrypt := fun _ _ _ => some (some runTests) }

def testCommand : EncryptedRemoteCommand :=
  { commandId := "test", idempotencyKey := "test-1", hostId := "desk", deviceId := "phone"
    remoteSessionId := "call", protocolVersion := "v1", issuedAt := 0, expiresAt := seconds 60
    nonce := "nonce", ciphertext := "sealed", signature := "signed" }

/-- The device is paired, and its session is open. -/
def paired : List (Move Task) :=
  alone (.createHost desk) 2 ++ alone (.other (.putDevice phone)) 2 ++ alone (.other (.putSession call)) 2

def submitted : List (Move Task) := alone (.submit agent testCommand) 20

def outside (f : Outside → Outside) : List (Move Task) := alone (.other (.outside f)) 2

/-- The gateway asks for an approval first; approved, the command is executed, and then it comes
again. -/
def approvedLater : List (Move Task) :=
  paired ++ outside (fun o => { o with guard := .ok ⟨"hash", .nonIdempotent, .ask, false, some "approval"⟩ })
    ++ submitted
    ++ outside (fun o => { o with guard := .ok ⟨"hash", .nonIdempotent, .allow, true, some "approval"⟩ })
    ++ submitted ++ submitted

/-- The executor itself asks for an approval, and the command comes twice. -/
def askedByExecutor : List (Move Task) :=
  paired ++ outside (fun o => { o with
    execute := .error (.remote "remote.approval_required" "approve this first" 409) })
    ++ submitted ++ submitted

/-- In every run in which no device is revoked and no host disabled between the checks of a
submission and its claim, or its executor: every claim, and every start of the executor, finds
the device unrevoked and the host enabled and online; and once a device is revoked, none of its
commands is claimed or executed any more. -/
theorem revocation_final (moves more : List (Move Task))
    (h : Pool.Meets system (fun c w => w.allowsFinal c) start (moves ++ more)) :
    (∀ e ∈ (reached (moves ++ more)).history, e.accepts →
      e.deviceActive = true ∧ e.hostActive = true) ∧
      (∀ s ∈ (reached (moves ++ more)).starts, s.deviceActive = true ∧ s.hostActive = true) ∧
      ∃ writes starts, (reached (moves ++ more)).history = (reached moves).history ++ writes ∧
        (reached (moves ++ more)).starts = (reached moves).starts ++ starts ∧
        ∀ id, (reached moves).isRevoked id →
          (∀ e ∈ writes, e.accepts → e.after.deviceId ≠ id) ∧ ∀ s ∈ starts, s.deviceId ≠ id := by
  have hmeets : Pool.Meets system (rules False True).allowed start (moves ++ more) :=
    Pool.Meets.imp system (fun _ _ hc => ⟨fun hf => hf.elim, fun _ => hc⟩) h
  have hi := reached_inv hmeets
  obtain ⟨hclaims, hstarts⟩ := hi.active trivial
  have haccepts : ∀ e ∈ (reached (moves ++ more)).history, e.accepts →
      e.deviceActive = true ∧ e.hostActive = true := fun e he h => hclaims e he ((hi.lawful e he).claims h)
  have hr := reached_rely hmeets
  obtain ⟨writes, hwrites, hrevokedWrites⟩ := hr.history
  obtain ⟨starts, hstarted, hrevokedStarts⟩ := hr.starts
  refine ⟨haccepts, hstarts, writes, starts, hwrites, hstarted, fun id hid => ⟨?_, ?_⟩⟩
  · intro e he h heq
    have hactive := (haccepts e (by rw [hwrites]; exact List.mem_append_right _ he) h).1
    rw [hrevokedWrites e he (by rw [heq]; exact hid)] at hactive
    cases hactive
  · intro s hs heq
    have hactive := (hstarts s (by rw [hstarted]; exact List.mem_append_right _ hs)).1
    rw [hrevokedStarts s hs (by rw [heq]; exact hid)] at hactive
    cases hactive

/-- A command is executed; the device is revoked after that, and its next command refused. -/
def revokedLater : List (Move Task) :=
  paired ++ submitted ++ alone (.revoke "phone") 8

def nextSubmitted : List (Move Task) :=
  alone (.submit agent { testCommand with commandId := "next", idempotencyKey := "next-1" }) 20

theorem revocation_final_later :
    Pool.Meets system (fun c w => w.allowsFinal c) start (revokedLater ++ nextSubmitted) ∧
      (reached revokedLater).isRevoked "phone" ∧
      (reached revokedLater).starts.map Start.commandId = ["test"] ∧
      ∀ s ∈ (reached (revokedLater ++ nextSubmitted)).starts,
        s.deviceActive = true ∧ s.hostActive = true := by
  have hrun : Pool.Meets system (fun c w => w.allowsFinal c) start (revokedLater ++ nextSubmitted) ∧
      ((reached revokedLater).device? "phone").any (fun row => row.revokedAt.isSome) = true ∧
      (reached revokedLater).starts.map Start.commandId = ["test"] := by
    decide +kernel
  obtain ⟨hmeets, hrevoked, hstarts⟩ := hrun
  exact ⟨hmeets, World.isRevoked_iff.mpr hrevoked, hstarts,
    (revocation_final revokedLater nextSubmitted hmeets).2.1⟩

/-- The device is revoked when its command has passed the checks, ten calls on. -/
def revokedBetween : List (Move Task) :=
  paired ++ .start (.submit agent testCommand) :: List.replicate 10 (.step 0)
    ++ .start (.revoke "phone") :: List.replicate 8 (.step 1)

theorem revoked_command_executes :
    (reached revokedBetween).isRevoked "phone" ∧ (reached revokedBetween).starts.length = 0 ∧
      (reached (revokedBetween ++ List.replicate 10 (.step 0))).starts.map Start.deviceId = ["phone"] := by
  have hrun : ((reached revokedBetween).device? "phone").any (fun row => row.revokedAt.isSome) = true ∧
      (reached revokedBetween).starts.length = 0 ∧
      (reached (revokedBetween ++ List.replicate 10 (.step 0))).starts.map Start.deviceId = ["phone"] := by
    decide +kernel
  exact ⟨World.isRevoked_iff.mpr hrun.1, hrun.2⟩

end Operant.RemoteControl
