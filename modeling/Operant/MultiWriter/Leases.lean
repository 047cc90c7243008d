import Operant.MultiWriter.System
import Operant.Tables.Logs

/-! Writer leases.

A workspace has one row, which an acquisition takes over once the lease in it has ended, with
the next fencing number. `Moved` says what a call may do to the rows; the run follows from
it, against the log of what has been granted. -/
namespace Operant.MultiWriter
open Operant.Tables Operant.Calls Operant.Graph

/-- The lease is neither released nor expired. -/
def WriterLease.live (lease : WriterLease) (now : Instant) : Bool :=
  lease.releasedAt.isNone && now < lease.expiresAt

/-- The fencing number of a workspace's last lease. -/
def fencingIn (rows : List WriterLease) (workspaceId : String) : Nat :=
  ((rows.find? fun row => row.writerWorkspaceId = workspaceId).map WriterLease.fencing).getD 0

/-- The lease that an acquisition is granted. -/
def acquired (w : World) (workspaceId owner token : String) (expiresAt : Instant) : List WriterLease :=
  if expiresAt ≤ w.outside.clock then []
  else (w.acquire workspaceId owner token expiresAt).1.toOption.toList

def granted (w : World) : Call → List WriterLease
  | .change (.acquireLease workspaceId owner token expiresAt) =>
    acquired w workspaceId owner token expiresAt
  | _ => []

/-- The world after calls by whomever, in this order. -/
def called (calls : List Call) : World := calls.foldl (fun w c => (w.exec c).2) {}

def grants (calls : List Call) : List WriterLease :=
  logFrom (fun w c => (World.exec w c).2) granted {} calls

/-- The lease that a call is made with. -/
def Call.lease? : Call → Option WriterLease
  | .change (.renewLease lease _) => some lease
  | .change (.releaseLease lease) => some lease
  | .publishArtifact _ lease => some lease
  | _ => none

/-! ### What a call does to the rows -/

/-- The rows before and after a call, and the leases it is granted. -/
inductive Moved (now : Instant) (rows : List WriterLease) : List WriterLease → List WriterLease → Prop
  /-- The row keeps whose lease it is. -/
  | kept (p : WriterLease → Bool) (f : WriterLease → WriterLease)
      (same : ∀ row, (f row).writerWorkspaceId = row.writerWorkspaceId ∧ (f row).owner = row.owner ∧
        (f row).token = row.token ∧ (f row).fencing = row.fencing) :
      Moved now rows (update rows p f) []
  | first (lease : WriterLease) (fencing : lease.fencing = 1)
      (fresh : ∀ row ∈ rows, row.writerWorkspaceId ≠ lease.writerWorkspaceId) :
      Moved now rows (rows ++ [lease]) [lease]
  | next (lease : WriterLease) (fencing : lease.fencing = fencingIn rows lease.writerWorkspaceId + 1)
      (ended : ∃ row, rows.find? (fun row => row.writerWorkspaceId = lease.writerWorkspaceId) = some row ∧
        row.live now = false) :
      Moved now rows
        (update rows (fun row => row.writerWorkspaceId = lease.writerWorkspaceId) fun _ => lease) [lease]

theorem Moved.same {now : Instant} {rows : List WriterLease} : Moved now rows rows [] := by
  have hsame : update rows (fun _ => false) id = rows := update_eq_self fun _ _ => rfl
  have hmoved : Moved now rows (update rows (fun _ => false) id) [] :=
    .kept _ _ fun _ => ⟨rfl, rfl, rfl, rfl⟩
  rw [hsame] at hmoved
  exact hmoved

theorem Moved.of_eq {now : Instant} {rows rows' : List WriterLease} (h : rows' = rows) :
    Moved now rows rows' [] := by
  rw [h]
  exact .same

/-- `acquire` fails and leaves everything, or is granted the lease and writes it. -/
theorem acquire_cases (w : World) (workspaceId owner token : String) (expiresAt : Instant) :
    (∃ e, w.acquire workspaceId owner token expiresAt = (.error e, w)) ∨
      ∃ lease rows, w.acquire workspaceId owner token expiresAt =
        (.ok lease, { w with leases := rows }) ∧ Moved w.outside.clock w.leases rows [lease] := by
  unfold World.acquire
  split
  · exact .inl ⟨_, rfl⟩
  · split
    · exact .inl ⟨_, rfl⟩
    · dsimp only
      split
      · rename_i hnone
        split
        · exact .inl ⟨_, rfl⟩
        · refine .inr ⟨_, _, rfl, .first _ rfl fun row hrow => ?_⟩
          have hrow := List.find?_eq_none.mp hnone row hrow
          simpa using hrow
      · rename_i current hcurrent
        split
        · exact .inl ⟨_, rfl⟩
        · rename_i hactive
          split
          · exact .inl ⟨_, rfl⟩
          · have hfind : w.leases.find? (fun row => row.writerWorkspaceId = workspaceId) = some current :=
              hcurrent
            refine .inr ⟨_, _, rfl, .next ⟨workspaceId, owner, token, current.fencing + 1, expiresAt, none⟩
              ?_ ⟨current, hfind, ?_⟩⟩
            · show current.fencing + 1 = fencingIn w.leases workspaceId + 1
              unfold fencingIn
              rw [hfind]
              rfl
            · unfold WriterLease.live
              cases hreleased : current.releasedAt with
              | some _ => rfl
              | none =>
                have hexpired : ¬w.outside.clock < current.expiresAt := fun h => hactive ⟨hreleased, h⟩
                simp [hexpired]

theorem acquireLease_world (w : World) (workspaceId owner token : String) (expiresAt : Instant) :
    (w.acquireLease workspaceId owner token expiresAt).2 =
      if expiresAt ≤ w.outside.clock then w else (w.acquire workspaceId owner token expiresAt).2 := by
  unfold World.acquireLease
  split
  · rfl
  · cases hacquire : w.acquire workspaceId owner token expiresAt with
    | mk reply w' =>
      cases reply with
      | error e => rfl
      | ok lease =>
        dsimp only
        split <;> rfl

/-- The row that a lease holds. -/
theorem holds_iff {lease row : WriterLease} :
    World.holds lease row = true ↔ row.writerWorkspaceId = lease.writerWorkspaceId ∧
      row.owner = lease.owner ∧ row.token = lease.token ∧ row.fencing = lease.fencing ∧
      row.releasedAt = none := by
  unfold World.holds
  simp only [Bool.and_eq_true, decide_eq_true_eq, Option.isNone_iff_eq_none]
  tauto

/-- `renew_lease` is of a row that the lease holds and that has not expired. -/
theorem renewLease_cases (w : World) (lease : WriterLease) (expiresAt : Instant) :
    (∃ e, w.renewLease lease expiresAt = (.error e, w)) ∨
      ∃ renewed rows, w.renewLease lease expiresAt = (.ok renewed, { w with leases := rows }) ∧
        (∃ row ∈ w.leases, World.holds lease row = true ∧ w.outside.clock < row.expiresAt) ∧
        Moved w.outside.clock w.leases rows [] := by
  unfold World.renewLease
  dsimp only
  split
  · exact .inl ⟨_, rfl⟩
  · split
    · exact .inl ⟨_, rfl⟩
    · rename_i hone
      refine .inr ⟨_, _, rfl, ?_, .kept _ _ fun _ => ⟨rfl, rfl, rfl, rfl⟩⟩
      obtain ⟨row, hmem, hp⟩ := exists_of_rowcount (not_not.mp hone)
      rw [Bool.and_eq_true, decide_eq_true_eq] at hp
      exact ⟨row, hmem, hp⟩

theorem releaseLease_cases (w : World) (lease : WriterLease) :
    (∃ e, w.releaseLease lease = (.error e, w)) ∨
      ∃ released rows, w.releaseLease lease = (.ok released, { w with leases := rows }) ∧
        (∃ row ∈ w.leases, World.holds lease row = true) ∧ Moved w.outside.clock w.leases rows [] := by
  unfold World.releaseLease
  dsimp only
  split
  · exact .inl ⟨_, rfl⟩
  · rename_i hone
    refine .inr ⟨_, _, rfl, ?_, .kept _ _ fun _ => ⟨rfl, rfl, rfl, rfl⟩⟩
    exact exists_of_rowcount (not_not.mp hone)

theorem acquireLease_moved (w : World) (workspaceId owner token : String) (expiresAt : Instant) :
    ∃ rows, (w.acquireLease workspaceId owner token expiresAt).2 = { w with leases := rows } ∧
      Moved w.outside.clock w.leases rows
        (acquired w workspaceId owner token expiresAt) := by
  rw [acquireLease_world]
  unfold acquired
  split
  · exact ⟨w.leases, rfl, .same⟩
  · cases acquire_cases w workspaceId owner token expiresAt with
    | inl hrefused =>
      obtain ⟨e, heq⟩ := hrefused
      rw [heq]
      exact ⟨w.leases, rfl, .same⟩
    | inr hgranted =>
      obtain ⟨lease, rows, heq, hmoved⟩ := hgranted
      rw [heq]
      exact ⟨rows, rfl, hmoved⟩

theorem renewLease_moved (w : World) (lease : WriterLease) (expiresAt : Instant) :
    ∃ rows, (w.renewLease lease expiresAt).2 = { w with leases := rows } ∧
      Moved w.outside.clock w.leases rows [] := by
  cases renewLease_cases w lease expiresAt with
  | inl hrefused =>
    obtain ⟨e, heq⟩ := hrefused
    rw [heq]
    exact ⟨w.leases, rfl, .same⟩
  | inr hrenewed =>
    obtain ⟨renewed, rows, heq, -, hmoved⟩ := hrenewed
    rw [heq]
    exact ⟨rows, rfl, hmoved⟩

theorem releaseLease_moved (w : World) (lease : WriterLease) :
    ∃ rows, (w.releaseLease lease).2 = { w with leases := rows } ∧
      Moved w.outside.clock w.leases rows [] := by
  cases releaseLease_cases w lease with
  | inl hrefused =>
    obtain ⟨e, heq⟩ := hrefused
    rw [heq]
    exact ⟨w.leases, rfl, .same⟩
  | inr hreleased =>
    obtain ⟨released, rows, heq, -, hmoved⟩ := hreleased
    rw [heq]
    exact ⟨rows, rfl, hmoved⟩

/-- A statement that changes one row changes no lease. -/
theorem writeOne_leases {α : Type} (w : World) (writer : Writer) (p : MergeRow → Bool)
    (f : MergeRow → MergeRow) (message : String) (reply : α) :
    (w.writeOne writer p f message reply).2.leases = w.leases := by
  unfold World.writeOne
  split <;> rfl

/-- Any call moves the rows, if at all, as a lease operation does. -/
theorem answer_moved (w : World) (c : Call) :
    Moved w.outside.clock w.leases (w.answer c).2.leases (granted w c) := by
  cases c with
  | change c =>
    cases c with
    | acquireLease workspaceId owner token expiresAt =>
      obtain ⟨rows, heq, hmoved⟩ := acquireLease_moved w workspaceId owner token expiresAt
      show Moved _ _ (w.acquireLease workspaceId owner token expiresAt).2.leases _
      rw [heq]
      exact hmoved
    | renewLease lease expiresAt =>
      obtain ⟨rows, heq, hmoved⟩ := renewLease_moved w lease expiresAt
      show Moved _ _ (w.renewLease lease expiresAt).2.leases _
      rw [heq]
      exact hmoved
    | releaseLease lease =>
      obtain ⟨rows, heq, hmoved⟩ := releaseLease_moved w lease
      show Moved _ _ (w.releaseLease lease).2.leases _
      rw [heq]
      exact hmoved
    | putDefinition definition =>
      apply Moved.of_eq
      show (w.putDefinition definition).leases = w.leases
      unfold World.putDefinition
      split <;> rfl
    | createRun id workflowId version nodeRunId =>
      apply Moved.of_eq
      show (w.createRun id workflowId version nodeRunId).leases = w.leases
      unfold World.createRun
      split
      · rfl
      · split
        · rfl
        · dsimp only
          split <;> rfl
    | createWorkspace workspace =>
      apply Moved.of_eq
      show (w.createWorkspace workspace).leases = w.leases
      unfold World.createWorkspace
      split <;> rfl
    | outside f => exact .same
    | resolveConflict conflictId resolutionArtifactRef rejected => exact .same
  | publishArtifact artifact lease =>
    apply Moved.of_eq
    show (w.publishArtifact artifact lease).2.leases = w.leases
    unfold World.publishArtifact
    split <;> rfl
  | putConflict conflict =>
    apply Moved.of_eq
    show (w.putConflict conflict).2.leases = w.leases
    unfold World.putConflict
    split <;> rfl
  | createMergeRun merge =>
    apply Moved.of_eq
    show (w.createMergeRun merge).2.leases = w.leases
    unfold World.createMergeRun
    split
    · rfl
    · split <;> rfl
  | updateMergeRun merge expectedRevision =>
    apply Moved.of_eq
    show (w.updateMergeRun merge expectedRevision).2.leases = w.leases
    unfold World.updateMergeRun
    split
    · rfl
    · split
      · rfl
      · exact writeOne_leases ..
  | claimMergeRun merge ownerId leaseExpiresAt =>
    apply Moved.of_eq
    show (w.claimMergeRun merge ownerId leaseExpiresAt).2.leases = w.leases
    unfold World.claimMergeRun
    dsimp only
    split
    · rfl
    · exact writeOne_leases ..
  | renewMergeRunLease id ownerId leaseExpiresAt => exact .of_eq (writeOne_leases ..)
  | completeOwnedMergeRun merge expectedRevision ownerId =>
    apply Moved.of_eq
    show (w.completeOwnedMergeRun merge expectedRevision ownerId).2.leases = w.leases
    unfold World.completeOwnedMergeRun
    split
    · rfl
    · split
      · rfl
      · exact writeOne_leases ..
  | reconcileMergeRun id expectedRevision status resultArtifactRef errorCode =>
    apply Moved.of_eq
    show (w.reconcileMergeRun id expectedRevision status resultArtifactRef errorCode).2.leases = w.leases
    unfold World.reconcileMergeRun
    split
    · exact writeOne_leases ..
    · rfl
  | _ => exact .same

theorem exec_moved (w : World) (c : Call) :
    Moved w.outside.clock w.leases (w.exec c).2.leases (granted w c) := by
  unfold World.exec
  split
  · exact answer_moved w c
  · split
    · rename_i hstore
      have hgranted : granted w c = [] := by
        cases c with
        | change c => exact nomatch hstore
        | _ => rfl
      rw [hgranted]
      exact .same
    · exact answer_moved w c

/-! ### The rows and what has been granted -/

/-- A workspace has one row, which holds the last lease granted for it. -/
structure Kept (log rows : List WriterLease) : Prop where
  one : (rows.map WriterLease.writerWorkspaceId).Nodup
  topped : Topped WriterLease.writerWorkspaceId WriterLease.fencing (fencingIn rows) log
  held : ∀ row ∈ rows, ∃ g ∈ log, g.writerWorkspaceId = row.writerWorkspaceId ∧ g.owner = row.owner ∧
    g.token = row.token ∧ g.fencing = row.fencing

variable {w : World} {log rows rows' gs : List WriterLease} {now : Instant}

theorem find?_row (hrows : (rows.map WriterLease.writerWorkspaceId).Nodup) {row : WriterLease}
    (hrow : row ∈ rows) {id : String} (hid : row.writerWorkspaceId = id) :
    rows.find? (fun row => row.writerWorkspaceId = id) = some row := by
  cases hfind : rows.find? (fun row => row.writerWorkspaceId = id) with
  | none =>
    have hnone := List.find?_eq_none.mp hfind row hrow
    simp [hid] at hnone
  | some other =>
    have hother : other.writerWorkspaceId = id := by simpa using List.find?_some hfind
    rw [eq_of_key hrows (List.mem_of_find?_eq_some hfind) hrow (hother.trans hid.symm)]

theorem fencingIn_row (hrows : (rows.map WriterLease.writerWorkspaceId).Nodup) {row : WriterLease}
    (hrow : row ∈ rows) : fencingIn rows row.writerWorkspaceId = row.fencing := by
  unfold fencingIn
  rw [find?_row hrows hrow rfl]
  rfl

theorem Moved.kept_fencing {p : WriterLease → Bool} {f : WriterLease → WriterLease}
    (hid : ∀ row, (f row).writerWorkspaceId = row.writerWorkspaceId)
    (hfencing : ∀ row, (f row).fencing = row.fencing) (id : String) :
    fencingIn (update rows p f) id = fencingIn rows id := by
  unfold fencingIn
  rw [find?_update fun row _ _ => by rw [hid row], Option.map_map]
  congr 2
  funext row
  show (if p row then f row else row).fencing = row.fencing
  split
  · exact hfencing row
  · rfl

theorem fencingIn_first {lease : WriterLease}
    (fresh : ∀ row ∈ rows, row.writerWorkspaceId ≠ lease.writerWorkspaceId) (id : String) :
    fencingIn rows id ≤ fencingIn (rows ++ [lease]) id ∧ fencingIn rows lease.writerWorkspaceId = 0 ∧
      fencingIn (rows ++ [lease]) lease.writerWorkspaceId = lease.fencing := by
  have hnone : rows.find? (fun row => row.writerWorkspaceId = lease.writerWorkspaceId) = none :=
    List.find?_eq_none.mpr fun row hrow => by simp [fresh row hrow]
  unfold fencingIn
  refine ⟨?_, ?_, ?_⟩
  · rw [List.find?_append]
    cases rows.find? (fun row => row.writerWorkspaceId = id) with
    | none => exact Nat.zero_le _
    | some row => exact Nat.le_refl _
  · rw [hnone]
    rfl
  · rw [List.find?_append, hnone]
    simp

theorem fencingIn_next {lease old : WriterLease}
    (hold : rows.find? (fun row => row.writerWorkspaceId = lease.writerWorkspaceId) = some old)
    (id : String) :
    fencingIn (update rows (fun row => row.writerWorkspaceId = lease.writerWorkspaceId) fun _ => lease) id =
      if id = lease.writerWorkspaceId then lease.fencing else fencingIn rows id := by
  unfold fencingIn
  rw [find?_update fun row _ hrow => by rw [show row.writerWorkspaceId = _ from of_decide_eq_true hrow]]
  split
  · rename_i hid
    rw [hid, hold]
    have hrow : old.writerWorkspaceId = lease.writerWorkspaceId := by simpa using List.find?_some hold
    simp [hrow]
  · rename_i hid
    cases hfind : rows.find? (fun row => row.writerWorkspaceId = id) with
    | none => rfl
    | some row =>
      have hrow : row.writerWorkspaceId = id := by simpa using List.find?_some hfind
      have hother : ¬row.writerWorkspaceId = lease.writerWorkspaceId := fun h => hid (hrow.symm.trans h)
      simp [hother]

/-- What a call does to the rows and to the log keeps them together. -/
theorem Moved.keeps (hm : Moved now rows rows' gs) (h : Kept log rows) : Kept (log ++ gs) rows' := by
  cases hm with
  | kept p f same =>
    rw [List.append_nil]
    refine ⟨?_, ?_, ?_⟩
    · rw [map_update _ fun row _ _ => (same row).1]
      exact h.one
    · apply h.topped.mono
      intro id
      rw [kept_fencing (fun row => (same row).1) (fun row => (same row).2.2.2)]
    · intro row hrow
      cases mem_update.mp hrow with
      | inl hwritten =>
        obtain ⟨old, hold, -, heq⟩ := hwritten
        obtain ⟨g, hg, hid, howner, htoken, hfencing⟩ := h.held old hold
        obtain ⟨sid, sowner, stoken, sfencing⟩ := same old
        rw [heq, sid, sowner, stoken, sfencing]
        exact ⟨g, hg, hid, howner, htoken, hfencing⟩
      | inr hsame => exact h.held row hsame.1
  | first lease fencing fresh =>
    refine ⟨?_, ?_, ?_⟩
    · rw [List.map_append, List.map_singleton, List.nodup_append]
      refine ⟨h.one, List.nodup_singleton _, fun a ha b hb => ?_⟩
      obtain ⟨row, hrow, rfl⟩ := List.mem_map.mp ha
      rw [List.mem_singleton.mp hb]
      exact fresh row hrow
    · obtain ⟨-, hzero, hlease⟩ := fencingIn_first fresh ""
      apply h.topped.concat
      · omega
      · exact fun id => (fencingIn_first fresh id).1
      · omega
    · intro row hrow
      cases List.mem_append.mp hrow with
      | inl hold =>
        obtain ⟨g, hg, hsame⟩ := h.held row hold
        exact ⟨g, List.mem_append_left _ hg, hsame⟩
      | inr hlast =>
        rw [List.mem_singleton.mp hlast]
        exact ⟨lease, List.mem_concat_self .., rfl, rfl, rfl, rfl⟩
  | next lease fencing ended =>
    obtain ⟨old, hold, -⟩ := ended
    refine ⟨?_, ?_, ?_⟩
    · rw [map_update _ fun row _ hrow => (of_decide_eq_true hrow).symm]
      exact h.one
    · apply h.topped.concat
      · omega
      · intro id
        rw [fencingIn_next hold]
        split
        · rename_i hid
          rw [hid]
          omega
        · exact Nat.le_refl _
      · rw [fencingIn_next hold, if_pos rfl]
    · intro row hrow
      cases mem_update.mp hrow with
      | inl hwritten =>
        obtain ⟨-, -, -, heq⟩ := hwritten
        rw [heq]
        exact ⟨lease, List.mem_concat_self .., rfl, rfl, rfl, rfl⟩
      | inr hsame =>
        obtain ⟨g, hg, hsame⟩ := h.held row hsame.1
        exact ⟨g, List.mem_append_left _ hg, hsame⟩

theorem called_kept (calls : List Call) : Kept (grants calls) (called calls).leases := by
  induction calls using List.reverseRecOn with
  | nil => exact ⟨List.nodup_nil, .nil, fun row h => absurd h List.not_mem_nil⟩
  | append_singleton calls c ih =>
    have hlog : grants (calls ++ [c]) = grants calls ++ granted (called calls) c := logFrom_concat ..
    have hworld : called (calls ++ [c]) = ((called calls).exec c).2 := by
      unfold called
      rw [List.foldl_append]
      rfl
    rw [hlog, hworld]
    exact (exec_moved (called calls) c).keeps ih

/-! ### Exclusive leases -/

/-- The lease is the last one granted for its workspace, and runs. -/
def Current (calls : List Call) (lease : WriterLease) : Prop :=
  (∃ g ∈ grants calls, g.writerWorkspaceId = lease.writerWorkspaceId ∧ g.token = lease.token ∧
    g.fencing = lease.fencing ∧
    ∀ g' ∈ grants calls, g'.writerWorkspaceId = lease.writerWorkspaceId → g'.fencing ≤ g.fencing) ∧
  ∃ row ∈ (called calls).leases, row.writerWorkspaceId = lease.writerWorkspaceId ∧
    row.token = lease.token ∧ row.fencing = lease.fencing ∧
    row.live (called calls).outside.clock = true

/-- A later lease has been granted for the workspace. -/
def Superseded (calls : List Call) (lease : WriterLease) : Prop :=
  ∃ g ∈ grants calls, g.writerWorkspaceId = lease.writerWorkspaceId ∧ lease.fencing < g.fencing

/-- After these calls. -/
structure Exclusive (calls : List Call) : Prop where
  one : ∀ id now, ((called calls).leases.filter fun row =>
    row.writerWorkspaceId = id && row.live now).length ≤ 1
  increasing : Increasing WriterLease.writerWorkspaceId WriterLease.fencing (grants calls)
  granted : ∀ c, ∀ g ∈ granted (called calls) c, ∀ row ∈ (called calls).leases,
    row.writerWorkspaceId = g.writerWorkspaceId → row.live (called calls).outside.clock = false
  renewed : ∀ lease expiresAt renewed,
    ((called calls).renewLease lease expiresAt).1 = .ok renewed → Current calls lease
  published : ∀ artifact lease published,
    ((called calls).exec (.publishArtifact artifact lease)).1 = .ok published →
      artifact.writerWorkspaceId = lease.writerWorkspaceId ∧ Current calls lease
  superseded : ∀ c lease, c.lease? = some lease → Superseded calls lease →
    ((called calls).exec c).2 = called calls

/-- A lease that holds a row is the last one granted. -/
theorem Kept.last (h : Kept log rows) {lease row : WriterLease} (hrow : row ∈ rows)
    (hholds : World.holds lease row = true) :
    ∃ g ∈ log, g.writerWorkspaceId = lease.writerWorkspaceId ∧ g.token = lease.token ∧
      g.fencing = lease.fencing ∧
      ∀ g' ∈ log, g'.writerWorkspaceId = lease.writerWorkspaceId → g'.fencing ≤ g.fencing := by
  obtain ⟨hid, -, htoken, hfencing, -⟩ := holds_iff.mp hholds
  obtain ⟨g, hg, hgid, -, hgtoken, hgfencing⟩ := h.held row hrow
  refine ⟨g, hg, hgid.trans hid, hgtoken.trans htoken, hgfencing.trans hfencing, fun g' hg' hsame => ?_⟩
  have hbound := h.topped.bounded g' hg'
  rw [hsame, ← hid, fencingIn_row h.one hrow] at hbound
  omega

theorem current_of_holds {calls : List Call} {lease row : WriterLease}
    (hrow : row ∈ (called calls).leases) (hholds : World.holds lease row = true)
    (hruns : (called calls).outside.clock < row.expiresAt) : Current calls lease := by
  obtain ⟨hid, -, htoken, hfencing, hreleased⟩ := holds_iff.mp hholds
  refine ⟨(called_kept calls).last hrow hholds, row, hrow, hid, htoken, hfencing, ?_⟩
  unfold WriterLease.live
  simp [hreleased, hruns]

/-- A superseded lease holds nothing. -/
theorem Superseded.not_holds {calls : List Call} {lease : WriterLease} (h : Superseded calls lease)
    {row : WriterLease} (hrow : row ∈ (called calls).leases) : World.holds lease row = false := by
  cases hholds : World.holds lease row with
  | false => rfl
  | true =>
    obtain ⟨g, -, -, -, hfencing, hlast⟩ := (called_kept calls).last hrow hholds
    obtain ⟨later, hlater, hid, hmore⟩ := h
    have hbound := hlast later hlater hid
    omega

/-- What `publish_artifact` has checked. -/
theorem publishArtifact_ok {artifact published : PatchCommitArtifact} {lease : WriterLease}
    (h : (w.publishArtifact artifact lease).1 = .ok published) :
    artifact.writerWorkspaceId = lease.writerWorkspaceId ∧
      ∃ row ∈ w.leases, World.holds lease row = true ∧ w.outside.clock < row.expiresAt := by
  unfold World.publishArtifact at h
  split at h
  · exact nomatch h
  · rename_i hchecked
    unfold World.checkArtifact at hchecked
    obtain ⟨hsame, hchecked⟩ := ok_of_guard hchecked
    obtain ⟨_, hlease, -⟩ := ok_of_bind hchecked
    refine ⟨not_not.mp hsame, ?_⟩
    unfold World.assertLease at hlease
    split at hlease
    · rename_i hany
      obtain ⟨row, hrow, hp⟩ := List.any_eq_true.mp hany
      rw [Bool.and_eq_true, decide_eq_true_eq] at hp
      exact ⟨row, hrow, hp⟩
    · exact nomatch hlease

theorem publishArtifact_error {artifact : PatchCommitArtifact} {lease : WriterLease} {e : Raised}
    (h : (w.publishArtifact artifact lease).1 = .error e) : (w.publishArtifact artifact lease).2 = w := by
  unfold World.publishArtifact at h ⊢
  split
  · rfl
  · rename_i hchecked
    rw [hchecked] at h
    exact nomatch h

/-- The calls that are made with a lease leave everything where it holds no row. -/
theorem exec_of_not_holds {c : Call} {lease : WriterLease} (hc : c.lease? = some lease)
    (hnone : ∀ row ∈ w.leases, World.holds lease row = false) : (w.exec c).2 = w := by
  have hanswer : (w.answer c).2 = w := by
    unfold Call.lease? at hc
    split at hc
    · rename_i expiresAt
      cases hc
      show (w.renewLease lease expiresAt).2 = w
      cases renewLease_cases w lease expiresAt with
      | inl hrefused =>
        obtain ⟨e, heq⟩ := hrefused
        rw [heq]
      | inr hrenewed =>
        obtain ⟨-, -, -, ⟨row, hrow, hholds, -⟩, -⟩ := hrenewed
        exact absurd hholds (by simp [hnone row hrow])
    · cases hc
      show (w.releaseLease lease).2 = w
      cases releaseLease_cases w lease with
      | inl hrefused =>
        obtain ⟨e, heq⟩ := hrefused
        rw [heq]
      | inr hreleased =>
        obtain ⟨-, -, -, ⟨row, hrow, hholds⟩, -⟩ := hreleased
        exact absurd hholds (by simp [hnone row hrow])
    · rename_i artifact _
      cases hc
      show (w.publishArtifact artifact lease).2 = w
      cases hreply : (w.publishArtifact artifact lease).1 with
      | error e => exact publishArtifact_error hreply
      | ok published =>
        obtain ⟨-, row, hrow, hholds, -⟩ := publishArtifact_ok hreply
        exact absurd hholds (by simp [hnone row hrow])
    · exact nomatch hc
  unfold World.exec
  split
  · exact hanswer
  · split
    · rfl
    · exact hanswer

/-- A lease is granted where there is none, or where the last one has ended. -/
theorem Moved.granted_free (hm : Moved now rows rows' gs)
    (hrows : (rows.map WriterLease.writerWorkspaceId).Nodup) {g row : WriterLease} (hg : g ∈ gs)
    (hrow : row ∈ rows) (hid : row.writerWorkspaceId = g.writerWorkspaceId) : row.live now = false := by
  cases hm with
  | kept => exact absurd hg List.not_mem_nil
  | first lease fencing fresh =>
    rw [List.mem_singleton.mp hg] at hid
    exact absurd hid (fresh row hrow)
  | next lease fencing ended =>
    rw [List.mem_singleton.mp hg] at hid
    obtain ⟨old, hold, hended⟩ := ended
    rw [find?_row hrows hrow hid] at hold
    cases hold
    exact hended

/-- Writer leases are exclusive, whatever the calls, their order, their tokens and the clock. -/
theorem writer_leases_exclusive (calls : List Call) : Exclusive calls := by
  have hkept := called_kept calls
  constructor
  · intro id now
    rw [← List.countP_eq_length_filter]
    calc (called calls).leases.countP (fun row => row.writerWorkspaceId = id && row.live now)
        ≤ (called calls).leases.countP (fun row => row.writerWorkspaceId = id) := by
          apply List.countP_mono_left
          intro row _ h
          exact (Bool.and_eq_true _ _ ▸ h).1
      _ ≤ 1 := countP_key_le_one hkept.one id
  · exact hkept.topped.increasing
  · intro c g hg row hrow hid
    exact (exec_moved (called calls) c).granted_free hkept.one hg hrow hid
  · intro lease expiresAt renewed h
    cases renewLease_cases (called calls) lease expiresAt with
    | inl hrefused =>
      obtain ⟨e, heq⟩ := hrefused
      rw [heq] at h
      exact nomatch h
    | inr hrenewed =>
      obtain ⟨-, -, -, ⟨row, hrow, hholds, hruns⟩, -⟩ := hrenewed
      exact current_of_holds hrow hholds hruns
  · intro artifact lease published h
    have hpublished : ((called calls).publishArtifact artifact lease).1 = .ok published := by
      unfold World.exec at h
      split at h
      · exact h
      · exact nomatch h
    obtain ⟨hsame, row, hrow, hholds, hruns⟩ := publishArtifact_ok hpublished
    exact ⟨hsame, current_of_holds hrow hholds hruns⟩
  · intro c lease hc hsuperseded
    exact exec_of_not_holds hc fun row hrow => hsuperseded.not_holds hrow

end Operant.MultiWriter
