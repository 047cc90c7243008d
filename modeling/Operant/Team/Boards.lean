import Operant.Team.Reading

/-! The boards of a team: tasks and artifacts.

Whoever writes, and also where a member is replaced, an item's revisions follow each other without a gap, each made by
one write. The log of the run tells them. -/
namespace Operant.Team
open Operant.Tables

variable {Content Digest : Type} {store after : Store Content Digest}

/-! ### The boards -/

/-- The revision of a task that an event tells. -/
def TeamEvent.taskRevision (taskId : String) (event : TeamEvent) : Option Nat :=
  match event.body with
  | .taskUpdated id revision => if id = taskId then some revision else none
  | _ => none

/-- The revision of an artifact that an event tells. An artifact is named by its run and its id. -/
def TeamEvent.artifactRevision (name : String × String) (event : TeamEvent) : Option Nat :=
  match event.body with
  | .artifactPublished id revision => if name = (event.teamRunId, id) then some revision else none
  | _ => none

def TeamArtifact.name (artifact : TeamArtifact Content) : String × String := (artifact.teamRunId, artifact.artifactId)

def Store.taskBoard (store : Store Content Digest) : Board String String Digest (TeamTask Content) where
  row taskId := (store.task? taskId).map TaskRow.kept
  revisions taskId := store.events.filterMap (TeamEvent.taskRevision taskId)

def Store.artifactBoard (store : Store Content Digest) : Board (String × String) String Digest (TeamArtifact Content) where
  row name := (store.artifact? name.1 name.2).map ArtifactRow.kept
  revisions name := store.events.filterMap (TeamEvent.artifactRevision name)

def ArtifactRow.name (row : ArtifactRow Content Digest) : String × String := (row.teamRunId, row.artifactId)

theorem artifact?_name (name : String × String) :
    store.artifact? name.1 name.2 = store.artifacts.find? fun row => row.name = name := by
  unfold Store.artifact?
  congr 1
  funext row
  obtain ⟨teamRunId, artifactId⟩ := name
  rw [Bool.eq_iff_iff]
  simp [ArtifactRow.name]

theorem artifactBoard_row (name : String × String) :
    store.artifactBoard.row name = (store.artifacts.find? fun row => row.name = name).map ArtifactRow.kept :=
  congrArg (Option.map ArtifactRow.kept) (artifact?_name name)

/-- The ids of `artifact_board_items` are unique, and made of the names. -/
structure ArtifactIds (store : Store Content Digest) : Prop where
  unique : (store.artifacts.map ArtifactRow.id).Nodup
  made : ∀ row ∈ store.artifacts, row.id = Store.boardId row.teamRunId row.artifactId

/-! ### What the log tells -/

/-- An event that tells of no write. -/
def EventBody.isOther : EventBody → Bool
  | .taskUpdated .. | .artifactPublished .. => false
  | _ => true

theorem appendEvent_revisions (tells : TeamEvent → Option Nat) {teamRunId : String} {body : EventBody}
    {told : Option Nat} (h : ∀ runSequence, tells ⟨teamRunId, runSequence, body⟩ = told) :
    (store.appendEvent teamRunId body).events.filterMap tells = store.events.filterMap tells ++ told.toList := by
  unfold Store.appendEvent
  rw [List.filterMap_append, List.filterMap_cons, h]
  cases told <;> rfl

/-- A step that leaves both boards as they are. -/
structure SameBoards (store after : Store Content Digest) : Prop where
  tasks : after.taskBoard = store.taskBoard
  artifacts : after.artifactBoard = store.artifactBoard
  rows : after.artifacts = store.artifacts

theorem boards_of_event {changed : Store Content Digest} {teamRunId : String} {body : EventBody}
    (htasks : changed.tasks = store.tasks) (hartifacts : changed.artifacts = store.artifacts)
    (hevents : changed.events = store.events) (h : body.isOther = true) :
    SameBoards store (changed.appendEvent teamRunId body) := by
  have htask (taskId : String) (runSequence : Nat) : TeamEvent.taskRevision taskId ⟨teamRunId, runSequence, body⟩ = none := by
    cases body <;> first | rfl | cases h
  have hartifact (name : String × String) (runSequence : Nat) :
      TeamEvent.artifactRevision name ⟨teamRunId, runSequence, body⟩ = none := by
    cases body <;> first | rfl | cases h
  refine ⟨?_, ?_, hartifacts⟩
  · unfold Store.taskBoard
    simp only [appendEvent_revisions _ (htask _), Option.toList_none, List.append_nil, hevents]
    simp only [Store.appendEvent, Store.task?, htasks]
  · unfold Store.artifactBoard
    simp only [appendEvent_revisions _ (hartifact _), Option.toList_none, List.append_nil, hevents]
    simp only [Store.appendEvent, Store.artifact?, hartifacts]

theorem same_boards : SameBoards store store := ⟨rfl, rfl, rfl⟩

theorem putTeamRun_boards {run result : TeamRun} (h : store.putTeamRun run = .ok (after, result)) :
    SameBoards store after := by
  unfold Store.putTeamRun at h
  split at h
  · split at h
    · cases h
    · cases h
      exact same_boards
  · split at h
    · cases h
    · cases h
      exact boards_of_event rfl rfl rfl rfl

theorem putRosterEntry_boards {entry result : RosterEntry} {now : Memory.Instant}
    (h : store.putRosterEntry entry now = .ok (after, result)) : SameBoards store after := by
  unfold Store.putRosterEntry at h
  dsimp only at h
  split at h
  · cases h
  · split at h
    · cases h
      exact ⟨rfl, rfl, rfl⟩
    · cases h
      exact ⟨rfl, rfl, rfl⟩

theorem ackDelivery_boards {ack result : MessageAck} (h : store.ackDelivery ack = .ok (after, result)) :
    SameBoards store after := by
  unfold Store.ackDelivery at h
  split at h
  · cases h
  · split at h
    · cases h
    · split at h
      · cases h
      · split at h
        · split at h
          · cases h
          · cases h
            exact same_boards
        · cases h
          exact boards_of_event rfl rfl rfl rfl

/-! ### What holds in every run -/

/-- What holds of the boards in every run. -/
structure BoardsSound (store : Store Content Digest) : Prop where
  tasks : store.taskBoard.Linear TeamTask.revision
  artifacts : store.artifactBoard.Linear TeamArtifact.revision
  ids : ArtifactIds store

theorem boards_new : BoardsSound ({} : Store Content Digest) where
  tasks _ := rfl
  artifacts _ := rfl
  ids := ⟨List.nodup_nil, fun _ hrow => by cases hrow⟩

theorem boards_same (h : BoardsSound store) (hsame : SameBoards store after) : BoardsSound after where
  tasks := hsame.tasks ▸ h.tasks
  artifacts := hsame.artifacts ▸ h.artifacts
  ids := ⟨hsame.rows ▸ h.ids.unique, hsame.rows ▸ h.ids.made⟩

theorem boards_after {α : Type} {result : Except Error (Store Content Digest × α)} (h : BoardsSound store)
    (hdone : ∀ done, result = .ok done → BoardsSound done.1) : BoardsSound (store.after result) := by
  cases result with
  | error => exact h
  | ok done => exact hdone done rfl

variable [DecidableEq Digest]

theorem projectMessage_boards {hash : MessageEnvelope Content → Digest} {message : MessageEnvelope Content}
    {key : String} {deliveryId : String → String} {result : Store.ProjectionApplyResult Content}
    (h : store.projectMessage hash message key deliveryId = .ok (after, result)) : SameBoards store after := by
  unfold Store.projectMessage at h
  split at h
  · split at h
    · cases h
    · cases h
      exact same_boards
  · split at h
    · cases h
    · split at h
      · cases h
      · cases h
        exact boards_of_event rfl rfl rfl rfl

/-! ### What the writes do -/

theorem applyTaskUpdate_boards {digest : TaskBoardUpdate Content → Digest} {write : TaskBoardUpdate Content}
    {result : BoardApplyResult} (h : store.applyTaskUpdate digest write = .ok (after, result)) :
    BoardStep TeamTask.revision digest TeamTask.taskId store.taskBoard after.taskBoard ∧
      after.artifactBoard = store.artifactBoard ∧ after.artifacts = store.artifacts := by
  have hsame (taskId : String) (runSequence : Nat) : TeamEvent.taskRevision taskId
      ⟨write.item.teamRunId, runSequence, .taskUpdated write.item.taskId write.item.revision⟩ =
        if taskId = write.item.taskId then some write.item.revision else none := by
    simp [TeamEvent.taskRevision, eq_comm]
  have hother (name : String × String) (runSequence : Nat) : TeamEvent.artifactRevision name
      ⟨write.item.teamRunId, runSequence, .taskUpdated write.item.taskId write.item.revision⟩ = none := rfl
  unfold Store.applyTaskUpdate at h
  split at h
  · cases h
  · cases h
  · cases h
    exact ⟨.same (fun _ => rfl) fun _ => rfl, rfl, rfl⟩
  · rename_i kept _ happly
    split at h
    · cases h
    · have hartifacts (tasks : List (TaskRow Content Digest)) :
          (Store.appendEvent { store with tasks } write.item.teamRunId
            (.taskUpdated write.item.taskId write.item.revision)).artifactBoard = store.artifactBoard := by
        unfold Store.artifactBoard
        simp only [appendEvent_revisions _ (hother _), Option.toList_none, List.append_nil]
        rfl
      have hrevisions (tasks : List (TaskRow Content Digest)) (taskId : String) :
          (Store.appendEvent { store with tasks } write.item.teamRunId
            (.taskUpdated write.item.taskId write.item.revision)).taskBoard.revisions taskId =
            if taskId = write.item.taskId then store.taskBoard.revisions taskId ++ [write.item.revision]
            else store.taskBoard.revisions taskId := by
        unfold Store.taskBoard
        simp only [appendEvent_revisions _ (hsame _)]
        split <;> simp
      split at h
      · rename_i hnone
        dsimp only at h
        split at h
        · cases h
        · cases h
          refine ⟨.wrote write kept result happly (fun taskId => ?_) (hrevisions _), hartifacts _, rfl⟩
          have hrow := @find?_append_key _ _ _ TaskRow.taskId store.tasks ⟨write.item.taskId, write.item.teamRunId, kept⟩
            hnone taskId
          refine (congrArg (Option.map TaskRow.kept) hrow).trans ?_
          split <;> rfl
      · rename_i row hrow
        cases h
        refine ⟨.wrote write kept result happly (fun taskId => ?_) (hrevisions _), hartifacts _, rfl⟩
        have hid : row.taskId = write.item.taskId := by simpa using List.find?_some hrow
        have hfound := @find?_update_key _ _ _ TaskRow.taskId store.tasks row (fun other => other.taskId = write.item.taskId)
          (fun other => { other with kept }) (fun _ => rfl) (fun other _ => by rw [hid, decide_eq_true_eq])
          (by rw [hid]; exact hrow) taskId
        rw [hid] at hfound
        refine (congrArg (Option.map TaskRow.kept) hfound).trans ?_
        split <;> rfl

theorem applyArtifactUpdate_boards {digest : ArtifactBoardUpdate Content → Digest}
    {write : ArtifactBoardUpdate Content} {result : BoardApplyResult}
    (hids : ArtifactIds store) (h : store.applyArtifactUpdate digest write = .ok (after, result)) :
    BoardStep TeamArtifact.revision digest TeamArtifact.name store.artifactBoard after.artifactBoard ∧
      after.taskBoard = store.taskBoard ∧ ArtifactIds after := by
  have hsame (name : String × String) (runSequence : Nat) : TeamEvent.artifactRevision name
      ⟨write.item.teamRunId, runSequence, .artifactPublished write.item.artifactId write.item.revision⟩ =
        if name = write.item.name then some write.item.revision else none := rfl
  have hother (taskId : String) (runSequence : Nat) : TeamEvent.taskRevision taskId
      ⟨write.item.teamRunId, runSequence, .artifactPublished write.item.artifactId write.item.revision⟩ = none := rfl
  unfold Store.applyArtifactUpdate at h
  split at h
  · cases h
  · cases h
  · cases h
    exact ⟨.same (fun _ => rfl) fun _ => rfl, rfl, hids⟩
  · rename_i kept _ happly
    split at h
    · cases h
    · have htasks (artifacts : List (ArtifactRow Content Digest)) :
          (Store.appendEvent { store with artifacts } write.item.teamRunId
            (.artifactPublished write.item.artifactId write.item.revision)).taskBoard = store.taskBoard := by
        unfold Store.taskBoard
        simp only [appendEvent_revisions _ (hother _), Option.toList_none, List.append_nil]
        rfl
      have hrevisions (artifacts : List (ArtifactRow Content Digest)) (name : String × String) :
          (Store.appendEvent { store with artifacts } write.item.teamRunId
            (.artifactPublished write.item.artifactId write.item.revision)).artifactBoard.revisions name =
            if name = write.item.name then store.artifactBoard.revisions name ++ [write.item.revision]
            else store.artifactBoard.revisions name := by
        unfold Store.artifactBoard
        simp only [appendEvent_revisions _ (hsame _)]
        split <;> simp
      split at h
      · rename_i hnone
        dsimp only at h
        split at h
        · cases h
        · rename_i hkeys
          cases h
          refine ⟨.wrote write kept result happly (fun name => ?_) (hrevisions _), htasks _, ?_⟩
          · have hrow := @find?_append_key _ _ _ ArtifactRow.name store.artifacts
              ⟨Store.boardId write.item.teamRunId write.item.artifactId, write.item.teamRunId,
                write.item.artifactId, kept⟩ ((artifact?_name write.item.name).symm.trans hnone) name
            have hname (id : String) : ArtifactRow.name ⟨id, write.item.teamRunId, write.item.artifactId, kept⟩ =
                write.item.name := rfl
            rw [hname] at hrow
            refine (artifactBoard_row name).trans ((congrArg (Option.map ArtifactRow.kept) hrow).trans ?_)
            rw [artifactBoard_row]
            split <;> rfl
          · constructor
            · simp only [Store.appendEvent]
              rw [List.map_append, List.nodup_append]
              refine ⟨hids.unique, List.nodup_singleton _, fun id hid other hnew heq => hkeys ?_⟩
              obtain ⟨row, hrow, rfl⟩ := List.mem_map.mp hid
              rw [List.mem_singleton.mp hnew] at heq
              rw [Bool.or_eq_true]
              exact .inr (List.any_eq_true.mpr ⟨row, hrow, decide_eq_true heq⟩)
            · intro row hrow
              rcases List.mem_append.mp hrow with hrow | hnew
              · exact hids.made row hrow
              · rw [List.mem_singleton.mp hnew]
      · rename_i row hrow
        cases h
        have hfind : (store.artifacts.find? fun other => other.name = write.item.name) = some row :=
          (artifact?_name write.item.name).symm.trans hrow
        have hname : row.name = write.item.name := by simpa using List.find?_some hfind
        refine ⟨.wrote write kept result happly (fun name => ?_) (hrevisions _), htasks _, ?_⟩
        · -- The row is the only one with its id, and the only one with its name.
          have hsingle (other : ArtifactRow Content Digest) (hother : other ∈ store.artifacts) :
              decide (other.id = row.id) = true ↔ other.name = row.name := by
            have hmem := List.mem_of_find?_eq_some hfind
            rw [decide_eq_true_eq]
            constructor
            · intro heq
              rw [eq_of_key hids.unique hother hmem heq]
            · intro heq
              obtain ⟨hrun, hartifact⟩ := Prod.mk.inj heq
              rw [hids.made other hother, hids.made row hmem, hrun, hartifact]
          have hfound := @find?_update_key _ _ _ ArtifactRow.name store.artifacts row (fun other => other.id = row.id)
            (fun other => { other with kept }) (fun _ => rfl) hsingle (by rw [hname]; exact hfind) name
          rw [hname] at hfound
          refine (artifactBoard_row name).trans ((congrArg (Option.map ArtifactRow.kept) hfound).trans ?_)
          rw [artifactBoard_row]
          split <;> rfl
        · have hsameIds : (update store.artifacts (fun other => other.id = row.id) fun other =>
              { other with kept }).map ArtifactRow.id = store.artifacts.map ArtifactRow.id := map_update _ fun _ _ _ => rfl
          refine ⟨hsameIds ▸ hids.unique, fun other hother => ?_⟩
          rcases mem_update.mp hother with ⟨old, hold, -, rfl⟩ | ⟨hold, -⟩
          · exact hids.made old hold
          · exact hids.made other hold

theorem replaceRosterAgent_boards {digest : TaskBoardUpdate Content → Digest} {old new result : RosterEntry}
    {allowCompleted : Bool} {now : Memory.Instant}
    (h : store.replaceRosterAgent digest old new allowCompleted now = .ok (after, result)) :
    BoardStep TeamTask.revision digest TeamTask.taskId store.taskBoard after.taskBoard ∧
      after.artifactBoard = store.artifactBoard ∧ after.artifacts = store.artifacts := by
  unfold Store.replaceRosterAgent at h
  split at h
  · cases h
  · split at h
    · split at h
      · cases h
      · split at h
        · cases h
        · split at h
          · cases h
          · split at h
            · cases h
            · dsimp only at h
              split at h
              · cases h
                exact ⟨.same (fun _ => rfl) fun _ => rfl, rfl, rfl⟩
              · -- The task is handed on by a write like any other.
                generalize happlied : Store.applyTaskUpdate _ digest _ = applied at h
                cases applied with
                | error => cases h
                | ok applied =>
                  cases h
                  have hboards := applyTaskUpdate_boards happlied
                  exact ⟨hboards.1, hboards.2.1, hboards.2.2⟩
    · cases h

/-! ### Every run -/

theorem boards_step (hashes : Hashes Content Digest) (h : BoardsSound store) (op : Op Content) :
    BoardsSound (store.step hashes op) := by
  cases op with
  | others others => exact boards_same h ⟨rfl, rfl, rfl⟩
  | putTeamRun run => exact boards_after h fun _ hdone => boards_same h (putTeamRun_boards hdone)
  | putRosterEntry entry now => exact boards_after h fun _ hdone => boards_same h (putRosterEntry_boards hdone)
  | replaceRosterAgent old new allowCompleted now =>
    refine boards_after h fun done hdone => ?_
    obtain ⟨htasks, hartifacts, hrows⟩ := replaceRosterAgent_boards hdone
    exact ⟨linear_step h.tasks htasks, hartifacts ▸ h.artifacts, hrows ▸ h.ids.unique, hrows ▸ h.ids.made⟩
  | sendMessage message key deliveryId =>
    refine boards_after h fun done hdone => boards_same h ?_
    unfold Store.sendMessage at hdone
    split at hdone
    · cases hdone
    · exact projectMessage_boards hdone
  | ackDelivery ack => exact boards_after h fun _ hdone => boards_same h (ackDelivery_boards hdone)
  | applyTaskUpdate write =>
    refine boards_after h fun done hdone => ?_
    obtain ⟨htasks, hartifacts, hrows⟩ := applyTaskUpdate_boards hdone
    exact ⟨linear_step h.tasks htasks, hartifacts ▸ h.artifacts, hrows ▸ h.ids.unique, hrows ▸ h.ids.made⟩
  | applyArtifactUpdate write =>
    refine boards_after h fun done hdone => ?_
    obtain ⟨hartifacts, htasks, hids⟩ := applyArtifactUpdate_boards h.ids hdone
    exact ⟨htasks ▸ h.tasks, linear_step h.artifacts hartifacts, hids⟩

/-- The store after a run. -/
def Store.run (hashes : Hashes Content Digest) (ops : List (Op Content)) : Store Content Digest :=
  ops.foldl (fun store op => store.step hashes op) {}

theorem boards_run (hashes : Hashes Content Digest) (ops : List (Op Content)) : BoardsSound (Store.run hashes ops) := by
  have hrun (store : Store Content Digest) (h : BoardsSound store) :
      BoardsSound (ops.foldl (fun store op => store.step hashes op) store) := by
    induction ops generalizing store with
    | nil => exact h
    | cons op rest ih => exact ih _ (boards_step hashes h op)
  exact hrun {} boards_new

theorem first_revision : 1 ≤ 1 := Nat.le_refl 1

theorem second_revision : 1 ≤ 2 := Nat.le_succ 1

def draft : TaskBoardUpdate Unit where
  idempotencyKey := "open"
  item := { taskId := "task", teamRunId := "run", updatedAt := 0, content := (), assignees_unique := List.nodup_nil,
            revision_pos := first_revision }

def assigned : TaskBoardUpdate Unit where
  idempotencyKey := "assign"
  item := { taskId := "task", teamRunId := "run", assigneeIds := ["helper"], status := .inProgress, revision := 2,
            updatedAt := 1, content := (), assignees_unique := List.nodup_singleton _, revision_pos := second_revision }
  expectedRevision := some 1

def assignedTwice : List (Op Unit) :=
  [.others office, .putTeamRun teamRun, .applyTaskUpdate draft, .applyTaskUpdate assigned, .applyTaskUpdate draft]

end Operant.Team
