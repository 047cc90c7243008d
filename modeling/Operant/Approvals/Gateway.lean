import Operant.Security.Decides
import Operant.Tables.Rows

/-! Approvals of actions that a policy asks about.

`guard` requests an approval once for each action, and answers by the status of its row. That a row
has passed its deadline is written by two other calls only, so `guard` asks about requests that
nobody can decide any more.

`ask_open_iff`: what `guard` asks about can be decided exactly if the row of the action is neither
pending nor approved past its deadline. -/
namespace Operant.Approvals
open Operant.Security Operant.Tables

inductive ApprovalStatus where
  | pending
  | approved
  | denied
  | expired
  | consumed
  deriving DecidableEq

def ApprovalStatus.value : ApprovalStatus → String
  | .pending => "pending"
  | .approved => "approved"
  | .denied => "denied"
  | .expired => "expired"
  | .consumed => "consumed"

/-- A row of `phase45_approval_requests`. Times are instants. -/
structure Approval where
  id : String
  actionHash : ActionHash
  target : NormalizedTarget
  policyVersion : String
  status : ApprovalStatus
  requestedAt : Nat
  expiresAt : Nat
  decidedBy : Option String := none
  reasonCode : Option String := none
  decidedAt : Option Nat := none
  consumedAt : Option Nat := none
  deriving DecidableEq

abbrev Requests := List Approval

namespace Requests

/-- `ensure_phase45_approval`: the row of the action, and whether it is new. -/
def ensure (table : Requests) (approvalId : String) (actionHash : ActionHash) (target : NormalizedTarget)
    (policyVersion : String) (now expiresAt : Nat) : Except Raised (Approval × Bool) × Requests :=
  match table.find? fun row => row.actionHash = actionHash with
  | none =>
    if table.any fun row => row.id = approvalId then (throw (.other "IntegrityError"), table)
    else
      let row : Approval := ⟨approvalId, actionHash, target, policyVersion, .pending, now, expiresAt,
        none, none, none, none⟩
      (.ok (row, true), table ++ [row])
  | some row =>
    if row.target ≠ target ∨ row.policyVersion ≠ policyVersion then
      (throw (.conflict "approval action binding changed"), table)
    else (.ok (row, false), table)

/-- `get_phase45_approval`. -/
def get (table : Requests) (approvalId : String) (now : Nat) : Except Raised Approval × Requests :=
  match table.find? fun row => row.id = approvalId with
  | none => (throw .key, table)
  | some row =>
    if row.status = .pending ∧ row.expiresAt ≤ now then
      (.ok { row with status := .expired },
        update table (fun row => row.id = approvalId && row.status = .pending) fun row => { row with status := .expired })
    else (.ok row, table)

def desired (approved : Bool) : ApprovalStatus := if approved then .approved else .denied

/-- `decide_phase45_approval`: the row, and whether it changed. -/
def decide (table : Requests) (approvalId : String) (approved : Bool) (decidedBy : String) (reasonCode : Option String)
    (now : Nat) : Except Raised (Approval × Bool) × Requests :=
  if decidedBy ∉ ["user", "reviewer"] then (throw (.value "approval decision identity is invalid"), table)
  else match table.find? fun row => row.id = approvalId with
    | none => (throw .key, table)
    | some row =>
      if row.status = .pending ∧ row.expiresAt ≤ now then
        (throw (.conflict "approval has expired"),
          update table (fun row => row.id = approvalId) fun row => { row with status := .expired })
      else
        if row.status = desired approved then (.ok (row, false), table)
        else if row.status ≠ .pending then (throw (.conflict "approval is no longer pending"), table)
        -- The column has a check of its own.
        else if !reasonCode.all fun code => hasLength code 1 200 then (throw (.other "IntegrityError"), table)
        else
          let write (row : Approval) : Approval :=
            { row with status := desired approved, decidedBy := some decidedBy, reasonCode, decidedAt := some now }
          (.ok (write row, true),
            update table (fun row => row.id = approvalId && row.status = .pending) write)

/-- `consume_phase45_approval`: whether a row was consumed. -/
def consume (table : Requests) (actionHash : ActionHash) (policyVersion : String) (now : Nat) : Bool × Requests :=
  let consumable (row : Approval) : Bool :=
    row.actionHash = actionHash && row.policyVersion = policyVersion && row.status = .approved && now < row.expiresAt
  ((table.filter consumable).length = 1,
    update table consumable fun row => { row with status := .consumed, consumedAt := some now })

end Requests

/-- An action as `guard` has normalized and recorded it: under the version of the engine's bundle,
with a hash that binds target and version. -/
structure Guarded (bundle : PolicyBundle) where
  action : ActionRequest
  version : action.policyVersion = bundle.version
  hashesTarget : action.actionHash.target = action.normalizedTarget
  hashesVersion : action.actionHash.policyVersion = action.policyVersion

/-- What the normalizer accepts under the bundle's version can be guarded. -/
def Guarded.ofNormalized {bundle : PolicyBundle} {p : Proposal} {host : Host} {action : ActionRequest}
    (h : p.normalize host = .ok action) (hversion : action.policyVersion = bundle.version) : Guarded bundle where
  action := action
  version := hversion
  hashesTarget := (normalize_ok h).1.target
  hashesVersion := (normalize_ok h).1.policyVersion

/-- `McpGatewayResult`, without the lease of an action that is allowed. -/
structure GatewayResult where
  decision : GatewayDecision
  reasonCode : String
  approvalId : Option String := none

/-- Ten minutes, in microseconds. -/
def approvalLifetime : Nat := 600000000

/-- What the clock says when a request is made, when an approval is consumed, and at the end. -/
structure Readings where
  asks : Nat
  consumes : Nat
  returns : Nat

/-- `guard`, from the recorded action on and up to the leases. -/
def guard (bundle : PolicyBundle) (action : ActionRequest) (clock : Readings) (approvalId : String)
    (table : Requests) : Except Raised GatewayResult × Requests :=
  let evaluation := bundle.evaluate action
  match evaluation.decision with
  | .allow => (.ok { decision := .allow, reasonCode := evaluation.reasonCode }, table)
  | .deny => (.ok { decision := .deny, reasonCode := evaluation.reasonCode }, table)
  | .ask =>
    match table.ensure approvalId action.actionHash action.normalizedTarget action.policyVersion clock.asks
      (clock.asks + approvalLifetime) with
    | (.error e, table) => (.error e, table)
    | (.ok (approval, _), table) =>
      let asked : GatewayResult :=
        { decision := .ask, reasonCode := evaluation.reasonCode, approvalId := some approval.id }
      match approval.status with
      | .pending => (.ok asked, table)
      | .approved =>
        let current := bundle.evaluate action
        if current.decision = .ask ∧ current.policyVersion = approval.policyVersion then
          match table.consume action.actionHash current.policyVersion clock.consumes with
          | (true, table) => (.ok { decision := .allow, reasonCode := "approval.granted" }, table)
          | (false, table) => (.ok asked, table)
        else (.ok asked, table)
      | status =>
        (.ok { decision := .deny, reasonCode := "approval." ++ status.value, approvalId := some approval.id }, table)

/-! ### Runs -/

inductive Move where
  | guard (bundle : PolicyBundle) (action : Guarded bundle) (clock : Readings) (approvalId : String)
  | get (approvalId : String) (now : Nat)
  | decide (approvalId : String) (approved : Bool) (decidedBy : String) (reasonCode : Option String) (now : Nat)

def Move.after (table : Requests) : Move → Requests
  | .guard bundle action clock approvalId => (Approvals.guard bundle action.action clock approvalId table).2
  | .get approvalId now => (table.get approvalId now).2
  | .decide approvalId approved decidedBy reasonCode now =>
    (table.decide approvalId approved decidedBy reasonCode now).2

/-- The table after some calls. -/
def run (moves : List Move) : Requests := moves.foldl Move.after []

/-! ### What holds of every table -/

/-- Ids and action hashes are unique, and a row says of its action what the hash says. -/
structure Sound (table : Requests) : Prop where
  ids : (table.map (·.id)).Nodup
  hashes : (table.map (·.actionHash)).Nodup
  target : ∀ row ∈ table, row.target = row.actionHash.target
  version : ∀ row ∈ table, row.policyVersion = row.actionHash.policyVersion

theorem Sound.nil : Sound [] :=
  ⟨List.nodup_nil, List.nodup_nil, fun _ h => absurd h List.not_mem_nil, fun _ h => absurd h List.not_mem_nil⟩

/-- The binding of a row is not written. -/
def KeepsBinding (f : Approval → Approval) : Prop :=
  ∀ row, (f row).id = row.id ∧ (f row).actionHash = row.actionHash ∧ (f row).target = row.target ∧
    (f row).policyVersion = row.policyVersion

section
variable {table : Requests}

theorem Sound.update (h : Sound table) {p : Approval → Bool} {f : Approval → Approval} (hf : KeepsBinding f) :
    Sound (update table p f) where
  ids := by
    rw [map_update (·.id) fun row (_ : row ∈ table) _ => (hf row).1]
    exact h.ids
  hashes := by
    rw [map_update (·.actionHash) fun row (_ : row ∈ table) _ => (hf row).2.1]
    exact h.hashes
  target row hrow := by
    rcases mem_update.mp hrow with ⟨old, hold, -, rfl⟩ | ⟨hrow, -⟩
    · rw [(hf old).2.2.1, (hf old).2.1, h.target old hold]
    · exact h.target row hrow
  version row hrow := by
    rcases mem_update.mp hrow with ⟨old, hold, -, rfl⟩ | ⟨hrow, -⟩
    · rw [(hf old).2.2.2, (hf old).2.1, h.version old hold]
    · exact h.version row hrow

theorem Sound.append (h : Sound table) {row : Approval} (hid : ∀ other ∈ table, other.id ≠ row.id)
    (hhash : ∀ other ∈ table, other.actionHash ≠ row.actionHash) (htarget : row.target = row.actionHash.target)
    (hversion : row.policyVersion = row.actionHash.policyVersion) : Sound (table ++ [row]) where
  ids := by
    rw [List.map_append, List.map_singleton, List.nodup_append]
    refine ⟨h.ids, List.nodup_singleton _, fun a ha b hb => ?_⟩
    obtain ⟨other, hother, rfl⟩ := List.mem_map.mp ha
    exact List.mem_singleton.mp hb ▸ hid other hother
  hashes := by
    rw [List.map_append, List.map_singleton, List.nodup_append]
    refine ⟨h.hashes, List.nodup_singleton _, fun a ha b hb => ?_⟩
    obtain ⟨other, hother, rfl⟩ := List.mem_map.mp ha
    exact List.mem_singleton.mp hb ▸ hhash other hother
  target other hother := by
    rcases List.mem_append.mp hother with hold | hnew
    · exact h.target other hold
    · exact List.mem_singleton.mp hnew ▸ htarget
  version other hother := by
    rcases List.mem_append.mp hother with hold | hnew
    · exact h.version other hold
    · exact List.mem_singleton.mp hnew ▸ hversion

theorem Sound.get (h : Sound table) (approvalId : String) (now : Nat) : Sound (table.get approvalId now).2 := by
  unfold Requests.get
  split
  · exact h
  · split
    · exact h.update fun _ => ⟨rfl, rfl, rfl, rfl⟩
    · exact h

theorem Sound.decide (h : Sound table) (approvalId : String) (approved : Bool) (decidedBy : String)
    (reasonCode : Option String) (now : Nat) :
    Sound (table.decide approvalId approved decidedBy reasonCode now).2 := by
  unfold Requests.decide
  split
  · exact h
  · split
    · exact h
    · split
      · exact h.update fun _ => ⟨rfl, rfl, rfl, rfl⟩
      · split
        · exact h
        · split
          · exact h
          · split
            · exact h
            · exact h.update fun _ => ⟨rfl, rfl, rfl, rfl⟩

theorem Sound.consume (h : Sound table) (actionHash : ActionHash) (policyVersion : String) (now : Nat) :
    Sound (table.consume actionHash policyVersion now).2 := h.update fun _ => ⟨rfl, rfl, rfl, rfl⟩

/-! ### What `guard` finds -/

variable {bundle : PolicyBundle} (action : Guarded bundle) (clock : Readings) (approvalId : String)

/-- The row of an action that is asked about for the first time. -/
def Guarded.request (action : Guarded bundle) (approvalId : String) (now : Nat) : Approval :=
  ⟨approvalId, action.action.actionHash, action.action.normalizedTarget, action.action.policyVersion, .pending, now,
    now + approvalLifetime, none, none, none, none⟩

def Guarded.row (action : Guarded bundle) (table : Requests) : Option Approval :=
  table.find? fun row => row.actionHash = action.action.actionHash

theorem ensure_new (hnone : action.row table = none) (hfresh : ∀ row ∈ table, row.id ≠ approvalId) (now : Nat) :
    table.ensure approvalId action.action.actionHash action.action.normalizedTarget action.action.policyVersion now
      (now + approvalLifetime) = (.ok (action.request approvalId now, true), table ++ [action.request approvalId now]) := by
  have hany : (table.any fun row => row.id = approvalId) = false := by
    rw [List.any_eq_false]
    intro row hrow
    rw [decide_eq_true_eq]
    exact hfresh row hrow
  unfold Guarded.row at hnone
  unfold Requests.ensure
  rw [hnone, hany]
  rfl

/-- What is asked for again is bound as it was. -/
theorem ensure_again (h : Sound table) {row : Approval} (hrow : action.row table = some row) (now expiresAt : Nat) :
    table.ensure approvalId action.action.actionHash action.action.normalizedTarget action.action.policyVersion now
      expiresAt = (.ok (row, false), table) := by
  have hmem := List.mem_of_find?_eq_some hrow
  have hhash := List.find?_some hrow
  rw [decide_eq_true_eq] at hhash
  have htarget : row.target = action.action.normalizedTarget := by
    rw [h.target row hmem, hhash, action.hashesTarget]
  have hversion : row.policyVersion = action.action.policyVersion := by
    rw [h.version row hmem, hhash, action.hashesVersion]
  unfold Guarded.row at hrow
  unfold Requests.ensure
  rw [hrow]
  dsimp only
  rw [if_neg (by simp [htarget, hversion])]

/-- Anybody who may decide can decide it, either way. -/
def CanDecide (table : Requests) (approvalId : String) (now : Nat) : Prop :=
  ∀ approved, ∀ decidedBy ∈ ["user", "reviewer"], ∀ reasonCode : Option String,
    (reasonCode.all fun code => hasLength code 1 200) = true →
    ∃ row, (table.decide approvalId approved decidedBy reasonCode now).1 = .ok (row, true)

/-- The approval is pending and has time left, and so can be decided. -/
structure Open (table : Requests) (approvalId : String) (now : Nat) : Prop where
  pending : ∃ row ∈ table, row.id = approvalId ∧ row.status = .pending ∧ now < row.expiresAt
  decidable : CanDecide table approvalId now

theorem open_iff (h : Sound table) {row : Approval} (hrow : row ∈ table) {now : Nat} :
    Open table row.id now ↔ row.status = .pending ∧ now < row.expiresAt := by
  constructor
  · intro hopen
    obtain ⟨other, hother, hid, hpending, htime⟩ := hopen.pending
    obtain rfl := eq_of_key h.ids hother hrow hid
    exact ⟨hpending, htime⟩
  · rintro ⟨hpending, htime⟩
    refine ⟨⟨row, hrow, rfl, hpending, htime⟩, fun approved decidedBy hby reasonCode hreason => ?_⟩
    unfold Requests.decide
    rw [if_neg (not_not.mpr hby), find?_of_key h.ids hrow]
    dsimp only
    have hdesired : row.status ≠ Requests.desired approved := by
      rw [hpending]
      cases approved <;> decide
    rw [if_neg (by omega), if_neg hdesired, if_neg (not_not.mpr hpending), if_neg (by simp [hreason])]
    exact ⟨_, rfl⟩

/-- An approved row is consumed while it has time left, and otherwise nothing happens. -/
theorem consume_row (h : Sound table) {row : Approval} (hrow : row ∈ table) (happroved : row.status = .approved)
    (now : Nat) :
    (now < row.expiresAt → (table.consume row.actionHash row.policyVersion now).1 = true) ∧
    (row.expiresAt ≤ now → table.consume row.actionHash row.policyVersion now = (false, table)) := by
  unfold Requests.consume
  dsimp only
  constructor
  · intro htime
    refine decide_eq_true (rowcount_of_key (k := row.actionHash) h.hashes (fun r _ hr => ?_) hrow ?_)
    · simp only [Bool.and_eq_true, decide_eq_true_eq] at hr
      exact hr.1.1.1
    · simp [happroved, htime]
  · intro htime
    have hnone (r : Approval) (hr : r ∈ table) :
        (decide (r.actionHash = row.actionHash) && decide (r.policyVersion = row.policyVersion) &&
          decide (r.status = .approved) && decide (now < r.expiresAt)) = false := by
      by_cases hhash : r.actionHash = row.actionHash
      · obtain rfl := eq_of_key h.hashes hr hrow hhash
        simp [Nat.not_lt.mpr htime]
      · simp [hhash]
    rw [update_eq_self hnone, List.filter_eq_nil_iff.mpr fun r hr => by rw [hnone r hr]; exact Bool.false_ne_true]
    rfl

/-- The answer that leaves the action to whoever decides. -/
def asked (bundle : PolicyBundle) (action : ActionRequest) (approvalId : String) : GatewayResult :=
  { decision := .ask, reasonCode := (bundle.evaluate action).reasonCode, approvalId := some approvalId }

theorem guard_new (hask : (bundle.evaluate action.action).decision = .ask) (hnone : action.row table = none)
    (hfresh : ∀ row ∈ table, row.id ≠ approvalId) :
    guard bundle action.action clock approvalId table =
      (.ok (asked bundle action.action approvalId), table ++ [action.request approvalId clock.asks]) := by
  unfold guard
  dsimp only
  rw [hask, ensure_new action approvalId hnone hfresh]
  rfl

theorem guard_pending (h : Sound table) (hask : (bundle.evaluate action.action).decision = .ask) {row : Approval}
    (hrow : action.row table = some row) (hpending : row.status = .pending) :
    guard bundle action.action clock approvalId table = (.ok (asked bundle action.action row.id), table) := by
  unfold guard
  dsimp only
  rw [hask, ensure_again action approvalId h hrow]
  dsimp only
  rw [hpending]
  rfl

theorem guard_approved (h : Sound table) (hask : (bundle.evaluate action.action).decision = .ask) {row : Approval}
    (hrow : action.row table = some row) (happroved : row.status = .approved) :
    (clock.consumes < row.expiresAt →
      (guard bundle action.action clock approvalId table).1 = .ok { decision := .allow, reasonCode := "approval.granted" }) ∧
    (row.expiresAt ≤ clock.consumes →
      guard bundle action.action clock approvalId table = (.ok (asked bundle action.action row.id), table)) := by
  have hmem := List.mem_of_find?_eq_some hrow
  have hhash : row.actionHash = action.action.actionHash := by simpa using List.find?_some hrow
  have hversion : row.policyVersion = bundle.version := by
    rw [h.version row hmem, hhash, action.hashesVersion, action.version]
  obtain ⟨hconsumed, hleft⟩ := consume_row h hmem happroved clock.consumes
  have hsame : (bundle.evaluate action.action).decision = .ask ∧
      (bundle.evaluate action.action).policyVersion = row.policyVersion :=
    ⟨hask, (bundle.evaluate_policyVersion action.action).trans hversion.symm⟩
  unfold guard
  dsimp only
  rw [hask, ensure_again action approvalId h hrow]
  dsimp only
  rw [happroved]
  dsimp only
  rw [if_pos ⟨rfl, hsame.2⟩, hsame.2, ← hhash]
  constructor
  · intro htime
    have hyes := hconsumed htime
    generalize table.consume row.actionHash row.policyVersion clock.consumes = consumed at hyes
    obtain ⟨_, left⟩ := consumed
    obtain rfl := hyes
    rfl
  · intro htime
    rw [hleft htime]
    rfl

theorem guard_closed (h : Sound table) (hask : (bundle.evaluate action.action).decision = .ask) {row : Approval}
    (hrow : action.row table = some row) (hpending : row.status ≠ .pending) (happroved : row.status ≠ .approved) :
    ∃ result, (guard bundle action.action clock approvalId table).1 = .ok result ∧ result.decision = .deny := by
  unfold guard
  dsimp only
  rw [hask, ensure_again action approvalId h hrow]
  dsimp only
  cases hstatus : row.status with
  | pending => exact absurd hstatus hpending
  | approved => exact absurd hstatus happroved
  | denied => exact ⟨_, rfl, rfl⟩
  | expired => exact ⟨_, rfl, rfl⟩
  | consumed => exact ⟨_, rfl, rfl⟩

/-! ### Runs keep tables sound -/

theorem Sound.guard (h : Sound table) : Sound (guard bundle action.action clock approvalId table).2 := by
  cases hdecision : (bundle.evaluate action.action).decision with
  | allow => simpa [Approvals.guard, hdecision] using h
  | deny => simpa [Approvals.guard, hdecision] using h
  | ask =>
    cases hrow : action.row table with
    | none =>
      by_cases hfresh : ∀ row ∈ table, row.id ≠ approvalId
      · rw [guard_new action clock approvalId hdecision hrow hfresh]
        refine h.append hfresh (fun other hother => ?_) action.hashesTarget.symm action.hashesVersion.symm
        have hother := List.find?_eq_none.mp hrow other hother
        rw [decide_eq_true_eq] at hother
        exact hother
      · have hany : (table.any fun row => row.id = approvalId) = true := by simpa using hfresh
        unfold Guarded.row at hrow
        unfold Approvals.guard Requests.ensure
        dsimp only
        rw [hdecision, hrow, hany]
        exact h
    | some row =>
      unfold Approvals.guard
      dsimp only
      rw [hdecision, ensure_again action approvalId h hrow]
      dsimp only
      cases row.status with
      | pending => exact h
      | approved =>
        dsimp only
        split
        · have hkept := h.consume action.action.actionHash (bundle.evaluate action.action).policyVersion clock.consumes
          generalize table.consume action.action.actionHash (bundle.evaluate action.action).policyVersion
            clock.consumes = consumed at hkept ⊢
          obtain ⟨_ | _, left⟩ := consumed <;> exact hkept
        · exact h
      | denied => exact h
      | expired => exact h
      | consumed => exact h

theorem Sound.after (h : Sound table) (move : Move) : Sound (move.after table) := by
  cases move with
  | guard bundle action clock approvalId => exact h.guard action clock approvalId
  | get approvalId now => exact h.get approvalId now
  | decide approvalId approved decidedBy reasonCode now => exact h.decide approvalId approved decidedBy reasonCode now

theorem sound_run (moves : List Move) : Sound (run moves) := by
  suffices ∀ table, Sound table → Sound (moves.foldl Move.after table) from this [] .nil
  induction moves with
  | nil => exact fun _ h => h
  | cons move moves ih => exact fun table h => ih _ (h.after move)

/-! ### What `guard` asks about -/

/-- When `guard` asks, the approval it names can be decided. -/
def AskOpen (table : Requests) (action : Guarded bundle) (clock : Readings) (approvalId : String) : Prop :=
  ∀ result id, (guard bundle action.action clock approvalId table).1 = .ok result → result.decision = .ask →
    result.approvalId = some id → Open (guard bundle action.action clock approvalId table).2 id clock.returns

/-- The row of the action is neither pending nor approved past its deadline. A new row has all its
time, of which the call itself takes some. -/
def Timely (clock : Readings) : Option Approval → Prop
  | none => clock.returns < clock.asks + approvalLifetime
  | some row => ¬(row.status = .pending ∧ row.expiresAt ≤ clock.returns) ∧
      ¬(row.status = .approved ∧ row.expiresAt ≤ clock.consumes)

theorem askOpen_of_not_ask (h : (bundle.evaluate action.action).decision ≠ .ask) :
    AskOpen table action clock approvalId := by
  intro result id hresult hask
  unfold guard at hresult
  dsimp only at hresult
  cases hdecision : (bundle.evaluate action.action).decision with
  | ask => exact absurd hdecision h
  | allow =>
    rw [hdecision] at hresult
    cases hresult
    exact nomatch hask
  | deny =>
    rw [hdecision] at hresult
    cases hresult
    exact nomatch hask

/-- Where `guard` asks about a row, it is open or not by its status and its deadline. -/
theorem askOpen_of_asked {after : Requests} (h : Sound after) {row : Approval} (hrow : row ∈ after)
    (hguard : guard bundle action.action clock approvalId table = (.ok (asked bundle action.action row.id), after)) :
    AskOpen table action clock approvalId ↔ row.status = .pending ∧ clock.returns < row.expiresAt := by
  rw [← open_iff h hrow]
  unfold AskOpen
  rw [hguard]
  constructor
  · exact fun hopen => hopen _ _ rfl rfl rfl
  · intro hopen result id hresult _ hid
    cases hresult
    cases hid
    exact hopen

theorem askOpen_iff (h : Sound table) (hask : (bundle.evaluate action.action).decision = .ask)
    (hfresh : ∀ row ∈ table, row.id ≠ approvalId) :
    AskOpen table action clock approvalId ↔ Timely clock (action.row table) := by
  have hkept := h.guard action clock approvalId
  cases hrow : action.row table with
  | none =>
    have hguard := guard_new action clock approvalId hask hrow hfresh
    rw [hguard] at hkept
    rw [askOpen_of_asked action clock approvalId hkept (List.mem_append_right _ (List.mem_singleton_self _)) hguard]
    exact and_iff_right rfl
  | some row =>
    have hmem := List.mem_of_find?_eq_some hrow
    by_cases hpending : row.status = .pending
    · rw [askOpen_of_asked action clock approvalId h hmem (guard_pending action clock approvalId h hask hrow hpending)]
      simp [Timely, hpending]
    · by_cases happroved : row.status = .approved
      · obtain ⟨hallowed, hasked⟩ := guard_approved action clock approvalId h hask hrow happroved
        by_cases htime : clock.consumes < row.expiresAt
        · refine iff_of_true (fun result id hresult hask => ?_) (by simp [Timely, happroved, htime])
          rw [hallowed htime] at hresult
          cases hresult
          exact nomatch hask
        · rw [askOpen_of_asked action clock approvalId h hmem (hasked (Nat.le_of_not_lt htime))]
          simp [Timely, happroved, Nat.le_of_not_lt htime]
      · refine iff_of_true (fun result id hresult hanswer => ?_) (by simp [Timely, hpending, happroved])
        obtain ⟨other, hother, hdeny⟩ :=
          guard_closed action clock approvalId h hask hrow hpending happroved
        rw [hother] at hresult
        cases hresult
        exact nomatch hdeny.symm.trans hanswer

end

/-- After any calls, what `guard` asks about can be decided exactly if the row of the action is
neither pending nor approved past its deadline. -/
theorem ask_open_iff (moves : List Move) (bundle : PolicyBundle) (action : Guarded bundle) (clock : Readings)
    (approvalId : String) (hfresh : ∀ row ∈ run moves, row.id ≠ approvalId) :
    AskOpen (run moves) action clock approvalId ↔
      ((bundle.evaluate action.action).decision = .ask → Timely clock (action.row (run moves))) := by
  by_cases hask : (bundle.evaluate action.action).decision = .ask
  · rw [askOpen_iff action clock approvalId (sound_run moves) hask hfresh]
    exact ⟨fun h _ => h, fun h => h hask⟩
  · exact iff_of_true (askOpen_of_not_ask action clock approvalId hask) fun h => absurd h hask

/-- A push, which the balanced policy asks about. -/
def push : Guarded (balancedPolicyBundle "1") where
  action :=
    { principal := "core:phase45"
      tool := "git"
      operation := "push"
      normalizedTarget := { targetType := "workspace", targetId := "w1" }
      normalizedArguments := []
      workspaceId := some "w1"
      requestedCapabilities := [.gitPush]
      sandboxProfile := "isolated"
      networkProfile := "none"
      secretRefs := []
      dryRun := false
      idempotencyKey := "k1"
      actionHash :=
        { principal := "core:phase45"
          tool := "git"
          operation := "push"
          target := { targetType := "workspace", targetId := "w1" }
          arguments := .dict []
          workspaceId := some "w1"
          requestedCapabilities := [.gitPush]
          sandboxProfile := "isolated"
          networkProfile := "none"
          secretRefs := []
          dryRun := false
          idempotencyKey := "k1"
          policyVersion := "1"
          idempotencyLevel := .nonIdempotent }
      policyVersion := "1"
      idempotencyLevel := .nonIdempotent }
  version := rfl
  hashesTarget := rfl
  hashesVersion := rfl

theorem ask_open_iff_push :
    (((balancedPolicyBundle "1").evaluate push.action).decision = .ask → Timely ⟨0, 0, 0⟩ (push.row (run []))) ∧
      AskOpen (run []) push ⟨0, 0, 0⟩ "a1" :=
  ⟨fun _ => (by decide : 0 < approvalLifetime),
    (ask_open_iff [] _ push ⟨0, 0, 0⟩ "a1" (fun _ h => absurd h List.not_mem_nil)).mpr
      fun _ => (by decide : 0 < approvalLifetime)⟩

/-- The push is approved at once, and tried again after ten minutes: it is asked about for ever. -/
theorem approved_too_early : ¬∀ (moves : List Move) (bundle : PolicyBundle) (action : Guarded bundle) (clock : Readings)
    (approvalId : String), (∀ row ∈ run moves, row.id ≠ approvalId) → AskOpen (run moves) action clock approvalId := by
  intro h
  have hasked := h [.guard _ push ⟨0, 0, 0⟩ "a1", .decide "a1" true "user" none 1] _ push
    ⟨approvalLifetime, approvalLifetime, approvalLifetime⟩ "a2" (by decide)
  obtain ⟨row, hrow, -, hpending, -⟩ := (hasked _ _ rfl rfl rfl).pending
  obtain rfl := List.mem_singleton.mp hrow
  exact nomatch hpending

end Operant.Approvals
