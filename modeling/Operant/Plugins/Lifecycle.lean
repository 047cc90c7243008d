import Operant.Plugins.Leases
import Operant.Plugins.Ownership

/-! The lifecycle of installations and of their datasets, over whole histories.

Beside the calls of the registry a history has the cleanups of the host, which work through the open
items of a plan. -/
namespace Operant.Plugins
open Operant.Tables

/-! ### Cleanup -/

/-- An item that a cleanup works on, or works on again. -/
def CleanupItem.isOpen (item : CleanupItem) : Bool :=
  item.outcome = .pending ||
    item.outcome = .blocked && (item.reason = .directoryIdentityChanged || item.reason = .retryRequired)

/-- What becomes of a path that is to be removed. -/
inductive Removal where
  | removed
  | denied
  | failed

/-- The number of parts of a path; none, where there is no resource. -/
def depth (stored : Option StoredResource) : Nat :=
  match stored with
  | some stored => (stored.relativePath.splitOn "/").length
  | none => 0

/-- What is made of an item. -/
def cleaned (remove : StoredResource → Removal) (stored : Option StoredResource) (item : CleanupItem) : CleanupItem :=
  match stored.map remove with
  | none | some .removed => { item with outcome := .deleted, reason := .exclusive }
  | some .denied => { item with outcome := .blocked, reason := .directoryIdentityChanged, blockerIds := [] }
  | some .failed => { item with outcome := .blocked, reason := .retryRequired, blockerIds := [] }

namespace RegistryState

def storedOf (s : RegistryState) (installation : InstallationRecord) (item : CleanupItem) : Option StoredResource :=
  ((s.resourcesFor installation).filter (·.resource.resourceId = item.resourceId)).getLast?

/-- `_apply_cleanup`: the open items, the deepest paths first. -/
def applyCleanup (s : RegistryState) (plan : CleanupPlanRecord) (installation : InstallationRecord)
    (remove : StoredResource → Removal) : List Call :=
  let ordered := plan.items.mergeSort fun a b =>
    decide (depth (s.storedOf installation b) ≤ depth (s.storedOf installation a))
  (ordered.filter (·.isOpen)).map fun item =>
    .markResourceCleanup plan.operationId item.resourceId (cleaned remove (s.storedOf installation item) item)

/-- No item of the plan for the resource is open. -/
def Closed (s : RegistryState) (operationId : Nat) (resourceId : ResourceId) : Prop :=
  ∀ plan ∈ s.cleanupPlans, plan.operationId = operationId → ∀ item ∈ plan.items, item.resourceId = resourceId →
    item.isOpen = false

end RegistryState

/-- An event of the registry, or a cleanup of the host. -/
inductive HostEvent where
  | registry (e : Event)
  | cleanup (operationId : Nat) (remove : StoredResource → Removal) (outside : Outside)

namespace HostEvent

def events (r : Registry) : HostEvent → List Event
  | .registry e => [e]
  | .cleanup operationId remove outside => match r.state.cleanupPlan operationId with
    | .error _ => []
    | .ok plan => match r.state.installation plan.installationId with
      | .error _ => []
      | .ok installation => (r.state.applyCleanup plan installation remove).map (.call · outside true)

/-- What `resume_cleanup` does with a plan that has an open item. -/
def resume (operationId : Nat) (remove : StoredResource → Removal) (outside : Outside) : List HostEvent :=
  [.cleanup operationId remove outside, .registry (.call (.completeUninstall operationId) outside true)]

/-- The dataset that is transferred, or gets a consumer. -/
def moves : HostEvent → Option String
  | .registry (.call (.transferDataset request) ..) =>
    if request.mode = .transfer then some request.sourceDatasetId else none
  | .registry (.call (.attachDatasetConsumer datasetId _) ..) => some datasetId
  | _ => none

/-- The installation whose uninstallation begins. -/
def leaver : HostEvent → Option String
  | .registry (.call asked ..) => asked.leaver
  | _ => none

end HostEvent

def Registry.host (r : Registry) (events : List HostEvent) : Registry :=
  events.foldl (fun r e => r.run (e.events r)) r

/-! ### What events must meet -/

/-- Only open items are marked, each as itself. -/
def Call.Marks (call : Call) (s : RegistryState) : Prop :=
  match call with
  | .markResourceCleanup operationId resourceId item =>
    item.resourceId = resourceId ∧ ¬s.Closed operationId resourceId
  | _ => True

/-- The state file can be written, no plan is at work on a dataset that is moved, and the calls are
such that nothing is lost by them. -/
def HostEvent.Keeps (lost : List String) (r : Registry) (e : HostEvent) : Prop :=
  (∀ datasetId, e.moves = some datasetId → ∀ plan ∈ r.state.cleanupPlans, ∀ stored ∈ r.state.resources,
    stored.resource.owner.datasetId = datasetId → r.state.Closed plan.operationId stored.resource.resourceId) ∧
  match e with
  | .registry (.call asked _ writes) => writes = true ∧ asked.Keeps lost r.state ∧ asked.Marks r.state
  | .registry (.restart writes) => writes = true
  | .cleanup .. => True

/-- The datasets that are deleted now. -/
def RegistryState.deletedIds (s : RegistryState) : List String := Ownership.lostIds s.ownership

/-- A history, where the datasets in `lost` were deleted before. -/
def Registry.Keeps (lost : List String) (r : Registry) : List HostEvent → Prop
  | [] => True
  | e :: rest => e.Keeps lost r ∧
    Registry.Keeps (lost ++ (r.run (e.events r)).state.deletedIds) (r.run (e.events r)) rest

/-- A call does not mark this item. -/
def Call.PassesBy (call : Call) (operationId : Nat) (resourceId : ResourceId) : Prop :=
  match call with
  | .markResourceCleanup i r item => item.resourceId = r ∧ ¬(i = operationId ∧ r = resourceId)
  | _ => True

/-! ### Plans -/

namespace RegistryState
variable {s s' : RegistryState} {o : Outcome}

/-- Calls that leave the plans as they are. -/
theorem cleanupPlans_eq {call : Call} {outside : Outside} {fresh : Nat} (h : call.outcome outside fresh s = .ok o)
    (ha : o.assigned = some s') (hbegin : call.leaver = none) (hmark : ∀ i r item, call ≠ .markResourceCleanup i r item)
    (hcomplete : ∀ i, call ≠ .completeUninstall i) : s'.cleanupPlans = s.cleanupPlans := by
  cases call with
  | registerCertification certification =>
    have h : s.registerCertification outside certification = .ok o := h
    unfold registerCertification at h
    obtain ⟨_, -, h⟩ := Calls.ok_of_bind h
    split at h
    · obtain ⟨_, -, h⟩ := Calls.ok_of_bind h
      cases h
      exact nomatch ha
    · cases h
      cases ha
      rfl
  | revokeCertification certificationId =>
    have h : s.revokeCertification certificationId = .ok o := h
    unfold revokeCertification at h
    split at h
    · exact nomatch h
    · obtain ⟨_, -, h⟩ := Calls.ok_of_bind h
      cases h
      cases ha
      rfl
  | install request =>
    have h : s.install request = .ok o := h
    unfold install at h
    iterate 9 obtain ⟨_, -, h⟩ := Calls.ok_of_bind h
    cases h
    cases ha
    rfl
  | bind installationId datasetId config globalEnabled =>
    have h : s.bind fresh installationId datasetId config globalEnabled = .ok o := h
    unfold bind at h
    iterate 2 obtain ⟨_, -, h⟩ := Calls.ok_of_bind h
    split at h
    · obtain ⟨_, -, h⟩ := Calls.ok_of_bind h
      cases h
      exact nomatch ha
    · obtain ⟨_, -, h⟩ := Calls.ok_of_bind h
      split at h
      · exact nomatch h
      · cases h
        cases ha
        rfl
  | enable bindingId =>
    have h : s.enable outside bindingId = .ok o := h
    unfold enable at h
    iterate 5 obtain ⟨_, -, h⟩ := Calls.ok_of_bind h
    cases h
    cases ha
    rfl
  | beginDisable bindingId stopRunIds =>
    have h : s.beginDisable bindingId stopRunIds = .ok o := h
    unfold beginDisable at h
    iterate 3 obtain ⟨_, -, h⟩ := Calls.ok_of_bind h
    cases h
    cases ha
    rfl
  | completeDisable bindingId failed restartRequired =>
    have h : s.completeDisable bindingId failed restartRequired = .ok o := h
    unfold completeDisable at h
    iterate 2 obtain ⟨_, -, h⟩ := Calls.ok_of_bind h
    cases h
    cases ha
    rfl
  | markFailed installationId code =>
    have h : s.markFailed installationId code = .ok o := h
    unfold markFailed at h
    obtain ⟨_, -, h⟩ := Calls.ok_of_bind h
    cases h
    cases ha
    rfl
  | setGlobalEnabled bindingId enabled =>
    have h : s.setGlobalEnabled bindingId enabled = .ok o := h
    unfold setGlobalEnabled at h
    obtain ⟨_, -, h⟩ := Calls.ok_of_bind h
    cases h
    cases ha
    rfl
  | configureMaintenance bindingId enabled =>
    have h : s.configureMaintenance bindingId enabled = .ok o := h
    unfold configureMaintenance at h
    iterate 3 obtain ⟨_, -, h⟩ := Calls.ok_of_bind h
    split at h
    · cases h
      exact nomatch ha
    · cases h
      cases ha
      rfl
  | createRun bindingId runId scope ttl =>
    have h : s.createRun outside fresh bindingId runId scope ttl = .ok o := h
    unfold createRun at h
    iterate 5 obtain ⟨_, -, h⟩ := Calls.ok_of_bind h
    cases h
    cases ha
    rfl
  | releaseRun leaseId how =>
    have h : s.releaseRun leaseId how = .ok o := h
    unfold releaseRun at h
    obtain ⟨_, -, h⟩ := Calls.ok_of_bind h
    split at h
    · cases h
      exact nomatch ha
    · obtain ⟨_, -, h⟩ := Calls.ok_of_bind h
      cases h
      cases ha
      rfl
  | assertLease => exact nomatch (assertLease_none h).symm.trans ha
  | createResource => exact (createResource_only h ha).2.2.2
  | attachDatasetConsumer => exact (attachDatasetConsumer_only h ha).2.2.2
  | revokeDatasetConsumer => exact (revokeDatasetConsumer_only h ha).2.2.2
  | bumpResourceRevision => exact (bumpResourceRevision_only h ha).2.2.2
  | transferDataset request =>
    have h : s.transferDataset request = .ok o := h
    unfold transferDataset at h
    iterate 4 obtain ⟨_, -, h⟩ := Calls.ok_of_bind h
    split at h
    · obtain ⟨_, -, h⟩ := Calls.ok_of_bind h
      split at h
      · cases h
        exact nomatch ha
      · unfold transferOwner at h
        iterate 6 obtain ⟨_, -, h⟩ := Calls.ok_of_bind h
        cases h
        cases ha
        rfl
    · iterate 2 obtain ⟨_, -, h⟩ := Calls.ok_of_bind h
      split at h
      · cases h
        exact nomatch ha
      · cases h
        cases ha
        rfl
  | beginUninstall => exact nomatch hbegin
  | markResourceCleanup operationId resourceId item => exact absurd rfl (hmark operationId resourceId item)
  | completeUninstall operationId => exact absurd rfl (hcomplete operationId)

/-- A plan that is put in has the items of a plan with its id. -/
theorem mem_withPlan {updated plan : CleanupPlanRecord} (h : plan ∈ s.withPlan updated) :
    plan = updated ∨ plan ∈ s.cleanupPlans := by
  cases mem_update.mp h with
  | inl hput =>
    obtain ⟨_, -, -, heq⟩ := hput
    exact .inl heq
  | inr hold => exact .inr hold.1

/-- What calls do to plans: a plan of a new id comes, or an item is marked. -/
theorem plans_of_call {call : Call} {outside : Outside} {fresh : Nat} (h : call.outcome outside fresh s = .ok o)
    (ha : o.assigned = some s') : ∀ plan' ∈ s'.cleanupPlans, plan'.operationId = fresh ∨ ∃ plan ∈ s.cleanupPlans,
      plan.operationId = plan'.operationId ∧ ∀ resourceId, call.PassesBy plan'.operationId resourceId →
        ∀ item ∈ plan'.items, item.resourceId = resourceId → item ∈ plan.items := by
  intro plan' hplan'
  cases call with
  | beginUninstall installationId dataPolicy stopRunIds expectedBindingEpoch =>
    have h : s.beginUninstall fresh installationId dataPolicy stopRunIds expectedBindingEpoch = .ok o := h
    unfold beginUninstall at h
    iterate 4 obtain ⟨_, -, h⟩ := Calls.ok_of_bind h
    cases h
    cases ha
    cases List.mem_append.mp hplan' with
    | inl hold => exact .inr ⟨plan', hold, rfl, fun _ _ item hitem _ => hitem⟩
    | inr hlast =>
      rw [List.mem_singleton.mp hlast]
      exact .inl rfl
  | markResourceCleanup i r item =>
    have h : s.markResourceCleanup i r item = .ok o := h
    unfold markResourceCleanup at h
    obtain ⟨plan, hplan, h⟩ := Calls.ok_of_bind h
    obtain ⟨_, -, h⟩ := Calls.ok_of_bind h
    obtain ⟨hmem, hid⟩ := cleanupPlan_ok hplan
    cases h
    cases ha
    cases mem_withPlan hplan' with
    | inr hold => exact .inr ⟨plan', hold, rfl, fun _ _ item hitem _ => hitem⟩
    | inl heq =>
      rw [heq]
      refine .inr ⟨plan, hmem, rfl, fun resourceId hother x hx hresource => ?_⟩
      cases mem_update.mp hx with
      | inl hput =>
        obtain ⟨_, -, -, rfl⟩ := hput
        obtain ⟨hitself, hne⟩ := hother
        exact absurd ⟨hid.symm, hitself.symm.trans hresource⟩ hne
      | inr hkept => exact hkept.1
  | completeUninstall i =>
    have h : s.completeUninstall i = .ok o := h
    unfold completeUninstall at h
    obtain ⟨plan, hplan, h⟩ := Calls.ok_of_bind h
    obtain ⟨hmem, -⟩ := cleanupPlan_ok hplan
    split at h
    · cases h
      cases ha
      cases mem_withPlan hplan' with
      | inr hold => exact .inr ⟨plan', hold, rfl, fun _ _ item hitem _ => hitem⟩
      | inl heq =>
        rw [heq]
        exact .inr ⟨plan, hmem, rfl, fun _ _ item hitem _ => hitem⟩
    · obtain ⟨_, -, h⟩ := Calls.ok_of_bind h
      split at h
      · exact nomatch h
      · cases h
        cases ha
        cases mem_withPlan hplan' with
        | inr hold => exact .inr ⟨plan', hold, rfl, fun _ _ item hitem _ => hitem⟩
        | inl heq =>
          rw [heq]
          exact .inr ⟨plan, hmem, rfl, fun _ _ item hitem _ => hitem⟩
  | _ =>
    have hsame := cleanupPlans_eq h ha rfl (fun _ _ _ => Call.noConfusion) (fun _ => Call.noConfusion)
    rw [hsame] at hplan'
    exact .inr ⟨plan', hplan', rfl, fun _ _ item hitem _ => hitem⟩

theorem fenceRecoveredRuns_plans (h : s.fenceRecoveredRuns = some s') : s'.cleanupPlans = s.cleanupPlans := by
  unfold fenceRecoveredRuns at h
  dsimp only at h
  split at h
  · exact nomatch h
  · cases h
    rfl

/-- Closed items stay so. -/
theorem Closed.of_call {operationId fresh : Nat} {resourceId : ResourceId} (hclosed : s.Closed operationId resourceId)
    (hold : operationId < fresh) {call : Call} {outside : Outside} (h : call.outcome outside fresh s = .ok o)
    (ha : o.assigned = some s') (hpasses : call.PassesBy operationId resourceId) :
    s'.Closed operationId resourceId := by
  intro plan' hplan' hid item hitem hresource
  cases plans_of_call h ha plan' hplan' with
  | inl hnew => exact absurd (hid.symm.trans hnew) (Nat.ne_of_lt hold)
  | inr hbefore =>
    obtain ⟨plan, hplan, hpid, hitems⟩ := hbefore
    rw [hid] at hpid hitems
    exact hclosed plan hplan hpid item (hitems resourceId hpasses item hitem hresource) hresource

end RegistryState

/-! ### What events keep -/

structure Registry.Kept (lost : List String) (r : Registry) : Prop where
  inv : Ownership.Inv lost r.state.ownership
  saved : r.state = r.stored
  plans : ∀ plan ∈ r.state.cleanupPlans, plan.operationId < r.fresh

/-- What a registry may become, where an uninstallation begins at most for `leaver`. -/
structure Registry.Leads (lost : List String) (leaver : Option String) (r r' : Registry) : Prop where
  kept : r'.Kept lost
  /-- Who is uninstalled stays so. -/
  stays : ∀ installation ∈ r.state.installations, installation.state = .uninstalled →
    leaver ≠ some installation.installationId → ∃ installation' ∈ r'.state.installations,
      installation'.installationId = installation.installationId ∧ installation'.state = .uninstalled
  fresh : r.fresh ≤ r'.fresh

namespace Registry
variable {lost : List String} {leaver : Option String} {r r' r'' : Registry}

theorem kept_empty : ({} : Registry).Kept [] := ⟨.of_empty, rfl, fun _ h => nomatch h⟩

theorem Kept.refl (hk : r.Kept lost) : r.Leads lost leaver r :=
  ⟨hk, fun installation hmem hgone _ => ⟨installation, hmem, rfl, hgone⟩, Nat.le_refl _⟩

theorem Leads.trans (h : r.Leads lost leaver r') (h' : r'.Leads lost leaver r'') : r.Leads lost leaver r'' where
  kept := h'.kept
  stays installation hmem hgone hstays := by
    obtain ⟨i', hi', hid, hgone'⟩ := h.stays installation hmem hgone hstays
    obtain ⟨i'', hi'', hid', hgone''⟩ := h'.stays i' hi' hgone' (by rwa [hid])
    exact ⟨i'', hi'', hid'.trans hid, hgone''⟩
  fresh := Nat.le_trans h.fresh h'.fresh

theorem Leads.of_none (h : r.Leads lost none r') : r.Leads lost leaver r' :=
  ⟨h.kept, fun installation hmem hgone _ => h.stays installation hmem hgone nofun, h.fresh⟩

/-- A state that is a step ahead, in memory and in the file. -/
theorem Kept.step (hk : r.Kept lost) {s : RegistryState}
    (hstep : Ownership.Step lost r.state.ownership leaver s.ownership)
    (hplans : ∀ plan' ∈ s.cleanupPlans, plan'.operationId = r.fresh ∨ ∃ plan ∈ r.state.cleanupPlans,
      plan.operationId = plan'.operationId) :
    r.Leads lost leaver { state := s, stored := s, fresh := r.fresh + 1 } where
  kept := by
    refine ⟨hstep.inv hk.inv, rfl, fun plan' hplan' => ?_⟩
    show plan'.operationId < r.fresh + 1
    cases hplans plan' hplan' with
    | inl hnew => omega
    | inr hbefore =>
      obtain ⟨plan, hplan, hid⟩ := hbefore
      have hlt := hk.plans plan hplan
      omega
  stays installation hmem hgone hstays := by
    obtain ⟨k', hk', hid, hphase⟩ := hstep.gone (List.mem_map_of_mem hmem) (phase_gone.mpr hgone) hstays
    obtain ⟨installation', hmem', rfl⟩ := List.mem_map.mp hk'
    exact ⟨installation', hmem', hid, phase_gone.mp hphase⟩
  fresh := Nat.le_succ _

theorem Kept.perform (hk : r.Kept lost) (call : Call) (outside : Outside) (hkeeps : call.Keeps lost r.state) :
    r.Leads lost call.leaver (r.perform (call.outcome outside r.fresh r.state) true).2 := by
  have hnext : r.Leads lost call.leaver { r with fresh := r.fresh + 1 } :=
    ⟨⟨hk.inv, hk.saved, fun plan hplan => Nat.lt_succ_of_lt (hk.plans plan hplan)⟩,
      fun installation hmem hgone _ => ⟨installation, hmem, rfl, hgone⟩, Nat.le_succ _⟩
  unfold Registry.perform
  cases h : call.outcome outside r.fresh r.state with
  | error error => exact hnext
  | ok o =>
    dsimp only
    cases ha : o.assigned with
    | none => exact hnext
    | some s =>
      apply hk.step (Call.owns hk.inv hkeeps h ha)
      intro plan' hplan'
      cases RegistryState.plans_of_call h ha plan' hplan' with
      | inl hnew => exact .inl hnew
      | inr hbefore =>
        obtain ⟨plan, hplan, hid, -⟩ := hbefore
        exact .inr ⟨plan, hplan, hid⟩

theorem perform_closed {call : Call} {outside : Outside} {operationId : Nat} {resourceId : ResourceId}
    (hclosed : r.state.Closed operationId resourceId) (hold : operationId < r.fresh)
    (hpasses : call.PassesBy operationId resourceId) :
    (r.perform (call.outcome outside r.fresh r.state) true).2.state.Closed operationId resourceId := by
  unfold Registry.perform
  cases h : call.outcome outside r.fresh r.state with
  | error error => exact hclosed
  | ok o =>
    dsimp only
    cases ha : o.assigned with
    | none => exact hclosed
    | some s => exact hclosed.of_call hold h ha hpasses

/-- The call, or what an installation is made of. -/
def Part (r : Registry) (call asked : Call) (r' : Registry) : Prop :=
  (asked = call ∧ r' = r) ∨ (∃ request, call = .install request ∧ asked = call) ∨
    ∃ certification, asked = .registerCertification certification

/-- What holds of a call, where each part keeps it. -/
theorem call_induction {motive : Registry → Prop} {call : Call} {outside : Outside} (hself : motive r)
    (hperform : ∀ (asked : Call) (r' : Registry), r.Part call asked r' → motive r' →
      motive (r'.perform (asked.outcome outside r'.fresh r'.state) true).2) :
    motive (r.call call outside true).2 := by
  cases call with
  | install request =>
    unfold Registry.call
    dsimp only
    split
    · exact hself
    · split
      · exact hperform _ r (.inl ⟨rfl, rfl⟩) hself
      · rename_i certification _
        have hfirst := hperform (.registerCertification certification) r (.inr (.inr ⟨certification, rfl⟩)) hself
        split
        · rename_i heq
          rw [show (r.perform ((Call.registerCertification certification).outcome outside r.fresh r.state) true) = _
            from heq] at hfirst
          exact hfirst
        · rename_i heq
          rw [show (r.perform ((Call.registerCertification certification).outcome outside r.fresh r.state) true) = _
            from heq] at hfirst
          exact hperform _ _ (.inr (.inl ⟨request, rfl, rfl⟩)) hfirst
  | _ => exact hperform _ r (.inl ⟨rfl, rfl⟩) hself

theorem Kept.call (hk : r.Kept lost) (call : Call) (outside : Outside) (hkeeps : call.Keeps lost r.state) :
    r.Leads lost call.leaver (r.call call outside true).2 := by
  apply call_induction hk.refl
  intro asked r' hpart hleads
  apply hleads.trans
  rcases hpart with ⟨rfl, rfl⟩ | ⟨request, rfl, rfl⟩ | ⟨certification, rfl⟩
  · exact hleads.kept.perform asked outside hkeeps
  · exact hleads.kept.perform (.install request) outside trivial
  · exact (hleads.kept.perform (.registerCertification certification) outside trivial).of_none

theorem perform_fresh (outcome : Except Raised Outcome) : r.fresh ≤ (r.perform outcome true).2.fresh := by
  unfold Registry.perform
  cases outcome with
  | error error => exact Nat.le_succ _
  | ok o =>
    dsimp only
    cases o.assigned <;> exact Nat.le_succ _

theorem call_closed {call : Call} (outside : Outside) {operationId : Nat} {resourceId : ResourceId}
    (hclosed : r.state.Closed operationId resourceId) (hold : operationId < r.fresh)
    (hpasses : call.PassesBy operationId resourceId) :
    (r.call call outside true).2.state.Closed operationId resourceId ∧ operationId < (r.call call outside true).2.fresh := by
  apply call_induction (motive := fun r' => r'.state.Closed operationId resourceId ∧ operationId < r'.fresh)
    ⟨hclosed, hold⟩
  intro asked r' hpart hr'
  refine ⟨perform_closed hr'.1 hr'.2 ?_, Nat.lt_of_lt_of_le hr'.2 (perform_fresh _)⟩
  rcases hpart with ⟨rfl, -⟩ | ⟨request, rfl, rfl⟩ | ⟨certification, rfl⟩
  · exact hpasses
  · trivial
  · trivial

/-! ### Events -/

theorem Kept.restart (hk : r.Kept lost) : r.Leads lost none (r.restart true).2 := by
  unfold Registry.restart
  cases hfenced : r.stored.fenceRecoveredRuns with
  | none =>
    show r.Leads lost none ⟨r.stored, r.stored, r.fresh⟩
    rw [show (⟨r.stored, r.stored, r.fresh⟩ : Registry) = ⟨r.state, r.stored, r.fresh⟩ by rw [← hk.saved]]
    exact hk.refl
  | some s =>
    rw [← hk.saved] at hfenced
    apply hk.step (RegistryState.fenceRecoveredRuns_owns hfenced)
    intro plan' hplan'
    rw [RegistryState.fenceRecoveredRuns_plans hfenced] at hplan'
    exact .inr ⟨plan', hplan', rfl⟩

theorem Kept.restart_closed (hk : r.Kept lost) {operationId : Nat} {resourceId : ResourceId}
    (hclosed : r.state.Closed operationId resourceId) :
    (r.restart true).2.state.Closed operationId resourceId := by
  unfold Registry.restart
  rw [← hk.saved]
  cases hfenced : r.state.fenceRecoveredRuns with
  | none => exact hclosed
  | some s =>
    show s.Closed operationId resourceId
    unfold RegistryState.Closed
    rw [RegistryState.fenceRecoveredRuns_plans hfenced]
    exact hclosed

/-- The calls of a cleanup. -/
theorem Kept.marks (hk : r.Kept lost) (outside : Outside) {calls : List Call}
    (hmarks : ∀ call ∈ calls, ∃ i resource item, call = .markResourceCleanup i resource item) :
    r.Leads lost none (r.run (calls.map (.call · outside true))) := by
  induction calls generalizing r with
  | nil => exact hk.refl
  | cons call rest ih =>
    obtain ⟨i, resource, item, rfl⟩ := hmarks _ List.mem_cons_self
    have hfirst := hk.call (.markResourceCleanup i resource item) outside trivial
    exact hfirst.trans (ih hfirst.kept fun call hcall => hmarks call (List.mem_cons_of_mem _ hcall))

theorem marks_closed {outside : Outside} {calls : List Call} {operationId : Nat} {resourceId : ResourceId}
    (hpasses : ∀ call ∈ calls, call.PassesBy operationId resourceId) (hclosed : r.state.Closed operationId resourceId)
    (hold : operationId < r.fresh) :
    (r.run (calls.map (.call · outside true))).state.Closed operationId resourceId := by
  induction calls generalizing r with
  | nil => exact hclosed
  | cons call rest ih =>
    have hnext := call_closed outside hclosed hold (hpasses call List.mem_cons_self)
    exact ih (fun call hcall => hpasses call (List.mem_cons_of_mem _ hcall)) hnext.1 hnext.2

end Registry

namespace RegistryState
variable {s : RegistryState}

theorem cleaned_resourceId (remove : StoredResource → Removal) (stored : Option StoredResource) (item : CleanupItem) :
    (cleaned remove stored item).resourceId = item.resourceId := by
  unfold cleaned
  split <;> rfl

/-- A cleanup marks the open items of its plan. -/
theorem mem_applyCleanup {plan : CleanupPlanRecord} {installation : InstallationRecord} {remove : StoredResource → Removal}
    {call : Call} (h : call ∈ s.applyCleanup plan installation remove) : ∃ item ∈ plan.items, item.isOpen = true ∧
      call = .markResourceCleanup plan.operationId item.resourceId
        (cleaned remove (s.storedOf installation item) item) := by
  unfold applyCleanup at h
  obtain ⟨item, hitem, rfl⟩ := List.mem_map.mp h
  obtain ⟨hmem, hopen⟩ := List.mem_filter.mp hitem
  exact ⟨item, List.mem_mergeSort.mp hmem, hopen, rfl⟩

theorem applyCleanup_passes {plan : CleanupPlanRecord} (hplan : plan ∈ s.cleanupPlans)
    {installation : InstallationRecord} {remove : StoredResource → Removal} {operationId : Nat} {resourceId : ResourceId}
    (hclosed : s.Closed operationId resourceId) {call : Call} (h : call ∈ s.applyCleanup plan installation remove) :
    call.PassesBy operationId resourceId := by
  obtain ⟨item, hitem, hopen, rfl⟩ := mem_applyCleanup h
  refine ⟨cleaned_resourceId _ _ _, fun hboth => ?_⟩
  have hnot := hclosed plan hplan hboth.1 item hitem hboth.2
  cases hnot.symm.trans hopen

end RegistryState

namespace Registry
variable {lost : List String} {r : Registry}

theorem Kept.host (hk : r.Kept lost) {e : HostEvent} (hkeeps : e.Keeps lost r) :
    r.Leads lost e.leaver (r.run (e.events r)) := by
  obtain ⟨-, hkeeps⟩ := hkeeps
  cases e with
  | registry e =>
    cases e with
    | call asked outside writes =>
      obtain ⟨rfl, hkeeps, -⟩ := hkeeps
      exact hk.call asked outside hkeeps
    | restart writes =>
      have hwrites : writes = true := hkeeps
      rw [hwrites]
      exact hk.restart
  | cleanup operationId remove outside =>
    show r.Leads lost none (r.run (match r.state.cleanupPlan operationId with
      | .error _ => _
      | .ok plan => _))
    split
    · exact hk.refl
    · split
      · exact hk.refl
      · apply hk.marks outside
        intro call hcall
        obtain ⟨item, -, -, rfl⟩ := RegistryState.mem_applyCleanup hcall
        exact ⟨_, _, _, rfl⟩

theorem Kept.host_closed (hk : r.Kept lost) {e : HostEvent} (hkeeps : e.Keeps lost r) {operationId : Nat}
    {resourceId : ResourceId} (hclosed : r.state.Closed operationId resourceId) (hold : operationId < r.fresh) :
    (r.run (e.events r)).state.Closed operationId resourceId := by
  obtain ⟨-, hkeeps⟩ := hkeeps
  cases e with
  | registry e =>
    cases e with
    | call asked outside writes =>
      obtain ⟨rfl, -, hmarks⟩ := hkeeps
      refine (call_closed outside hclosed hold ?_).1
      cases asked with
      | markResourceCleanup i resource item =>
        obtain ⟨hitself, hopen⟩ := hmarks
        refine ⟨hitself, fun hboth => ?_⟩
        rw [hboth.1, hboth.2] at hopen
        exact hopen hclosed
      | _ => trivial
    | restart writes =>
      have hwrites : writes = true := hkeeps
      rw [hwrites]
      exact hk.restart_closed hclosed
  | cleanup i remove outside =>
    show (r.run (match r.state.cleanupPlan i with
      | .error _ => _
      | .ok plan => _)).state.Closed operationId resourceId
    split
    · exact hclosed
    · rename_i plan hplan
      split
      · exact hclosed
      · apply marks_closed _ hclosed hold
        intro call hcall
        exact RegistryState.applyCleanup_passes (RegistryState.cleanupPlan_ok hplan).1 hclosed hcall

/-! ### Histories -/

/-- The invariant, where `lost` has every dataset that is deleted now. -/
def Settled (lost : List String) (r : Registry) : Prop :=
  r.Kept lost ∧ ∀ datasetId ∈ r.state.deletedIds, datasetId ∈ lost

theorem Kept.settled (hk : r.Kept lost) : r.Settled (lost ++ r.state.deletedIds) :=
  ⟨⟨hk.inv.lose, hk.saved, hk.plans⟩, fun _ h => List.mem_append_right _ h⟩

theorem Settled.host (hs : r.Settled lost) {events : List HostEvent} (hkeeps : r.Keeps lost events) :
    ∃ lost', (∀ d ∈ lost, d ∈ lost') ∧ (r.host events).Settled lost' ∧ r.fresh ≤ (r.host events).fresh ∧
      (∀ more, r.Keeps lost (events ++ more) → (r.host events).Keeps lost' more) := by
  induction events generalizing r lost with
  | nil => exact ⟨lost, fun _ h => h, hs, Nat.le_refl _, fun _ h => h⟩
  | cons e rest ih =>
    obtain ⟨he, hrest⟩ := hkeeps
    have hleads := hs.1.host he
    obtain ⟨lost', hsub, hsettled, hfresh, hmore⟩ := ih hleads.kept.settled hrest
    exact ⟨lost', fun d hd => hsub d (List.mem_append_left _ hd), hsettled, Nat.le_trans hleads.fresh hfresh,
      fun more h => hmore more h.2⟩

theorem Keeps.append {events more : List HostEvent} (h : r.Keeps lost (events ++ more)) : r.Keeps lost events := by
  induction events generalizing r lost with
  | nil => trivial
  | cons e rest ih => exact ⟨h.1, ih h.2⟩

theorem Settled.stays (hs : r.Settled lost) {events : List HostEvent} (hkeeps : r.Keeps lost events)
    {installation : InstallationRecord} (hmem : installation ∈ r.state.installations)
    (hgone : installation.state = .uninstalled)
    (hstays : ∀ e ∈ events, e.leaver ≠ some installation.installationId) :
    ∃ installation' ∈ (r.host events).state.installations,
      installation'.installationId = installation.installationId ∧ installation'.state = .uninstalled := by
  induction events generalizing r lost installation with
  | nil => exact ⟨installation, hmem, rfl, hgone⟩
  | cons e rest ih =>
    obtain ⟨he, hrest⟩ := hkeeps
    have hleads := hs.1.host he
    obtain ⟨i', hi', hid, hgone'⟩ := hleads.stays installation hmem hgone (hstays e List.mem_cons_self)
    rw [← hid] at hstays ⊢
    exact ih hleads.kept.settled hrest hi' hgone' fun e he => hstays e (List.mem_cons_of_mem _ he)

theorem Settled.closed (hs : r.Settled lost) {events : List HostEvent} (hkeeps : r.Keeps lost events)
    {operationId : Nat} {resourceId : ResourceId} (hclosed : r.state.Closed operationId resourceId)
    (hold : operationId < r.fresh) : (r.host events).state.Closed operationId resourceId := by
  induction events generalizing r lost with
  | nil => exact hclosed
  | cons e rest ih =>
    obtain ⟨he, hrest⟩ := hkeeps
    have hleads := hs.1.host he
    exact ih hleads.kept.settled hrest (hs.1.host_closed he hclosed hold) (Nat.lt_of_lt_of_le hold hleads.fresh)

end Registry

/-- A cleanup of the host leaves a closed item alone. -/
theorem HostEvent.cleanup_passes {r : Registry} {operationId : Nat} {resourceId : ResourceId}
    (hclosed : r.state.Closed operationId resourceId) (remove : StoredResource → Removal) (outside : Outside) :
    ∀ e ∈ (HostEvent.cleanup operationId remove outside).events r, ∀ item outside writes,
      e ≠ .call (.markResourceCleanup operationId resourceId item) outside writes := by
  intro e he item outside' writes heq
  have he : e ∈ (match r.state.cleanupPlan operationId with
    | .error _ => []
    | .ok plan => match r.state.installation plan.installationId with
      | .error _ => []
      | .ok installation => (r.state.applyCleanup plan installation remove).map (Event.call · outside true)) := he
  split at he
  · exact absurd he List.not_mem_nil
  · rename_i plan hplan
    split at he
    · exact absurd he List.not_mem_nil
    · obtain ⟨call, hcall, rfl⟩ := List.mem_map.mp he
      have hpasses := RegistryState.applyCleanup_passes (RegistryState.cleanupPlan_ok hplan).1 hclosed hcall
      cases heq
      exact hpasses.2 ⟨rfl, rfl⟩

/-- An installation that is bound and enabled, and one whose uninstallation begins. -/
def startBoth : List HostEvent := [
  .registry (.call (anyInstall "a") anyOutside true),
  .registry (.call (.bind "a" none none true) anyOutside true),
  .registry (.call (.enable 1) anyOutside true),
  .registry (.call (anyInstall "b") anyOutside true),
  .registry (.call (.beginUninstall "b" .keep [] none) anyOutside true)]

/-- What was uninstalled, and its data kept, is uninstalled once more to delete them. -/
def uninstallTwice : List HostEvent :=
  .registry (.call (anyInstall "a") anyOutside true) ::
  .registry (.call (.beginUninstall "a" .keep [] none) anyOutside true) ::
  (["package", "indexes", "cache", "tmp", "logs"].map fun path =>
    .registry (.call (.markResourceCleanup 1 ⟨"a", path⟩ ⟨⟨"a", path⟩, .deleted, .exclusive, []⟩) anyOutside true)) ++
  [.registry (.call (.completeUninstall 1) anyOutside true)]

end Operant.Plugins
