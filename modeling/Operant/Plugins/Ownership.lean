import Operant.Ownership.Ledger
import Operant.Plugins.Ledger

/-! Datasets are owned by installations: the registry is a ledger of ownership.

An installation that is enabled writes its dataset, and an uninstalled one is gone. -/
namespace Operant.Plugins
open Operant.Tables
open Operant.Ownership (Phase Standing)

def PluginLifecycleState.phase : PluginLifecycleState → Phase
  | .enabled => .writing
  | .uninstalled => .gone
  | .disabled | .disabling | .uninstalling | .failed | .restartRequired | .blocked => .idle

def DatasetState.standing : DatasetState → Standing
  | .bound => .owned
  | .retained => .kept
  | .deleting | .blocked => .going
  | .deleted => .gone

def InstallationRecord.toOwner (installation : InstallationRecord) : Ownership.Holder String String :=
  ⟨installation.installationId, installation.datasetId, installation.state.phase⟩

def DatasetRecord.toItem (dataset : DatasetRecord) : Ownership.Item String String :=
  ⟨dataset.datasetId, dataset.installationId, dataset.state.standing⟩

def RegistryState.ownership (s : RegistryState) : Ownership.Ledger String String where
  holders := s.installations.map (·.toOwner)
  items := s.datasets.map (·.toItem)
  tied := s.bindings.map (·.installationId)

theorem phase_gone {state : PluginLifecycleState} : state.phase = .gone ↔ state = .uninstalled := by
  cases state <;> simp [PluginLifecycleState.phase]

theorem phase_writing {state : PluginLifecycleState} : state.phase = .writing ↔ state = .enabled := by
  cases state <;> simp [PluginLifecycleState.phase]

theorem standing_owned {state : DatasetState} : state.standing = .owned ↔ state = .bound := by
  cases state <;> simp [DatasetState.standing]

theorem standing_gone {state : DatasetState} : state.standing = .gone ↔ state = .deleted := by
  cases state <;> simp [DatasetState.standing]

/-! ### What a call must meet -/

namespace RegistryState
variable (s : RegistryState)

/-- The dataset of an installation is bound, and names it. -/
def Names (installation : InstallationRecord) : Prop :=
  ∃ dataset ∈ s.datasets, dataset.datasetId = installation.datasetId ∧
    dataset.installationId = some installation.installationId ∧ dataset.state = .bound

/-- No enabled installation, but for `installationId`, has the dataset. -/
def Unwritten (datasetId : String) (installationId : Option String) : Prop :=
  ∀ installation ∈ s.installations, installation.state = .enabled → installation.datasetId = datasetId →
    some installation.installationId = installationId

/-- The dataset belongs to the destination already, or it can be given away. -/
def Transfers (lost : List String) (request : TransferRequest) : Prop :=
  match request.mode with
  | .transfer => (∃ dataset ∈ s.datasets, dataset.datasetId = request.sourceDatasetId ∧
      dataset.installationId = some request.destinationInstallationId) ∨
    request.sourceDatasetId ∉ lost ∧ s.Unwritten request.sourceDatasetId none
  | .authorizedCopy => (∃ dataset ∈ s.datasets, dataset.datasetId = request.destinationDatasetId ∧
      dataset.installationId = some request.destinationInstallationId ∧ dataset.state = .bound) ∨
    request.destinationDatasetId ∉ lost ∧
      s.Unwritten request.destinationDatasetId (some request.destinationInstallationId)

/-- Where the plan retains something, its dataset was not deleted before. -/
def Completes (lost : List String) (operationId : Nat) : Prop :=
  ∀ plan ∈ s.cleanupPlans, plan.operationId = operationId → plan.items.any (·.outcome = .retained) = true →
    ∀ installation ∈ s.installations, installation.installationId = plan.installationId → installation.datasetId ∉ lost

end RegistryState

/-- A late callback finds its installation still there, a binding that is enabled has its dataset,
and no dataset that was deleted, or that an enabled installation has, is given away. -/
def Call.Keeps (call : Call) (lost : List String) (s : RegistryState) : Prop :=
  match call with
  | .enable bindingId => ∀ binding ∈ s.bindings, binding.bindingId = bindingId →
    ∀ installation ∈ s.installations, installation.installationId = binding.installationId → s.Names installation
  | .markFailed installationId _ => ∀ installation ∈ s.installations,
    installation.installationId = installationId → installation.state ≠ .uninstalled
  | .transferDataset request => s.Transfers lost request
  | .completeUninstall operationId => s.Completes lost operationId
  | _ => True

/-- The installation whose uninstallation begins. -/
def Call.leaver : Call → Option String
  | .beginUninstall installationId .. => some installationId
  | _ => none

/-! ### Tables -/

/-- What a row becomes that is put in for the rows with its key. -/
theorem map_put {α β κ : Type} [DecidableEq κ] {rows : List α} (proj : α → β) (key : β → κ) (row : α) :
    (update rows (fun old => key (proj old) = key (proj row)) fun _ => row).map proj =
      (rows.map proj).map fun b => if key b = key (proj row) then proj row else b := by
  rw [update, List.map_map, List.map_map]
  apply List.map_congr_left
  intro old _
  show proj (if decide (key (proj old) = key (proj row)) = true then row else old) =
    if key (proj old) = key (proj row) then proj row else proj old
  by_cases h : key (proj old) = key (proj row) <;> simp [h]

namespace RegistryState
variable {s s' : RegistryState} {lost : List String} {o : Outcome}

theorem owner_withInstallation (updated : InstallationRecord) :
    (s.withInstallation updated).map (·.toOwner) = s.ownership.holders.map fun h =>
      if h.id = updated.installationId then updated.toOwner else h :=
  map_put InstallationRecord.toOwner Ownership.Holder.id updated

theorem item_withDataset (updated : DatasetRecord) :
    (s.withDataset updated).map (·.toItem) = s.ownership.items.map fun x =>
      if x.id = updated.datasetId then updated.toItem else x :=
  map_put DatasetRecord.toItem Ownership.Item.id updated

theorem owner_eq (hi : Ownership.Inv lost s.ownership) {installation : InstallationRecord}
    (hmem : installation ∈ s.installations) {h : Ownership.Holder String String} (hh : h ∈ s.ownership.holders)
    (hid : h.id = installation.installationId) : h = installation.toOwner :=
  hi.holder_eq hh (List.mem_map_of_mem hmem) hid

theorem item_eq (hi : Ownership.Inv lost s.ownership) {dataset : DatasetRecord} (hmem : dataset ∈ s.datasets)
    {x : Ownership.Item String String} (hx : x ∈ s.ownership.items) (hid : x.id = dataset.datasetId) :
    x = dataset.toItem :=
  hi.item_eq hx (List.mem_map_of_mem hmem) hid

/-- The installation of a binding is not gone. -/
theorem not_gone (hi : Ownership.Inv lost s.ownership) {binding : BindingRecord} (hb : binding ∈ s.bindings)
    {h : Ownership.Holder String String} (hh : h ∈ s.ownership.holders) (hid : h.id = binding.installationId) :
    h.phase ≠ .gone := by
  intro hgone
  have htied : h.id ∈ s.ownership.tied := by
    rw [hid]
    exact List.mem_map_of_mem hb
  exact hi.untied h hh hgone htied

/-- A binding that is put in belongs to an installation that had one. -/
theorem tied_withBinding {binding updated : BindingRecord} (hb : binding ∈ s.bindings) {p : String}
    (hp : p ∈ (s.withBinding updated).map (·.installationId))
    (hsame : updated.installationId = binding.installationId) : p ∈ s.ownership.tied := by
  obtain ⟨b, hmem, rfl⟩ := List.mem_map.mp hp
  cases mem_update.mp hmem with
  | inl hput =>
    obtain ⟨_, -, -, rfl⟩ := hput
    show b.installationId ∈ _
    rw [hsame]
    exact List.mem_map_of_mem hb
  | inr hold => exact List.mem_map_of_mem hold.1

/-- A ledger is its parts. -/
theorem ownership_parts {l : Ownership.Ledger String String} {leaver : Option String}
    (h : Ownership.Step lost s.ownership leaver l) (hholders : s'.installations.map (·.toOwner) = l.holders)
    (hitems : s'.datasets.map (·.toItem) = l.items) (htied : s'.bindings.map (·.installationId) = l.tied) :
    Ownership.Step lost s.ownership leaver s'.ownership := by
  have hsame : s'.ownership = l := by
    unfold ownership
    rw [hholders, hitems, htied]
  rw [hsame]
  exact h

/-- Installations and datasets stay as they are. -/
theorem ownership_same (hholders : s'.installations.map (·.toOwner) = s.ownership.holders)
    (hitems : s'.datasets = s.datasets)
    (htied : ∀ p ∈ s'.bindings.map (·.installationId), p ∈ s.ownership.tied) :
    Ownership.Step lost s.ownership none s'.ownership := by
  have hstep : Ownership.Step lost s.ownership none _ := .move id (s'.bindings.map (·.installationId))
    (fun h _ => ⟨rfl, rfl, .inl rfl⟩) (fun p hp => .inl (htied p hp))
  rw [List.map_id] at hstep
  unfold ownership at hstep hholders ⊢
  rw [hholders, hitems]
  exact hstep

/-- The state of an installation changes. -/
theorem ownership_put (hi : Ownership.Inv lost s.ownership) {installation updated : InstallationRecord}
    (hmem : installation ∈ s.installations) (hholders : s'.installations = s.withInstallation updated)
    (hitems : s'.datasets = s.datasets) (hid : updated.installationId = installation.installationId)
    (hdataset : updated.datasetId = installation.datasetId)
    (hphase : updated.state.phase = installation.state.phase ∨ installation.state.phase ≠ .gone ∧
      (updated.state.phase = .idle ∨ updated.state.phase = .writing ∧ s.Names installation))
    (htied : ∀ p ∈ s'.bindings.map (·.installationId), p ∈ s.ownership.tied ∨
      ∀ h ∈ s.ownership.holders, h.id = p → h.phase ≠ .gone) :
    Ownership.Step lost s.ownership none s'.ownership := by
  have hstep : Ownership.Step lost s.ownership none _ := .move
    (fun h => if h.id = updated.installationId then updated.toOwner else h) (s'.bindings.map (·.installationId))
    (fun h hh => by
      by_cases heq : h.id = updated.installationId
      · rw [if_pos heq, owner_eq hi hmem hh (heq.trans hid)]
        refine ⟨hid, hdataset, ?_⟩
        cases hphase with
        | inl hsame => exact .inl hsame
        | inr hmoved =>
          refine .inr ⟨hmoved.1, ?_⟩
          cases hmoved.2 with
          | inl hidle => exact .inl hidle
          | inr hwriting =>
            obtain ⟨hnow, dataset, hd, hdid, howner, hbound⟩ := hwriting
            refine .inr ⟨hnow, List.mem_map.mpr ⟨dataset, hd, ?_⟩⟩
            show (⟨_, _, _⟩ : Ownership.Item String String) = ⟨_, _, _⟩
            rw [hdid, howner, hbound]
            rfl
      · rw [if_neg heq]
        exact ⟨rfl, rfl, .inl rfl⟩)
    htied
  have hmap := owner_withInstallation (s := s) updated
  unfold ownership at hstep hmap ⊢
  rw [hholders, hitems, hmap]
  exact hstep

/-! ### Operations -/

theorem registerCertification_owns {outside : Outside} {certification : Certification}
    (h : s.registerCertification outside certification = .ok o) (ha : o.assigned = some s') :
    Ownership.Step lost s.ownership none s'.ownership := by
  unfold registerCertification at h
  obtain ⟨_, -, h⟩ := Calls.ok_of_bind h
  split at h
  · obtain ⟨_, -, h⟩ := Calls.ok_of_bind h
    cases h
    exact nomatch ha
  · cases h
    cases ha
    exact ownership_same rfl rfl fun p hp => hp

theorem revokeCertification_owns (hi : Ownership.Inv lost s.ownership) {certificationId : String}
    (h : s.revokeCertification certificationId = .ok o) (ha : o.assigned = some s') :
    Ownership.Step lost s.ownership none s'.ownership := by
  unfold revokeCertification at h
  split at h
  · exact nomatch h
  · obtain ⟨held, hheld, h⟩ := Calls.ok_of_bind h
    cases h
    cases ha
    generalize haffected : (held.filter (·.certificationId = some certificationId)).map (·.installationId) = affected
    -- Only installations with a binding are affected.
    have hbound : ∀ id ∈ affected, ∃ binding ∈ s.bindings, binding.installationId = id := by
      intro id hid
      rw [← haffected] at hid
      obtain ⟨installation, hfiltered, rfl⟩ := List.mem_map.mp hid
      obtain ⟨binding, hb, hfound⟩ := Calls.mapM_ok_of_mem hheld (List.mem_of_mem_filter hfiltered)
      exact ⟨binding, hb, (installation_ok hfound).2.symm⟩
    have hholders : ∀ f : InstallationRecord → InstallationRecord,
        (∀ i, (f i).installationId = i.installationId ∧ (f i).datasetId = i.datasetId ∧ (f i).state = .failed) →
        (update s.installations (affected.contains ·.installationId) f).map (·.toOwner) =
          s.ownership.holders.map fun h => if affected.contains h.id then ⟨h.id, h.item, .idle⟩ else h := by
      intro f hf
      unfold ownership
      rw [update, List.map_map, List.map_map]
      apply List.map_congr_left
      intro i _
      show (if affected.contains i.installationId then f i else i).toOwner =
        if affected.contains i.installationId then ⟨i.installationId, i.datasetId, .idle⟩ else i.toOwner
      obtain ⟨hid, hdataset, hstate⟩ := hf i
      split
      · show (⟨(f i).installationId, (f i).datasetId, (f i).state.phase⟩ : Ownership.Holder String String) = _
        rw [hid, hdataset, hstate]
        rfl
      · rfl
    have hstep : Ownership.Step lost s.ownership none _ := .move
      (fun h => if affected.contains h.id then ⟨h.id, h.item, .idle⟩ else h) s.ownership.tied
      (fun h hh => by
        split
        · rename_i hin
          rw [List.contains_eq_mem, decide_eq_true_eq] at hin
          obtain ⟨binding, hb, hid⟩ := hbound _ hin
          exact ⟨rfl, rfl, .inr ⟨not_gone hi hb hh hid.symm, .inl rfl⟩⟩
        · exact ⟨rfl, rfl, .inl rfl⟩)
      (fun p hp => .inl hp)
    rw [← hholders (fun i => { i with
      state := .failed
      bindingEpoch := i.bindingEpoch + 1
      permissionEpoch := i.permissionEpoch + 1
      lastErrorCode := some "certification_invalid" }) fun i => ⟨rfl, rfl, rfl⟩] at hstep
    unfold ownership at hstep ⊢
    dsimp only
    rw [map_update fun b : BindingRecord => b.installationId]
    · exact hstep
    · exact fun _ _ _ => rfl

theorem install_owns (hi : Ownership.Inv lost s.ownership) {request : InstallRequest} (h : s.install request = .ok o)
    (ha : o.assigned = some s') : Ownership.Step lost s.ownership none s'.ownership := by
  unfold install at h
  obtain ⟨_, -, h⟩ := Calls.ok_of_bind h
  obtain ⟨_, -, h⟩ := Calls.ok_of_bind h
  obtain ⟨_, hnew, h⟩ := Calls.ok_of_bind h
  obtain ⟨_, -, h⟩ := Calls.ok_of_bind h
  obtain ⟨_, hfree, h⟩ := Calls.ok_of_bind h
  obtain ⟨_, -, h⟩ := Calls.ok_of_bind h
  obtain ⟨_, -, h⟩ := Calls.ok_of_bind h
  obtain ⟨_, -, h⟩ := Calls.ok_of_bind h
  obtain ⟨_, -, h⟩ := Calls.ok_of_bind h
  cases h
  cases ha
  have hnone := require_ok hnew
  have hkept := require_ok hfree
  rw [Bool.not_eq_true', List.any_eq_false] at hnone
  have hstep : Ownership.Step lost s.ownership none _ := .enter request.installationId request.datasetId
    (fun x => decide (x.id ≠ request.datasetId))
    (fun k hk hid => by
      obtain ⟨item, hitem, rfl⟩ := List.mem_map.mp hk
      exact hnone item hitem (decide_eq_true hid))
    (fun x _ => decide_eq_true_iff)
    (fun x hx hid => by
      obtain ⟨dataset, hd, rfl⟩ := List.mem_map.mp hx
      have hid : dataset.datasetId = request.datasetId := hid
      cases hfind : s.datasets.find? (·.datasetId = request.datasetId) with
      | none => exact absurd (decide_eq_true hid) (List.find?_eq_none.mp hfind dataset hd)
      | some found =>
        have hfid : found.datasetId = request.datasetId := by simpa using List.find?_some hfind
        have heq := item_eq hi hd (List.mem_map_of_mem (List.mem_of_find?_eq_some hfind)) (hfid.trans hid.symm)
        rw [hfind, Option.all_some, Bool.and_eq_true, decide_eq_true_eq] at hkept
        rw [← heq]
        show found.state.standing = .kept
        rw [hkept.1]
        rfl)
  have hitems : (s.datasets.filter (·.datasetId ≠ request.datasetId)).map (·.toItem) =
      s.ownership.items.filter fun x => decide (x.id ≠ request.datasetId) := by
    unfold ownership
    rw [List.filter_map]
    rfl
  unfold ownership at hstep hitems ⊢
  rw [List.map_append, List.map_append, hitems]
  exact hstep

theorem bind_owns (hi : Ownership.Inv lost s.ownership) {fresh : Nat} {installationId : String}
    {datasetId : Option String} {config : Option PluginConfig} {globalEnabled : Bool}
    (h : s.bind fresh installationId datasetId config globalEnabled = .ok o) (ha : o.assigned = some s') :
    Ownership.Step lost s.ownership none s'.ownership := by
  unfold bind at h
  obtain ⟨installation, hinstallation, h⟩ := Calls.ok_of_bind h
  obtain ⟨hmem, hid⟩ := installation_ok hinstallation
  obtain ⟨_, hstate, h⟩ := Calls.ok_of_bind h
  split at h
  · obtain ⟨_, -, h⟩ := Calls.ok_of_bind h
    cases h
    exact nomatch ha
  · obtain ⟨_, -, h⟩ := Calls.ok_of_bind h
    split at h
    · exact nomatch h
    · cases h
      cases ha
      refine ownership_put hi hmem rfl rfl rfl rfl (.inl rfl) ?_
      intro p hp
      rw [List.map_append] at hp
      cases List.mem_append.mp hp with
      | inl hold => exact .inl hold
      | inr hlast =>
        have heq : p = installationId := by simpa using hlast
        refine .inr fun k hk hkid hgone => ?_
        rw [owner_eq hi hmem hk (hkid.trans (heq.trans hid.symm))] at hgone
        have hstays := require_ok hstate
        rw [decide_eq_true_eq] at hstays
        exact hstays (phase_gone.mp hgone)

theorem enable_owns (hi : Ownership.Inv lost s.ownership) {outside : Outside} {bindingId : Nat}
    (hnames : ∀ binding ∈ s.bindings, binding.bindingId = bindingId → ∀ installation ∈ s.installations,
      installation.installationId = binding.installationId → s.Names installation)
    (h : s.enable outside bindingId = .ok o) (ha : o.assigned = some s') :
    Ownership.Step lost s.ownership none s'.ownership := by
  unfold enable at h
  obtain ⟨binding, hbinding, h⟩ := Calls.ok_of_bind h
  obtain ⟨installation, hinstallation, h⟩ := Calls.ok_of_bind h
  obtain ⟨_, -, h⟩ := Calls.ok_of_bind h
  obtain ⟨_, -, h⟩ := Calls.ok_of_bind h
  obtain ⟨_, -, h⟩ := Calls.ok_of_bind h
  cases h
  cases ha
  obtain ⟨hb, hbid⟩ := binding_ok hbinding
  obtain ⟨hmem, hown⟩ := installation_ok hinstallation
  have hstays := not_gone hi hb (List.mem_map_of_mem hmem) hown
  have hnamed := hnames binding hb hbid installation hmem hown
  exact ownership_put hi hmem rfl rfl rfl rfl (.inr ⟨hstays, .inr ⟨rfl, hnamed⟩⟩)
    fun p hp => .inl (tied_withBinding hb hp rfl)

/-- The installation of a binding comes to rest. -/
theorem ownership_rests (hi : Ownership.Inv lost s.ownership) {binding : BindingRecord} (hb : binding ∈ s.bindings)
    {installation updated : InstallationRecord} (hmem : installation ∈ s.installations)
    (hown : installation.installationId = binding.installationId)
    (hholders : s'.installations = s.withInstallation updated) (hitems : s'.datasets = s.datasets)
    (hid : updated.installationId = installation.installationId)
    (hdataset : updated.datasetId = installation.datasetId) (hidle : updated.state.phase = .idle)
    (htied : ∀ p ∈ s'.bindings.map (·.installationId), p ∈ s.ownership.tied) :
    Ownership.Step lost s.ownership none s'.ownership := by
  have hstays := not_gone hi hb (List.mem_map_of_mem hmem) hown
  exact ownership_put hi hmem hholders hitems hid hdataset (.inr ⟨hstays, .inl hidle⟩) fun p hp => .inl (htied p hp)

theorem beginDisable_owns (hi : Ownership.Inv lost s.ownership) {bindingId : Nat} {stopRunIds : List String}
    (h : s.beginDisable bindingId stopRunIds = .ok o) (ha : o.assigned = some s') :
    Ownership.Step lost s.ownership none s'.ownership := by
  unfold beginDisable at h
  obtain ⟨binding, hbinding, h⟩ := Calls.ok_of_bind h
  obtain ⟨_, -, h⟩ := Calls.ok_of_bind h
  obtain ⟨installation, hinstallation, h⟩ := Calls.ok_of_bind h
  cases h
  cases ha
  obtain ⟨hb, -⟩ := binding_ok hbinding
  obtain ⟨hmem, hown⟩ := installation_ok hinstallation
  exact ownership_rests hi hb hmem hown rfl rfl rfl rfl rfl fun p hp => tied_withBinding hb hp rfl

theorem completeDisable_owns (hi : Ownership.Inv lost s.ownership) {bindingId : Nat} {failed : Option String}
    {restartRequired : Bool} (h : s.completeDisable bindingId failed restartRequired = .ok o)
    (ha : o.assigned = some s') : Ownership.Step lost s.ownership none s'.ownership := by
  unfold completeDisable at h
  obtain ⟨binding, hbinding, h⟩ := Calls.ok_of_bind h
  obtain ⟨installation, hinstallation, h⟩ := Calls.ok_of_bind h
  cases h
  cases ha
  obtain ⟨hb, -⟩ := binding_ok hbinding
  obtain ⟨hmem, hown⟩ := installation_ok hinstallation
  refine ownership_rests hi hb hmem hown rfl rfl rfl rfl ?_ fun p hp => hp
  dsimp only
  split
  · rfl
  · split <;> rfl

theorem markFailed_owns (hi : Ownership.Inv lost s.ownership) {installationId code : String}
    (hthere : ∀ installation ∈ s.installations, installation.installationId = installationId →
      installation.state ≠ .uninstalled)
    (h : s.markFailed installationId code = .ok o) (ha : o.assigned = some s') :
    Ownership.Step lost s.ownership none s'.ownership := by
  unfold markFailed at h
  obtain ⟨installation, hinstallation, h⟩ := Calls.ok_of_bind h
  cases h
  cases ha
  obtain ⟨hmem, hid⟩ := installation_ok hinstallation
  have hstays : installation.state.phase ≠ .gone := fun hgone => hthere installation hmem hid (phase_gone.mp hgone)
  exact ownership_put hi hmem rfl rfl rfl rfl (.inr ⟨hstays, .inl rfl⟩) fun p hp => .inl hp

theorem setGlobalEnabled_owns {bindingId : Nat} {enabled : Bool}
    (h : s.setGlobalEnabled bindingId enabled = .ok o) (ha : o.assigned = some s') :
    Ownership.Step lost s.ownership none s'.ownership := by
  unfold setGlobalEnabled at h
  obtain ⟨binding, hbinding, h⟩ := Calls.ok_of_bind h
  cases h
  cases ha
  exact ownership_same rfl rfl fun p hp => tied_withBinding (binding_ok hbinding).1 hp rfl

theorem configureMaintenance_owns (hi : Ownership.Inv lost s.ownership) {bindingId : Nat} {enabled : Bool}
    (h : s.configureMaintenance bindingId enabled = .ok o) (ha : o.assigned = some s') :
    Ownership.Step lost s.ownership none s'.ownership := by
  unfold configureMaintenance at h
  obtain ⟨binding, hbinding, h⟩ := Calls.ok_of_bind h
  obtain ⟨installation, hinstallation, h⟩ := Calls.ok_of_bind h
  obtain ⟨_, -, h⟩ := Calls.ok_of_bind h
  split at h
  · cases h
    exact nomatch ha
  · cases h
    cases ha
    exact ownership_put hi (installation_ok hinstallation).1 rfl rfl rfl rfl (.inl rfl)
      fun p hp => .inl (tied_withBinding (binding_ok hbinding).1 hp rfl)

theorem createRun_owns {outside : Outside} {fresh bindingId : Nat} {runId : String} {scope : Scope}
    {ttl : Scheduler.Instant} (h : s.createRun outside fresh bindingId runId scope ttl = .ok o)
    (ha : o.assigned = some s') : Ownership.Step lost s.ownership none s'.ownership := by
  unfold createRun at h
  obtain ⟨binding, hbinding, h⟩ := Calls.ok_of_bind h
  obtain ⟨_, -, h⟩ := Calls.ok_of_bind h
  obtain ⟨_, -, h⟩ := Calls.ok_of_bind h
  obtain ⟨_, -, h⟩ := Calls.ok_of_bind h
  obtain ⟨installation, -, h⟩ := Calls.ok_of_bind h
  cases h
  cases ha
  exact ownership_same rfl rfl fun p hp => tied_withBinding (binding_ok hbinding).1 hp rfl

theorem releaseRun_owns {leaseId : Nat} {how : RunEnd} (h : s.releaseRun leaseId how = .ok o)
    (ha : o.assigned = some s') : Ownership.Step lost s.ownership none s'.ownership := by
  unfold releaseRun at h
  obtain ⟨lease, -, h⟩ := Calls.ok_of_bind h
  split at h
  · cases h
    exact nomatch ha
  · obtain ⟨binding, hbinding, h⟩ := Calls.ok_of_bind h
    cases h
    cases ha
    refine ownership_same rfl rfl fun p hp => tied_withBinding (binding_ok hbinding).1 hp ?_
    split <;> rfl

theorem assertLease_none {outside : Outside} {lease : RunLease} {context : RpcContext} {verifyPackage : Bool}
    (h : s.assertLease outside lease context verifyPackage = .ok o) : o.assigned = none := by
  unfold assertLease at h
  obtain ⟨_, -, h⟩ := Calls.ok_of_bind h
  obtain ⟨_, -, h⟩ := Calls.ok_of_bind h
  obtain ⟨_, -, h⟩ := Calls.ok_of_bind h
  obtain ⟨_, -, h⟩ := Calls.ok_of_bind h
  obtain ⟨_, -, h⟩ := Calls.ok_of_bind h
  split at h
  · obtain ⟨_, -, h⟩ := Calls.ok_of_bind h
    cases h
    rfl
  · cases h
    rfl

/-- What an operation on resources leaves alone. -/
def OnlyResources (s s' : RegistryState) : Prop :=
  s'.installations = s.installations ∧ s'.bindings = s.bindings ∧ s'.datasets = s.datasets ∧
    s'.cleanupPlans = s.cleanupPlans

theorem OnlyResources.owns (h : s.OnlyResources s') : Ownership.Step lost s.ownership none s'.ownership := by
  obtain ⟨hinstallations, hbindings, hdatasets, -⟩ := h
  apply ownership_same
  · rw [hinstallations]
    rfl
  · exact hdatasets
  · rw [hbindings]
    exact fun p hp => hp

theorem createResource_only {outside : Outside} {installationId relativePath category : String} {reconstructible : Bool}
    {pathKind : PathKind}
    (h : s.createResource outside installationId relativePath category reconstructible pathKind = .ok o)
    (ha : o.assigned = some s') : s.OnlyResources s' := by
  unfold createResource at h
  obtain ⟨_, -, h⟩ := Calls.ok_of_bind h
  obtain ⟨_, -, h⟩ := Calls.ok_of_bind h
  obtain ⟨_, -, h⟩ := Calls.ok_of_bind h
  obtain ⟨_, -, h⟩ := Calls.ok_of_bind h
  split at h
  · cases h
    exact nomatch ha
  · obtain ⟨_, -, h⟩ := Calls.ok_of_bind h
    obtain ⟨_, -, h⟩ := Calls.ok_of_bind h
    cases h
    cases ha
    exact ⟨rfl, rfl, rfl, rfl⟩

theorem attachDatasetConsumer_only {datasetId installationId : String}
    (h : s.attachDatasetConsumer datasetId installationId = .ok o) (ha : o.assigned = some s') :
    s.OnlyResources s' := by
  unfold attachDatasetConsumer at h
  obtain ⟨_, -, h⟩ := Calls.ok_of_bind h
  obtain ⟨_, -, h⟩ := Calls.ok_of_bind h
  dsimp only at h
  split at h
  · cases h
    cases ha
    exact ⟨rfl, rfl, rfl, rfl⟩
  · cases h
    exact nomatch ha

theorem revokeDatasetConsumer_only {datasetId installationId : String}
    (h : s.revokeDatasetConsumer datasetId installationId = .ok o) (ha : o.assigned = some s') :
    s.OnlyResources s' := by
  unfold revokeDatasetConsumer at h
  obtain ⟨_, -, h⟩ := Calls.ok_of_bind h
  dsimp only at h
  split at h
  · cases h
    cases ha
    exact ⟨rfl, rfl, rfl, rfl⟩
  · cases h
    exact nomatch ha

theorem bumpResourceRevision_only {resourceId : ResourceId} (h : s.bumpResourceRevision resourceId = .ok o)
    (ha : o.assigned = some s') : s.OnlyResources s' := by
  unfold bumpResourceRevision at h
  split at h
  · exact nomatch h
  · cases h
    cases ha
    exact ⟨rfl, rfl, rfl, rfl⟩

/-! ### Transfers -/

theorem transferOwner_owns (hi : Ownership.Inv lost s.ownership) {request : TransferRequest} {source : DatasetRecord}
    {installation : InstallationRecord} (hsid : source.datasetId = request.sourceDatasetId)
    (hmem : installation ∈ s.installations) (hid : installation.installationId = request.destinationInstallationId)
    (hlost : request.sourceDatasetId ∉ lost) (hfree : s.Unwritten request.sourceDatasetId none)
    (h : s.transferOwner request source installation = .ok o) (ha : o.assigned = some s') :
    Ownership.Step lost s.ownership none s'.ownership := by
  unfold transferOwner at h
  obtain ⟨_, hstopped, h⟩ := Calls.ok_of_bind h
  obtain ⟨binding, hbinding, h⟩ := Calls.ok_of_bind h
  obtain ⟨_, -, h⟩ := Calls.ok_of_bind h
  obtain ⟨old, hold, h⟩ := Calls.ok_of_bind h
  obtain ⟨_, hother, h⟩ := Calls.ok_of_bind h
  obtain ⟨_, howner, h⟩ := Calls.ok_of_bind h
  cases h
  cases ha
  obtain ⟨hold, holdId⟩ := dataset_ok hold
  have hother : installation.datasetId ≠ request.sourceDatasetId := by simpa using require_ok hother
  have howner : old.installationId = some installation.installationId := by
    rw [hid]
    simpa using require_ok howner
  have hidle : installation.toOwner.phase = .idle := by
    have hstate := require_ok hstopped
    simp only [Bool.or_eq_true, decide_eq_true_eq] at hstate
    show installation.state.phase = .idle
    rcases hstate with (hstate | hstate) | hstate <;> rw [hstate] <;> rfl
  let f (x : Ownership.Item String String) : Ownership.Item String String :=
    if x.id = request.sourceDatasetId then ⟨request.sourceDatasetId, some installation.installationId, .owned⟩
    else if x.id = installation.datasetId then ⟨installation.datasetId, none, .kept⟩
    else x
  have hstep : Ownership.Step lost s.ownership none _ := .give installation.toOwner (List.mem_map_of_mem hmem)
    hidle request.sourceDatasetId hlost
    (fun k hk hwriting heq => by
      obtain ⟨i, hi, rfl⟩ := List.mem_map.mp hk
      cases hfree i hi (phase_writing.mp hwriting) heq)
    (fun x hx heq => by
      rw [item_eq hi hold hx (heq.trans holdId.symm)]
      exact howner)
    (fun h => if h.id = installation.installationId then
      ⟨installation.installationId, request.sourceDatasetId, installation.state.phase⟩ else h)
    f (List.map (·.installationId) (binding.elim s.bindings fun binding => s.withBinding { binding with
      datasetId := request.sourceDatasetId
      permissionEpoch := binding.permissionEpoch + 1
      activeRunIds := []
      enabled := false }))
    (fun k hk => by
      by_cases heq : k.id = installation.installationId
      · rw [if_pos heq, owner_eq hi hmem hk heq]
        exact ⟨rfl, rfl, .inr rfl⟩
      · rw [if_neg heq]
        exact ⟨rfl, rfl, .inl rfl⟩)
    (fun x _ => by
      show (f x).id = x.id ∧ _
      dsimp only [f]
      by_cases hd : x.id = request.sourceDatasetId
      · rw [if_pos hd]
        exact ⟨hd.symm, fun _ => rfl, fun hne => absurd hd hne, fun hne => absurd hd hne⟩
      · rw [if_neg hd]
        by_cases hk : x.id = installation.datasetId
        · rw [if_pos hk]
          exact ⟨hk.symm, fun h => absurd h hd, fun _ _ => rfl, fun _ hne => absurd hk hne⟩
        · rw [if_neg hk]
          exact ⟨rfl, fun h => absurd h hd, fun _ h => absurd h hk, fun _ _ => rfl⟩)
    (fun p hp => by
      cases binding with
      | none => exact hp
      | some b =>
        cases bindingOf_ok hbinding with
        | inl hnone => cases hnone.2
        | inr hsome =>
          obtain ⟨_, heq, hb, -⟩ := hsome
          cases heq
          exact tied_withBinding hb hp rfl)
  have hitems : ∀ updated retained : DatasetRecord,
      updated.toItem = ⟨request.sourceDatasetId, some installation.installationId, .owned⟩ →
      retained.toItem = ⟨installation.datasetId, none, .kept⟩ →
      (s.datasets.map fun item => if item.datasetId = request.sourceDatasetId then updated
        else if item.datasetId = installation.datasetId then retained else item).map (·.toItem) =
          s.ownership.items.map f := by
    intro updated retained hupdated hretained
    unfold ownership
    rw [List.map_map, List.map_map]
    apply List.map_congr_left
    intro item _
    show (if item.datasetId = request.sourceDatasetId then updated
      else if item.datasetId = installation.datasetId then retained else item).toItem =
        if item.datasetId = request.sourceDatasetId then _
        else if item.datasetId = installation.datasetId then _ else item.toItem
    split
    · exact hupdated
    · split
      · exact hretained
      · rfl
  apply ownership_parts hstep
  · exact owner_withInstallation _
  · apply hitems
    · rw [← hsid, hid]
      rfl
    · rw [← holdId]
      rfl
  · cases binding <;> rfl

theorem transferDataset_owns (hi : Ownership.Inv lost s.ownership) {request : TransferRequest}
    (htransfers : s.Transfers lost request) (h : s.transferDataset request = .ok o) (ha : o.assigned = some s') :
    Ownership.Step lost s.ownership none s'.ownership := by
  unfold transferDataset at h
  obtain ⟨source, hsource, h⟩ := Calls.ok_of_bind h
  obtain ⟨destination, hdestination, h⟩ := Calls.ok_of_bind h
  obtain ⟨installation, hinstallation, h⟩ := Calls.ok_of_bind h
  obtain ⟨hs, hsid⟩ := dataset_ok hsource
  obtain ⟨hd, hdid⟩ := dataset_ok hdestination
  obtain ⟨hmem, hid⟩ := installation_ok hinstallation
  obtain ⟨_, -, h⟩ := Calls.ok_of_bind h
  unfold Transfers at htransfers
  split at h
  · rename_i hmode
    rw [hmode] at htransfers
    obtain ⟨_, -, h⟩ := Calls.ok_of_bind h
    split at h
    · cases h
      exact nomatch ha
    · rename_i hnot
      cases htransfers with
      | inl hthere =>
        obtain ⟨dataset, hdmem, heq, howner⟩ := hthere
        have hsame := item_eq hi hs (List.mem_map_of_mem hdmem) (heq.trans hsid.symm)
        exact absurd ((congrArg Ownership.Item.owner hsame).symm.trans howner) hnot
      | inr hfree => exact transferOwner_owns hi hsid hmem hid hfree.1 hfree.2 h ha
  · rename_i hmode
    rw [hmode] at htransfers
    obtain ⟨_, -, h⟩ := Calls.ok_of_bind h
    obtain ⟨_, -, h⟩ := Calls.ok_of_bind h
    split at h
    · cases h
      exact nomatch ha
    · rename_i hnot
      cases h
      cases ha
      cases htransfers with
      | inl hthere =>
        obtain ⟨dataset, hdmem, heq, howner, hbound⟩ := hthere
        have hsame := item_eq hi hd (List.mem_map_of_mem hdmem) (heq.trans hdid.symm)
        have hstanding := congrArg Ownership.Item.standing hsame
        rw [show dataset.toItem.standing = .owned by rw [DatasetRecord.toItem, hbound]; rfl] at hstanding
        exact absurd ⟨(congrArg Ownership.Item.owner hsame).symm.trans howner, standing_owned.mp hstanding.symm⟩ hnot
      | inr hfree =>
        have hstep : Ownership.Step lost s.ownership none _ := .copy request.destinationInstallationId
          request.destinationDatasetId hfree.1
          (fun k hk hwriting heq => by
            obtain ⟨i, hi, rfl⟩ := List.mem_map.mp hk
            exact Option.some.inj (hfree.2 i hi (phase_writing.mp hwriting) heq))
          (fun x => if x.id = destination.datasetId then
            ⟨destination.datasetId, some request.destinationInstallationId, .owned⟩ else x)
          (fun x _ => by
            rw [hdid]
            exact ⟨fun heq => if_pos heq, fun hne => if_neg hne⟩)
        apply ownership_parts hstep
        · rfl
        · exact item_withDataset _
        · rfl

/-! ### Uninstalling -/

theorem beginUninstall_owns (hi : Ownership.Inv lost s.ownership) {fresh : Nat} {installationId : String}
    {dataPolicy : DataPolicy} {stopRunIds : List String} {expectedBindingEpoch : Option Nat}
    (h : s.beginUninstall fresh installationId dataPolicy stopRunIds expectedBindingEpoch = .ok o)
    (ha : o.assigned = some s') : Ownership.Step lost s.ownership (some installationId) s'.ownership := by
  unfold beginUninstall at h
  obtain ⟨installation, hinstallation, h⟩ := Calls.ok_of_bind h
  obtain ⟨hmem, hid⟩ := installation_ok hinstallation
  obtain ⟨binding, -, h⟩ := Calls.ok_of_bind h
  obtain ⟨_, -, h⟩ := Calls.ok_of_bind h
  obtain ⟨dataset, hdataset, h⟩ := Calls.ok_of_bind h
  obtain ⟨hd, -⟩ := dataset_ok hdataset
  cases h
  cases ha
  have hstep : Ownership.Step lost s.ownership (some installationId) _ := .leave installationId
    (fun h => if h.id = installation.installationId then
      ⟨installation.installationId, installation.datasetId, .idle⟩ else h)
    (fun x => if x.id = dataset.datasetId then
      ⟨dataset.datasetId, dataset.installationId,
        (if isTransferred dataset installationId then dataset.state else .deleting).standing⟩ else x)
    (fun k hk => by
      by_cases heq : k.id = installation.installationId
      · rw [if_pos heq, owner_eq hi hmem hk heq]
        exact ⟨rfl, rfl, fun _ => rfl, fun hne => absurd hid hne⟩
      · rw [if_neg heq]
        exact ⟨rfl, rfl, fun h => absurd (h.trans hid.symm) heq, fun _ => rfl⟩)
    (fun x hx => by
      by_cases heq : x.id = dataset.datasetId
      · rw [if_pos heq, item_eq hi hd hx heq]
        refine ⟨rfl, rfl, ?_⟩
        cases htransferred : isTransferred dataset installationId with
        | true => exact .inl rfl
        | false =>
          refine .inr ⟨rfl, fun q howner howned => ?_⟩
          unfold isTransferred at htransferred
          rw [show dataset.installationId = some q from howner, standing_owned.mp howned] at htransferred
          simpa using htransferred
      · rw [if_neg heq]
        exact ⟨rfl, rfl, .inl rfl⟩)
  apply ownership_parts hstep
  · exact owner_withInstallation _
  · exact item_withDataset _
  · rfl

theorem markResourceCleanup_owns {operationId : Nat} {resourceId : ResourceId} {item : CleanupItem}
    (h : s.markResourceCleanup operationId resourceId item = .ok o) (ha : o.assigned = some s') :
    Ownership.Step lost s.ownership none s'.ownership := by
  unfold markResourceCleanup at h
  obtain ⟨_, -, h⟩ := Calls.ok_of_bind h
  obtain ⟨_, -, h⟩ := Calls.ok_of_bind h
  cases h
  cases ha
  exact ownership_same rfl rfl fun p hp => hp

theorem completeUninstall_owns (hi : Ownership.Inv lost s.ownership) {operationId : Nat}
    (hcompletes : s.Completes lost operationId) (h : s.completeUninstall operationId = .ok o)
    (ha : o.assigned = some s') : Ownership.Step lost s.ownership none s'.ownership := by
  unfold completeUninstall at h
  obtain ⟨plan, hplan, h⟩ := Calls.ok_of_bind h
  obtain ⟨hmemPlan, hidPlan⟩ := cleanupPlan_ok hplan
  split at h
  · cases h
    cases ha
    exact ownership_same rfl rfl fun p hp => hp
  · obtain ⟨installation, hinstallation, h⟩ := Calls.ok_of_bind h
    obtain ⟨hmem, hid⟩ := installation_ok hinstallation
    split at h
    · exact nomatch h
    · rename_i dataset hfind
      have hd := List.mem_of_find?_eq_some hfind
      have hdid : dataset.datasetId = installation.datasetId := by simpa using List.find?_some hfind
      cases h
      cases ha
      have hstep : Ownership.Step lost s.ownership none _ := .remove plan.installationId
        (fun h => if h.id = installation.installationId then
          ⟨installation.installationId, installation.datasetId, .gone⟩ else h)
        (fun x => if x.id = dataset.datasetId then
          if dataset.installationId.all (· = plan.installationId) then
            ⟨dataset.datasetId, none, if plan.items.any (·.outcome = .retained) then .kept else .gone⟩
          else dataset.toItem
          else x)
        ((s.bindings.filter (·.installationId ≠ plan.installationId)).map (·.installationId))
        (fun k hk => by
          by_cases heq : k.id = installation.installationId
          · rw [if_pos heq, owner_eq hi hmem hk heq]
            exact ⟨rfl, rfl, fun _ => rfl, fun hne => absurd hid hne⟩
          · rw [if_neg heq]
            exact ⟨rfl, rfl, fun h => absurd (h.trans hid.symm) heq, fun _ => rfl⟩)
        (fun x hx => by
          by_cases heq : x.id = dataset.datasetId
          · rw [if_pos heq, item_eq hi hd hx heq]
            split
            · rename_i howner
              refine ⟨rfl, .inr ⟨fun q hq => ?_, rfl, ?_⟩⟩
              · rw [show dataset.installationId = some q from hq] at howner
                simpa using howner
              · cases hretained : plan.items.any (·.outcome = .retained) with
                | false => exact .inl rfl
                | true =>
                  refine .inr ⟨rfl, ?_⟩
                  show dataset.datasetId ∉ lost
                  rw [hdid]
                  exact hcompletes plan hmemPlan hidPlan hretained installation hmem hid
            · exact ⟨rfl, .inl rfl⟩
          · rw [if_neg heq]
            exact ⟨rfl, .inl rfl⟩)
        (fun q hq => by
          obtain ⟨binding, hb, rfl⟩ := List.mem_map.mp hq
          obtain ⟨hb, hne⟩ := List.mem_filter.mp hb
          exact ⟨List.mem_map_of_mem hb, by simpa using hne⟩)
      apply ownership_parts hstep
      · exact owner_withInstallation _
      · rw [item_withDataset]
        apply List.map_congr_left
        intro x _
        cases howns : dataset.installationId.all (· = plan.installationId) with
        | false => rfl
        | true => cases hretained : plan.items.any (·.outcome = .retained) <;> rfl
      · rfl

/-! ### Recovery -/

theorem fenceRecoveredRuns_owns (h : s.fenceRecoveredRuns = some s') :
    Ownership.Step lost s.ownership none s'.ownership := by
  unfold fenceRecoveredRuns at h
  dsimp only at h
  split at h
  · exact nomatch h
  · cases h
    apply ownership_same
    · unfold ownership
      rw [List.map_map]
      apply List.map_congr_left
      intro i _
      dsimp only [Function.comp_apply]
      split <;> rfl
    · rfl
    · intro p hp
      dsimp only at hp
      rw [map_update fun b : BindingRecord => b.installationId] at hp
      · exact hp
      · exact fun _ _ _ => rfl

end RegistryState

/-- Whatever is called, the ledger of ownership takes a step. -/
theorem Call.owns {s s' : RegistryState} {lost : List String} {fresh : Nat} {o : Outcome} {call : Call} {outside : Outside}
    (hi : Ownership.Inv lost s.ownership) (hkeeps : call.Keeps lost s) (h : call.outcome outside fresh s = .ok o)
    (ha : o.assigned = some s') : Ownership.Step lost s.ownership call.leaver s'.ownership := by
  cases call with
  | registerCertification => exact RegistryState.registerCertification_owns h ha
  | revokeCertification => exact RegistryState.revokeCertification_owns hi h ha
  | install => exact RegistryState.install_owns hi h ha
  | bind => exact RegistryState.bind_owns hi h ha
  | enable => exact RegistryState.enable_owns hi hkeeps h ha
  | beginDisable => exact RegistryState.beginDisable_owns hi h ha
  | completeDisable => exact RegistryState.completeDisable_owns hi h ha
  | markFailed => exact RegistryState.markFailed_owns hi hkeeps h ha
  | setGlobalEnabled => exact RegistryState.setGlobalEnabled_owns h ha
  | configureMaintenance => exact RegistryState.configureMaintenance_owns hi h ha
  | createRun => exact RegistryState.createRun_owns h ha
  | releaseRun => exact RegistryState.releaseRun_owns h ha
  | assertLease => exact nomatch (RegistryState.assertLease_none h).symm.trans ha
  | createResource => exact (RegistryState.createResource_only h ha).owns
  | attachDatasetConsumer => exact (RegistryState.attachDatasetConsumer_only h ha).owns
  | revokeDatasetConsumer => exact (RegistryState.revokeDatasetConsumer_only h ha).owns
  | bumpResourceRevision => exact (RegistryState.bumpResourceRevision_only h ha).owns
  | transferDataset => exact RegistryState.transferDataset_owns hi hkeeps h ha
  | beginUninstall => exact RegistryState.beginUninstall_owns hi h ha
  | markResourceCleanup => exact RegistryState.markResourceCleanup_owns h ha
  | completeUninstall => exact RegistryState.completeUninstall_owns hi hkeeps h ha

end Operant.Plugins
