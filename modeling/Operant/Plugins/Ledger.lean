import Operant.Leases.Ledger
import Operant.Plugins.History

/-! The registry is a ledger of leases: installations hold slots, their bindings.

Each operation is a step of the ledger, or leaves it as it is. -/
namespace Operant.Plugins
open Operant.Leases Operant.Tables

def InstallationRecord.toHolder (installation : InstallationRecord) : Holder String :=
  ⟨installation.installationId, installation.bindingId, installation.bindingEpoch, installation.permissionEpoch⟩

def BindingRecord.toSlot (binding : BindingRecord) : Slot String String :=
  ⟨binding.bindingId, binding.installationId, binding.bindingEpoch, binding.permissionEpoch, binding.activeRunIds⟩

def RunLease.toLease (lease : RunLease) : Lease String :=
  ⟨lease.leaseId, lease.runId, lease.bindingId, lease.bindingEpoch, lease.leaseFencing, lease.isActive⟩

def RegistryState.ledger (s : RegistryState) : Ledger String String where
  holders := s.installations.map (·.toHolder)
  slots := s.bindings.map (·.toSlot)
  leases := s.runs.map (·.toLease)

/-! ### Records that are found -/

theorem found {α κ : Type} [DecidableEq κ] {rows : List α} {key : α → κ} {k : κ} {error : Raised} {item : α}
    (h : orRaise (rows.find? fun row => key row = k) error = .ok item) : item ∈ rows ∧ key item = k := by
  have hfind := orRaise_ok h
  exact ⟨List.mem_of_find?_eq_some hfind, by simpa using List.find?_some hfind⟩

namespace RegistryState
variable {s : RegistryState}

theorem installation_ok {installationId : String} {item : InstallationRecord}
    (h : s.installation installationId = .ok item) : item ∈ s.installations ∧ item.installationId = installationId :=
  found h

theorem binding_ok {bindingId : Nat} {item : BindingRecord} (h : s.binding bindingId = .ok item) :
    item ∈ s.bindings ∧ item.bindingId = bindingId :=
  found h

theorem dataset_ok {datasetId : String} {item : DatasetRecord} (h : s.dataset datasetId = .ok item) :
    item ∈ s.datasets ∧ item.datasetId = datasetId :=
  found h

theorem run_ok {leaseId : Nat} {item : RunLease} (h : s.run leaseId = .ok item) :
    item ∈ s.runs ∧ item.leaseId = leaseId :=
  found h

theorem cleanupPlan_ok {operationId : Nat} {item : CleanupPlanRecord} (h : s.cleanupPlan operationId = .ok item) :
    item ∈ s.cleanupPlans ∧ item.operationId = operationId :=
  found h

theorem bindingOf_ok {installation : InstallationRecord} {binding : Option BindingRecord}
    (h : s.bindingOf installation = .ok binding) :
    (installation.bindingId = none ∧ binding = none) ∨
      ∃ b, binding = some b ∧ b ∈ s.bindings ∧ installation.bindingId = some b.bindingId := by
  unfold bindingOf at h
  cases hid : installation.bindingId with
  | none =>
    rw [hid] at h
    cases h
    exact .inl ⟨rfl, rfl⟩
  | some bindingId =>
    rw [hid] at h
    dsimp only at h
    cases hfound : s.binding bindingId with
    | error error =>
      rw [hfound] at h
      exact nomatch h
    | ok b =>
      rw [hfound] at h
      cases h
      obtain ⟨hmem, heq⟩ := binding_ok hfound
      exact .inr ⟨b, rfl, hmem, by rw [heq]⟩

/-! ### What is put into a table -/

def putHolder (h k : Holder String) : Holder String := if k.id = h.id then h else k

def putSlot (t u : Slot String String) : Slot String String := if u.id = t.id then t else u

theorem map_withInstallation (updated : InstallationRecord) :
    (s.withInstallation updated).map (·.toHolder) =
      (s.installations.map (·.toHolder)).map (putHolder updated.toHolder) := by
  unfold withInstallation update
  rw [List.map_map, List.map_map]
  apply List.map_congr_left
  intro item _
  show (if decide (item.installationId = updated.installationId) = true then updated else item).toHolder =
    if item.installationId = updated.installationId then updated.toHolder else item.toHolder
  by_cases h : item.installationId = updated.installationId <;> simp [h]

theorem map_withBinding (updated : BindingRecord) :
    (s.withBinding updated).map (·.toSlot) = (s.bindings.map (·.toSlot)).map (putSlot updated.toSlot) := by
  unfold withBinding update
  rw [List.map_map, List.map_map]
  apply List.map_congr_left
  intro item _
  show (if decide (item.bindingId = updated.bindingId) = true then updated else item).toSlot =
    if item.bindingId = updated.bindingId then updated.toSlot else item.toSlot
  by_cases h : item.bindingId = updated.bindingId <;> simp [h]

variable {n : Nat} (hi : Inv n s.ledger)
include hi

theorem holder_eq {installation : InstallationRecord} (hmem : installation ∈ s.installations) {h : Holder String}
    (hh : h ∈ s.ledger.holders) (hid : h.id = installation.installationId) : h = installation.toHolder :=
  hi.held.holder_eq hh (List.mem_map_of_mem hmem) hid

theorem slot_eq {binding : BindingRecord} (hmem : binding ∈ s.bindings) {t : Slot String String}
    (ht : t ∈ s.ledger.slots) (hid : t.id = binding.bindingId) : t = binding.toSlot :=
  hi.held.slot_eq ht (List.mem_map_of_mem hmem) hid

theorem lease_eq {x y : RunLease} (hx : x ∈ s.runs) (hy : y ∈ s.runs) (hid : x.leaseId = y.leaseId) : x = y := by
  have hids := hi.marked.leaseIds
  rw [show s.ledger.leases = s.runs.map (·.toLease) from rfl, List.map_map] at hids
  exact eq_of_key hids hx hy hid

theorem installation_eq {x y : InstallationRecord} (hx : x ∈ s.installations) (hy : y ∈ s.installations)
    (hid : x.installationId = y.installationId) : x = y := by
  have hids := hi.held.holderIds
  rw [show s.ledger.holders = s.installations.map (·.toHolder) from rfl, List.map_map] at hids
  exact eq_of_key hids hx hy hid

theorem binding_eq {x y : BindingRecord} (hx : x ∈ s.bindings) (hy : y ∈ s.bindings)
    (hid : x.bindingId = y.bindingId) : x = y := by
  have hids := hi.held.slotIds
  rw [show s.ledger.slots = s.bindings.map (·.toSlot) from rfl, List.map_map] at hids
  exact eq_of_key hids hx hy hid

/-- The slot of a binding's installation is the binding. -/
theorem slot_of_installation {binding : BindingRecord} (hmem : binding ∈ s.bindings) {t : Slot String String}
    (ht : t ∈ s.ledger.slots) (hholder : t.holder = binding.installationId) : t = binding.toSlot := by
  obtain ⟨h, hh, hid, hslot⟩ := hi.held.held t ht
  obtain ⟨k, hk, hkid, hkslot⟩ := hi.held.held binding.toSlot (List.mem_map_of_mem hmem)
  have heq : h = k := hi.held.holder_eq hh hk (by rw [hid, hkid, hholder]; rfl)
  rw [heq, hkslot, Option.some.injEq] at hslot
  exact slot_eq hi hmem ht hslot.symm

/-- The binding that an installation names is its own. -/
theorem binding_of_installation {installation : InstallationRecord} (hinst : installation ∈ s.installations)
    {binding : BindingRecord} (hmem : binding ∈ s.bindings) (hid : installation.bindingId = some binding.bindingId) :
    binding.installationId = installation.installationId := by
  obtain ⟨t, ht, htid, hholder⟩ := hi.held.holding installation.toHolder (List.mem_map_of_mem hinst) _ hid
  rw [slot_eq hi hmem ht htid] at hholder
  exact hholder

/-- An installation whose holder does not change. -/
theorem same_holders {installation updated : InstallationRecord} (hmem : installation ∈ s.installations)
    (hsame : updated.toHolder = installation.toHolder) :
    (s.withInstallation updated).map (·.toHolder) = s.ledger.holders := by
  rw [map_withInstallation, hsame]
  have hid : ∀ h ∈ s.ledger.holders, putHolder installation.toHolder h = id h := by
    intro h hh
    unfold putHolder
    split
    · rename_i heq
      exact (holder_eq hi hmem hh heq).symm
    · rfl
  rw [show s.installations.map (·.toHolder) = s.ledger.holders from rfl, List.map_congr_left hid, List.map_id]

theorem same_slots {binding updated : BindingRecord} (hmem : binding ∈ s.bindings)
    (hsame : updated.toSlot = binding.toSlot) : (s.withBinding updated).map (·.toSlot) = s.ledger.slots := by
  rw [map_withBinding, hsame]
  have hid : ∀ t ∈ s.ledger.slots, putSlot binding.toSlot t = id t := by
    intro t ht
    unfold putSlot
    split
    · rename_i heq
      exact (slot_eq hi hmem ht heq).symm
    · rfl
  rw [show s.bindings.map (·.toSlot) = s.ledger.slots from rfl, List.map_congr_left hid, List.map_id]

end RegistryState
end Operant.Plugins
