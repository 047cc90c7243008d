import Operant.Plugins.Ledger

/-! Every operation of the registry is a step of its ledger of leases. -/
namespace Operant.Plugins
open Operant.Leases Operant.Tables

namespace RegistryState
variable {s s' : RegistryState} {n : Nat} {o : Outcome}

/-- The slots stay, and the holders' epochs grow. -/
theorem advance_holders (hi : Inv n s.ledger) {installation updated : InstallationRecord}
    (hmem : installation ∈ s.installations) (hid : updated.installationId = installation.installationId)
    (hslot : updated.bindingId = installation.bindingId) (hepoch : installation.bindingEpoch ≤ updated.bindingEpoch)
    (hpermission : installation.permissionEpoch ≤ updated.permissionEpoch)
    (hnear : ∀ binding ∈ s.bindings, binding.installationId = installation.installationId →
      updated.bindingEpoch ≤ binding.bindingEpoch + 1) :
    Step n s.ledger { s.ledger with holders := (s.withInstallation updated).map (·.toHolder) } := by
  have hstep := Step.advance (n := n) (l := s.ledger) id (putHolder updated.toHolder)
    (fun t _ => ⟨rfl, rfl, rfl, Nat.le_refl _, Nat.le_refl _⟩)
    (fun h hh => by
      unfold putHolder
      split
      · rename_i heq
        rw [holder_eq hi hmem hh (heq.trans hid)]
        exact ⟨hid, hslot, hepoch, hpermission⟩
      · exact ⟨rfl, rfl, Nat.le_refl _, Nat.le_refl _⟩)
    (fun t ht h hh hholder => by
      unfold putHolder
      split
      · rename_i heq
        obtain ⟨binding, hbinding, rfl⟩ := List.mem_map.mp ht
        exact hnear binding hbinding (hholder.symm.trans (heq.trans hid))
      · exact hi.held.near t ht h hh hholder)
  rw [List.map_id] at hstep
  rw [map_withInstallation]
  exact hstep

/-- A binding and its installation get ahead of what was before, together. -/
theorem advance_both (hi : Inv n s.ledger) {installation updated : InstallationRecord} {binding put : BindingRecord}
    (hmem : installation ∈ s.installations) (hbinding : binding ∈ s.bindings)
    (hown : binding.installationId = installation.installationId)
    (hid : updated.installationId = installation.installationId) (hslot : updated.bindingId = installation.bindingId)
    (hepoch : installation.bindingEpoch ≤ updated.bindingEpoch)
    (hpermission : installation.permissionEpoch ≤ updated.permissionEpoch)
    (hput : put.bindingId = binding.bindingId ∧ put.installationId = binding.installationId ∧
      put.activeRunIds = binding.activeRunIds ∧ binding.bindingEpoch ≤ put.bindingEpoch ∧
      binding.permissionEpoch ≤ put.permissionEpoch)
    (hnear : updated.bindingEpoch ≤ put.bindingEpoch + 1) :
    Step n s.ledger { s.ledger with
      holders := (s.withInstallation updated).map (·.toHolder)
      slots := (s.withBinding put).map (·.toSlot) } := by
  obtain ⟨hputId, hputHolder, hputActive, hputEpoch, hputPermission⟩ := hput
  rw [map_withInstallation, map_withBinding]
  apply Step.advance (putSlot put.toSlot) (putHolder updated.toHolder)
  · intro t ht
    unfold putSlot
    split
    · rename_i heq
      rw [slot_eq hi hbinding ht (heq.trans hputId)]
      exact ⟨hputId, hputHolder, hputActive, hputEpoch, hputPermission⟩
    · exact ⟨rfl, rfl, rfl, Nat.le_refl _, Nat.le_refl _⟩
  · intro h hh
    unfold putHolder
    split
    · rename_i heq
      rw [holder_eq hi hmem hh (heq.trans hid)]
      exact ⟨hid, hslot, hepoch, hpermission⟩
    · exact ⟨rfl, rfl, Nat.le_refl _, Nat.le_refl _⟩
  · intro t ht h hh hholder
    unfold putHolder putSlot
    split
    · rename_i heq
      -- The slot of this installation is the binding.
      have hmine : t = binding.toSlot :=
        slot_of_installation hi hbinding ht (by rw [← hholder, hown]; exact heq.trans hid)
      have hhit : binding.toSlot.id = put.toSlot.id := hputId.symm
      rw [hmine, if_pos hhit]
      exact hnear
    · split
      · rename_i heq
        rw [slot_eq hi hbinding ht (heq.trans hputId)] at hholder ht
        exact Nat.le_trans (hi.held.near _ ht h hh hholder) (Nat.succ_le_succ hputEpoch)
      · exact hi.held.near t ht h hh hholder

/-- The holder of a binding is at most one ahead of it. -/
theorem near_binding (hi : Inv n s.ledger) {installation : InstallationRecord} {binding : BindingRecord}
    (hmem : installation ∈ s.installations) (hbinding : binding ∈ s.bindings)
    (hown : binding.installationId = installation.installationId) :
    installation.bindingEpoch ≤ binding.bindingEpoch + 1 :=
  hi.held.near binding.toSlot (List.mem_map_of_mem hbinding) installation.toHolder (List.mem_map_of_mem hmem) hown.symm

/-! ### Operations -/

theorem registerCertification_step {outside : Outside} {certification : Certification}
    (h : s.registerCertification outside certification = .ok o) (ha : o.assigned = some s') :
    Step n s.ledger s'.ledger := by
  unfold registerCertification at h
  obtain ⟨_, -, h⟩ := Calls.ok_of_bind h
  split at h
  · obtain ⟨_, -, h⟩ := Calls.ok_of_bind h
    cases h
    exact nomatch ha
  · cases h
    cases ha
    exact .same

theorem revokeCertification_step (hi : Inv n s.ledger) {certificationId : String}
    (h : s.revokeCertification certificationId = .ok o) (ha : o.assigned = some s') :
    Step n s.ledger s'.ledger := by
  unfold revokeCertification at h
  split at h
  · exact nomatch h
  · obtain ⟨held, -, h⟩ := Calls.ok_of_bind h
    cases h
    cases ha
    generalize (held.filter (·.certificationId = some certificationId)).map (·.installationId) = affected
    have hslots : ∀ f : BindingRecord → BindingRecord,
        (update s.bindings (affected.contains ·.installationId) f).map (·.toSlot) =
          s.bindings.map fun b => if affected.contains b.installationId then (f b).toSlot else b.toSlot := by
      intro f
      rw [update, List.map_map]
      apply List.map_congr_left
      intro b _
      show (if affected.contains b.installationId then f b else b).toSlot = _
      split <;> rfl
    have hholders : ∀ f : InstallationRecord → InstallationRecord,
        (update s.installations (affected.contains ·.installationId) f).map (·.toHolder) =
          s.installations.map fun i => if affected.contains i.installationId then (f i).toHolder else i.toHolder := by
      intro f
      rw [update, List.map_map]
      apply List.map_congr_left
      intro i _
      show (if affected.contains i.installationId then f i else i).toHolder = _
      split <;> rfl
    have hstep := Step.advance (n := n) (l := s.ledger)
      (fun t => if affected.contains t.holder then { t with epoch := t.epoch + 1, permission := t.permission + 1 } else t)
      (fun k => if affected.contains k.id then { k with epoch := k.epoch + 1, permission := k.permission + 1 } else k)
      (fun t _ => by split <;> simp) (fun k _ => by split <;> simp)
      (fun t ht k hk hid => by
        have hle := hi.held.near t ht k hk hid
        rw [hid]
        split
        · exact Nat.succ_le_succ hle
        · exact hle)
    unfold ledger at hstep ⊢
    dsimp only at hstep ⊢
    rw [List.map_map, List.map_map] at hstep
    rw [hslots, hholders]
    exact hstep

theorem install_step {request : InstallRequest} (h : s.install request = .ok o) (ha : o.assigned = some s') :
    Step n s.ledger s'.ledger := by
  unfold install at h
  obtain ⟨_, -, h⟩ := Calls.ok_of_bind h
  obtain ⟨_, -, h⟩ := Calls.ok_of_bind h
  obtain ⟨_, hnew, h⟩ := Calls.ok_of_bind h
  obtain ⟨_, -, h⟩ := Calls.ok_of_bind h
  obtain ⟨_, -, h⟩ := Calls.ok_of_bind h
  obtain ⟨_, -, h⟩ := Calls.ok_of_bind h
  obtain ⟨_, -, h⟩ := Calls.ok_of_bind h
  obtain ⟨_, -, h⟩ := Calls.ok_of_bind h
  obtain ⟨_, -, h⟩ := Calls.ok_of_bind h
  cases h
  cases ha
  have hstep := Step.enter (n := n) (l := s.ledger) request.installationId (by
    intro k hk hid
    obtain ⟨item, hitem, rfl⟩ := List.mem_map.mp hk
    have hnone := require_ok hnew
    rw [Bool.not_eq_true', List.any_eq_false] at hnone
    exact hnone item hitem (decide_eq_true hid))
  unfold ledger at hstep ⊢
  rw [List.map_append]
  exact hstep

theorem bind_step (hi : Inv n s.ledger) {installationId : String} {datasetId : Option String}
    {config : Option PluginConfig} {globalEnabled : Bool}
    (h : s.bind n installationId datasetId config globalEnabled = .ok o) (ha : o.assigned = some s') :
    Step n s.ledger s'.ledger := by
  unfold bind at h
  obtain ⟨installation, hinstallation, h⟩ := Calls.ok_of_bind h
  obtain ⟨hmem, hid⟩ := installation_ok hinstallation
  obtain ⟨_, -, h⟩ := Calls.ok_of_bind h
  split at h
  · obtain ⟨_, -, h⟩ := Calls.ok_of_bind h
    cases h
    exact nomatch ha
  · rename_i hfree
    obtain ⟨_, -, h⟩ := Calls.ok_of_bind h
    split at h
    · exact nomatch h
    · cases h
      cases ha
      have hstep := Step.bind (n := n) (l := s.ledger) installation.toHolder (List.mem_map_of_mem hmem) hfree
        (putHolder ⟨installation.installationId, some n, installation.bindingEpoch, installation.permissionEpoch⟩)
        (fun k hk => by
          unfold putHolder
          by_cases heq : k.id = installation.installationId
          · rw [if_pos heq, holder_eq hi hmem hk heq]
            exact ⟨rfl, rfl, rfl, fun _ => rfl, fun hne => absurd rfl hne⟩
          · rw [if_neg heq]
            exact ⟨rfl, rfl, rfl, fun h => absurd h heq, fun _ => rfl⟩)
      unfold ledger at hstep ⊢
      dsimp only
      rw [map_withInstallation, List.map_append, ← hid]
      exact hstep

theorem enable_step (hi : Inv n s.ledger) {outside : Outside} {bindingId : Nat}
    (h : s.enable outside bindingId = .ok o) (ha : o.assigned = some s') : Step n s.ledger s'.ledger := by
  unfold enable at h
  obtain ⟨binding, hbinding, h⟩ := Calls.ok_of_bind h
  obtain ⟨installation, hinstallation, h⟩ := Calls.ok_of_bind h
  obtain ⟨_, -, h⟩ := Calls.ok_of_bind h
  obtain ⟨_, -, h⟩ := Calls.ok_of_bind h
  obtain ⟨_, -, h⟩ := Calls.ok_of_bind h
  cases h
  cases ha
  obtain ⟨hb, -⟩ := binding_ok hbinding
  obtain ⟨hmem, hown⟩ := installation_ok hinstallation
  exact advance_both hi hmem hb hown.symm rfl rfl (near_binding hi hmem hb hown.symm) (Nat.le_refl _)
    ⟨rfl, rfl, rfl, Nat.le_succ _, Nat.le_refl _⟩ (Nat.le_succ _)

theorem beginDisable_step (hi : Inv n s.ledger) {bindingId : Nat} {stopRunIds : List String}
    (h : s.beginDisable bindingId stopRunIds = .ok o) (ha : o.assigned = some s') : Step n s.ledger s'.ledger := by
  unfold beginDisable at h
  obtain ⟨binding, hbinding, h⟩ := Calls.ok_of_bind h
  obtain ⟨_, -, h⟩ := Calls.ok_of_bind h
  obtain ⟨installation, hinstallation, h⟩ := Calls.ok_of_bind h
  cases h
  cases ha
  obtain ⟨hb, -⟩ := binding_ok hbinding
  obtain ⟨hmem, hown⟩ := installation_ok hinstallation
  exact advance_both hi hmem hb hown.symm rfl rfl (near_binding hi hmem hb hown.symm) (Nat.le_refl _)
    ⟨rfl, rfl, rfl, Nat.le_succ _, Nat.le_refl _⟩ (Nat.le_succ _)

/-- A ledger is its parts. -/
theorem step_parts {l : Ledger String String} (h : Step n s.ledger l)
    (hholders : s'.installations.map (·.toHolder) = l.holders) (hslots : s'.bindings.map (·.toSlot) = l.slots)
    (hleases : s'.runs.map (·.toLease) = l.leases) : Step n s.ledger s'.ledger := by
  have hsame : s'.ledger = l := by
    unfold ledger
    rw [hholders, hslots, hleases]
  rw [hsame]
  exact h

theorem step_same (hholders : s'.installations.map (·.toHolder) = s.ledger.holders)
    (hslots : s'.bindings.map (·.toSlot) = s.ledger.slots) (hleases : s'.runs.map (·.toLease) = s.ledger.leases) :
    Step n s.ledger s'.ledger :=
  step_parts .same hholders hslots hleases

theorem completeDisable_step (hi : Inv n s.ledger) {bindingId : Nat} {failed : Option String} {restartRequired : Bool}
    (h : s.completeDisable bindingId failed restartRequired = .ok o) (ha : o.assigned = some s') :
    Step n s.ledger s'.ledger := by
  unfold completeDisable at h
  obtain ⟨binding, -, h⟩ := Calls.ok_of_bind h
  obtain ⟨installation, hinstallation, h⟩ := Calls.ok_of_bind h
  cases h
  cases ha
  exact step_same (same_holders hi (installation_ok hinstallation).1 rfl) rfl rfl

theorem markFailed_step (hi : Inv n s.ledger) {installationId code : String}
    (h : s.markFailed installationId code = .ok o) (ha : o.assigned = some s') : Step n s.ledger s'.ledger := by
  unfold markFailed at h
  obtain ⟨installation, hinstallation, h⟩ := Calls.ok_of_bind h
  cases h
  cases ha
  exact step_same (same_holders hi (installation_ok hinstallation).1 rfl) rfl rfl

theorem setGlobalEnabled_step (hi : Inv n s.ledger) {bindingId : Nat} {enabled : Bool}
    (h : s.setGlobalEnabled bindingId enabled = .ok o) (ha : o.assigned = some s') : Step n s.ledger s'.ledger := by
  unfold setGlobalEnabled at h
  obtain ⟨binding, hbinding, h⟩ := Calls.ok_of_bind h
  cases h
  cases ha
  exact step_same rfl (same_slots hi (binding_ok hbinding).1 rfl) rfl

theorem configureMaintenance_step (hi : Inv n s.ledger) {bindingId : Nat} {enabled : Bool}
    (h : s.configureMaintenance bindingId enabled = .ok o) (ha : o.assigned = some s') :
    Step n s.ledger s'.ledger := by
  unfold configureMaintenance at h
  obtain ⟨binding, hbinding, h⟩ := Calls.ok_of_bind h
  obtain ⟨installation, hinstallation, h⟩ := Calls.ok_of_bind h
  obtain ⟨_, -, h⟩ := Calls.ok_of_bind h
  split at h
  · cases h
    exact nomatch ha
  · cases h
    cases ha
    exact step_same (same_holders hi (installation_ok hinstallation).1 rfl)
      (same_slots hi (binding_ok hbinding).1 rfl) rfl

/-! ### Runs -/

theorem le_foldl_max (xs : List Nat) (start : Nat) : start ≤ xs.foldl max start ∧ ∀ x ∈ xs, x ≤ xs.foldl max start := by
  induction xs generalizing start with
  | nil => simp
  | cons a rest ih =>
    obtain ⟨hstart, hrest⟩ := ih (max start a)
    rw [List.foldl_cons]
    refine ⟨by omega, fun x hx => ?_⟩
    cases List.mem_cons.mp hx with
    | inl heq => omega
    | inr hmem => exact hrest x hmem

theorem lt_maxFencing {lease : RunLease} (hmem : lease ∈ s.runs) : lease.leaseFencing < s.maxFencing lease.bindingId + 1 := by
  apply Nat.lt_succ_of_le
  apply (le_foldl_max _ _).2
  exact List.mem_map_of_mem (List.mem_filter.mpr ⟨hmem, by simp⟩)

theorem createRun_step (hi : Inv n s.ledger) {outside : Outside} {bindingId : Nat} {runId : String} {scope : Scope}
    {ttl : Scheduler.Instant} (h : s.createRun outside n bindingId runId scope ttl = .ok o)
    (ha : o.assigned = some s') : Step n s.ledger s'.ledger := by
  unfold createRun at h
  obtain ⟨binding, hbinding, h⟩ := Calls.ok_of_bind h
  obtain ⟨_, -, h⟩ := Calls.ok_of_bind h
  obtain ⟨_, -, h⟩ := Calls.ok_of_bind h
  obtain ⟨_, hnew, h⟩ := Calls.ok_of_bind h
  obtain ⟨installation, -, h⟩ := Calls.ok_of_bind h
  cases h
  cases ha
  obtain ⟨hb, hid⟩ := binding_ok hbinding
  have hnone := require_ok hnew
  rw [Bool.not_eq_true', List.contains_eq_mem, decide_eq_false_iff_not] at hnone
  have hstep := Step.take (n := n) (l := s.ledger) binding.toSlot (List.mem_map_of_mem hb)
    (putSlot ⟨binding.bindingId, binding.installationId, binding.bindingEpoch, binding.permissionEpoch,
      binding.activeRunIds ++ [runId]⟩)
    ⟨n, runId, binding.bindingId, binding.bindingEpoch, s.maxFencing bindingId + 1, true⟩
    (fun t ht => by
      unfold putSlot
      by_cases heq : t.id = binding.bindingId
      · rw [if_pos heq, slot_eq hi hb ht heq]
        exact ⟨rfl, rfl, rfl, rfl, fun _ => rfl, fun hne => absurd rfl hne⟩
      · rw [if_neg heq]
        exact ⟨rfl, rfl, rfl, rfl, fun h => absurd h heq, fun _ => rfl⟩)
    ⟨rfl, rfl, rfl, rfl⟩ hnone
    (fun y hy hslot => by
      obtain ⟨lease, hlease, rfl⟩ := List.mem_map.mp hy
      have hlt := lt_maxFencing hlease
      rw [show lease.bindingId = bindingId from hslot.trans hid] at hlt
      exact hlt)
  unfold ledger at hstep ⊢
  dsimp only
  rw [map_withBinding, List.map_append]
  exact hstep

/-- One of the highest is chosen. -/
theorem foldl_highest (leases : List RunLease) (best : Option RunLease) :
    (leases.foldl highest best = none ∧ leases = [] ∧ best = none) ∨
      ∃ chosen, leases.foldl highest best = some chosen ∧ (chosen ∈ leases ∨ best = some chosen) := by
  induction leases generalizing best with
  | nil =>
    cases best with
    | none => exact .inl ⟨rfl, rfl, rfl⟩
    | some held => exact .inr ⟨held, rfl, .inr rfl⟩
  | cons item rest ih =>
    rw [List.foldl_cons]
    right
    cases ih (highest best item) with
    | inl hnone =>
      obtain ⟨-, -, hbest⟩ := hnone
      unfold highest at hbest
      split at hbest
      · exact nomatch hbest
      · split at hbest <;> exact nomatch hbest
    | inr hsome =>
      obtain ⟨chosen, hchosen, hfrom⟩ := hsome
      refine ⟨chosen, hchosen, ?_⟩
      cases hfrom with
      | inl hmem => exact .inl (List.mem_cons_of_mem _ hmem)
      | inr hbest =>
        unfold highest at hbest
        split at hbest
        · cases hbest
          exact .inl List.mem_cons_self
        · rename_i held
          split at hbest
          · cases hbest
            exact .inl List.mem_cons_self
          · cases hbest
            exact .inr rfl

/-- An active lease owns the slot of its run. -/
theorem currentActive_eq (hi : Inv n s.ledger) {lease : RunLease} (hmem : lease ∈ s.runs) (hactive : lease.isActive = true) :
    s.currentActive lease = some lease := by
  have hmine : lease ∈ s.runs.filter fun item =>
      item.isActive && item.bindingId = lease.bindingId && item.runId = lease.runId :=
    List.mem_filter.mpr ⟨hmem, by simp [hactive]⟩
  unfold currentActive
  generalize hsame : (s.runs.filter fun item =>
    item.isActive && item.bindingId = lease.bindingId && item.runId = lease.runId) = same at hmine ⊢
  cases foldl_highest same none with
  | inl hnone =>
    rw [hnone.2.1] at hmine
    exact absurd hmine List.not_mem_nil
  | inr hsome =>
    obtain ⟨chosen, hchosen, hfrom⟩ := hsome
    rw [hchosen]
    have hfound := hfrom.resolve_right fun h => nomatch h
    rw [← hsame] at hfound
    obtain ⟨hruns, hsame⟩ := List.mem_filter.mp hfound
    rw [Bool.and_eq_true, Bool.and_eq_true, decide_eq_true_eq, decide_eq_true_eq] at hsame
    have heq := hi.marked.once chosen.toLease (List.mem_map_of_mem hruns) lease.toLease (List.mem_map_of_mem hmem)
      hsame.1.1 hactive hsame.1.2 hsame.2
    rw [lease_eq hi hruns hmem (congrArg Lease.id heq)]

theorem releaseRun_step (hi : Inv n s.ledger) {leaseId : Nat} {how : RunEnd} (h : s.releaseRun leaseId how = .ok o)
    (ha : o.assigned = some s') : Step n s.ledger s'.ledger := by
  unfold releaseRun at h
  obtain ⟨lease, hlease, h⟩ := Calls.ok_of_bind h
  obtain ⟨hmem, hid⟩ := run_ok hlease
  split at h
  · cases h
    exact nomatch ha
  · rename_i hactive
    rw [Bool.not_eq_true', Bool.not_eq_false] at hactive
    obtain ⟨binding, hbinding, h⟩ := Calls.ok_of_bind h
    obtain ⟨hb, hown⟩ := binding_ok hbinding
    rw [currentActive_eq hi hmem hactive] at h
    simp only [Option.any_some, decide_true, Bool.and_self, if_true] at h
    cases h
    cases ha
    have hstep := Step.release (n := n) (l := s.ledger) lease.toLease (List.mem_map_of_mem hmem) hactive
      (putSlot ⟨binding.bindingId, binding.installationId, binding.bindingEpoch, binding.permissionEpoch,
        binding.activeRunIds.filter (· ≠ lease.runId)⟩)
      (fun y => if y.id = leaseId then { y with live := false } else y)
      (fun t ht => by
        unfold putSlot
        by_cases heq : t.id = binding.bindingId
        · rw [if_pos heq, slot_eq hi hb ht heq]
          refine ⟨rfl, rfl, rfl, rfl, List.filter_sublist, fun run => ?_⟩
          show run ∈ binding.activeRunIds.filter (· ≠ lease.runId) ↔
            run ∈ binding.activeRunIds ∧ ¬(binding.bindingId = lease.bindingId ∧ run = lease.runId)
          simp [hown]
        · rw [if_neg heq]
          refine ⟨rfl, rfl, rfl, rfl, List.Sublist.refl _, fun run => ?_⟩
          constructor
          · exact fun h => ⟨h, fun hboth => heq (hboth.1.trans hown.symm)⟩
          · exact fun h => h.1)
      (fun y _ => by rw [← hid]; rfl)
    unfold ledger at hstep ⊢
    dsimp only
    rw [map_withBinding]
    have hleases : (update s.runs (·.leaseId = leaseId) fun _ => { lease with status := .ended how }).map (·.toLease) =
        (s.runs.map (·.toLease)).map fun y => if y.id = leaseId then { y with live := false } else y := by
      rw [update, List.map_map, List.map_map]
      apply List.map_congr_left
      intro item hitem
      show (if decide (item.leaseId = leaseId) = true then { lease with status := .ended how } else item).toLease =
        if item.leaseId = leaseId then { item.toLease with live := false } else item.toLease
      by_cases heq : item.leaseId = leaseId
      · rw [if_pos (decide_eq_true heq), if_pos heq, lease_eq hi hitem hmem (heq.trans hid.symm)]
        rfl
      · rw [if_neg (by simpa using heq), if_neg heq]
    rw [hleases]
    exact hstep

theorem assertLease_step {outside : Outside} {lease : RunLease} {context : RpcContext} {verifyPackage : Bool}
    (h : s.assertLease outside lease context verifyPackage = .ok o) (ha : o.assigned = some s') :
    Step n s.ledger s'.ledger := by
  unfold assertLease at h
  obtain ⟨_, -, h⟩ := Calls.ok_of_bind h
  obtain ⟨_, -, h⟩ := Calls.ok_of_bind h
  obtain ⟨_, -, h⟩ := Calls.ok_of_bind h
  obtain ⟨_, -, h⟩ := Calls.ok_of_bind h
  obtain ⟨_, -, h⟩ := Calls.ok_of_bind h
  split at h
  · obtain ⟨_, -, h⟩ := Calls.ok_of_bind h
    cases h
    exact nomatch ha
  · cases h
    exact nomatch ha

/-! ### Resources and datasets -/

theorem createResource_step {outside : Outside} {installationId relativePath category : String} {reconstructible : Bool}
    {pathKind : PathKind}
    (h : s.createResource outside installationId relativePath category reconstructible pathKind = .ok o)
    (ha : o.assigned = some s') : Step n s.ledger s'.ledger := by
  unfold createResource at h
  obtain ⟨_, -, h⟩ := Calls.ok_of_bind h
  obtain ⟨_, -, h⟩ := Calls.ok_of_bind h
  obtain ⟨_, -, h⟩ := Calls.ok_of_bind h
  obtain ⟨_, -, h⟩ := Calls.ok_of_bind h
  split at h
  · cases h
    exact nomatch ha
  · obtain ⟨_, -, h⟩ := Calls.ok_of_bind h
    obtain ⟨_, -, h⟩ := Calls.ok_of_bind h
    cases h
    cases ha
    exact step_same rfl rfl rfl

theorem attachDatasetConsumer_step {datasetId installationId : String}
    (h : s.attachDatasetConsumer datasetId installationId = .ok o) (ha : o.assigned = some s') :
    Step n s.ledger s'.ledger := by
  unfold attachDatasetConsumer at h
  obtain ⟨_, -, h⟩ := Calls.ok_of_bind h
  obtain ⟨_, -, h⟩ := Calls.ok_of_bind h
  dsimp only at h
  split at h
  · cases h
    cases ha
    exact step_same rfl rfl rfl
  · cases h
    exact nomatch ha

theorem revokeDatasetConsumer_step {datasetId installationId : String}
    (h : s.revokeDatasetConsumer datasetId installationId = .ok o) (ha : o.assigned = some s') :
    Step n s.ledger s'.ledger := by
  unfold revokeDatasetConsumer at h
  obtain ⟨_, -, h⟩ := Calls.ok_of_bind h
  dsimp only at h
  split at h
  · cases h
    cases ha
    exact step_same rfl rfl rfl
  · cases h
    exact nomatch ha

theorem bumpResourceRevision_step {resourceId : ResourceId} (h : s.bumpResourceRevision resourceId = .ok o)
    (ha : o.assigned = some s') : Step n s.ledger s'.ledger := by
  unfold bumpResourceRevision at h
  split at h
  · exact nomatch h
  · cases h
    cases ha
    exact step_same rfl rfl rfl

theorem transferOwner_step (hi : Inv n s.ledger) {request : TransferRequest} {source : DatasetRecord}
    {installation : InstallationRecord} (hmem : installation ∈ s.installations)
    (h : s.transferOwner request source installation = .ok o) (ha : o.assigned = some s') :
    Step n s.ledger s'.ledger := by
  unfold transferOwner at h
  obtain ⟨_, -, h⟩ := Calls.ok_of_bind h
  obtain ⟨binding, hbinding, h⟩ := Calls.ok_of_bind h
  obtain ⟨_, hstopped, h⟩ := Calls.ok_of_bind h
  obtain ⟨_, -, h⟩ := Calls.ok_of_bind h
  obtain ⟨_, -, h⟩ := Calls.ok_of_bind h
  obtain ⟨_, -, h⟩ := Calls.ok_of_bind h
  cases h
  cases ha
  cases bindingOf_ok hbinding with
  | inl hnone =>
    rw [hnone.2]
    have hnear : ∀ b ∈ s.bindings, b.installationId = installation.installationId →
        installation.bindingEpoch ≤ b.bindingEpoch + 1 := fun b hb hown => near_binding hi hmem hb hown
    exact advance_holders hi hmem rfl rfl (by simp) (Nat.le_succ _) hnear
  | inr hsome =>
    obtain ⟨b, rfl, hb, hid⟩ := hsome
    have hown := binding_of_installation hi hmem hb hid
    have hnear := near_binding hi hmem hb hown
    have hstop := require_ok hstopped
    rw [Option.all_some, Bool.and_eq_true, List.isEmpty_iff] at hstop
    exact advance_both hi hmem hb hown rfl rfl (by simp) (Nat.le_succ _)
      ⟨rfl, rfl, hstop.2.symm, Nat.le_refl _, Nat.le_succ _⟩ hnear

theorem transferDataset_step (hi : Inv n s.ledger) {request : TransferRequest}
    (h : s.transferDataset request = .ok o) (ha : o.assigned = some s') : Step n s.ledger s'.ledger := by
  unfold transferDataset at h
  obtain ⟨_, -, h⟩ := Calls.ok_of_bind h
  obtain ⟨_, -, h⟩ := Calls.ok_of_bind h
  obtain ⟨installation, hinstallation, h⟩ := Calls.ok_of_bind h
  obtain ⟨_, -, h⟩ := Calls.ok_of_bind h
  split at h
  · obtain ⟨_, -, h⟩ := Calls.ok_of_bind h
    split at h
    · cases h
      exact nomatch ha
    · exact transferOwner_step hi (installation_ok hinstallation).1 h ha
  · obtain ⟨_, -, h⟩ := Calls.ok_of_bind h
    obtain ⟨_, -, h⟩ := Calls.ok_of_bind h
    split at h
    · cases h
      exact nomatch ha
    · cases h
      cases ha
      exact step_same rfl rfl rfl

/-! ### Uninstalling -/

theorem beginUninstall_step (hi : Inv n s.ledger) {fresh : Nat} {installationId : String} {dataPolicy : DataPolicy}
    {stopRunIds : List String} {expectedBindingEpoch : Option Nat}
    (h : s.beginUninstall fresh installationId dataPolicy stopRunIds expectedBindingEpoch = .ok o)
    (ha : o.assigned = some s') : Step n s.ledger s'.ledger := by
  unfold beginUninstall at h
  obtain ⟨installation, hinstallation, h⟩ := Calls.ok_of_bind h
  obtain ⟨hmem, -⟩ := installation_ok hinstallation
  obtain ⟨binding, hbinding, h⟩ := Calls.ok_of_bind h
  obtain ⟨_, -, h⟩ := Calls.ok_of_bind h
  obtain ⟨_, -, h⟩ := Calls.ok_of_bind h
  cases h
  cases ha
  cases bindingOf_ok hbinding with
  | inl hnone =>
    obtain ⟨hfree, rfl⟩ := hnone
    refine advance_holders hi hmem ?_ ?_ ?_ ?_ ?_
    iterate 2 rfl
    · exact Nat.le_succ _
    · exact Nat.le_refl _
    intro b hb hown
    -- An installation that names no binding has none.
    obtain ⟨k, hk, hkid, hslot⟩ := hi.held.held b.toSlot (List.mem_map_of_mem hb)
    rw [holder_eq hi hmem hk (hkid.trans hown)] at hslot
    exact nomatch hfree.symm.trans hslot
  | inr hsome =>
    obtain ⟨b, rfl, hb, hid⟩ := hsome
    have hown := binding_of_installation hi hmem hb hid
    have hnear := near_binding hi hmem hb hown
    refine advance_holders hi hmem ?_ ?_ hnear ?_ ?_
    iterate 2 rfl
    · exact Nat.le_refl _
    intro b' hb' hown'
    have heq := slot_of_installation hi hb (List.mem_map_of_mem hb') (hown'.trans hown.symm)
    exact Nat.succ_le_succ (Nat.le_of_eq (congrArg Slot.epoch heq).symm)

theorem markResourceCleanup_step {operationId : Nat} {resourceId : ResourceId} {item : CleanupItem}
    (h : s.markResourceCleanup operationId resourceId item = .ok o) (ha : o.assigned = some s') :
    Step n s.ledger s'.ledger := by
  unfold markResourceCleanup at h
  obtain ⟨_, -, h⟩ := Calls.ok_of_bind h
  obtain ⟨_, -, h⟩ := Calls.ok_of_bind h
  cases h
  cases ha
  exact step_same rfl rfl rfl

/-- The installation of a plan has no active runs, or the plan is not finished. -/
def Quiet (s : RegistryState) (operationId : Nat) : Prop :=
  ∀ plan ∈ s.cleanupPlans, plan.operationId = operationId → plan.items.any CleanupItem.isUnfinished = false →
    ∀ binding ∈ s.bindings, binding.installationId = plan.installationId →
      ∀ lease ∈ s.runs, lease.bindingId = binding.bindingId → lease.isActive = false

theorem completeUninstall_step (hi : Inv n s.ledger) {operationId : Nat} (hquiet : s.Quiet operationId)
    (h : s.completeUninstall operationId = .ok o) (ha : o.assigned = some s') : Step n s.ledger s'.ledger := by
  unfold completeUninstall at h
  obtain ⟨plan, hplan, h⟩ := Calls.ok_of_bind h
  obtain ⟨hmemPlan, hidPlan⟩ := cleanupPlan_ok hplan
  split at h
  · cases h
    cases ha
    exact step_same rfl rfl rfl
  · rename_i hfinished
    obtain ⟨installation, hinstallation, h⟩ := Calls.ok_of_bind h
    obtain ⟨hmem, hid⟩ := installation_ok hinstallation
    split at h
    · exact nomatch h
    · cases h
      cases ha
      have hstep := Step.remove (n := n) (l := s.ledger) plan.installationId
        (fun t => decide (t.holder ≠ plan.installationId))
        (putHolder ⟨installation.installationId, none, installation.bindingEpoch, installation.permissionEpoch⟩)
        (fun t _ => decide_eq_true_iff)
        (fun k hk => by
          unfold putHolder
          by_cases heq : k.id = installation.installationId
          · rw [if_pos heq, holder_eq hi hmem hk heq]
            exact ⟨rfl, rfl, rfl, fun _ => rfl, fun hne => absurd hid hne⟩
          · rw [if_neg heq]
            exact ⟨rfl, rfl, rfl, fun h => absurd (h.trans hid.symm) heq, fun _ => rfl⟩)
        (fun t ht hholder x hx hslot => by
          obtain ⟨binding, hb, rfl⟩ := List.mem_map.mp ht
          obtain ⟨lease, hlease, rfl⟩ := List.mem_map.mp hx
          rw [Bool.not_eq_true] at hfinished
          exact hquiet plan hmemPlan hidPlan hfinished binding hb hholder lease hlease hslot)
      unfold ledger at hstep ⊢
      dsimp only
      rw [map_withInstallation]
      have hslots : (s.bindings.filter (·.installationId ≠ plan.installationId)).map (·.toSlot) =
          (s.bindings.map (·.toSlot)).filter fun t => decide (t.holder ≠ plan.installationId) := by
        rw [List.filter_map]
        rfl
      rw [hslots]
      exact hstep

/-! ### Recovery -/

/-- A binding with active runs, and without them. -/
def recovered (s : RegistryState) (binding : BindingRecord) : BindingRecord :=
  if (s.runs.filter (·.isActive)).any (·.bindingId = binding.bindingId) then
    { binding with activeRunIds := [], bindingEpoch := binding.bindingEpoch + 1 }
  else binding

/-- No installation is ahead of its binding, once it is recovered. -/
def CaughtUp (s : RegistryState) : Prop :=
  ∀ binding ∈ s.bindings, ∀ installation ∈ s.installations,
    installation.installationId = binding.installationId →
      installation.bindingEpoch ≤ (s.recovered binding).bindingEpoch

theorem recovered_keeps (binding : BindingRecord) :
    (s.recovered binding).bindingId = binding.bindingId ∧
      (s.recovered binding).installationId = binding.installationId ∧
      (s.recovered binding).permissionEpoch = binding.permissionEpoch ∧
      binding.bindingEpoch ≤ (s.recovered binding).bindingEpoch := by
  unfold recovered
  split
  · exact ⟨rfl, rfl, rfl, Nat.le_succ _⟩
  · exact ⟨rfl, rfl, rfl, Nat.le_refl _⟩

/-- A binding without active leases has no active runs. -/
theorem recovered_active (hi : Inv n s.ledger) {binding : BindingRecord} (hb : binding ∈ s.bindings) :
    (s.recovered binding).activeRunIds = [] := by
  unfold recovered
  split
  · rfl
  · rename_i hidle
    rw [List.eq_nil_iff_forall_not_mem]
    intro run hrun
    obtain ⟨x, hx, hlive, hslot, -⟩ := (hi.marked.marks binding.toSlot (List.mem_map_of_mem hb) run).mp hrun
    obtain ⟨lease, hlease, rfl⟩ := List.mem_map.mp hx
    have hactive : lease ∈ s.runs.filter (·.isActive) := List.mem_filter.mpr ⟨hlease, hlive⟩
    exact hidle (List.any_eq_true.mpr ⟨lease, hactive, decide_eq_true hslot⟩)

theorem fenceRecoveredRuns_step (hi : Inv n s.ledger) (hcaught : s.CaughtUp)
    (h : s.fenceRecoveredRuns = some s') : Step n s.ledger s'.ledger := by
  unfold fenceRecoveredRuns at h
  dsimp only at h
  split at h
  · cases h
  · cases h
    generalize hactive : s.runs.filter (·.isActive) = active
    have hrecovered : (update s.bindings (fun b => active.any (·.bindingId = b.bindingId)) fun b =>
        { b with activeRunIds := [], bindingEpoch := b.bindingEpoch + 1 }) = s.bindings.map s.recovered := by
      rw [← hactive]
      rfl
    rw [hrecovered]
    have hfind : ∀ id r, (s.bindings.map s.recovered).find? (·.installationId = id) = some r →
        ∃ b ∈ s.bindings, r = s.recovered b ∧ b.installationId = id := by
      intro id r hr
      obtain ⟨b, hb, rfl⟩ := List.mem_map.mp (List.mem_of_find?_eq_some hr)
      have hid := List.find?_some hr
      rw [decide_eq_true_eq, (recovered_keeps b).2.1] at hid
      exact ⟨b, hb, rfl, hid⟩
    let f (t : Slot String String) : Slot String String :=
      if active.any (·.bindingId = t.id) then { t with active := [], epoch := t.epoch + 1 } else t
    let g (k : Holder String) : Holder String :=
      ((s.bindings.map s.recovered).find? (·.installationId = k.id)).elim k fun r => { k with epoch := r.bindingEpoch }
    have hf : ∀ b, f b.toSlot = (s.recovered b).toSlot := by
      intro b
      show (if active.any (·.bindingId = b.bindingId) then _ else _) = _
      unfold recovered
      rw [hactive]
      split <;> rfl
    have hstep := Step.recover (n := n) (l := s.ledger) f g (fun x => { x with live := false })
      (fun t ht => by
        obtain ⟨b, hb, rfl⟩ := List.mem_map.mp ht
        obtain ⟨hid, hholder, hpermission, hepoch⟩ := recovered_keeps (s := s) b
        rw [hf b]
        exact ⟨hid, hholder, recovered_active hi hb, hepoch, Nat.le_of_eq hpermission.symm⟩)
      (fun k hk => by
        obtain ⟨i, hmem, rfl⟩ := List.mem_map.mp hk
        show (g i.toHolder).id = _ ∧ _
        dsimp only [g]
        cases hr : (s.bindings.map s.recovered).find? (·.installationId = i.toHolder.id) with
        | none => exact ⟨rfl, rfl, Nat.le_refl _, Nat.le_refl _⟩
        | some r =>
          obtain ⟨b, hb, rfl, hid⟩ := hfind _ _ hr
          exact ⟨rfl, rfl, hcaught b hb i hmem hid.symm, Nat.le_refl _⟩)
      (fun t ht k hk hholder => by
        obtain ⟨b, hb, rfl⟩ := List.mem_map.mp ht
        rw [hf b]
        dsimp only [g]
        cases hr : (s.bindings.map s.recovered).find? (·.installationId = k.id) with
        | none => exact Nat.le_trans (hi.held.near _ ht k hk hholder) (Nat.succ_le_succ (recovered_keeps b).2.2.2)
        | some r =>
          obtain ⟨b', hb', rfl, hid⟩ := hfind _ _ hr
          -- There is only one binding of the installation.
          have heq := slot_of_installation hi hb (List.mem_map_of_mem hb') (hid.trans hholder)
          have hsame : (s.recovered b').toSlot = (s.recovered b).toSlot := by rw [← hf, ← hf, heq]
          show (s.recovered b').toSlot.epoch ≤ _
          rw [hsame]
          exact Nat.le_succ _)
      (fun x _ => rfl)
    apply step_parts hstep
    · show _ = (s.installations.map (·.toHolder)).map g
      rw [List.map_map, List.map_map]
      apply List.map_congr_left
      intro i _
      dsimp only [Function.comp_apply, g, InstallationRecord.toHolder]
      cases (s.bindings.map s.recovered).find? (·.installationId = i.installationId) <;> rfl
    · show _ = (s.bindings.map (·.toSlot)).map f
      rw [List.map_map, List.map_map]
      exact List.map_congr_left fun b _ => (hf b).symm
    · show _ = (s.runs.map (·.toLease)).map fun x => { x with live := false }
      rw [update, List.map_map, List.map_map]
      apply List.map_congr_left
      intro item hitem
      show (if active.any (·.leaseId = item.leaseId) then { item with status := .ended .expired } else item).toLease =
        { item.toLease with live := false }
      split
      · rfl
      · rename_i hidle
        have hended : item.isActive = false := by
          cases hlive : item.isActive with
          | false => rfl
          | true =>
            have hmem : item ∈ active := by
              rw [← hactive]
              exact List.mem_filter.mpr ⟨hitem, hlive⟩
            exact absurd (List.any_eq_true.mpr ⟨item, hmem, decide_eq_true rfl⟩) hidle
        show (⟨item.leaseId, item.runId, item.bindingId, item.bindingEpoch, item.leaseFencing, item.isActive⟩ :
          Lease String) = ⟨item.leaseId, item.runId, item.bindingId, item.bindingEpoch, item.leaseFencing, false⟩
        rw [hended]

end RegistryState

/-- What a call must leave: an uninstallation that ends does not take a binding with active runs away. -/
def Call.Leaves (call : Call) (s : RegistryState) : Prop :=
  match call with
  | .completeUninstall operationId => s.Quiet operationId
  | _ => True

/-- Whatever is called, the ledger takes a step. -/
theorem Call.outcome_step {s s' : RegistryState} {n : Nat} {o : Outcome} {call : Call} {outside : Outside}
    (hi : Inv n s.ledger) (hleaves : call.Leaves s) (h : call.outcome outside n s = .ok o)
    (ha : o.assigned = some s') : Step n s.ledger s'.ledger := by
  cases call with
  | registerCertification => exact RegistryState.registerCertification_step h ha
  | revokeCertification => exact RegistryState.revokeCertification_step hi h ha
  | install => exact RegistryState.install_step h ha
  | bind => exact RegistryState.bind_step hi h ha
  | enable => exact RegistryState.enable_step hi h ha
  | beginDisable => exact RegistryState.beginDisable_step hi h ha
  | completeDisable => exact RegistryState.completeDisable_step hi h ha
  | markFailed => exact RegistryState.markFailed_step hi h ha
  | setGlobalEnabled => exact RegistryState.setGlobalEnabled_step hi h ha
  | configureMaintenance => exact RegistryState.configureMaintenance_step hi h ha
  | createRun => exact RegistryState.createRun_step hi h ha
  | releaseRun => exact RegistryState.releaseRun_step hi h ha
  | assertLease => exact RegistryState.assertLease_step h ha
  | createResource => exact RegistryState.createResource_step h ha
  | attachDatasetConsumer => exact RegistryState.attachDatasetConsumer_step h ha
  | revokeDatasetConsumer => exact RegistryState.revokeDatasetConsumer_step h ha
  | bumpResourceRevision => exact RegistryState.bumpResourceRevision_step h ha
  | transferDataset => exact RegistryState.transferDataset_step hi h ha
  | beginUninstall => exact RegistryState.beginUninstall_step hi h ha
  | markResourceCleanup => exact RegistryState.markResourceCleanup_step h ha
  | completeUninstall => exact RegistryState.completeUninstall_step hi hleaves h ha

end Operant.Plugins
