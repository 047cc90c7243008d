import Operant.Plugins.Steps

/-! Leases of plugin runs, over whole histories of a registry.

As long as the state file can be written, no uninstallation ends while a run still has its lease, and
a restart finds no installation ahead of its binding, the marks of a binding are its active leases,
epochs do not decrease, and what was fenced once stays fenced. -/
namespace Operant.Plugins
open Operant.Leases Operant.Tables

/-- The state file can be written. A binding whose runs are active is not taken away, and recovery
sets no installation back. -/
def Event.Sound (r : Registry) : Event → Prop
  | .call asked _ writes => writes = true ∧ asked.Leaves r.state
  | .restart writes => writes = true ∧ ((∃ lease ∈ r.stored.runs, lease.isActive = true) → r.stored.CaughtUp)

def Registry.Sound (r : Registry) : List Event → Prop
  | [] => True
  | e :: rest => e.Sound r ∧ Registry.Sound (r.apply e).2 rest

/-! ### What events keep -/

structure Registry.Good (r : Registry) : Prop where
  inv : Inv r.fresh r.state.ledger
  saved : r.state = r.stored

/-- What a registry may become. -/
structure Registry.Follows (r r' : Registry) : Prop where
  good : r'.Good
  later : Later r.fresh r.state.ledger r'.state.ledger
  fresh : r.fresh ≤ r'.fresh

namespace Registry
variable {r r' r'' : Registry}

theorem good_empty : ({} : Registry).Good := ⟨.of_empty, rfl⟩

theorem Good.refl (hg : r.Good) : r.Follows r := ⟨hg, .refl _ _, Nat.le_refl _⟩

theorem Follows.trans (h : r.Follows r') (h' : r'.Follows r'') : r.Follows r'' :=
  ⟨h'.good, h.later.trans h'.later h.fresh, Nat.le_trans h.fresh h'.fresh⟩

/-- A state that is a step ahead, in memory and in the file. -/
theorem Good.step (hg : r.Good) {s : RegistryState} (hstep : Step r.fresh r.state.ledger s.ledger) :
    r.Follows { state := s, stored := s, fresh := r.fresh + 1 } :=
  ⟨⟨hstep.inv hg.inv, rfl⟩, hstep.later, Nat.le_succ _⟩

theorem Good.perform (hg : r.Good) {outcome : Except Raised Outcome}
    (hstep : ∀ o s, outcome = .ok o → o.assigned = some s → Step r.fresh r.state.ledger s.ledger) :
    r.Follows (r.perform outcome true).2 := by
  have hnext : r.Follows { r with fresh := r.fresh + 1 } :=
    ⟨⟨hg.inv.mono (Nat.le_succ _), hg.saved⟩, .refl _ _, Nat.le_succ _⟩
  unfold Registry.perform
  cases outcome with
  | error error => exact hnext
  | ok o =>
    dsimp only
    cases ha : o.assigned with
    | none => exact hnext
    | some s => exact hg.step (hstep o s rfl ha)

/-- The registration of a certification that comes before, and the call. -/
theorem Good.call (hg : r.Good) {call : Call} {outside : Outside} (hleaves : call.Leaves r.state) :
    r.Follows (r.call call outside true).2 := by
  have hown : r.Follows (r.perform (call.outcome outside r.fresh r.state) true).2 :=
    hg.perform fun o s h ha => Call.outcome_step hg.inv hleaves h ha
  cases call with
  | install request =>
    unfold Registry.call
    dsimp only
    split
    · exact hg.refl
    · split
      · exact hown
      · rename_i certification _
        have hfirst : r.Follows (r.perform (r.state.registerCertification outside certification) true).2 :=
          hg.perform fun o s h ha => RegistryState.registerCertification_step h ha
        split
        · rename_i heq
          rw [heq] at hfirst
          exact hfirst
        · rename_i heq
          rw [heq] at hfirst
          apply hfirst.trans
          exact hfirst.good.perform fun o s h ha =>
            Call.outcome_step hfirst.good.inv (by trivial) h ha
  | _ => exact hown

theorem Good.restart (hg : r.Good)
    (hcaught : (∃ lease ∈ r.stored.runs, lease.isActive = true) → r.stored.CaughtUp) :
    r.Follows (r.restart true).2 := by
  unfold Registry.restart
  cases hfenced : r.stored.fenceRecoveredRuns with
  | none =>
    show r.Follows ⟨r.stored, r.stored, r.fresh⟩
    rw [show (⟨r.stored, r.stored, r.fresh⟩ : Registry) = ⟨r.state, r.stored, r.fresh⟩ by rw [← hg.saved]]
    exact hg.refl
  | some s =>
    have hactive : ∃ lease ∈ r.stored.runs, lease.isActive = true := by
      unfold RegistryState.fenceRecoveredRuns at hfenced
      dsimp only at hfenced
      split at hfenced
      · exact nomatch hfenced
      · rename_i hne
        obtain ⟨lease, hlease⟩ := List.exists_mem_of_ne_nil _ hne
        exact ⟨lease, List.mem_filter.mp hlease⟩
    have hcaught := hcaught hactive
    rw [← hg.saved] at hcaught hfenced
    exact hg.step (RegistryState.fenceRecoveredRuns_step hg.inv hcaught hfenced)

theorem Good.apply (hg : r.Good) {e : Event} (hsound : e.Sound r) : r.Follows (r.apply e).2 := by
  cases e with
  | call call outside writes =>
    obtain ⟨rfl, hleaves⟩ := hsound
    exact hg.call hleaves
  | restart writes =>
    obtain ⟨rfl, hcaught⟩ := hsound
    exact hg.restart hcaught

theorem Good.run (hg : r.Good) {events : List Event} (hsound : r.Sound events) : r.Follows (r.run events) := by
  induction events generalizing r with
  | nil => exact hg.refl
  | cons e rest ih =>
    obtain ⟨he, hrest⟩ := hsound
    have happly := hg.apply he
    exact happly.trans (ih happly.good hrest)

theorem Sound.append {events more : List Event} (h : r.Sound (events ++ more)) :
    r.Sound events ∧ (r.run events).Sound more := by
  induction events generalizing r with
  | nil => exact ⟨trivial, h⟩
  | cons e rest ih =>
    obtain ⟨he, hrest⟩ := h
    obtain ⟨hbefore, hafter⟩ := ih hrest
    exact ⟨⟨he, hbefore⟩, hafter⟩

end Registry

/-! ### Leases and marks -/

/-- The leases of a state, and the marks of its bindings. -/
structure RegistryState.Ordered (s : RegistryState) : Prop where
  marks : ∀ binding ∈ s.bindings, ∀ runId, runId ∈ binding.activeRunIds ↔
    ∃ lease ∈ s.runs, lease.isActive = true ∧ lease.bindingId = binding.bindingId ∧ lease.runId = runId
  marksOnce : ∀ binding ∈ s.bindings, binding.activeRunIds.Nodup
  once : ∀ lease ∈ s.runs, ∀ other ∈ s.runs, lease.isActive = true → other.isActive = true →
    lease.bindingId = other.bindingId → lease.runId = other.runId → lease = other
  fencing : s.runs.Pairwise fun lease later =>
    lease.bindingId = later.bindingId → lease.leaseFencing < later.leaseFencing

/-- Epochs do not decrease, and leases stay in the file. -/
structure RegistryState.Grows (s s' : RegistryState) : Prop where
  bindings : ∀ binding ∈ s.bindings, ∀ binding' ∈ s'.bindings, binding'.bindingId = binding.bindingId →
    binding.bindingEpoch ≤ binding'.bindingEpoch ∧ binding.permissionEpoch ≤ binding'.permissionEpoch
  installations : ∀ installation ∈ s.installations, ∀ installation' ∈ s'.installations,
    installation'.installationId = installation.installationId →
      installation.bindingEpoch ≤ installation'.bindingEpoch ∧
        installation.permissionEpoch ≤ installation'.permissionEpoch
  leases : ∀ lease ∈ s.runs, ∃ lease' ∈ s'.runs, lease'.leaseId = lease.leaseId

namespace RegistryState
variable {s s' : RegistryState} {n m : Nat} {o : Outcome}

theorem ordered_of_inv (hi : Inv n s.ledger) : s.Ordered where
  marks binding hb runId := by
    apply (hi.marked.marks binding.toSlot (List.mem_map_of_mem hb) runId).trans
    constructor
    · intro h
      obtain ⟨x, hx, hboth⟩ := h
      obtain ⟨lease, hlease, rfl⟩ := List.mem_map.mp hx
      exact ⟨lease, hlease, hboth⟩
    · intro h
      obtain ⟨lease, hlease, hboth⟩ := h
      exact ⟨lease.toLease, List.mem_map_of_mem hlease, hboth⟩
  marksOnce binding hb := hi.marked.marksOnce binding.toSlot (List.mem_map_of_mem hb)
  once lease hlease other hother hactive hactive' hbinding hrun := by
    have heq := hi.marked.once lease.toLease (List.mem_map_of_mem hlease) other.toLease (List.mem_map_of_mem hother)
      hactive hactive' hbinding hrun
    exact lease_eq hi hlease hother (congrArg Lease.id heq)
  fencing := List.pairwise_map.mp hi.marked.fencing

theorem grows_of_later (hi : Inv n s.ledger) (hi' : Inv m s'.ledger) (h : Later n s.ledger s'.ledger) :
    s.Grows s' where
  bindings binding hb binding' hb' hid := by
    have hold : binding'.toSlot.id < n := by
      show binding'.bindingId < n
      rw [hid]
      exact hi.held.slotOld binding.toSlot (List.mem_map_of_mem hb)
    obtain ⟨t, ht, htid, hepoch, hpermission⟩ := h.slots binding'.toSlot (List.mem_map_of_mem hb') hold
    rw [slot_eq hi hb ht (htid.trans hid)] at hepoch hpermission
    exact ⟨hepoch, hpermission⟩
  installations installation hmem installation' hmem' hid := by
    obtain ⟨k, hk, hkid, hepoch, hpermission⟩ := h.holders installation.toHolder (List.mem_map_of_mem hmem)
    rw [holder_eq hi' hmem' hk (hkid.trans hid.symm)] at hepoch hpermission
    exact ⟨hepoch, hpermission⟩
  leases lease hlease := by
    obtain ⟨x, hx, hid, -⟩ := h.leases lease.toLease (List.mem_map_of_mem hlease)
    obtain ⟨lease', hlease', rfl⟩ := List.mem_map.mp hx
    exact ⟨lease', hlease', hid⟩

/-- A record that is there is found. -/
theorem find_of_mem {α κ : Type} [DecidableEq κ] {rows : List α} {item : α} (key : α → κ) (error : Raised)
    (hmem : item ∈ rows) : ∃ row, orRaise (rows.find? fun row => key row = key item) error = .ok row := by
  cases hfind : rows.find? fun row => key row = key item with
  | some row => exact ⟨row, rfl⟩
  | none =>
    have hnone := List.find?_eq_none.mp hfind item hmem
    exact absurd (decide_eq_true rfl) hnone

/-- A lease that is known can be released. -/
theorem releaseRun_ok (hi : Inv n s.ledger) {lease : RunLease} (hlease : lease ∈ s.runs) (how : RunEnd) :
    ∃ o reply, s.releaseRun lease.leaseId how = .ok o ∧ o.reply = .ok reply := by
  obtain ⟨found, hfound⟩ := find_of_mem RunLease.leaseId (.plugin "lease_expired" "plugin Run lease is unknown") hlease
  have hfound : s.run lease.leaseId = .ok found := hfound
  obtain ⟨hmem, -⟩ := run_ok hfound
  unfold releaseRun
  rw [hfound]
  show ∃ o reply, (if !found.isActive then _ else _) = _ ∧ _
  cases hactive : found.isActive with
  | false => exact ⟨_, _, rfl, rfl⟩
  | true =>
    obtain ⟨t, ht, hid⟩ := hi.marked.live found.toLease (List.mem_map_of_mem hmem) hactive
    obtain ⟨binding, hb, rfl⟩ := List.mem_map.mp ht
    obtain ⟨put, hput⟩ := find_of_mem BindingRecord.bindingId
      (.packageUnavailable "plugin binding is not registered") hb
    rw [show binding.bindingId = found.bindingId from hid] at hput
    have hput : s.binding found.bindingId = .ok put := hput
    rw [hput]
    exact ⟨_, _, rfl, rfl⟩

/-! ### What is fenced -/

/-- A lease that is dead passes no check. -/
theorem assertLease_dead {lease : RunLease} {i slot epoch : Nat} (hdead : Dead s.ledger i slot epoch) (hslot : lease.bindingId = slot) (hepoch : lease.bindingEpoch = epoch)
    (hid : lease.leaseId = i) {outside : Outside} {context : RpcContext} {verifyPackage : Bool} :
    s.assertLease outside lease context verifyPackage ≠ .ok o := by
  intro h
  unfold assertLease at h
  obtain ⟨current, hcurrent, h⟩ := Calls.ok_of_bind h
  obtain ⟨_, hlive, h⟩ := Calls.ok_of_bind h
  obtain ⟨binding, hbinding, h⟩ := Calls.ok_of_bind h
  obtain ⟨_, -, h⟩ := Calls.ok_of_bind h
  obtain ⟨_, hsame, -⟩ := Calls.ok_of_bind h
  obtain ⟨hmem, hcid⟩ := run_ok hcurrent
  obtain ⟨hb, hbid⟩ := binding_ok hbinding
  have hlive := require_ok hlive
  have hsame := require_ok hsame
  simp only [Bool.and_eq_true, decide_eq_true_eq] at hlive hsame
  have hlt := hdead current.toLease (List.mem_map_of_mem hmem) (hcid.trans hid) hlive.1 binding.toSlot
    (List.mem_map_of_mem hb) (hbid.trans hslot)
  have heq : binding.bindingEpoch = lease.bindingEpoch := hsame.1.1.1.1.2
  rw [← hepoch, ← heq] at hlt
  exact Nat.lt_irrefl _ hlt

/-- A lease is dead, where the binding that it was taken of got ahead. -/
theorem dead_of_ahead (hi : Inv n s.ledger) (h : Later n s.ledger s'.ledger) {lease : RunLease} (hlease : lease ∈ s.runs)
    (hahead : ∀ binding ∈ s.bindings, binding.bindingId = lease.bindingId → ∀ binding' ∈ s'.bindings,
      binding'.bindingId = lease.bindingId → binding.bindingEpoch < binding'.bindingEpoch) :
    Dead s'.ledger lease.leaseId lease.bindingId lease.bindingEpoch := by
  intro _ _ _ _ t' ht' hid'
  obtain ⟨binding', hb', rfl⟩ := List.mem_map.mp ht'
  have hold : binding'.toSlot.id < n := by
    rw [hid']
    exact (hi.marked.leaseOld lease.toLease (List.mem_map_of_mem hlease)).2
  obtain ⟨t, ht, hid, -⟩ := h.slots binding'.toSlot ht' hold
  obtain ⟨binding, hb, rfl⟩ := List.mem_map.mp ht
  have hbehind := hi.marked.behind binding.toSlot ht lease.toLease (List.mem_map_of_mem hlease) (hid.trans hid').symm
  exact Nat.lt_of_le_of_lt hbehind (hahead binding hb (hid.trans hid') binding' hb' hid')

/-- What is put in a table under an id is all that is there. -/
theorem mem_withBinding {updated binding : BindingRecord} (h : binding ∈ s.withBinding updated)
    (hid : binding.bindingId = updated.bindingId) : binding = updated := by
  cases mem_update.mp h with
  | inl h =>
    obtain ⟨_, -, -, heq⟩ := h
    exact heq
  | inr h =>
    rw [hid] at h
    exact absurd h.2 (by simp)

/-- Only a lease that is in the file passes. -/
theorem assertLease_mem {lease : RunLease} {outside : Outside} {context : RpcContext} {verifyPackage : Bool}
    (h : s.assertLease outside lease context verifyPackage = .ok o) : lease ∈ s.runs := by
  unfold assertLease at h
  obtain ⟨current, hcurrent, h⟩ := Calls.ok_of_bind h
  obtain ⟨_, -, h⟩ := Calls.ok_of_bind h
  obtain ⟨_, -, h⟩ := Calls.ok_of_bind h
  obtain ⟨_, -, h⟩ := Calls.ok_of_bind h
  obtain ⟨_, hsame, -⟩ := Calls.ok_of_bind h
  have hsame := require_ok hsame
  simp only [Bool.and_eq_true, decide_eq_true_eq] at hsame
  have heq : current = lease := hsame.1.1.1.1.1.1.1.1.1.1.1
  rw [← heq]
  exact (run_ok hcurrent).1

theorem withBinding_ahead (hi : Inv n s.ledger) {binding updated : BindingRecord} (hb : binding ∈ s.bindings)
    {other other' : BindingRecord} (ho : other ∈ s.bindings) (ho' : other' ∈ s.withBinding updated)
    (hid : other.bindingId = binding.bindingId) (hid' : other'.bindingId = binding.bindingId)
    (hsame : updated.bindingId = binding.bindingId) (hahead : binding.bindingEpoch < updated.bindingEpoch) :
    other.bindingEpoch < other'.bindingEpoch := by
  rw [mem_withBinding ho' (hid'.trans hsame.symm), binding_eq hi ho hb hid]
  exact hahead

theorem enable_ahead (hi : Inv n s.ledger) {outside : Outside} {bindingId : Nat}
    (h : s.enable outside bindingId = .ok o) : ∃ s', o.assigned = some s' ∧
      ∀ b ∈ s.bindings, b.bindingId = bindingId → ∀ b' ∈ s'.bindings, b'.bindingId = bindingId →
        b.bindingEpoch < b'.bindingEpoch := by
  unfold enable at h
  obtain ⟨binding, hbinding, h⟩ := Calls.ok_of_bind h
  obtain ⟨installation, hinstallation, h⟩ := Calls.ok_of_bind h
  obtain ⟨_, -, h⟩ := Calls.ok_of_bind h
  obtain ⟨_, -, h⟩ := Calls.ok_of_bind h
  obtain ⟨_, -, h⟩ := Calls.ok_of_bind h
  cases h
  obtain ⟨hb, rfl⟩ := binding_ok hbinding
  refine ⟨_, rfl, fun b hbmem hid b' hb' hid' => ?_⟩
  exact withBinding_ahead hi hb hbmem hb' hid hid' rfl (Nat.lt_succ_self _)

theorem beginDisable_ahead (hi : Inv n s.ledger) {bindingId : Nat} {stopRunIds : List String}
    (h : s.beginDisable bindingId stopRunIds = .ok o) : ∃ s', o.assigned = some s' ∧
      ∀ b ∈ s.bindings, b.bindingId = bindingId → ∀ b' ∈ s'.bindings, b'.bindingId = bindingId →
        b.bindingEpoch < b'.bindingEpoch := by
  unfold beginDisable at h
  obtain ⟨binding, hbinding, h⟩ := Calls.ok_of_bind h
  obtain ⟨_, -, h⟩ := Calls.ok_of_bind h
  obtain ⟨installation, hinstallation, h⟩ := Calls.ok_of_bind h
  cases h
  obtain ⟨hb, rfl⟩ := binding_ok hbinding
  refine ⟨_, rfl, fun b hbmem hid b' hb' hid' => ?_⟩
  exact withBinding_ahead hi hb hbmem hb' hid hid' rfl (Nat.lt_succ_self _)

/-- The binding of an installation with a certification. -/
def Certified (s : RegistryState) (certificationId : String) (bindingId : Nat) : Prop :=
  ∃ binding ∈ s.bindings, binding.bindingId = bindingId ∧ ∃ installation ∈ s.installations,
    installation.installationId = binding.installationId ∧ installation.certificationId = some certificationId

theorem revokeCertification_ahead (hi : Inv n s.ledger) {certificationId : String} {bindingId : Nat}
    (hcertified : s.Certified certificationId bindingId) (h : s.revokeCertification certificationId = .ok o) :
    ∃ s', o.assigned = some s' ∧
      ∀ b ∈ s.bindings, b.bindingId = bindingId → ∀ b' ∈ s'.bindings, b'.bindingId = bindingId →
        b.bindingEpoch < b'.bindingEpoch := by
  obtain ⟨binding, hb, hid, installation, hmem, hown, hcertification⟩ := hcertified
  unfold revokeCertification at h
  split at h
  · exact nomatch h
  · obtain ⟨held, hheld, h⟩ := Calls.ok_of_bind h
    cases h
    refine ⟨_, rfl, fun b hbmem hbid b' hb' hid' => ?_⟩
    obtain ⟨item, hitem, hfound⟩ := Calls.mapM_ok_mem hheld hb
    obtain ⟨himem, hiid⟩ := installation_ok hfound
    have hmine := binding_eq hi hbmem hb (hbid.trans hid.symm)
    rw [← installation_eq hi himem hmem (hiid.trans hown.symm)] at hcertification
    have haffected : ((held.filter (·.certificationId = some certificationId)).map (·.installationId)).contains
        binding.installationId = true := by
      rw [List.contains_eq_mem, decide_eq_true_eq]
      exact List.mem_map.mpr ⟨item, List.mem_filter.mpr ⟨hitem, decide_eq_true hcertification⟩, hiid⟩
    cases mem_update.mp hb' with
    | inl hput =>
      obtain ⟨old, hold, -, rfl⟩ := hput
      rw [binding_eq hi hold hbmem (hid'.trans hbid.symm)]
      exact Nat.lt_succ_self _
    | inr hkept =>
      obtain ⟨hold, hnot⟩ := hkept
      rw [binding_eq hi hold hb (hid'.trans hid.symm), haffected] at hnot
      exact nomatch hnot

/-- What recovery leaves has ended. -/
theorem fenceRecoveredRuns_ended (h : s.fenceRecoveredRuns = some s') : ∀ lease ∈ s'.runs, lease.isActive = false := by
  unfold fenceRecoveredRuns at h
  dsimp only at h
  split at h
  · exact nomatch h
  · cases h
    intro lease hlease
    cases mem_update.mp hlease with
    | inl hended =>
      obtain ⟨_, -, -, rfl⟩ := hended
      rfl
    | inr hother =>
      obtain ⟨hmem, hnone⟩ := hother
      cases hactive : lease.isActive with
      | false => rfl
      | true =>
        have hmine : lease ∈ s.runs.filter (·.isActive) := List.mem_filter.mpr ⟨hmem, hactive⟩
        rw [List.any_eq_false] at hnone
        exact absurd (decide_eq_true rfl) (hnone lease hmine)

end RegistryState

/-! ### Histories -/

/-- The events that fence a lease: the leases of a binding, of a certification, or all. -/
def Event.Fences (r : Registry) (lease : RunLease) : Event → Prop
  | .call (.enable bindingId) _ _ => lease.bindingId = bindingId
  | .call (.beginDisable bindingId _) _ _ => lease.bindingId = bindingId
  | .call (.revokeCertification certificationId) _ _ => r.state.Certified certificationId lease.bindingId
  | .call .. => False
  | .restart _ => True

namespace Registry
variable {r : Registry}

/-- `assert_lease` accepts a lease with this id. -/
def Passes (r : Registry) (leaseId : Nat) : Prop :=
  ∃ lease, lease.leaseId = leaseId ∧ ∃ outside context verifyPackage o,
    r.state.assertLease outside lease context verifyPackage = .ok o

/-- `release_run` returns, where the state file can be written. -/
def Releases (r : Registry) (leaseId : Nat) : Prop :=
  ∀ how outside, ∃ reply, (r.call (.releaseRun leaseId how) outside true).1 = .ok reply

theorem perform_ok {outcome : Except Raised Outcome} {reply : Reply} (h : (r.perform outcome true).1 = .ok reply) :
    ∃ o, outcome = .ok o ∧ ∀ s, o.assigned = some s → (r.perform outcome true).2.state = s := by
  unfold Registry.perform at h ⊢
  cases outcome with
  | error error => exact nomatch h
  | ok o =>
    refine ⟨o, rfl, fun s ha => ?_⟩
    dsimp only
    rw [ha]
    rfl

theorem Good.releases (hg : r.Good) {lease : RunLease} (hlease : lease ∈ r.state.runs) : r.Releases lease.leaseId := by
  intro how outside
  obtain ⟨o, reply, ho, hreply⟩ := RegistryState.releaseRun_ok hg.inv hlease how
  refine ⟨reply, ?_⟩
  show (r.perform (r.state.releaseRun lease.leaseId how) true).1 = _
  rw [ho]
  unfold Registry.perform
  dsimp only
  cases o.assigned <;> exact hreply

/-- What an event fences is dead. -/
theorem Good.fences (hg : r.Good) {e : Event} (hsound : e.Sound r) {reply : Reply} (hreply : (r.apply e).1 = .ok reply)
    {lease : RunLease} (hlease : lease ∈ r.state.runs) (hfences : e.Fences r lease) :
    Dead (r.apply e).2.state.ledger lease.leaseId lease.bindingId lease.bindingEpoch := by
  have hlater := (hg.apply hsound).later
  cases e with
  | restart writes =>
    obtain ⟨rfl, -⟩ := hsound
    intro x hx _ hlive
    obtain ⟨ended, hended, rfl⟩ := List.mem_map.mp hx
    have hnone : ended.isActive = false := by
      simp only [Registry.apply, Registry.restart] at hended
      cases hfenced : r.stored.fenceRecoveredRuns with
      | some s =>
        rw [hfenced] at hended
        exact RegistryState.fenceRecoveredRuns_ended hfenced ended hended
      | none =>
        rw [hfenced] at hended
        unfold RegistryState.fenceRecoveredRuns at hfenced
        dsimp only at hfenced
        split at hfenced
        · rename_i hempty
          have hnot := List.filter_eq_nil_iff.mp hempty ended hended
          rwa [Bool.not_eq_true] at hnot
        · cases hfenced
    cases hnone.symm.trans hlive
  | call asked outside writes =>
    obtain ⟨rfl, -⟩ := hsound
    cases asked with
    | enable bindingId =>
      have hbinding : lease.bindingId = bindingId := hfences
      subst hbinding
      obtain ⟨o, ho, hstate⟩ := perform_ok hreply
      obtain ⟨s', ha, hahead⟩ := RegistryState.enable_ahead hg.inv ho
      rw [← hstate s' ha] at hahead
      exact RegistryState.dead_of_ahead hg.inv hlater hlease hahead
    | beginDisable bindingId stopRunIds =>
      have hbinding : lease.bindingId = bindingId := hfences
      subst hbinding
      obtain ⟨o, ho, hstate⟩ := perform_ok hreply
      obtain ⟨s', ha, hahead⟩ := RegistryState.beginDisable_ahead hg.inv ho
      rw [← hstate s' ha] at hahead
      exact RegistryState.dead_of_ahead hg.inv hlater hlease hahead
    | revokeCertification certificationId =>
      obtain ⟨o, ho, hstate⟩ := perform_ok hreply
      obtain ⟨s', ha, hahead⟩ := RegistryState.revokeCertification_ahead hg.inv hfences ho
      rw [← hstate s' ha] at hahead
      exact RegistryState.dead_of_ahead hg.inv hlater hlease hahead
    | _ => exact hfences.elim

/-- What is dead passes no check later. -/
theorem Good.not_passes (hg : r.Good) {more : List Event} (hsound : r.Sound more) {lease : RunLease}
    (hlease : lease ∈ r.state.runs)
    (hdead : Dead r.state.ledger lease.leaseId lease.bindingId lease.bindingEpoch) :
    ¬(r.run more).Passes lease.leaseId := by
  intro h
  obtain ⟨given, hid, outside, context, verifyPackage, o, hpass⟩ := h
  have hrun := hg.run hsound
  have hlast := hrun.later.dead (x := lease.toLease) hg.inv hrun.good.inv.marked.leaseIds (List.mem_map_of_mem hlease) hdead
  obtain ⟨x, hx, hxid, hslot, hepoch, -⟩ := hrun.later.leases lease.toLease (List.mem_map_of_mem hlease)
  obtain ⟨kept, hkept, rfl⟩ := List.mem_map.mp hx
  have hgiven := RegistryState.assertLease_mem hpass
  have heq := RegistryState.lease_eq hrun.good.inv hgiven hkept (hid.trans hxid.symm)
  exact RegistryState.assertLease_dead hlast (by rw [heq]; exact hslot) (by rw [heq]; exact hepoch) hid hpass

end Registry

/-- In a sound history, marks and leases agree, epochs grow, every lease that was taken can be
released, and a lease that was fenced never passes again. -/
theorem leases_hold (events more : List Event) (hsound : ({} : Registry).Sound (events ++ more)) :
    let r := ({} : Registry).run events
    let r' := r.run more
    r'.state = r'.stored ∧ r'.state.Ordered ∧ r.state.Grows r'.state ∧
      (∀ lease ∈ r.state.runs, r'.Releases lease.leaseId) ∧
      ∀ e after, more = e :: after → ∀ reply, (r.apply e).1 = .ok reply →
        ∀ lease ∈ r.state.runs, e.Fences r lease → ¬r'.Passes lease.leaseId := by
  obtain ⟨hbefore, hmore⟩ := Registry.Sound.append hsound
  have hfirst := Registry.good_empty.run hbefore
  have hlast := hfirst.good.run hmore
  have hgrows := RegistryState.grows_of_later hfirst.good.inv hlast.good.inv hlast.later
  refine ⟨hlast.good.saved, RegistryState.ordered_of_inv hlast.good.inv, hgrows, ?_, ?_⟩
  · intro lease hlease
    obtain ⟨lease', hlease', hid⟩ := hgrows.leases lease hlease
    rw [← hid]
    exact hlast.good.releases hlease'
  · intro e after hcons reply hreply lease hlease hfences
    subst hcons
    obtain ⟨he, hafter⟩ := hmore
    have happly := hfirst.good.apply he
    have hdead := hfirst.good.fences he hreply hlease hfences
    -- The lease is still there, under its id.
    obtain ⟨x, hx, hid, hslot, hepoch, -⟩ := happly.later.leases lease.toLease (List.mem_map_of_mem hlease)
    obtain ⟨kept, hkept, rfl⟩ := List.mem_map.mp hx
    rw [show lease.leaseId = kept.leaseId from hid.symm, show lease.bindingId = kept.bindingId from hslot.symm,
      show lease.bindingEpoch = kept.bindingEpoch from hepoch.symm] at hdead
    rw [show lease.leaseId = kept.leaseId from hid.symm]
    exact happly.good.not_passes hafter hkept hdead


/-! ### Histories that are not sound -/

def anyOutside : Outside where
  now := 0
  trustedIssuers := ["issuer"]
  verifyPackage _ := .ok ()
  resourcePath _ _ := .ok false
  ensureManagedResource := .ok ()

def anyInstall (installationId : String) : Call := .install {
  manifest := ⟨"plugin", "1", "1", ["1"], "digest", "none", "none"⟩
  package := ⟨true, .ok "digest", .ok (), false, .ok ()⟩
  datasetId := installationId
  principalId := "user"
  certification := none
  config := ⟨"config", 0, true⟩
  installationId := installationId }

/-- An installation that is bound, enabled, and has a run. -/
def startRun : List Event := [
  .call (anyInstall "a") anyOutside true,
  .call (.bind "a" none none true) anyOutside true,
  .call (.enable 1) anyOutside true,
  .call (.createRun 1 "r" (.workspace "p" "w") 60) anyOutside true]

/-- Its run is fenced when it is disabled. -/
theorem leases_hold_disabled :
    let r := ({} : Registry).run startRun
    let r' := r.run [.call (.beginDisable 1 ["r"]) anyOutside true]
    r'.state = r'.stored ∧ r'.state.Ordered ∧ r.state.Grows r'.state ∧ r'.Releases 3 ∧ ¬r'.Passes 3 := by
  have h := leases_hold startRun [.call (.beginDisable 1 ["r"]) anyOutside true]
    ⟨⟨rfl, trivial⟩, ⟨rfl, trivial⟩, ⟨rfl, trivial⟩, ⟨rfl, trivial⟩, ⟨rfl, trivial⟩, trivial⟩
  obtain ⟨hsaved, hordered, hgrows, hreleases, hfenced⟩ := h
  have hlease : ∃ lease ∈ (({} : Registry).run startRun).state.runs, lease.leaseId = 3 ∧ lease.bindingId = 1 :=
    ⟨_, List.mem_singleton.mpr rfl, rfl, rfl⟩
  obtain ⟨lease, hmem, hid, hbinding⟩ := hlease
  refine ⟨hsaved, hordered, hgrows, ?_, ?_⟩
  · rw [← hid]
    exact hreleases lease hmem
  · rw [← hid]
    exact hfenced _ [] rfl _ rfl lease hmem hbinding

/-- A write that fails leaves the state in memory ahead of the file; an uninstallation takes the
binding of an active lease away, and the lease cannot be released; a restart sets back the epoch of
an installation whose uninstallation has begun. -/
theorem leases_fail :
    (∃ e, (({} : Registry).apply e).1 = .error .os ∧
      (({} : Registry).apply e).2.state ≠ (({} : Registry).apply e).2.stored) ∧
    (∃ events, ∃ lease ∈ (({} : Registry).run events).state.runs,
      ¬(({} : Registry).run events).Releases lease.leaseId) ∧
    ∃ events writes,
      ((({} : Registry).run events).apply (.restart writes)).2.state.installations.map (·.bindingEpoch) = [2, 0] ∧
      (({} : Registry).run events).state.installations.map (·.bindingEpoch) = [1, 1] := by
  refine ⟨?_, ?_, ?_⟩
  · exact ⟨.call (anyInstall "a") anyOutside false, rfl, by decide⟩
  · refine ⟨startRun ++ .call (.beginUninstall "a" .keep ["r"] none) anyOutside true ::
      directories.map (fun directory => .call (.markResourceCleanup 4 ⟨"a", directory.1⟩
        ⟨⟨"a", directory.1⟩, .deleted, .exclusive, []⟩) anyOutside true) ++
      [.call (.completeUninstall 4) anyOutside true], _, List.mem_singleton.mpr rfl, fun h => ?_⟩
    obtain ⟨reply, hreply⟩ := h .completed anyOutside
    exact nomatch hreply
  · refine ⟨startRun ++ [.call (anyInstall "b") anyOutside true, .call (.bind "b" none none true) anyOutside true,
      .call (.beginUninstall "b" .keep [] none) anyOutside true], true, ?_, ?_⟩ <;> decide

end Operant.Plugins
