import Operant.Security.Policy
import Mathlib.Order.Bounds.Basic
import Mathlib.Data.List.Perm.Basic

/-! Policy decisions are monotone and do not depend on the order of the rules.

What a rule says of a capability does not depend on the other capabilities that are requested
(`PolicyRule.concerns_iff`), so a capability resolves to something (`Resolves`) and the decision
is the least of what the requested ones resolve to, unless a hard rule matches (`Decides`). Least
elements are those of a set: there is one, and it goes down as the set grows. -/
namespace Operant.Security

/-- `deny < ask < allow`. -/
def PolicyDecision.rank : PolicyDecision → Nat
  | .deny => 0
  | .ask => 1
  | .allow => 2

theorem PolicyDecision.rank_injective : Function.Injective PolicyDecision.rank := by
  intro a b h
  cases a <;> cases b <;> first | rfl | exact absurd h (by decide)

instance : LinearOrder PolicyDecision := LinearOrder.lift' PolicyDecision.rank PolicyDecision.rank_injective

@[simp] theorem PolicyDecision.deny_le (d : PolicyDecision) : .deny ≤ d := by cases d <;> decide
@[simp] theorem PolicyDecision.le_allow (d : PolicyDecision) : d ≤ .allow := by cases d <;> decide

theorem PolicyDecision.ask_le {d : PolicyDecision} (h : d ≠ .deny) : .ask ≤ d := by
  cases d with
  | deny => exact absurd rfl h
  | ask => exact le_rfl
  | allow => exact PolicyDecision.le_allow _

/-! ### The most restrictive rule -/

theorem mem_of_lowest {rules : List PolicyRule} {rule : PolicyRule} {d : PolicyDecision}
    (h : lowest (rules.filter fun rule => rule.decision = d) = some rule) :
    rule ∈ rules ∧ rule.decision = d := by
  have hmem := List.mem_filter.mp (List.argmin_mem h)
  exact ⟨hmem.1, of_decide_eq_true hmem.2⟩

theorem none_of_lowest {rules : List PolicyRule} {d : PolicyDecision}
    (h : lowest (rules.filter fun rule => rule.decision = d) = none) {rule : PolicyRule} (hrule : rule ∈ rules) :
    rule.decision ≠ d := by
  intro hd
  have hnil := List.argmin_eq_none.mp h
  exact List.not_mem_nil (hnil ▸ List.mem_filter.mpr ⟨hrule, decide_eq_true hd⟩)

/-- What `decisive` takes is one of the rules, and none is more restrictive. -/
theorem decisive_spec {rules : List PolicyRule} (hsome : rules ≠ []) :
    ∃ rule, decisive rules = some rule ∧ rule ∈ rules ∧ ∀ other ∈ rules, rule.decision ≤ other.decision := by
  unfold decisive
  cases hdeny : lowest (rules.filter fun rule => rule.decision = .deny) with
  | some rule =>
    obtain ⟨hmem, hd⟩ := mem_of_lowest hdeny
    exact ⟨rule, rfl, hmem, fun other _ => hd ▸ PolicyDecision.deny_le _⟩
  | none =>
    cases hask : lowest (rules.filter fun rule => rule.decision = .ask) with
    | some rule =>
      obtain ⟨hmem, hd⟩ := mem_of_lowest hask
      exact ⟨rule, rfl, hmem, fun other hother => hd ▸ PolicyDecision.ask_le (none_of_lowest hdeny hother)⟩
    | none =>
      have hallow (other : PolicyRule) (hother : other ∈ rules) : other.decision = .allow := by
        cases hd : other.decision with
        | deny => exact absurd hd (none_of_lowest hdeny hother)
        | ask => exact absurd hd (none_of_lowest hask hother)
        | allow => rfl
      cases hlast : lowest (rules.filter fun rule => rule.decision = .allow) with
      | some rule =>
        obtain ⟨hmem, -⟩ := mem_of_lowest hlast
        exact ⟨rule, rfl, hmem, fun other hother => hallow other hother ▸ PolicyDecision.le_allow _⟩
      | none =>
        obtain ⟨rule, hrule⟩ := List.exists_mem_of_ne_nil _ hsome
        exact absurd (hallow rule hrule) (none_of_lowest hlast hrule)

/-! ### What a capability resolves to -/

/-- The rule is about this capability, in a call like this one. Which other capabilities are
requested does not count. -/
structure PolicyRule.Concerns (rule : PolicyRule) (action : ActionRequest) (capability : Capability) : Prop where
  capability : rule.capabilities = [] ∨ capability ∈ rule.capabilities
  tool : (rule.tools = [] ∨ action.tool ∈ rule.tools) ∨
    ∃ name, executable action.normalizedArguments = some name ∧ name ∈ rule.tools
  operation : rule.operations = [] ∨ action.operation ∈ rule.operations
  target : rule.targetTypes = [] ∨ action.normalizedTarget.targetType ∈ rule.targetTypes

theorem PolicyRule.concerns_iff {rule : PolicyRule} {action : ActionRequest} {capability : Capability}
    (hrequested : capability ∈ action.requestedCapabilities) :
    rule.Concerns action capability ↔
      rule.matches action = true ∧ (rule.capabilities.isEmpty || capability ∈ rule.capabilities) = true := by
  simp only [PolicyRule.matches, Bool.and_eq_true, Bool.or_eq_true, List.isEmpty_iff, List.any_eq_true,
    decide_eq_true_eq, Option.any_eq_true]
  constructor
  · intro h
    exact ⟨⟨⟨⟨h.capability.imp_right fun hmem => ⟨capability, hmem, hrequested⟩, h.tool⟩, h.operation⟩, h.target⟩,
      h.capability⟩
  · rintro ⟨⟨⟨⟨-, htool⟩, hoperation⟩, htarget⟩, hcapability⟩
    exact ⟨hcapability, htool, hoperation, htarget⟩

/-- A rule matches if it is about one of the capabilities requested. -/
theorem PolicyRule.matches_iff {rule : PolicyRule} {action : ActionRequest}
    (hsome : action.requestedCapabilities ≠ []) :
    rule.matches action = true ↔ ∃ capability ∈ action.requestedCapabilities, rule.Concerns action capability := by
  constructor
  · intro h
    by_cases hall : rule.capabilities = []
    · obtain ⟨capability, hrequested⟩ := List.exists_mem_of_ne_nil _ hsome
      exact ⟨capability, hrequested, (concerns_iff hrequested).mpr ⟨h, by simp [hall]⟩⟩
    · have hcommon : ∃ capability ∈ rule.capabilities, capability ∈ action.requestedCapabilities := by
        simpa [PolicyRule.matches, hall] using (Bool.and_eq_true_iff.mp (Bool.and_eq_true_iff.mp
          (Bool.and_eq_true_iff.mp h).1).1).1
      obtain ⟨capability, hmem, hrequested⟩ := hcommon
      exact ⟨capability, hrequested, (concerns_iff hrequested).mpr ⟨h, by simp [hmem]⟩⟩
  · rintro ⟨capability, hrequested, h⟩
    exact ((concerns_iff hrequested).mp h).1

namespace PolicyBundle
variable {bundle : PolicyBundle} {action : ActionRequest} {capability : Capability} {d e : PolicyDecision}

/-- What the rules about one capability decide. -/
def decisionsOn (bundle : PolicyBundle) (action : ActionRequest) (capability : Capability) : Set PolicyDecision :=
  {d | ∃ rule ∈ bundle.rules, rule.Concerns action capability ∧ rule.decision = d}

/-- A capability that no rule is about resolves to the default, any other to the most restrictive
of its rules. -/
inductive Resolves (bundle : PolicyBundle) (action : ActionRequest) (capability : Capability) :
    PolicyDecision → Prop
  | unmatched : bundle.decisionsOn action capability = ∅ → Resolves bundle action capability bundle.defaultDecision
  | matched {d : PolicyDecision} :
    IsLeast (bundle.decisionsOn action capability) d → Resolves bundle action capability d

theorem Resolves.unique (hd : bundle.Resolves action capability d) (he : bundle.Resolves action capability e) :
    d = e := by
  cases hd with
  | unmatched hnone =>
    cases he with
    | unmatched => rfl
    | matched hleast => exact absurd (hnone ▸ hleast.1) (Set.notMem_empty _)
  | matched hleast =>
    cases he with
    | unmatched hnone => exact absurd (hnone ▸ hleast.1) (Set.notMem_empty _)
    | matched hleast' => exact hleast.unique hleast'

theorem resolves_decisionFor (hrequested : capability ∈ action.requestedCapabilities) :
    bundle.Resolves action capability (bundle.decisionFor action capability).decision := by
  have hcandidate (rule : PolicyRule) :
      rule ∈ ((bundle.matched action).filter fun rule =>
        rule.capabilities.isEmpty || capability ∈ rule.capabilities) ↔
      rule ∈ bundle.rules ∧ rule.Concerns action capability := by
    rw [PolicyRule.concerns_iff hrequested, List.mem_filter, matched, List.mem_filter, and_assoc]
  unfold decisionFor
  generalize ((bundle.matched action).filter fun rule =>
    rule.capabilities.isEmpty || capability ∈ rule.capabilities) = candidates at hcandidate
  by_cases hnone : candidates = []
  · subst hnone
    refine .unmatched (Set.eq_empty_of_forall_notMem ?_)
    rintro d ⟨rule, hrule, hconcerns, -⟩
    exact List.not_mem_nil ((hcandidate rule).mpr ⟨hrule, hconcerns⟩)
  · obtain ⟨rule, hdecisive, hmem, hleast⟩ := decisive_spec hnone
    rw [hdecisive]
    refine .matched ⟨⟨rule, ((hcandidate rule).mp hmem).1, ((hcandidate rule).mp hmem).2, rfl⟩, ?_⟩
    rintro d ⟨other, hother, hconcerns, rfl⟩
    exact hleast other ((hcandidate other).mpr ⟨hother, hconcerns⟩)

/-! ### The decision -/

/-- A hard rule matches. -/
def Hard (bundle : PolicyBundle) (action : ActionRequest) : Prop :=
  ∃ rule ∈ bundle.rules, rule.hard = true ∧ rule.matches action = true

/-- What is decided: a denial if a hard rule matches, and else the least of what the capabilities
resolve to. -/
inductive Decides (bundle : PolicyBundle) (action : ActionRequest) : PolicyDecision → Prop
  | hard : bundle.Hard action → Decides bundle action .deny
  | resolved {d : PolicyDecision} : ¬bundle.Hard action →
    IsLeast {d | ∃ capability ∈ action.requestedCapabilities, bundle.Resolves action capability d} d →
    Decides bundle action d

theorem evaluate_decides (hsome : action.requestedCapabilities ≠ []) :
    bundle.Decides action (bundle.evaluate action).decision := by
  by_cases hhard : bundle.Hard action
  · obtain ⟨rule, hrule, hishard, hmatches⟩ := hhard
    rw [evaluate_hardDeny _ _ (evaluate_of_hard _ _ hrule hishard hmatches)]
    exact .hard ⟨rule, hrule, hishard, hmatches⟩
  · have hnone : (bundle.matched action).find? PolicyRule.hard = none := by
      refine List.find?_eq_none.mpr fun rule hrule hishard => hhard ?_
      obtain ⟨hrule, hmatches⟩ := List.mem_filter.mp hrule
      exact ⟨rule, hrule, hishard, hmatches⟩
    have hdecided : action.requestedCapabilities.map (bundle.decisionFor action) ≠ [] := by simpa using hsome
    obtain ⟨rule, hdecisive, hmem, hleast⟩ := decisive_spec hdecided
    simp only [evaluate, hnone, hdecisive, Option.getD_some, result]
    refine .resolved hhard ⟨?_, ?_⟩
    · obtain ⟨capability, hrequested, rfl⟩ := List.mem_map.mp hmem
      exact ⟨capability, hrequested, resolves_decisionFor hrequested⟩
    · rintro d ⟨capability, hrequested, hresolves⟩
      rw [hresolves.unique (resolves_decisionFor hrequested)]
      exact hleast _ (List.mem_map_of_mem hrequested)

theorem Decides.deny_of_hard (h : bundle.Decides action d) (hhard : bundle.Hard action) : d = .deny := by
  cases h with
  | hard => rfl
  | resolved hnot => exact absurd hhard hnot

theorem Decides.resolved_of_not_hard (h : bundle.Decides action d) (hhard : ¬bundle.Hard action) :
    IsLeast {d | ∃ capability ∈ action.requestedCapabilities, bundle.Resolves action capability d} d := by
  cases h with
  | hard h => exact absurd h hhard
  | resolved _ hleast => exact hleast

theorem Decides.unique (hd : bundle.Decides action d) (he : bundle.Decides action e) : d = e := by
  by_cases hhard : bundle.Hard action
  · rw [hd.deny_of_hard hhard, he.deny_of_hard hhard]
  · exact (hd.resolved_of_not_hard hhard).unique (he.resolved_of_not_hard hhard)

theorem evaluate_eq (hsome : action.requestedCapabilities ≠ []) (h : bundle.Decides action d) :
    (bundle.evaluate action).decision = d := (evaluate_decides hsome).unique h

end PolicyBundle

/-! ### Other requests and other rules -/

/-- The same call with other capabilities, and the hash it has then. -/
def ActionRequest.requesting (action : ActionRequest) (capabilities : List Capability) (hash : ActionHash) :
    ActionRequest :=
  { action with requestedCapabilities := capabilities, actionHash := hash }

/-- Other rules in place of the bundle's. -/
def PolicyBundle.withRules (bundle : PolicyBundle) (rules : List PolicyRule) : PolicyBundle :=
  { bundle with rules := rules }

namespace PolicyBundle
variable {bundle : PolicyBundle} {action : ActionRequest} {capability : Capability} {d e : PolicyDecision}
  {capabilities : List Capability} {hash : ActionHash} {rules : List PolicyRule} {rule : PolicyRule}

theorem Resolves.congr {other : PolicyBundle} {request : ActionRequest} (h : bundle.Resolves action capability d)
    (hdefault : other.defaultDecision = bundle.defaultDecision)
    (hdecisions : other.decisionsOn request capability = bundle.decisionsOn action capability) :
    other.Resolves request capability d := by
  cases h with
  | unmatched hnone =>
    rw [← hdefault]
    exact .unmatched (hdecisions.trans hnone)
  | matched hleast =>
    refine .matched ?_
    rw [hdecisions]
    exact hleast

theorem concerns_requesting :
    rule.Concerns (action.requesting capabilities hash) capability ↔ rule.Concerns action capability :=
  ⟨fun h => ⟨h.capability, h.tool, h.operation, h.target⟩, fun h => ⟨h.capability, h.tool, h.operation, h.target⟩⟩

theorem decisionsOn_requesting :
    bundle.decisionsOn (action.requesting capabilities hash) capability = bundle.decisionsOn action capability := by
  simp only [decisionsOn, concerns_requesting]

theorem Hard.requesting (hsome : action.requestedCapabilities ≠ []) (hmore : action.requestedCapabilities ⊆ capabilities)
    (h : bundle.Hard action) : bundle.Hard (action.requesting capabilities hash) := by
  obtain ⟨rule, hrule, hhard, hmatches⟩ := h
  obtain ⟨capability, hrequested, hconcerns⟩ := (PolicyRule.matches_iff hsome).mp hmatches
  have hwider : capability ∈ (action.requesting capabilities hash).requestedCapabilities := hmore hrequested
  exact ⟨rule, hrule, hhard,
    ((PolicyRule.concerns_iff hwider).mp (concerns_requesting.mpr hconcerns)).1⟩

/-- Whoever requests more is not granted more. -/
theorem decision_requesting (hsome : action.requestedCapabilities ≠ [])
    (hmore : action.requestedCapabilities ⊆ capabilities) :
    (bundle.evaluate (action.requesting capabilities hash)).decision ≤ (bundle.evaluate action).decision := by
  have hwider : (action.requesting capabilities hash).requestedCapabilities ≠ [] := by
    obtain ⟨capability, hrequested⟩ := List.exists_mem_of_ne_nil _ hsome
    exact List.ne_nil_of_mem (hmore hrequested)
  have hdecides := bundle.evaluate_decides hsome
  have hdecides' := bundle.evaluate_decides hwider
  by_cases hhard' : bundle.Hard (action.requesting capabilities hash)
  · rw [hdecides'.deny_of_hard hhard']
    exact PolicyDecision.deny_le _
  · have hhard : ¬bundle.Hard action := fun h => hhard' (h.requesting hsome hmore)
    refine (hdecides.resolved_of_not_hard hhard).mono (hdecides'.resolved_of_not_hard hhard') ?_
    rintro d ⟨capability, hrequested, hresolves⟩
    exact ⟨capability, hmore hrequested, hresolves.congr rfl decisionsOn_requesting⟩

theorem Hard.withRules (hrules : ∀ rule ∈ bundle.rules, rule ∈ rules) (h : bundle.Hard action) :
    (bundle.withRules rules).Hard action := by
  obtain ⟨rule, hrule, hhard⟩ := h
  exact ⟨rule, hrules rule hrule, hhard⟩

/-- The order of the rules does not count. -/
theorem decision_perm (hsome : action.requestedCapabilities ≠ []) (hperm : rules.Perm bundle.rules) :
    ((bundle.withRules rules).evaluate action).decision = (bundle.evaluate action).decision := by
  have hdecisions (capability : Capability) :
      (bundle.withRules rules).decisionsOn action capability = bundle.decisionsOn action capability := by
    simp only [decisionsOn, withRules, hperm.mem_iff]
  have hhard : (bundle.withRules rules).Hard action ↔ bundle.Hard action := by
    simp only [Hard, withRules, hperm.mem_iff]
  refine evaluate_eq hsome ?_
  by_cases h : bundle.Hard action
  · rw [(bundle.evaluate_decides hsome).deny_of_hard h]
    exact .hard (hhard.mpr h)
  · refine .resolved (mt hhard.mp h) ?_
    have hleast := (bundle.evaluate_decides hsome).resolved_of_not_hard h
    convert hleast using 5 with d capability
    exact and_congr_right fun _ => ⟨fun h => h.congr rfl (hdecisions capability).symm,
      fun h => h.congr rfl (hdecisions capability)⟩

/-- What one more denial resolves a capability to. -/
theorem Resolves.denied (hrules : ∀ r, r ∈ rules ↔ r = rule ∨ r ∈ bundle.rules) (hdeny : rule.decision = .deny)
    (h : bundle.Resolves action capability d) : ∃ e ≤ d, (bundle.withRules rules).Resolves action capability e := by
  by_cases hconcerns : rule.Concerns action capability
  · refine ⟨.deny, PolicyDecision.deny_le d, .matched ⟨⟨rule, (hrules rule).mpr (.inl rfl), hconcerns, hdeny⟩, ?_⟩⟩
    exact fun e _ => PolicyDecision.deny_le e
  · refine ⟨d, le_rfl, h.congr rfl (Set.ext fun e => ⟨?_, ?_⟩)⟩
    · rintro ⟨r, hr, hr', rfl⟩
      rcases (hrules r).mp hr with rfl | hr
      · exact absurd hr' hconcerns
      · exact ⟨r, hr, hr', rfl⟩
    · rintro ⟨r, hr, hr', rfl⟩
      exact ⟨r, (hrules r).mpr (.inr hr), hr', rfl⟩

/-- One more denial raises nothing. -/
theorem decision_denied (hsome : action.requestedCapabilities ≠ []) (hdeny : rule.decision = .deny)
    (hperm : rules.Perm (rule :: bundle.rules)) :
    ((bundle.withRules rules).evaluate action).decision ≤ (bundle.evaluate action).decision := by
  have hrules (r : PolicyRule) : r ∈ rules ↔ r = rule ∨ r ∈ bundle.rules := by rw [hperm.mem_iff, List.mem_cons]
  have hdecides := bundle.evaluate_decides hsome
  have hdecides' := (bundle.withRules rules).evaluate_decides hsome
  by_cases hhard' : (bundle.withRules rules).Hard action
  · rw [hdecides'.deny_of_hard hhard']
    exact PolicyDecision.deny_le _
  · have hhard : ¬bundle.Hard action := fun h => hhard' (h.withRules fun r hr => (hrules r).mpr (.inr hr))
    obtain ⟨⟨capability, hrequested, hresolves⟩, -⟩ := hdecides.resolved_of_not_hard hhard
    obtain ⟨e, hle, hresolves'⟩ := hresolves.denied hrules hdeny
    exact ((hdecides'.resolved_of_not_hard hhard').2 ⟨capability, hrequested, hresolves'⟩).trans hle

theorem decision_hard (hhard : bundle.Hard action) : (bundle.evaluate action).decision = .deny := by
  obtain ⟨rule, hrule, hishard, hmatches⟩ := hhard
  exact evaluate_hardDeny _ _ (evaluate_of_hard _ _ hrule hishard hmatches)

theorem decision_allow_iff (hsome : action.requestedCapabilities ≠ []) :
    (bundle.evaluate action).decision = .allow ↔ ¬bundle.Hard action ∧
      ∀ capability ∈ action.requestedCapabilities, bundle.Resolves action capability .allow := by
  have hdecides := bundle.evaluate_decides hsome
  constructor
  · intro hallow
    rw [hallow] at hdecides
    have hhard : ¬bundle.Hard action := fun h => nomatch hdecides.deny_of_hard h
    refine ⟨hhard, fun capability hrequested => ?_⟩
    have hresolves : bundle.Resolves action capability _ := resolves_decisionFor hrequested
    have hle := (hdecides.resolved_of_not_hard hhard).2 ⟨capability, hrequested, hresolves⟩
    rwa [le_antisymm (PolicyDecision.le_allow _) hle] at hresolves
  · rintro ⟨hhard, hall⟩
    obtain ⟨⟨capability, hrequested, hresolves⟩, -⟩ := hdecides.resolved_of_not_hard hhard
    exact hresolves.unique (hall capability hrequested)

/-- The policy at an action, compared with other requests and other rules. -/
structure MonotoneAt (bundle : PolicyBundle) (action : ActionRequest) : Prop where
  /-- One more capability never raises the decision. -/
  capability : ∀ capability capabilities hash, capabilities.Perm (capability :: action.requestedCapabilities) →
    (bundle.evaluate (action.requesting capabilities hash)).decision ≤ (bundle.evaluate action).decision
  /-- The order of the rules does not count. -/
  order : ∀ rules : List PolicyRule, rules.Perm bundle.rules →
    ((bundle.withRules rules).evaluate action).decision = (bundle.evaluate action).decision
  /-- One more denial never raises it. -/
  denial : ∀ (rule : PolicyRule) (rules : List PolicyRule), rule.decision = .deny → rules.Perm (rule :: bundle.rules) →
    ((bundle.withRules rules).evaluate action).decision ≤ (bundle.evaluate action).decision
  hard : bundle.Hard action → (bundle.evaluate action).decision = .deny
  allowed : (bundle.evaluate action).decision = .allow ↔ ¬bundle.Hard action ∧
    ∀ capability ∈ action.requestedCapabilities, bundle.Resolves action capability .allow

/-- Decisions are monotone and do not depend on the order of the rules. -/
theorem evaluate_monotone (bundle : PolicyBundle) (action : ActionRequest)
    (hsome : action.requestedCapabilities ≠ []) : bundle.MonotoneAt action where
  capability _ _ _ hperm := decision_requesting hsome fun _ h => hperm.mem_iff.mpr (List.mem_cons_of_mem _ h)
  order _ hperm := decision_perm hsome hperm
  denial _ _ hdeny hperm := decision_denied hsome hdeny hperm
  hard := decision_hard
  allowed := decision_allow_iff hsome

end PolicyBundle

/-- A read of a workspace, under the balanced policy. -/
def workspaceRead : ActionRequest where
  principal := "local-user"
  tool := "read_file"
  operation := "read"
  normalizedTarget := { targetType := "workspace", targetId := "w1" }
  normalizedArguments := []
  workspaceId := some "w1"
  requestedCapabilities := [.workspaceRead]
  sandboxProfile := "isolated"
  networkProfile := "none"
  secretRefs := []
  dryRun := false
  idempotencyKey := "k1"
  actionHash :=
    { principal := "local-user"
      tool := "read_file"
      operation := "read"
      target := { targetType := "workspace", targetId := "w1" }
      arguments := .dict []
      workspaceId := some "w1"
      requestedCapabilities := [.workspaceRead]
      sandboxProfile := "isolated"
      networkProfile := "none"
      secretRefs := []
      dryRun := false
      idempotencyKey := "k1"
      policyVersion := "1"
      idempotencyLevel := .readOnly }
  policyVersion := "1"
  idempotencyLevel := .readOnly

/-- The balanced policy allows a read of the workspace. -/
theorem evaluate_monotone_read :
    ((balancedPolicyBundle "1").evaluate workspaceRead).decision = .allow ∧
      (balancedPolicyBundle "1").MonotoneAt workspaceRead :=
  ⟨by decide, PolicyBundle.evaluate_monotone _ _ (by decide)⟩

end Operant.Security
