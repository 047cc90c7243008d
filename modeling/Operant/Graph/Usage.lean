import Operant.Graph.UnknownWrites
import Operant.Graph.Saves

/-! Recorded usage.

`record_budget` adds to the consumption it has read. Within the budget it saves over the
run it has read, and the revision guards the sum; over the budget it stops the nodes
first, and saves over a run it reads again, with the sum it had. What was recorded in
between is lost. -/
namespace Operant.Graph
open Operant.Calls

/-- What a call adds to the accounts of the run. -/
def RepoCall.accounted? : RepoCall → Option Consumption
  | .updateRun (.accounted seen) _ run _ => some (run.consumption - seen)
  | _ => none

def World.accounted (w : World) : List Consumption :=
  w.history.filterMap fun
    | .call _ c => c.accounted?
    | .returned _ => none

theorem World.accounted_committed (w : World) (c : RepoCall) (s : GraphStore) :
    (w.committed c s).accounted.sum = c.accounted?.getD 0 + w.accounted.sum := by
  cases hc : c.accounted? <;> simp [World.accounted, hc]

/-- What a `record_budget` call is asked to record. -/
def BudgetUsage.amount (usage : BudgetUsage) : Consumption :=
  match usage.check with
  | .ok checked => (checked.outputTokens, checked.costUsd, checked.toolCalls)
  | .error _ => 0

def Op.amount : Op → Consumption
  | .recordBudget usage _ => usage.amount
  | _ => 0

/-- The operations that have made their last call. -/
def Callers.returned (p : Callers) : List Op :=
  p.threads.filterMap (fun thread => match thread.2 with
    | .ret _ => some thread.1.2
    | _ => none) ++ p.world.returnedOps

/-- A sum is saved while the consumption it was added to still stands. -/
def UsageUndisturbed : RepoCall → GraphStore → Prop
  | .updateRun (.accounted seen) _ _ _, s => s.run.consumption = seen
  | _, _ => True

/-- A run that is not active is made active within its budget. -/
def ResumesWithinBudget : RepoCall → GraphStore → Prop
  | .updateRun .startRun _ run _, s | .updateRun .refreshRunActivityStatus _ run _, s =>
    run.status.isActive = true → s.run.status.isActive = false → s.run.overBudget = false
  | _, _ => True

instance (c : RepoCall) (s : GraphStore) : Decidable (UsageUndisturbed c s) := by
  unfold UsageUndisturbed
  split <;> infer_instance

instance (c : RepoCall) (s : GraphStore) : Decidable (ResumesWithinBudget c s) := by
  unfold ResumesWithinBudget
  split <;> infer_instance

/-! ### The accounts -/

namespace Recorded
variable {start : GraphStore} {w : World}

/-- The run's consumption is the sum of what its saves have added. -/
theorem consumption_eq (h : Recorded start Reason Done w) (hzero : start.run.consumption = 0)
    (hm : ∀ s c, .call s c ∈ w.history → UsageUndisturbed c s) :
    w.store.run.consumption = w.accounted.sum := by
  induction h with
  | start => exact hzero
  | returned hw done ih => exact ih fun s c hc => hm s c (List.mem_cons_of_mem _ hc)
  | @call w c s' hw effect reason ih =>
    have hbefore := ih fun s c hc => hm s c (List.mem_cons_of_mem _ hc)
    have hnow := hm _ _ (List.mem_cons_self ..)
    have quiet (hrun : s'.run.consumption = w.store.run.consumption) (hc : c.accounted? = none) :
        s'.run.consumption = (w.committed c s').accounted.sum := by
      rw [hrun, World.accounted_committed, hc, hbefore]
      exact (zero_add _).symm
    cases effect with
    | @updateRun site scan run hrev =>
      cases reason with
      | read hr => cases hr
      | updateRun why usage budget =>
        cases usage with
        | kept site_ne consumption resumed =>
          refine quiet consumption ?_
          cases site with
          | accounted seen => exact absurd rfl (site_ne seen)
          | _ => rfl
        | @accounted seen within =>
          have hseen : w.store.run.consumption = seen := hnow
          show run.consumption = ((run.consumption - seen) :: w.accounted).sum
          rw [List.sum_cons, ← hbefore, hseen, sub_add_cancel]
    | read hr =>
      refine quiet rfl ?_
      cases c <;> first | rfl | cases hr
    | updateNodeRun | startNodeAttempt | finishNodeAttempt | updateAttempt => exact quiet rfl rfl

/-- An active run is within its budget. -/
theorem within_budget (h : Recorded start Reason Done w) (hidle : start.run.status.isActive = false)
    (hm : ∀ s c, .call s c ∈ w.history → ResumesWithinBudget c s)
    (hactive : w.store.run.status.isActive = true) : w.store.run.overBudget = false := by
  induction h with
  | start =>
    rw [hidle] at hactive
    cases hactive
  | returned hw done ih => exact ih (fun s c hc => hm s c (List.mem_cons_of_mem _ hc)) hactive
  | @call w c s' hw effect reason ih =>
    have hbefore := ih fun s c hc => hm s c (List.mem_cons_of_mem _ hc)
    have hnow := hm _ _ (List.mem_cons_self ..)
    cases effect with
    | @updateRun site scan run hrev =>
      cases reason with
      | read hr => cases hr
      | updateRun why usage budget =>
        change run.status.isActive = true at hactive
        show run.overBudget = false
        cases usage with
        | accounted within => exact within hactive
        | kept site_ne consumption resumed =>
          have hsame : run.overBudget = w.store.run.overBudget := by
            simp only [GraphWorkflowRun.consumption, Prod.mk.injEq] at consumption
            rw [GraphWorkflowRun.overBudget, GraphWorkflowRun.overBudget, budget, consumption.1,
              consumption.2.1, consumption.2.2]
          rw [hsame]
          cases hwas : w.store.run.status.isActive with
          | true => exact hbefore hwas
          | false =>
            rcases resumed hactive with h | rfl | rfl
            · rw [hwas] at h
              cases h
            · exact hnow hactive hwas
            · exact hnow hactive hwas
    | read | updateNodeRun | startNodeAttempt | finishNodeAttempt | updateAttempt => exact hbefore hactive

end Recorded

/-! ### What an operation owes -/

/-- The program adds this amount to the accounts with its last call, or fails before. -/
def Pays {α : Type} (amount : Consumption) : GraphProg α → Prop
  | .ret _ => False
  | .fail _ => True
  | .call c k => match c.accounted? with
    | some paid => paid = amount ∧ ∀ r, ∃ a, k r = .ret a
    | none => ∀ r, Pays amount (k r)

/-- The program does not touch the accounts. -/
def Unpaid {α : Type} (p : GraphProg α) : Prop := p.All fun c => c.accounted? = none

namespace Pays
variable {α β : Type} {amount : Consumption}

theorem bind {p : GraphProg α} {f : α → GraphProg β} (hp : Unpaid p) (hf : ∀ a, Pays amount (f a)) :
    Pays amount (p >>= f) := by
  induction p with
  | ret a => exact hf a
  | fail e => trivial
  | call c k ih =>
    show Pays amount (.call c fun r => k r >>= f)
    rw [Pays, hp.1]
    exact fun r => ih r (hp.2 r)

theorem map {p : GraphProg α} {f : α → β} (hp : Pays amount p) :
    Pays amount (p >>= fun a => .ret (f a)) := by
  induction p with
  | ret a => exact hp
  | fail e => trivial
  | call c k ih =>
    show Pays amount (.call c fun r => k r >>= fun a => .ret (f a))
    rw [Pays] at hp ⊢
    cases hc : c.accounted? with
    | none =>
      rw [hc] at hp
      exact fun r => ih r (hp r)
    | some paid =>
      rw [hc] at hp
      refine ⟨hp.1, fun r => ?_⟩
      obtain ⟨a, ha⟩ := hp.2 r
      exact ⟨f a, by rw [ha]; rfl⟩

theorem fail {e : GraphError} : Pays amount (.fail e : GraphProg α) := trivial

theorem ite {c : Prop} [Decidable c] {p q : GraphProg α} (hp : Pays amount p) (hq : Pays amount q) :
    Pays amount (if c then p else q) := by
  split
  · exact hp
  · exact hq

theorem saveRun {seen : Consumption} {scan : List NodeRun} {run updates : GraphWorkflowRun}
    (h : updates.consumption - seen = amount) : Pays amount (saveRun (.accounted seen) scan run updates) :=
  ⟨h, fun _ => ⟨_, rfl⟩⟩

end Pays

theorem SavesFrom.unpaid {α : Type} {sites : List Site} {p : GraphProg α} (h : SavesFrom sites p)
    (hsites : .recordBudget ∉ sites) : Unpaid p := by
  refine Prog.All.mono (fun c hc => ?_) h
  cases hpaid : c.accounted? with
  | none => rfl
  | some paid =>
    unfold RepoCall.accounted? at hpaid
    split at hpaid
    · exact absurd (hc _ rfl) hsites
    · cases hpaid

theorem terminalizeActiveNodes_unpaid (safeStatus : NodeRunStatus) :
    Unpaid (terminalizeActiveNodes safeStatus) :=
  SavesFrom.unpaid (.seq (.request rfl) fun rows => terminalizeNodes_saves safeStatus rows) (by simp)

theorem recordBudget_pays (usage : BudgetUsage) (observedAfterStop : Bool) :
    Pays usage.amount (recordBudget usage observedAfterStop) := by
  unfold recordBudget BudgetUsage.amount
  cases usage.check with
  | error e => exact .fail
  | ok checked =>
    have sum (run : GraphWorkflowRun) {n : ℤ} {q : ℚ} {m : ℤ} :
        ((run.consumedOutputTokens + n, run.consumedCostUsd + q, run.consumedToolCalls + m) -
          run.consumption : Consumption) = (n, q, m) := by
      simp [GraphWorkflowRun.consumption]
    refine Pays.bind (p := getRun .recordBudget) ⟨rfl, fun _ => trivial⟩ fun run => ?_
    refine .ite .fail (.ite .fail (.ite ?_ ?_))
    · refine .bind (terminalizeActiveNodes_unpaid .cancelled) fun stopped => ?_
      exact .bind (p := getRun .saveRun) ⟨rfl, fun _ => trivial⟩ fun _ => .saveRun (sum run)
    · exact .saveRun (sum run)

/-! ### Pools -/

/-- What is left of an operation: `record_budget` owes the accounts its amount, or has
paid it with its last call; the others do not touch them. -/
def Op.Honest : Op → GraphProg Unit → Prop
  | .recordBudget usage _, prog => (∃ a, prog = .ret a) ∨ Pays usage.amount prog
  | _, prog => Unpaid prog

/-- The amount of an operation that has made its last call. -/
def Op.due (op : Op) : GraphProg Unit → Consumption
  | .ret _ => op.amount
  | _ => 0

namespace Op

theorem code_honest (rounds : Nat) (op : Op) : op.Honest (op.code rounds) := by
  cases op with
  | recordBudget usage observedAfterStop => exact .inr (recordBudget_pays usage observedAfterStop).map
  | startRun | startAttempt | completeAttempt | markSideEffectStarted | selectCondition
  | enterBoundary | resolveBoundary | timeoutBoundary | advanceLoop | cancelRun | interruptRun
  | failRun | recover =>
    show Unpaid (code rounds _)
    exact (saves rounds _).unpaid (by simp [nodeSites])

/-- No operation returns without a call. -/
theorem due_code (rounds : Nat) (op : Op) : op.due (op.code rounds) = 0 := by
  cases op with
  | recordBudget usage observedAfterStop =>
    have hpays : Pays usage.amount ((Op.recordBudget usage observedAfterStop).code rounds) :=
      (recordBudget_pays usage observedAfterStop).map
    cases hcode : (Op.recordBudget usage observedAfterStop).code rounds with
    | ret a =>
      rw [hcode] at hpays
      exact hpays.elim
    | fail | call => rfl
  | startRun | startAttempt | completeAttempt | markSideEffectStarted | selectCondition
  | enterBoundary | resolveBoundary | timeoutBoundary | advanceLoop | cancelRun | interruptRun
  | failRun | recover =>
    unfold due
    split <;> rfl

/-- A call adds to the accounts what the operation then no longer owes. -/
theorem Honest.call {op : Op} {c : RepoCall} {k : c.Reply → GraphProg Unit}
    (h : op.Honest (.call c k)) (r : c.Reply) :
    op.Honest (k r) ∧ op.due (k r) = (c.accounted?.getD 0) := by
  cases op with
  | recordBudget usage observedAfterStop =>
    rcases h with ⟨a, heq⟩ | hpays
    · cases heq
    · rw [Pays] at hpays
      cases hc : c.accounted? with
      | none =>
        rw [hc] at hpays
        refine ⟨.inr (hpays r), ?_⟩
        cases hk : k r with
        | ret a =>
          have hret := hpays r
          rw [hk] at hret
          exact hret.elim
        | fail | call => rfl
      | some paid =>
        rw [hc] at hpays
        obtain ⟨a, hk⟩ := hpays.2 r
        exact ⟨.inl ⟨a, hk⟩, by rw [hk]; exact hpays.1.symm⟩
  | startRun | startAttempt | completeAttempt | markSideEffectStarted | selectCondition
  | enterBoundary | resolveBoundary | timeoutBoundary | advanceLoop | cancelRun | interruptRun
  | failRun | recover =>
    have hc : c.accounted? = none := h.1
    rw [hc]
    refine ⟨h.2 r, ?_⟩
    unfold due
    split <;> rfl

end Op

/-- The sum over a list, one of whose elements is replaced or dropped. -/
theorem sum_map_set {α M : Type} [AddCommMonoid M] (f : α → M) {l : List α} {i : Nat} {a : α}
    (h : l[i]? = some a) (b : α) :
    (l.map f).sum = f a + ((l.eraseIdx i).map f).sum ∧
      ((l.set i b).map f).sum = f b + ((l.eraseIdx i).map f).sum := by
  obtain ⟨hi, hget⟩ := List.getElem?_eq_some_iff.mp h
  have hperm := List.getElem_cons_eraseIdx_perm hi
  rw [hget] at hperm
  have hset := List.set_perm_cons_eraseIdx hi b
  constructor
  · rw [← (hperm.map f).sum_eq, List.map_cons, List.sum_cons]
  · rw [(hset.map f).sum_eq, List.map_cons, List.sum_cons]

namespace Callers

/-- Every caller is honest, and the accounts are the amounts of those who are done. -/
structure Balanced (p : Callers) : Prop where
  honest : ∀ thread ∈ p.threads, thread.1.2.Honest thread.2
  balance : p.world.accounted.sum =
    (p.threads.map fun thread => thread.1.2.due thread.2).sum +
      (p.world.returnedOps.map Op.amount).sum

theorem sum_returned (p : Callers) : (p.returned.map Op.amount).sum =
    (p.threads.map fun thread => thread.1.2.due thread.2).sum +
      (p.world.returnedOps.map Op.amount).sum := by
  rw [returned, List.map_append, List.sum_append]
  congr 1
  induction p.threads with
  | nil => rfl
  | cons thread rest ih =>
    rw [List.map_cons, List.sum_cons, ← ih]
    obtain ⟨task, prog⟩ := thread
    cases prog <;> simp [Op.due]

theorem Balanced.move {backend : Backend} {p : Callers} (h : p.Balanced) {m : Move (Nat × Op)}
    (hm : m.isCrash = false) : Balanced (p.move (callers backend) m) := by
  cases m with
  | crash i => cases hm
  | start task =>
    constructor
    · intro thread hthread
      rcases List.mem_append.mp hthread with hold | hnew
      · exact h.honest thread hold
      · rw [List.mem_singleton.mp hnew]
        exact Op.code_honest task.1 task.2
    · show p.world.accounted.sum = ((p.threads ++ [(task, task.2.code task.1)]).map _).sum + _
      rw [List.map_append, List.sum_append, List.map_singleton, List.sum_singleton,
        Op.due_code, add_zero]
      exact h.balance
  | step i =>
    cases ht : p.threads[i]? with
    | none =>
      simp only [Pool.move, ht]
      exact h
    | some thread =>
      obtain ⟨task, prog⟩ := thread
      have hmem : (task, prog) ∈ p.threads := List.mem_of_getElem? ht
      have hsum := sum_map_set (fun thread : (Nat × Op) × GraphProg Unit => thread.1.2.due thread.2) ht
      have kept {next : GraphProg Unit} (hnext : task.2.Honest next) :
          ∀ thread ∈ p.threads.set i (task, next), thread.1.2.Honest thread.2 := by
        intro thread hthread
        rcases List.mem_or_eq_of_mem_set hthread with hold | rfl
        · exact h.honest thread hold
        · exact hnext
      have hbalance := h.balance
      cases prog with
      | ret a =>
        simp only [Pool.move, ht]
        refine ⟨fun thread hthread => h.honest thread (List.mem_of_mem_eraseIdx hthread), ?_⟩
        have haccounted : (World.accounted { p.world with
            history := .returned task.2 :: p.world.history }) = p.world.accounted := rfl
        show (World.accounted { p.world with
          history := .returned task.2 :: p.world.history }).sum = _
        rw [haccounted, hbalance, (hsum (task, .ret a)).1]
        show _ = ((p.threads.eraseIdx i).map _).sum + ((task.2 :: p.world.returnedOps).map Op.amount).sum
        rw [List.map_cons, List.sum_cons, add_assoc, add_left_comm]
        rfl
      | fail e =>
        simp only [Pool.move, ht]
        refine ⟨fun thread hthread => h.honest thread (List.mem_of_mem_eraseIdx hthread), ?_⟩
        show p.world.accounted.sum = ((p.threads.eraseIdx i).map _).sum + _
        rw [hbalance, (hsum (task, .fail e)).1]
        show 0 + _ + _ = _
        rw [zero_add]
      | call c k =>
        cases he : backend.exec c p.world.store with
        | error e =>
          simp only [Pool.move, ht, callers, record, he]
          refine ⟨kept ?_, ?_⟩
          · cases task.2 <;> first | exact .inr trivial | trivial
          · show p.world.accounted.sum = ((p.threads.set i (task, .fail e)).map _).sum + _
            rw [hbalance, (hsum (task, .fail e)).2, (hsum (task, .fail e)).1]
            rfl
        | ok reply =>
          obtain ⟨r, s⟩ := reply
          simp only [Pool.move, ht, callers, record, he]
          obtain ⟨hnext, hdue⟩ := (h.honest _ hmem).call r
          refine ⟨kept hnext, ?_⟩
          show (p.world.committed c s).accounted.sum =
            ((p.threads.set i (task, k r)).map _).sum + _
          rw [World.accounted_committed, hbalance, (hsum (task, k r)).2, (hsum (task, k r)).1, hdue, add_assoc,
            add_assoc]
          show _ + (0 + _) = _
          rw [zero_add]
          rfl

theorem Balanced.play {backend : Backend} {p : Callers} (h : p.Balanced)
    {moves : List (Move (Nat × Op))} (hm : ∀ m ∈ moves, m.isCrash = false) :
    Balanced (p.play (callers backend) moves) := by
  induction moves generalizing p with
  | nil => exact h
  | cons m rest ih =>
    exact ih (h.move (hm m (List.mem_cons_self ..))) fun m' hmem => hm m' (List.mem_cons_of_mem _ hmem)

end Callers

/-- What is left of the callers of a new run. -/
def callersAfter (backend : Backend) (start : GraphStore) (moves : List (Move (Nat × Op))) : Callers :=
  Pool.play (callers backend) (fresh start) moves

/-- The accounts are the amounts that were recorded, and an active run is within its
budget. -/
structure Callers.Accounted (p : Callers) : Prop where
  recorded : p.world.store.run.consumption = (p.returned.map Op.amount).sum
  within : p.world.store.run.status.isActive = true → p.world.store.run.overBudget = false

theorem createRun_consumption {args : RunRequest} {s : GraphStore} (h : createRun args = .ok s) :
    s.run.consumption = 0 ∧ s.run.status.isActive = false := by
  unfold createRun at h
  obtain ⟨compiled, -, h⟩ := ok_of_bind h
  dsimp only at h
  split at h
  · cases h
  · cases h
    exact ⟨rfl, rfl⟩

def tightRequest : RunRequest := { soloRequest with budgetSnapshot := some { maxOutputTokens := some 10 } }

def tightStore : GraphStore :=
  { soloStore with run := { soloStore.run with budgetSnapshot := { maxOutputTokens := some 10 } } }

theorem tightStore_created : createRun tightRequest = .ok tightStore := rfl

def recordTokens (tokens : ℤ) : Move (Nat × Op) :=
  .start (0, .recordBudget { outputTokens := .int tokens } true)

end Operant.Graph
