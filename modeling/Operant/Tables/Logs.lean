import Mathlib.Data.List.Basic

/-! What a run of operations hands out.

A run applies operations one after the other. `logFrom` collects what each of them emits in
the state it finds, `Throughout` says of each what it may do after those before it, and a
log is `Increasing` when, key by key, each entry outranks all before it. -/
namespace Operant.Tables

section Logs
variable {S O α κ : Type}

/-- What a run emits, in order. -/
def logFrom (apply : S → O → S) (emit : S → O → List α) : S → List O → List α
  | _, [] => []
  | s, op :: rest => emit s op ++ logFrom apply emit (apply s op) rest

theorem logFrom_append (apply : S → O → S) (emit : S → O → List α) (s : S) (ops more : List O) :
    logFrom apply emit s (ops ++ more) =
      logFrom apply emit s ops ++ logFrom apply emit (ops.foldl apply s) more := by
  induction ops generalizing s with
  | nil => rfl
  | cons op rest ih =>
    show emit s op ++ logFrom apply emit (apply s op) (rest ++ more) = _
    rw [ih, ← List.append_assoc]
    rfl

theorem logFrom_concat (apply : S → O → S) (emit : S → O → List α) (s : S) (ops : List O) (op : O) :
    logFrom apply emit s (ops ++ [op]) = logFrom apply emit s ops ++ emit (ops.foldl apply s) op := by
  rw [logFrom_append]
  show _ ++ (emit _ op ++ []) = _
  rw [List.append_nil]

/-- Each operation meets a condition on what went before it. -/
def Throughout (condition : List O → O → Prop) (ops : List O) : Prop :=
  ∀ before op after, ops = before ++ op :: after → condition before op

theorem throughout_nil {condition : List O → O → Prop} : Throughout condition [] :=
  fun before op after h => absurd h.symm (by simp)

theorem throughout_concat {condition : List O → O → Prop} {ops : List O} {op : O} :
    Throughout condition (ops ++ [op]) ↔ Throughout condition ops ∧ condition ops op := by
  constructor
  · intro h
    refine ⟨fun before o after heq => ?_, h ops op [] rfl⟩
    apply h before o (after ++ [op])
    rw [heq, List.append_assoc]
    rfl
  · intro h before o after heq
    cases List.eq_nil_or_concat after with
    | inl hnil =>
      rw [hnil] at heq
      obtain ⟨hops, hop⟩ := List.append_inj' heq rfl
      rw [← hops, ← List.singleton_inj.mp hop]
      exact h.2
    | inr hconcat =>
      obtain ⟨init, last, rfl⟩ := hconcat
      have heq : ops ++ [op] = (before ++ o :: init) ++ [last] := by rw [heq]; simp
      exact h.1 before o init (List.append_inj' heq rfl).1

/-- Key by key, every entry outranks those before it. -/
def Increasing (key : α → κ) (rank : α → Nat) (log : List α) : Prop :=
  log.Pairwise fun a b => key a = key b → rank a < rank b

variable {key : α → κ} {rank : α → Nat} {log : List α}

instance [DecidableEq κ] : Decidable (Increasing key rank log) :=
  inferInstanceAs (Decidable (log.Pairwise fun a b => key a = key b → rank a < rank b))

theorem increasing_nil : Increasing key rank [] := List.Pairwise.nil

theorem increasing_concat {entry : α} :
    Increasing key rank (log ++ [entry]) ↔
      Increasing key rank log ∧ ∀ e ∈ log, key e = key entry → rank e < rank entry := by
  unfold Increasing
  rw [List.pairwise_append]
  simp

theorem Increasing.of_append {more : List α} (h : Increasing key rank (log ++ more)) :
    Increasing key rank log := (List.pairwise_append.mp h).1

theorem increasing_iff_filter [DecidableEq κ] :
    Increasing key rank log ↔
      ∀ k, (log.filter fun e => key e = k).Pairwise fun a b => rank a < rank b := by
  unfold Increasing
  constructor
  · intro h k
    rw [List.pairwise_filter]
    apply h.imp
    intro a b hab ha hb
    exact hab ((of_decide_eq_true ha).trans (of_decide_eq_true hb).symm)
  · intro h
    rw [List.pairwise_iff_forall_sublist]
    intro a b hsub heq
    have hpair := List.pairwise_filter.mp (h (key b))
    exact List.pairwise_iff_forall_sublist.mp hpair hsub (decide_eq_true heq) (decide_eq_true rfl)

/-- An increasing log that nothing has outranked: each key's entries reach its top at most. -/
structure Topped (key : α → κ) (rank : α → Nat) (top : κ → Nat) (log : List α) : Prop where
  increasing : Increasing key rank log
  bounded : ∀ entry ∈ log, rank entry ≤ top (key entry)

theorem Topped.nil {top : κ → Nat} : Topped key rank top [] :=
  ⟨increasing_nil, fun _ h => absurd h List.not_mem_nil⟩

theorem Topped.mono {top top' : κ → Nat} (h : Topped key rank top log) (htop : ∀ k, top k ≤ top' k) :
    Topped key rank top' log :=
  ⟨h.increasing, fun entry hmem => Nat.le_trans (h.bounded entry hmem) (htop (key entry))⟩

/-- A new entry goes over the top. -/
theorem Topped.concat {top top' : κ → Nat} {entry : α} (h : Topped key rank top log)
    (hover : top (key entry) < rank entry) (htop : ∀ k, top k ≤ top' k)
    (hnew : rank entry ≤ top' (key entry)) : Topped key rank top' (log ++ [entry]) := by
  constructor
  · apply increasing_concat.mpr
    constructor
    · exact h.increasing
    · intro e he hkey
      have hbound := h.bounded e he
      rw [hkey] at hbound
      omega
  · intro e he
    cases List.mem_append.mp he with
    | inl hold => exact (h.mono htop).bounded e hold
    | inr hlast =>
      rw [List.mem_singleton.mp hlast]
      exact hnew

end Logs
end Operant.Tables
