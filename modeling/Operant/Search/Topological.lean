import Mathlib.Algebra.BigOperators.Group.List.Basic
import Mathlib.Data.List.Perm.Subperm
import Mathlib.Logic.Relation
import Mathlib.Order.WellFounded
import Mathlib.Data.Fintype.Card
import Mathlib.Tactic

/-! Kahn's algorithm.

Nodes whose edges in are all used up wait in a queue; taking one from it uses up its
edges out. The order in which nodes are taken has every edge going forward
(`Ordered`), so when all nodes are taken the graph has no cycle (`Ordered.rank`). Where
some are not, it has one (`cycle_of_kahn`). -/
namespace Operant.Search
variable {α : Type} [DecidableEq α]

/-- Use up one edge to each of the targets; a node without edges left joins the queue. -/
def relax : List α → (α → Int) → List α → (α → Int) × List α
  | [], degree, queue => (degree, queue)
  | t :: ts, degree, queue =>
    let d := degree t - 1
    relax ts (fun x => if x = t then d else degree x) (if d = 0 then queue ++ [t] else queue)

/-- The nodes in the order in which they leave the queue. -/
def kahn (succ : α → List α) : Nat → List α → (α → Int) → List α
  | 0, _, _ => []
  | _ + 1, [], _ => []
  | n + 1, a :: queue, degree =>
    let next := relax (succ a) degree queue
    a :: kahn succ n next.2 next.1

/-! ### One node taken -/

theorem relax_degree (ts : List α) (degree : α → Int) (queue : List α) (x : α) :
    (relax ts degree queue).1 x = degree x - ts.count x := by
  induction ts generalizing degree queue with
  | nil => simp [relax]
  | cons t ts ih =>
    simp only [relax, ih, List.count_cons]
    by_cases h : x = t
    · subst h
      simp
      omega
    · have h' : ¬ t = x := fun h' => h h'.symm
      simp [h, h']

/-- As long as no degree is overdrawn, exactly the nodes whose last edge was used up
join the queue, once each. -/
theorem relax_queue (ts : List α) (degree : α → Int) (queue : List α)
    (hd : ∀ x ∈ ts, (ts.count x : Int) ≤ degree x) :
    ∃ joined : List α, (relax ts degree queue).2 = queue ++ joined ∧ joined.Nodup ∧
      ∀ x, x ∈ joined ↔ x ∈ ts ∧ degree x = ts.count x := by
  induction ts generalizing degree queue with
  | nil => exact ⟨[], by simp [relax], List.nodup_nil, by simp⟩
  | cons t ts ih =>
    simp only [relax]
    have hrest : ∀ x ∈ ts, (ts.count x : Int) ≤ (if x = t then degree t - 1 else degree x) := by
      intro x hx
      have := hd x (List.mem_cons_of_mem _ hx)
      by_cases h : x = t
      · subst h
        simp at this ⊢
        omega
      · have h' : ¬ t = x := fun h' => h h'.symm
        simpa [h, h', List.count_cons] using this
    obtain ⟨joined, hq, hn, hm⟩ := ih _ (if degree t - 1 = 0 then queue ++ [t] else queue) hrest
    have hhead := hd t (List.mem_cons_self ..)
    rw [List.count_cons_self] at hhead
    by_cases h0 : degree t - 1 = 0
    · have hnot : t ∉ ts := fun ht => by
        have := List.count_pos_iff.mpr ht
        push_cast at hhead
        omega
      have hcount : ts.count t = 0 := List.count_eq_zero.mpr hnot
      rw [if_pos h0] at hq
      refine ⟨t :: joined, by rw [if_pos h0, hq]; simp, ?_, fun x => ?_⟩
      · refine List.nodup_cons.mpr ⟨fun ht => hnot ((hm t).mp ht).1, hn⟩
      · rw [List.mem_cons, hm, List.mem_cons]
        by_cases hx : x = t
        · subst hx
          simp [hcount]
          omega
        · have h' : ¬ t = x := fun h' => hx h'.symm
          simp [hx, h']
    · rw [if_neg h0] at hq
      refine ⟨joined, by rw [if_neg h0, hq], hn, fun x => ?_⟩
      rw [hm, List.mem_cons]
      by_cases hx : x = t
      · subst hx
        simp only [if_true, true_or, true_and, List.count_cons_self]
        constructor
        · rintro ⟨_, h⟩
          push_cast
          omega
        · intro h
          push_cast at h
          refine ⟨?_, by omega⟩
          by_contra hnot
          rw [List.count_eq_zero.mpr hnot] at h
          omega
      · have h' : ¬ t = x := fun h' => hx h'.symm
        simp [hx, h']

/-! ### The order -/

/-- Every edge into a node of the order comes from a node before it. -/
structure Ordered (nodes : List α) (succ : α → List α) (order : List α) : Prop where
  nodup : order.Nodup
  subset : ∀ x ∈ order, x ∈ nodes
  before : ∀ l x r, order = l ++ x :: r → ∀ a ∈ nodes, x ∈ succ a → a ∈ l

/-- Edges to `x` from nodes not taken yet. -/
def remaining (nodes : List α) (succ : α → List α) (taken : List α) (x : α) : Int :=
  ((nodes.filter (· ∉ taken)).map fun a => ((succ a).count x : Int)).sum

theorem remaining_nonneg (nodes : List α) (succ : α → List α) (taken : List α) (x : α) :
    0 ≤ remaining nodes succ taken x :=
  List.sum_nonneg fun y hy => by
    obtain ⟨a, _, rfl⟩ := List.mem_map.mp hy
    exact Int.natCast_nonneg _

theorem remaining_take (nodes : List α) (hn : nodes.Nodup) (succ : α → List α) (taken : List α)
    {a : α} (ha : a ∈ nodes) (ht : a ∉ taken) (x : α) :
    remaining nodes succ taken x = remaining nodes succ (taken ++ [a]) x + (succ a).count x := by
  unfold remaining
  induction nodes with
  | nil => simp at ha
  | cons u us ih =>
    obtain ⟨hu, hus⟩ := List.nodup_cons.mp hn
    by_cases hua : u = a
    · subst hua
      have hsame : us.filter (· ∉ taken ++ [u]) = us.filter (· ∉ taken) := by
        apply List.filter_congr
        intro y hy
        have : y ≠ u := fun h => hu (h ▸ hy)
        simp [this]
      rw [List.filter_cons_of_pos (by simpa using ht), List.filter_cons_of_neg (by simp), hsame]
      simp only [List.map_cons, List.sum_cons]
      omega
    · have hmem : a ∈ us := by
        rcases List.mem_cons.mp ha with rfl | h
        · exact absurd rfl hua
        · exact h
      have := ih hus hmem
      by_cases hut : u ∈ taken
      · rw [List.filter_cons_of_neg (by simpa using hut),
          List.filter_cons_of_neg (by simp [hut])]
        exact this
      · rw [List.filter_cons_of_pos (by simpa using hut),
          List.filter_cons_of_pos (by simp [hut, hua])]
        simp only [List.map_cons, List.sum_cons]
        omega

/-- A node without remaining edges has all its predecessors taken. -/
theorem taken_of_remaining_zero {nodes : List α} {succ : α → List α} {taken : List α} {x : α}
    (h : remaining nodes succ taken x = 0) {a : α} (ha : a ∈ nodes) (hx : x ∈ succ a) :
    a ∈ taken := by
  by_contra ht
  have hmem : ((succ a).count x : Int) ∈
      (nodes.filter (· ∉ taken)).map fun a => ((succ a).count x : Int) :=
    List.mem_map.mpr ⟨a, List.mem_filter.mpr ⟨ha, by simpa using ht⟩, rfl⟩
  have hpos : 0 < (succ a).count x := List.count_pos_iff.mpr hx
  have hle : ((succ a).count x : Int) ≤ remaining nodes succ taken x := by
    refine List.single_le_sum (fun y hy => ?_) _ hmem
    obtain ⟨b, _, rfl⟩ := List.mem_map.mp hy
    exact Int.natCast_nonneg _
  omega

/-- What the loop keeps about the nodes taken, the queue and the degrees. -/
structure Taking (nodes : List α) (succ : α → List α) (taken queue : List α) (degree : α → Int) :
    Prop where
  ordered : Ordered nodes succ taken
  nodup : (taken ++ queue).Nodup
  subset : ∀ x ∈ queue, x ∈ nodes
  degree : ∀ x ∈ nodes, degree x = remaining nodes succ taken x
  free : ∀ x ∈ queue, remaining nodes succ taken x = 0

theorem Taking.take {nodes : List α} {succ : α → List α} {taken queue : List α} {degree : α → Int}
    {a : α} (hn : nodes.Nodup) (hs : ∀ x ∈ nodes, ∀ y ∈ succ x, y ∈ nodes)
    (h : Taking nodes succ taken (a :: queue) degree) :
    Taking nodes succ (taken ++ [a]) (relax (succ a) degree queue).2
      (relax (succ a) degree queue).1 := by
  have ha : a ∈ nodes := h.subset a (List.mem_cons_self ..)
  have hat : a ∉ taken := fun ht =>
    (List.nodup_append.mp h.nodup).2.2 a ht a (List.mem_cons_self ..) rfl
  have htake := remaining_take nodes hn succ taken ha hat
  have hover : ∀ x ∈ succ a, ((succ a).count x : Int) ≤ degree x := by
    intro x hx
    rw [h.degree x (hs a ha x hx), htake x]
    have := remaining_nonneg nodes succ (taken ++ [a]) x
    omega
  obtain ⟨joined, hq, hjn, hj⟩ := relax_queue (succ a) degree queue hover
  have hjoined : ∀ x ∈ joined, x ∈ nodes ∧ remaining nodes succ (taken ++ [a]) x = 0 := by
    intro x hx
    obtain ⟨hxs, hxd⟩ := (hj x).mp hx
    have hxn := hs a ha x hxs
    rw [h.degree x hxn, htake x] at hxd
    exact ⟨hxn, by omega⟩
  have hzero : ∀ x ∈ taken ++ a :: queue, remaining nodes succ taken x = 0 := by
    intro x hx
    rcases List.mem_append.mp hx with hx | hx
    · obtain ⟨l, r, hlr⟩ := List.append_of_mem hx
      unfold remaining
      apply List.sum_eq_zero
      intro c hc
      obtain ⟨b, hb, rfl⟩ := List.mem_map.mp hc
      obtain ⟨hbn, hbt⟩ := List.mem_filter.mp hb
      simp only [decide_eq_true_eq] at hbt
      rw [Int.natCast_eq_zero, List.count_eq_zero]
      intro hxb
      exact hbt (hlr ▸ List.mem_append_left _ (h.ordered.before l x r hlr b hbn hxb))
    · exact h.free x hx
  rw [hq]
  refine ⟨⟨?_, ?_, ?_⟩, ?_, ?_, ?_, ?_⟩
  · exact List.nodup_append.mpr ⟨h.ordered.nodup, List.nodup_singleton a, fun x hx y hy => by
      rw [List.mem_singleton] at hy
      rintro rfl
      exact hat (hy ▸ hx)⟩
  · intro x hx
    rcases List.mem_append.mp hx with hx | hx
    · exact h.ordered.subset x hx
    · rw [List.mem_singleton] at hx
      exact hx ▸ ha
  · intro l x r hlr b hb hxb
    rcases List.eq_nil_or_concat r with rfl | ⟨r', z, rfl⟩
    · obtain ⟨rfl, hxa⟩ := List.append_inj' hlr rfl
      obtain rfl : a = x := by simpa using hxa
      exact taken_of_remaining_zero (h.free a (List.mem_cons_self ..)) hb hxb
    · have : taken ++ [a] = (l ++ x :: r') ++ [z] := by simpa using hlr
      obtain ⟨htk, _⟩ := List.append_inj' this rfl
      exact h.ordered.before l x r' htk b hb hxb
  · have hrest : (taken ++ [a] ++ queue).Nodup := by simpa using h.nodup
    rw [← List.append_assoc]
    refine List.nodup_append.mpr ⟨hrest, hjn, fun x hx y hy => ?_⟩
    rintro rfl
    obtain ⟨hxs, hxd⟩ := (hj x).mp hy
    have hx0 : remaining nodes succ taken x = 0 := hzero x (by simpa using hx)
    rw [h.degree x (hs a ha x hxs), hx0] at hxd
    have := List.count_pos_iff.mpr hxs
    omega
  · intro x hx
    rcases List.mem_append.mp hx with hx | hx
    · exact h.subset x (List.mem_cons_of_mem _ hx)
    · exact (hjoined x hx).1
  · intro x hx
    rw [relax_degree, h.degree x hx, htake x]
    omega
  · intro x hx
    rcases List.mem_append.mp hx with hx | hx
    · have h0 := h.free x (List.mem_cons_of_mem _ hx)
      rw [htake x] at h0
      have := remaining_nonneg nodes succ (taken ++ [a]) x
      omega
    · exact (hjoined x hx).2

theorem ordered_kahn {nodes : List α} {succ : α → List α} (hn : nodes.Nodup)
    (hs : ∀ x ∈ nodes, ∀ y ∈ succ x, y ∈ nodes) (n : Nat) {taken queue : List α} {degree : α → Int}
    (h : Taking nodes succ taken queue degree) :
    Ordered nodes succ (taken ++ kahn succ n queue degree) := by
  induction n generalizing taken queue degree with
  | zero => simpa [kahn] using h.ordered
  | succ n ih =>
    cases queue with
    | nil => simpa [kahn] using h.ordered
    | cons a queue =>
      have := ih (h.take hn hs)
      simpa [kahn] using this

theorem remaining_nil (nodes : List α) (succ : α → List α) (x : α) :
    remaining nodes succ [] x = (nodes.map fun a => ((succ a).count x : Int)).sum := by
  simp [remaining]

theorem Taking.start {nodes : List α} {succ : α → List α} {entries : List α} {degree : α → Int}
    (hdegree : ∀ x ∈ nodes, degree x = (nodes.map fun a => ((succ a).count x : Int)).sum)
    (hentries : entries.Nodup) (hfree : ∀ x ∈ entries, x ∈ nodes ∧ degree x = 0) :
    Taking nodes succ [] entries degree := by
  refine ⟨⟨List.nodup_nil, by simp, ?_⟩, by simpa using hentries, fun x hx => (hfree x hx).1,
    fun x hx => by rw [remaining_nil, hdegree x hx], fun x hx => ?_⟩
  · intro l x r hlr
    simp at hlr
  · rw [remaining_nil, ← hdegree x (hfree x hx).1]
    exact (hfree x hx).2

/-- Started with the nodes that no edge goes to, the order has every edge going forward. -/
theorem ordered_kahn_start {nodes : List α} {succ : α → List α} (hn : nodes.Nodup)
    (hs : ∀ x ∈ nodes, ∀ y ∈ succ x, y ∈ nodes) (n : Nat) {entries : List α} {degree : α → Int}
    (hdegree : ∀ x ∈ nodes, degree x = (nodes.map fun a => ((succ a).count x : Int)).sum)
    (hentries : entries.Nodup) (hfree : ∀ x ∈ entries, x ∈ nodes ∧ degree x = 0) :
    Ordered nodes succ (kahn succ n entries degree) :=
  ordered_kahn hn hs n (.start hdegree hentries hfree)

omit [DecidableEq α] in
theorem Ordered.all {nodes : List α} {succ : α → List α} {order : List α}
    (h : Ordered nodes succ order) (hlen : order.length = nodes.length) :
    ∀ x ∈ nodes, x ∈ order := by
  have hsub : order.Subperm nodes := List.subperm_of_subset h.nodup h.subset
  have hperm : order.Perm nodes := hsub.perm_of_length_le (by omega)
  exact fun x hx => hperm.mem_iff.mpr hx

/-- A complete order ranks the nodes so that every edge goes up. -/
theorem Ordered.rank {nodes : List α} {succ : α → List α} {order : List α}
    (h : Ordered nodes succ order) (hlen : order.length = nodes.length) {a b : α} (ha : a ∈ nodes)
    (hb : b ∈ nodes) (hab : b ∈ succ a) : order.idxOf a < order.idxOf b := by
  obtain ⟨l, r, hlr⟩ := List.append_of_mem (h.all hlen b hb)
  have hal : a ∈ l := h.before l b r hlr a ha hab
  have hbl : b ∉ l := by
    have hn := h.nodup
    rw [hlr] at hn
    exact fun hbl => (List.nodup_append.mp hn).2.2 b hbl b (List.mem_cons_self ..) rfl
  have hia : order.idxOf a = l.idxOf a := by rw [hlr, List.idxOf_append_of_mem hal]
  have hib : order.idxOf b = l.length := by
    rw [hlr, List.idxOf_append_of_notMem hbl]
    simp
  have := List.idxOf_lt_length_of_mem hal
  omega

/-! ### Cycles -/

/-- A node that no edge from a node not taken goes to is taken or waits for it. -/
def Draining (nodes : List α) (succ : α → List α) (taken queue : List α) : Prop :=
  ∀ x ∈ nodes, remaining nodes succ taken x = 0 → x ∈ taken ∨ x ∈ queue

theorem Draining.take {nodes : List α} {succ : α → List α} {taken queue : List α} {degree : α → Int}
    {a : α} (hn : nodes.Nodup) (hs : ∀ x ∈ nodes, ∀ y ∈ succ x, y ∈ nodes)
    (h : Taking nodes succ taken (a :: queue) degree) (hd : Draining nodes succ taken (a :: queue)) :
    Draining nodes succ (taken ++ [a]) (relax (succ a) degree queue).2 := by
  have ha : a ∈ nodes := h.subset a (List.mem_cons_self ..)
  have hat : a ∉ taken := fun ht =>
    (List.nodup_append.mp h.nodup).2.2 a ht a (List.mem_cons_self ..) rfl
  have htake := remaining_take nodes hn succ taken ha hat
  have hover : ∀ x ∈ succ a, ((succ a).count x : Int) ≤ degree x := by
    intro x hx
    rw [h.degree x (hs a ha x hx), htake x]
    have := remaining_nonneg nodes succ (taken ++ [a]) x
    omega
  obtain ⟨joined, hq, -, hj⟩ := relax_queue (succ a) degree queue hover
  rw [hq]
  intro x hx hzero
  have hcount := htake x
  by_cases hxa : x ∈ succ a
  · -- Its last edge is the one that `a` has used up.
    refine .inr (List.mem_append_right _ ((hj x).mpr ⟨hxa, ?_⟩))
    rw [h.degree x hx]
    omega
  · rw [List.count_eq_zero.mpr hxa] at hcount
    have hbefore : remaining nodes succ taken x = 0 := by omega
    rcases hd x hx hbefore with hmem | hmem
    · exact .inl (List.mem_append_left _ hmem)
    · rcases List.mem_cons.mp hmem with rfl | hmem
      · exact .inl (List.mem_append_right _ (List.mem_singleton.mpr rfl))
      · exact .inr (List.mem_append_left _ hmem)

theorem draining_kahn {nodes : List α} {succ : α → List α} (hn : nodes.Nodup)
    (hs : ∀ x ∈ nodes, ∀ y ∈ succ x, y ∈ nodes) (n : Nat) {taken queue : List α} {degree : α → Int}
    (h : Taking nodes succ taken queue degree) (hd : Draining nodes succ taken queue)
    (hlen : nodes.length ≤ taken.length + n) :
    Draining nodes succ (taken ++ kahn succ n queue degree) [] := by
  induction n generalizing taken queue degree with
  | zero =>
    have hsub : taken.Subperm nodes := List.subperm_of_subset h.ordered.nodup h.ordered.subset
    have hperm : taken.Perm nodes := hsub.perm_of_length_le (by omega)
    intro x hx _
    exact .inl (List.mem_append_left _ (hperm.mem_iff.mpr hx))
  | succ n ih =>
    cases queue with
    | nil => simpa [kahn] using hd
    | cons a queue =>
      have := ih (h.take hn hs) (hd.take hn hs h) (by simp; omega)
      simpa [kahn] using this

omit [DecidableEq α] in
/-- If each node of a list has a predecessor in it, the list holds a cycle. -/
theorem cycle_of_preds {r : α → α → Prop} {nodes : List α} (hne : nodes ≠ [])
    (h : ∀ x ∈ nodes, ∃ y ∈ nodes, r y x) : ∃ x, Relation.TransGen r x x := by
  by_contra hnone
  push Not at hnone
  let below (a b : {x // x ∈ nodes}) : Prop := Relation.TransGen r a.1 b.1
  have : IsTrans _ below := ⟨fun _ _ _ hab hbc => hab.trans hbc⟩
  have : Std.Irrefl below := ⟨fun a => hnone a.1⟩
  have : Finite {x // x ∈ nodes} := (List.finite_toSet nodes).to_subtype
  have hwf : WellFounded below := Finite.wellFounded_of_trans_of_irrefl below
  obtain ⟨a, ha⟩ := List.exists_mem_of_ne_nil nodes hne
  obtain ⟨m, -, hmin⟩ := hwf.has_min Set.univ ⟨⟨a, ha⟩, trivial⟩
  obtain ⟨y, hy, hstep⟩ := h m.1 m.2
  exact hmin ⟨y, hy⟩ trivial (.single hstep)

/-- Nodes that are never taken lie behind a cycle. -/
theorem cycle_of_kahn {nodes : List α} {succ : α → List α} (hn : nodes.Nodup)
    (hs : ∀ x ∈ nodes, ∀ y ∈ succ x, y ∈ nodes) {entries : List α} {degree : α → Int}
    (hdegree : ∀ x ∈ nodes, degree x = (nodes.map fun a => ((succ a).count x : Int)).sum)
    (hentries : entries.Nodup) (hfree : ∀ x, x ∈ entries ↔ x ∈ nodes ∧ degree x = 0)
    (hlen : (kahn succ nodes.length entries degree).length ≠ nodes.length) :
    ∃ x, Relation.TransGen (fun a b => b ∈ succ a) x x := by
  have hfirst := Taking.start hdegree hentries fun x hx => (hfree x).mp hx
  have hdrain : Draining nodes succ [] entries := by
    intro x hx hzero
    rw [remaining_nil] at hzero
    exact .inr ((hfree x).mpr ⟨hx, (hdegree x hx).trans hzero⟩)
  have hordered := ordered_kahn hn hs nodes.length hfirst
  have hend := draining_kahn hn hs nodes.length hfirst hdrain (by simp)
  rw [List.nil_append] at hordered hend
  generalize kahn succ nodes.length entries degree = order at hlen hordered hend
  refine @cycle_of_preds _ _ (nodes.filter (· ∉ order)) ?_ fun x hx => ?_
  · intro hall
    refine hlen (List.Perm.length_eq ?_)
    refine (List.perm_ext_iff_of_nodup hordered.nodup hn).mpr fun x => ⟨hordered.subset x, fun hx => ?_⟩
    simpa using List.filter_eq_nil_iff.mp hall x hx
  · obtain ⟨hx, hxo⟩ := List.mem_filter.mp hx
    have hxo : x ∉ order := by simpa using hxo
    by_contra hnone
    push Not at hnone
    refine hxo ((hend x hx ?_).resolve_right List.not_mem_nil)
    refine List.sum_eq_zero fun c hc => ?_
    obtain ⟨b, hb, rfl⟩ := List.mem_map.mp hc
    rw [Int.natCast_eq_zero, List.count_eq_zero]
    exact hnone b hb

end Operant.Search
