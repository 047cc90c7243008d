import Mathlib.Data.List.Sort
import Mathlib.Order.Lattice
import Operant.Tables.Rows

/-! Pages: `SELECT .. WHERE p ORDER BY key LIMIT n`.

Where no two rows have one key, a row is on the page iff it matches and fewer than `n` rows that
match come before it. -/
namespace Operant.Tables
variable {α κ : Type}

/-- In a list in strict order, an entry is among the first `n` iff fewer than `n` come before it. -/
theorem mem_take_iff {r : α → α → Prop} [DecidableRel r] (hasymm : ∀ a b, r a b → ¬r b a) {l : List α}
    (h : l.Pairwise r) {x : α} {n : Nat} :
    x ∈ l.take n ↔ x ∈ l ∧ l.countP (fun y => r y x) < n := by
  induction l generalizing n with
  | nil => simp
  | cons a rest ih =>
    obtain ⟨hfirst, hrest⟩ := List.pairwise_cons.mp h
    cases n with
    | zero => simp
    | succ n =>
      rw [List.take_succ_cons, List.mem_cons, List.mem_cons, ih hrest, List.countP_cons]
      by_cases hx : x = a
      · -- Nothing comes before the first entry.
        have hnone : rest.countP (fun y => r y x) = 0 := by
          rw [List.countP_eq_zero]
          intro y hy
          rw [hx, decide_eq_true_eq]
          exact hasymm a y (hfirst y hy)
        have hself : ¬r a x := by
          rw [hx]
          exact fun hr => hasymm a a hr hr
        rw [hnone, if_neg (by simpa using hself)]
        simp [hx]
      · by_cases hmem : x ∈ rest
        · rw [if_pos (by simpa using hfirst x hmem)]
          simp [hx, hmem]
        · simp [hx, hmem]

/-- What `find?` finds stands before all else that it looks for. -/
theorem find?_first {r : α → α → Prop} {l : List α} {p : α → Bool} {x : α}
    (h : l.Pairwise r) (hfind : l.find? p = some x) {y : α} (hy : y ∈ l) (hp : p y = true) :
    y = x ∨ r x y := by
  obtain ⟨-, front, back, rfl, hfront⟩ := List.find?_eq_some_iff_append.mp hfind
  have hafter := (List.pairwise_append.mp h).2.1
  cases List.mem_append.mp hy with
  | inl hmem =>
    have := hfront y hmem
    rw [hp] at this
    exact absurd this (by simp)
  | inr hmem => exact (List.mem_cons.mp hmem).imp_right (List.rel_of_pairwise_cons hafter)

/-- A page of what every row gives. -/
theorem take_filterMap {β : Type} {f : α → Option β} {l : List α} (h : ∀ x ∈ l, (f x).isSome)
    (n : Nat) : (l.filterMap f).take n = (l.take n).filterMap f := by
  induction l generalizing n with
  | nil => simp
  | cons x rest ih =>
    obtain ⟨y, hy⟩ := Option.isSome_iff_exists.mp (h x (List.mem_cons_self ..))
    cases n with
    | zero => rfl
    | succ n =>
      rw [List.take_succ_cons, List.filterMap_cons_some hy, List.filterMap_cons_some hy,
        List.take_succ_cons, ih (fun z hz => h z (List.mem_cons_of_mem _ hz))]

section Pages
variable [LinearOrder κ] (key : α → κ) (p : α → Bool)

/-- `SELECT .. WHERE p ORDER BY key LIMIT n`. -/
def page (rows : List α) (n : Nat) : List α :=
  ((rows.filter p).insertionSort fun a b => key a ≤ key b).take n

variable {key p} {rows : List α}

theorem pairwise_sorted (h : (rows.map key).Nodup) :
    ((rows.filter p).insertionSort fun a b => key a ≤ key b).Pairwise fun a b => key a < key b := by
  have hsorted : ((rows.filter p).insertionSort fun a b => key a ≤ key b).Pairwise
      fun a b => key a ≤ key b := by
    have htotal : Std.Total fun a b : α => key a ≤ key b := ⟨fun a b => le_total (key a) (key b)⟩
    have htrans : IsTrans α fun a b => key a ≤ key b := ⟨fun _ _ _ => le_trans⟩
    exact List.pairwise_insertionSort _ _
  have hkeys : (((rows.filter p).insertionSort fun a b => key a ≤ key b).map key).Nodup :=
    (((List.perm_insertionSort _ _).map key).nodup_iff).mpr (h.sublist (List.filter_sublist.map key))
  rw [List.nodup_iff_pairwise_ne, List.pairwise_map] at hkeys
  exact (hsorted.and hkeys).imp fun hab => lt_of_le_of_ne hab.1 hab.2

theorem mem_page (h : (rows.map key).Nodup) {x : α} {n : Nat} :
    x ∈ page key p rows n ↔
      (x ∈ rows ∧ p x = true) ∧ rows.countP (fun y => p y && key y < key x) < n := by
  have hcount : ((rows.filter p).insertionSort fun a b => key a ≤ key b).countP
      (fun y => key y < key x) = rows.countP fun y => p y && key y < key x := by
    rw [(List.perm_insertionSort _ _).countP_eq, List.countP_filter]
    congr 1
    funext y
    exact Bool.and_comm _ _
  unfold page
  rw [mem_take_iff (fun _ _ hab hba => lt_asymm hab hba) (pairwise_sorted h), List.mem_insertionSort,
    List.mem_filter, hcount]

theorem of_mem_page {n : Nat} {x : α} (h : x ∈ page key p rows n) : x ∈ rows ∧ p x = true := by
  have hmem := List.mem_of_mem_take h
  rw [List.mem_insertionSort, List.mem_filter] at hmem
  exact hmem

/-- A key that no two rows share, no two rows of a page share. -/
theorem nodup_map_page {β : Type} {f : α → β} (h : (rows.map f).Nodup) {n : Nat} :
    ((page key p rows n).map f).Nodup := by
  have hsorted : (((rows.filter p).insertionSort fun a b => key a ≤ key b).map f).Nodup :=
    (((List.perm_insertionSort _ _).map f).nodup_iff).mpr (h.sublist (List.filter_sublist.map f))
  exact hsorted.sublist ((List.take_sublist _ _).map f)

theorem pairwise_page (h : (rows.map key).Nodup) {n : Nat} :
    (page key p rows n).Pairwise fun a b => key a < key b :=
  (pairwise_sorted h).sublist (List.take_sublist _ _)

theorem length_page {n : Nat} : (page key p rows n).length = min n (rows.countP p) := by
  unfold page
  rw [List.length_take, List.length_insertionSort, List.countP_eq_length_filter]

/-! ### One page after the other -/

variable (key) in
/-- The rows behind a key, in their order. -/
def behind (rows : List α) (after : κ) : List α :=
  (rows.filter fun row => after < key row).insertionSort fun a b => key a ≤ key b

variable (key) in
theorem pairwise_behind (h : (rows.map key).Nodup) (after : κ) :
    (behind key rows after).Pairwise fun a b => key a < key b := pairwise_sorted h

theorem mem_behind {after : κ} {row : α} : row ∈ behind key rows after ↔ row ∈ rows ∧ after < key row := by
  unfold behind
  rw [List.mem_insertionSort, List.mem_filter, decide_eq_true_eq]

/-- Behind the last row of a page are the rows that the page leaves. -/
theorem behind_last (h : (rows.map key).Nodup) {after : κ} {n : Nat} {last : α}
    (hlast : ((behind key rows after).take n).getLast? = some last) :
    behind key rows (key last) = (behind key rows after).drop n := by
  have hsorted := pairwise_behind key h after
  have hsplit := List.take_append_drop n (behind key rows after)
  have hmem : last ∈ (behind key rows after).take n := List.mem_of_getLast? hlast
  rw [← hsplit, List.pairwise_append] at hsorted
  obtain ⟨hfront, hback, hcross⟩ := hsorted
  have hbefore : ∀ row ∈ (behind key rows after).take n, key row ≤ key last := by
    intro row hrow
    obtain ⟨front, hfrontEq⟩ := List.getLast?_eq_some_iff.mp hlast
    rw [hfrontEq, List.pairwise_append] at hfront
    rw [hfrontEq, List.mem_append, List.mem_singleton] at hrow
    cases hrow with
    | inl hrow => exact le_of_lt (hfront.2.2 row hrow last (List.mem_singleton.mpr rfl))
    | inr heq => rw [heq]
  have hsame (row : α) : row ∈ behind key rows (key last) ↔ row ∈ (behind key rows after).drop n := by
    have hafter := (mem_behind.mp (List.mem_of_mem_take hmem)).2
    constructor
    · intro hrow
      obtain ⟨hrows, hlt⟩ := mem_behind.mp hrow
      have hin : row ∈ behind key rows after := mem_behind.mpr ⟨hrows, lt_trans hafter hlt⟩
      rw [← hsplit, List.mem_append] at hin
      exact hin.resolve_left fun htake => absurd (hbefore row htake) (not_le_of_gt hlt)
    · intro hrow
      exact mem_behind.mpr ⟨(mem_behind.mp (List.mem_of_mem_drop hrow)).1, hcross last hmem row hrow⟩
  have hpairs := pairwise_behind key h (key last)
  have hperm : (behind key rows (key last)).Perm ((behind key rows after).drop n) :=
    (List.perm_ext_iff_of_nodup (hpairs.imp fun hlt heq => absurd (heq ▸ hlt) (lt_irrefl _))
      (hback.imp fun hlt heq => absurd (heq ▸ hlt) (lt_irrefl _))).mpr hsame
  exact hperm.eq_of_pairwise (fun a b _ _ hab hba => absurd hba (lt_asymm hab)) hpairs hback

end Pages
end Operant.Tables
