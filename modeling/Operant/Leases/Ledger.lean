import Operant.Tables.Rows
import Mathlib.Data.List.Nodup

/-! Leases that are fenced by epochs.

A holder has at most one slot. A lease is taken of a slot under the slot's epoch, and is live until
it is released; the slot keeps the runs of its live leases. The epoch of the slot never decreases,
so a lease that has fallen behind it stays behind. Ids of slots and leases are numbers below `n`. -/
namespace Operant.Leases
open Operant.Tables
variable {P R : Type}

structure Holder (P : Type) where
  id : P
  slot : Option Nat
  epoch : Nat
  permission : Nat

structure Slot (P R : Type) where
  id : Nat
  holder : P
  epoch : Nat
  permission : Nat
  active : List R

structure Lease (R : Type) where
  id : Nat
  run : R
  slot : Nat
  epoch : Nat
  fencing : Nat
  live : Bool

structure Ledger (P R : Type) where
  holders : List (Holder P)
  slots : List (Slot P R)
  leases : List (Lease R)

/-- Holders and slots belong to each other. -/
structure Held (n : Nat) (holders : List (Holder P)) (slots : List (Slot P R)) : Prop where
  holderIds : (holders.map (·.id)).Nodup
  slotIds : (slots.map (·.id)).Nodup
  slotOld : ∀ s ∈ slots, s.id < n
  held : ∀ s ∈ slots, ∃ h ∈ holders, h.id = s.holder ∧ h.slot = some s.id
  holding : ∀ h ∈ holders, ∀ i, h.slot = some i → ∃ s ∈ slots, s.id = i ∧ s.holder = h.id
  /-- A holder is at most one epoch ahead of its slot. -/
  near : ∀ s ∈ slots, ∀ h ∈ holders, h.id = s.holder → h.epoch ≤ s.epoch + 1

/-- Slots know their live leases. -/
structure Marked (n : Nat) (slots : List (Slot P R)) (leases : List (Lease R)) : Prop where
  leaseIds : (leases.map (·.id)).Nodup
  leaseOld : ∀ x ∈ leases, x.id < n ∧ x.slot < n
  /-- A lease is not ahead of its slot. -/
  behind : ∀ s ∈ slots, ∀ x ∈ leases, x.slot = s.id → x.epoch ≤ s.epoch
  /-- A live lease has its slot. -/
  live : ∀ x ∈ leases, x.live = true → ∃ s ∈ slots, s.id = x.slot
  marks : ∀ s ∈ slots, ∀ run, run ∈ s.active ↔ ∃ x ∈ leases, x.live = true ∧ x.slot = s.id ∧ x.run = run
  marksOnce : ∀ s ∈ slots, s.active.Nodup
  once : ∀ x ∈ leases, ∀ y ∈ leases, x.live = true → y.live = true → x.slot = y.slot → x.run = y.run → x = y
  fencing : leases.Pairwise fun x y => x.slot = y.slot → x.fencing < y.fencing

/-- What holds between operations. -/
structure Inv (n : Nat) (l : Ledger P R) : Prop where
  held : Held n l.holders l.slots
  marked : Marked n l.slots l.leases

/-- What an operation does to the ledger, `n` being the next id. -/
inductive Step (n : Nat) (l : Ledger P R) : Ledger P R → Prop where
  | same : Step n l l
  /-- A holder enters. -/
  | enter (p : P) (hnew : ∀ h ∈ l.holders, h.id ≠ p) :
    Step n l { l with holders := l.holders ++ [⟨p, none, 0, 0⟩] }
  /-- A holder gets its slot. -/
  | bind (h : Holder P) (hmem : h ∈ l.holders) (hfree : h.slot = none) (g : Holder P → Holder P)
      (hg : ∀ k ∈ l.holders, (g k).id = k.id ∧ (g k).epoch = k.epoch ∧ (g k).permission = k.permission ∧
        (k.id = h.id → (g k).slot = some n) ∧ (k.id ≠ h.id → (g k).slot = k.slot)) :
    Step n l { l with
      holders := l.holders.map g
      slots := l.slots ++ [⟨n, h.id, h.epoch, h.permission, []⟩] }
  /-- Epochs grow. -/
  | advance (f : Slot P R → Slot P R) (g : Holder P → Holder P)
      (hf : ∀ s ∈ l.slots, (f s).id = s.id ∧ (f s).holder = s.holder ∧ (f s).active = s.active ∧
        s.epoch ≤ (f s).epoch ∧ s.permission ≤ (f s).permission)
      (hg : ∀ h ∈ l.holders, (g h).id = h.id ∧ (g h).slot = h.slot ∧
        h.epoch ≤ (g h).epoch ∧ h.permission ≤ (g h).permission)
      (hnear : ∀ s ∈ l.slots, ∀ h ∈ l.holders, h.id = s.holder → (g h).epoch ≤ (f s).epoch + 1) :
    Step n l { l with holders := l.holders.map g, slots := l.slots.map f }
  /-- A lease is taken of a slot. -/
  | take (s : Slot P R) (hmem : s ∈ l.slots) (f : Slot P R → Slot P R) (x : Lease R)
      (hf : ∀ t ∈ l.slots, (f t).id = t.id ∧ (f t).holder = t.holder ∧ (f t).epoch = t.epoch ∧
        (f t).permission = t.permission ∧ (t.id = s.id → (f t).active = t.active ++ [x.run]) ∧
        (t.id ≠ s.id → (f t).active = t.active))
      (hx : x.id = n ∧ x.slot = s.id ∧ x.epoch = s.epoch ∧ x.live = true)
      (hrun : x.run ∉ s.active) (hfencing : ∀ y ∈ l.leases, y.slot = s.id → y.fencing < x.fencing) :
    Step n l { l with slots := l.slots.map f, leases := l.leases ++ [x] }
  /-- A live lease is released. -/
  | release (x : Lease R) (hmem : x ∈ l.leases) (hlive : x.live = true) (f : Slot P R → Slot P R)
      (e : Lease R → Lease R)
      (hf : ∀ s ∈ l.slots, (f s).id = s.id ∧ (f s).holder = s.holder ∧ (f s).epoch = s.epoch ∧
        (f s).permission = s.permission ∧ (f s).active.Sublist s.active ∧
        ∀ run, run ∈ (f s).active ↔ run ∈ s.active ∧ ¬(s.id = x.slot ∧ run = x.run))
      (he : ∀ y ∈ l.leases, e y = if y.id = x.id then { y with live := false } else y) :
    Step n l { l with slots := l.slots.map f, leases := l.leases.map e }
  /-- The slot of a holder goes, where no live lease is of it. -/
  | remove (p : P) (keeps : Slot P R → Bool) (g : Holder P → Holder P)
      (hkeeps : ∀ s ∈ l.slots, keeps s = true ↔ s.holder ≠ p)
      (hg : ∀ h ∈ l.holders, (g h).id = h.id ∧ (g h).epoch = h.epoch ∧ (g h).permission = h.permission ∧
        (h.id = p → (g h).slot = none) ∧ (h.id ≠ p → (g h).slot = h.slot))
      (hfree : ∀ s ∈ l.slots, s.holder = p → ∀ x ∈ l.leases, x.slot = s.id → x.live = false) :
    Step n l { l with holders := l.holders.map g, slots := l.slots.filter keeps }
  /-- All leases end. A slot with a live lease gets ahead of them. -/
  | recover (f : Slot P R → Slot P R) (g : Holder P → Holder P) (e : Lease R → Lease R)
      (hf : ∀ s ∈ l.slots, (f s).id = s.id ∧ (f s).holder = s.holder ∧ (f s).active = [] ∧
        s.epoch ≤ (f s).epoch ∧ s.permission ≤ (f s).permission)
      (hg : ∀ h ∈ l.holders, (g h).id = h.id ∧ (g h).slot = h.slot ∧
        h.epoch ≤ (g h).epoch ∧ h.permission ≤ (g h).permission)
      (hnear : ∀ s ∈ l.slots, ∀ h ∈ l.holders, h.id = s.holder → (g h).epoch ≤ (f s).epoch + 1)
      (he : ∀ x ∈ l.leases, e x = { x with live := false }) :
    Step n l { holders := l.holders.map g, slots := l.slots.map f, leases := l.leases.map e }

/-! ### Holders and slots -/

section Held
variable {n m : Nat} {holders : List (Holder P)} {slots : List (Slot P R)}

/-- Ids that have not been given yet do no harm. -/
theorem Held.mono (hi : Held n holders slots) (hle : n ≤ m) : Held m holders slots :=
  { hi with slotOld := fun s hs => Nat.lt_of_lt_of_le (hi.slotOld s hs) hle }

/-- Slots with one id are one slot. -/
theorem Held.slot_eq (hi : Held n holders slots) {s t : Slot P R} (hs : s ∈ slots) (ht : t ∈ slots) (h : s.id = t.id) :
    s = t :=
  Tables.eq_of_key hi.slotIds hs ht h

theorem Held.holder_eq (hi : Held n holders slots) {h k : Holder P} (hh : h ∈ holders) (hk : k ∈ holders)
    (hid : h.id = k.id) : h = k :=
  Tables.eq_of_key hi.holderIds hh hk hid

theorem Held.enter (hi : Held n holders slots) {p : P} (hnew : ∀ h ∈ holders, h.id ≠ p) :
    Held n (holders ++ [⟨p, none, 0, 0⟩]) slots where
  holderIds := by
    rw [List.map_append, List.nodup_append]
    refine ⟨hi.holderIds, by simp, ?_⟩
    intro a ha b hb
    obtain ⟨h, hh, rfl⟩ := List.mem_map.mp ha
    rw [List.map_singleton, List.mem_singleton] at hb
    rw [hb]
    exact hnew h hh
  slotIds := hi.slotIds
  slotOld := hi.slotOld
  held s hs := by
    obtain ⟨h, hh, hboth⟩ := hi.held s hs
    exact ⟨h, List.mem_append_left _ hh, hboth⟩
  holding h hh i hslot := by
    cases List.mem_append.mp hh with
    | inl hold => exact hi.holding h hold i hslot
    | inr hlast =>
      rw [List.mem_singleton.mp hlast] at hslot
      exact nomatch hslot
  near s hs h hh hid := by
    cases List.mem_append.mp hh with
    | inl hold => exact hi.near s hs h hold hid
    | inr hlast =>
      rw [List.mem_singleton.mp hlast]
      exact Nat.zero_le _

theorem Held.bind (hi : Held n holders slots) {h : Holder P} (hmem : h ∈ holders) (hfree : h.slot = none)
    {g : Holder P → Holder P}
    (hg : ∀ k ∈ holders, (g k).id = k.id ∧ (g k).epoch = k.epoch ∧ (g k).permission = k.permission ∧
      (k.id = h.id → (g k).slot = some n) ∧ (k.id ≠ h.id → (g k).slot = k.slot)) :
    Held (n + 1) (holders.map g) (slots ++ [⟨n, h.id, h.epoch, h.permission, []⟩]) where
  holderIds := by
    rw [map_ids fun k hk => (hg k hk).1]
    exact hi.holderIds
  slotIds := by
    rw [List.map_append, List.nodup_append]
    refine ⟨hi.slotIds, by simp, ?_⟩
    intro a ha b hb
    obtain ⟨s, hs, rfl⟩ := List.mem_map.mp ha
    rw [List.map_singleton, List.mem_singleton] at hb
    rw [hb]
    exact Nat.ne_of_lt (hi.slotOld s hs)
  slotOld s hs := by
    cases List.mem_append.mp hs with
    | inl hold => exact Nat.lt_succ_of_lt (hi.slotOld s hold)
    | inr hlast =>
      rw [List.mem_singleton.mp hlast]
      exact Nat.lt_succ_self n
  held s hs := by
    cases List.mem_append.mp hs with
    | inl hold =>
      obtain ⟨k, hk, hid, hslot⟩ := hi.held s hold
      have hne : k.id ≠ h.id := by
        intro heq
        rw [hi.holder_eq hk hmem heq, hfree] at hslot
        exact nomatch hslot
      exact ⟨g k, List.mem_map_of_mem hk, (hg k hk).1.trans hid, ((hg k hk).2.2.2.2 hne).trans hslot⟩
    | inr hlast =>
      rw [List.mem_singleton.mp hlast]
      exact ⟨g h, List.mem_map_of_mem hmem, (hg h hmem).1, (hg h hmem).2.2.2.1 rfl⟩
  holding k' hk' i hslot := by
    obtain ⟨k, hk, rfl⟩ := List.mem_map.mp hk'
    by_cases heq : k.id = h.id
    · rw [(hg k hk).2.2.2.1 heq, Option.some.injEq] at hslot
      exact ⟨_, List.mem_append_right _ (List.mem_singleton.mpr rfl), hslot, by rw [(hg k hk).1, heq]⟩
    · rw [(hg k hk).2.2.2.2 heq] at hslot
      obtain ⟨s, hs, hid, hholder⟩ := hi.holding k hk i hslot
      exact ⟨s, List.mem_append_left _ hs, hid, by rw [(hg k hk).1, hholder]⟩
  near s hs k' hk' hid := by
    obtain ⟨k, hk, rfl⟩ := List.mem_map.mp hk'
    rw [(hg k hk).1] at hid
    rw [(hg k hk).2.1]
    cases List.mem_append.mp hs with
    | inl hold => exact hi.near s hold k hk hid
    | inr hlast =>
      rw [List.mem_singleton.mp hlast] at hid ⊢
      rw [hi.holder_eq hk hmem hid]
      exact Nat.le_succ _

/-- Holders and slots keep their ids. -/
theorem Held.map (hi : Held n holders slots) {f : Slot P R → Slot P R} {g : Holder P → Holder P}
    (hf : ∀ s ∈ slots, (f s).id = s.id ∧ (f s).holder = s.holder)
    (hg : ∀ h ∈ holders, (g h).id = h.id ∧ (g h).slot = h.slot)
    (hnear : ∀ s ∈ slots, ∀ h ∈ holders, h.id = s.holder → (g h).epoch ≤ (f s).epoch + 1) :
    Held n (holders.map g) (slots.map f) where
  holderIds := by
    rw [map_ids fun k hk => (hg k hk).1]
    exact hi.holderIds
  slotIds := by
    rw [map_ids fun s hs => (hf s hs).1]
    exact hi.slotIds
  slotOld s' hs' := by
    obtain ⟨s, hs, rfl⟩ := List.mem_map.mp hs'
    rw [(hf s hs).1]
    exact hi.slotOld s hs
  held s' hs' := by
    obtain ⟨s, hs, rfl⟩ := List.mem_map.mp hs'
    obtain ⟨h, hh, hid, hslot⟩ := hi.held s hs
    refine ⟨g h, List.mem_map_of_mem hh, ?_, ?_⟩
    · rw [(hg h hh).1, hid, (hf s hs).2]
    · rw [(hg h hh).2, hslot, (hf s hs).1]
  holding h' hh' i hslot := by
    obtain ⟨h, hh, rfl⟩ := List.mem_map.mp hh'
    rw [(hg h hh).2] at hslot
    obtain ⟨s, hs, hid, hholder⟩ := hi.holding h hh i hslot
    refine ⟨f s, List.mem_map_of_mem hs, ?_, ?_⟩
    · rw [(hf s hs).1, hid]
    · rw [(hf s hs).2, hholder, (hg h hh).1]
  near s' hs' h' hh' hid := by
    obtain ⟨s, hs, rfl⟩ := List.mem_map.mp hs'
    obtain ⟨h, hh, rfl⟩ := List.mem_map.mp hh'
    rw [(hg h hh).1, (hf s hs).2] at hid
    exact hnear s hs h hh hid

/-- Slots that keep their epochs as well. -/
theorem Held.mapSlots (hi : Held n holders slots) {f : Slot P R → Slot P R}
    (hf : ∀ s ∈ slots, (f s).id = s.id ∧ (f s).holder = s.holder ∧ (f s).epoch = s.epoch) :
    Held n holders (slots.map f) := by
  have h := hi.map (f := f) (g := id) (fun s hs => ⟨(hf s hs).1, (hf s hs).2.1⟩) (fun h _ => ⟨rfl, rfl⟩)
    (fun s hs h hh hid => by
      rw [(hf s hs).2.2]
      exact hi.near s hs h hh hid)
  rwa [List.map_id] at h

theorem Held.remove (hi : Held n holders slots) {p : P} {keeps : Slot P R → Bool} {g : Holder P → Holder P}
    (hkeeps : ∀ s ∈ slots, keeps s = true ↔ s.holder ≠ p)
    (hg : ∀ h ∈ holders, (g h).id = h.id ∧ (g h).epoch = h.epoch ∧ (g h).permission = h.permission ∧
      (h.id = p → (g h).slot = none) ∧ (h.id ≠ p → (g h).slot = h.slot)) :
    Held n (holders.map g) (slots.filter keeps) where
  holderIds := by
    rw [map_ids fun k hk => (hg k hk).1]
    exact hi.holderIds
  slotIds := hi.slotIds.sublist (List.filter_sublist.map _)
  slotOld s hs := hi.slotOld s (List.mem_of_mem_filter hs)
  held s hs := by
    obtain ⟨hmem, hkept⟩ := List.mem_filter.mp hs
    obtain ⟨h, hh, hid, hslot⟩ := hi.held s hmem
    have hne : h.id ≠ p := by
      rw [hid]
      exact (hkeeps s hmem).mp hkept
    exact ⟨g h, List.mem_map_of_mem hh, (hg h hh).1.trans hid, ((hg h hh).2.2.2.2 hne).trans hslot⟩
  holding h' hh' i hslot := by
    obtain ⟨h, hh, rfl⟩ := List.mem_map.mp hh'
    by_cases hp : h.id = p
    · rw [(hg h hh).2.2.2.1 hp] at hslot
      exact nomatch hslot
    · rw [(hg h hh).2.2.2.2 hp] at hslot
      obtain ⟨s, hs, hid, hholder⟩ := hi.holding h hh i hslot
      have hkept : keeps s = true := (hkeeps s hs).mpr (by rwa [hholder])
      exact ⟨s, List.mem_filter.mpr ⟨hs, hkept⟩, hid, by rw [(hg h hh).1, hholder]⟩
  near s hs h' hh' hid := by
    obtain ⟨h, hh, rfl⟩ := List.mem_map.mp hh'
    rw [(hg h hh).1] at hid
    rw [(hg h hh).2.1]
    exact hi.near s (List.mem_of_mem_filter hs) h hh hid

end Held

/-! ### Slots and leases -/

section Marked
variable {n m : Nat} {slots : List (Slot P R)} {leases : List (Lease R)}

theorem Marked.mono (hi : Marked n slots leases) (hle : n ≤ m) : Marked m slots leases :=
  { hi with
    leaseOld := fun x hx =>
      ⟨Nat.lt_of_lt_of_le (hi.leaseOld x hx).1 hle, Nat.lt_of_lt_of_le (hi.leaseOld x hx).2 hle⟩ }

theorem Marked.lease_eq (hi : Marked n slots leases) {x y : Lease R} (hx : x ∈ leases) (hy : y ∈ leases)
    (h : x.id = y.id) : x = y :=
  Tables.eq_of_key hi.leaseIds hx hy h

/-- A new slot has no leases. -/
theorem Marked.bind (hi : Marked n slots leases) {s : Slot P R} (hid : s.id = n) (hactive : s.active = []) :
    Marked n (slots ++ [s]) leases :=
  { hi with
    behind := fun t ht x hx hslot => by
      cases List.mem_append.mp ht with
      | inl hold => exact hi.behind t hold x hx hslot
      | inr hlast =>
        rw [List.mem_singleton.mp hlast, hid] at hslot
        exact absurd hslot (Nat.ne_of_lt (hi.leaseOld x hx).2)
    live := fun x hx hlive => by
      obtain ⟨t, ht, hslot⟩ := hi.live x hx hlive
      exact ⟨t, List.mem_append_left _ ht, hslot⟩
    marks := fun t ht run => by
      cases List.mem_append.mp ht with
      | inl hold => exact hi.marks t hold run
      | inr hlast =>
        rw [List.mem_singleton.mp hlast, hactive]
        constructor
        · exact fun h => absurd h List.not_mem_nil
        · intro h
          obtain ⟨x, hx, -, hslot, -⟩ := h
          rw [hid] at hslot
          exact absurd hslot (Nat.ne_of_lt (hi.leaseOld x hx).2)
    marksOnce := fun t ht => by
      cases List.mem_append.mp ht with
      | inl hold => exact hi.marksOnce t hold
      | inr hlast =>
        rw [List.mem_singleton.mp hlast, hactive]
        exact List.nodup_nil }

/-- Slots keep their ids and their runs; their epochs grow. -/
theorem Marked.mapSlots (hi : Marked n slots leases) {f : Slot P R → Slot P R}
    (hf : ∀ s ∈ slots, (f s).id = s.id ∧ (f s).active = s.active ∧ s.epoch ≤ (f s).epoch) :
    Marked n (slots.map f) leases :=
  { hi with
    behind := fun s' hs' x hx hslot => by
      obtain ⟨s, hs, rfl⟩ := List.mem_map.mp hs'
      rw [(hf s hs).1] at hslot
      exact Nat.le_trans (hi.behind s hs x hx hslot) (hf s hs).2.2
    live := fun x hx hlive => by
      obtain ⟨s, hs, hid⟩ := hi.live x hx hlive
      exact ⟨f s, List.mem_map_of_mem hs, (hf s hs).1.trans hid⟩
    marks := fun s' hs' run => by
      obtain ⟨s, hs, rfl⟩ := List.mem_map.mp hs'
      rw [(hf s hs).2.1, (hf s hs).1]
      exact hi.marks s hs run
    marksOnce := fun s' hs' => by
      obtain ⟨s, hs, rfl⟩ := List.mem_map.mp hs'
      rw [(hf s hs).2.1]
      exact hi.marksOnce s hs }

theorem Marked.filter (hi : Marked n slots leases) {keeps : Slot P R → Bool}
    (hfree : ∀ s ∈ slots, keeps s = false → ∀ x ∈ leases, x.slot = s.id → x.live = false) :
    Marked n (slots.filter keeps) leases :=
  { hi with
    behind := fun s hs => hi.behind s (List.mem_of_mem_filter hs)
    live := fun x hx hlive => by
      obtain ⟨s, hs, hid⟩ := hi.live x hx hlive
      refine ⟨s, List.mem_filter.mpr ⟨hs, ?_⟩, hid⟩
      cases hkeeps : keeps s with
      | true => rfl
      | false =>
        rw [hfree s hs hkeeps x hx hid.symm] at hlive
        cases hlive
    marks := fun s hs => hi.marks s (List.mem_of_mem_filter hs)
    marksOnce := fun s hs => hi.marksOnce s (List.mem_of_mem_filter hs) }

theorem Marked.take (hi : Marked n slots leases) {s : Slot P R} (hmem : s ∈ slots) {f : Slot P R → Slot P R}
    {x : Lease R} (hold : s.id < n)
    (hf : ∀ t ∈ slots, (f t).id = t.id ∧ (f t).epoch = t.epoch ∧
      (t.id = s.id → (f t).active = t.active ++ [x.run]) ∧ (t.id ≠ s.id → (f t).active = t.active))
    (hsame : ∀ t ∈ slots, t.id = s.id → t = s)
    (hx : x.id = n ∧ x.slot = s.id ∧ x.epoch = s.epoch ∧ x.live = true)
    (hrun : x.run ∉ s.active) (hfencing : ∀ y ∈ leases, y.slot = s.id → y.fencing < x.fencing) :
    Marked (n + 1) (slots.map f) (leases ++ [x]) where
  leaseIds := by
    rw [List.map_append, List.nodup_append]
    refine ⟨hi.leaseIds, by simp, ?_⟩
    intro a ha b hb
    obtain ⟨y, hy, rfl⟩ := List.mem_map.mp ha
    rw [List.map_singleton, List.mem_singleton] at hb
    rw [hb, hx.1]
    exact Nat.ne_of_lt (hi.leaseOld y hy).1
  leaseOld y hy := by
    cases List.mem_append.mp hy with
    | inl hyold => exact ⟨Nat.lt_succ_of_lt (hi.leaseOld y hyold).1, Nat.lt_succ_of_lt (hi.leaseOld y hyold).2⟩
    | inr hlast =>
      rw [List.mem_singleton.mp hlast, hx.1, hx.2.1]
      exact ⟨Nat.lt_succ_self n, Nat.lt_succ_of_lt hold⟩
  behind t' ht' y hy hslot := by
    obtain ⟨t, ht, rfl⟩ := List.mem_map.mp ht'
    rw [(hf t ht).1] at hslot
    rw [(hf t ht).2.1]
    cases List.mem_append.mp hy with
    | inl hyold => exact hi.behind t ht y hyold hslot
    | inr hlast =>
      rw [List.mem_singleton.mp hlast, hx.2.1] at hslot
      have hepoch : t.epoch = s.epoch := congrArg Slot.epoch (hsame t ht hslot.symm)
      rw [List.mem_singleton.mp hlast, hx.2.2.1]
      omega
  live y hy hlive := by
    cases List.mem_append.mp hy with
    | inl hyold =>
      obtain ⟨t, ht, hid⟩ := hi.live y hyold hlive
      exact ⟨f t, List.mem_map_of_mem ht, (hf t ht).1.trans hid⟩
    | inr hlast =>
      rw [List.mem_singleton.mp hlast, hx.2.1]
      exact ⟨f s, List.mem_map_of_mem hmem, (hf s hmem).1⟩
  marks t' ht' run := by
    obtain ⟨t, ht, rfl⟩ := List.mem_map.mp ht'
    have hbefore := hi.marks t ht run
    rw [(hf t ht).1]
    by_cases hid : t.id = s.id
    · rw [(hf t ht).2.2.1 hid, List.mem_append, List.mem_singleton, hbefore]
      constructor
      · intro h
        cases h with
        | inl h =>
          obtain ⟨y, hy, hboth⟩ := h
          exact ⟨y, List.mem_append_left _ hy, hboth⟩
        | inr h => exact ⟨x, List.mem_append_right _ (List.mem_singleton.mpr rfl), hx.2.2.2, hx.2.1.trans hid.symm, h.symm⟩
      · intro h
        obtain ⟨y, hy, hboth⟩ := h
        cases List.mem_append.mp hy with
        | inl hyold => exact .inl ⟨y, hyold, hboth⟩
        | inr hlast =>
          rw [List.mem_singleton.mp hlast] at hboth
          exact .inr hboth.2.2.symm
    · rw [(hf t ht).2.2.2 hid, hbefore]
      constructor
      · intro h
        obtain ⟨y, hy, hboth⟩ := h
        exact ⟨y, List.mem_append_left _ hy, hboth⟩
      · intro h
        obtain ⟨y, hy, hboth⟩ := h
        cases List.mem_append.mp hy with
        | inl hyold => exact ⟨y, hyold, hboth⟩
        | inr hlast =>
          rw [List.mem_singleton.mp hlast, hx.2.1] at hboth
          exact absurd hboth.2.1.symm hid
  marksOnce t' ht' := by
    obtain ⟨t, ht, rfl⟩ := List.mem_map.mp ht'
    by_cases hid : t.id = s.id
    · rw [(hf t ht).2.2.1 hid, List.nodup_append]
      refine ⟨hi.marksOnce t ht, by simp, ?_⟩
      intro a ha b hb hab
      rw [List.mem_singleton.mp hb] at hab
      rw [hab, hsame t ht hid] at ha
      exact hrun ha
    · rw [(hf t ht).2.2.2 hid]
      exact hi.marksOnce t ht
  once y hy z hz hylive hzlive hslot hsame' := by
    -- An older live lease of the same run would be marked.
    have hnone : ∀ y ∈ leases, y.live = true → y.slot = x.slot → y.run ≠ x.run := by
      intro y hy hlive hslot heq
      exact hrun ((hi.marks s hmem x.run).mpr ⟨y, hy, hlive, hslot.trans hx.2.1, heq⟩)
    cases List.mem_append.mp hy with
    | inl hyold =>
      cases List.mem_append.mp hz with
      | inl hzold => exact hi.once y hyold z hzold hylive hzlive hslot hsame'
      | inr hzlast =>
        rw [List.mem_singleton.mp hzlast] at hslot hsame'
        exact absurd hsame' (hnone y hyold hylive hslot)
    | inr hylast =>
      cases List.mem_append.mp hz with
      | inl hzold =>
        rw [List.mem_singleton.mp hylast] at hslot hsame'
        exact absurd hsame'.symm (hnone z hzold hzlive hslot.symm)
      | inr hzlast => rw [List.mem_singleton.mp hylast, List.mem_singleton.mp hzlast]
  fencing := by
    rw [List.pairwise_append]
    refine ⟨hi.fencing, List.pairwise_singleton _ _, ?_⟩
    intro y hy z hz hslot
    rw [List.mem_singleton.mp hz] at hslot ⊢
    exact hfencing y hy (hslot.trans hx.2.1)

/-- Leases end, and only their marks go. -/
theorem Marked.finish (hi : Marked n slots leases) {f : Slot P R → Slot P R} {e : Lease R → Lease R}
    (hf : ∀ s ∈ slots, (f s).id = s.id ∧ s.epoch ≤ (f s).epoch ∧ (f s).active.Sublist s.active)
    (he : ∀ x ∈ leases, e x = { x with live := (e x).live } ∧ ((e x).live = true → x.live = true))
    (hmarks : ∀ s ∈ slots, ∀ x ∈ leases, x.live = true → x.slot = s.id →
      (x.run ∈ (f s).active ↔ (e x).live = true)) :
    Marked n (slots.map f) (leases.map e) := by
  have hid : ∀ x ∈ leases, (e x).id = x.id := fun x hx => by rw [(he x hx).1]
  have hslot : ∀ x ∈ leases, (e x).slot = x.slot := fun x hx => by rw [(he x hx).1]
  have hrun : ∀ x ∈ leases, (e x).run = x.run := fun x hx => by rw [(he x hx).1]
  have hepoch : ∀ x ∈ leases, (e x).epoch = x.epoch := fun x hx => by rw [(he x hx).1]
  have hfencing : ∀ x ∈ leases, (e x).fencing = x.fencing := fun x hx => by rw [(he x hx).1]
  constructor
  case leaseIds =>
    rw [map_ids hid]
    exact hi.leaseIds
  case leaseOld =>
    intro x' hx'
    obtain ⟨x, hx, rfl⟩ := List.mem_map.mp hx'
    rw [hid x hx, hslot x hx]
    exact hi.leaseOld x hx
  case behind =>
    intro s' hs' x' hx' heq
    obtain ⟨s, hs, rfl⟩ := List.mem_map.mp hs'
    obtain ⟨x, hx, rfl⟩ := List.mem_map.mp hx'
    rw [hslot x hx, (hf s hs).1] at heq
    rw [hepoch x hx]
    exact Nat.le_trans (hi.behind s hs x hx heq) (hf s hs).2.1
  case live =>
    intro x' hx' hlive
    obtain ⟨x, hx, rfl⟩ := List.mem_map.mp hx'
    obtain ⟨s, hs, heq⟩ := hi.live x hx ((he x hx).2 hlive)
    refine ⟨f s, List.mem_map_of_mem hs, ?_⟩
    rw [(hf s hs).1, hslot x hx, heq]
  case marks =>
    intro s' hs' run
    obtain ⟨s, hs, rfl⟩ := List.mem_map.mp hs'
    rw [(hf s hs).1]
    constructor
    · intro hmem
      obtain ⟨x, hx, hlive, heq, rfl⟩ := (hi.marks s hs run).mp ((hf s hs).2.2.subset hmem)
      refine ⟨e x, List.mem_map_of_mem hx, (hmarks s hs x hx hlive heq).mp hmem, ?_, hrun x hx⟩
      rw [hslot x hx, heq]
    · intro h
      obtain ⟨x', hx', hlive, heq, hsame⟩ := h
      obtain ⟨x, hx, rfl⟩ := List.mem_map.mp hx'
      rw [hslot x hx] at heq
      rw [hrun x hx] at hsame
      rw [← hsame]
      exact (hmarks s hs x hx ((he x hx).2 hlive) heq).mpr hlive
  case marksOnce =>
    intro s' hs'
    obtain ⟨s, hs, rfl⟩ := List.mem_map.mp hs'
    exact (hi.marksOnce s hs).sublist (hf s hs).2.2
  case once =>
    intro x' hx' y' hy' hxlive hylive heq hsame
    obtain ⟨x, hx, rfl⟩ := List.mem_map.mp hx'
    obtain ⟨y, hy, rfl⟩ := List.mem_map.mp hy'
    rw [hslot x hx, hslot y hy] at heq
    rw [hrun x hx, hrun y hy] at hsame
    rw [hi.once x hx y hy ((he x hx).2 hxlive) ((he y hy).2 hylive) heq hsame]
  case fencing =>
    rw [List.pairwise_map]
    apply hi.fencing.imp_of_mem
    intro x y hx hy hxy
    rw [hslot x hx, hslot y hy, hfencing x hx, hfencing y hy]
    exact hxy

end Marked

/-! ### Steps -/

variable {n : Nat} {l l' : Ledger P R}

theorem Inv.of_empty : Inv n (⟨[], [], []⟩ : Ledger P R) := by
  constructor <;> constructor <;> simp

theorem Inv.mono {m : Nat} (hi : Inv n l) (hle : n ≤ m) : Inv m l :=
  ⟨hi.held.mono hle, hi.marked.mono hle⟩

theorem Step.inv (h : Step n l l') (hi : Inv n l) : Inv (n + 1) l' := by
  have hn := Nat.le_succ n
  cases h with
  | same => exact hi.mono hn
  | enter p hnew => exact ⟨(hi.held.enter hnew).mono hn, hi.marked.mono hn⟩
  | bind h hmem hfree g hg => exact ⟨hi.held.bind hmem hfree hg, (hi.marked.bind rfl rfl).mono hn⟩
  | advance f g hf hg hnear =>
    constructor
    · apply Held.mono _ hn
      exact hi.held.map (fun s hs => ⟨(hf s hs).1, (hf s hs).2.1⟩) (fun h hh => ⟨(hg h hh).1, (hg h hh).2.1⟩) hnear
    · apply Marked.mono _ hn
      exact hi.marked.mapSlots fun s hs => ⟨(hf s hs).1, (hf s hs).2.2.1, (hf s hs).2.2.2.1⟩
  | take s hmem f x hf hx hrun hfencing =>
    constructor
    · apply Held.mono _ hn
      exact hi.held.mapSlots fun t ht => ⟨(hf t ht).1, (hf t ht).2.1, (hf t ht).2.2.1⟩
    · exact hi.marked.take hmem (hi.held.slotOld s hmem)
        (fun t ht => ⟨(hf t ht).1, (hf t ht).2.2.1, (hf t ht).2.2.2.2⟩)
        (fun t ht => hi.held.slot_eq ht hmem) hx hrun hfencing
  | release x hmem hlive f e hf he =>
    constructor
    · apply Held.mono _ hn
      exact hi.held.mapSlots fun t ht => ⟨(hf t ht).1, (hf t ht).2.1, (hf t ht).2.2.1⟩
    · apply Marked.mono _ hn
      apply hi.marked.finish (fun s hs => ⟨(hf s hs).1, Nat.le_of_eq (hf s hs).2.2.1.symm, (hf s hs).2.2.2.2.1⟩)
      · intro y hy
        rw [he y hy]
        split
        · exact ⟨rfl, fun h => nomatch h⟩
        · exact ⟨rfl, id⟩
      · intro s hs y hy hylive hslot
        have hmarked := (hi.marked.marks s hs y.run).mpr ⟨y, hy, hylive, hslot, rfl⟩
        rw [(hf s hs).2.2.2.2.2 y.run, he y hy]
        by_cases hid : y.id = x.id
        · have heq := hi.marked.lease_eq hy hmem hid
          rw [if_pos hid]
          constructor
          · intro h
            exact absurd ⟨by rw [← hslot, heq], by rw [heq]⟩ h.2
          · exact fun h => nomatch h
        · rw [if_neg hid]
          refine ⟨fun _ => hylive, fun _ => ⟨hmarked, fun hboth => hid ?_⟩⟩
          rw [hi.marked.once y hy x hmem hylive hlive (hslot.trans hboth.1) hboth.2]
  | remove p keeps g hkeeps hg hfree =>
    constructor
    · exact (hi.held.remove hkeeps hg).mono hn
    · apply Marked.mono _ hn
      apply hi.marked.filter
      intro s hs hgone
      apply hfree s hs
      by_contra hp
      rw [(hkeeps s hs).mpr hp] at hgone
      exact nomatch hgone
  | recover f g e hf hg hnear he =>
    constructor
    · apply Held.mono _ hn
      exact hi.held.map (fun s hs => ⟨(hf s hs).1, (hf s hs).2.1⟩) (fun h hh => ⟨(hg h hh).1, (hg h hh).2.1⟩) hnear
    · apply Marked.mono _ hn
      apply hi.marked.finish
      · intro s hs
        rw [(hf s hs).2.2.1]
        exact ⟨(hf s hs).1, (hf s hs).2.2.2.1, List.nil_sublist _⟩
      · intro x hx
        rw [he x hx]
        exact ⟨rfl, fun h => nomatch h⟩
      · intro s hs x hx _ _
        rw [(hf s hs).2.2.1, he x hx]
        simp

/-! ### What comes later -/

/-- What has become of a ledger, whose ids were below `n`. -/
structure Later (n : Nat) (l l' : Ledger P R) : Prop where
  /-- Holders stay, and their epochs do not decrease. -/
  holders : ∀ h ∈ l.holders, ∃ h' ∈ l'.holders, h'.id = h.id ∧ h.epoch ≤ h'.epoch ∧ h.permission ≤ h'.permission
  /-- So do slots, until they go. -/
  slots : ∀ s' ∈ l'.slots, s'.id < n → ∃ s ∈ l.slots, s.id = s'.id ∧ s.epoch ≤ s'.epoch ∧ s.permission ≤ s'.permission
  /-- Leases stay, and do not come to life again. -/
  leases : ∀ x ∈ l.leases, ∃ x' ∈ l'.leases, x'.id = x.id ∧ x'.slot = x.slot ∧ x'.epoch = x.epoch ∧
    (x'.live = true → x.live = true)

theorem Later.refl (n : Nat) (l : Ledger P R) : Later n l l where
  holders h hh := ⟨h, hh, rfl, Nat.le_refl _, Nat.le_refl _⟩
  slots s hs _ := ⟨s, hs, rfl, Nat.le_refl _, Nat.le_refl _⟩
  leases x hx := ⟨x, hx, rfl, rfl, rfl, id⟩

theorem Later.trans {m : Nat} {l'' : Ledger P R} (h : Later n l l') (h' : Later m l' l'') (hle : n ≤ m) :
    Later n l l'' where
  holders a ha := by
    obtain ⟨b, hb, hid, hepoch, hpermission⟩ := h.holders a ha
    obtain ⟨c, hc, hid', hepoch', hpermission'⟩ := h'.holders b hb
    exact ⟨c, hc, hid'.trans hid, Nat.le_trans hepoch hepoch', Nat.le_trans hpermission hpermission'⟩
  slots c hc hold := by
    obtain ⟨b, hb, hid, hepoch, hpermission⟩ := h'.slots c hc (Nat.lt_of_lt_of_le hold hle)
    obtain ⟨a, ha, hid', hepoch', hpermission'⟩ := h.slots b hb (by rwa [hid])
    exact ⟨a, ha, hid'.trans hid, Nat.le_trans hepoch' hepoch, Nat.le_trans hpermission' hpermission⟩
  leases a ha := by
    obtain ⟨b, hb, hid, hslot, hepoch, hlive⟩ := h.leases a ha
    obtain ⟨c, hc, hid', hslot', hepoch', hlive'⟩ := h'.leases b hb
    exact ⟨c, hc, hid'.trans hid, hslot'.trans hslot, hepoch'.trans hepoch, fun h => hlive (hlive' h)⟩

theorem Step.later (h : Step n l l') : Later n l l' := by
  have hsame := Later.refl n l
  cases h with
  | same => exact hsame
  | enter p hnew =>
    exact ⟨fun h hh => ⟨h, List.mem_append_left _ hh, rfl, Nat.le_refl _, Nat.le_refl _⟩, hsame.slots, hsame.leases⟩
  | bind h hmem hfree g hg =>
    refine ⟨fun k hk => ⟨g k, List.mem_map_of_mem hk, (hg k hk).1, Nat.le_of_eq (hg k hk).2.1.symm, Nat.le_of_eq (hg k hk).2.2.1.symm⟩, ?_,
      hsame.leases⟩
    intro s hs hold
    cases List.mem_append.mp hs with
    | inl hmem => exact hsame.slots s hmem hold
    | inr hlast =>
      rw [List.mem_singleton.mp hlast] at hold
      exact absurd hold (Nat.lt_irrefl n)
  | advance f g hf hg hnear =>
    refine ⟨fun h hh => ⟨g h, List.mem_map_of_mem hh, (hg h hh).1, (hg h hh).2.2⟩, ?_, hsame.leases⟩
    intro s' hs' _
    obtain ⟨s, hs, rfl⟩ := List.mem_map.mp hs'
    exact ⟨s, hs, (hf s hs).1.symm, (hf s hs).2.2.2⟩
  | take s hmem f x hf hx hrun hfencing =>
    refine ⟨hsame.holders, ?_, fun y hy => ⟨y, List.mem_append_left _ hy, rfl, rfl, rfl, id⟩⟩
    intro t' ht' _
    obtain ⟨t, ht, rfl⟩ := List.mem_map.mp ht'
    exact ⟨t, ht, (hf t ht).1.symm, Nat.le_of_eq (hf t ht).2.2.1.symm, Nat.le_of_eq (hf t ht).2.2.2.1.symm⟩
  | release x hmem hlive f e hf he =>
    refine ⟨hsame.holders, ?_, ?_⟩
    · intro t' ht' _
      obtain ⟨t, ht, rfl⟩ := List.mem_map.mp ht'
      exact ⟨t, ht, (hf t ht).1.symm, Nat.le_of_eq (hf t ht).2.2.1.symm, Nat.le_of_eq (hf t ht).2.2.2.1.symm⟩
    · intro y hy
      refine ⟨e y, List.mem_map_of_mem hy, ?_⟩
      rw [he y hy]
      split
      · exact ⟨rfl, rfl, rfl, fun h => nomatch h⟩
      · exact ⟨rfl, rfl, rfl, id⟩
  | remove p keeps g hkeeps hg hfree =>
    refine ⟨fun h hh => ⟨g h, List.mem_map_of_mem hh, (hg h hh).1, Nat.le_of_eq (hg h hh).2.1.symm, Nat.le_of_eq (hg h hh).2.2.1.symm⟩, ?_,
      hsame.leases⟩
    intro s hs hold
    exact hsame.slots s (List.mem_of_mem_filter hs) hold
  | recover f g e hf hg hnear he =>
    refine ⟨fun h hh => ⟨g h, List.mem_map_of_mem hh, (hg h hh).1, (hg h hh).2.2⟩, ?_, ?_⟩
    · intro s' hs' _
      obtain ⟨s, hs, rfl⟩ := List.mem_map.mp hs'
      exact ⟨s, hs, (hf s hs).1.symm, (hf s hs).2.2.2⟩
    · intro x hx
      refine ⟨e x, List.mem_map_of_mem hx, ?_⟩
      rw [he x hx]
      exact ⟨rfl, rfl, rfl, fun h => nomatch h⟩

/-- The lease is ended, or its slot is ahead of it or gone. -/
def Dead (l : Ledger P R) (i slot epoch : Nat) : Prop :=
  ∀ x ∈ l.leases, x.id = i → x.live = true → ∀ s ∈ l.slots, s.id = slot → epoch < s.epoch

/-- What is dead stays so. -/
theorem Later.dead {x : Lease R} (h : Later n l l') (hi : Inv n l) (hids : (l'.leases.map (·.id)).Nodup)
    (hx : x ∈ l.leases) (hdead : Dead l x.id x.slot x.epoch) : Dead l' x.id x.slot x.epoch := by
  intro y hy hid hlive s' hs' hslot
  obtain ⟨x', hx', hid', -, -, hback⟩ := h.leases x hx
  have heq : y = x' := Tables.eq_of_key hids hy hx' (hid.trans hid'.symm)
  rw [heq] at hlive
  have hold : s'.id < n := by
    rw [hslot]
    exact (hi.marked.leaseOld x hx).2
  obtain ⟨s, hs, hsid, hle, -⟩ := h.slots s' hs' hold
  have hlt := hdead x hx rfl (hback hlive) s hs (hsid.trans hslot)
  omega

end Operant.Leases
