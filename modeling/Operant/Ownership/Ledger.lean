import Operant.Tables.Rows
import Mathlib.Data.List.Nodup

/-! Items that are owned by holders.

A holder has one item, and writes it only while the item names it. Nothing is tied to a holder that
is gone, and it comes back only by leaving once more. An item that was lost is not owned again. -/
namespace Operant.Ownership
open Operant.Tables
variable {P D : Type}

inductive Phase where
  | idle
  | writing
  | gone
  deriving DecidableEq

inductive Standing where
  | owned
  | kept
  | going
  | gone
  deriving DecidableEq

structure Holder (P D : Type) where
  id : P
  item : D
  phase : Phase

structure Item (P D : Type) where
  id : D
  owner : Option P
  standing : Standing

structure Ledger (P D : Type) where
  holders : List (Holder P D)
  items : List (Item P D)
  /-- The holders that something is tied to. -/
  tied : List P

/-- What holds between operations, where the items in `lost` were gone at some time. -/
structure Inv (lost : List D) (l : Ledger P D) : Prop where
  holderIds : (l.holders.map (·.id)).Nodup
  itemIds : (l.items.map (·.id)).Nodup
  /-- The item of a writer names it. -/
  writes : ∀ h ∈ l.holders, h.phase = .writing → ⟨h.item, some h.id, .owned⟩ ∈ l.items
  untied : ∀ h ∈ l.holders, h.phase = .gone → h.id ∉ l.tied
  unowned : ∀ x ∈ l.items, x.standing = .gone → x.owner = none
  lost : ∀ d ∈ lost, ∃ x ∈ l.items, x.id = d ∧ x.owner = none ∧ (x.standing = .going ∨ x.standing = .gone)

/-- What an operation does; it names the holder that leaves by it, if one does. -/
inductive Step (lost : List D) (l : Ledger P D) : Option P → Ledger P D → Prop where
  /-- Holders that are not gone come to rest, or begin to write what names them. -/
  | move (g : Holder P D → Holder P D) (tied : List P)
      (hg : ∀ h ∈ l.holders, (g h).id = h.id ∧ (g h).item = h.item ∧
        ((g h).phase = h.phase ∨ h.phase ≠ .gone ∧
          ((g h).phase = .idle ∨ (g h).phase = .writing ∧ ⟨h.item, some h.id, .owned⟩ ∈ l.items)))
      (htied : ∀ p ∈ tied, p ∈ l.tied ∨ ∀ h ∈ l.holders, h.id = p → h.phase ≠ .gone) :
    Step lost l none { l with holders := l.holders.map g, tied := tied }
  /-- A holder enters, with an item that is new or was kept. -/
  | enter (p : P) (d : D) (keeps : Item P D → Bool) (hnew : ∀ h ∈ l.holders, h.id ≠ p)
      (hkeeps : ∀ x ∈ l.items, keeps x = true ↔ x.id ≠ d)
      (hfree : ∀ x ∈ l.items, x.id = d → x.standing = .kept) :
    Step lost l none { l with
      holders := l.holders ++ [⟨p, d, .idle⟩]
      items := l.items.filter keeps ++ [⟨d, some p, .owned⟩] }
  /-- A holder at rest gets another item, and its own is kept. -/
  | give (k : Holder P D) (hmem : k ∈ l.holders) (hidle : k.phase = .idle) (d : D) (hlost : d ∉ lost)
      (hfree : ∀ h ∈ l.holders, h.phase = .writing → h.item ≠ d)
      (hold : ∀ x ∈ l.items, x.id = k.item → x.owner = some k.id)
      (g : Holder P D → Holder P D) (f : Item P D → Item P D) (tied : List P)
      (hg : ∀ h ∈ l.holders, (g h).id = h.id ∧ (g h).phase = h.phase ∧ ((g h).item = h.item ∨ h.id = k.id))
      (hf : ∀ x ∈ l.items, (f x).id = x.id ∧ (x.id = d → f x = ⟨d, some k.id, .owned⟩) ∧
        (x.id ≠ d → x.id = k.item → (f x).standing = .kept) ∧ (x.id ≠ d → x.id ≠ k.item → f x = x))
      (htied : ∀ p ∈ tied, p ∈ l.tied) :
    Step lost l none { holders := l.holders.map g, items := l.items.map f, tied := tied }
  /-- An item that no other holder writes names a holder. -/
  | copy (p : P) (d : D) (hlost : d ∉ lost)
      (hfree : ∀ h ∈ l.holders, h.phase = .writing → h.item = d → h.id = p) (f : Item P D → Item P D)
      (hf : ∀ x ∈ l.items, (x.id = d → f x = ⟨d, some p, .owned⟩) ∧ (x.id ≠ d → f x = x)) :
    Step lost l none { l with items := l.items.map f }
  /-- A holder leaves, and its item is going with it, but where another one owns it. -/
  | leave (p : P) (g : Holder P D → Holder P D) (f : Item P D → Item P D)
      (hg : ∀ h ∈ l.holders, (g h).id = h.id ∧ (g h).item = h.item ∧ (h.id = p → (g h).phase = .idle) ∧
        (h.id ≠ p → (g h).phase = h.phase))
      (hf : ∀ x ∈ l.items, (f x).id = x.id ∧ (f x).owner = x.owner ∧
        (f x = x ∨ (f x).standing = .going ∧ ∀ q, x.owner = some q → x.standing = .owned → q = p)) :
    Step lost l (some p) { l with holders := l.holders.map g, items := l.items.map f }
  /-- A holder is gone, and so is its item, or it is kept. -/
  | remove (p : P) (g : Holder P D → Holder P D) (f : Item P D → Item P D) (tied : List P)
      (hg : ∀ h ∈ l.holders, (g h).id = h.id ∧ (g h).item = h.item ∧ (h.id = p → (g h).phase = .gone) ∧
        (h.id ≠ p → (g h).phase = h.phase))
      (hf : ∀ x ∈ l.items, (f x).id = x.id ∧
        (f x = x ∨ (∀ q, x.owner = some q → q = p) ∧ (f x).owner = none ∧
          ((f x).standing = .gone ∨ (f x).standing = .kept ∧ x.id ∉ lost)))
      (htied : ∀ q ∈ tied, q ∈ l.tied ∧ q ≠ p) :
    Step lost l none { holders := l.holders.map g, items := l.items.map f, tied := tied }

/-- The items that are gone. -/
def lostIds (l : Ledger P D) : List D := (l.items.filter (·.standing = .gone)).map (·.id)

variable {lost : List D} {l l' : Ledger P D} {leaver : Option P}

theorem Inv.holder_eq (hi : Inv lost l) {h k : Holder P D} (hh : h ∈ l.holders) (hk : k ∈ l.holders)
    (hid : h.id = k.id) : h = k :=
  eq_of_key hi.holderIds hh hk hid

theorem Inv.item_eq (hi : Inv lost l) {x y : Item P D} (hx : x ∈ l.items) (hy : y ∈ l.items) (hid : x.id = y.id) :
    x = y :=
  eq_of_key hi.itemIds hx hy hid

/-- An item has one writer. -/
theorem Inv.writer_eq (hi : Inv lost l) {h k : Holder P D} (hh : h ∈ l.holders) (hk : k ∈ l.holders)
    (hwrites : h.phase = .writing) (hwrites' : k.phase = .writing) (hitem : h.item = k.item) : h = k := by
  have heq := hi.item_eq (hi.writes h hh hwrites) (hi.writes k hk hwrites') hitem
  simp only [Item.mk.injEq, Option.some.injEq] at heq
  exact hi.holder_eq hh hk heq.2.1

/-- What is gone now counts as lost. -/
theorem Inv.lose (hi : Inv lost l) : Inv (lost ++ lostIds l) l :=
  { hi with
    lost := fun d hd => by
      cases List.mem_append.mp hd with
      | inl hbefore => exact hi.lost d hbefore
      | inr hnow =>
        obtain ⟨x, hx, rfl⟩ := List.mem_map.mp hnow
        obtain ⟨hmem, hgone⟩ := List.mem_filter.mp hx
        have hgone : x.standing = .gone := by simpa using hgone
        exact ⟨x, hmem, rfl, hi.unowned x hmem hgone, .inr hgone⟩ }

theorem Inv.of_empty : Inv [] (⟨[], [], []⟩ : Ledger P D) := by
  constructor <;> simp

/-! ### Steps -/

theorem Inv.move (hi : Inv lost l) {g : Holder P D → Holder P D} {tied : List P}
    (hg : ∀ h ∈ l.holders, (g h).id = h.id ∧ (g h).item = h.item ∧
      ((g h).phase = h.phase ∨ h.phase ≠ .gone ∧
        ((g h).phase = .idle ∨ (g h).phase = .writing ∧ ⟨h.item, some h.id, .owned⟩ ∈ l.items)))
    (htied : ∀ p ∈ tied, p ∈ l.tied ∨ ∀ h ∈ l.holders, h.id = p → h.phase ≠ .gone) :
    Inv lost { l with holders := l.holders.map g, tied := tied } :=
  { hi with
    holderIds := by
      rw [map_ids fun h hh => (hg h hh).1]
      exact hi.holderIds
    writes := fun h' hh' hwriting => by
      obtain ⟨h, hh, rfl⟩ := List.mem_map.mp hh'
      obtain ⟨hid, hitem, hphase⟩ := hg h hh
      rw [hid, hitem]
      cases hphase with
      | inl hsame => exact hi.writes h hh (hsame.symm.trans hwriting)
      | inr hmoved =>
        cases hmoved.2 with
        | inl hidle => exact nomatch hidle.symm.trans hwriting
        | inr howned => exact howned.2
    untied := fun h' hh' hgone hmem => by
      obtain ⟨h, hh, rfl⟩ := List.mem_map.mp hh'
      obtain ⟨hid, -, hphase⟩ := hg h hh
      have hwas : h.phase = .gone := by
        cases hphase with
        | inl hsame => exact hsame.symm.trans hgone
        | inr hmoved =>
          cases hmoved.2 with
          | inl hidle => exact nomatch hidle.symm.trans hgone
          | inr howned => exact nomatch howned.1.symm.trans hgone
      cases htied (g h).id hmem with
      | inl hbefore =>
        rw [hid] at hbefore
        exact hi.untied h hh hwas hbefore
      | inr hnone => exact hnone h hh hid.symm hwas }

theorem Inv.enter (hi : Inv lost l) {p : P} {d : D} {keeps : Item P D → Bool} (hnew : ∀ h ∈ l.holders, h.id ≠ p)
    (hkeeps : ∀ x ∈ l.items, keeps x = true ↔ x.id ≠ d) (hfree : ∀ x ∈ l.items, x.id = d → x.standing = .kept) :
    Inv lost { l with
      holders := l.holders ++ [⟨p, d, .idle⟩]
      items := l.items.filter keeps ++ [⟨d, some p, .owned⟩] } where
  holderIds := by
    rw [List.map_append, List.nodup_append]
    refine ⟨hi.holderIds, by simp, ?_⟩
    intro a ha b hb
    obtain ⟨h, hh, rfl⟩ := List.mem_map.mp ha
    rw [List.map_singleton, List.mem_singleton] at hb
    rw [hb]
    exact hnew h hh
  itemIds := by
    rw [List.map_append, List.nodup_append]
    refine ⟨hi.itemIds.sublist (List.filter_sublist.map _), by simp, ?_⟩
    intro a ha b hb
    obtain ⟨x, hx, rfl⟩ := List.mem_map.mp ha
    obtain ⟨hmem, hkept⟩ := List.mem_filter.mp hx
    rw [List.map_singleton, List.mem_singleton] at hb
    rw [hb]
    exact (hkeeps x hmem).mp hkept
  writes h hh hwriting := by
    cases List.mem_append.mp hh with
    | inl hold =>
      have hmem := hi.writes h hold hwriting
      refine List.mem_append_left _ (List.mem_filter.mpr ⟨hmem, (hkeeps _ hmem).mpr fun heq => ?_⟩)
      exact nomatch hfree _ hmem heq
    | inr hlast =>
      rw [List.mem_singleton.mp hlast] at hwriting
      exact nomatch hwriting
  untied h hh hgone := by
    cases List.mem_append.mp hh with
    | inl hold => exact hi.untied h hold hgone
    | inr hlast =>
      rw [List.mem_singleton.mp hlast] at hgone
      exact nomatch hgone
  unowned x hx hgone := by
    cases List.mem_append.mp hx with
    | inl hold => exact hi.unowned x (List.mem_of_mem_filter hold) hgone
    | inr hlast =>
      rw [List.mem_singleton.mp hlast] at hgone
      exact nomatch hgone
  lost e he := by
    obtain ⟨x, hx, hid, howner, hstanding⟩ := hi.lost e he
    refine ⟨x, List.mem_append_left _ (List.mem_filter.mpr ⟨hx, (hkeeps x hx).mpr fun heq => ?_⟩), hid, howner,
      hstanding⟩
    have hkept := hfree x hx heq
    simp [hkept] at hstanding

theorem Inv.give (hi : Inv lost l) {k : Holder P D} (hmem : k ∈ l.holders) (hidle : k.phase = .idle) {d : D}
    (hlost : d ∉ lost) (hfree : ∀ h ∈ l.holders, h.phase = .writing → h.item ≠ d)
    (hold : ∀ x ∈ l.items, x.id = k.item → x.owner = some k.id)
    {g : Holder P D → Holder P D} {f : Item P D → Item P D} {tied : List P}
    (hg : ∀ h ∈ l.holders, (g h).id = h.id ∧ (g h).phase = h.phase ∧ ((g h).item = h.item ∨ h.id = k.id))
    (hf : ∀ x ∈ l.items, (f x).id = x.id ∧ (x.id = d → f x = ⟨d, some k.id, .owned⟩) ∧
      (x.id ≠ d → x.id = k.item → (f x).standing = .kept) ∧ (x.id ≠ d → x.id ≠ k.item → f x = x))
    (htied : ∀ p ∈ tied, p ∈ l.tied) :
    Inv lost { holders := l.holders.map g, items := l.items.map f, tied := tied } where
  holderIds := by
    rw [map_ids fun h hh => (hg h hh).1]
    exact hi.holderIds
  itemIds := by
    rw [map_ids fun x hx => (hf x hx).1]
    exact hi.itemIds
  writes h' hh' hwriting := by
    obtain ⟨h, hh, rfl⟩ := List.mem_map.mp hh'
    obtain ⟨hid, hphase, hitem⟩ := hg h hh
    rw [hphase] at hwriting
    have hother : h.id ≠ k.id := by
      intro heq
      rw [hi.holder_eq hh hmem heq, hidle] at hwriting
      exact nomatch hwriting
    have hx := hi.writes h hh hwriting
    rw [hid, hitem.resolve_right hother]
    refine List.mem_map.mpr ⟨_, hx, (hf _ hx).2.2.2 (hfree h hh hwriting) fun heq => ?_⟩
    have howner := hold _ hx heq
    exact hother (Option.some.inj howner)
  untied h' hh' hgone hbound := by
    obtain ⟨h, hh, rfl⟩ := List.mem_map.mp hh'
    obtain ⟨hid, hphase, -⟩ := hg h hh
    rw [hid] at hbound
    exact hi.untied h hh (hphase.symm.trans hgone) (htied h.id hbound)
  unowned x' hx' hgone := by
    obtain ⟨x, hx, rfl⟩ := List.mem_map.mp hx'
    obtain ⟨-, hgiven, hkept, hsame⟩ := hf x hx
    by_cases hd : x.id = d
    · rw [hgiven hd] at hgone
      exact nomatch hgone
    · by_cases hk : x.id = k.item
      · exact nomatch (hkept hd hk).symm.trans hgone
      · rw [hsame hd hk] at hgone ⊢
        exact hi.unowned x hx hgone
  lost e he := by
    obtain ⟨x, hx, hid, howner, hstanding⟩ := hi.lost e he
    refine ⟨f x, List.mem_map_of_mem hx, (hf x hx).1.trans hid, ?_⟩
    have hd : x.id ≠ d := by
      rw [hid]
      exact fun heq => hlost (heq ▸ he)
    have hk : x.id ≠ k.item := by
      intro heq
      rw [hold x hx heq] at howner
      exact nomatch howner
    rw [(hf x hx).2.2.2 hd hk]
    exact ⟨howner, hstanding⟩

theorem Inv.copy (hi : Inv lost l) {p : P} {d : D} (hlost : d ∉ lost)
    (hfree : ∀ h ∈ l.holders, h.phase = .writing → h.item = d → h.id = p) {f : Item P D → Item P D}
    (hf : ∀ x ∈ l.items, (x.id = d → f x = ⟨d, some p, .owned⟩) ∧ (x.id ≠ d → f x = x)) :
    Inv lost { l with items := l.items.map f } :=
  { hi with
    itemIds := by
      rw [map_ids fun x hx => ?_]
      · exact hi.itemIds
      · by_cases hd : x.id = d
        · rw [(hf x hx).1 hd, hd]
        · rw [(hf x hx).2 hd]
    writes := fun h hh hwriting => by
      have hx := hi.writes h hh hwriting
      refine List.mem_map.mpr ⟨_, hx, ?_⟩
      by_cases hd : h.item = d
      · rw [(hf _ hx).1 hd, hfree h hh hwriting hd, hd]
      · exact (hf _ hx).2 hd
    unowned := fun x' hx' hgone => by
      obtain ⟨x, hx, rfl⟩ := List.mem_map.mp hx'
      by_cases hd : x.id = d
      · rw [(hf x hx).1 hd] at hgone
        exact nomatch hgone
      · rw [(hf x hx).2 hd] at hgone ⊢
        exact hi.unowned x hx hgone
    lost := fun e he => by
      obtain ⟨x, hx, hid, howner, hstanding⟩ := hi.lost e he
      have hd : x.id ≠ d := by
        rw [hid]
        exact fun heq => hlost (heq ▸ he)
      refine ⟨x, List.mem_map.mpr ⟨x, hx, (hf x hx).2 hd⟩, hid, howner, hstanding⟩ }

theorem Inv.leave (hi : Inv lost l) {p : P} {g : Holder P D → Holder P D} {f : Item P D → Item P D}
    (hg : ∀ h ∈ l.holders, (g h).id = h.id ∧ (g h).item = h.item ∧ (h.id = p → (g h).phase = .idle) ∧
      (h.id ≠ p → (g h).phase = h.phase))
    (hf : ∀ x ∈ l.items, (f x).id = x.id ∧ (f x).owner = x.owner ∧
      (f x = x ∨ (f x).standing = .going ∧ ∀ q, x.owner = some q → x.standing = .owned → q = p)) :
    Inv lost { l with holders := l.holders.map g, items := l.items.map f } where
  holderIds := by
    rw [map_ids fun h hh => (hg h hh).1]
    exact hi.holderIds
  itemIds := by
    rw [map_ids fun x hx => (hf x hx).1]
    exact hi.itemIds
  writes h' hh' hwriting := by
    obtain ⟨h, hh, rfl⟩ := List.mem_map.mp hh'
    obtain ⟨hid, hitem, hidle, hsame⟩ := hg h hh
    have hother : h.id ≠ p := fun heq => nomatch (hidle heq).symm.trans hwriting
    rw [hsame hother] at hwriting
    have hx := hi.writes h hh hwriting
    rw [hid, hitem]
    refine List.mem_map.mpr ⟨_, hx, (hf _ hx).2.2.resolve_right fun hgoing => ?_⟩
    exact hother (hgoing.2 h.id rfl rfl)
  untied h' hh' hgone := by
    obtain ⟨h, hh, rfl⟩ := List.mem_map.mp hh'
    obtain ⟨hid, -, hidle, hsame⟩ := hg h hh
    have hother : h.id ≠ p := fun heq => nomatch (hidle heq).symm.trans hgone
    rw [hid]
    exact hi.untied h hh ((hsame hother).symm.trans hgone)
  unowned x' hx' hgone := by
    obtain ⟨x, hx, rfl⟩ := List.mem_map.mp hx'
    obtain ⟨-, howner, hcase⟩ := hf x hx
    rw [howner]
    cases hcase with
    | inl hsame =>
      rw [hsame] at hgone
      exact hi.unowned x hx hgone
    | inr hgoing => exact nomatch hgoing.1.symm.trans hgone
  lost e he := by
    obtain ⟨x, hx, hid, howner, hstanding⟩ := hi.lost e he
    obtain ⟨hfid, hfowner, hcase⟩ := hf x hx
    refine ⟨f x, List.mem_map_of_mem hx, hfid.trans hid, hfowner.trans howner, ?_⟩
    cases hcase with
    | inl hsame =>
      rw [hsame]
      exact hstanding
    | inr hgoing => exact .inl hgoing.1

theorem Inv.remove (hi : Inv lost l) {p : P} {g : Holder P D → Holder P D} {f : Item P D → Item P D} {tied : List P}
    (hg : ∀ h ∈ l.holders, (g h).id = h.id ∧ (g h).item = h.item ∧ (h.id = p → (g h).phase = .gone) ∧
      (h.id ≠ p → (g h).phase = h.phase))
    (hf : ∀ x ∈ l.items, (f x).id = x.id ∧
      (f x = x ∨ (∀ q, x.owner = some q → q = p) ∧ (f x).owner = none ∧
        ((f x).standing = .gone ∨ (f x).standing = .kept ∧ x.id ∉ lost)))
    (htied : ∀ q ∈ tied, q ∈ l.tied ∧ q ≠ p) :
    Inv lost { holders := l.holders.map g, items := l.items.map f, tied := tied } where
  holderIds := by
    rw [map_ids fun h hh => (hg h hh).1]
    exact hi.holderIds
  itemIds := by
    rw [map_ids fun x hx => (hf x hx).1]
    exact hi.itemIds
  writes h' hh' hwriting := by
    obtain ⟨h, hh, rfl⟩ := List.mem_map.mp hh'
    obtain ⟨hid, hitem, hgone, hsame⟩ := hg h hh
    have hother : h.id ≠ p := fun heq => nomatch (hgone heq).symm.trans hwriting
    rw [hsame hother] at hwriting
    have hx := hi.writes h hh hwriting
    rw [hid, hitem]
    exact List.mem_map.mpr ⟨_, hx, (hf _ hx).2.resolve_right fun hfree => hother (hfree.1 h.id rfl)⟩
  untied h' hh' hgone hmem := by
    obtain ⟨h, hh, rfl⟩ := List.mem_map.mp hh'
    obtain ⟨hid, -, -, hsame⟩ := hg h hh
    rw [hid] at hmem
    obtain ⟨hbefore, hother⟩ := htied h.id hmem
    exact hi.untied h hh ((hsame hother).symm.trans hgone) hbefore
  unowned x' hx' hgone := by
    obtain ⟨x, hx, rfl⟩ := List.mem_map.mp hx'
    cases (hf x hx).2 with
    | inl hsame =>
      rw [hsame] at hgone ⊢
      exact hi.unowned x hx hgone
    | inr hfree => exact hfree.2.1
  lost e he := by
    obtain ⟨x, hx, hid, howner, hstanding⟩ := hi.lost e he
    refine ⟨f x, List.mem_map_of_mem hx, (hf x hx).1.trans hid, ?_⟩
    cases (hf x hx).2 with
    | inl hsame =>
      rw [hsame]
      exact ⟨howner, hstanding⟩
    | inr hfree =>
      refine ⟨hfree.2.1, .inr (hfree.2.2.resolve_right fun hkept => ?_)⟩
      rw [hid] at hkept
      exact hkept.2 he

theorem Step.inv (h : Step lost l leaver l') (hi : Inv lost l) : Inv lost l' := by
  cases h with
  | move g tied hg htied => exact hi.move hg htied
  | enter p d keeps hnew hkeeps hfree => exact hi.enter hnew hkeeps hfree
  | give k hmem hidle d hlost hfree hold g f tied hg hf htied => exact hi.give hmem hidle hlost hfree hold hg hf htied
  | copy p d hlost hfree f hf => exact hi.copy hlost hfree hf
  | leave p g f hg hf => exact hi.leave hg hf
  | remove p g f tied hg hf htied => exact hi.remove hg hf htied

/-- Who is gone stays so, until he leaves once more. -/
theorem Step.gone (h : Step lost l leaver l') {k : Holder P D} (hk : k ∈ l.holders) (hgone : k.phase = .gone)
    (hstays : leaver ≠ some k.id) : ∃ k' ∈ l'.holders, k'.id = k.id ∧ k'.phase = .gone := by
  cases h with
  | move g tied hg htied =>
    obtain ⟨hid, -, hphase⟩ := hg k hk
    refine ⟨g k, List.mem_map_of_mem hk, hid, ?_⟩
    cases hphase with
    | inl hsame => exact hsame.trans hgone
    | inr hmoved => exact absurd hgone hmoved.1
  | enter => exact ⟨k, List.mem_append_left _ hk, rfl, hgone⟩
  | give _ _ _ _ _ _ _ g _ _ hg => exact ⟨g k, List.mem_map_of_mem hk, (hg k hk).1, (hg k hk).2.1.trans hgone⟩
  | copy => exact ⟨k, hk, rfl, hgone⟩
  | leave p g _ hg =>
    have hother : k.id ≠ p := fun heq => hstays (congrArg some heq.symm)
    exact ⟨g k, List.mem_map_of_mem hk, (hg k hk).1, ((hg k hk).2.2.2 hother).trans hgone⟩
  | remove p g _ _ hg =>
    refine ⟨g k, List.mem_map_of_mem hk, (hg k hk).1, ?_⟩
    by_cases heq : k.id = p
    · exact (hg k hk).2.2.1 heq
    · exact ((hg k hk).2.2.2 heq).trans hgone

end Operant.Ownership
