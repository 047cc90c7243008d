import Mathlib.Data.List.TakeWhile
import Operant.Context.References
import Operant.Context.ThreadHistories

/-! What a request sends of its references: all of them, and each item of the thread once. -/
namespace Operant.Context
open Operant.Python Operant.Security

/-! ### The rendered items -/

def payload (item : Item) : Value := .dict (itemPayload item)

/-- The items that a thread is rendered with. -/
def renderedItems (reference : Resolved) : List Value :=
  match reference.rendered.lookup "items" with
  | some (.list xs) => xs
  | _ => []

/-- Behind the last item that the run may see. -/
def ThreadReader.beyond (reader : ThreadReader) (item : Item) : Bool :=
  reader.threadItemCursorEnd.any (· < item.cursor)

/-- What the reader reads of the items, behind the baseline. -/
def ThreadReader.selected (reader : ThreadReader) : List Item :=
  (itemsBehind reader.items ((reader.baseline.map (·.itemCursorEnd)).getD 0)).takeWhile fun item => !reader.beyond item

variable {lib : Libraries} {reader : ThreadReader} {request : ReferenceRequest}

theorem cursor_of_payload {a b : Item} (h : payload a = payload b) : a.cursor = b.cursor := by
  unfold payload itemPayload at h
  simp only [Value.dict.injEq, List.cons.injEq, Prod.mk.injEq, Value.int.injEq, true_and] at h
  exact_mod_cast h.2.1

theorem cursor_of_itemRef {a b : Item} (h : lib.itemRef a = lib.itemRef b) : a.cursor = b.cursor := by
  unfold Libraries.itemRef at h
  simp only [ContextSourceRef.mk.injEq, Option.some.injEq] at h
  exact h.2.2.1

/-- What is known by its cursor occurs once. -/
theorem count_map {α : Type} [DecidableEq α] {f : Item → α} (hf : ∀ a b, f a = f b → a.cursor = b.cursor)
    {items : List Item} (hsorted : items.Pairwise fun a b => a.cursor < b.cursor) {item : Item} (h : item ∈ items) :
    (items.map f).count (f item) = 1 := by
  apply List.count_eq_one_of_mem
  · rw [List.nodup_iff_pairwise_ne, List.pairwise_map]
    exact hsorted.imp fun hlt heq => absurd (hf _ _ heq) (Nat.ne_of_lt hlt)
  · exact List.mem_map_of_mem h

/-- Of sorted items, those up to the end are read. -/
theorem mem_takeWhile_beyond {items : List Item} (hsorted : items.Pairwise fun a b => a.cursor < b.cursor)
    {item : Item} (hitem : item ∈ items) (hnot : reader.beyond item = false) :
    item ∈ items.takeWhile fun item => !reader.beyond item := by
  induction items with
  | nil => exact hitem
  | cons first rest ih =>
    obtain ⟨hfirst, hrest⟩ := List.pairwise_cons.mp hsorted
    have hbefore : reader.beyond first = false := by
      cases List.mem_cons.mp hitem with
      | inl heq => rwa [← heq]
      | inr hmem =>
        have hlt := hfirst item hmem
        unfold ThreadReader.beyond at hnot ⊢
        cases hend : reader.threadItemCursorEnd with
        | none => rfl
        | some last =>
          rw [hend, Option.any_some, decide_eq_false_iff_not] at hnot
          rw [Option.any_some, decide_eq_false_iff_not]
          omega
    rw [List.takeWhile_cons_of_pos (by rw [hbefore]; rfl)]
    cases List.mem_cons.mp hitem with
    | inl heq => rw [heq]; exact List.mem_cons_self
    | inr hmem => exact List.mem_cons_of_mem _ (ih hrest hmem)

theorem not_beyond_of_selected {item : Item} (h : item ∈ reader.selected) : reader.beyond item = false := by
  have hnot := List.mem_takeWhile_imp h
  rwa [Bool.not_eq_true'] at hnot

/-! ### Reading the thread -/

/-- What a selection holds after more items: all of them if no compaction is required, else the recent. -/
structure Renders (before after : Selection) (read : List Item) : Prop where
  full : after.compactRequired = false →
    before.compactRequired = false ∧ after.fullItems = before.fullItems ++ read.map payload
  recent : after.recentItems <:+ before.recentItems ++ read.map payload

theorem recent_suffix (items : List Value) (value : Value) : Libraries.recent items value <:+ items ++ [value] := by
  unfold Libraries.recent
  split
  · exact List.drop_suffix 1 _
  · exact List.suffix_refl _

theorem addItem_renders {before after : Selection} {item : Item}
    (h : lib.addItem reader request before item = .ok after) : Renders before after [item] := by
  unfold Libraries.addItem at h
  dsimp only at h
  split at h
  · exact nomatch h
  · split at h
    · exact nomatch h
    · split at h
      · exact nomatch h
      · cases h
        refine ⟨fun hfull => ?_, recent_suffix _ _⟩
        dsimp only at hfull ⊢
        rw [Bool.not_eq_false'] at hfull
        rw [if_pos hfull]
        rw [Bool.and_eq_true, Bool.not_eq_true'] at hfull
        exact ⟨hfull.1, rfl⟩

theorem Renders.trans {a b c : Selection} {front back : List Item} (hfront : Renders a b front)
    (hback : Renders b c back) : Renders a c (front ++ back) where
  full h := by
    obtain ⟨hb, hfull⟩ := hback.full h
    obtain ⟨ha, hbefore⟩ := hfront.full hb
    rw [hfull, hbefore, List.append_assoc, List.map_append]
    exact ⟨ha, rfl⟩
  recent := by
    obtain ⟨dropped, hdropped⟩ := hfront.recent
    obtain ⟨more, hmore⟩ := hback.recent
    refine ⟨dropped ++ more, ?_⟩
    rw [List.append_assoc, hmore, ← List.append_assoc, hdropped, List.append_assoc, List.map_append]

theorem readPage_renders {page : List Item} {before : Selection} {read : Selection × Bool}
    (h : lib.readPage reader request page before = .ok read) :
    Renders before read.1 (page.takeWhile fun item => !reader.beyond item) := by
  induction page generalizing before with
  | nil =>
    cases h
    exact ⟨fun h => ⟨h, by simp⟩, by simp⟩
  | cons item rest ih =>
    unfold Libraries.readPage at h
    by_cases hbeyond : reader.threadItemCursorEnd.any (· < item.cursor) = true
    · rw [if_pos hbeyond] at h
      cases h
      rw [List.takeWhile_cons_of_neg (by simp [ThreadReader.beyond, hbeyond])]
      exact ⟨fun h => ⟨h, by simp⟩, by simp⟩
    · rw [if_neg hbeyond] at h
      obtain ⟨next, hnext, hrest⟩ := Calls.ok_of_bind h
      rw [List.takeWhile_cons_of_pos (by simpa [ThreadReader.beyond] using hbeyond)]
      exact (addItem_renders hnext).trans (ih hrest)

/-! ### What is delivered of a thread -/

/-- The items that are read are rendered, with the baseline's compaction; or they are compacted together
with what the baseline covers, and the last of them are rendered as well. -/
structure Delivery (lib : Libraries) (thread : Thread) (reader : ThreadReader) (reference : Resolved)
    (baseline : Option Compaction) (before : List Item) : Prop where
  covers : ∀ c, baseline = some c → Covers lib thread.items c before
  none : baseline = none → before = []
  delivered : renderedItems reference = reader.selected.map payload ∧ reference.compaction = baseline ∨
    renderedItems reference <:+ reader.selected.map payload ∧ ∃ c, reference.compaction = some c ∧
      c.coveredItemRefs = (before ++ reader.selected).map lib.itemRef

theorem renderedItems_checked {rendered : Refs} {sourceRefs : List ContextSourceRef} {first last : Option Nat}
    {compaction : Option Compaction} {reference : Resolved} {items : List Value}
    (h : lib.checkedReference request rendered sourceRefs first last compaction = .ok reference)
    (hitems : rendered.lookup "items" = some (.list items)) :
    renderedItems reference = items ∧ reference.compaction = compaction := by
  unfold Libraries.checkedReference at h
  split at h
  · exact nomatch h
  · cases h
    unfold renderedItems
    dsimp only
    rw [hitems]
    exact ⟨rfl, rfl⟩

theorem fittingItems_suffix (compaction : Compaction) (items : List Value) :
    lib.fittingItems reader compaction items <:+ items := by
  induction items with
  | nil => exact List.suffix_refl _
  | cons item rest ih =>
    unfold Libraries.fittingItems
    split
    · exact ih.trans (List.suffix_cons item rest)
    · exact List.suffix_refl _

theorem lookup_items (reader : ThreadReader) (rest : Refs) (items : Value) :
    (reader.header ++ ("items", items) :: rest).lookup "items" = some items := by
  unfold ThreadReader.header
  simp [List.lookup_cons]

theorem lookup_compacted (compaction : Compaction) (items : List Value) :
    (lib.renderedThread reader compaction items).lookup "items" = some (.list items) := by
  unfold Libraries.renderedThread ThreadReader.header
  simp [List.lookup_cons]

theorem threadCompaction_refs {baseline : Option Compaction} {selection : Selection} {made : Compaction}
    (h : lib.threadCompaction reader baseline selection = .ok made) :
    made.coveredItemRefs = ((baseline.map (·.coveredItemRefs)).getD []) ++ selection.exactItemRefs := by
  unfold Libraries.threadCompaction at h
  obtain ⟨facts, -, hsummary⟩ := Calls.ok_of_bind h
  obtain ⟨summary, -, hmade⟩ := Calls.ok_of_bind hsummary
  dsimp only at hmade
  split at hmade
  · cases hmade
    rfl
  · exact nomatch hmade

variable {thread : Thread} {view : ThreadReader} {reference : Resolved}

theorem Thread.Good.selected_sorted (good : thread.Good lib) (view : ThreadReader) :
    (thread.readBy view).selected.Pairwise fun a b => a.cursor < b.cursor :=
  (good.behind_sorted _).sublist (List.takeWhile_sublist _)

theorem Thread.Good.selected_stored (_good : thread.Good lib) (view : ThreadReader) :
    (thread.readBy view).selected ⊆ thread.items :=
  fun _ hitem => (Tables.mem_behind.mp ((List.takeWhile_sublist _).subset hitem)).1

/-- What a resolved thread delivers. -/
theorem Thread.Good.delivery (good : thread.Good lib)
    (h : lib.resolveThreadInline (thread.readBy view) request = .ok reference) :
    ∃ baseline before, Delivery lib thread (thread.readBy view) reference baseline before ∧
      (∀ item ∈ before, item.cursor ≤ ((thread.readBy view).baseline.map (·.itemCursorEnd)).getD 0) ∧
      ∀ last, (thread.readBy view).baseline = some last →
        (last.operation = .clear → baseline = none) ∧
        (last.operation = .compact → ∃ item ∈ before, item.cursor = last.itemCursorEnd) := by
  obtain ⟨compaction, before, hbaseline, hnone, hcovers, hend, hlast⟩ := good.baseline view
  have hpages := @readPages_eq lib (thread.readBy view) request good.keys (thread.items.length + 1)
    ((thread.readBy view).baseline.map (·.itemCursorEnd)) {} (Thread.length_behind ..)
  refine ⟨compaction, before, ⟨fun c hc => (hcovers c hc).2, hnone, ?_⟩, hend, hlast⟩
  unfold Libraries.resolveThreadInline at h
  rw [hbaseline] at h
  dsimp only [bind, Except.bind] at h
  rw [show (thread.readBy view).items.length + 1 = thread.items.length + 1 from rfl, hpages] at h
  cases hread : lib.readPage (thread.readBy view) request (itemsBehind (thread.readBy view).items
      (((thread.readBy view).baseline.map (·.itemCursorEnd)).getD 0)) {} with
  | error error =>
    rw [hread] at h
    exact nomatch h
  | ok read =>
    have hrenders := readPage_renders hread
    change Renders {} read.1 (thread.readBy view).selected at hrenders
    have hreads : Reads (thread.readBy view) lib {} read.1 (thread.readBy view).selected := by
      cases @readPage_cases lib (thread.readBy view) request (itemsBehind (thread.readBy view).items
          (((thread.readBy view).baseline.map (·.itemCursorEnd)).getD 0)) {} with
      | inl hlimit =>
        obtain ⟨message, hlimit⟩ := hlimit
        rw [hlimit] at hread
        exact nomatch hread
      | inr hok =>
        obtain ⟨selection, stopped, hok, hreads⟩ := hok
        rw [hok] at hread
        cases hread
        exact hreads
    rw [hread] at h
    dsimp only [Functor.map, Except.map] at h
    split at h
    · rename_i hrefs
      have hnil : (thread.readBy view).selected = [] := by
        rw [hreads.refs] at hrefs
        exact List.map_eq_nil_iff.mp hrefs
      refine .inl ?_
      rw [hnil, List.map_nil]
      unfold Libraries.emptyThread at h
      split at h
      · exact renderedItems_checked h (lookup_items _ [] _)
      · exact renderedItems_checked h (lookup_items _ [_] _)
    · rename_i hrefs
      have hne : (thread.readBy view).selected ≠ [] := fun hnil => hrefs (by rw [hreads.refs, hnil]; rfl)
      split at h
      · refine .inr ?_
        unfold Libraries.compactedThread at h
        obtain ⟨made, hmade, hchecked⟩ := Calls.ok_of_bind h
        obtain ⟨hitems, hcompaction⟩ := renderedItems_checked hchecked (lookup_compacted made _)
        have hrecent := hrenders.recent
        rw [List.nil_append] at hrecent
        refine ⟨?_, made, hcompaction, ?_⟩
        · rw [hitems]
          exact (fittingItems_suffix made _).trans hrecent
        · rw [threadCompaction_refs hmade, hreads.refs, List.map_append]
          cases hcase : compaction with
          | none => rw [hnone hcase]; rfl
          | some c => rw [← (hcovers c hcase).2.refs]; rfl
      · rename_i hfull
        rw [Bool.not_eq_true] at hfull
        refine .inl ?_
        obtain ⟨-, hall⟩ := hrenders.full hfull
        rw [List.nil_append] at hall
        rw [← hall]
        unfold Libraries.fullThread at h
        dsimp only at h
        split at h
        · exact renderedItems_checked h (lookup_items _ [] _)
        · exact renderedItems_checked h (lookup_items _ [_] _)

/-- Each item behind the baseline that the run may see is rendered or compacted, once; none beyond is. -/
structure DeliversItems (lib : Libraries) (items : List Item) (reader : ThreadReader) (reference : Resolved) :
    Prop where
  once : ∀ item ∈ items, (reader.baseline.map (·.itemCursorEnd)).getD 0 < item.cursor → reader.beyond item = false →
    (renderedItems reference).count (payload item) = 1 ∨
      ∃ c, reference.compaction = some c ∧ c.coveredItemRefs.count (lib.itemRef item) = 1
  within : ∀ item ∈ items, reader.beyond item = true → payload item ∉ renderedItems reference ∧
    ∀ c, reference.compaction = some c → lib.itemRef item ∉ c.coveredItemRefs

/-- A thread was not compacted beyond the end that the run may see. -/
def ThreadReader.BaselineWithin (reader : ThreadReader) : Prop :=
  ∀ baseline last, reader.baseline = some baseline → baseline.operation = .compact →
    reader.threadItemCursorEnd = some last → baseline.itemCursorEnd ≤ last

theorem not_rendered_beyond {item : Item} (h : reader.beyond item = true) :
    payload item ∉ reader.selected.map payload ∧ lib.itemRef item ∉ reader.selected.map lib.itemRef := by
  have hdifferent (other : Item) (hother : other ∈ reader.selected) : other.cursor ≠ item.cursor := by
    intro heq
    have hnot := not_beyond_of_selected hother
    unfold ThreadReader.beyond at h hnot
    rw [heq, h] at hnot
    exact nomatch hnot
  constructor
  · intro hmem
    obtain ⟨other, hother, heq⟩ := List.mem_map.mp hmem
    exact hdifferent other hother (cursor_of_payload heq)
  · intro hmem
    obtain ⟨other, hother, heq⟩ := List.mem_map.mp hmem
    exact hdifferent other hother (cursor_of_itemRef heq)

theorem Thread.Good.delivers_once (good : thread.Good lib) {baseline : Option Compaction} {before : List Item}
    (hdelivery : Delivery lib thread (thread.readBy view) reference baseline before)
    (hend : ∀ item ∈ before, item.cursor ≤ ((thread.readBy view).baseline.map (·.itemCursorEnd)).getD 0)
    {item : Item} (hitem : item ∈ thread.items)
    (hbehind : ((thread.readBy view).baseline.map (·.itemCursorEnd)).getD 0 < item.cursor)
    (hnot : (thread.readBy view).beyond item = false) :
    (renderedItems reference).count (payload item) = 1 ∨
      ∃ c, reference.compaction = some c ∧ c.coveredItemRefs.count (lib.itemRef item) = 1 := by
  have hselected : item ∈ (thread.readBy view).selected :=
    mem_takeWhile_beyond (good.behind_sorted _) (Tables.mem_behind.mpr ⟨hitem, hbehind⟩) hnot
  cases hdelivery.delivered with
  | inl hall =>
    rw [hall.1]
    exact .inl (count_map (fun _ _ => cursor_of_payload) (good.selected_sorted view) hselected)
  | inr hcompacted =>
    obtain ⟨-, c, hc, hrefs⟩ := hcompacted
    refine .inr ⟨c, hc, ?_⟩
    rw [hrefs]
    apply count_map (fun _ _ => cursor_of_itemRef) _ (List.mem_append_right _ hselected)
    refine List.pairwise_append.mpr ⟨?_, good.selected_sorted view, fun a ha b hb => ?_⟩
    · cases hcase : baseline with
      | none => rw [hdelivery.none hcase]; exact .nil
      | some c => exact (hdelivery.covers c hcase).sorted
    · have hle := hend a ha
      have hlt := (Tables.mem_behind.mp ((List.takeWhile_sublist _).subset hb)).2
      omega

/-- Every item is delivered once, and none beyond the end, iff the thread was not compacted beyond it. -/
theorem Thread.Good.delivers_iff (good : thread.Good lib)
    (h : lib.resolveThreadInline (thread.readBy view) request = .ok reference) :
    DeliversItems lib thread.items (thread.readBy view) reference ↔ (thread.readBy view).BaselineWithin := by
  obtain ⟨baseline, before, hdelivery, hend, hlast⟩ := good.delivery h
  constructor
  · intro hdelivers active last hactive hcompact hbound
    obtain ⟨item, hitem, hcursor⟩ := (hlast active hactive).2 hcompact
    apply Nat.le_of_not_lt
    intro hlt
    obtain ⟨c, hc⟩ : ∃ c, baseline = some c := by
      cases hcase : baseline with
      | none => rw [hdelivery.none hcase] at hitem; exact absurd hitem List.not_mem_nil
      | some c => exact ⟨c, rfl⟩
    have hcovers := hdelivery.covers c hc
    have hbeyond : (thread.readBy view).beyond item = true := by
      unfold ThreadReader.beyond
      rw [hbound, Option.any_some, decide_eq_true_eq]
      omega
    have hnot := (hdelivers.within item (hcovers.stored hitem) hbeyond).2
    cases hdelivery.delivered with
    | inl hall =>
      apply hnot c (hall.2.trans hc)
      rw [hcovers.refs]
      exact List.mem_map_of_mem hitem
    | inr hcompacted =>
      obtain ⟨-, made, hmade, hrefs⟩ := hcompacted
      apply hnot made hmade
      rw [hrefs]
      exact List.mem_map_of_mem (List.mem_append_left _ hitem)
  · intro hwithin
    refine ⟨fun item hitem => good.delivers_once hdelivery hend hitem, fun item hitem hbeyond => ?_⟩
    obtain ⟨hpayload, href⟩ := @not_rendered_beyond lib (thread.readBy view) item hbeyond
    have hbefore : lib.itemRef item ∉ before.map lib.itemRef := by
      intro hmem
      obtain ⟨other, hother, heq⟩ := List.mem_map.mp hmem
      have hcursor := cursor_of_itemRef heq
      have hle := hend other hother
      obtain ⟨last, hbound⟩ : ∃ last, (thread.readBy view).threadItemCursorEnd = some last := by
        unfold ThreadReader.beyond at hbeyond
        cases hcase : (thread.readBy view).threadItemCursorEnd with
        | none => rw [hcase] at hbeyond; exact nomatch hbeyond
        | some last => exact ⟨last, rfl⟩
      unfold ThreadReader.beyond at hbeyond
      rw [hbound, Option.any_some, decide_eq_true_eq] at hbeyond
      cases hactive : (thread.readBy view).baseline with
      | none =>
        rw [hactive, Option.map_none, Option.getD_none] at hle
        omega
      | some active =>
        rw [hactive, Option.map_some, Option.getD_some] at hle
        cases hop : active.operation with
        | clear =>
          rw [hdelivery.none ((hlast active hactive).1 hop)] at hother
          exact List.not_mem_nil hother
        | compact =>
          have hsmall := hwithin active last hactive hop hbound
          omega
    cases hdelivery.delivered with
    | inl hall =>
      rw [hall.1]
      refine ⟨hpayload, fun c hc => ?_⟩
      rw [(hdelivery.covers c (hall.2.symm.trans hc)).refs]
      exact hbefore
    | inr hcompacted =>
      obtain ⟨hsuffix, made, hmade, hrefs⟩ := hcompacted
      refine ⟨fun hmem => hpayload (hsuffix.subset hmem), fun c hc => ?_⟩
      rw [hmade] at hc
      cases hc
      rw [hrefs, List.map_append, List.mem_append]
      exact not_or.mpr ⟨hbefore, href⟩

end Operant.Context
