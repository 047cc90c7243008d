import Mathlib.Data.List.Pairwise
import Mathlib.Tactic
import Operant.Tables.Pages

/-! Feeds: rows with growing keys, read page by page.

A reader remembers the last key it has read and asks for the rows behind it. Rows are only put at the end, with keys
that no reader has seen, so what a reader has read is always a front of the feed: nothing is skipped or read twice,
whatever the sizes of the pages and whatever is put between two of them. -/
namespace Operant.Tables
variable {α β : Type}

/-- The keys of a feed grow. -/
def Growing (feed : List (Nat × α)) : Prop := feed.Pairwise fun first second => first.1 < second.1

section
variable (feed : List (Nat × α)) (cursor : Nat)

/-- The rows behind the cursor. -/
def later : List (Nat × α) := feed.filter fun row => cursor < row.1

/-- The rows up to the cursor. -/
def upTo : List (Nat × α) := feed.filter fun row => row.1 ≤ cursor

/-- The last key of a page, or the cursor it was asked for when the page is empty. -/
def pageEnd (page : List (Nat × α)) : Nat := ((page.map Prod.fst).max?).getD cursor

end

section
variable {feed more : List (Nat × α)} {cursor : Nat}

theorem upTo_all (h : ∀ row ∈ feed, row.1 ≤ cursor) : upTo feed cursor = feed :=
  List.filter_eq_self.mpr fun row hrow => decide_eq_true (h row hrow)

theorem upTo_none (h : ∀ row ∈ feed, cursor < row.1) : upTo feed cursor = [] :=
  List.filter_eq_nil_iff.mpr fun row hrow => by simpa using h row hrow

theorem upTo_append : upTo (feed ++ more) cursor = upTo feed cursor ++ upTo more cursor :=
  List.filter_append feed more

/-- What is put behind the cursor does not change what lies before it. -/
theorem upTo_put (h : ∀ row ∈ more, cursor < row.1) : upTo (feed ++ more) cursor = upTo feed cursor := by
  rw [upTo_append, upTo_none h, List.append_nil]

/-- The cursor cuts a feed in two. -/
theorem upTo_append_later (h : Growing feed) : upTo feed cursor ++ later feed cursor = feed := by
  induction feed with
  | nil => rfl
  | cons row rest ih =>
    obtain ⟨hfirst, hrest⟩ := List.pairwise_cons.mp h
    by_cases hle : row.1 ≤ cursor
    · have hfront : upTo (row :: rest) cursor = row :: upTo rest cursor := List.filter_cons_of_pos (by simpa using hle)
      have hback : later (row :: rest) cursor = later rest cursor := List.filter_cons_of_neg (by simpa using hle)
      rw [hfront, hback, List.cons_append, ih hrest]
    · have hlt : cursor < row.1 := Nat.lt_of_not_le hle
      have hall : ∀ other ∈ row :: rest, cursor < other.1 := by
        intro other hother
        rcases List.mem_cons.mp hother with rfl | hother
        · exact hlt
        · exact hlt.trans (hfirst other hother)
      rw [upTo_none hall, List.nil_append]
      exact List.filter_eq_self.mpr fun other hother => decide_eq_true (hall other hother)

/-- What is read up to the end of a page is what was read before, and the page. -/
theorem upTo_pageEnd (h : Growing feed) (limit : Nat) :
    upTo feed (pageEnd cursor ((later feed cursor).take limit)) =
      upTo feed cursor ++ (later feed cursor).take limit := by
  cases hmax : (((later feed cursor).take limit).map Prod.fst).max? with
  | none =>
    have hpage : (later feed cursor).take limit = [] := by
      simpa using List.max?_eq_none_iff.mp hmax
    rw [hpage, List.append_nil]
    rfl
  | some last =>
    obtain ⟨hmem, hlast⟩ := List.max?_eq_some_iff.mp hmax
    obtain ⟨row, hrow, rfl⟩ := List.mem_map.mp hmem
    rw [pageEnd, hmax, Option.getD_some]
    have hlater : cursor < row.1 := by
      simpa using (List.mem_filter.mp (List.mem_of_mem_take hrow)).2
    have hcut := @upTo_append_later _ feed cursor h
    have hsplit : Growing ((later feed cursor).take limit ++ (later feed cursor).drop limit) := by
      rw [List.take_append_drop]
      exact h.sublist List.filter_sublist
    have hbehind : ∀ other ∈ (later feed cursor).drop limit, row.1 < other.1 :=
      fun other hother => (List.pairwise_append.mp hsplit).2.2 row hrow other hother
    calc upTo feed row.1
        = upTo (upTo feed cursor ++ ((later feed cursor).take limit ++ (later feed cursor).drop limit)) row.1 := by
          rw [List.take_append_drop, hcut]
      _ = upTo feed cursor ++ ((later feed cursor).take limit ++ []) := by
          rw [upTo_append, upTo_append, upTo_none hbehind]
          rw [upTo_all fun other hother => hlast _ (List.mem_map_of_mem hother)]
          rw [upTo_all fun other hother => le_trans (by simpa using (List.mem_filter.mp hother).2) hlater.le]
      _ = upTo feed cursor ++ (later feed cursor).take limit := by rw [List.append_nil]

/-- A page that does not move the cursor is empty, and nothing lies behind it. -/
theorem upTo_of_pageEnd {limit : Nat} (h : Growing feed) (hlimit : 0 < limit)
    (hend : pageEnd cursor ((later feed cursor).take limit) = cursor) : upTo feed cursor = feed := by
  have hpage : (later feed cursor).take limit = [] := by
    have hread := @upTo_pageEnd _ feed cursor h limit
    rw [hend] at hread
    exact List.append_cancel_left ((List.append_nil _).trans hread) |>.symm
  have hnone : later feed cursor = [] := by
    rcases List.take_eq_nil_iff.mp hpage with hzero | hnil
    · omega
    · exact hnil
  have hcut := @upTo_append_later _ feed cursor h
  rwa [hnone, List.append_nil] at hcut

/-- The end of a page is a key of the feed, when it is not the cursor. -/
theorem pageEnd_mem {limit : Nat} :
    pageEnd cursor ((later feed cursor).take limit) = cursor ∨
      ∃ row ∈ feed, row.1 = pageEnd cursor ((later feed cursor).take limit) := by
  cases hmax : (((later feed cursor).take limit).map Prod.fst).max? with
  | none => exact .inl (by rw [pageEnd, hmax]; rfl)
  | some last =>
    obtain ⟨row, hrow, heq⟩ := List.mem_map.mp (List.max?_eq_some_iff.mp hmax).1
    exact .inr ⟨row, (List.mem_filter.mp (List.mem_of_mem_take hrow)).1, by rw [pageEnd, hmax]; exact heq⟩

end

/-! ### Readers -/

/-- The last key one has read, and what it has read. -/
structure Reader (α : Type) where
  cursor : Nat := 0
  received : List α := []

/-- Of a page, the rows that are shown. -/
def Reader.read (reader : Reader β) (page : List (Nat × α)) (shown : α → Option β) : Reader β where
  cursor := pageEnd reader.cursor page
  received := reader.received ++ (page.map Prod.snd).filterMap shown

/-- A reader has what is shown of a front of the feed, and its cursor is before every key to come. -/
structure Reader.Level (reader : Reader β) (feed : List (Nat × α)) (shown : α → Option β) (next : Nat) : Prop where
  received : reader.received = ((upTo feed reader.cursor).map Prod.snd).filterMap shown
  before : reader.cursor < next

section
variable {feed more : List (Nat × α)} {shown : α → Option β} {reader : Reader β} {next : Nat}

theorem level_new (hnext : 0 < next) (hkeys : ∀ row ∈ feed, 0 < row.1) : (({} : Reader β)).Level feed shown next where
  received := by rw [upTo_none hkeys]; rfl
  before := hnext

theorem level_put {next' : Nat} (h : reader.Level feed shown next) (hmore : ∀ row ∈ more, next ≤ row.1)
    (hnext : next ≤ next') : reader.Level (feed ++ more) shown next' where
  received := by
    rw [upTo_put fun row hrow => h.before.trans_le (hmore row hrow)]
    exact h.received
  before := h.before.trans_le hnext

theorem level_read (h : reader.Level feed shown next) (hgrowing : Growing feed) (hkeys : ∀ row ∈ feed, row.1 < next)
    (limit : Nat) : (reader.read ((later feed reader.cursor).take limit) shown).Level feed shown next where
  received := by
    rw [Reader.read, upTo_pageEnd hgrowing, List.map_append, List.filterMap_append, ← h.received]
  before := by
    rcases @pageEnd_mem _ feed reader.cursor limit with heq | ⟨row, hrow, heq⟩
    · exact heq.trans_lt h.before
    · exact heq.symm.trans_lt (hkeys row hrow)

/-- A reader has a front of what is shown of the feed. -/
theorem level_prefix (h : reader.Level feed shown next) (hgrowing : Growing feed) :
    reader.received <+: (feed.map Prod.snd).filterMap shown := by
  refine ⟨((later feed reader.cursor).map Prod.snd).filterMap shown, ?_⟩
  rw [h.received, ← List.filterMap_append, ← List.map_append, upTo_append_later hgrowing]

/-- A reader whose next page does not move its cursor has all of it. -/
theorem level_all {limit : Nat} (h : reader.Level feed shown next) (hgrowing : Growing feed) (hlimit : 0 < limit)
    (hend : pageEnd reader.cursor ((later feed reader.cursor).take limit) = reader.cursor) :
    reader.received = (feed.map Prod.snd).filterMap shown := by
  rw [h.received, upTo_of_pageEnd hgrowing hlimit hend]

end
/-! ### Feeds and tables -/

/-- A page of a table that is in order of its keys. -/
theorem page_growing {key : α → Nat} {p : α → Bool} {rows : List α} (h : rows.Pairwise fun a b => key a < key b)
    (n : Nat) : page key p rows n = (rows.filter p).take n := by
  have hsorted : (rows.filter p).Pairwise fun a b => key a ≤ key b :=
    (h.sublist List.filter_sublist).imp Nat.le_of_lt
  rw [page, hsorted.insertionSort_eq]

end Operant.Tables
