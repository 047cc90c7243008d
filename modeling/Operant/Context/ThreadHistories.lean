import Operant.Context.Histories

/-! A thread that is cleared and compacted again and again, and read in between. -/
namespace Operant.Context
open Operant.Python Operant.Security

/-! ### Pages -/

variable {lib : Libraries} {reader : ThreadReader} {request : ReferenceRequest} {items : List Item}

/-- The items behind a cursor, in their order. -/
def itemsBehind (items : List Item) (after : Nat) : List Item := Tables.behind (·.cursor) items after

theorem listItems_eq (items : List Item) (after : Option Nat) (limit : Nat) :
    listItems items after limit = (itemsBehind items (after.getD 0)).take limit := rfl

/-- Reading goes on where it was left, unless it was stopped. -/
theorem readPage_append (a b : List Item) (selection : Selection) :
    lib.readPage reader request (a ++ b) selection =
      lib.readPage reader request a selection >>= fun read =>
        if read.2 then .ok read else lib.readPage reader request b read.1 := by
  induction a generalizing selection with
  | nil => rfl
  | cons item rest ih =>
    rw [List.cons_append, Libraries.readPage, Libraries.readPage]
    split
    · rfl
    · cases lib.addItem reader request selection item with
      | error e => rfl
      | ok selection => exact ih selection

/-- Page by page, the items behind the cursor are read as one. -/
theorem readPages_eq (hkeys : (reader.items.map (·.cursor)).Nodup) (n : Nat) (cursor : Option Nat)
    (selection : Selection) (hn : (itemsBehind reader.items (cursor.getD 0)).length < n) :
    lib.readPages reader request n cursor selection =
      Prod.fst <$> lib.readPage reader request (itemsBehind reader.items (cursor.getD 0)) selection := by
  induction n generalizing cursor selection with
  | zero => exact absurd hn (Nat.not_lt_zero _)
  | succ n ih =>
    unfold Libraries.readPages
    rw [listItems_eq]
    dsimp only
    have hsplit := List.take_append_drop threadPageSize (itemsBehind reader.items (cursor.getD 0))
    conv_rhs => rw [← hsplit, readPage_append]
    cases hread : lib.readPage reader request ((itemsBehind reader.items (cursor.getD 0)).take threadPageSize) selection with
    | error e => rfl
    | ok read =>
      show (if read.2 = true ∨ _ then pure read.1 else _) = Prod.fst <$> (if read.2 = true then _ else _)
      by_cases hstopped : read.2 = true
      · rw [if_pos (.inl hstopped), if_pos hstopped]
        rfl
      · rw [if_neg hstopped]
        by_cases hshort : ((itemsBehind reader.items (cursor.getD 0)).take threadPageSize).length < threadPageSize
        · have hnil : (itemsBehind reader.items (cursor.getD 0)).drop threadPageSize = [] := by
            rw [List.length_take] at hshort
            rw [List.drop_eq_nil_iff]
            omega
          rw [if_pos (.inr hshort), hnil]
          rfl
        · have hlong : threadPageSize ≤ (itemsBehind reader.items (cursor.getD 0)).length := by
            rw [List.length_take] at hshort
            omega
          rw [if_neg (not_or.mpr ⟨hstopped, hshort⟩)]
          cases hlast : ((itemsBehind reader.items (cursor.getD 0)).take threadPageSize).getLast? with
          | none =>
            rw [List.getLast?_eq_none_iff] at hlast
            rw [hlast] at hshort
            exact absurd (by decide) hshort
          | some last =>
            have hbehind : itemsBehind reader.items last.cursor =
                (itemsBehind reader.items (cursor.getD 0)).drop threadPageSize :=
              Tables.behind_last hkeys hlast
            have hpos : 0 < threadPageSize := by decide
            rw [Option.map_some, ih (some last.cursor) read.1 (by
              rw [Option.getD_some, hbehind, List.length_drop]
              omega), Option.getD_some, hbehind]

/-- What has been read: items in their order, none beyond the end. -/
structure Reads (reader : ThreadReader) (lib : Libraries) (before after : Selection) (read : List Item) : Prop where
  refs : after.exactItemRefs = before.exactItemRefs ++ read.map lib.itemRef
  entries : after.semanticEntries = before.semanticEntries ++ read.filterMap semanticEntry

theorem addItem_cases (selection : Selection) (item : Item) :
    (∃ message, lib.addItem reader request selection item = .error (.limit message)) ∨
      ∃ after, lib.addItem reader request selection item = .ok after ∧ Reads reader lib selection after [item] := by
  unfold Libraries.addItem
  split
  · exact .inl ⟨_, rfl⟩
  · dsimp only
    split
    · exact .inl ⟨_, rfl⟩
    · split
      · exact .inl ⟨_, rfl⟩
      · refine .inr ⟨_, rfl, rfl, ?_⟩
        dsimp only
        cases hentry : semanticEntry item with
        | none => rw [List.filterMap_cons_none hentry]; rfl
        | some entry => rw [List.filterMap_cons_some hentry]; rfl

/-- A page is read up to an item beyond the end, or refused for the limit. -/
theorem readPage_cases (page : List Item) (selection : Selection) :
    (∃ message, lib.readPage reader request page selection = .error (.limit message)) ∨
      ∃ after stopped, lib.readPage reader request page selection = .ok (after, stopped) ∧
        Reads reader lib selection after
          (page.takeWhile fun item => !reader.threadItemCursorEnd.any (· < item.cursor)) := by
  induction page generalizing selection with
  | nil => exact .inr ⟨selection, false, rfl, by simp, by simp⟩
  | cons item rest ih =>
    unfold Libraries.readPage
    by_cases hbeyond : reader.threadItemCursorEnd.any (· < item.cursor) = true
    · rw [if_pos hbeyond, List.takeWhile_cons_of_neg (by simp [hbeyond])]
      exact .inr ⟨selection, true, rfl, by simp, by simp⟩
    · rw [if_neg hbeyond, List.takeWhile_cons_of_pos (by simpa using hbeyond)]
      cases @addItem_cases lib reader request selection item with
      | inl herror =>
        obtain ⟨message, herror⟩ := herror
        rw [herror]
        exact .inl ⟨message, rfl⟩
      | inr hadded =>
        obtain ⟨next, hnext, hitem⟩ := hadded
        rw [hnext]
        cases ih next with
        | inl herror => exact .inl herror
        | inr hread =>
          obtain ⟨after, stopped, heq, hrest⟩ := hread
          refine .inr ⟨after, stopped, heq, ?_, ?_⟩
          · rw [hrest.refs, hitem.refs, List.append_assoc]
            rfl
          · rw [hrest.entries, hitem.entries, List.append_assoc, ← List.filterMap_append]
            rfl

/-- Nothing is behind the last item. -/
theorem explicitItems_eq (hkeys : (items.map (·.cursor)).Nodup) {last : Nat}
    (hlast : ∀ item ∈ items, item.cursor ≤ last) (n cursor : Nat) (hn : (itemsBehind items cursor).length < n) :
    Libraries.explicitItems items last n cursor = itemsBehind items cursor := by
  induction n generalizing cursor with
  | zero => exact absurd hn (Nat.not_lt_zero _)
  | succ n ih =>
    have hpage : ((itemsBehind items cursor).take 1000).filter (·.cursor ≤ last) = (itemsBehind items cursor).take 1000 := by
      rw [List.filter_eq_self]
      intro item hitem
      exact decide_eq_true (hlast item (Tables.mem_behind.mp (List.mem_of_mem_take hitem)).1)
    have hsplit := List.take_append_drop 1000 (itemsBehind items cursor)
    unfold Libraries.explicitItems
    rw [listItems_eq]
    dsimp only [Option.getD_some]
    rw [hpage]
    cases hend : ((itemsBehind items cursor).take 1000).getLast? with
    | none =>
      rw [List.getLast?_eq_none_iff] at hend
      rw [List.take_eq_nil_iff] at hend
      rw [hend.resolve_left (by decide)]
      rfl
    | some item =>
      have hbehind : itemsBehind items item.cursor = (itemsBehind items cursor).drop 1000 :=
        Tables.behind_last hkeys hend
      have hitem := hlast item (Tables.mem_behind.mp (List.mem_of_mem_take (List.mem_of_getLast? hend))).1
      dsimp only
      split
      · rename_i hstop
        have hnil : (itemsBehind items cursor).drop 1000 = [] := by
          rcases hstop with hshort | hend | hbeyond
          · rw [List.length_take] at hshort
            rw [List.drop_eq_nil_iff]
            omega
          · rw [← hbehind, hend, List.eq_nil_iff_forall_not_mem]
            intro other hother
            obtain ⟨hmem, hlt⟩ := Tables.mem_behind.mp hother
            have hle := hlast other hmem
            omega
          · omega
        rw [hnil, List.append_nil] at hsplit
        exact hsplit
      · rename_i hgo
        have hlong : ¬((itemsBehind items cursor).take 1000).length < 1000 := fun h => hgo (.inl h)
        rw [ih item.cursor (by
          rw [List.length_take] at hlong
          rw [hbehind, List.length_drop]
          omega), hbehind, hsplit]

/-! ### Compactions of a thread -/

/-- What the user has written in an item. -/
def itemLines (lib : Libraries) (item : Item) : List (List Char) :=
  match semanticEntry item with
  | some entry => if entry.role ∈ ["user", "steering"] then lib.written entry.body else []
  | none => []

/-- The compaction covers these items, in their order, and keeps every line of theirs. -/
structure Covers (lib : Libraries) (items : List Item) (compaction : Compaction) (covered : List Item) : Prop where
  refs : compaction.coveredItemRefs = covered.map lib.itemRef
  stored : covered ⊆ items
  sorted : covered.Pairwise fun a b => a.cursor < b.cursor
  lines : ∀ item ∈ covered, ∀ line ∈ itemLines lib item, Occurs lib line (requirements compaction.summary)

theorem lines_of_entries {entries : List Entry} {covered : List Item} {texts : List String}
    (hentries : covered.filterMap semanticEntry = entries)
    (h : ∀ entry ∈ entries, entry.role ∈ ["user", "steering"] → ∀ line ∈ lib.written entry.body, Occurs lib line texts) :
    ∀ item ∈ covered, ∀ line ∈ itemLines lib item, Occurs lib line texts := by
  intro item hitem line hline
  unfold itemLines at hline
  split at hline
  · rename_i entry hentry
    split at hline
    · rename_i hrole
      exact h entry (hentries ▸ List.mem_filterMap.mpr ⟨item, hitem, hentry⟩) hrole line hline
    · exact absurd hline List.not_mem_nil
  · exact absurd hline List.not_mem_nil

theorem requirements_explicitSummary (facts : Facts) (count : Nat) :
    requirements (Libraries.explicitSummary facts count) = facts.userRequirements := by
  unfold requirements Libraries.explicitSummary strings
  simp [List.lookup_cons, List.filterMap_map, Function.comp_def]

/-! ### The summary of a thread -/

namespace Libraries
variable (lib : Libraries) (reader : ThreadReader) (facts : Facts) (count : Nat)

theorem threadState_names : ["workspace", "source_notes", "user_requirements"].all isFieldName = true := by
  decide +kernel

theorem threadSummaryValue_names : ["active_goal", "constraints", "decisions", "open_tasks", "completed_steps",
    "workspace_state", "next_actions"].all isFieldName = true := by
  decide +kernel

theorem isRecord_threadSummaryValue : isRecord (threadSummaryValue reader facts count) = true := by
  unfold threadSummaryValue
  simp only [isRecord, isRecordDict, isRecord_strings, List.map_cons, List.map_nil, threadState_names,
    threadSummaryValue_names]
  rfl

theorem nesting_threadSummaryValue : nesting (threadSummaryValue reader facts count) ≤ 12 := by
  unfold threadSummaryValue
  simp only [nesting, nestingOfDict]
  grind [nesting_strings]

/-- What the summary of a thread keeps of the value it is made from. -/
def threadSafeSummary : CompactionSummary where
  activeGoal := lib.redact facts.activeGoal
  constraints := facts.constraints.map lib.redact
  decisions := facts.decisions.map lib.redact
  openTasks := facts.openTasks.map lib.redact
  completedSteps := ["Canonical Thread contains " ++ toString count ++ " committed Items."].map lib.redact
  workspaceState := [("workspace", .str (lib.redact reader.workspace)),
    ("source_notes", strings (facts.sourceNotes.map lib.redact)),
    ("user_requirements", strings (facts.userRequirements.map lib.redact))]
  nextActions := ["Continue from the bounded recent canonical Item selection."].map lib.redact

theorem validate_threadSummaryValue (entries : Refs) (h : threadSummaryValue reader facts count = .dict entries) :
    CompactionSummary.validate (.dict (lib.redactEntries 100000 entries [])) =
      some (lib.threadSafeSummary reader facts count) := by
  have hstate : lib.redactTexts 100000 (.dict [("workspace", .str reader.workspace),
      ("source_notes", strings facts.sourceNotes), ("user_requirements", strings facts.userRequirements)]) =
      .dict (lib.threadSafeSummary reader facts count).workspaceState := by
    rw [Interpreter.redactTexts, Interpreter.redactEntries_fields 100000 lib.ascii]
    · simp only [List.nil_append, List.map_cons, List.map_nil, redactTexts_strings, Interpreter.redactTexts]
      rfl
    · exact threadState_names
    · simp
  cases h
  rw [Interpreter.redactEntries_fields 100000 lib.ascii]
  · simp only [List.nil_append, List.map_cons, List.map_nil, redactTexts_strings, hstate]
    rw [Interpreter.redactTexts]
    unfold CompactionSummary.validate threadSafeSummary redact
    simp [onlyKeys, summaryFields, field, List.lookup_cons, List.lookup_nil, readTexts_strings]
  · exact threadSummaryValue_names
  · simp

theorem threadSafeSummary_cases : (∃ message, lib.safeCompactionSummary (threadSummaryValue reader facts count)
      (min summaryMaxTokens reader.inlineLimit) = .error (.limit message)) ∨
    lib.safeCompactionSummary (threadSummaryValue reader facts count)
      (min summaryMaxTokens reader.inlineLimit) = .ok (lib.threadSafeSummary reader facts count) :=
  lib.safeCompactionSummary_cases (isRecord_threadSummaryValue ..) (nesting_threadSummaryValue ..)
    (Nat.min_le_left ..) (lib.validate_threadSummaryValue reader facts count _ rfl)

end Libraries

theorem requirements_threadSafeSummary (facts : Facts) (count : Nat) :
    requirements (lib.threadSafeSummary reader facts count) = facts.userRequirements.map lib.redact := by
  unfold requirements Libraries.threadSafeSummary strings
  simp [List.lookup_cons, List.filterMap_map, Function.comp_def]

/-! ### Reading a thread -/

theorem sorted_ends {covered : List Item} (hne : covered ≠ []) (hpos : ∀ item ∈ covered, 1 ≤ item.cursor)
    (hsorted : covered.Pairwise fun a b => a.cursor < b.cursor) :
    ∃ first last, (covered.map lib.itemRef).head?.bind (·.cursor) = some first ∧
      (covered.map lib.itemRef).getLast?.bind (·.cursor) = some last ∧
      covered.getLast?.map (·.cursor) = some last ∧ 1 ≤ first ∧ first ≤ last := by
  obtain ⟨item, rest, rfl⟩ := List.exists_cons_of_ne_nil hne
  have hfirst := hpos item List.mem_cons_self
  rw [List.getLast?_map, List.getLast?_cons]
  refine ⟨item.cursor, _, rfl, rfl, rfl, hfirst, ?_⟩
  cases hlast : rest.getLast? with
  | none => exact Nat.le_refl _
  | some last =>
    have hmem : last ∈ rest := List.mem_of_getLast? hlast
    exact Nat.le_of_lt ((List.pairwise_cons.mp hsorted).1 last hmem)

/-- A baseline with a compaction of the thread's items up to its end. -/
structure GoodBaseline (lib : Libraries) (sessionId threadId : String) (items : List Item)
    (baseline : Baseline) : Prop where
  compact : baseline.operation = .compact → ∃ compaction covered, baseline.compaction = some compaction ∧
    compaction.sessionId = sessionId ∧ compaction.threadId = some threadId ∧
    compaction.sourceType = .threadItems ∧ compaction.sourceCursorEnd = baseline.itemCursorEnd ∧
    HasNotes compaction.summary ∧ covered ≠ [] ∧
    covered.getLast?.map (·.cursor) = some baseline.itemCursorEnd ∧ Covers lib items compaction covered

/-- More items leave a baseline good. -/
theorem GoodBaseline.mono {sessionId threadId : String} {items more : List Item} {baseline : Baseline}
    (h : GoodBaseline lib sessionId threadId items baseline) (hsub : items ⊆ more) :
    GoodBaseline lib sessionId threadId more baseline where
  compact hop := by
    obtain ⟨compaction, covered, hcompaction, hsession, hthread, hsource, hend, hnotes, hne, hlast, hcovers⟩ :=
      h.compact hop
    exact ⟨compaction, covered, hcompaction, hsession, hthread, hsource, hend, hnotes, hne, hlast,
      hcovers.refs, fun _ hitem => hsub (hcovers.stored hitem), hcovers.sorted, hcovers.lines⟩

/-- A compaction of a thread covers what the baseline covers and what has been read, or it is refused for the limit. -/
theorem threadCompaction_cases {baseline : Option Compaction} {before read : List Item} {selection : Selection}
    (hread : Reads reader lib {} selection read) (hne : read ≠ [])
    (hbaseline : ∀ compaction, baseline = some compaction → HasNotes compaction.summary ∧
      Covers lib items compaction before)
    (hnone : baseline = none → before = []) (hstored : read ⊆ items)
    (hpos : ∀ item ∈ before ++ read, 1 ≤ item.cursor)
    (hsorted : (before ++ read).Pairwise fun a b => a.cursor < b.cursor) :
    (∃ message, lib.threadCompaction reader baseline selection = .error (.limit message)) ∨
      ∃ compaction, lib.threadCompaction reader baseline selection = .ok compaction ∧
        Covers lib items compaction (before ++ read) := by
  have hrefs : ((baseline.map (·.coveredItemRefs)).getD []) ++ selection.exactItemRefs =
      (before ++ read).map lib.itemRef := by
    rw [hread.refs, List.map_append]
    cases hcase : baseline with
    | none => rw [hnone hcase]; rfl
    | some compaction => rw [← (hbaseline compaction hcase).2.refs]; rfl
  obtain ⟨first, last, hfirst, hlast, -, hone, hle⟩ :=
    @sorted_ends lib _ (List.append_ne_nil_of_right_ne_nil before hne) hpos hsorted
  obtain ⟨facts, hfacts⟩ := @facts_ok lib selection.semanticEntries (baseline.map (·.summary)) (by
    intro summary hsummary
    obtain ⟨compaction, hcompaction, rfl⟩ := Option.map_eq_some_iff.mp hsummary
    exact (hbaseline compaction hcompaction).1)
  unfold Libraries.threadCompaction
  dsimp only
  rw [hrefs, hfacts, hfirst, hlast]
  cases lib.threadSafeSummary_cases reader facts ((before ++ read).map lib.itemRef).length with
  | inl hlimit =>
    obtain ⟨message, hlimit⟩ := hlimit
    refine .inl ⟨message, ?_⟩
    show (lib.safeCompactionSummary _ _ >>= _) = _
    rw [hlimit]
    rfl
  | inr hmade =>
    refine .inr ⟨?compaction, ?made, ?covers⟩
    case made =>
      show (lib.safeCompactionSummary _ _ >>= _) = _
      rw [hmade]
      show (if 1 ≤ first ∧ first ≤ last then _ else _) = _
      rw [if_pos ⟨hone, hle⟩]
      rfl
    case covers =>
      refine ⟨rfl, fun item hitem => ?_, hsorted, ?_⟩
      · cases List.mem_append.mp hitem with
        | inr hmem => exact hstored hmem
        | inl hmem =>
          cases hcase : baseline with
          | none => rw [hnone hcase] at hmem; exact absurd hmem List.not_mem_nil
          | some compaction => exact (hbaseline compaction hcase).2.stored hmem
      · dsimp only
        rw [requirements_threadSafeSummary]
        obtain ⟨hkept, hadded⟩ := facts_requirements hfacts
        intro item hitem line hline
        apply Occurs.redacted
        cases List.mem_append.mp hitem with
        | inl hmem =>
          cases hcase : baseline with
          | none => rw [hnone hcase] at hmem; exact absurd hmem List.not_mem_nil
          | some compaction =>
            exact hkept compaction.summary (by rw [hcase]; rfl) line
              ((hbaseline compaction hcase).2.lines item hmem line hline)
        | inr hmem => exact lines_of_entries hread.entries.symm hadded item hmem line hline

/-! ### Histories of a thread -/

/-- A thread of a session: its items, and the baselines that were appended to it. -/
structure Thread where
  sessionId : String
  threadId : String
  items : List Item := []
  baselines : List Baseline := []

/-- An item is appended, or `append_context_baseline` is called. -/
inductive ThreadEvent where
  /-- The database may leave cursors out. -/
  | append (item : Item) (gap : Nat)
  | clear
  | compact (agentId : String)

namespace Thread

/-- `_latest_thread_item_cursor`. -/
def latestCursor (thread : Thread) : Nat := thread.items.foldl (fun latest item => max latest item.cursor) 0

def compaction (lib : Libraries) (thread : Thread) (agentId : String) : Except ContextError Compaction :=
  lib.explicitCompaction thread.sessionId agentId thread.threadId thread.items thread.baselines thread.latestCursor

def step (lib : Libraries) (thread : Thread) : ThreadEvent → Thread
  | .append item gap =>
    { thread with items := thread.items ++ [{ item with cursor := thread.latestCursor + 1 + gap }] }
  | .clear => { thread with baselines := thread.baselines ++ [⟨.clear, thread.latestCursor, none⟩] }
  | .compact agentId => match thread.compaction lib agentId with
    | .ok compaction =>
      { thread with baselines := thread.baselines ++ [⟨.compact, thread.latestCursor, some compaction⟩] }
    | .error _ => thread

def run (lib : Libraries) (thread : Thread) (events : List ThreadEvent) : Thread := events.foldl (step lib) thread

/-- The thread as a composer reads it. -/
def readBy (thread : Thread) (view : ThreadReader) : ThreadReader :=
  { view with
    sessionId := thread.sessionId
    threadId := thread.threadId
    items := thread.items
    baseline := thread.baselines.getLast? }

theorem readBy_baseline (thread : Thread) (view : ThreadReader) :
    (thread.readBy view).baseline = thread.baselines.getLast? := rfl

end Thread

/-- A reference that is resolved keeps every line of the items that its compaction covers; else it is
refused for the limit. -/
def Keeps (lib : Libraries) (items : List Item) : Except ContextError Resolved → Prop
  | .ok resolved => ∀ compaction, resolved.compaction = some compaction →
    ∃ covered, Covers lib items compaction covered
  | .error error => ∃ message, error = .limit message

/-- Whether the composer compacts the thread or is asked to, no line is lost. -/
def KeepsThreadLines (lib : Libraries) (thread : Thread) : Prop :=
  (∀ view request, Keeps lib thread.items (lib.resolveThreadInline (thread.readBy view) request)) ∧
  ∀ agentId, match thread.compaction lib agentId with
    | .ok compaction => ∃ covered, Covers lib thread.items compaction covered
    | .error error =>
      (∃ message, error = .limit message) ∨ error = .conflict "there are no active Thread Items to compact"

/-- Cursors grow, and every baseline is good. -/
structure Thread.Good (lib : Libraries) (thread : Thread) : Prop where
  sorted : thread.items.Pairwise fun a b => a.cursor < b.cursor
  positive : ∀ item ∈ thread.items, 1 ≤ item.cursor
  baselines : ∀ baseline ∈ thread.baselines, GoodBaseline lib thread.sessionId thread.threadId thread.items baseline

namespace Thread
variable {thread : Thread}

theorem le_foldl_max (items : List Item) (start : Nat) :
    start ≤ items.foldl (fun latest item => max latest item.cursor) start ∧
      ∀ item ∈ items, item.cursor ≤ items.foldl (fun latest item => max latest item.cursor) start := by
  induction items generalizing start with
  | nil => exact ⟨Nat.le_refl _, fun _ h => absurd h List.not_mem_nil⟩
  | cons first rest ih =>
    obtain ⟨hstart, hrest⟩ := ih (max start first.cursor)
    refine ⟨by rw [List.foldl_cons]; omega, fun item hitem => ?_⟩
    cases List.mem_cons.mp hitem with
    | inl heq => rw [heq, List.foldl_cons]; omega
    | inr hmem => exact hrest item hmem

theorem foldl_max_mem (items : List Item) (start : Nat) :
    items.foldl (fun latest item => max latest item.cursor) start = start ∨
      ∃ item ∈ items, item.cursor = items.foldl (fun latest item => max latest item.cursor) start := by
  induction items generalizing start with
  | nil => exact .inl rfl
  | cons first rest ih =>
    rw [List.foldl_cons]
    cases ih (max start first.cursor) with
    | inr h =>
      obtain ⟨item, hitem, heq⟩ := h
      exact .inr ⟨item, List.mem_cons_of_mem _ hitem, heq⟩
    | inl h =>
      rw [h]
      cases Nat.le_total start first.cursor with
      | inl hle => exact .inr ⟨first, List.mem_cons_self, (Nat.max_eq_right hle).symm⟩
      | inr hle => exact .inl (Nat.max_eq_left hle)

theorem le_latestCursor {item : Item} (h : item ∈ thread.items) : item.cursor ≤ thread.latestCursor :=
  (le_foldl_max thread.items 0).2 item h

/-- The last item behind a cursor is the latest. -/
theorem last_behind (hkeys : (thread.items.map (·.cursor)).Nodup) {after : Nat} {last : Item}
    (hlast : (itemsBehind thread.items after).getLast? = some last) : last.cursor = thread.latestCursor := by
  have hmem := Tables.mem_behind.mp (List.mem_of_getLast? hlast)
  have hle := le_latestCursor hmem.1
  cases foldl_max_mem thread.items 0 with
  | inl hzero =>
    change thread.latestCursor = 0 at hzero
    omega
  | inr hsome =>
    obtain ⟨item, hitem, heq⟩ := hsome
    change item.cursor = thread.latestCursor at heq
    have hbehind : item ∈ itemsBehind thread.items after := Tables.mem_behind.mpr ⟨hitem, by omega⟩
    have hsorted := Tables.pairwise_behind Item.cursor hkeys after
    obtain ⟨front, hfront⟩ := List.getLast?_eq_some_iff.mp hlast
    change itemsBehind thread.items after = front ++ [last] at hfront
    change (itemsBehind thread.items after).Pairwise _ at hsorted
    rw [hfront] at hbehind hsorted
    cases List.mem_append.mp hbehind with
    | inr hself => rw [← heq, List.mem_singleton.mp hself]
    | inl hbefore =>
      have hlt := (List.pairwise_append.mp hsorted).2.2 item hbefore last (List.mem_singleton.mpr rfl)
      omega

theorem Good.keys (good : thread.Good lib) : (thread.items.map (·.cursor)).Nodup := by
  rw [List.nodup_iff_pairwise_ne, List.pairwise_map]
  exact good.sorted.imp fun hlt heq => absurd hlt (by omega)

theorem Good.behind_stored (_good : thread.Good lib) (after : Nat) :
    itemsBehind thread.items after ⊆ thread.items :=
  fun _ hitem => (Tables.mem_behind.mp hitem).1

theorem Good.behind_sorted (good : thread.Good lib) (after : Nat) :
    (itemsBehind thread.items after).Pairwise fun a b => a.cursor < b.cursor :=
  Tables.pairwise_behind Item.cursor good.keys after

theorem length_behind (items : List Item) (after : Nat) : (itemsBehind items after).length < items.length + 1 := by
  unfold itemsBehind Tables.behind
  rw [List.length_insertionSort]
  exact Nat.lt_succ_of_le (List.length_filter_le ..)

/-- A compaction on demand covers all that was not cleared, or it is refused. -/
theorem Good.compaction_cases (good : thread.Good lib) (agentId : String) :
    thread.compaction lib agentId = .error (.conflict "there are no active Thread Items to compact") ∨
      (∃ message, thread.compaction lib agentId = .error (.limit message)) ∨
      ∃ compaction covered, thread.compaction lib agentId = .ok compaction ∧
        GoodBaseline lib thread.sessionId thread.threadId thread.items
          ⟨.compact, thread.latestCursor, some compaction⟩ ∧
        Covers lib thread.items compaction covered := by
  unfold compaction Libraries.explicitCompaction
  rw [explicitItems_eq good.keys (fun _ hitem => le_latestCursor hitem) _ _ (length_behind ..)]
  dsimp only
  split
  · exact .inl rfl
  · rename_i hne
    have hpos : ∀ item ∈ itemsBehind thread.items (Libraries.startAfter thread.baselines), 1 ≤ item.cursor :=
      fun item hitem => good.positive item (good.behind_stored _ hitem)
    obtain ⟨first, last, hfirst, hlast, hend, hone, hle⟩ := @sorted_ends lib _ hne hpos (good.behind_sorted _)
    obtain ⟨facts, hfacts⟩ := @facts_ok lib ((itemsBehind thread.items
      (Libraries.startAfter thread.baselines)).filterMap semanticEntry) none nofun
    rw [hfacts, hfirst, hlast]
    dsimp only [bind, Except.bind, Option.getD_some]
    refine .inr ?_
    split
    · exact .inl ⟨_, rfl⟩
    · rw [if_pos ⟨hone, hle⟩]
      have hlatest : last = thread.latestCursor := by
        obtain ⟨item, hitem, heq⟩ := Option.map_eq_some_iff.mp hend
        rw [← heq, last_behind good.keys hitem]
      have hcovers (compaction : Compaction) (count : Nat)
          (hrefs : compaction.coveredItemRefs =
            (itemsBehind thread.items (Libraries.startAfter thread.baselines)).map lib.itemRef)
          (hsummary : compaction.summary = Libraries.explicitSummary facts count) :
          Covers lib thread.items compaction (itemsBehind thread.items (Libraries.startAfter thread.baselines)) := by
        refine ⟨hrefs, good.behind_stored _, good.behind_sorted _, ?_⟩
        rw [hsummary, requirements_explicitSummary]
        exact lines_of_entries rfl (facts_requirements hfacts).2
      refine .inr ⟨_, _, rfl, ⟨fun _ => ⟨_, _, rfl, rfl, rfl, rfl, hlatest, ?_, hne, ?_, hcovers _ _ rfl rfl⟩⟩,
        hcovers _ _ rfl rfl⟩
      · exact ⟨⟨_, rfl⟩, _, rfl⟩
      · rw [hend, hlatest]

/-! ### Reading it -/

theorem checkedReference_keeps (items : List Item) (rendered : Refs) (sourceRefs : List ContextSourceRef)
    (first last : Option Nat) (compaction : Option Compaction)
    (h : ∀ c, compaction = some c → ∃ covered, Covers lib items c covered) :
    Keeps lib items (lib.checkedReference request rendered sourceRefs first last compaction) := by
  unfold Libraries.checkedReference
  split
  · exact ⟨_, rfl⟩
  · exact h

/-- The compaction of the baseline covers items up to its end. -/
theorem Good.baseline (good : thread.Good lib) (view : ThreadReader) :
    ∃ compaction before, (thread.readBy view).baselineCompaction = .ok compaction ∧
      (compaction = none → before = []) ∧
      (∀ c, compaction = some c → HasNotes c.summary ∧ Covers lib thread.items c before) ∧
      (∀ item ∈ before, item.cursor ≤ ((thread.readBy view).baseline.map (·.itemCursorEnd)).getD 0) ∧
      ∀ baseline, (thread.readBy view).baseline = some baseline →
        (baseline.operation = .clear → compaction = none) ∧
        (baseline.operation = .compact → ∃ last ∈ before, last.cursor = baseline.itemCursorEnd) := by
  have hnone : ∀ item ∈ ([] : List Item),
      item.cursor ≤ ((thread.readBy view).baseline.map (·.itemCursorEnd)).getD 0 :=
    fun _ h => absurd h List.not_mem_nil
  unfold ThreadReader.baselineCompaction
  cases hlast : (thread.readBy view).baseline with
  | none => exact ⟨none, [], rfl, fun _ => rfl, nofun, hlast ▸ hnone, nofun⟩
  | some baseline =>
    have hgood := good.baselines baseline (List.mem_of_getLast? hlast)
    dsimp only
    cases hop : baseline.operation with
    | clear =>
      refine ⟨none, [], rfl, fun _ => rfl, nofun, hlast ▸ hnone, fun other hother => ?_⟩
      cases hother
      exact ⟨fun _ => rfl, fun hcompact => by rw [hop] at hcompact; exact nomatch hcompact⟩
    | compact =>
      obtain ⟨compaction, covered, hcompaction, hsession, hthread, hsource, hend, hnotes, hne, hcovered, hcovers⟩ :=
        hgood.compact hop
      obtain ⟨last, hmem, heq⟩ := Option.map_eq_some_iff.mp hcovered
      refine ⟨some compaction, covered, ?_, nofun, ?_, fun item hitem => ?_, fun other hother => ?_⟩
      · rw [hcompaction]
        dsimp only
        have hnot : ¬(compaction.sessionId ≠ (thread.readBy view).sessionId ∨
            compaction.threadId ≠ some (thread.readBy view).threadId ∨
            compaction.sourceType ≠ .threadItems ∨ compaction.sourceCursorEnd ≠ baseline.itemCursorEnd) := by
          simp [hsession, hthread, hsource, hend, Thread.readBy]
        rw [if_neg hnot]
      · intro c hc
        cases hc
        exact ⟨hnotes, hcovers⟩
      · -- The last covered item is the end of the baseline.
        rw [Option.map_some, Option.getD_some]
        obtain ⟨front, hfront⟩ := List.getLast?_eq_some_iff.mp hmem
        have hsorted := hcovers.sorted
        rw [hfront] at hitem hsorted
        cases List.mem_append.mp hitem with
        | inr hself => rw [List.mem_singleton.mp hself, heq]
        | inl hbefore =>
          have hlt := (List.pairwise_append.mp hsorted).2.2 item hbefore last (List.mem_singleton.mpr rfl)
          omega
      · cases hother
        refine ⟨fun hclear => ?_, fun _ => ⟨last, List.mem_of_getLast? hmem, heq⟩⟩
        rw [hop] at hclear
        exact nomatch hclear

/-- The compaction of what the baseline covers and what has been read keeps every line. -/
theorem Good.compacted (good : thread.Good lib) {compaction : Option Compaction} {before read : List Item}
    {selection : Selection} {after : Nat} (hread : Reads reader lib {} selection read) (hne : read ≠ [])
    (hnone : compaction = none → before = [])
    (hcovers : ∀ c, compaction = some c → HasNotes c.summary ∧ Covers lib thread.items c before)
    (hend : ∀ item ∈ before, item.cursor ≤ after) (hsub : read.Sublist (itemsBehind thread.items after)) :
    Keeps lib thread.items (lib.compactedThread reader request compaction selection) := by
  have hstored : read ⊆ thread.items := fun item hitem => good.behind_stored after (hsub.subset hitem)
  have hbefore : before ⊆ thread.items ∧ before.Pairwise fun a b => a.cursor < b.cursor := by
    cases hcase : compaction with
    | none => rw [hnone hcase]; exact ⟨List.nil_subset _, .nil⟩
    | some c => exact ⟨(hcovers c hcase).2.stored, (hcovers c hcase).2.sorted⟩
  have hpos : ∀ item ∈ before ++ read, 1 ≤ item.cursor := by
    intro item hitem
    cases List.mem_append.mp hitem with
    | inl hmem => exact good.positive item (hbefore.1 hmem)
    | inr hmem => exact good.positive item (hstored hmem)
  have hsorted : (before ++ read).Pairwise fun a b => a.cursor < b.cursor := by
    rw [List.pairwise_append]
    refine ⟨hbefore.2, (good.behind_sorted after).sublist hsub, fun a ha b hb => ?_⟩
    have hle := hend a ha
    have hlt := (Tables.mem_behind.mp (hsub.subset hb)).2
    omega
  unfold Libraries.compactedThread
  cases threadCompaction_cases hread hne hcovers hnone hstored hpos hsorted with
  | inl hlimit =>
    obtain ⟨message, hlimit⟩ := hlimit
    rw [hlimit]
    exact ⟨message, rfl⟩
  | inr hmade =>
    obtain ⟨made, hmade, hmadeCovers⟩ := hmade
    rw [hmade]
    apply checkedReference_keeps
    intro c hc
    cases hc
    exact ⟨_, hmadeCovers⟩

theorem Good.resolved (good : thread.Good lib) (view : ThreadReader) (request : ReferenceRequest) :
    Keeps lib thread.items (lib.resolveThreadInline (thread.readBy view) request) := by
  obtain ⟨compaction, before, hbaseline, hnone, hcovers, hend, -⟩ := good.baseline view
  have hcompaction : ∀ c, compaction = some c → ∃ covered, Covers lib thread.items c covered :=
    fun c hc => ⟨before, (hcovers c hc).2⟩
  have hpages := @readPages_eq lib (thread.readBy view) request good.keys (thread.items.length + 1)
    ((thread.readBy view).baseline.map (·.itemCursorEnd)) {} (length_behind ..)
  unfold Libraries.resolveThreadInline
  rw [hbaseline]
  dsimp only [bind, Except.bind]
  rw [show (thread.readBy view).items.length + 1 = thread.items.length + 1 from rfl, hpages]
  cases @readPage_cases lib (thread.readBy view) request (itemsBehind thread.items
      (((thread.readBy view).baseline.map (·.itemCursorEnd)).getD 0)) {} with
  | inl hlimit =>
    obtain ⟨message, hlimit⟩ := hlimit
    change lib.readPage (thread.readBy view) request (itemsBehind (thread.readBy view).items _) {} = _ at hlimit
    rw [hlimit]
    exact ⟨message, rfl⟩
  | inr hread =>
    obtain ⟨selection, stopped, hread, hreads⟩ := hread
    change lib.readPage (thread.readBy view) request (itemsBehind (thread.readBy view).items _) {} = _ at hread
    rw [hread]
    dsimp only [Functor.map, Except.map]
    split
    · -- Nothing is left to read: the baseline is all there is.
      unfold Libraries.emptyThread
      split
      · exact checkedReference_keeps _ _ _ _ _ _ nofun
      · rename_i c
        exact checkedReference_keeps _ _ _ _ _ _ hcompaction
    · rename_i hrefs
      split
      · exact good.compacted hreads (fun hnil => hrefs (by rw [hreads.refs, hnil]; rfl)) hnone hcovers hend
          (List.takeWhile_sublist _)
      · unfold Libraries.fullThread
        dsimp only
        split
        · exact checkedReference_keeps _ _ _ _ _ _ nofun
        · exact checkedReference_keeps _ _ _ _ _ _ hcompaction

/-! ### Runs -/

theorem Good.keeps (good : thread.Good lib) : KeepsThreadLines lib thread := by
  refine ⟨good.resolved, fun agentId => ?_⟩
  obtain hconflict | ⟨message, hlimit⟩ | ⟨compaction, covered, hmade, -, hcovers⟩ := good.compaction_cases agentId
  · rw [hconflict]
    exact .inr rfl
  · rw [hlimit]
    exact .inl ⟨message, rfl⟩
  · rw [hmade]
    exact ⟨covered, hcovers⟩

theorem Good.append (good : thread.Good lib) (item : Item) (gap : Nat) :
    (thread.step lib (.append item gap)).Good lib where
  sorted := by
    refine List.pairwise_append.mpr ⟨good.sorted, List.pairwise_singleton _ _, fun a ha b hb => ?_⟩
    have hle := le_latestCursor ha
    rw [List.mem_singleton.mp hb]
    show a.cursor < thread.latestCursor + 1 + gap
    omega
  positive a ha := by
    cases List.mem_append.mp ha with
    | inl hmem => exact good.positive a hmem
    | inr hself =>
      rw [List.mem_singleton.mp hself]
      show 1 ≤ thread.latestCursor + 1 + gap
      omega
  baselines baseline hbaseline := (good.baselines baseline hbaseline).mono (List.subset_append_left ..)

theorem Good.appendBaseline (good : thread.Good lib) {baseline : Baseline}
    (h : GoodBaseline lib thread.sessionId thread.threadId thread.items baseline) :
    Good lib { thread with baselines := thread.baselines ++ [baseline] } where
  sorted := good.sorted
  positive := good.positive
  baselines other hother := by
    cases List.mem_append.mp hother with
    | inl hmem => exact good.baselines other hmem
    | inr hself =>
      rw [List.mem_singleton.mp hself]
      exact h

theorem Good.step (good : thread.Good lib) (event : ThreadEvent) : (thread.step lib event).Good lib := by
  cases event with
  | append item gap => exact good.append item gap
  | clear => exact good.appendBaseline ⟨nofun⟩
  | compact agentId =>
    dsimp only [Thread.step]
    obtain hconflict | ⟨message, hlimit⟩ | ⟨compaction, covered, hmade, hbaseline, -⟩ := good.compaction_cases agentId
    · rw [hconflict]
      exact good
    · rw [hlimit]
      exact good
    · rw [hmade]
      exact good.appendBaseline hbaseline

theorem Good.run (good : thread.Good lib) (events : List ThreadEvent) : (thread.run lib events).Good lib := by
  induction events generalizing thread with
  | nil => exact good
  | cons event rest ih => exact ih (good.step event)

theorem good_empty (lib : Libraries) (sessionId threadId : String) :
    Good lib { sessionId := sessionId, threadId := threadId } :=
  ⟨.nil, fun _ h => absurd h List.not_mem_nil, fun _ h => absurd h List.not_mem_nil⟩

end Thread

end Operant.Context
