import Operant.Context.Exchanges
import Operant.Context.Threads

/-! What a user wrote stays in the requirements, from one compaction to the next. -/
namespace Operant.Context
open Operant.Python Operant.Security

/-! ### Redacted forms -/

/-- What a line may look like in a summary: it is redacted and tagged when it is noted, and whenever
a summary is made, the tag is replaced and the whole redacted again. -/
inductive RedactedForm (lib : Libraries) (line : List Char) : String → Prop
  | noted (source : String) :
    RedactedForm lib line ("[" ++ source ++ "] " ++ lib.redactPublicText 100000 (.ofList line))
  | tagged {s : String} (tag : List Char) :
    RedactedForm lib line s → RedactedForm lib line (.ofList (tag ++ "] ".toList ++ (tagOf s).2))
  | redacted {s : String} : RedactedForm lib line s → RedactedForm lib line (lib.redact s)

/-- One of the texts is the line. -/
def Occurs (lib : Libraries) (line : List Char) (texts : List String) : Prop :=
  ∃ s ∈ texts, RedactedForm lib line s

/-- `user_requirements` of a summary. -/
def requirements (summary : CompactionSummary) : List String :=
  match summary.workspaceState.lookup "user_requirements" with
  | some (.list xs) => xs.filterMap readText
  | _ => []

variable {lib : Libraries} {line : List Char}

theorem Occurs.mono {xs ys : List String} (h : Occurs lib line xs) (hsub : xs ⊆ ys) : Occurs lib line ys := by
  obtain ⟨s, hs, hform⟩ := h
  exact ⟨s, hsub hs, hform⟩

theorem Occurs.redacted {xs : List String} (h : Occurs lib line xs) : Occurs lib line (xs.map lib.redact) := by
  obtain ⟨s, hs, hform⟩ := h
  exact ⟨lib.redact s, List.mem_map_of_mem hs, hform.redacted⟩

/-! ### Without duplicates -/

theorem mem_insert {found : List Tagged} {parts : List Char × List Char} {entry : Tagged}
    (h : entry ∈ found) : ∃ entry' ∈ Tagged.insert found parts, entry'.body = entry.body := by
  induction found with
  | nil => exact absurd h List.not_mem_nil
  | cons first rest ih =>
    unfold Tagged.insert
    split
    · cases List.mem_cons.mp h with
      | inl heq => exact ⟨_, List.mem_cons_self, by rw [heq]⟩
      | inr hrest => exact ⟨entry, List.mem_cons_of_mem _ hrest, rfl⟩
    · cases List.mem_cons.mp h with
      | inl heq => exact ⟨entry, by rw [heq]; exact List.mem_cons_self, rfl⟩
      | inr hrest =>
        obtain ⟨entry', hmem, hbody⟩ := ih hrest
        exact ⟨entry', List.mem_cons_of_mem _ hmem, hbody⟩

theorem insert_mem (found : List Tagged) (parts : List Char × List Char) :
    ∃ entry ∈ Tagged.insert found parts, entry.body = parts.2 := by
  induction found with
  | nil => exact ⟨_, List.mem_singleton.mpr rfl, rfl⟩
  | cons first rest ih =>
    unfold Tagged.insert
    split
    · rename_i heq
      exact ⟨_, List.mem_cons_self, heq⟩
    · obtain ⟨entry, hmem, hbody⟩ := ih
      exact ⟨entry, List.mem_cons_of_mem _ hmem, hbody⟩

/-- Every body is still there. -/
theorem foldl_insert_mem (values : List String) (found : List Tagged) {body : List Char}
    (h : (∃ entry ∈ found, entry.body = body) ∨ ∃ s ∈ values, (tagOf s).2 = body) :
    ∃ entry ∈ values.foldl (fun found tagged => Tagged.insert found (tagOf tagged)) found,
      entry.body = body := by
  induction values generalizing found with
  | nil =>
    cases h with
    | inl h => exact h
    | inr h =>
      obtain ⟨s, hs, -⟩ := h
      exact absurd hs List.not_mem_nil
  | cons s rest ih =>
    apply ih
    cases h with
    | inl h =>
      obtain ⟨entry, hmem, hbody⟩ := h
      obtain ⟨entry', hmem', hbody'⟩ := @mem_insert found (tagOf s) entry hmem
      exact .inl ⟨entry', hmem', hbody'.trans hbody⟩
    | inr h =>
      obtain ⟨t, ht, hbody⟩ := h
      cases List.mem_cons.mp ht with
      | inl heq =>
        obtain ⟨entry, hmem, hbody'⟩ := insert_mem found (tagOf s)
        exact .inl ⟨entry, hmem, hbody'.trans (by rw [← heq, hbody])⟩
      | inr hrest => exact .inr ⟨t, hrest, hbody⟩

theorem Tagged.text_form (entry : Tagged) :
    ∃ tag, entry.text = .ofList (tag ++ "] ".toList ++ entry.body) := by
  unfold Tagged.text
  split
  · exact ⟨entry.first, rfl⟩
  · exact ⟨entry.first ++ "; ".toList ++ entry.last.drop 1, rfl⟩

/-- `unique` loses no line. -/
theorem Occurs.unique {values : List String} (h : Occurs lib line values) : Occurs lib line (unique values) := by
  obtain ⟨s, hs, hform⟩ := h
  obtain ⟨entry, hmem, hbody⟩ := foldl_insert_mem values [] (.inr ⟨s, hs, rfl⟩)
  obtain ⟨tag, htext⟩ := entry.text_form
  refine ⟨entry.text, List.mem_map_of_mem hmem, ?_⟩
  rw [htext, hbody]
  exact hform.tagged tag

/-! ### Facts -/

theorem addLine_requirements (draft : Libraries.Draft) (source : String) (line : List Char) :
    (lib.addLine draft source line).userRequirements =
      draft.userRequirements ++ ["[" ++ source ++ "] " ++ lib.redactPublicText 100000 (.ofList line)] := by
  unfold Libraries.addLine
  simp only [String.ofList_toList]

theorem addLines_requirements (draft : Libraries.Draft) (source : String) (lines : List (List Char)) :
    (lines.foldl (fun draft line => lib.addLine draft source line) draft).userRequirements =
      draft.userRequirements ++ lines.map fun line =>
        "[" ++ source ++ "] " ++ lib.redactPublicText 100000 (.ofList line) := by
  induction lines generalizing draft with
  | nil => rw [List.foldl_nil, List.map_nil, List.append_nil]
  | cons line rest ih =>
    rw [List.foldl_cons, ih, addLine_requirements, List.append_assoc]
    rfl

/-- An entry leaves what was noted, and adds its own lines. -/
theorem addEntry_requirements (draft : Libraries.Draft) (entry : Entry) :
    draft.userRequirements ⊆ (lib.addEntry draft entry).userRequirements ∧
      (entry.role ∈ ["user", "steering"] → ∀ line ∈ lib.written entry.body,
        Occurs lib line (lib.addEntry draft entry).userRequirements) := by
  unfold Libraries.addEntry
  split
  · rw [addLines_requirements]
    refine ⟨List.subset_append_left .., fun _ line hline => ?_⟩
    exact ⟨_, List.mem_append_right _ (List.mem_map_of_mem hline), .noted entry.source⟩
  · rename_i hrole
    exact ⟨fun _ h => h, fun h => absurd h hrole⟩

theorem addEntries_requirements (entries : List Entry) (draft : Libraries.Draft) :
    draft.userRequirements ⊆ (entries.foldl lib.addEntry draft).userRequirements ∧
      ∀ entry ∈ entries, entry.role ∈ ["user", "steering"] → ∀ line ∈ lib.written entry.body,
        Occurs lib line (entries.foldl lib.addEntry draft).userRequirements := by
  induction entries generalizing draft with
  | nil => exact ⟨fun _ h => h, fun _ h => absurd h List.not_mem_nil⟩
  | cons entry rest ih =>
    obtain ⟨hkeep, hadd⟩ := @addEntry_requirements lib draft entry
    obtain ⟨hrest, heach⟩ := ih (lib.addEntry draft entry)
    refine ⟨fun _ h => hrest (hkeep h), fun e he hrole line hline => ?_⟩
    cases List.mem_cons.mp he with
    | inl heq =>
      rw [heq] at hrole hline
      exact (hadd hrole line hline).mono hrest
    | inr hmem => exact heach e hmem hrole line hline

theorem mapM_readText {xs : List Value} {texts : List String} (h : xs.mapM readText = some texts) :
    xs.filterMap readText = texts := by
  induction xs generalizing texts with
  | nil =>
    cases h
    rfl
  | cons x rest ih =>
    rw [List.mapM_cons] at h
    simp only [Option.bind_eq_bind, Option.bind_eq_some_iff, Option.pure_def, Option.some.injEq] at h
    obtain ⟨text, htext, texts, hrest, rfl⟩ := h
    rw [List.filterMap_cons_some htext, ih hrest]

theorem mem_noted {previous : CompactionSummary} {texts : List String}
    (h : Libraries.noted previous "user_requirements" = .ok texts) : requirements previous ⊆ texts := by
  unfold Libraries.noted at h
  unfold requirements
  split
  · rename_i xs hlookup
    rw [hlookup] at h
    dsimp only [listOf] at h
    split at h
    · exact nomatch h
    · rename_i hread
      cases h
      rw [mapM_readText hread]
      exact fun _ hs => hs
  · exact List.nil_subset _

/-- The facts hold what was noted before, and every line of the user's. -/
theorem facts_requirements {entries : List Entry} {previous : Option CompactionSummary} {facts : Facts}
    (h : lib.compactionFacts entries previous = .ok facts) :
    (∀ summary, previous = some summary → ∀ line, Occurs lib line (requirements summary) →
        Occurs lib line facts.userRequirements) ∧
      ∀ entry ∈ entries, entry.role ∈ ["user", "steering"] → ∀ line ∈ lib.written entry.body,
        Occurs lib line facts.userRequirements := by
  unfold Libraries.compactionFacts at h
  obtain ⟨sources, hsources, h₁⟩ := Calls.ok_of_bind h
  obtain ⟨noted, hnoted, h₂⟩ := Calls.ok_of_bind h₁
  cases h₂
  obtain ⟨hkeep, hadd⟩ := @addEntries_requirements lib entries {
    constraints := (previous.map (·.constraints)).getD []
    decisions := (previous.map (·.decisions)).getD []
    openTasks := (previous.map (·.openTasks)).getD []
    sources := sources
    userRequirements := noted }
  refine ⟨fun summary hprevious line hline => ?_, fun entry hentry hrole line hline => ?_⟩
  · subst hprevious
    exact ((hline.mono (mem_noted hnoted)).mono hkeep).unique
  · exact (hadd entry hentry hrole line hline).unique

/-! ### Notes -/

theorem noted_strings {summary : CompactionSummary} {key : String} {texts : List String}
    (h : summary.workspaceState.lookup key = some (strings texts)) : Libraries.noted summary key = .ok texts := by
  have hread := Libraries.readTexts_strings texts
  unfold Libraries.noted
  rw [h]
  unfold strings at *
  dsimp only [listOf]
  change (texts.map Value.str).mapM readText = some texts at hread
  rw [hread]

/-- A summary whose notes are texts. -/
def HasNotes (summary : CompactionSummary) : Prop :=
  (∃ sources, summary.workspaceState.lookup "source_notes" = some (strings sources)) ∧
    ∃ texts, summary.workspaceState.lookup "user_requirements" = some (strings texts)

theorem facts_ok (entries : List Entry) {previous : Option CompactionSummary}
    (h : ∀ summary, previous = some summary → HasNotes summary) :
    ∃ facts, lib.compactionFacts entries previous = .ok facts := by
  unfold Libraries.compactionFacts
  cases previous with
  | none => exact ⟨_, rfl⟩
  | some summary =>
    obtain ⟨⟨sources, hsources⟩, texts, htexts⟩ := h summary rfl
    dsimp only [Libraries.notedBefore]
    rw [noted_strings hsources, noted_strings htexts]
    exact ⟨_, rfl⟩

end Operant.Context
