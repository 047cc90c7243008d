import Operant.Context.Compact
import Operant.Security.Growth

/-! What becomes of the value of a summary: its texts are redacted, and nothing else. -/
namespace Operant.Context
open Operant.Python Operant.Security

namespace Libraries
variable (lib : Libraries)

/-- What the composer redacts a text to. -/
def redact (s : String) : String := lib.redactPublicText 100000 s

theorem redactTexts_strings (xs : List String) :
    lib.redactTexts 100000 (strings xs) = strings (xs.map lib.redact) := by
  have each : lib.redactAll 100000 (xs.map .str) = (xs.map lib.redact).map .str := by
    induction xs with
    | nil => rw [List.map_nil, Interpreter.redactAll]; rfl
    | cons x rest ih =>
      rw [List.map_cons, Interpreter.redactAll, ih, Interpreter.redactTexts]
      rfl
  unfold strings
  rw [Interpreter.redactTexts, each]

@[simp] theorem readText_str (s : String) : readText (.str s) = some s := rfl

@[simp] theorem readDict_dict (entries : Refs) : readDict (.dict entries) = some entries := rfl

theorem readTexts_strings (xs : List String) : readTexts (strings xs) = some xs := by
  show (xs.map Value.str).mapM readText = some xs
  induction xs with
  | nil => rfl
  | cons x rest ih =>
    rw [List.map_cons, List.mapM_cons, ih]
    rfl

/-! ### Digests -/

theorem isHash_plain {s : String} (h : isHash s = true) :
    (∀ c ∈ s.toList, isPlain c = true) ∧ 'g' ∉ s.toList ∧ s.toList.length = 64 := by
  unfold isHash at h
  rw [Bool.and_eq_true, decide_eq_true_eq, List.all_eq_true] at h
  have hhex (c : Char) (hc : c ∈ s.toList) :
      (48 ≤ c.toNat ∧ c.toNat ≤ 57) ∨ (97 ≤ c.toNat ∧ c.toNat ≤ 102) := by
    have hdigit := h.2 c hc
    unfold Security.isDigit at hdigit
    simp only [Bool.or_eq_true, Bool.and_eq_true, decide_eq_true_eq] at hdigit
    exact hdigit
  refine ⟨fun c hc => ?_, fun hg => ?_, h.1⟩
  · rw [isPlain_iff]
    have hcase := hhex c hc
    omega
  · exact absurd (hhex 'g' hg) (by decide)

theorem redact_hash {s : String} (h : isHash s = true) : lib.redact s = s := by
  obtain ⟨hplain, hg, hlength⟩ := isHash_plain h
  exact Interpreter.redactPublicText_plain lib.ascii hplain (.inl hg) (by omega)

/-- The names and the words that a summary is written with. -/
theorem summary_words :
    ["system", "user", "assistant", "tool"].all isFieldName = true ∧
    ["role", "content_hash", "excerpt"].all isFieldName = true ∧
    ["workspace", "source_notes", "user_requirements", "tool_pairs"].all isFieldName = true ∧
    ["active_goal", "constraints", "decisions", "open_tasks", "workspace_state", "artifact_refs", "memory_refs",
      "next_actions", "covered_messages"].all isFieldName = true := by
  decide +kernel

theorem redact_role (role : MessageRole) : lib.redact role.value = role.value := by
  have hname : isFieldName role.value = true :=
    List.all_eq_true.mp summary_words.1 role.value (by cases role <;> simp [MessageRole.value])
  unfold isFieldName at hname
  simp only [Bool.and_eq_true, List.all_eq_true, decide_eq_true_eq] at hname
  exact Interpreter.redactPublicText_plain lib.ascii hname.1.1 (.inr hname.1.2) (by omega)

/-- The record of a message has nothing to redact. -/
theorem redactTexts_coverage (message : Message) :
    lib.redactTexts 100000 (lib.coverage message).dump = (lib.coverage message).dump := by
  have hnames : ["role", "content_hash", "excerpt"].all isFieldName = true := summary_words.2.1
  have hempty : lib.redact "" = "" :=
    Interpreter.redactPublicText_plain lib.ascii (by simp) (.inr (by decide)) (by decide)
  have hhash := lib.redact_hash (lib.coverage message).content_hash_ok
  have hrole := lib.redact_role (lib.coverage message).role
  unfold CompactionMessageCoverage.dump
  rw [Interpreter.redactTexts, Interpreter.redactEntries_fields 100000 lib.ascii]
  · simp only [List.nil_append, List.map_cons, List.map_nil, Interpreter.redactTexts]
    unfold redact at hempty hhash hrole
    rw [hhash, hrole, show (lib.coverage message).excerpt = "" from rfl, hempty]
  · exact hnames
  · simp

theorem redactAll_coverage (covered : List Message) :
    lib.redactAll 100000 (covered.map fun message => (lib.coverage message).dump) =
      covered.map fun message => (lib.coverage message).dump := by
  induction covered with
  | nil => rw [List.map_nil, Interpreter.redactAll]
  | cons message rest ih => rw [List.map_cons, Interpreter.redactAll, ih, lib.redactTexts_coverage]

theorem validate_coverage (coverage : CompactionMessageCoverage) :
    CompactionMessageCoverage.validate coverage.dump = some coverage := by
  obtain ⟨role, hash, excerpt, hhash, hexcerpt⟩ := coverage
  have hrole : MessageRole.ofValue role.value = some role := by
    cases role <;> simp [MessageRole.ofValue, MessageRole.value]
  unfold CompactionMessageCoverage.dump CompactionMessageCoverage.validate
  simp [onlyKeys, field, List.lookup_cons, hrole, hhash, hexcerpt]

theorem readCoverage_dump (covered : List CompactionMessageCoverage) :
    readCoverage (.list (covered.map (·.dump))) = some covered := by
  show (covered.map (·.dump)).mapM CompactionMessageCoverage.validate = some covered
  induction covered with
  | nil => rfl
  | cons coverage rest ih =>
    rw [List.map_cons, List.mapM_cons, ih, validate_coverage]
    rfl

/-! ### The summary -/

/-- A value that passes the first check is stored as it is, its texts redacted. -/
theorem redactPublicData_summary {entries : Refs} {maxTokens : Nat} (hrecord : isRecord (.dict entries) = true)
    (hnesting : nesting (.dict entries) ≤ 12) (hmax : maxTokens ≤ summaryMaxTokens)
    (hfits : lib.estimateTokens (.dict entries) ≤ maxTokens) :
    lib.redactPublicData summaryBounds (.dict entries) = .dict (lib.redactEntries 100000 entries []) := by
  obtain ⟨s, hs⟩ := Option.isSome_iff_exists.mp (lib.dumps_record _ hrecord)
  have hbytes : lib.jsonBytes (.dict entries) = some (Text.total Char.utf8Size s) := by
    rw [Interpreter.jsonBytes_eq, hs, Option.map_some]
  have hsmall : Text.total Char.utf8Size s ≤ 12000 := by
    unfold estimateTokens ceilDiv4 at hfits
    rw [hbytes, Option.getD_some] at hfits
    unfold summaryMaxTokens at hmax
    omega
  have hlength := Text.length_le_total Char.utf8Size_pos s
  have hitems := lib.items_le_dumps _ hs
  obtain ⟨n, hn, hle⟩ := Interpreter.redactTexts_bytes 100000 lib.ascii hrecord hbytes
  rw [lib.redactPublicData_within summaryBounds hnesting (Nat.le_trans hitems (by
    show s.length ≤ 100000
    omega)) hn (by
    show n ≤ 1000000
    omega)]
  show lib.redactTexts 100000 (.dict entries) = _
  rw [Interpreter.redactTexts]

/-- A summary is refused for the limit, before or after its texts are redacted, or it is its value with
the texts redacted. -/
theorem safeCompactionSummary_eq {entries safe : Refs} {maxTokens : Nat} {summary : CompactionSummary}
    (hrecord : isRecord (.dict entries) = true) (hnesting : nesting (.dict entries) ≤ 12)
    (hmax : maxTokens ≤ summaryMaxTokens) (hsafe : lib.redactEntries 100000 entries [] = safe)
    (hvalid : CompactionSummary.validate (.dict safe) = some summary) :
    lib.safeCompactionSummary (.dict entries) maxTokens =
      if maxTokens < lib.estimateTokens (.dict entries) then .error omits
      else if maxTokens < lib.estimateTokens (.dict safe) then .error exceeds
      else .ok summary := by
  unfold safeCompactionSummary
  split
  · rfl
  · rename_i hfits
    rw [lib.redactPublicData_summary hrecord hnesting hmax (Nat.not_lt.mp hfits), hsafe]
    dsimp only
    rw [hvalid]

theorem safeCompactionSummary_cases {entries : Refs} {maxTokens : Nat} {summary : CompactionSummary}
    (hrecord : isRecord (.dict entries) = true) (hnesting : nesting (.dict entries) ≤ 12)
    (hmax : maxTokens ≤ summaryMaxTokens)
    (hvalid : CompactionSummary.validate (.dict (lib.redactEntries 100000 entries [])) = some summary) :
    (∃ message, lib.safeCompactionSummary (.dict entries) maxTokens = .error (.limit message)) ∨
      lib.safeCompactionSummary (.dict entries) maxTokens = .ok summary := by
  rw [lib.safeCompactionSummary_eq hrecord hnesting hmax rfl hvalid]
  split
  · exact .inl ⟨_, rfl⟩
  · split
    · exact .inl ⟨_, rfl⟩
    · exact .inr rfl

theorem isRecord_strings (xs : List String) : isRecord (strings xs) = true := by
  unfold strings
  rw [isRecord]
  induction xs with
  | nil => rfl
  | cons x rest ih => rw [List.map_cons, isRecordList, isRecord, ih]; rfl

theorem nesting_strings (xs : List String) : nesting (strings xs) ≤ 1 := by
  unfold strings
  rw [nesting]
  induction xs with
  | nil => exact Nat.zero_le 1
  | cons x rest ih => rw [List.map_cons, nestingOfList, nesting]; omega

theorem isRecordList_coverage (covered : List Message) :
    isRecordList (covered.map fun message => (lib.coverage message).dump) = true := by
  have hnames : ["role", "content_hash", "excerpt"].all isFieldName = true := summary_words.2.1
  induction covered with
  | nil => rfl
  | cons message rest ih =>
    have hone : isRecord (lib.coverage message).dump = true := by
      unfold CompactionMessageCoverage.dump
      simp only [isRecord, isRecordDict, List.map_cons, List.map_nil, hnames]
      rfl
    rw [List.map_cons, isRecordList, hone, ih]
    rfl

theorem nestingOfList_coverage (covered : List Message) :
    nestingOfList (covered.map fun message => (lib.coverage message).dump) ≤ 2 := by
  induction covered with
  | nil => exact Nat.zero_le 2
  | cons message rest ih =>
    have hone : nesting (lib.coverage message).dump ≤ 1 := Nat.le_of_eq rfl
    rw [List.map_cons, nestingOfList]
    omega

variable (composer : Composer) (facts : Facts) (covered : List Message)

theorem isRecord_summaryValue : isRecord (lib.summaryValue composer facts covered) = true := by
  unfold summaryValue
  simp only [isRecord, isRecordDict, isRecord_strings, isRecordList_coverage, List.map_cons, List.map_nil,
    summary_words.2.2.1, summary_words.2.2.2]
  rfl

theorem nesting_summaryValue : nesting (lib.summaryValue composer facts covered) ≤ 12 := by
  have hcovered := lib.nestingOfList_coverage covered
  unfold summaryValue
  simp only [nesting, nestingOfDict]
  grind [nesting_strings]

/-- What a summary keeps of the value it is made from. -/
def safeSummary : CompactionSummary where
  activeGoal := lib.redact facts.activeGoal
  constraints := facts.constraints.map lib.redact
  decisions := facts.decisions.map lib.redact
  openTasks := facts.openTasks.map lib.redact
  workspaceState := [("workspace", .str (lib.redact composer.workspace)),
    ("source_notes", strings (facts.sourceNotes.map lib.redact)),
    ("user_requirements", strings (facts.userRequirements.map lib.redact)),
    ("tool_pairs", strings ((lib.toolPairs covered).map lib.redact))]
  artifactRefs := (((composer.resolved.filter (·.refType = .artifact)).map (·.targetId) ++
    composer.toolResultStubs).eraseDups).map lib.redact
  memoryRefs := ((composer.resolved.filter (·.refType = .memory)).map (·.targetId)).map lib.redact
  nextActions := ["Continue from the retained recent messages."].map lib.redact
  coveredMessages := covered.map lib.coverage

theorem redactEntries_workspaceState : lib.redactTexts 100000 (.dict [("workspace", .str composer.workspace),
      ("source_notes", strings facts.sourceNotes), ("user_requirements", strings facts.userRequirements),
      ("tool_pairs", strings (lib.toolPairs covered))]) =
    .dict (lib.safeSummary composer facts covered).workspaceState := by
  rw [Interpreter.redactTexts, Interpreter.redactEntries_fields 100000 lib.ascii]
  · simp only [List.nil_append, List.map_cons, List.map_nil, redactTexts_strings, Interpreter.redactTexts]
    rfl
  · exact summary_words.2.2.1
  · simp

/-- The value of a summary, its texts redacted. -/
def safeEntries (summary : CompactionSummary) : Refs :=
  [("active_goal", .str summary.activeGoal), ("constraints", strings summary.constraints),
    ("decisions", strings summary.decisions), ("open_tasks", strings summary.openTasks),
    ("workspace_state", .dict summary.workspaceState), ("artifact_refs", strings summary.artifactRefs),
    ("memory_refs", strings summary.memoryRefs), ("next_actions", strings summary.nextActions),
    ("covered_messages", .list (summary.coveredMessages.map (·.dump)))]

theorem redactEntries_summaryValue (entries : Refs) (h : lib.summaryValue composer facts covered = .dict entries) :
    lib.redactEntries 100000 entries [] = safeEntries (lib.safeSummary composer facts covered) := by
  have hstate := lib.redactEntries_workspaceState composer facts covered
  cases h
  rw [Interpreter.redactEntries_fields 100000 lib.ascii]
  · simp only [List.nil_append, List.map_cons, List.map_nil, redactTexts_strings, hstate]
    rw [Interpreter.redactTexts, Interpreter.redactTexts, redactAll_coverage]
    unfold safeEntries safeSummary redact
    simp
  · exact summary_words.2.2.2
  · simp

theorem validate_safeEntries : CompactionSummary.validate (.dict (safeEntries (lib.safeSummary composer facts covered))) =
    some (lib.safeSummary composer facts covered) := by
  have hcoverage := readCoverage_dump (covered.map lib.coverage)
  rw [List.map_map] at hcoverage
  unfold CompactionSummary.validate safeEntries safeSummary redact
  simp [onlyKeys, summaryFields, field, List.lookup_cons, List.lookup_nil, readTexts_strings, hcoverage]

theorem maxSummaryTokens_le (available : Option Nat) : maxSummaryTokens available ≤ summaryMaxTokens := by
  unfold maxSummaryTokens
  split
  · exact Nat.min_le_left ..
  · exact Nat.le_refl _

/-- The summary of a compaction is refused for the limit, or it is made. -/
theorem safeCompactionSummary_summaryValue :
    lib.safeCompactionSummary (lib.summaryValue composer facts covered) (maxSummaryTokens composer.availableInputTokens) =
      if maxSummaryTokens composer.availableInputTokens < lib.estimateTokens (lib.summaryValue composer facts covered) then
        .error omits
      else if maxSummaryTokens composer.availableInputTokens <
          lib.estimateTokens (.dict (safeEntries (lib.safeSummary composer facts covered))) then .error exceeds
      else .ok (lib.safeSummary composer facts covered) :=
  lib.safeCompactionSummary_eq (lib.isRecord_summaryValue ..) (lib.nesting_summaryValue ..)
    (maxSummaryTokens_le _) (lib.redactEntries_summaryValue composer facts covered _ rfl) (lib.validate_safeEntries ..)

theorem safeSummary_cases : (∃ message, lib.safeCompactionSummary (lib.summaryValue composer facts covered)
      (maxSummaryTokens composer.availableInputTokens) = .error (.limit message)) ∨
    lib.safeCompactionSummary (lib.summaryValue composer facts covered)
      (maxSummaryTokens composer.availableInputTokens) = .ok (lib.safeSummary composer facts covered) := by
  rw [lib.safeCompactionSummary_summaryValue composer facts covered]
  split
  · exact .inl ⟨_, rfl⟩
  · split
    · exact .inl ⟨_, rfl⟩
    · exact .inr rfl

end Libraries
end Operant.Context
