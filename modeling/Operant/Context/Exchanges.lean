import Operant.Context.Summary

/-! A compaction never splits a tool exchange. -/
namespace Operant.Context
open Operant.Python Operant.Security

variable {messages : List Message}

/-! ### The loop -/

theorem mem_numbered {k : Nat} {entry : Message × Nat} :
    entry ∈ (messages.take k).zipIdx.drop 1 ↔
      1 ≤ entry.2 ∧ entry.2 < k ∧ messages[entry.2]? = some entry.1 := by
  have hdrop (xs : List Message) : xs.zipIdx.drop 1 = (xs.drop 1).zipIdx 1 := by cases xs <;> rfl
  rw [hdrop, List.mem_zipIdx_iff_le_and_getElem?_sub, List.getElem?_drop]
  constructor
  · intro ⟨hpos, hget⟩
    rw [Nat.add_sub_cancel' hpos, List.getElem?_take] at hget
    split at hget
    · rename_i hlt
      exact ⟨hpos, hlt, hget⟩
    · exact nomatch hget
  · intro ⟨hpos, hlt, hget⟩
    rw [Nat.add_sub_cancel' hpos, List.getElem?_take, if_pos hlt]
    exact ⟨hpos, hget⟩

theorem mem_earlierCalls {k : Nat} {call : String × Nat} (h : call ∈ earlierCalls messages k) :
    1 ≤ call.2 ∧ call.2 < k := by
  obtain ⟨entry, hentry, hcall⟩ := List.mem_flatMap.mp (Dict.mem_ofList h)
  obtain ⟨_, _, rfl⟩ := List.mem_map.mp hcall
  obtain ⟨hpos, hlt, -⟩ := mem_numbered.mp hentry
  exact ⟨hpos, hlt⟩

theorem key_earlierCalls {k i : Nat} {m : Message} {call : ToolCall} (hpos : 1 ≤ i) (hlt : i < k)
    (hm : messages[i]? = some m) (hcall : call ∈ m.toolCalls) :
    call.id ∈ (earlierCalls messages k).map Prod.fst := by
  apply Dict.key_ofList
  rw [List.mem_map]
  exact ⟨(call.id, i), List.mem_flatMap.mpr ⟨(m, i), mem_numbered.mpr ⟨hpos, hlt, hm⟩,
    List.mem_map.mpr ⟨call, hcall, rfl⟩⟩, rfl⟩

/-- A round goes back. -/
theorem cutStep_lt {k next : Nat} (h : cutStep messages k = some next) : 1 ≤ next ∧ next < k := by
  unfold cutStep at h
  split at h
  · exact nomatch h
  · obtain ⟨call, hcall, rfl⟩ := List.mem_map.mp (List.min?_mem h)
    exact mem_earlierCalls (List.mem_filter.mp hcall).1

/-- Where the loop is left, no exchange is cut. -/
theorem crossing_nil {k : Nat} (h : cutStep messages k = none) (hk : 1 < k) : crossing messages k = [] := by
  unfold cutStep at h
  rw [if_neg (by omega), List.min?_eq_none_iff, List.map_eq_nil_iff] at h
  exact h

theorem cutFrom_left {n k : Nat} (h : k ≤ n + 1) : cutStep messages (cutFrom messages n k) = none := by
  induction n generalizing k with
  | zero => exact if_pos h
  | succ n ih =>
    unfold cutFrom
    split
    · assumption
    · rename_i next hnext
      have hlt := cutStep_lt hnext
      exact ih (by omega)

/-- The loop is left. -/
theorem keepStart_left (messages : List Message) (retain : Nat) :
    cutStep messages (keepStart messages retain) = none :=
  cutFrom_left (by omega)

theorem cutFrom_bounds {n k : Nat} (h : 1 ≤ k) :
    1 ≤ cutFrom messages n k ∧ cutFrom messages n k ≤ k := by
  induction n generalizing k with
  | zero => exact ⟨h, Nat.le_refl k⟩
  | succ n ih =>
    unfold cutFrom
    split
    · exact ⟨h, Nat.le_refl k⟩
    · rename_i next hnext
      have hlt := cutStep_lt hnext
      have hle := ih hlt.1
      omega

/-! ### Exchanges -/

/-- Every result comes after an assistant's message that calls for it. -/
def Answers (messages : List Message) : Prop :=
  ∀ front result back, messages = front ++ result :: back → result.role = .tool →
    ∃ m ∈ front, m.role = .assistant ∧ ∃ call ∈ m.toolCalls, result.toolCallId = some call.id

/-- The ids of all calls. -/
def callIds (messages : List Message) : List String :=
  messages.flatMap fun message => message.toolCalls.map (·.id)

theorem mem_results {id : String} : id ∈ results messages ↔
    ∃ m ∈ messages, m.role = .tool ∧ m.toolCallId = some id := by
  unfold results
  rw [List.mem_filterMap]
  constructor
  · intro ⟨m, hm, hid⟩
    rw [List.mem_filter] at hm
    exact ⟨m, hm.1, of_decide_eq_true hm.2, hid⟩
  · intro ⟨m, hm, hrole, hid⟩
    exact ⟨m, List.mem_filter.mpr ⟨hm, decide_eq_true hrole⟩, hid⟩

/-- A call that is covered has its result, and has it among what is covered. -/
theorem covered_answered {k : Nat} (hleft : cutStep messages k = none) {m : Message} {call : ToolCall}
    (hm : m ∈ (messages.take k).drop 1) (hcall : call ∈ m.toolCalls) :
    call.id ∈ results (messages.drop 1) ∧ call.id ∉ results (messages.drop k) := by
  obtain ⟨i, hi⟩ := List.mem_iff_getElem?.mp hm
  rw [List.getElem?_drop, List.getElem?_take] at hi
  split at hi
  · rename_i hlt
    have hkey := key_earlierCalls (Nat.le_add_right 1 i) hlt hi hcall
    obtain ⟨entry, hentry, hid⟩ := List.mem_map.mp hkey
    have hnot : entry ∉ crossing messages k := by
      rw [crossing_nil hleft (by omega)]
      exact List.not_mem_nil
    unfold crossing at hnot
    simp only [List.mem_filter, hentry, hid, true_and, Bool.or_eq_true, decide_eq_true_eq, not_or,
      Decidable.not_not] at hnot
    exact ⟨hnot.2, hnot.1⟩
  · exact nomatch hi

/-- What is retained answers its own calls. -/
theorem kept_answers {sys : Message} {rest : List Message} (hsys : sys.role = .system)
    (hanswers : Answers (sys :: rest)) {k : Nat} (hk : 1 ≤ k) (hleft : cutStep (sys :: rest) k = none) :
    Answers ((sys :: rest).drop k) := by
  intro front result back heq hrole
  have hwhole : sys :: rest = ((sys :: rest).take k ++ front) ++ result :: back := by
    rw [List.append_assoc, ← heq, List.take_append_drop]
  obtain ⟨m, hm, hassistant, call, hcall, hid⟩ := hanswers _ _ _ hwhole hrole
  refine ⟨m, ?_, hassistant, call, hcall, hid⟩
  cases List.mem_append.mp hm with
  | inr hfront => exact hfront
  | inl htake =>
    -- A call that is covered would be answered behind the cut.
    have hcovered : m ∈ ((sys :: rest).take k).drop 1 := by
      obtain ⟨k, rfl⟩ := Nat.exists_eq_add_of_le' hk
      rw [List.take_succ_cons, List.drop_succ_cons, List.drop_zero]
      rw [List.take_succ_cons] at htake
      cases List.mem_cons.mp htake with
      | inl hself => exact absurd (hself ▸ hassistant) (by rw [hsys]; decide)
      | inr hrest => exact hrest
    refine absurd ?_ (covered_answered hleft hcovered hcall).2
    rw [heq, mem_results]
    exact ⟨result, List.mem_append_right _ List.mem_cons_self, hrole, hid⟩

theorem results_append (xs ys : List Message) : results (xs ++ ys) = results xs ++ results ys := by
  unfold results
  rw [List.filter_append, List.filterMap_append]

/-! ### The compaction -/

/-- What a compaction has come from. -/
theorem compact_some {lib : Libraries} {composer : Composer} {out : List Message} {compaction : Compaction}
    (h : lib.compact composer messages = .ok (some (out, compaction))) :
    let cut := keepStart messages composer.retainedRecentMessages
    let covered := (messages.take cut).drop 1
    covered ≠ [] ∧
      out = messages.take 1 ++ lib.compactedMessage compaction.summary :: messages.drop cut ∧
      ∃ read facts, lib.readMessages messages = .ok read ∧ lib.compactionFacts read.2 read.1 = .ok facts ∧
        compaction.summary = lib.safeSummary composer facts covered := by
  unfold Libraries.compact at h
  split at h
  · exact nomatch h
  · dsimp only at h
    split at h
    · exact nomatch h
    · rename_i hcovered
      obtain ⟨read, hread, h₁⟩ := Calls.ok_of_bind h
      obtain ⟨facts, hfacts, h₂⟩ := Calls.ok_of_bind h₁
      obtain ⟨summary, hsummary, h₃⟩ := Calls.ok_of_bind h₂
      cases h₃
      refine ⟨hcovered, rfl, read, facts, hread, hfacts, ?_⟩
      cases lib.safeSummary_cases composer facts _ with
      | inl hlimit =>
        obtain ⟨message, hlimit⟩ := hlimit
        rw [hsummary] at hlimit
        exact nomatch hlimit
      | inr hmade =>
        rw [hsummary] at hmade
        exact Except.ok.inj hmade

/-- What JSON is read as is no matter where no message begins as a summary does. -/
theorem compact_loads (lib : Libraries) (loads : String → Option Value) (composer : Composer)
    (h : messages.all (fun m => !startsWith (m.content.getD "") derivedPrefix) = true) :
    { lib with loads }.compact composer messages = lib.compact composer messages := by
  have hread : { lib with loads }.readMessages messages = lib.readMessages messages := by
    unfold Libraries.readMessages
    have hall : ∀ entry ∈ messages.zipIdx.drop 1, startsWith (entry.1.content.getD "") derivedPrefix = false := by
      intro entry hentry
      have hmine := List.all_eq_true.mp h entry.1 (List.fst_mem_of_mem_zipIdx (List.mem_of_mem_drop hentry))
      rwa [Bool.not_eq_true'] at hmine
    generalize messages.zipIdx.drop 1 = entries at hall ⊢
    generalize (none, []) = read
    induction entries generalizing read with
    | nil => rfl
    | cons entry rest ih =>
      rw [List.foldlM_cons, List.foldlM_cons]
      simp only [hall entry List.mem_cons_self, Bool.false_eq_true, if_false]
      congr 1
      funext read
      exact ih (fun other hother => hall other (List.mem_cons_of_mem _ hother)) read
  have hword : { lib with loads }.hasWholeWord = lib.hasWholeWord := by
    funext words before line
    induction line generalizing before with
    | nil => rfl
    | cons c rest ih =>
      rw [Libraries.hasWholeWord, Libraries.hasWholeWord, ih]
  have hfacts : { lib with loads }.compactionFacts = lib.compactionFacts := by
    unfold Libraries.compactionFacts Libraries.addEntry Libraries.addLine
    rw [hword]
    rfl
  have hvalue : { lib with loads }.summaryValue = lib.summaryValue := by
    unfold Libraries.summaryValue Libraries.toolPairs Libraries.toolPair Libraries.coverage
    rfl
  have hsafe : { lib with loads }.safeCompactionSummary = lib.safeCompactionSummary := by
    unfold Libraries.safeCompactionSummary Libraries.estimateTokens
    rfl
  have hmessage : { lib with loads }.compactedMessage = lib.compactedMessage := rfl
  have hcoverage : { lib with loads }.coverageHash = lib.coverageHash := rfl
  have hjson : { lib with loads }.summaryJson = lib.summaryJson := rfl
  unfold Libraries.compact
  rw [hread, hfacts, hvalue, hsafe, hmessage, hcoverage, hjson]

/-- The loop is left, and what it leaves is the system message, a summary, and the messages behind a
cut that no exchange crosses; the summary lists the messages before it. -/
theorem compact_keeps_exchanges (lib : Libraries) (composer : Composer) {sys : Message} {rest : List Message}
    (hsys : sys.role = .system) (hanswers : Answers (sys :: rest)) :
    cutStep (sys :: rest) (keepStart (sys :: rest) composer.retainedRecentMessages) = none ∧
      ∀ out compaction, lib.compact composer (sys :: rest) = .ok (some (out, compaction)) →
        ∃ removed kept, rest = removed ++ kept ∧ removed ≠ [] ∧
          out = sys :: lib.compactedMessage compaction.summary :: kept ∧
          Answers kept ∧
          (∀ m ∈ removed, ∀ call ∈ m.toolCalls, call.id ∈ results removed) ∧
          compaction.summary.coveredMessages = removed.map lib.coverage := by
  have hleft := keepStart_left (sys :: rest) composer.retainedRecentMessages
  have hbounds := @cutFrom_bounds (sys :: rest) (sys :: rest).length _
    (Nat.le_max_left 1 ((sys :: rest).length - composer.retainedRecentMessages))
  refine ⟨hleft, fun out compaction h => ?_⟩
  obtain ⟨hcovered, hout, read, facts, -, -, hsummary⟩ := compact_some h
  obtain ⟨cut, hcut⟩ := Nat.exists_eq_add_of_le' hbounds.1
  change keepStart (sys :: rest) composer.retainedRecentMessages = cut + 1 at hcut
  rw [hcut] at hleft hcovered hout hsummary
  rw [List.take_succ_cons, List.drop_succ_cons, List.drop_zero] at hcovered hsummary
  rw [List.drop_succ_cons] at hout
  refine ⟨rest.take cut, rest.drop cut, (List.take_append_drop cut rest).symm, hcovered, hout, ?_, ?_, ?_⟩
  · exact kept_answers hsys hanswers (Nat.le_add_left 1 cut) hleft
  · intro m hm call hcall
    obtain ⟨hresult, hnot⟩ := covered_answered hleft
      (by rwa [List.take_succ_cons, List.drop_succ_cons, List.drop_zero]) hcall
    rw [List.drop_succ_cons, List.drop_zero, ← List.take_append_drop cut rest, results_append,
      List.mem_append] at hresult
    rw [List.drop_succ_cons] at hnot
    exact hresult.resolve_right hnot
  · rw [hsummary]
    rfl

/-! A goal, a file that is read, and two messages to be retained. -/

def goal : Message := { role := .user, content := some "Goal: ship it" }

def conversation : List Message :=
  [{ role := .system, content := some "s" }, goal,
    { role := .assistant, toolCalls := [{ id := "c1", name := "read_file" }] },
    { role := .tool, toolCallId := some "c1", content := some "text" },
    { role := .user, content := some "continue" }]

def writer : Composer where
  workspace := "/w"
  sessionId := "session"
  agentId := "agent"
  threadId := none
  retainedRecentMessages := 2
  sourceBounds := some { first := 1, last := 1, first_pos := Nat.one_pos, ordered := Nat.one_pos }
  resolved := []
  toolResultStubs := []
  availableInputTokens := none

/-- The library with the digests of the given texts. -/
def asciiLibraries (digests : List (Value × String)) : Libraries where
  toInterpreter := asciiTables
  ascii := asciiTables_ascii
  casefold c := [c.toLower]
  sha256 text :=
    match digests.find? fun entry => decide (some text.toList = asciiTables.dumps entry.1) && isHash entry.2 with
    | some entry => entry.2
    | none => "e3b0c44298fc1c149afbf4c8996fb92427ae41e4649b934ca495991b7852b855"
  sha256_hex text := by
    split
    · rename_i entry hfound
      have hhash := List.find?_some hfound
      rw [Bool.and_eq_true] at hhash
      exact hhash.2
    · decide +kernel
  loads _ := none

def goalHash : String := "f55b47f410badd33ab58c1c0dcc7d174d5905f9e0fce900dcaae833c09c1db8f"

def conversationSummary : CompactionSummary where
  activeGoal := "[message:1] Goal: ship it"
  workspaceState := [("workspace", .str "/w"), ("source_notes", strings []),
    ("user_requirements", strings ["[message:1] Goal: ship it", "[message:4] continue"]),
    ("tool_pairs", strings [])]
  nextActions := ["Continue from the retained recent messages."]
  coveredMessages := [{ role := .user, contentHash := goalHash, content_hash_ok := by decide +kernel }]

def conversationLibraries : Libraries := asciiLibraries
  [(goal.dump, goalHash),
    (.list [.dict [("content_hash", .str goalHash), ("role", .str "user")]],
      "f0f68d47338eb08d7011849d49b19fb73bc8942801c25c5782e38adc58387aa4"),
    (conversationSummary.dump, "a7c5560cd5bfa5eea538c5e8b24a25f3e9dfaf20ff3ae7927b115470039e38ab")]

theorem conversation_answers : Answers conversation := by
  intro front result back heq hrole
  match front, heq with
  | [], heq | [_], heq | [_, _], heq | [_, _, _, _], heq =>
    simp only [conversation, List.nil_append, List.cons_append, List.cons.injEq] at heq
    simp [← heq, goal] at hrole
  | [_, _, m], heq =>
    simp only [conversation, List.nil_append, List.cons_append, List.cons.injEq] at heq
    exact ⟨m, by simp, by simp [← heq], by simp [← heq]⟩
  | _ :: _ :: _ :: _ :: _ :: _, heq => simp [conversation] at heq

theorem conversation_made :
    (conversationLibraries.compact writer conversation).toOption.join.map (fun result =>
        ((result.1.map (·.role), result.2.summary.coveredMessages.map (·.contentHash)), result.2.summary.dump)) =
      some (([.system, .user, .assistant, .tool, .user], [goalHash]), conversationSummary.dump) := by
  -- The letters are counted, not encoded.
  simp only [Libraries.compact, Libraries.safeCompactionSummary_summaryValue, Libraries.estimateTokens,
    Interpreter.jsonBytes_eq]
  decide +kernel

/-- The file that was read stays with its call; only the goal is covered. -/
theorem conversation_compacted :
    (conversationLibraries.compact writer conversation).toOption.join.map (fun result =>
        (result.1.map (·.role), result.2.summary.coveredMessages.map (·.contentHash))) =
      some ([.system, .user, .assistant, .tool, .user], [goalHash]) ∧
    cutStep conversation (keepStart conversation writer.retainedRecentMessages) = none ∧
    ∀ out compaction, conversationLibraries.compact writer conversation = .ok (some (out, compaction)) →
      ∃ removed kept, conversation.drop 1 = removed ++ kept ∧ removed ≠ [] ∧
        out = { role := .system, content := some "s" } ::
          conversationLibraries.compactedMessage compaction.summary :: kept ∧
        Answers kept ∧
        (∀ m ∈ removed, ∀ call ∈ m.toolCalls, call.id ∈ results removed) ∧
        compaction.summary.coveredMessages = removed.map conversationLibraries.coverage := by
  constructor
  · have hmade := congrArg (Option.map Prod.fst) conversation_made
    rwa [Option.map_map] at hmade
  · exact compact_keeps_exchanges conversationLibraries writer rfl conversation_answers

end Operant.Context
