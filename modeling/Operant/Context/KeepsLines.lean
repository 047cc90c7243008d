import Operant.Context.ThreadHistories

/-! No compaction of a thread loses a line of the user's; a compaction of messages loses those that begin
as the composer's own messages do. -/
namespace Operant.Context
open Operant.Python Operant.Security

def system : Message := { role := .system, content := some "s" }

def conversationEvents : List Event := (conversation.drop 1).map .say ++ [.compact writer]

/-- Of JSON, the summary of the conversation is read back. -/
def readingLibraries : Libraries :=
  { conversationLibraries with
    loads := fun text =>
      if some text.toList = asciiTables.dumps conversationSummary.dump then some conversationSummary.dump else none }

/-- Where all is said before the messages are compacted, only this summary has to be read back. -/
theorem readsBack_said {lib : Libraries} (messages : List Message) (h : History) (composer : Composer)
    (hloads : ∀ out compaction, lib.compact composer (h.messages ++ messages) = .ok (some (out, compaction)) →
      lib.loads (lib.summaryJson compaction.summary) = some compaction.summary.dump) :
    History.ReadsBack lib h (messages.map .say ++ [.compact composer]) := by
  induction messages generalizing h with
  | nil =>
    rw [List.map_nil, List.nil_append]
    refine ⟨fun composer' out compaction hevent hcompact => ?_, trivial⟩
    cases hevent
    rw [List.append_nil] at hloads
    exact hloads out compaction hcompact
  | cons message rest ih =>
    rw [List.map_cons, List.cons_append]
    refine ⟨fun _ _ _ hevent => (nomatch hevent), ih _ ?_⟩
    show ∀ out compaction, lib.compact composer (h.messages ++ [message] ++ rest) = _ → _
    rw [List.append_assoc]
    exact hloads

theorem of_made {ε α β : Type} {made : Except ε (Option α)} {result : α} {f : α → β} {y : β}
    (hy : made.toOption.join.map f = some y) (h : made = .ok (some result)) : f result = y := by
  rw [h] at hy
  exact Option.some.inj hy

theorem conversation_reads_back :
    History.ReadsBack readingLibraries { messages := [system] } conversationEvents := by
  refine readsBack_said (conversation.drop 1) _ writer fun out compaction hcompact => ?_
  have hmade : readingLibraries.compact writer ([system] ++ conversation.drop 1) =
      conversationLibraries.compact writer conversation :=
    compact_loads conversationLibraries _ writer (by decide +kernel)
  have hdump := congrArg (Option.map Prod.snd) conversation_made
  rw [Option.map_map, ← hmade] at hdump
  have hsome : (readingLibraries.dumps conversationSummary.dump).isSome = true := by decide +kernel
  obtain ⟨text, htext⟩ := Option.isSome_iff_exists.mp hsome
  have hmine := of_made hdump hcompact
  change compaction.summary.dump = conversationSummary.dump at hmine
  unfold Libraries.summaryJson
  rw [hmine, htext, Option.getD_some]
  show (if some (String.ofList text).toList = readingLibraries.dumps conversationSummary.dump then _ else none) = _
  rw [String.toList_ofList, htext, if_pos rfl]

def references : Message := { role := .user, content := some "Explicit Context references must keep their ids" }

def derived : Message :=
  { role := .user, content := some "Derived append-only Compaction of older messages. What is that?" }

def answer : Message := { role := .assistant, content := some "Noted." }

/-- The user's line is compacted away: no requirement, no message holds it. -/
def referenceHistory : History :=
  History.run readingLibraries { messages := [system] } [.say references, .say answer]

def derivedHistory : History :=
  History.run readingLibraries { messages := [system] } [.say derived, .say answer]

/-- Whether a compaction that was refused was refused for the limit. -/
def isLimit {α : Type} : Except ContextError α → Option Bool
  | .ok _ => none
  | .error (.limit _) => some true
  | .error _ => some false

end Operant.Context
