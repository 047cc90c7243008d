import Operant.Context.ToolResults
import Operant.Context.Exchanges

/-! Whose body a folded tool result names.

Every round writes what the paired message holds, and later rounds leave what was written. So a stub
names the body of its own message where the last message with its id, if that one is large, holds the
same. -/
namespace Operant.Context
open Operant.Python Operant.Security

namespace ArtifactStore

/-- What artifacts hold stays, and `p` names the blobs that may be new. -/
structure Extends (before after : ArtifactStore) (p : String → Prop) : Prop where
  bytes : ∀ id s, before.bytes? id = some s → after.bytes? id = some s
  blobs : ∀ entry ∈ after.blobs, entry ∈ before.blobs ∨ p entry.2

theorem Extends.refl (store : ArtifactStore) (p : String → Prop) : store.Extends store p :=
  ⟨fun _ _ h => h, fun _ h => .inl h⟩

theorem Extends.imp {before after : ArtifactStore} {p q : String → Prop} (h : before.Extends after p)
    (himp : ∀ s, p s → q s) : before.Extends after q :=
  ⟨h.bytes, fun entry hentry => (h.blobs entry hentry).imp_right (himp entry.2)⟩

theorem Extends.trans {a b c : ArtifactStore} {p : String → Prop} (h : a.Extends b p) (h' : b.Extends c p) :
    a.Extends c p :=
  ⟨fun id s hs => h'.bytes id s (h.bytes id s hs), fun entry hentry =>
    (h'.blobs entry hentry).elim (fun hb => h.blobs entry hb) .inr⟩

/-- A row is found by its id. -/
theorem bytes?_of_mem {store : ArtifactStore} {row : Artifact} (h : row ∈ store.rows) :
    store.bytes? row.id = store.blobs.lookup row.contentHash := by
  have hfound : store.rows.find? (·.id = row.id) = some row := by
    cases hfind : store.rows.find? (·.id = row.id) with
    | none => exact absurd (List.find?_eq_none.mp hfind row h) (by simp)
    | some other =>
      have hid : other.id = row.id := by simpa using List.find?_some hfind
      have hother := List.mem_of_find?_eq_some hfind
      rw [(List.inj_on_of_nodup_map store.ids_nodup) hother h hid]
  rw [bytes?, hfound, Option.bind_some]

end ArtifactStore

namespace Writer
variable {writer : Writer} {store after : ArtifactStore} {content : String} {artifact : Artifact}

/-! ### Artifacts -/

theorem verifies_iff {hash : String} {size : Nat} : writer.verifies store hash size = true ↔
    ∃ blob, store.blobs.lookup hash = some blob ∧ writer.sha256 blob = hash ∧ blob.utf8ByteSize = size := by
  simp [verifies, Option.any_eq_true]

/-- The blob of a text that was put, and the others. -/
theorem putBytes_ok {blobs : Dict String} (h : writer.putBytes store content = .ok blobs) :
    (∃ blob, blobs.lookup (writer.sha256 content) = some blob ∧ writer.sha256 blob = writer.sha256 content) ∧
      (∀ hash s, store.blobs.lookup hash = some s → blobs.lookup hash = some s) ∧
      ∀ entry ∈ blobs, entry ∈ store.blobs ∨ entry.2 = content := by
  unfold putBytes at h
  split at h
  · exact nomatch h
  · split at h
    · split at h
      · rename_i hverifies
        obtain ⟨blob, hblob, hhash, -⟩ := verifies_iff.mp hverifies
        cases h
        exact ⟨⟨blob, hblob, hhash⟩, fun _ _ hs => hs, fun _ hentry => .inl hentry⟩
      · exact nomatch h
    · rename_i hnew
      cases h
      refine ⟨⟨content, Dict.lookup_set_self .., rfl⟩, fun hash s hs => ?_, fun entry hentry => ?_⟩
      · rw [Dict.lookup_set_ne _ _ (fun heq => hnew (by rw [Dict.has, ← heq, hs]; rfl))]
        exact hs
      · cases Dict.mem_set hentry with
        | inl heq => exact .inr (by rw [heq])
        | inr hmem => exact .inl hmem

/-- What was written, or was there already, has the hash of the content. -/
theorem writeToolResultArtifact_ok (h : writer.writeToolResultArtifact store content = .ok (artifact, after)) :
    (∃ blob, after.bytes? artifact.id = some blob ∧ writer.sha256 blob = writer.sha256 content) ∧
      store.Extends after (· = content) := by
  unfold writeToolResultArtifact at h
  split at h
  · rename_i existing hfound
    split at h
    · exact nomatch h
    · split at h
      · rename_i hverifies
        cases h
        obtain ⟨blob, hblob, hhash, -⟩ := verifies_iff.mp hverifies
        have hsame : artifact.contentHash = writer.sha256 content := by simpa using List.find?_some hfound
        refine ⟨⟨blob, ?_, hhash.trans hsame⟩, .refl store _⟩
        rw [ArtifactStore.bytes?_of_mem (List.mem_of_find?_eq_some hfound), hblob]
      · exact nomatch h
  · cases hput : writer.putBytes store content with
    | error e => rw [hput] at h; exact nomatch h
    | ok blobs =>
      rw [hput] at h
      cases h
      obtain ⟨⟨blob, hblob, hhash⟩, hkept, hentries⟩ := putBytes_ok hput
      have hrow : writer.newArtifact store content ∈ (writer.register store content blobs).rows :=
        List.mem_append_right _ (List.mem_singleton.mpr rfl)
      refine ⟨⟨blob, ?_, hhash⟩, fun id s hs => ?_, hentries⟩
      · rw [ArtifactStore.bytes?_of_mem hrow]
        exact hblob
      · obtain ⟨row, hfind, hs⟩ := Option.bind_eq_some_iff.mp hs
        have hfind' : (writer.register store content blobs).rows.find? (·.id = id) = some row := by
          show (store.rows ++ _).find? _ = some row
          rw [List.find?_append, hfind]
          rfl
        rw [ArtifactStore.bytes?, hfind', Option.bind_some]
        exact hkept _ _ hs

/-! ### Rounds -/

variable {originals : List Message} {threshold : Int} {safe : Message} {folded : Folded}

/-- What a round leaves of a message. -/
structure Outcome (writer : Writer) (originals : List Message) (threshold : Int) (after : ArtifactStore)
    (safe : Message) (folded : Folded) : Prop where
  role : folded.message.role = safe.role
  toolCallId : folded.message.toolCallId = safe.toolCallId
  small : writer.isLarge threshold (paired originals safe) = false → folded = { message := safe }
  large : writer.isLarge threshold (paired originals safe) = true → ∃ stub source blob,
    folded.stub = some (stub, source) ∧ stub.toolCallId = (paired originals safe).toolCallId.getD "" ∧
      after.bytes? stub.artifactId = some blob ∧
      writer.sha256 blob = writer.sha256 (writer.storedContent (paired originals safe))

theorem Outcome.extend {p : String → Prop} {last : ArtifactStore}
    (h : writer.Outcome originals threshold after safe folded) (hlast : after.Extends last p) :
    writer.Outcome originals threshold last safe folded where
  role := h.role
  toolCallId := h.toolCallId
  small := h.small
  large := fun hlarge => by
    obtain ⟨stub, source, blob, hstub, hid, hbytes, hhash⟩ := h.large hlarge
    exact ⟨stub, source, blob, hstub, hid, hlast.bytes _ _ hbytes, hhash⟩

theorem foldOne_ok (h : writer.foldOne originals threshold store safe = .ok (folded, after)) :
    writer.Outcome originals threshold after safe folded ∧ store.Extends after fun s =>
      writer.isLarge threshold (paired originals safe) = true ∧
        s = writer.storedContent (paired originals safe) := by
  unfold foldOne at h
  dsimp only at h
  split at h
  · rename_i hsmall
    rw [Bool.not_eq_true'] at hsmall
    cases h
    refine ⟨⟨rfl, rfl, fun _ => rfl, fun hlarge => ?_⟩, .refl store _⟩
    rw [hsmall] at hlarge
    cases hlarge
  · rename_i hlarge
    rw [Bool.not_eq_true', Bool.not_eq_false] at hlarge
    cases hwrite : writer.writeToolResultArtifact store (writer.storedContent (paired originals safe)) with
    | error e => rw [hwrite] at h; cases h
    | ok written =>
      obtain ⟨artifact, last⟩ := written
      obtain ⟨⟨blob, hblob, hhash⟩, hextends⟩ := writeToolResultArtifact_ok hwrite
      simp only [hwrite, bind, Except.bind] at h
      split at h
      · cases h
      · split at h
        · cases h
        · split at h
          · cases h
          · cases h
            refine ⟨⟨rfl, rfl, fun hsmall => ?_, fun _ => ⟨_, _, blob, rfl, rfl, hblob, hhash⟩⟩,
              hextends.imp fun s hs => ⟨hlarge, hs⟩⟩
            rw [hlarge] at hsmall
            cases hsmall

theorem foldFrom_ok {safes : List Message} {results : List Folded}
    (h : writer.foldFrom originals threshold store safes = .ok (results, after)) :
    List.Forall₂ (writer.Outcome originals threshold after) safes results ∧ store.Extends after fun s =>
      ∃ safe ∈ safes, writer.isLarge threshold (paired originals safe) = true ∧
        s = writer.storedContent (paired originals safe) := by
  induction safes generalizing store results with
  | nil =>
    cases h
    exact ⟨.nil, .refl _ _⟩
  | cons safe rest ih =>
    rw [foldFrom] at h
    cases hone : writer.foldOne originals threshold store safe with
    | error e => rw [hone] at h; exact nomatch h
    | ok one =>
      obtain ⟨folded, middle⟩ := one
      rw [hone] at h
      cases hrest : writer.foldFrom originals threshold middle rest with
      | error e => simp only [hrest, bind, Except.bind] at h; exact nomatch h
      | ok others =>
        obtain ⟨others, last⟩ := others
        simp only [hrest, bind, Except.bind] at h
        cases h
        obtain ⟨houtcome, hfirst⟩ := foldOne_ok hone
        obtain ⟨houtcomes, hextends⟩ := ih hrest
        refine ⟨.cons (houtcome.extend hextends) houtcomes, (hfirst.imp fun s hs => ?_).trans
          (hextends.imp fun s hs => ?_)⟩
        · exact ⟨safe, List.mem_cons_self, hs⟩
        · obtain ⟨other, hother, hs⟩ := hs
          exact ⟨other, List.mem_cons_of_mem safe hother, hs⟩

/-! ### Messages of one id -/

theorem originalTool_mem {toolCallId : Option String} {last : Message}
    (h : originalTool originals toolCallId = some last) : last ∈ originals ∧ last.role = .tool := by
  have hmem := List.mem_of_find?_eq_some h
  have hfound := List.find?_some h
  simp only [Bool.and_eq_true, decide_eq_true_eq] at hfound
  exact ⟨List.mem_reverse.mp hmem, hfound.1⟩

/-- A tool result of the history is paired with one of the history. -/
theorem originalTool_some {message : Message} (hmem : message ∈ originals) (hrole : message.role = .tool) :
    ∃ last, originalTool originals message.toolCallId = some last := by
  rw [← Option.isSome_iff_exists, originalTool, List.find?_isSome]
  exact ⟨message, List.mem_reverse.mpr hmem, by simp [hrole]⟩

theorem paired_history {message last : Message} (hrole : message.role = .tool)
    (hlast : originalTool originals message.toolCallId = some last) :
    paired originals (writer.safeMessage message) = last := by
  have hsafe : (writer.safeMessage message).role = .tool := hrole
  rw [paired, if_pos hsafe, show (writer.safeMessage message).toolCallId = message.toolCallId from rfl, hlast,
    Option.getD_some]

/-- What is no tool result is paired with itself, and is small. -/
theorem small_of_role (h : safe.role ≠ .tool) : writer.isLarge threshold (paired originals safe) = false := by
  rw [paired, if_neg h, isLarge]
  simp [h]

/-! ### Attribution -/

/-- The texts of the stored blobs and of the tool results have different hashes. -/
def NoCollision (writer : Writer) (store : ArtifactStore) (messages : List Message) : Prop :=
  let texts := store.blobs.map Prod.snd ++
    (messages.filter fun message => message.role = .tool).map writer.storedContent
  ∀ s ∈ texts, ∀ t ∈ texts, writer.sha256 s = writer.sha256 t → s = t

/-- What a message is folded to: it keeps its role and its id, it stays when it is small, and a stub
names an artifact that holds its own body. -/
structure Attributed (writer : Writer) (threshold : Option Int) (after : ArtifactStore) (slot : Slot)
    (folded : Folded) : Prop where
  role : folded.message.role = (slot.safe writer.toLibraries).role
  toolCallId : folded.message.toolCallId = (slot.safe writer.toLibraries).toolCallId
  small : (∀ message, slot = .history message → ∀ t ∈ threshold, writer.isLarge t message = false) →
    folded = { message := slot.safe writer.toLibraries }
  body : ∀ stub source, folded.stub = some (stub, source) → ∃ message, slot = .history message ∧
    message.role = .tool ∧ stub.toolCallId = message.toolCallId.getD "" ∧
    after.bytes? stub.artifactId = some (writer.storedContent message)

/-- The last message with the id of this one, if it is large, holds the same. -/
def RepeatsBody (writer : Writer) (originals : List Message) (threshold : Int) (message : Message) : Prop :=
  ∀ last, originalTool originals message.toolCallId = some last → writer.isLarge threshold last = true →
    writer.isLarge threshold message = true ∧ writer.storedContent last = writer.storedContent message

section
variable {slots : List Slot} {results : List Folded}

theorem mem_originals {message : Message} (h : Slot.history message ∈ slots) :
    message ∈ slots.filterMap Slot.original :=
  List.mem_filterMap.mpr ⟨_, h, rfl⟩

/-- What is large is paired with a tool result of the history. -/
theorem paired_large {slot : Slot} (hslot : slot ∈ slots)
    (hlarge : writer.isLarge threshold (paired (slots.filterMap Slot.original) (slot.safe writer.toLibraries)) = true) :
    (∃ message, slot = .history message ∧ message.role = .tool ∧
      originalTool (slots.filterMap Slot.original) message.toolCallId =
        some (paired (slots.filterMap Slot.original) (slot.safe writer.toLibraries))) ∧
      paired (slots.filterMap Slot.original) (slot.safe writer.toLibraries) ∈
        (slots.filterMap Slot.original).filter fun message => message.role = .tool := by
  have hrole : (slot.safe writer.toLibraries).role = .tool := by
    by_contra hrole
    rw [small_of_role hrole] at hlarge
    cases hlarge
  clear hlarge
  cases slot with
  | inserted message user => exact absurd (user.symm.trans hrole) (by decide)
  | history message =>
    obtain ⟨last, hlast⟩ := originalTool_some (mem_originals hslot) (show message.role = .tool from hrole)
    obtain ⟨hmem, hlastRole⟩ := originalTool_mem hlast
    have hpaired : paired (slots.filterMap Slot.original) (Slot.safe writer.toLibraries (.history message)) = last :=
      paired_history hrole hlast
    rw [hpaired]
    exact ⟨⟨message, rfl, hrole, hlast⟩, List.mem_filter.mpr ⟨hmem, decide_eq_true hlastRole⟩⟩

/-- The blobs after a run are those before it and the bodies of tool results. -/
theorem blobs_after (h : writer.foldFrom (slots.filterMap Slot.original) threshold store
      (slots.map (·.safe writer.toLibraries)) = .ok (results, after)) :
    ∀ id s, after.bytes? id = some s → s ∈ store.blobs.map Prod.snd ++
      ((slots.filterMap Slot.original).filter fun message => message.role = .tool).map writer.storedContent := by
  intro id s hs
  obtain ⟨row, -, hlookup⟩ := Option.bind_eq_some_iff.mp hs
  have hentry : (row.contentHash, s) ∈ after.blobs := by
    obtain ⟨front, back, hparts, -⟩ := List.lookup_eq_some_iff.mp hlookup
    rw [hparts]
    exact List.mem_append_right _ List.mem_cons_self
  rw [List.mem_append]
  cases (foldFrom_ok h).2.blobs _ hentry with
  | inl hold => exact .inl (List.mem_map.mpr ⟨_, hold, rfl⟩)
  | inr hnew =>
    obtain ⟨safe, hsafe, hlarge, heq⟩ := hnew
    obtain ⟨slot, hslot, rfl⟩ := List.mem_map.mp hsafe
    exact .inr (List.mem_map.mpr ⟨_, (paired_large hslot hlarge).2, heq.symm⟩)

theorem forall₂_iff_of_each {α β : Type} {R : α → β → Prop} {p : α → Prop} {xs : List α} {ys : List β}
    (h : List.Forall₂ (fun x y => R x y ↔ p x) xs ys) : List.Forall₂ R xs ys ↔ ∀ x ∈ xs, p x := by
  induction h with
  | nil => simp
  | cons hone _ ih => rw [List.forall₂_cons, List.forall_mem_cons, hone, ih]

/-- One message, and what it was folded to. -/
theorem attributed_iff {slot : Slot} (hslot : slot ∈ slots)
    (houtcome : writer.Outcome (slots.filterMap Slot.original) threshold after (slot.safe writer.toLibraries) folded)
    (hbody : ∀ stub source last, folded.stub = some (stub, source) → last ∈ slots.filterMap Slot.original →
      last.role = .tool → (∃ blob, after.bytes? stub.artifactId = some blob ∧
        writer.sha256 blob = writer.sha256 (writer.storedContent last)) →
      after.bytes? stub.artifactId = some (writer.storedContent last)) :
    writer.Attributed (some threshold) after slot folded ↔ ∀ message, slot = .history message →
      message.role = .tool → writer.RepeatsBody (slots.filterMap Slot.original) threshold message := by
  constructor
  · rintro h message rfl hrole last hlast hlarge
    have hpaired : paired (slots.filterMap Slot.original) (Slot.safe writer.toLibraries (.history message)) = last :=
      paired_history hrole hlast
    obtain ⟨stub, source, blob, hstub, -, hblob, hhash⟩ := houtcome.large (by rw [hpaired]; exact hlarge)
    rw [hpaired] at hhash
    obtain ⟨hlastMem, hlastRole⟩ := originalTool_mem hlast
    have hmine := hbody stub source last hstub hlastMem hlastRole ⟨blob, hblob, hhash⟩
    obtain ⟨other, heq, -, -, hbytes⟩ := h.body stub source hstub
    cases heq
    rw [hmine] at hbytes
    refine ⟨?_, Option.some.inj hbytes⟩
    by_contra hsmall
    have hfolded := h.small fun other heq t ht => by
      cases heq
      cases ht
      exact Bool.not_eq_true _ ▸ hsmall
    rw [hfolded] at hstub
    cases hstub
  · intro h
    cases hpairedLarge : writer.isLarge threshold
        (paired (slots.filterMap Slot.original) (slot.safe writer.toLibraries)) with
    | false =>
      have hfolded := houtcome.small hpairedLarge
      refine ⟨houtcome.role, houtcome.toolCallId, fun _ => hfolded, fun stub source hstub => ?_⟩
      rw [hfolded] at hstub
      cases hstub
    | true =>
      obtain ⟨⟨message, rfl, hrole, hlast⟩, hmem⟩ := paired_large hslot hpairedLarge
      obtain ⟨stub, source, blob, hstub, hid, hblob, hhash⟩ := houtcome.large hpairedLarge
      obtain ⟨hlarge, hsame⟩ := h message rfl hrole _ hlast hpairedLarge
      refine ⟨houtcome.role, houtcome.toolCallId, fun hsmall => ?_, fun stub' source' hstub' => ?_⟩
      · rw [hsmall message rfl threshold rfl] at hlarge
        cases hlarge
      · rw [hstub] at hstub'
        cases hstub'
        obtain ⟨hlastMem, hlastRole⟩ := originalTool_mem hlast
        refine ⟨message, rfl, hrole, ?_, ?_⟩
        · have hfound := List.find?_some hlast
          simp only [Bool.and_eq_true, decide_eq_true_eq] at hfound
          rw [hid, hfound.2]
        · rw [← hsame]
          exact hbody stub source _ hstub hlastMem hlastRole ⟨blob, hblob, hhash⟩

end
end Writer

open Writer in
/-- For every history with other messages in between, every policy and every capacity: when the tool
results are folded, each message keeps its place, its role and its id, small ones stay and stubs name
the bodies of their own messages, if and only if every tool result repeats what the last one with its
id holds, where that one is large. -/
theorem tool_results_attributable_iff (writer : Writer) (policy : FoldPolicy) (slots : List Slot)
    (available : Option Int) (store after : ArtifactStore) (results : List Folded)
    (h : writer.foldLargeToolResults policy slots available store = .ok (results, after))
    (hcollision : writer.NoCollision store (slots.filterMap Slot.original)) :
    List.Forall₂ (writer.Attributed (available.map policy.threshold) after) slots results ↔
      ∀ tokens ∈ available, ∀ message, Slot.history message ∈ slots → message.role = .tool →
        writer.RepeatsBody (slots.filterMap Slot.original) (policy.threshold tokens) message := by
  cases available with
  | none =>
    cases h
    refine iff_of_true ?_ (fun tokens htokens => nomatch htokens)
    rw [List.map_map, List.forall₂_map_right_iff, List.forall₂_same]
    exact fun slot hslot => ⟨rfl, rfl, fun _ => rfl, fun stub source hstub => nomatch hstub⟩
  | some tokens =>
    have hrun : writer.foldFrom (slots.filterMap Slot.original) (policy.threshold tokens) store
        (slots.map (·.safe writer.toLibraries)) = .ok (results, after) := h
    obtain ⟨houtcomes, -⟩ := foldFrom_ok hrun
    rw [List.forall₂_map_left_iff] at houtcomes
    have hbody : ∀ (stub : ToolResultStub) (last : Message), last ∈ slots.filterMap Slot.original →
        last.role = .tool → (∃ blob, after.bytes? stub.artifactId = some blob ∧
          writer.sha256 blob = writer.sha256 (writer.storedContent last)) →
        after.bytes? stub.artifactId = some (writer.storedContent last) := by
      rintro stub last hlast hrole ⟨blob, hblob, hhash⟩
      have hmine : writer.storedContent last ∈ store.blobs.map Prod.snd ++
          ((slots.filterMap Slot.original).filter fun message => message.role = .tool).map writer.storedContent :=
        List.mem_append_right _ (List.mem_map.mpr ⟨last, List.mem_filter.mpr ⟨hlast, decide_eq_true hrole⟩, rfl⟩)
      rw [hblob, hcollision blob (blobs_after hrun _ _ hblob) _ hmine hhash]
    have each := ((List.forall₂_and_left _ _).mpr ⟨fun slot hslot => hslot, houtcomes⟩).imp fun slot folded hone =>
      attributed_iff hone.1 hone.2 fun stub _ last _ => hbody stub last
    rw [Option.map_some, forall₂_iff_of_each each]
    constructor
    · intro hslots tokens' htokens message hmem hrole
      cases htokens
      exact hslots _ hmem message rfl hrole
    · rintro hall slot hslot message rfl hrole
      exact hall tokens rfl message hslot hrole

/-! ### One id in two turns -/

/-- A name that is longer than all the others. -/
def longerName (ids : List String) : String := .ofList ('a' :: ids.flatMap String.toList)

theorem longerName_fresh (ids : List String) : longerName ids ∉ ids := by
  intro h
  have hle := List.single_le_sum (fun _ _ => Nat.zero_le _) _ (List.mem_map_of_mem (f := fun id => id.toList.length) h)
  rw [longerName, String.toList_ofList, List.length_cons, List.length_flatMap] at hle
  omega

def asciiWriter : Writer where
  toLibraries := asciiLibraries
    [(.str "a", "ac8d8342bbb2362d13f0a559a3621bb407011368895164b628a54f7fc33fc43c"),
      (.str "b", "c100f95c1913f9c72fc1f4ef0847e1e723ffe0bde0b36e5f36c13f81fe8c26ed")]
  newId := longerName
  newId_fresh := longerName_fresh

/-- Everything of one token is large. -/
def smallPolicy : FoldPolicy where
  minimumToolResultArtifactTokens := 1
  share tokens := (tokens + 9) / 10

def toolResult (content : String) : Message := { role := .tool, content := some content, toolCallId := some "call_0" }

def noArtifacts : ArtifactStore := { maxSizeBytes := 1000 }

theorem one_result_attributable : ∃ results after,
    asciiWriter.foldLargeToolResults smallPolicy [.history (toolResult "\"a\"")] (some 1) noArtifacts =
      .ok (results, after) ∧
    List.Forall₂ (asciiWriter.Attributed (some (smallPolicy.threshold 1)) after)
      [.history (toolResult "\"a\"")] results := by
  have hsome : (asciiWriter.foldLargeToolResults smallPolicy [.history (toolResult "\"a\"")] (some 1)
      noArtifacts).toOption.isSome = true := by
    decide +kernel
  cases hfold : asciiWriter.foldLargeToolResults smallPolicy [.history (toolResult "\"a\"")] (some 1) noArtifacts with
  | error e => rw [hfold] at hsome; exact nomatch hsome
  | ok folded =>
    obtain ⟨results, after⟩ := folded
    refine ⟨results, after, rfl, (tool_results_attributable_iff asciiWriter smallPolicy _ (some 1) noArtifacts after
      results hfold ?_).mpr fun tokens htokens message hmessage hrole last hlast hlarge => ?_⟩
    · intro s hs t ht _
      rw [List.mem_singleton.mp hs, List.mem_singleton.mp ht]
    · obtain rfl : message = toolResult "\"a\"" := by simpa using hmessage
      obtain rfl : last = toolResult "\"a\"" := by
        simpa [Slot.original, eq_comm] using (Writer.originalTool_mem hlast).1
      exact ⟨hlarge, rfl⟩

/-- Two turns use one id: the stub of the first names the body of the second. -/
theorem repeated_id_misattributed : ∃ results after,
    asciiWriter.foldLargeToolResults smallPolicy
      [.history (toolResult "\"a\""), .history (toolResult "\"b\"")] (some 1) noArtifacts = .ok (results, after) ∧
    ¬List.Forall₂ (asciiWriter.Attributed (some (smallPolicy.threshold 1)) after)
      [.history (toolResult "\"a\""), .history (toolResult "\"b\"")] results := by
  have hbytes : (asciiWriter.foldLargeToolResults smallPolicy
      [.history (toolResult "\"a\""), .history (toolResult "\"b\"")] (some 1) noArtifacts).toOption.map
        (fun folded => folded.1.map fun result => result.stub.bind fun stub => folded.2.bytes? stub.1.artifactId) =
      some [some "\"b\"", some "\"b\""] := by
    decide +kernel
  have hstored : asciiWriter.storedContent (toolResult "\"a\"") = "\"a\"" := by decide +kernel
  cases hfold : asciiWriter.foldLargeToolResults smallPolicy
      [.history (toolResult "\"a\""), .history (toolResult "\"b\"")] (some 1) noArtifacts with
  | error e => rw [hfold] at hbytes; exact nomatch hbytes
  | ok folded =>
    obtain ⟨results, after⟩ := folded
    refine ⟨results, after, rfl, fun h => ?_⟩
    rw [hfold] at hbytes
    cases h with
    | cons hfirst hrest =>
      rename_i first others
      have hother : (first.stub.bind fun stub => after.bytes? stub.1.artifactId) = some "\"b\"" := by
        have hlist := Option.some.inj hbytes
        exact (List.cons.inj hlist).1
      obtain ⟨⟨stub, source⟩, hstub, hread⟩ := Option.bind_eq_some_iff.mp hother
      obtain ⟨message, heq, -, -, hmine⟩ := hfirst.body stub source hstub
      cases heq
      rw [hstored, hread] at hmine
      exact absurd (Option.some.inj hmine) (by decide)

end Operant.Context
