import Operant.Calls.Rules
import Operant.Memory.Contracts
import Operant.Security.Growth
import Operant.Text.Frames

/-! A private index: `RestrictedHostApi.private_index`.

The content is in a file and the revision in the registry. A write truncates the file, writes it, and raises the
revision after that; a request may be cut between any two of these. As long as none is, a revision is one content. -/
namespace Operant.Plugins
open Operant.Memory Operant.Security Operant.Text

namespace PrivateIndex

/-! ### The model -/

/-- What is at the path of the index. -/
inductive ManagedFile where
  | absent
  | regular (bytes : List UInt8)
  /-- No regular file, or one with other links. -/
  | other
  deriving DecidableEq

/-- The file, and the revision in memory and in the state file. -/
structure Store where
  file : ManagedFile
  revision : Nat
  saved : Nat
  deriving DecidableEq

/-- The limits of a `HostBudget` that a private index meets. -/
structure HostBudget where
  maxRequestBytes : Nat := 1000000
  maxResponseBytes : Nat := 1000000
  maxCalls : Nat := 1000
  maxPrivateIndexBytes : Nat := 20000000
  maxRequestBytes_range : 1024 ≤ maxRequestBytes ∧ maxRequestBytes ≤ 16777216 := by decide
  maxResponseBytes_range : 1024 ≤ maxResponseBytes ∧ maxResponseBytes ≤ 16777216 := by decide
  maxCalls_range : 1 ≤ maxCalls ∧ maxCalls ≤ 100000 := by decide
  maxPrivateIndexBytes_range : 1024 ≤ maxPrivateIndexBytes ∧ maxPrivateIndexBytes ≤ 200000000 := by decide

/-- `_CallBudget`, of what a private index charges. -/
structure CallBudget where
  limits : HostBudget := {}
  calls : Nat := 0
  requestBytes : Nat := 0
  responseBytes : Nat := 0
  privateIndexBytes : Nat := 0

inductive Failure where
  | budget (message : String)
  | denied (message : String)
  | protocol (message : String)
  | revisionConflict
  /-- A `PrivateIndexResult` that is not valid. -/
  | validation
  /-- What stops a request before its revision is looked at: its context, the lease, the lookup of the resource. -/
  | refused
  /-- What stops a request later on: the system, or the end of the process. -/
  | cut
  deriving DecidableEq

namespace CallBudget

def chargeRequest (b : CallBudget) (size : Nat) : Except Failure CallBudget :=
  let charged := { b with calls := b.calls + 1, requestBytes := b.requestBytes + size }
  if b.limits.maxCalls < charged.calls then .error (.budget "plugin call budget exhausted")
  else if b.limits.maxRequestBytes < size then .error (.budget "plugin request exceeds the configured byte limit")
  else .ok charged

def chargeResponse (b : CallBudget) (size : Nat) : Except Failure CallBudget :=
  if b.limits.maxResponseBytes < size then .error (.budget "plugin response exceeds the configured byte limit")
  else .ok { b with responseBytes := b.responseBytes + size }

def chargePrivateIndex (b : CallBudget) (size : Nat) : Except Failure CallBudget :=
  if b.limits.maxPrivateIndexBytes < b.privateIndexBytes + size then .error (.budget "private index budget exhausted")
  else .ok { b with privateIndexBytes := b.privateIndexBytes + size }

end CallBudget

/-- `PrivateIndexResult` -/
structure Result where
  resourceId : Id
  revision : Nat
  contentDigest : Option Digest := none
  payload : Option String := none
  deriving DecidableEq

namespace Result

/-- The bounds of a `Revision` and of a payload. -/
def valid (result : Result) : Bool := result.revision ≤ maxRevision && result.payload.all (·.toList.length ≤ 100000)

/-- `canonical_json`, its keys in order. -/
def canonicalJson (result : Result) : List Char :=
  "\x7b\"content_digest\":".toList ++ (result.contentDigest.elim "null".toList fun d => '"' :: (d.1 ++ ['"'])) ++
    ",\"payload\":".toList ++ (result.payload.elim "null".toList Interpreter.dumpsStr) ++
    ",\"resource_id\":".toList ++ Interpreter.dumpsStr result.resourceId.1 ++
    ",\"revision\":".toList ++ Nat.toDigits 10 result.revision ++ ['}']

/-- A result is validated, and its bytes are charged. -/
def answered (result : Result) (b : CallBudget) : Except Failure Result :=
  if result.valid = false then .error .validation
  else (b.chargeResponse (total Char.utf8Size result.canonicalJson)).map fun _ => result

end Result

inductive Operation where
  | read
  | replace (payload : String)
  | delete

/-- One step of a request that changes something. -/
inductive Effect where
  /-- `os.open(.., O_CREAT)` -/
  | create
  | truncate
  | append (byte : UInt8)
  | unlink
  /-- The new state of the registry, in memory and in its file. -/
  | bump
  | save

def Effect.apply (s : Store) : Effect → Store
  | .create => match s.file with
    | .absent => { s with file := .regular [] }
    | _ => s
  | .truncate => { s with file := .regular [] }
  | .append byte => match s.file with
    | .regular bytes => { s with file := .regular (bytes ++ [byte]) }
    | _ => s
  | .unlink => { s with file := .absent }
  | .bump => { s with revision := s.revision + 1 }
  | .save => { s with saved := s.revision }

/-- `encode("utf-8")` -/
def encode (payload : String) : List UInt8 := utf8 payload.toList

/-- `_write_managed_file`, `_delete_managed_file` and `bump_resource_revision`. The system may write any beginning
of the bytes. -/
def Operation.effects : Operation → List Effect
  | .read => []
  | .replace payload => .create :: .truncate :: ((encode payload).map .append ++ [.bump, .save])
  | .delete => [.unlink, .bump, .save]

/-- Where a request is cut: after so many of its effects, by a failure or by the end of the process. -/
structure Cut where
  after : Nat
  crash : Bool

/-- A request with what it meets. -/
structure Request where
  operation : Operation
  expectedRevision : Nat
  size : Nat
  budget : CallBudget := {}
  admitted : Bool := true
  cut : Option Cut := none

namespace Store

/-- The resource as the state file has it. -/
def loaded (file : ManagedFile) (revision : Nat) : Store := ⟨file, revision, revision⟩

/-- After the end of a process, the revision is the one of the state file. -/
def restart (s : Store) : Store := { s with revision := s.saved }

def perform (s : Store) (effects : List Effect) : Store := effects.foldl Effect.apply s

end Store

section
variable (sha256 : List UInt8 → Digest) (resourceId : Id)

/-- `_read_managed_file` -/
def readManagedFile (file : ManagedFile) (maxBytes : Nat) : Except Failure (Option String) :=
  match file with
  | .absent => .ok none
  | .other => .error (.denied "managed resource must be a private regular file")
  | .regular bytes =>
    if maxBytes < bytes.length then .error (.budget "private index read exceeds response budget")
    else match bytes.toByteArray.utf8Decode? with
      | none => .error (.protocol "private index is not UTF-8")
      | some cs => .ok (some (String.ofList cs.toList))

/-- What is checked of an operation before its first effect. -/
def checkOperation (s : Store) (b : CallBudget) : Operation → Except Failure CallBudget
  | .read => .ok b
  | .delete => if s.file = .other then .error (.denied "managed file resource is not private") else .ok b
  | .replace payload => do
    let b ← b.chargePrivateIndex (encode payload).length
    if s.file = .other then .error (.denied "managed resource must be a private regular file") else .ok b

/-- The result of an operation that was not cut. -/
def resultOf (s : Store) (b : CallBudget) : Operation → Except Failure Result
  | .read => do
    let payload ← readManagedFile s.file b.limits.maxResponseBytes
    let contentDigest := payload.map fun text => sha256 (encode text)
    return { resourceId, revision := s.revision, contentDigest, payload }
  | .delete => .ok { resourceId, revision := s.revision + 1 }
  | .replace payload =>
    .ok { resourceId, revision := s.revision + 1, contentDigest := some (sha256 (encode payload)) }

/-- Whether a request comes to its effects, and with which budget. -/
def checkRequest (s : Store) (request : Request) : Except Failure CallBudget := do
  let b ← request.budget.chargeRequest request.size
  if request.admitted = false then .error .refused
  else if request.expectedRevision ≠ s.revision then .error .revisionConflict
  else checkOperation s b request.operation

/-- `private_index` -/
def privateIndex (s : Store) (request : Request) : Except Failure Result × Store :=
  match checkRequest s request with
  | .error failure => (.error failure, s)
  | .ok b => match request.cut with
    | some cut =>
      let left := s.perform (request.operation.effects.take cut.after)
      (.error .cut, if cut.crash then left.restart else left)
    | none => ((resultOf sha256 resourceId s b request.operation).bind (·.answered b),
        s.perform request.operation.effects)

/-- What happens to the index: a request, or the end of the process between two of them. -/
inductive Step where
  | request (request : Request)
  | crash

/-- A request that was made: the store before it, its answer, and the store after it. -/
structure Entry where
  request : Request
  before : Store
  answer : Except Failure Result
  after : Store

/-- The requests of a run, the first of them first. -/
def history (s : Store) : List Step → List Entry
  | [] => []
  | .crash :: rest => history s.restart rest
  | .request request :: rest =>
    let made := privateIndex sha256 resourceId s request
    { request, before := s, answer := made.1, after := made.2 } :: history made.2 rest

end

/-! ### What a revision says -/

/-- A write, or a delete. -/
def Operation.changes : Operation → Bool
  | .read => false
  | _ => true

/-- Two reads of one revision read one content. -/
def ReadsAgree (entries : List Entry) : Prop :=
  ∀ first ∈ entries, ∀ second ∈ entries, first.request.operation = .read → second.request.operation = .read →
    ∀ a b, first.answer = .ok a → second.answer = .ok b → a.revision = b.revision →
      a.contentDigest = b.contentDigest ∧ a.payload = b.payload

/-- A write that raises has changed nothing. -/
def FailuresChangeNothing (entries : List Entry) : Prop :=
  ∀ entry ∈ entries, entry.request.operation.changes = true → ∀ failure, entry.answer = .error failure →
    entry.after.file = entry.before.file ∧ entry.after.revision = entry.before.revision

/-- Of two writes that expect one revision, one at most succeeds. -/
def WritesOnce (entries : List Entry) : Prop :=
  entries.Pairwise fun first second => first.request.operation.changes = true →
    second.request.operation.changes = true → first.request.expectedRevision = second.request.expectedRevision →
      ∀ a b, first.answer = .ok a → second.answer ≠ .ok b

/-- A write that is let through is not cut after it has changed something, and the revision it raises is not the
last. -/
def Request.Whole (s : Store) (request : Request) : Prop :=
  request.operation.changes = true → ∀ b, checkRequest s request = .ok b →
    (∀ cut, request.cut = some cut → ∀ e ∈ request.operation.effects.take cut.after, e.apply s = s) ∧
      (request.cut = none → s.revision < maxRevision)

/-- All the requests of a run are whole. -/
def WholeRun (sha256 : List UInt8 → Digest) (resourceId : Id) (s : Store) : List Step → Prop
  | [] => True
  | .crash :: rest => WholeRun sha256 resourceId s.restart rest
  | .request request :: rest =>
    request.Whole s ∧ WholeRun sha256 resourceId (privateIndex sha256 resourceId s request).2 rest

/-! ### Effects -/

variable {s t : Store}

/-- Memory is never behind the state file. -/
theorem apply_saved (e : Effect) (h : s.saved ≤ s.revision) :
    (e.apply s).saved ≤ (e.apply s).revision ∧ s.saved ≤ (e.apply s).saved := by
  cases e with
  | bump => exact ⟨Nat.le_succ_of_le h, Nat.le_refl _⟩
  | save => exact ⟨Nat.le_refl _, h⟩
  | truncate | unlink => exact ⟨h, Nat.le_refl _⟩
  | create | append =>
    cases hfile : s.file
    all_goals
      simp only [Effect.apply, hfile]
      exact ⟨h, Nat.le_refl _⟩

theorem perform_saved (effects : List Effect) (h : s.saved ≤ s.revision) :
    (s.perform effects).saved ≤ (s.perform effects).revision ∧ s.saved ≤ (s.perform effects).saved := by
  induction effects generalizing s with
  | nil => exact ⟨h, Nat.le_refl _⟩
  | cons e rest ih =>
    obtain ⟨hle, hsaved⟩ := apply_saved e h
    obtain ⟨hrest, hmore⟩ := ih hle
    exact ⟨hrest, Nat.le_trans hsaved hmore⟩

theorem perform_idle {effects : List Effect} (h : ∀ e ∈ effects, e.apply s = s) : s.perform effects = s := by
  induction effects with
  | nil => rfl
  | cons e rest ih =>
    obtain ⟨he, hrest⟩ := List.forall_mem_cons.mp h
    rw [Store.perform, List.foldl_cons, he]
    exact ih hrest

theorem perform_append (s : Store) (bytes : List UInt8) (effects : List Effect) :
    ∃ file, s.perform (bytes.map .append ++ effects) = { s with file }.perform effects := by
  induction bytes generalizing s with
  | nil => exact ⟨s.file, rfl⟩
  | cons byte rest ih =>
    obtain ⟨file, h⟩ := ih (Effect.apply s (.append byte))
    refine ⟨file, ?_⟩
    rw [List.map_cons, List.cons_append, Store.perform, List.foldl_cons]
    rw [Store.perform] at h
    rw [h]
    cases hfile : s.file <;> simp only [Effect.apply, hfile]

/-- A write that is not cut raises the revision, and saves it. -/
theorem perform_effects {operation : Operation} (h : operation.changes = true) :
    (s.perform operation.effects).revision = s.revision + 1 ∧
      (s.perform operation.effects).saved = s.revision + 1 := by
  cases operation with
  | read => cases h
  | delete => exact ⟨rfl, rfl⟩
  | replace payload =>
    obtain ⟨file, happend⟩ :=
      perform_append (Effect.apply (Effect.apply s .create) .truncate) (encode payload) [.bump, .save]
    have hperform : s.perform (Operation.replace payload).effects = _ := happend
    rw [hperform]
    cases hfile : s.file <;> simp only [Effect.apply, hfile, Store.perform, List.foldl_cons, List.foldl_nil, and_self]

theorem restart_self (h : s.saved = s.revision) : s.restart = s := by
  cases s
  cases h
  rfl

/-! ### Answers -/

theorem answered_ok {result a : Result} {b : CallBudget} (h : result.answered b = .ok a) : a = result := by
  unfold Result.answered at h
  split at h
  · cases h
  · cases hcharge : b.chargeResponse (total Char.utf8Size result.canonicalJson) with
    | error failure =>
      rw [hcharge] at h
      cases h
    | ok charged =>
      rw [hcharge] at h
      cases h
      rfl

/-- A character of an id is one byte of JSON. -/
theorem id_weight {c : Char} (h : (Memory.isIdStart c || decide (c ∈ ['_', '.', ':', '-'])) = true) : jsonWeight c = 1 := by
  have hrange : 45 ≤ c.toNat ∧ c.toNat ≤ 122 ∧ c.toNat ≠ 92 := by
    simp only [Memory.isIdStart, Bool.or_eq_true, Bool.and_eq_true, decide_eq_true_eq, List.mem_cons, List.not_mem_nil,
      or_false, Char.le_def, UInt32.le_iff_toNat_le] at h
    rcases h with ((h | h) | h) | rfl | rfl | rfl | rfl
    · exact ⟨Nat.le_trans (by decide) h.1, Nat.le_trans h.2 (by decide), (Nat.lt_of_le_of_lt h.2 (by decide)).ne⟩
    · exact ⟨Nat.le_trans (by decide) h.1, Nat.le_trans h.2 (by decide), (Nat.lt_of_lt_of_le (by decide) h.1).ne'⟩
    · exact ⟨Nat.le_trans (by decide) h.1, Nat.le_trans h.2 (by decide), (Nat.lt_of_le_of_lt h.2 (by decide)).ne⟩
    all_goals decide
  have hplain : escape c = [c] := by
    have hne {d : Char} (hd : d.toNat < 45 ∨ d.toNat = 92) : c ≠ d := by
      rintro rfl
      omega
    unfold escape
    rw [if_neg (hne (by decide)), if_neg (hne (by decide)), if_neg (hne (by decide)), if_neg (hne (by decide)),
      if_neg (hne (by decide)), if_neg (hne (by decide)), if_neg (hne (by decide)), if_neg (by omega)]
  have hsize : c.utf8Size = 1 := Char.utf8Size_eq_one_iff.mpr (UInt32.le_iff_toNat_le.mpr (by
    show c.toNat ≤ 127
    omega))
  rw [jsonWeight, hplain, total_cons, total_nil, hsize]

theorem id_bytes (resourceId : Id) : total Char.utf8Size (Interpreter.dumpsStr resourceId.1) ≤ 202 := by
  obtain ⟨id, h⟩ := resourceId
  rw [dumpsStr_bytes]
  unfold Memory.isId at h
  cases hid : id.toList with
  | nil =>
    rw [hid] at h
    cases h
  | cons c rest =>
    rw [hid] at h
    simp only [Bool.and_eq_true, decide_eq_true_eq, List.all_eq_true] at h
    have hrest : total jsonWeight rest = rest.length := by
      have hsum : rest.map jsonWeight = List.replicate rest.length 1 :=
        List.map_eq_replicate_iff.mpr fun d hd => id_weight (h.2 d hd)
      rw [total, hsum, List.sum_replicate, smul_eq_mul, Nat.mul_one]
    rw [total_cons, id_weight (by rw [h.1.1, Bool.true_or]), hrest]
    have hlength := h.1.2
    omega

theorem total_utf8Size_le (cs : List Char) : total Char.utf8Size cs ≤ 4 * cs.length := by
  induction cs with
  | nil => exact Nat.le_refl 0
  | cons c rest ih =>
    have hsize := c.utf8Size_le_four
    rw [total_cons, List.length_cons]
    omega

theorem total_append_le {w : Char → Nat} {a b : List Char} {m n : Nat} (ha : total w a ≤ m) (hb : total w b ≤ n) :
    total w (a ++ b) ≤ m + n := by
  rw [total_append]
  exact Nat.add_le_add ha hb

theorem keys_bytes :
    total Char.utf8Size "\x7b\"content_digest\":".toList ≤ 18 ∧ total Char.utf8Size ",\"payload\":".toList ≤ 11 ∧
      total Char.utf8Size "null".toList ≤ 4 ∧ total Char.utf8Size ",\"resource_id\":".toList ≤ 15 ∧
      total Char.utf8Size ",\"revision\":".toList ≤ 12 ∧ total Char.utf8Size ['}'] ≤ 1 := by
  decide +kernel

/-- The answer to a write fits in every budget. -/
theorem written_ok (resourceId : Id) {revision : Nat} (h : revision ≤ maxRevision) (digest : Option Digest)
    (b : CallBudget) :
    Result.answered { resourceId, revision, contentDigest := digest } b =
      .ok { resourceId, revision, contentDigest := digest } := by
  have hvalid : Result.valid { resourceId, revision, contentDigest := digest } = true := by
    simp [Result.valid, h]
  have hdigest : total Char.utf8Size (digest.elim "null".toList fun d => '"' :: (d.1 ++ ['"'])) ≤ 264 := by
    cases digest with
    | none => decide
    | some d =>
      refine Nat.le_trans (total_utf8Size_le _) ?_
      rw [Option.elim_some, List.length_cons, List.length_append, d.2.1]
      decide
  have hrevision : total Char.utf8Size (Nat.toDigits 10 revision) ≤ 64 := by
    have hlt : revision < 10 ^ 16 := Nat.lt_of_le_of_lt h (by decide)
    have hlength := (Nat.length_toDigits_le_iff (by decide) (by decide)).mpr hlt
    have hbytes := total_utf8Size_le (Nat.toDigits 10 revision)
    omega
  obtain ⟨hcontent, hpayload, hnull, hresource, hkey, hbrace⟩ := keys_bytes
  have hwritten := total_append_le (total_append_le (total_append_le (total_append_le (total_append_le (total_append_le
    (total_append_le (total_append_le hcontent hdigest) hpayload) hnull) hresource) (id_bytes resourceId)) hkey)
    hrevision) hbrace
  have hbytes : total Char.utf8Size (Result.canonicalJson { resourceId, revision, contentDigest := digest }) ≤ 1024 :=
    Nat.le_trans hwritten (by decide)
  have hbudget := Nat.le_trans hbytes b.limits.maxResponseBytes_range.1
  rw [Result.answered, if_neg (by rw [hvalid]; decide), CallBudget.chargeResponse, if_neg (Nat.not_lt.mpr hbudget)]
  rfl

section
variable {sha256 : List UInt8 → Digest} {resourceId : Id} {request : Request} {a : Result}

theorem checkRequest_revision {b : CallBudget} (h : checkRequest s request = .ok b) :
    request.expectedRevision = s.revision := by
  unfold checkRequest at h
  obtain ⟨charged, -, h⟩ := Calls.ok_of_bind h
  split at h
  · cases h
  · split at h
    · cases h
    · rename_i heq
      exact not_not.mp heq

theorem readManagedFile_unique {file : ManagedFile} {m n : Nat} {p q : Option String}
    (hp : readManagedFile file m = .ok p) (hq : readManagedFile file n = .ok q) : p = q := by
  cases file with
  | absent =>
    cases hp
    cases hq
    rfl
  | other => cases hp
  | regular bytes =>
    unfold readManagedFile at hp hq
    dsimp only at hp hq
    split at hp
    · cases hp
    · split at hq
      · cases hq
      · exact Except.ok.inj (hp.symm.trans hq)

/-- An answer is of a request that was let through, and was not cut. -/
theorem privateIndex_ok (h : (privateIndex sha256 resourceId s request).1 = .ok a) :
    ∃ b, checkRequest s request = .ok b ∧ request.cut = none ∧
      resultOf sha256 resourceId s b request.operation = .ok a ∧
      (privateIndex sha256 resourceId s request).2 = s.perform request.operation.effects := by
  unfold privateIndex at h ⊢
  cases hcheck : checkRequest s request with
  | error failure =>
    rw [hcheck] at h
    cases h
  | ok b =>
    rw [hcheck] at h
    cases hcut : request.cut with
    | some cut =>
      rw [hcut] at h
      cases h
    | none =>
      rw [hcut] at h
      obtain ⟨result, hresult, hanswered⟩ := Calls.ok_of_bind h
      rw [answered_ok hanswered]
      exact ⟨b, rfl, rfl, hresult, rfl⟩

/-- A read reports the revision, and what is in the file. -/
theorem read_ok (hread : request.operation = .read) (h : (privateIndex sha256 resourceId s request).1 = .ok a) :
    a.revision = s.revision ∧ ∃ maxBytes payload, readManagedFile s.file maxBytes = .ok payload ∧
      a.payload = payload ∧ a.contentDigest = payload.map fun text => sha256 (encode text) := by
  obtain ⟨b, -, -, hresult, -⟩ := privateIndex_ok h
  rw [hread] at hresult
  obtain ⟨payload, hpayload, hresult⟩ := Calls.ok_of_bind hresult
  cases hresult
  exact ⟨rfl, _, payload, hpayload, rfl, rfl⟩

/-- A write that succeeds found the revision it expects, and has raised it. -/
theorem write_ok (hchanges : request.operation.changes = true)
    (h : (privateIndex sha256 resourceId s request).1 = .ok a) :
    request.expectedRevision = s.revision ∧
      (privateIndex sha256 resourceId s request).2.saved = s.revision + 1 := by
  obtain ⟨b, hcheck, -, -, hafter⟩ := privateIndex_ok h
  rw [hafter]
  exact ⟨checkRequest_revision hcheck, (perform_effects hchanges).2⟩

theorem privateIndex_saved (h : s.saved ≤ s.revision) :
    (privateIndex sha256 resourceId s request).2.saved ≤ (privateIndex sha256 resourceId s request).2.revision ∧
      s.saved ≤ (privateIndex sha256 resourceId s request).2.saved := by
  unfold privateIndex
  split
  · exact ⟨h, Nat.le_refl _⟩
  · split
    · rename_i cut _
      have hleft := perform_saved (request.operation.effects.take cut.after) h
      dsimp only
      split
      · exact ⟨Nat.le_refl _, hleft.2⟩
      · exact hleft
    · exact perform_saved _ h
/-- A write that is let through and is not cut succeeds. -/
theorem write_answered {b : CallBudget} (hchanges : request.operation.changes = true)
    (hrevision : s.revision < maxRevision) :
    ∃ a, (resultOf sha256 resourceId s b request.operation).bind (·.answered b) = .ok a := by
  cases hoperation : request.operation with
  | read =>
    rw [hoperation] at hchanges
    cases hchanges
  | delete => exact ⟨_, written_ok resourceId hrevision none b⟩
  | replace payload => exact ⟨_, written_ok resourceId hrevision (some (sha256 (encode payload))) b⟩

/-- What a whole request does to the store. -/
theorem whole_step (hsaved : s.saved = s.revision) (hwhole : request.Whole s) :
    (privateIndex sha256 resourceId s request).2 = s ∨
      (privateIndex sha256 resourceId s request).2.saved = s.revision + 1 ∧
        (privateIndex sha256 resourceId s request).2.revision = s.revision + 1 ∧
        ∃ a, (privateIndex sha256 resourceId s request).1 = .ok a := by
  unfold privateIndex
  cases hcheck : checkRequest s request with
  | error failure => exact .inl rfl
  | ok b =>
    cases hchanges : request.operation.changes with
    | false =>
      have hnone : request.operation.effects = [] := by
        cases hoperation : request.operation with
        | read => rfl
        | delete | replace =>
          rw [hoperation] at hchanges
          cases hchanges
      rw [hnone]
      cases request.cut with
      | none => exact .inl rfl
      | some cut =>
        dsimp only
        rw [List.take_nil]
        split
        · exact .inl (restart_self hsaved)
        · exact .inl rfl
    | true =>
      obtain ⟨hidle, hrevision⟩ := hwhole hchanges b hcheck
      cases hcut : request.cut with
      | none =>
        obtain ⟨hafter, hafterSaved⟩ := perform_effects (s := s) hchanges
        exact .inr ⟨hafterSaved, hafter, write_answered hchanges (hrevision hcut)⟩
      | some cut =>
        dsimp only
        rw [perform_idle (hidle cut hcut)]
        split
        · exact .inl (restart_self hsaved)
        · exact .inl rfl

/-! ### Runs -/

/-- Later, and with another content only if the revision is another. -/
structure Ahead (s t : Store) : Prop where
  le : s.revision ≤ t.revision
  same : s.revision = t.revision → s = t

theorem Ahead.refl (s : Store) : Ahead s s := ⟨Nat.le_refl _, fun _ => rfl⟩

theorem Ahead.trans {u : Store} (h : Ahead s t) (h' : Ahead t u) : Ahead s u := by
  refine ⟨Nat.le_trans h.le h'.le, fun heq => ?_⟩
  have hst : s.revision = t.revision := Nat.le_antisymm h.le (heq ▸ h'.le)
  rw [h.same hst]
  exact h'.same (hst.symm.trans heq)

theorem whole_ahead (hsaved : s.saved = s.revision) (hwhole : request.Whole s) :
    Ahead s (privateIndex sha256 resourceId s request).2 ∧
      (privateIndex sha256 resourceId s request).2.saved = (privateIndex sha256 resourceId s request).2.revision := by
  cases @whole_step s sha256 resourceId request hsaved hwhole with
  | inl hsame =>
    rw [hsame]
    exact ⟨.refl s, hsaved⟩
  | inr hraised =>
    obtain ⟨hafterSaved, hafter, -⟩ := hraised
    refine ⟨⟨by omega, fun heq => ?_⟩, hafterSaved.trans hafter.symm⟩
    omega

variable {steps : List Step} {entry : Entry}

/-- An entry is of a request in the store before it. -/
theorem history_made (h : entry ∈ history sha256 resourceId s steps) :
    entry.answer = (privateIndex sha256 resourceId entry.before entry.request).1 ∧
      entry.after = (privateIndex sha256 resourceId entry.before entry.request).2 := by
  induction steps generalizing s with
  | nil => cases h
  | cons step rest ih =>
    cases step with
    | crash => exact ih h
    | request request =>
      cases List.mem_cons.mp h with
      | inl heq =>
        rw [heq]
        exact ⟨rfl, rfl⟩
      | inr hrest => exact ih hrest

theorem history_ahead (hsaved : s.saved = s.revision) (hwhole : WholeRun sha256 resourceId s steps)
    (h : entry ∈ history sha256 resourceId s steps) :
    Ahead s entry.before ∧ entry.before.saved = entry.before.revision ∧ entry.request.Whole entry.before := by
  induction steps generalizing s with
  | nil => cases h
  | cons step rest ih =>
    cases step with
    | crash =>
      have hrestart := restart_self hsaved
      rw [history, hrestart] at h
      rw [WholeRun, hrestart] at hwhole
      exact ih hsaved hwhole h
    | request request =>
      cases List.mem_cons.mp h with
      | inl heq =>
        rw [heq]
        exact ⟨.refl s, hsaved, hwhole.1⟩
      | inr hrest =>
        obtain ⟨hahead, hafter⟩ := @whole_ahead s sha256 resourceId request hsaved hwhole.1
        obtain ⟨hmore, hbefore⟩ := ih hafter hwhole.2 hrest
        exact ⟨hahead.trans hmore, hbefore⟩

/-- In a run of whole requests, a revision is one store. -/
theorem history_unique (hsaved : s.saved = s.revision) (hwhole : WholeRun sha256 resourceId s steps)
    {first second : Entry} (hfirst : first ∈ history sha256 resourceId s steps)
    (hsecond : second ∈ history sha256 resourceId s steps)
    (heq : first.before.revision = second.before.revision) : first.before = second.before := by
  induction steps generalizing s with
  | nil => cases hfirst
  | cons step rest ih =>
    cases step with
    | crash =>
      have hrestart := restart_self hsaved
      rw [history, hrestart] at hfirst hsecond
      rw [WholeRun, hrestart] at hwhole
      exact ih hsaved hwhole hfirst hsecond
    | request request =>
      have hfirstAhead := (history_ahead hsaved hwhole hfirst).1
      have hsecondAhead := (history_ahead hsaved hwhole hsecond).1
      cases List.mem_cons.mp hfirst with
      | inl hhead =>
        rw [hhead] at heq ⊢
        exact hsecondAhead.same heq
      | inr hfirstRest => cases List.mem_cons.mp hsecond with
        | inl hhead =>
          rw [hhead] at heq ⊢
          exact (hfirstAhead.same heq.symm).symm
        | inr hsecondRest =>
          have hafter := (@whole_ahead s sha256 resourceId request hsaved hwhole.1).2
          exact ih hafter hwhole.2 hfirstRest hsecondRest

theorem history_saved (h : s.saved ≤ s.revision) (hentry : entry ∈ history sha256 resourceId s steps) :
    s.saved ≤ entry.before.revision := by
  induction steps generalizing s with
  | nil => cases hentry
  | cons step rest ih =>
    cases step with
    | crash => exact ih (s := s.restart) (Nat.le_refl _) hentry
    | request request =>
      cases List.mem_cons.mp hentry with
      | inl heq =>
        rw [heq]
        exact h
      | inr hrest =>
        obtain ⟨hafter, hmore⟩ := @privateIndex_saved s sha256 resourceId request h
        exact Nat.le_trans hmore (ih hafter hrest)

/-- Whatever is cut, one write at most succeeds for a revision. -/
theorem writesOnce (h : s.saved ≤ s.revision) : WritesOnce (history sha256 resourceId s steps) := by
  induction steps generalizing s with
  | nil => exact .nil
  | cons step rest ih =>
    cases step with
    | crash => exact ih (s := s.restart) (Nat.le_refl _)
    | request request =>
      have hafter := @privateIndex_saved s sha256 resourceId request h
      refine .cons (fun second hsecond hfirstChanges hsecondChanges heq a b hfirst hok => ?_) (ih hafter.1)
      obtain ⟨hexpected, hraised⟩ := @write_ok s sha256 resourceId request a hfirstChanges hfirst
      have hlater := history_saved hafter.1 hsecond
      rw [(history_made hsecond).1] at hok
      have hsecondExpected := (write_ok hsecondChanges hok).1
      dsimp only at heq
      omega

/-- Whatever is cut, one write at most succeeds for a revision. As long as no write is cut between its first change and
its last, a revision is one content, and a write that raises has changed nothing. -/
theorem revision_identifies (file : ManagedFile) (revision : Nat) (steps : List Step) :
    WritesOnce (history sha256 resourceId (.loaded file revision) steps) ∧
      (WholeRun sha256 resourceId (.loaded file revision) steps →
        ReadsAgree (history sha256 resourceId (.loaded file revision) steps) ∧
          FailuresChangeNothing (history sha256 resourceId (.loaded file revision) steps)) := by
  have hsaved : (Store.loaded file revision).saved = (Store.loaded file revision).revision := rfl
  refine ⟨writesOnce (Nat.le_refl _), fun hwhole =>
    ⟨fun first hfirst second hsecond hfirstRead hsecondRead a b ha hb heq => ?_,
      fun entry hentry hchanges failure herror => ?_⟩⟩
  · rw [(history_made hfirst).1] at ha
    rw [(history_made hsecond).1] at hb
    obtain ⟨hfirstRevision, _, p, hp, hpayload, hdigest⟩ := read_ok hfirstRead ha
    obtain ⟨hsecondRevision, _, q, hq, hpayload', hdigest'⟩ := read_ok hsecondRead hb
    have hstore := history_unique hsaved hwhole hfirst hsecond (hfirstRevision.symm.trans (heq.trans hsecondRevision))
    rw [hstore] at hp
    have hsame := readManagedFile_unique hp hq
    rw [hdigest, hdigest', hpayload, hpayload', hsame]
    exact ⟨rfl, rfl⟩
  · obtain ⟨-, hbefore, hrequest⟩ := history_ahead hsaved hwhole hentry
    obtain ⟨hanswer, hafter⟩ := history_made hentry
    cases @whole_step _ sha256 resourceId _ hbefore hrequest with
    | inl hsame =>
      rw [hafter, hsame]
      exact ⟨rfl, rfl⟩
    | inr hraised =>
      obtain ⟨-, -, a, hok⟩ := hraised
      rw [hanswer, hok] at herror
      cases herror

end

/-! ### A write that is cut -/

/-- The digests of the texts below. -/
def digestOf (text : List UInt8) : Digest :=
  if text = encode "a" then
    ⟨"ca978112ca1bbdcafac231b39a23dc4da786eff8147c4e72b9807785afee48bb".toList, by decide +kernel⟩
  else if text = encode "b" then
    ⟨"3e23e8160039594a33894f6564e1b1348bbd7a0088d42c4acb73eeaed59c009d".toList, by decide +kernel⟩
  else ⟨"e3b0c44298fc1c149afbf4c8996fb92427ae41e4649b934ca495991b7852b855".toList, by decide +kernel⟩

def index : Id := ⟨"index", by decide⟩

def ask (operation : Operation) (expectedRevision : Nat) (cut : Option Cut) : Step :=
  .request { operation, expectedRevision, size := 600, cut }

/-- Two writes of one revision, one that is cut before its first effect, the end of the process, and a delete. -/
def rewritten : List Step :=
  [ask .read 0 none, ask (.replace "a") 0 none, ask (.replace "b") 0 none, ask .read 1 none,
    ask (.replace "b") 1 (some ⟨0, true⟩), ask (.replace "b") 1 none, .crash, ask .read 2 none, ask .delete 2 none,
    ask .read 3 none]

theorem whole_read {request : Request} (h : request.operation = .read) : request.Whole s := by
  intro hchanges
  rw [h] at hchanges
  cases hchanges

theorem whole_uncut {request : Request} (hcut : request.cut = none) (h : s.revision < maxRevision) :
    request.Whole s := by
  refine fun _ _ _ => ⟨fun cut hsome => ?_, fun _ => h⟩
  rw [hcut] at hsome
  cases hsome

theorem whole_unstarted {request : Request} {crash : Bool} (hcut : request.cut = some ⟨0, crash⟩) :
    request.Whole s := by
  refine fun _ _ _ => ⟨fun cut hsome e he => ?_, fun hnone => ?_⟩
  · cases hcut.symm.trans hsome
    cases he
  · rw [hcut] at hnone
    cases hnone

theorem revision_identifies_rewritten :
    ReadsAgree (history digestOf index (.loaded .absent 0) rewritten) ∧
      FailuresChangeNothing (history digestOf index (.loaded .absent 0) rewritten) :=
  (revision_identifies .absent 0 rewritten).2 ⟨whole_read rfl, whole_uncut rfl (by decide +kernel),
    whole_uncut rfl (by decide +kernel), whole_read rfl, whole_unstarted rfl, whole_uncut rfl (by decide +kernel),
    whole_read rfl, whole_uncut rfl (by decide +kernel), whole_read rfl, trivial⟩

end PrivateIndex

end Operant.Plugins
