import Operant.Mcp.Sse

/-! Requests over a stream, and replies that come late.

Requests are made one after the other, and the server replies to each once, in order. A reply
that comes after its request has timed out is met by another request: `StdioTransport` leaves it in
the pipe, where the next request reads it, and the reader of `LegacySseTransport` stops at it.

`undisturbed_iff`: every request whose reply comes in time returns it exactly if no reply comes in
time after one that came late. No request ever returns the reply to another. -/
namespace Operant.Mcp

/-- A reply without its id. -/
structure Answer (α : Type) where
  jsonrpc : String := "2.0"
  result : Option α := none
  /-- The code of the error, as text. -/
  error : Option String := none

structure Message (α : Type) extends Answer α where
  id : Option Nat

/-- `_response_result`. -/
def responseResult (response : Message α) (requestId : Nat) : Except McpError α :=
  if response.jsonrpc ≠ "2.0" ∨ response.id ≠ some requestId then
    throw ⟨"mcp.jsonrpc_invalid", "MCP JSON-RPC envelope is invalid"⟩
  else match response.result, response.error with
    | some result, none => return result
    | none, some code =>
      throw ⟨"mcp.remote_error", .ofList (("MCP server returned error " ++ code).toList.take 200)⟩
    | _, _ => throw ⟨"mcp.jsonrpc_invalid", "MCP response must contain result or error"⟩

/-- What differs between the transports: where messages wait, what a request finds there, what
becomes of a message that comes, and how a timeout is reported. A request that ends has an
outcome. -/
structure Transport (α : Type) where
  Inbox : Type
  start : Inbox
  request : Nat → Inbox → Inbox × Option (Except McpError α)
  /-- A message, with the request that is waiting. -/
  receive : Option Nat → Message α → Inbox → Inbox × Option (Except McpError α)
  timedOut : McpError

/-! ### `StdioTransport` -/

namespace Stdio

/-- `_read_response`: the lines left, and the outcome unless there is nothing more to read. -/
def readResponse (requestId : Nat) : List (Message α) → List (Message α) × Option (Except McpError α)
  | [] => ([], none)
  | message :: lines => match message.id with
    | none => readResponse requestId lines
    | some id =>
      if id ≠ requestId then
        (lines, some (throw ⟨"mcp.response_id_mismatch", "MCP response ID does not match"⟩))
      else (lines, some (responseResult message requestId))

/-- The lines of the pipe stay there until a request reads them. -/
def transport (α : Type) : Transport α where
  Inbox := List (Message α)
  start := []
  request := readResponse
  receive
    | none, message, lines => (lines ++ [message], none)
    | some requestId, message, lines => readResponse requestId (lines ++ [message])
  timedOut := ⟨"mcp.request_timeout", "MCP request timed out"⟩

end Stdio

/-! ### `LegacySseTransport` -/

namespace LegacySse

/-- `_receive_events` for one message. A reply that nothing is pending for ends the reader, which
passes the error to the request that is pending. -/
def receiveEvent (pending : Option Nat) (message : Message α) (reading : Bool) :
    Bool × Option (Except McpError α) :=
  if reading then match message.id with
    | none => (true, none)
    | some responseId =>
      if pending = some responseId then (true, some (responseResult message responseId))
      else (false, pending.map fun _ =>
        throw ⟨"mcp.response_id_mismatch", "MCP response ID has no pending request"⟩)
  else (false, none)

/-- All that is kept is whether the reader still reads. -/
def transport (α : Type) : Transport α where
  Inbox := Bool
  start := true
  request _ reading := (reading, none)
  receive := receiveEvent
  timedOut := ⟨"mcp.remote_request_failed", "remote MCP request failed"⟩

end LegacySse

/-! ### A client and its server -/

/-- A transport in use. Requests hold its lock, so those that have ended are the first ones. -/
structure Client (T : Transport α) where
  requestId : Nat := 0
  outcomes : List (Except McpError α) := []
  inbox : T.Inbox

namespace Client
variable {T : Transport α} (c : Client T)

/-- The request that holds the lock. -/
def pending : Option Nat := if c.outcomes.length < c.requestId then some c.requestId else none

def settle (r : T.Inbox × Option (Except McpError α)) : Client T :=
  { c with inbox := r.1, outcomes := c.outcomes ++ r.2.toList }

def request : Client T :=
  let requestId := c.requestId + 1
  settle { c with requestId } (T.request requestId c.inbox)

def receive (message : Message α) : Client T := c.settle (T.receive c.pending message c.inbox)

/-- The timeout of a request passes, which ends it if it has not ended. -/
def timeout (requestId : Nat) : Client T :=
  if c.pending = some requestId then { c with outcomes := c.outcomes ++ [throw T.timedOut] } else c

end Client

/-- A reply that has come, and whether it came before the timeout of its request. -/
structure Reply (α : Type) where
  message : Message α
  inTime : Bool

structure World (T : Transport α) where
  client : Client T := { inbox := T.start }
  replies : List (Reply α) := []
  expired : List Nat := []

inductive Event (α : Type) where
  | request
  /-- The reply to the first request that has none. -/
  | reply (answer : Answer α)
  /-- A message without an id. -/
  | notification (answer : Answer α)
  | timeout (requestId : Nat)

namespace World
variable {T : Transport α}

def step (w : World T) : Event α → Option (World T)
  | .request => if w.client.pending = none then some { w with client := w.client.request } else none
  | .reply answer =>
    let id := w.replies.length + 1
    if id ≤ w.client.requestId then
      some { w with
        client := w.client.receive { answer with id := some id }
        replies := w.replies ++ [⟨{ answer with id := some id }, id ∉ w.expired⟩] }
    else none
  | .notification answer => some { w with client := w.client.receive { answer with id := none } }
  | .timeout requestId =>
    if 1 ≤ requestId ∧ requestId ≤ w.client.requestId then
      some { w with client := w.client.timeout requestId, expired := requestId :: w.expired }
    else none

def run : World T → List (Event α) → Option (World T)
  | w, [] => some w
  | w, event :: events => (w.step event).bind fun w => w.run events

/-- Every request whose reply came in time has returned it. -/
def Undisturbed (w : World T) : Prop :=
  ∀ k reply, w.replies[k]? = some reply → reply.inTime = true →
    w.client.outcomes[k]? = some (responseResult reply.message (k + 1))

/-- What a request has returned is the reply to it. -/
def Own (w : World T) : Prop :=
  ∀ k result, w.client.outcomes[k]? = some (.ok result) →
    ∃ reply, w.replies[k]? = some reply ∧ responseResult reply.message (k + 1) = .ok result

/-- A reply came in time after one that came late. -/
def LateBeforeInTime (w : World T) : Prop :=
  ∃ (j k : Nat) (late reply : Reply α), j < k ∧ w.replies[j]? = some late ∧ late.inTime = false ∧
    w.replies[k]? = some reply ∧ reply.inTime = true

end World

/-! ### In step, and behind -/

/-- An outcome that is no reply. -/
def Lost (outcome : Except McpError α) : Prop := ∀ message id, outcome ≠ responseResult message id

theorem responseResult_error {message : Message α} {id : Nat} {e : McpError}
    (h : responseResult message id = .error e) : e.code = "mcp.jsonrpc_invalid" ∨ e.code = "mcp.remote_error" := by
  unfold responseResult at h
  split at h
  · exact .inl (Except.error.inj h ▸ rfl)
  · split at h
    · exact nomatch h
    · exact .inr (Except.error.inj h ▸ rfl)
    · exact .inl (Except.error.inj h ▸ rfl)

theorem lost_of_code {e : McpError} (hinvalid : e.code ≠ "mcp.jsonrpc_invalid") (hremote : e.code ≠ "mcp.remote_error") :
    Lost (throw e : Except McpError α) := by
  intro message id h
  rcases responseResult_error h.symm with hcode | hcode
  · exact hinvalid hcode
  · exact hremote hcode

/-- The request that waits when `ended` have ended. -/
def pendingAfter (ended : Nat) (waiting : Bool) : Option Nat := if waiting then some (ended + 1) else none

/-- Where a transport is after a request or a message, if it is `Behind`: nothing has been returned
to the request that waits, if it has ended at all. -/
def Transport.Falls (T : Transport α) (Behind : Nat → Bool → T.Inbox → Prop) (ended : Nat) (waiting : Bool) :
    T.Inbox × Option (Except McpError α) → Prop
  | (inbox, none) => Behind ended waiting inbox
  | (inbox, some outcome) => waiting = true ∧ Lost outcome ∧ Behind (ended + 1) false inbox

/-- A transport is in step while no request has timed out, and behind from then on. -/
structure Transport.Lawful (T : Transport α) where
  InStep : T.Inbox → Prop
  start : InStep T.start
  request : ∀ {inbox} id, InStep inbox → ∃ inbox', T.request id inbox = (inbox', none) ∧ InStep inbox'
  reply : ∀ {inbox id} {message : Message α}, InStep inbox → message.id = some id →
    ∃ inbox', T.receive (some id) message inbox = (inbox', some (responseResult message id)) ∧ InStep inbox'
  notification : ∀ {inbox} {message : Message α} pending, InStep inbox → message.id = none →
    ∃ inbox', T.receive pending message inbox = (inbox', none) ∧ InStep inbox'
  lost : Lost (throw T.timedOut : Except McpError α)
  /-- `replies` have come and `ended` requests have ended, one of them at its timeout. -/
  Behind : (replies ended : Nat) → (waiting : Bool) → T.Inbox → Prop
  falls : ∀ {inbox} ended, InStep inbox → Behind ended (ended + 1) false inbox
  behind_timeout : ∀ {replies ended inbox}, Behind replies ended true inbox → Behind replies (ended + 1) false inbox
  behind_request : ∀ {replies ended inbox}, Behind replies ended false inbox →
    T.Falls (Behind replies) ended true (T.request (ended + 1) inbox)
  behind_reply : ∀ {replies ended waiting inbox} {message : Message α}, Behind replies ended waiting inbox →
    message.id = some (replies + 1) →
    T.Falls (Behind (replies + 1)) ended waiting (T.receive (pendingAfter ended waiting) message inbox)
  behind_notification : ∀ {replies ended waiting inbox} {message : Message α}, Behind replies ended waiting inbox →
    message.id = none →
    T.Falls (Behind replies) ended waiting (T.receive (pendingAfter ended waiting) message inbox)

namespace Stdio

/-- The ids of the lines that are in the pipe. -/
def ids (lines : List (Message α)) : List Nat := lines.filterMap (·.id)

@[simp] theorem ids_append (a b : List (Message α)) : ids (a ++ b) = ids a ++ ids b := List.filterMap_append

theorem readResponse_of_ids_nil {lines : List (Message α)} (requestId : Nat) (h : ids lines = []) :
    readResponse requestId lines = ([], none) := by
  induction lines with
  | nil => rfl
  | cons message lines ih =>
    have hnone : message.id = none := List.filterMap_eq_nil_iff.mp h message List.mem_cons_self
    rw [readResponse, hnone]
    exact ih (List.filterMap_eq_nil_iff.mpr fun m hm => List.filterMap_eq_nil_iff.mp h m (List.mem_cons_of_mem _ hm))

/-- A request reads up to the first line that has an id. -/
theorem readResponse_of_ids_cons {lines : List (Message α)} {id : Nat} {rest : List Nat} (requestId : Nat)
    (h : ids lines = id :: rest) (hne : id ≠ requestId) :
    ∃ left outcome, readResponse requestId lines = (left, some outcome) ∧ ids left = rest ∧ Lost outcome := by
  induction lines with
  | nil => exact nomatch h
  | cons message lines ih =>
    cases hid : message.id with
    | none =>
      rw [ids, List.filterMap_cons_none hid] at h
      rw [readResponse, hid]
      exact ih h
    | some id' =>
      rw [ids, List.filterMap_cons_some hid] at h
      obtain ⟨rfl, hrest⟩ := List.cons.inj h
      rw [readResponse, hid]
      dsimp only
      rw [if_pos hne]
      exact ⟨_, _, rfl, hrest, lost_of_code (by decide) (by decide)⟩

theorem readResponse_append {lines : List (Message α)} {message : Message α} (requestId : Nat) (h : ids lines = []) :
    readResponse requestId (lines ++ [message]) = readResponse requestId [message] := by
  induction lines with
  | nil => rfl
  | cons first lines ih =>
    have hnone : first.id = none := List.filterMap_eq_nil_iff.mp h first List.mem_cons_self
    rw [List.cons_append, readResponse, hnone]
    exact ih (List.filterMap_eq_nil_iff.mpr fun m hm => List.filterMap_eq_nil_iff.mp h m (List.mem_cons_of_mem _ hm))

section
variable {lines : List (Message α)} {message : Message α} {id : Nat}

theorem reply_in_step (h : ids lines = []) (hid : message.id = some id) :
    ∃ left, (transport α).receive (some id) message lines = (left, some (responseResult message id)) ∧
      ids left = [] := by
  refine ⟨[], ?_, rfl⟩
  change readResponse id (lines ++ [message]) = _
  rw [readResponse_append id h, readResponse, hid]
  exact if_neg fun hne => hne rfl

theorem notification_in_step (pending : Option Nat) (h : ids lines = []) (hid : message.id = none) :
    ∃ left, (transport α).receive pending message lines = (left, none) ∧ ids left = [] := by
  have hnone : ids [message] = [] := List.filterMap_cons_none hid
  have hnil : ids (lines ++ [message]) = [] := by rw [ids_append, h, hnone, List.append_nil]
  cases pending with
  | none => exact ⟨_, rfl, hnil⟩
  | some id => exact ⟨[], readResponse_of_ids_nil id hnil, rfl⟩

end

/-- The lines of the pipe are the replies that have not been read. Each request reads one at most,
and the one that timed out read none, so the next one is for an earlier request. -/
def Behind (replies ended : Nat) (waiting : Bool) (lines : List (Message α)) : Prop :=
  ∃ read < ended, read ≤ replies ∧ ids lines = List.range' (read + 1) (replies - read) ∧
    (waiting = true → read = replies)

section
variable {lines : List (Message α)} {message : Message α} {replies ended : Nat} {waiting : Bool}

theorem behind_request (h : Behind replies ended false lines) :
    (transport α).Falls (Behind replies) ended true (readResponse (ended + 1) lines) := by
  obtain ⟨read, hread, hle, hids, -⟩ := h
  cases hleft : replies - read with
  | zero =>
    have hnil : ids lines = [] := by rw [hids, hleft, List.range'_zero]
    have hall : read = replies := by omega
    rw [readResponse_of_ids_nil _ hnil]
    exact ⟨read, hread, hle, by rw [hleft]; rfl, fun _ => hall⟩
  | succ left =>
    rw [hleft, List.range'_succ] at hids
    obtain ⟨rest, outcome, hresponse, hrest, hlost⟩ :=
      readResponse_of_ids_cons (ended + 1) hids (by omega)
    rw [hresponse]
    refine ⟨rfl, hlost, read + 1, by omega, by omega, ?_, fun h => nomatch h⟩
    rw [hrest, show replies - (read + 1) = left by omega]

theorem behind_reply (h : Behind replies ended waiting lines) (hid : message.id = some (replies + 1)) :
    (transport α).Falls (Behind (replies + 1)) ended waiting
      ((transport α).receive (pendingAfter ended waiting) message lines) := by
  obtain ⟨read, hread, hle, hids, hwaits⟩ := h
  have hone : ids [message] = [replies + 1] := List.filterMap_cons_some hid
  cases waiting with
  | false =>
    refine ⟨read, hread, by omega, ?_, fun h => nomatch h⟩
    rw [ids_append, hids, hone, show replies + 1 - read = replies - read + 1 by omega, List.range'_1_concat,
      show read + 1 + (replies - read) = replies + 1 by omega]
  | true =>
    have hall := hwaits rfl
    have hnil : ids lines = [] := by rw [hids, hall, Nat.sub_self, List.range'_zero]
    obtain ⟨rest, outcome, hresponse, hrest, hlost⟩ :=
      readResponse_of_ids_cons (ended + 1) hone (by omega)
    have hreceive : (transport α).receive (pendingAfter ended true) message lines = (rest, some outcome) := by
      rw [← hresponse]
      exact readResponse_append (ended + 1) hnil
    rw [hreceive]
    refine ⟨rfl, hlost, replies + 1, by omega, Nat.le_refl _, ?_, fun h => nomatch h⟩
    rw [hrest, Nat.sub_self, List.range'_zero]

theorem behind_notification (h : Behind replies ended waiting lines) (hid : message.id = none) :
    (transport α).Falls (Behind replies) ended waiting
      ((transport α).receive (pendingAfter ended waiting) message lines) := by
  obtain ⟨read, hread, hle, hids, hwaits⟩ := h
  have hnone : ids [message] = [] := List.filterMap_cons_none hid
  have hsame : ids (lines ++ [message]) = ids lines := by rw [ids_append, hnone, List.append_nil]
  cases waiting with
  | false => exact ⟨read, hread, hle, hsame.trans hids, fun h => nomatch h⟩
  | true =>
    have hnil : ids lines = [] := by rw [hids, hwaits rfl, Nat.sub_self, List.range'_zero]
    have hreceive : (transport α).receive (pendingAfter ended true) message lines = ([], none) :=
      readResponse_of_ids_nil (ended + 1) (hsame.trans hnil)
    rw [hreceive]
    exact ⟨read, hread, hle, (hnil ▸ hids : ([] : List Nat) = _), hwaits⟩

end

def lawful (α : Type) : (transport α).Lawful where
  InStep lines := ids lines = []
  start := rfl
  request id h := ⟨[], readResponse_of_ids_nil id h, rfl⟩
  reply := reply_in_step
  notification := notification_in_step
  lost := show Lost (throw ⟨"mcp.request_timeout", "MCP request timed out"⟩) from
    lost_of_code (by decide) (by decide)
  Behind := Behind
  falls ended h := ⟨ended, Nat.lt_succ_self _, Nat.le_refl _, by rw [h, Nat.sub_self, List.range'_zero],
    fun h => nomatch h⟩
  behind_timeout h := by
    obtain ⟨read, hread, hle, hids, -⟩ := h
    exact ⟨read, Nat.lt_succ_of_lt hread, hle, hids, fun h => nomatch h⟩
  behind_request := behind_request
  behind_reply := behind_reply
  behind_notification := behind_notification

end Stdio

namespace LegacySse

/-- While the reader still reads, the reply to the request that timed out has not come. -/
def Behind (replies ended : Nat) (_waiting : Bool) (reading : Bool) : Prop := reading = true → replies < ended

section
variable {reading waiting : Bool} {message : Message α} {id replies ended : Nat}

theorem reply_in_step (h : reading = true) (hid : message.id = some id) :
    receiveEvent (some id) message reading = (true, some (responseResult message id)) := by
  unfold receiveEvent
  rw [if_pos h, hid]
  exact if_pos rfl

theorem notification_in_step (pending : Option Nat) (h : reading = true) (hid : message.id = none) :
    receiveEvent pending message reading = (true, none) := by
  unfold receiveEvent
  rw [if_pos h, hid]

theorem pending_ne (h : replies < ended) : pendingAfter ended waiting ≠ some (replies + 1) := by
  unfold pendingAfter
  split
  · intro hsame
    have heq := Option.some.inj hsame
    omega
  · exact nofun

theorem behind_reply (h : Behind replies ended waiting reading) (hid : message.id = some (replies + 1)) :
    (transport α).Falls (Behind (replies + 1)) ended waiting
      (receiveEvent (pendingAfter ended waiting) message reading) := by
  unfold receiveEvent
  cases reading with
  | false => exact fun hreading => nomatch hreading
  | true =>
    rw [if_pos rfl, hid]
    dsimp only
    rw [if_neg (pending_ne (h rfl))]
    cases waiting with
    | false => exact fun hreading => nomatch hreading
    | true => exact ⟨rfl, lost_of_code (by decide) (by decide), fun hreading => nomatch hreading⟩

theorem behind_notification (h : Behind replies ended waiting reading) (hid : message.id = none) :
    (transport α).Falls (Behind replies) ended waiting
      (receiveEvent (pendingAfter ended waiting) message reading) := by
  cases reading with
  | false => exact fun hreading => nomatch hreading
  | true =>
    rw [notification_in_step _ rfl hid]
    exact h

end

def lawful (α : Type) : (transport α).Lawful where
  InStep reading := reading = true
  start := rfl
  request _ h := ⟨_, rfl, h⟩
  reply h hid := ⟨true, reply_in_step h hid, rfl⟩
  notification pending h hid := ⟨true, notification_in_step pending h hid, rfl⟩
  lost := show Lost (throw ⟨"mcp.remote_request_failed", "remote MCP request failed"⟩) from
    lost_of_code (by decide) (by decide)
  Behind := Behind
  falls _ _ := fun _ => Nat.lt_succ_self _
  behind_timeout h := fun hreading => Nat.lt_succ_of_lt (h hreading)
  behind_request h := h
  behind_reply := behind_reply
  behind_notification := behind_notification

end LegacySse

/-! ### Runs -/

theorem Lost.ne_ok {outcome : Except McpError α} (h : Lost outcome) (result : α) : outcome ≠ .ok result :=
  fun hok => h { result := some result, id := some 0 } 0 (hok.trans rfl)

namespace Client
variable {T : Transport α} {c : Client T} {waiting : Bool}

/-- The requests that have ended are all but the one that waits. -/
def Waits (c : Client T) (waiting : Bool) : Prop := c.requestId = c.outcomes.length + waiting.toNat

theorem Waits.pending (h : c.Waits waiting) : c.pending = pendingAfter c.outcomes.length waiting := by
  unfold Waits at h
  unfold Client.pending pendingAfter
  cases waiting with
  | false =>
    rw [Bool.toNat_false, Nat.add_zero] at h
    rw [if_neg (by omega), if_neg (by decide)]
  | true =>
    rw [Bool.toNat_true] at h
    rw [if_pos (by omega), if_pos rfl, h]

theorem Waits.of_pending_none (h : c.Waits waiting) (hnone : c.pending = none) : waiting = false := by
  rw [h.pending] at hnone
  cases waiting with
  | false => rfl
  | true => exact nomatch hnone

theorem Waits.of_pending {id : Nat} (h : c.Waits waiting) (hpending : c.pending = some id) :
    waiting = true ∧ id = c.outcomes.length + 1 := by
  rw [h.pending] at hpending
  cases waiting with
  | false => exact nomatch hpending
  | true => exact ⟨rfl, (Option.some.inj hpending).symm⟩

/-- A client that is behind stays so, whatever it is told. -/
theorem settle_behind {Behind : Nat → Bool → T.Inbox → Prop} {r : T.Inbox × Option (Except McpError α)}
    (hwaits : c.Waits waiting) (h : T.Falls Behind c.outcomes.length waiting r) :
    ∃ waiting' lost, (c.settle r).Waits waiting' ∧ Behind (c.settle r).outcomes.length waiting' (c.settle r).inbox ∧
      (c.settle r).outcomes = c.outcomes ++ lost ∧ ∀ outcome ∈ lost, Lost outcome := by
  obtain ⟨inbox, ended⟩ := r
  have hlength (lost : List (Except McpError α)) : (c.outcomes ++ lost).length = c.outcomes.length + lost.length :=
    List.length_append
  cases ended with
  | none =>
    refine ⟨waiting, [], ?_, ?_, rfl, fun _ h => absurd h List.not_mem_nil⟩
    · simpa [Waits, settle] using hwaits
    · simp only [settle, Option.toList_none, List.append_nil]
      exact h
  | some outcome =>
    obtain ⟨rfl, hlost, hbehind⟩ := h
    refine ⟨false, [outcome], ?_, ?_, rfl, fun o ho => List.mem_singleton.mp ho ▸ hlost⟩
    · simpa [Waits, settle] using hwaits
    · simpa [settle] using hbehind

end Client

namespace World
variable {T : Transport α} {w w' : World T}

/-- What has happened while no request has timed out: all requests that have ended have returned
their replies. -/
structure InStep (L : T.Lawful) (w : World T) : Prop where
  inbox : L.InStep w.client.inbox
  waits : ∃ waiting, w.client.Waits waiting
  ended : w.replies.length = w.client.outcomes.length
  expired : ∀ id ∈ w.expired, id ≤ w.client.outcomes.length
  inTime : ∀ reply ∈ w.replies, reply.inTime = true
  answered : ∀ k reply, w.replies[k]? = some reply →
    w.client.outcomes[k]? = some (responseResult reply.message (k + 1))

/-- What has happened when the request at `first` was the first one that timed out: those before it
have returned their replies, and no other returns any. -/
structure BehindAt (L : T.Lawful) (first : Nat) (w : World T) : Prop where
  inbox : ∃ waiting, w.client.Waits waiting ∧
    L.Behind w.replies.length w.client.outcomes.length waiting w.client.inbox
  first_le : first ≤ w.replies.length
  expired : first + 1 ∈ w.expired
  answered : ∀ k < first, ∃ reply, w.replies[k]? = some reply ∧ reply.inTime = true ∧
    w.client.outcomes[k]? = some (responseResult reply.message (k + 1))
  late : ∀ reply, w.replies[first]? = some reply → reply.inTime = false
  lost : ∀ k outcome, first ≤ k → w.client.outcomes[k]? = some outcome → Lost outcome

variable {L : T.Lawful} {first : Nat}

/-- More outcomes that are no replies, and more replies, of which the one that is waited for first
is late. -/
theorem BehindAt.more (h : w.BehindAt L first) {lost : List (Except McpError α)} {news : List (Reply α)}
    (hinbox : ∃ waiting, w'.client.Waits waiting ∧
      L.Behind w'.replies.length w'.client.outcomes.length waiting w'.client.inbox)
    (houtcomes : w'.client.outcomes = w.client.outcomes ++ lost) (hlost : ∀ outcome ∈ lost, Lost outcome)
    (hreplies : w'.replies = w.replies ++ news)
    (hlate : w.replies.length = first → ∀ reply, news.head? = some reply → reply.inTime = false)
    (hexpired : ∀ id ∈ w.expired, id ∈ w'.expired) : w'.BehindAt L first where
  inbox := hinbox
  first_le := by
    rw [hreplies, List.length_append]
    exact Nat.le_add_right_of_le h.first_le
  expired := hexpired _ h.expired
  answered k hk := by
    obtain ⟨reply, hreply, hin, houtcome⟩ := h.answered k hk
    refine ⟨reply, ?_, hin, ?_⟩
    · rw [hreplies, List.getElem?_append_left (List.getElem?_eq_some_iff.mp hreply).1, hreply]
    · rw [houtcomes, List.getElem?_append_left (List.getElem?_eq_some_iff.mp houtcome).1, houtcome]
  late reply hreply := by
    rw [hreplies] at hreply
    cases Nat.lt_or_ge first w.replies.length with
    | inl hlt => exact h.late reply (List.getElem?_append_left hlt ▸ hreply)
    | inr hge =>
      have hfirst : w.replies.length = first := le_antisymm hge h.first_le
      rw [List.getElem?_append_right hge, hfirst, Nat.sub_self, ← List.head?_eq_getElem?] at hreply
      exact hlate hfirst reply hreply
  lost k outcome hk houtcome := by
    rw [houtcomes] at houtcome
    cases Nat.lt_or_ge k w.client.outcomes.length with
    | inl hlt => exact h.lost k outcome hk (List.getElem?_append_left hlt ▸ houtcome)
    | inr hge =>
      rw [List.getElem?_append_right hge] at houtcome
      exact hlost outcome (List.mem_of_getElem? houtcome)

theorem InStep.start (L : T.Lawful) : InStep L ({} : World T) where
  inbox := L.start
  waits := ⟨false, rfl⟩
  ended := rfl
  expired _ h := absurd h List.not_mem_nil
  inTime _ h := absurd h List.not_mem_nil
  answered _ _ h := nomatch h

theorem InStep.request (h : w.InStep L) (hnone : w.client.pending = none) :
    InStep L { w with client := w.client.request } := by
  obtain ⟨waiting, hwaits⟩ := h.waits
  obtain rfl := hwaits.of_pending_none hnone
  obtain ⟨inbox, hrequest, hinbox⟩ := L.request (w.client.requestId + 1) h.inbox
  have hclient : w.client.request = ⟨w.client.requestId + 1, w.client.outcomes, inbox⟩ := by
    simp [Client.request, Client.settle, hrequest]
  rw [hclient]
  exact ⟨hinbox, ⟨true, congrArg (· + 1) hwaits⟩, h.ended, h.expired, h.inTime, h.answered⟩

theorem InStep.notification (h : w.InStep L) {message : Message α} (hid : message.id = none) :
    InStep L { w with client := w.client.receive message } := by
  obtain ⟨inbox, hreceive, hinbox⟩ := L.notification w.client.pending h.inbox hid
  have hclient : w.client.receive message = ⟨w.client.requestId, w.client.outcomes, inbox⟩ := by
    simp [Client.receive, Client.settle, hreceive]
  rw [hclient]
  exact ⟨hinbox, h.waits, h.ended, h.expired, h.inTime, h.answered⟩

/-- In step, a reply is for the request that waits. -/
theorem InStep.pending (h : w.InStep L) (hle : w.replies.length + 1 ≤ w.client.requestId) :
    w.client.requestId = w.client.outcomes.length + 1 ∧ w.client.pending = some (w.replies.length + 1) := by
  obtain ⟨waiting, hwaits⟩ := h.waits
  have hlock : w.client.requestId = w.client.outcomes.length + waiting.toNat := hwaits
  have hended := h.ended
  have hbit := Bool.toNat_le waiting
  have hid : w.client.requestId = w.client.outcomes.length + 1 := by omega
  refine ⟨hid, ?_⟩
  rw [Client.pending, hid, if_pos (Nat.lt_succ_self _), h.ended]

theorem InStep.reply (h : w.InStep L) (hle : w.replies.length + 1 ≤ w.client.requestId) {message : Message α}
    (hid : message.id = some (w.replies.length + 1)) :
    InStep L { w with
      client := w.client.receive message
      replies := w.replies ++ [⟨message, w.replies.length + 1 ∉ w.expired⟩] } := by
  obtain ⟨hlock, hpending⟩ := h.pending hle
  obtain ⟨inbox, hreceive, hinbox⟩ := L.reply h.inbox hid
  have hnew : w.replies.length + 1 ∉ w.expired := fun hmem => by
    have hle := h.expired _ hmem
    have hended := h.ended
    omega
  have hclient : w.client.receive message =
      ⟨w.client.requestId, w.client.outcomes ++ [responseResult message (w.replies.length + 1)], inbox⟩ := by
    simp [Client.receive, Client.settle, hpending, hreceive]
  rw [hclient, decide_eq_true hnew]
  refine ⟨hinbox, ⟨false, ?_⟩, ?_, ?_, ?_, ?_⟩
  · simpa [Client.Waits] using hlock
  · simp [h.ended]
  · intro id hid
    have hle := h.expired id hid
    simp only [List.length_append, List.length_singleton]
    omega
  · intro reply hreply
    rcases List.mem_append.mp hreply with hold | hlast
    · exact h.inTime reply hold
    · rw [List.mem_singleton.mp hlast]
  · intro k reply hreply
    cases Nat.lt_or_ge k w.replies.length with
    | inl hlt =>
      rw [List.getElem?_append_left hlt] at hreply
      rw [List.getElem?_append_left (h.ended ▸ hlt), h.answered k reply hreply]
    | inr hge =>
      have hlast := (List.getElem?_eq_some_iff.mp hreply).1
      have hk : k = w.replies.length := by
        rw [List.length_append, List.length_singleton] at hlast
        omega
      subst hk
      rw [List.getElem?_append_right (Nat.le_refl _), Nat.sub_self] at hreply
      obtain rfl := Option.some.inj hreply
      rw [List.getElem?_append_right h.ended.ge, h.ended, Nat.sub_self]
      rfl

/-- The timeout of a request that has ended. -/
theorem InStep.timeout (h : w.InStep L) {id : Nat} (hle : id ≤ w.client.requestId) (hother : w.client.pending ≠ some id) :
    InStep L { w with client := w.client.timeout id, expired := id :: w.expired } := by
  obtain ⟨waiting, hwaits⟩ := h.waits
  rw [Client.timeout, if_neg hother]
  refine ⟨h.inbox, h.waits, h.ended, ?_, h.inTime, h.answered⟩
  intro other hmem
  change other ≤ w.client.outcomes.length
  rcases List.mem_cons.mp hmem with rfl | hmem
  · by_contra hlt
    refine hother ?_
    have hlock : w.client.requestId = w.client.outcomes.length + waiting.toNat := hwaits
    have hbit := Bool.toNat_le waiting
    rw [Client.pending, if_pos (by omega)]
    exact congrArg some (by omega)
  · exact h.expired other hmem

/-- The timeout of the request that waits: from here on the client is behind. -/
theorem InStep.falls (h : w.InStep L) {id : Nat} (hpending : w.client.pending = some id) :
    BehindAt L w.client.outcomes.length { w with client := w.client.timeout id, expired := id :: w.expired } := by
  obtain ⟨waiting, hwaits⟩ := h.waits
  obtain ⟨rfl, rfl⟩ := hwaits.of_pending hpending
  rw [Client.timeout, if_pos hpending]
  refine ⟨⟨false, ?_, ?_⟩, h.ended.ge, List.mem_cons_self, ?_, ?_, ?_⟩
  · simpa [Client.Waits] using hwaits
  · simp only [List.length_append, List.length_singleton]
    rw [h.ended]
    exact L.falls _ h.inbox
  · intro k hk
    have hreply : w.replies[k]? = some _ := List.getElem?_eq_getElem (h.ended ▸ hk)
    refine ⟨_, hreply, h.inTime _ (List.mem_of_getElem? hreply), ?_⟩
    rw [List.getElem?_append_left hk, h.answered k _ hreply]
  · intro reply hreply
    have hlt := (List.getElem?_eq_some_iff.mp hreply).1
    exact absurd (h.ended ▸ hlt) (Nat.lt_irrefl _)
  · intro k outcome hk houtcome
    rw [List.getElem?_append_right hk] at houtcome
    rw [List.mem_singleton.mp (List.mem_of_getElem? houtcome)]
    exact L.lost

/-- Whoever is behind stays behind. -/
theorem BehindAt.step {event : Event α} (h : w.BehindAt L first) (hstep : w.step event = some w') :
    w'.BehindAt L first := by
  obtain ⟨waiting, hwaits, hbehind⟩ := h.inbox
  cases event with
  | request =>
    obtain ⟨hnone, hw'⟩ := Option.ite_none_right_eq_some.mp hstep
    obtain rfl := Option.some.inj hw'
    obtain rfl := hwaits.of_pending_none hnone
    have hid : w.client.requestId = w.client.outcomes.length := hwaits
    have hwaits' : Client.Waits { w.client with requestId := w.client.requestId + 1 } true := congrArg (· + 1) hwaits
    have hfalls : T.Falls (L.Behind w.replies.length) w.client.outcomes.length true
        (T.request (w.client.requestId + 1) w.client.inbox) := by
      rw [hid]
      exact L.behind_request hbehind
    obtain ⟨waiting', lost, hw, hb, houtcomes, hlost⟩ := Client.settle_behind hwaits' hfalls
    exact h.more ⟨waiting', hw, hb⟩ houtcomes hlost (List.append_nil _).symm (fun _ _ h => nomatch h) fun _ h => h
  | reply answer =>
    obtain ⟨hle, hw'⟩ := Option.ite_none_right_eq_some.mp hstep
    obtain rfl := Option.some.inj hw'
    have hfalls := hwaits.pending ▸ L.behind_reply hbehind
      (show (({ answer with id := some (w.replies.length + 1) } : Message α)).id = some _ from rfl)
    obtain ⟨waiting', lost, hw, hb, houtcomes, hlost⟩ := Client.settle_behind hwaits hfalls
    refine h.more ⟨waiting', hw, ?_⟩ houtcomes hlost rfl ?_ fun _ h => h
    · rw [List.length_append, List.length_singleton]
      exact hb
    · intro hfirst reply hreply
      obtain rfl := Option.some.inj hreply
      exact decide_eq_false fun hnew => hnew (hfirst ▸ h.expired)
  | notification answer =>
    obtain rfl := Option.some.inj hstep
    have hfalls := hwaits.pending ▸ L.behind_notification hbehind
      (show (({ answer with id := none } : Message α)).id = none from rfl)
    obtain ⟨waiting', lost, hw, hb, houtcomes, hlost⟩ := Client.settle_behind hwaits hfalls
    exact h.more ⟨waiting', hw, hb⟩ houtcomes hlost (List.append_nil _).symm (fun _ _ h => nomatch h) fun _ h => h
  | timeout id =>
    obtain ⟨-, hw'⟩ := Option.ite_none_right_eq_some.mp hstep
    obtain rfl := Option.some.inj hw'
    have hexpired : ∀ other ∈ w.expired, other ∈ id :: w.expired := fun _ h => List.mem_cons_of_mem _ h
    by_cases hpending : w.client.pending = some id
    · obtain ⟨rfl, rfl⟩ := hwaits.of_pending hpending
      have hclient : w.client.timeout (w.client.outcomes.length + 1) =
          { w.client with outcomes := w.client.outcomes ++ [throw T.timedOut] } := if_pos hpending
      refine h.more ⟨false, ?_, ?_⟩ (congrArg Client.outcomes hclient)
        (fun outcome houtcome => List.mem_singleton.mp houtcome ▸ L.lost) (List.append_nil _).symm
        (fun _ _ h => nomatch h) hexpired
      · simpa [hclient, Client.Waits] using hwaits
      · simpa [hclient] using L.behind_timeout hbehind
    · have hclient : w.client.timeout id = w.client := if_neg hpending
      refine h.more ⟨waiting, ?_, ?_⟩ ?_ (fun _ h => absurd h List.not_mem_nil) (List.append_nil _).symm
        (fun _ _ h => nomatch h) hexpired
      · simpa [hclient] using hwaits
      · simpa [hclient] using hbehind
      · simp [hclient]

/-- A run is in step or behind. -/
theorem InStep.step {event : Event α} (h : w.InStep L) (hstep : w.step event = some w') :
    w'.InStep L ∨ w'.BehindAt L w.client.outcomes.length := by
  cases event with
  | request =>
    obtain ⟨hnone, hw'⟩ := Option.ite_none_right_eq_some.mp hstep
    exact .inl (Option.some.inj hw' ▸ h.request hnone)
  | reply answer =>
    obtain ⟨hle, hw'⟩ := Option.ite_none_right_eq_some.mp hstep
    exact .inl (Option.some.inj hw' ▸ h.reply hle rfl)
  | notification answer => exact .inl (Option.some.inj hstep ▸ h.notification rfl)
  | timeout id =>
    obtain ⟨⟨-, hle⟩, hw'⟩ := Option.ite_none_right_eq_some.mp hstep
    by_cases hpending : w.client.pending = some id
    · exact .inr (Option.some.inj hw' ▸ h.falls hpending)
    · exact .inl (Option.some.inj hw' ▸ h.timeout hle hpending)

/-- A run is in step, or behind from some request on. -/
def Ordered (L : T.Lawful) (w : World T) : Prop := w.InStep L ∨ ∃ first, w.BehindAt L first

theorem Ordered.run {events : List (Event α)} (h : w.Ordered L) (hrun : w.run events = some w') : w'.Ordered L := by
  induction events generalizing w with
  | nil => exact Option.some.inj hrun ▸ h
  | cons event events ih =>
    obtain ⟨next, hstep, hrun⟩ := Option.bind_eq_some_iff.mp hrun
    refine ih ?_ hrun
    rcases h with h | ⟨first, h⟩
    · exact (h.step hstep).imp_right fun h => ⟨_, h⟩
    · exact .inr ⟨first, h.step hstep⟩

/-! ### What holds of a run -/

theorem Ordered.own (h : w.Ordered L) : w.Own := by
  intro k result houtcome
  rcases h with h | ⟨first, h⟩
  · have hreply : w.replies[k]? = some _ :=
      List.getElem?_eq_getElem (h.ended ▸ (List.getElem?_eq_some_iff.mp houtcome).1)
    exact ⟨_, hreply, Option.some.inj ((h.answered k _ hreply).symm.trans houtcome)⟩
  · cases Nat.lt_or_ge k first with
    | inl hlt =>
      obtain ⟨reply, hreply, -, hown⟩ := h.answered k hlt
      exact ⟨reply, hreply, Option.some.inj (hown.symm.trans houtcome)⟩
    | inr hge => exact absurd rfl ((h.lost k _ hge houtcome).ne_ok result)

theorem BehindAt.not_returned (h : w.BehindAt L first) {k : Nat} {reply : Reply α} (hk : first ≤ k) :
    w.client.outcomes[k]? ≠ some (responseResult reply.message (k + 1)) :=
  fun houtcome => h.lost k _ hk houtcome reply.message (k + 1) rfl

theorem Ordered.returns_iff (h : w.Ordered L) : w.Undisturbed ↔ ¬w.LateBeforeInTime := by
  rcases h with h | ⟨first, h⟩
  · refine ⟨fun _ => ?_, fun _ k reply hreply _ => h.answered k reply hreply⟩
    rintro ⟨j, k, late, reply, -, hlate, hislate, -⟩
    exact Bool.false_ne_true (hislate.symm.trans (h.inTime late (List.mem_of_getElem? hlate)))
  · constructor
    · rintro hall ⟨j, k, late, reply, hlt, hlate, hislate, hreply, hin⟩
      have hj : first ≤ j := by
        by_contra hj
        obtain ⟨other, hother, hotherin, -⟩ := h.answered j (Nat.lt_of_not_le hj)
        obtain rfl := Option.some.inj (hother.symm.trans hlate)
        exact Bool.false_ne_true (hislate.symm.trans hotherin)
      exact h.not_returned (hj.trans hlt.le) (hall k reply hreply hin)
    · intro hnot k reply hreply hin
      cases Nat.lt_or_ge k first with
      | inl hlt =>
        obtain ⟨other, hother, -, hown⟩ := h.answered k hlt
        obtain rfl := Option.some.inj (hother.symm.trans hreply)
        exact hown
      | inr hge =>
        -- The reply at `first` has come, and late.
        have hlen := (List.getElem?_eq_some_iff.mp hreply).1
        have hfirst : w.replies[first]? = some _ := List.getElem?_eq_getElem (hge.trans_lt hlen)
        have hislate := h.late _ hfirst
        rcases hge.eq_or_lt with rfl | hlt
        · obtain rfl := Option.some.inj (hfirst.symm.trans hreply)
          exact absurd (hislate.symm.trans hin) Bool.false_ne_true
        · exact absurd ⟨first, k, _, reply, hlt, hfirst, hislate, hreply, hin⟩ hnot

end World

/-- The transports that read a stream. -/
inductive StreamTransport where
  | stdio
  | legacySse

def StreamTransport.transport (α : Type) : StreamTransport → Transport α
  | .stdio => Stdio.transport α
  | .legacySse => LegacySse.transport α

def StreamTransport.lawful (α : Type) : (t : StreamTransport) → (t.transport α).Lawful
  | .stdio => Stdio.lawful α
  | .legacySse => LegacySse.lawful α

/-- A first request that times out, and a second one. -/
def lateReply : List (Event Nat) :=
  [.request, .timeout 1, .reply { result := some 1 }, .request, .reply { result := some 2 }]

end Operant.Mcp
