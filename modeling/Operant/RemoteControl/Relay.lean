import Operant.RemoteControl.Domain
import Operant.Tables.Pages
import Mathlib.Data.Prod.Lex

/-! The relay: envelopes that wait for a recipient, and the connector that polls for them.

Each operation is one transaction. What every pull has returned is noted in `pulls`. -/
namespace Operant.RemoteControl.Relay
open Operant.Tables
open Operant.Scheduler (Instant seconds)

inductive RelayEnvelopeStatus where
  | queued
  | delivered
  | acknowledged
  | expired
  deriving DecidableEq

/-- `status IN ('queued','delivered')` -/
def RelayEnvelopeStatus.isLive : RelayEnvelopeStatus → Bool
  | .queued | .delivered => true
  | .acknowledged | .expired => false

structure RelayEnvelope where
  envelopeId : String
  routeRef : String
  senderRef : String
  recipientRef : String
  ciphertext : String
  nonce : String
  expiresAt : Instant
  status : RelayEnvelopeStatus := .queued
  createdAt : Instant
  deliveredAt : Option Instant := none
  acknowledgedAt : Option Instant := none
  expires : createdAt < expiresAt := by decide
  deriving DecidableEq

/-- Exceptions, as far as they are told apart. -/
inductive Raised where
  /-- `RemoteControlError`. -/
  | remote (code message : String) (statusCode : Nat)
  /-- `ConflictError`. -/
  | conflict (message : String)
  deriving DecidableEq

/-- A row of `relay_envelopes`. Rows of one `created_at` come as they were inserted. -/
structure Row where
  envelope : RelayEnvelope
  rowid : Nat
  deriving DecidableEq

namespace Row

/-- `ORDER BY created_at` -/
def key (row : Row) : ℤ ×ₗ ℕ := toLex (row.envelope.createdAt, row.rowid)

def isLive (row : Row) : Bool := row.envelope.status.isLive

/-- `status IN ('queued','delivered') AND expires_at<=?` -/
def lapses (row : Row) (now : Instant) : Bool := row.isLive && row.envelope.expiresAt ≤ now

/-- `route_ref=? AND recipient_ref=?` -/
def isFor (row : Row) (routeRef recipientRef : String) : Bool :=
  row.envelope.routeRef = routeRef && row.envelope.recipientRef = recipientRef

/-- What `pull_envelopes` selects. -/
def isDue (row : Row) (routeRef recipientRef : String) (now : Instant) : Bool :=
  row.isFor routeRef recipientRef && row.isLive && now < row.envelope.expiresAt

def expired (row : Row) : Row := { row with envelope.status := .expired }

/-- `delivered_at=COALESCE(delivered_at, ?)` -/
def delivered (row : Row) (now : Instant) : Row :=
  { row with
    envelope.status := .delivered
    envelope.deliveredAt := some (row.envelope.deliveredAt.getD now) }

/-- What `acknowledge_envelope` asks of a row. -/
def isDeliverable (row : Row) (envelopeId recipientRef : String) (now : Instant) : Bool :=
  row.envelope.envelopeId = envelopeId && row.envelope.recipientRef = recipientRef &&
    row.envelope.status = .delivered && now < row.envelope.expiresAt

def acknowledged (row : Row) (now : Instant) : Row :=
  { row with envelope.status := .acknowledged, envelope.acknowledgedAt := some now }

end Row

structure State where
  rows : List Row := []
  pulls : List (Instant × List RelayEnvelope) := []

namespace State

/-- `publish_envelope`. -/
def publishEnvelope (s : State) (envelope : RelayEnvelope) : Except Raised Unit × State :=
  if s.rows.any fun row => row.envelope.envelopeId = envelope.envelopeId ||
      (row.envelope.senderRef = envelope.senderRef && row.envelope.nonce = envelope.nonce) then
    (.error (.conflict "relay envelope replay or identity conflict"), s)
  else (.ok (), { s with rows := s.rows ++ [⟨envelope, s.rows.length⟩] })

/-- `publish`. -/
def publish (s : State) (envelope : RelayEnvelope) (now : Instant) : Except Raised Unit × State :=
  if 350000 < envelope.ciphertext.length then
    (.error (.remote "relay.envelope_too_large" "relay envelope is too large" 413), s)
  else if envelope.expiresAt ≤ now ∨ seconds 120 < envelope.expiresAt - now then
    (.error (.remote "relay.invalid_ttl" "relay envelope TTL is invalid" 400), s)
  else s.publishEnvelope envelope

/-- `UPDATE relay_envelopes SET status='expired'`, which pulls and `relay_health` begin with. -/
def expire (s : State) (now : Instant) : State :=
  { s with rows := update s.rows (fun row => row.lapses now) Row.expired }

/-- `pull_envelopes`: the page, as it is delivered. -/
def pullEnvelopes (s : State) (routeRef recipientRef : String) (now : Instant) (limit : Nat) :
    List RelayEnvelope × State :=
  let expired := s.expire now
  let due := page Row.key (fun row => row.isDue routeRef recipientRef now) expired.rows limit
  let ids := due.map fun row => row.envelope.envelopeId
  let returned := due.map fun row => (row.delivered now).envelope
  (returned, { expired with
    rows := update expired.rows (fun row => row.envelope.envelopeId ∈ ids) fun row => row.delivered now
    pulls := s.pulls ++ [(now, returned)] })

/-- `pull`. -/
def pull (s : State) (routeRef recipientRef : String) (limit : Nat) (now : Instant) :
    Except Raised (List RelayEnvelope) × State :=
  if ¬(1 ≤ limit ∧ limit ≤ 50) then
    (.error (.remote "relay.invalid_limit" "relay pull limit is invalid" 400), s)
  else
    let (envelopes, s') := s.pullEnvelopes routeRef recipientRef now limit
    (.ok envelopes, s')

/-- `acknowledge_envelope`. -/
def acknowledge (s : State) (envelopeId recipientRef : String) (now : Instant) :
    Except Raised Unit × State :=
  let p (row : Row) : Bool := row.isDeliverable envelopeId recipientRef now
  if (s.rows.filter p).length ≠ 1 then
    (.error (.conflict "relay envelope is not deliverable for this recipient"), s)
  else (.ok (), { s with rows := update s.rows p fun row => row.acknowledged now })

end State

/-! ### Sequences of operations -/

inductive Operation where
  | publish (envelope : RelayEnvelope) (now : Instant)
  | pull (routeRef recipientRef : String) (limit : Nat) (now : Instant)
  | acknowledge (envelopeId recipientRef : String) (now : Instant)
  | health (now : Instant)

def State.apply (s : State) : Operation → State
  | .publish envelope now => (s.publish envelope now).2
  | .pull routeRef recipientRef limit now => (s.pull routeRef recipientRef limit now).2
  | .acknowledge envelopeId recipientRef now => (s.acknowledge envelopeId recipientRef now).2
  | .health now => s.expire now

/-- What a sequence of operations leaves. -/
def reached (ops : List Operation) : State := ops.foldl State.apply {}

/-! ### Polls -/

/-- A connector that polls for the commands of a session, and what its key makes of an
envelope: whether it decrypts, and to a command. -/
structure Connector where
  session : RemoteSession
  limit : Nat := 50
  opens : (ciphertext nonce routeRef : String) → Bool

def Connector.opensEnvelope (c : Connector) (envelope : RelayEnvelope) : Bool :=
  c.opens envelope.ciphertext envelope.nonce envelope.routeRef

/-- What a poll meets: the clock at its pull and, envelope by envelope, at its acknowledgement,
and the envelopes whose submission raises. -/
structure Poll where
  now : Instant
  acknowledgedAt : String → Instant
  raises : String → Bool

/-- The loop of `poll_once`: the envelopes whose commands are submitted. An acknowledgement that
raises ends it. -/
def handleEach (c : Connector) (poll : Poll) : List RelayEnvelope → State → List String × State
  | [], s => ([], s)
  | envelope :: rest, s =>
    if !c.opensEnvelope envelope then handleEach c poll rest s
    else if poll.raises envelope.envelopeId then
      let (handed, s') := handleEach c poll rest s
      (envelope.envelopeId :: handed, s')
    else
      match s.acknowledge envelope.envelopeId c.session.hostId
          (poll.acknowledgedAt envelope.envelopeId) with
      | (.error _, s') => ([envelope.envelopeId], s')
      | (.ok (), s') =>
        let (handed, s'') := handleEach c poll rest s'
        (envelope.envelopeId :: handed, s'')

/-- `poll_once`: the envelopes whose commands are submitted. -/
def pollOnce (c : Connector) (s : State) (poll : Poll) : List String × State :=
  match s.pull c.session.remoteSessionId c.session.hostId c.limit poll.now with
  | (.error _, s') => ([], s')
  | (.ok envelopes, s') => handleEach c poll envelopes s'

/-- What others do, and then a poll. -/
structure Round where
  others : List Operation
  poll : Poll

/-- Rounds, with the envelopes that they hand to `submit_command`. -/
def playRounds (c : Connector) : State → List Round → List String × State
  | s, [] => ([], s)
  | s, round :: rest =>
    let (handed, s') := pollOnce c (round.others.foldl State.apply s) round.poll
    let (more, s'') := playRounds c s' rest
    (handed ++ more, s'')

end Operant.RemoteControl.Relay
