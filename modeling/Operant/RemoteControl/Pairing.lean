import Operant.RemoteControl.Domain
import Operant.Calls.Owners
import Operant.Tables.Rows

/-! Pairing: a challenge lets some devices in before it expires.

`pair_device` consumes a use of the challenge in one transaction and stores the device in
another; what comes between can raise. Two lists are for us only: `paired`, the devices with
the use each was let in by, and `attempts`; and so are the arguments of calls that say for
which use they are made. -/
namespace Operant.RemoteControl.Pairing
open Operant.Tables Operant.Calls
open Operant.Scheduler (Instant seconds)

/-- Exceptions, as far as they are told apart. -/
inductive Raised where
  /-- `RemoteControlError`. -/
  | remote (code message : String) (statusCode : Nat)
  /-- `ConflictError`. -/
  | conflict (message : String)
  | key
  /-- pydantic's `ValidationError`. -/
  | validation
  | other (typeName : String)
  deriving DecidableEq

structure PairingChallenge where
  challengeId : String
  hostId : String
  /-- The code stands for its digest. -/
  code : String
  allowedScopes : List RemoteScope
  expiresAt : Instant
  maxUses : Nat := 1
  uses : Nat := 0
  consumedAt : Option Instant := none
  createdAt : Instant
  bounded : 1 ≤ maxUses ∧ maxUses ≤ 5 := by decide
  fits : uses ≤ maxUses := by decide
  expires : createdAt < expiresAt
  observes : RemoteScope.observe ∈ allowedScopes

/-- The arguments of `pair_device`. -/
structure PairingRequest where
  challengeId : String
  oneTimeCode : String
  displayName : String
  signingPublicKey : String
  exchangePublicKey : String
  scopes : List RemoteScope := [.observe]

/-- What the fields of `RemoteDevice` ask for. -/
def PairingRequest.isValid (request : PairingRequest) : Bool :=
  (1 ≤ request.displayName.length && request.displayName.length ≤ 200) &&
  (32 ≤ request.signingPublicKey.length && request.signingPublicKey.length ≤ 500) &&
  (32 ≤ request.exchangePublicKey.length && request.exchangePublicKey.length ≤ 500)

/-- A use of a challenge. -/
abbrev Use := String × Nat

/-- A device that was let in. -/
structure Paired where
  use : Use
  device : RemoteDevice

/-- An attempt that has ended, and the use it has consumed. -/
structure Attempt where
  consumed : Option Use
  result : Except Raised RemoteDevice

def Attempt.raised (a : Attempt) : Bool :=
  match a.result with
  | .ok _ => false
  | .error _ => true

structure World where
  clock : Instant := 0
  /-- The exception that calls on the store raise, if any, by the name of its type. -/
  fault : Option String := none
  hosts : List HostInstance := []
  challenges : List PairingChallenge := []
  devices : List RemoteDevice := []
  paired : List Paired := []
  attempts : List Attempt := []

/-! ### Calls -/

inductive Call where
  | now
  /-- Time goes on, or the store gets or loses its fault. -/
  | outside (clock : Instant) (fault : Option String)
  | putHost (host : HostInstance)
  | getHost (id : String) (use : Option Use)
  | createChallenge (challenge : PairingChallenge)
  | getChallenge (id : String)
  | consumeChallenge (request : PairingRequest) (now : Instant)
  | putDevice (device : RemoteDevice) (use : Use)
  | revokeDevice (id : String) (now : Instant)

/-- The call opens the database. -/
def Call.onStore : Call → Bool
  | .now | .outside .. => false
  | _ => true

abbrev Reply : Call → Type
  | .now => Instant
  | .outside .. => Unit
  | .putHost _ => Unit
  | .getHost .. => HostInstance
  | .createChallenge _ => Unit
  | .getChallenge _ => PairingChallenge
  | .consumeChallenge .. => PairingChallenge
  | .putDevice .. => Unit
  | .revokeDevice .. => RemoteDevice

abbrev Answer (c : Call) : Type := Except Raised (Reply c)

namespace World

def host? (w : World) (id : String) : Option HostInstance := w.hosts.find? fun row => row.hostId = id

def challenge? (w : World) (id : String) : Option PairingChallenge :=
  w.challenges.find? fun row => row.challengeId = id

def device? (w : World) (id : String) : Option RemoteDevice :=
  w.devices.find? fun row => row.deviceId = id

def found {α : Type} (row : Option α) : Except Raised α :=
  match row with
  | none => .error .key
  | some row => .ok row

/-- `put_host`. -/
def putHost (w : World) (host : HostInstance) : World :=
  if (w.host? host.hostId).isSome then
    { w with hosts := update w.hosts (fun row => row.hostId = host.hostId) fun _ => host }
  else { w with hosts := w.hosts ++ [host] }

/-- `create_challenge`. -/
def createChallenge (w : World) (challenge : PairingChallenge) : Except Raised Unit × World :=
  if w.challenges.any (fun row => row.challengeId = challenge.challengeId || row.code = challenge.code) ∨
      (w.host? challenge.hostId).isNone then
    (.error (.conflict "unable to create pairing challenge"), w)
  else (.ok (), { w with challenges := w.challenges ++ [challenge] })

/-- `expires_at>? AND consumed_at IS NULL AND uses<max_uses` -/
def isOpen (challenge : PairingChallenge) (now : Instant) : Bool :=
  now < challenge.expiresAt && challenge.consumedAt.isNone && challenge.uses < challenge.maxUses

/-- `uses=uses+1, consumed_at=CASE WHEN uses+1 >= max_uses THEN ? ELSE consumed_at END` -/
def consumed (now : Instant) (challenge : PairingChallenge) : PairingChallenge :=
  if h : challenge.uses < challenge.maxUses then
    { challenge with
      uses := challenge.uses + 1
      consumedAt := if challenge.maxUses ≤ challenge.uses + 1 then some now else challenge.consumedAt
      fits := h }
  else challenge

/-- `consume_challenge`. -/
def consumeChallenge (w : World) (id code : String) (now : Instant) :
    Except Raised PairingChallenge × World :=
  let p (row : PairingChallenge) : Bool := row.challengeId = id && row.code = code && isOpen row now
  if (w.challenges.filter p).length ≠ 1 then
    (.error (.conflict "pairing challenge is invalid, expired, or consumed"), w)
  else
    let w' := { w with challenges := update w.challenges p (consumed now) }
    (found (w'.challenge? id), w')

/-- A device of this identity is there already. -/
def isTaken (w : World) (device : RemoteDevice) : Bool :=
  w.devices.any fun row => row.deviceId = device.deviceId || (row.hostId = device.hostId &&
    (row.signingPublicKey = device.signingPublicKey || row.exchangePublicKey = device.exchangePublicKey))

/-- `put_device`, and what we note of it. -/
def putDevice (w : World) (device : RemoteDevice) (use : Use) : Except Raised Unit × World :=
  if w.isTaken device ∨ (w.host? device.hostId).isNone then
    (.error (.conflict "remote device identity already exists"), w)
  else (.ok (), { w with
    devices := w.devices ++ [device]
    paired := w.paired ++ [⟨use, device⟩] })

/-- `revoke_device`. -/
def revokeDevice (w : World) (id : String) (now : Instant) : Except Raised RemoteDevice × World :=
  let w' := { w with
    devices := update w.devices (fun row => row.deviceId = id && row.revokedAt.isNone) fun row =>
      { row with revokedAt := some now, version := row.version + 1 } }
  (found (w'.device? id), w')

/-- What a call replies and leaves, where nothing is at fault. -/
def answer (w : World) : (c : Call) → Answer c × World
  | .now => (.ok w.clock, w)
  | .outside clock fault => (.ok (), { w with clock := clock, fault := fault })
  | .putHost host => (.ok (), w.putHost host)
  | .getHost id _ => (found (w.host? id), w)
  | .createChallenge challenge => w.createChallenge challenge
  | .getChallenge id => (found (w.challenge? id), w)
  | .consumeChallenge request now => w.consumeChallenge request.challengeId request.oneTimeCode now
  | .putDevice device use => w.putDevice device use
  | .revokeDevice id now => w.revokeDevice id now

def exec (w : World) (c : Call) : Answer c × World :=
  match w.fault with
  | none => w.answer c
  | some typeName => if c.onStore then (.error (.other typeName), w) else w.answer c

end World

/-! ### Programs -/

abbrev Action (α : Type) := Prog Call Answer Raised α

/-- A call whose exception is raised. -/
def ask (c : Call) : Action (Reply c) := Prog.request c >>= Prog.lift

/-- `_active_host`. -/
def activeHost (id : String) (use : Option Use) : Action HostInstance := do
  match ← (ask (.getHost id use)).attempt with
  | .error .key => throw (.remote "remote.host_not_found" "remote host was not found" 404)
  | .error e => throw e
  | .ok host =>
    if !host.isActive then
      throw (.remote "remote.host_offline" "remote host is disabled or offline" 409)
    else return host

/-- The arguments of `create_pairing_challenge`, and what it draws at random. -/
structure ChallengeRequest where
  hostId : String
  ttlSeconds : ℤ := 120
  allowedScopes : List RemoteScope := [.observe]
  challengeId : String
  code : String

theorem after_ttl {now : Instant} {ttlSeconds : ℤ} (h : 1 ≤ ttlSeconds) : now < now + seconds ttlSeconds := by
  have hpos : (0 : ℤ) < ttlSeconds * 1000000 := by omega
  exact lt_add_of_pos_right now hpos

/-- `create_pairing_challenge`. -/
def createPairingChallenge (request : ChallengeRequest) : Action PairingChallenge := do
  if h : 1 ≤ request.ttlSeconds ∧ request.ttlSeconds ≤ 300 then
    let now ← ask .now
    let host ← activeHost request.hostId none
    if hscopes : RemoteScope.observe ∈ request.allowedScopes.eraseDups then
      let challenge : PairingChallenge :=
        { challengeId := request.challengeId
          hostId := host.hostId
          code := request.code
          allowedScopes := request.allowedScopes.eraseDups
          expiresAt := now + seconds request.ttlSeconds
          createdAt := now
          expires := after_ttl h.1
          observes := hscopes }
      ask (.createChallenge challenge)
      return challenge
    else throw (.remote "remote.invalid_scope" "pairing must allow the observe scope" 400)
  else throw (.remote "remote.invalid_pairing_ttl" "pairing TTL is out of range" 400)

/-- `pair_device`, up to `consume_challenge`: when it began, the scopes it asks for, and the
challenge with the use it has consumed. -/
def consume (request : PairingRequest) : Action (Instant × List RemoteScope × PairingChallenge) := do
  let now ← ask .now
  let requested := request.scopes.eraseDups
  if RemoteScope.observe ∉ requested then
    throw (.remote "remote.invalid_scope" "new devices require the observe scope" 400)
  else
    let challenge ← ask (.getChallenge request.challengeId)
    if !(requested.all fun scope => scope ∈ challenge.allowedScopes) then
      throw (.remote "remote.scope_not_approved"
        "requested device scopes exceed the locally approved pairing scopes" 403)
    else
      let challenge ← ask (.consumeChallenge request now)
      return (now, requested, challenge)

/-- `pair_device`, from there on. The device's id is drawn at random. -/
def letIn (request : PairingRequest) (deviceId : String) (now : Instant)
    (requested : List RemoteScope) (challenge : PairingChallenge) : Action RemoteDevice := do
  let use : Use := (challenge.challengeId, challenge.uses)
  let _ ← activeHost challenge.hostId (some use)
  if !request.isValid then throw .validation
  else
    let device : RemoteDevice :=
      { deviceId := deviceId
        hostId := challenge.hostId
        displayName := request.displayName
        signingPublicKey := request.signingPublicKey
        exchangePublicKey := request.exchangePublicKey
        scopes := requested
        pairedAt := now }
    ask (.putDevice device use)
    return device

/-- `pair_device`. -/
def pairDevice (request : PairingRequest) (deviceId : String) : Action RemoteDevice := do
  let (now, requested, challenge) ← consume request
  letIn request deviceId now requested challenge

/-- The same, with what we want to know of its end. -/
def attempt (request : PairingRequest) (deviceId : String) : Action Attempt := do
  match ← (consume request).attempt with
  | .error e => return ⟨none, .error e⟩
  | .ok (now, requested, challenge) =>
    let result ← (letIn request deviceId now requested challenge).attempt
    return ⟨some (challenge.challengeId, challenge.uses), result⟩

/-- It is `pair_device` that we note. -/
theorem attempt_result (request : PairingRequest) (deviceId : String) :
    (attempt request deviceId >>= fun a => Prog.lift a.result) = pairDevice request deviceId := by
  unfold attempt pairDevice
  conv_rhs => rw [← Prog.attempt_lift (consume request), Prog.bind_assoc]
  rw [Prog.bind_assoc]
  congr 1
  funext consumed
  match consumed with
  | .error e => rfl
  | .ok (now, requested, challenge) =>
    show (letIn request deviceId now requested challenge).attempt >>= _ >>= _ = _
    rw [Prog.bind_assoc]
    exact Prog.attempt_lift _

/-! ### Everybody -/

inductive Task where
  | pair (request : PairingRequest) (deviceId : String)
  | create (request : ChallengeRequest)
  /-- A challenge that is stored as it is. -/
  | put (challenge : PairingChallenge)
  | putHost (host : HostInstance)
  | revoke (deviceId : String)
  | outside (clock : Instant) (fault : Option String)

def Task.code : Task → Action (Option Attempt)
  | .pair request deviceId => do
    let a ← attempt request deviceId
    return some a
  | .create request => do
    let _ ← createPairingChallenge request
    return none
  | .put challenge => do
    ask (.createChallenge challenge)
    return none
  | .putHost host => do
    ask (.putHost host)
    return none
  | .revoke deviceId => do
    let now ← ask .now
    let _ ← ask (.revokeDevice deviceId now)
    return none
  | .outside clock fault => do
    ask (.outside clock fault)
    return none

/-- Any number of callers. -/
def system : System Call Answer Raised World Task (Option Attempt) where
  exec c w := .ok (w.exec c)
  code := Task.code
  note _ ending w := { w with attempts := w.attempts ++ ending.toList }

/-- The pool in which nothing has happened yet. -/
def start : Pool Call Answer Raised World Task (Option Attempt) := { world := {} }

/-- What a run of the system leaves. -/
def reached (moves : List (Move Task)) : World := (start.play system moves).world

end Operant.RemoteControl.Pairing
