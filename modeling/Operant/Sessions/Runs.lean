import Operant.Python.Value

/-! A session's events, and the run that records them: `ApplicationService.run_session`.

The run persists what its loop emits, what extensions make of it, and what goes wrong when a cache
observation is recorded. Others record events of the session in between. -/
namespace Operant.Sessions
open Operant.Python

/-- `AgentStatus`. -/
inductive AgentStatus where
  | created
  | running
  | completed
  | failed
  | cancelled
  | timedOut
  deriving DecidableEq

/-! ### Events -/

/-- An event that is not stored yet. -/
structure Draft where
  sessionId : String
  agentId : Option String
  eventType : String
  deriving DecidableEq

/-- A row of `events`. -/
structure Event extends Draft where
  sequence : Nat
  deriving DecidableEq

/-- The tables `events` and `agents`, and the next sequence number. -/
structure Store where
  events : List Event := []
  next : Nat := 1
  agents : Dict AgentStatus := []
  ordered : (events.map (·.sequence)).Pairwise (· < ·) := by decide
  below : ∀ event ∈ events, event.sequence < next := by decide

namespace Store
variable (store : Store)

/-- `append_event`, when it does not raise. -/
def appendEvent (draft : Draft) : Store where
  events := store.events ++ [⟨draft, store.next⟩]
  next := store.next + 1
  agents := store.agents
  ordered := by
    rw [List.map_append, List.pairwise_append]
    refine ⟨store.ordered, List.pairwise_singleton _ _, fun n hn m hm => ?_⟩
    obtain ⟨event, hevent, rfl⟩ := List.mem_map.mp hn
    rw [List.map_singleton, List.mem_singleton] at hm
    rw [hm]
    exact store.below event hevent
  below := fun event hevent => by
    cases List.mem_append.mp hevent with
    | inl hold => exact Nat.lt_succ_of_lt (store.below event hold)
    | inr hnew => rw [List.mem_singleton.mp hnew]; exact Nat.lt_succ_self store.next

/-- The events of a session, in order. -/
def sessionEvents (sessionId : String) : List Event := store.events.filter (·.sessionId = sessionId)

/-- `list_events`: the first ones behind the cursor. -/
def listEvents (sessionId : String) (afterCursor : Option Nat) (limit : Nat) : List Event :=
  ((store.sessionEvents sessionId).filter fun event => afterCursor.all (· < event.sequence)).take limit

/-- `update_agent_status`. -/
def updateAgentStatus (agentId : String) (status : AgentStatus) : Store :=
  { store with agents := store.agents.set agentId status }

end Store

/-! ### Statuses -/

/-- What an event says of its agent's status, if it is the last one. -/
def statusOf (eventType : String) : AgentStatus :=
  if eventType = "agent.completed" then .completed
  else if eventType = "agent.cancelled" then .cancelled
  else if eventType = "agent.timed_out" then .timedOut
  else .failed

/-- `_status_from_events`. -/
def statusFromEvents (events : List Event) : AgentStatus :=
  match events.getLast? with
  | some event => statusOf event.eventType
  | none => .failed

/-- `agent.*` or `budget.exhausted`. -/
def isLifecycle (eventType : String) : Bool :=
  "agent.".toList.isPrefixOf eventType.toList || eventType = "budget.exhausted"

/-! ### The loop -/

/-- What is delivered to extensions. -/
def dispatched : List String :=
  ["model.completed", "tool.completed", "tool.failed", "agent.completed", "agent.failed", "agent.cancelled"]

/-- One iteration of the loop. -/
inductive Iteration where
  /-- The cancellation is set, before or while the next event is awaited. -/
  | cancelled
  /-- Nothing is left of the time. -/
  | timedOut
  /-- Something raises. -/
  | raised
  /-- An event, the cancellation that is requested when it is persisted, the results of the extensions
  it is dispatched to, and whether its cache observation fails. -/
  | emitted (eventType : String) (cancelRequested : Bool) (results : Nat) (observationFails : Bool)
  /-- The agent loop has finished: `StopAsyncIteration`. -/
  | finished

/-- A run: its session and agent, and what others record before each of its writes. -/
structure Run where
  sessionId : String
  agentId : String
  others : Nat → List Draft

/-- A run on its way. `lifecycle` is the last lifecycle event it has recorded, with its number. -/
structure Progress where
  store : Store
  writes : Nat := 0
  lifecycle : Option (Nat × String) := none

namespace Run
variable (run : Run) (s : Progress)

/-- The store as it is at the next access. -/
def seen : Store := (run.others s.writes).foldl Store.appendEvent s.store

/-- `_persist_runtime_event`. -/
def persist (eventType : String) : Progress where
  store := (run.seen s).appendEvent ⟨run.sessionId, some run.agentId, eventType⟩
  writes := s.writes + 1
  lifecycle := if isLifecycle eventType then some ((run.seen s).next, eventType) else s.lifecycle

/-- An event and those that follow from it. A completion that comes after a cancellation was requested
is recorded as cancelled. -/
def record (eventType : String) (cancelRequested : Bool) (results : Nat) (observationFails : Bool) :
    String × Progress :=
  let recorded := if eventType = "agent.completed" ∧ cancelRequested then "agent.cancelled" else eventType
  let extended := (List.replicate (if recorded ∈ dispatched then results else 0) "extension.runtime_dispatched").foldl
    run.persist (run.persist s recorded)
  (recorded, if recorded = "model.completed" ∧ observationFails then
    run.persist extended "cache.observation_failed" else extended)

/-- Why the loop was left. -/
inductive Ending where
  | finished
  | cancelled
  | timedOut
  | failed
  deriving DecidableEq

/-- The iterations, until one leaves the loop: the final status, and the store it is recorded in. -/
def iterate : Progress → List Iteration → Option (Ending × AgentStatus × Progress)
  | _, [] => none
  | s, .cancelled :: _ => some (.cancelled, .cancelled, run.persist s "agent.cancelled")
  | s, .timedOut :: _ => some (.timedOut, .timedOut, run.persist s "agent.timed_out")
  | s, .raised :: _ => some (.failed, .failed, run.persist s "agent.failed")
  | s, .finished :: _ =>
    some (.finished, statusFromEvents ((run.seen s).listEvents run.sessionId none 1000), { s with store := run.seen s })
  | s, .emitted eventType cancelRequested results observationFails :: rest =>
    let (recorded, after) := run.record s eventType cancelRequested results observationFails
    if recorded = "agent.cancelled" then some (.cancelled, .cancelled, after) else iterate after rest

/-- `run_session`, from its loop on: why it ended, and what is stored. -/
def runSession (earlier : Store) (iterations : List Iteration) : Option (Ending × Progress) :=
  (run.iterate { store := earlier } iterations).map fun result =>
    (result.1, { result.2.2 with store := result.2.2.store.updateAgentStatus run.agentId result.2.1 })

end Run
end Operant.Sessions
