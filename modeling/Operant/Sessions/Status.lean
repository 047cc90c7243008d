import Operant.Sessions.Runs

/-! The status that a run leaves.

It is read from the last of the first thousand events of the session. That is the run's own last
lifecycle event as long as the session is short and nothing is recorded behind it. -/
namespace Operant.Sessions
open Operant.Python

/-! ### Kinds of events -/

/-- The status of a lifecycle event; without one the run has failed. -/
def ownStatus (eventType : Option String) : AgentStatus := (eventType.map statusOf).getD .failed

/-- The events that say more than that the run has failed. -/
def tellingTypes : List String := ["agent.completed", "agent.cancelled", "agent.timed_out"]

/-- Both events tell the same: they are of one telling type, or of none. -/
def SameKind (a b : Option String) : Prop := ∀ kind ∈ tellingTypes, a = some kind ↔ b = some kind

theorem statusOf_failed {t : String} (h : t ∉ tellingTypes) : statusOf t = .failed := by
  simp only [tellingTypes, List.mem_cons, List.not_mem_nil, or_false, not_or] at h
  rw [statusOf, if_neg h.1, if_neg h.2.1, if_neg h.2.2]

theorem statusOf_telling {kind t : String} (hkind : kind ∈ tellingTypes) : statusOf t = statusOf kind ↔ t = kind := by
  constructor
  · intro h
    by_cases ht : t ∈ tellingTypes
    · simp only [tellingTypes, List.mem_cons, List.not_mem_nil, or_false] at hkind ht
      rcases hkind with rfl | rfl | rfl <;> rcases ht with rfl | rfl | rfl <;>
        first
          | rfl
          | exact absurd h (by decide)
    · rw [statusOf_failed ht] at h
      simp only [tellingTypes, List.mem_cons, List.not_mem_nil, or_false] at hkind
      rcases hkind with rfl | rfl | rfl <;> exact absurd h (by decide)
  · rintro rfl
    rfl

theorem ownStatus_telling {kind : String} {a : Option String} (hkind : kind ∈ tellingTypes) :
    ownStatus a = statusOf kind ↔ a = some kind := by
  cases a with
  | some t => rw [ownStatus, Option.map_some, Option.getD_some, statusOf_telling hkind, Option.some.injEq]
  | none =>
    simp only [tellingTypes, List.mem_cons, List.not_mem_nil, or_false] at hkind
    rcases hkind with rfl | rfl | rfl <;> exact iff_of_false (by decide) nofun

theorem ownStatus_eq_iff {a b : Option String} : ownStatus a = ownStatus b ↔ SameKind a b := by
  constructor
  · intro h kind hkind
    rw [← ownStatus_telling hkind, h, ownStatus_telling hkind]
  · intro h
    have failed {c : Option String} (hc : ∀ kind ∈ tellingTypes, c ≠ some kind) : ownStatus c = .failed := by
      cases c with
      | none => rfl
      | some t => exact statusOf_failed fun ht => hc t ht rfl
    by_cases ha : ∃ kind ∈ tellingTypes, a = some kind
    · obtain ⟨kind, hkind, rfl⟩ := ha
      rw [(h kind hkind).mp rfl]
    · have hnone : ∀ kind ∈ tellingTypes, a ≠ some kind := fun kind hkind heq => ha ⟨kind, hkind, heq⟩
      rw [failed hnone, failed fun kind hkind heq => hnone kind hkind ((h kind hkind).mpr heq)]

theorem statusFromEvents_eq (events : List Event) :
    statusFromEvents events = ownStatus (events.getLast?.map (·.eventType)) := by
  rw [statusFromEvents]
  cases events.getLast? <;> rfl

/-! ### Numbers -/

namespace Store
variable {store : Store} {event other : Event}

theorem appendEvent_mem (draft : Draft) (h : event ∈ store.events) : event ∈ (store.appendEvent draft).events :=
  List.mem_append_left _ h

theorem foldl_appendEvent_mem (drafts : List Draft) (h : event ∈ store.events) :
    event ∈ (drafts.foldl appendEvent store).events := by
  induction drafts generalizing store with
  | nil => exact h
  | cons draft rest ih => exact ih (appendEvent_mem draft h)

/-- A number names one event. -/
theorem eq_of_sequence (h : event ∈ store.events) (hother : other ∈ store.events)
    (heq : event.sequence = other.sequence) : event = other :=
  List.inj_on_of_nodup_map (store.ordered.imp fun hlt => Nat.ne_of_lt hlt) h hother heq

theorem listEvents_first (sessionId : String) :
    store.listEvents sessionId none 1000 = (store.sessionEvents sessionId).take 1000 := by
  simp [listEvents]

end Store

/-- The last lifecycle event of a run is stored under its number. -/
def Progress.Stored (s : Progress) : Prop :=
  ∀ n t, s.lifecycle = some (n, t) → ∃ event ∈ s.store.events, event.sequence = n ∧ event.eventType = t

namespace Run
variable {run : Run} {s : Progress}

theorem seen_stored (h : s.Stored) : Progress.Stored { s with store := run.seen s } := by
  intro n t hn
  obtain ⟨event, hevent, heq⟩ := h n t hn
  exact ⟨event, Store.foldl_appendEvent_mem _ hevent, heq⟩

theorem persist_stored (h : s.Stored) (eventType : String) : (run.persist s eventType).Stored := by
  intro n t hn
  unfold persist at hn
  dsimp only at hn
  split at hn
  · cases hn
    exact ⟨⟨⟨run.sessionId, some run.agentId, eventType⟩, (run.seen s).next⟩,
      List.mem_append_right _ (List.mem_singleton.mpr rfl), rfl, rfl⟩
  · obtain ⟨event, hevent, heq⟩ := seen_stored h n t hn
    exact ⟨event, Store.appendEvent_mem _ hevent, heq⟩

theorem foldl_persist_stored (types : List String) (h : s.Stored) : (types.foldl run.persist s).Stored := by
  induction types generalizing s with
  | nil => exact h
  | cons t rest ih => exact ih (persist_stored h t)

theorem record_stored (h : s.Stored) (eventType : String) (cancelRequested : Bool) (results : Nat)
    (observationFails : Bool) : (run.record s eventType cancelRequested results observationFails).2.Stored := by
  have hextended (recorded : String) (n : Nat) : ((List.replicate n "extension.runtime_dispatched").foldl run.persist
      (run.persist s recorded)).Stored :=
    foldl_persist_stored _ (persist_stored h recorded)
  unfold record
  dsimp only
  generalize (if eventType = "agent.completed" ∧ cancelRequested then "agent.cancelled" else eventType) = recorded
  split
  · exact persist_stored (hextended _ _) _
  · exact hextended _ _

/-- What a run leaves when its loop has finished. -/
theorem iterate_finished {iterations : List Iteration} {status : AgentStatus} {last : Progress} (hs : s.Stored)
    (h : run.iterate s iterations = some (.finished, status, last)) :
    last.Stored ∧ status = statusFromEvents (last.store.listEvents run.sessionId none 1000) := by
  induction iterations generalizing s with
  | nil => exact nomatch h
  | cons iteration rest ih =>
    cases iteration with
    | cancelled | timedOut | raised =>
      rw [iterate] at h
      simp at h
    | finished =>
      rw [iterate] at h
      cases h
      exact ⟨seen_stored hs, rfl⟩
    | emitted eventType cancelRequested results observationFails =>
      rw [iterate] at h
      dsimp only at h
      split at h
      · simp at h
      · exact ih (record_stored hs eventType cancelRequested results observationFails) h

end Run

/-- Whatever the session holds, whatever the run emits and whatever others record in between: when the
loop has finished, the status that is stored is the one of the run's last lifecycle event if and only
if the session has at most a thousand events and nothing is recorded behind that one, or the last of
its first thousand events happens to be of the same kind. -/
theorem run_session_status_iff (run : Run) (earlier : Store) (iterations : List Iteration) (last : Progress)
    (h : run.runSession earlier iterations = some (.finished, last)) :
    last.store.agents.lookup run.agentId = some (ownStatus (last.lifecycle.map Prod.snd)) ↔
      ((last.store.sessionEvents run.sessionId).length ≤ 1000 ∧ last.lifecycle.isSome = true ∧
        (last.store.sessionEvents run.sessionId).getLast?.map (·.sequence) = last.lifecycle.map Prod.fst) ∨
      SameKind (((last.store.sessionEvents run.sessionId).take 1000).getLast?.map (·.eventType))
        (last.lifecycle.map Prod.snd) := by
  rw [Run.runSession, Option.map_eq_some_iff] at h
  obtain ⟨⟨ending, status, s⟩, hiterate, heq⟩ := h
  cases heq
  obtain ⟨hstored, rfl⟩ := Run.iterate_finished (fun n t hn => absurd hn (by simp)) hiterate
  have hevents : (s.store.updateAgentStatus run.agentId
      (statusFromEvents (s.store.listEvents run.sessionId none 1000))).sessionEvents run.sessionId =
        s.store.sessionEvents run.sessionId := rfl
  dsimp only
  rw [hevents, Store.updateAgentStatus, Dict.lookup_set_self, Option.some.injEq, Store.listEvents_first,
    statusFromEvents_eq, ownStatus_eq_iff, iff_or_self]
  rintro ⟨hlength, hsome, hnumber⟩
  rw [List.take_of_length_le hlength]
  obtain ⟨⟨n, t⟩, hlifecycle⟩ := Option.isSome_iff_exists.mp hsome
  rw [hlifecycle, Option.map_some, Option.map_eq_some_iff] at hnumber
  obtain ⟨event, hlast, hn⟩ := hnumber
  obtain ⟨own, hown, hsequence, htype⟩ := hstored n t hlifecycle
  have hmem := List.mem_of_mem_filter (List.mem_of_getLast? hlast)
  rw [hlast, hlifecycle, Option.map_some, Option.map_some, ← htype,
    Store.eq_of_sequence hmem hown (hn.trans hsequence.symm)]
  exact fun kind _ => Iff.rfl

/-! ### A completion with an extension -/

def soloRun : Run where
  sessionId := "session"
  agentId := "agent"
  others _ := []

def started : Iteration := .emitted "agent.started" false 0 false

theorem run_session_status_alone : ∃ last,
    soloRun.runSession {} [started, .emitted "agent.completed" false 0 false, .finished] = some (.finished, last) ∧
    last.store.agents.lookup "agent" = some (ownStatus (last.lifecycle.map Prod.snd)) := by
  have hfacts : (soloRun.runSession {} [started, .emitted "agent.completed" false 0 false, .finished]).map
      (fun result => (result.1, (result.2.store.sessionEvents "session").map (·.sequence), result.2.lifecycle)) =
        some (.finished, [1, 2], some (2, "agent.completed")) := by
    decide
  cases hrun : soloRun.runSession {} [started, .emitted "agent.completed" false 0 false, .finished] with
  | none => rw [hrun] at hfacts; exact nomatch hfacts
  | some result =>
    obtain ⟨ending, last⟩ := result
    rw [hrun, Option.map_some, Option.some.injEq, Prod.mk.injEq, Prod.mk.injEq] at hfacts
    obtain ⟨rfl, hnumbers, hlifecycle⟩ := hfacts
    refine ⟨last, rfl, (run_session_status_iff soloRun {} _ last hrun).mpr (.inl ⟨?_, by rw [hlifecycle]; rfl, ?_⟩)⟩
    · have hlength := congrArg List.length hnumbers
      rw [List.length_map] at hlength
      show (last.store.sessionEvents "session").length ≤ 1000
      rw [hlength]
      decide
    · rw [← List.getLast?_map, show soloRun.sessionId = "session" from rfl, hnumbers, hlifecycle]
      rfl

/-- An extension is told of the completion, its answer is recorded, and the run has failed. -/
theorem completed_run_fails :
    (soloRun.runSession {}
        [started, .emitted "agent.completed" false 1 false, .finished]).map (fun result =>
      (result.1, result.2.lifecycle.map Prod.snd, result.2.store.agents.lookup "agent")) =
    some (.finished, some "agent.completed", some .failed) := by
  decide

end Operant.Sessions
