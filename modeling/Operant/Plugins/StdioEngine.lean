import Mathlib.Data.List.Basic
import Mathlib.Tactic

/-! The engine of a plugin behind two pipes: `StdioPluginEngine`.

The engine writes a request, and reads lines until one is its response; on the way it answers what the plugin asks
of the host. The plugin answers every request and goes on after every answer, in order. A call can end before its
response has been read, and what the plugin then says is read by the next call, unless the process was ended. -/
namespace Operant.Plugins.StdioEngine

/-! ### The plugin -/

/-- What a plugin does for a request: it asks the host, or answers. An error is an answer too. -/
inductive Talk (Callback Answer Result : Type) where
  | respond (result : Result)
  | ask (callback : Callback) (next : Answer → Talk Callback Answer Result)

/-- A line of the plugin's output. -/
inductive Frame (Callback Result : Type) where
  | response (id : Nat) (result : Result)
  | callback (callback : Callback)

def Frame.isResponse {Callback Result : Type} : Frame Callback Result → Bool
  | .response .. => true
  | .callback _ => false

/-- What the plugin waits to be answered, the requests it has not read, and the lines of it nobody has read. -/
structure Worker (Request Callback Answer Result : Type) where
  waiting : Option (Nat × Callback × (Answer → Talk Callback Answer Result)) := none
  requests : List (Nat × Request) := []
  stdout : List (Frame Callback Result) := []

variable {Request Callback Answer Result : Type}

section
variable (plugin : Request → Talk Callback Answer Result)

/-- The plugin goes on with a request, and with those behind it, until it has to wait. -/
def play : Nat → Talk Callback Answer Result → List (Nat × Request) → Worker Request Callback Answer Result
  | id, .ask callback next, requests => ⟨some (id, callback, next), requests, [.callback callback]⟩
  | id, .respond result, [] => ⟨none, [], [.response id result]⟩
  | id, .respond result, (other, request) :: rest =>
    let later := play other (plugin request) rest
    { later with stdout := .response id result :: later.stdout }

namespace Worker
variable (w : Worker Request Callback Answer Result)

/-- A request is written. -/
def receive (id : Nat) (request : Request) : Worker Request Callback Answer Result :=
  match w.waiting with
  | some _ => { w with requests := w.requests ++ [(id, request)] }
  | none =>
    let later := play plugin id (plugin request) []
    { later with stdout := w.stdout ++ later.stdout }

/-- The answer to a callback is written. -/
def reply (answer : Answer) : Worker Request Callback Answer Result :=
  match w.waiting with
  | none => w
  | some (id, _, next) =>
    let later := play plugin id (next answer) w.requests
    { later with stdout := w.stdout ++ later.stdout }

end Worker

/-! ### The engine -/

/-- Why a call ends at a callback, with the process left as it is. -/
inductive Refusal where
  | invalidCallback
  | tooLarge
  | cancelled

/-- What the host makes of a callback: an answer, which may say that it was denied, or the end of the call. -/
inductive Handled (Answer : Type) where
  | answered (answer : Answer)
  | refused (why : Refusal)

inductive Failure where
  | refused (why : Refusal)
  | deadline
  | idMismatch
  | unavailable

/-- What a call meets while it waits for a line. -/
inductive Moment where
  | read
  /-- Its task is cancelled, or its cancel event is set. -/
  | cancelled
  /-- `cancel`, which also ends the process. -/
  | stopped

/-- An `invoke`: whether its request can be written, how the host handles callbacks, and what happens until its
deadline. -/
structure Call (Request Callback Answer : Type) where
  request : Request
  fits : Bool := true
  handle : Callback → Handled Answer
  moments : List Moment

/-- `_read_until_response`, and what becomes of the process. -/
def readUntilResponse (id : Nat) (handle : Callback → Handled Answer) :
    List Moment → Worker Request Callback Answer Result →
      Except Failure Result × Option (Worker Request Callback Answer Result)
  | [], _ => (.error .deadline, none)
  | .cancelled :: _, w => (.error (.refused .cancelled), some w)
  | .stopped :: _, _ => (.error (.refused .cancelled), none)
  | .read :: rest, w => match w.stdout with
    | [] => readUntilResponse id handle rest w
    | .response other result :: stdout =>
      (if other = id then .ok result else .error .idMismatch, some { w with stdout })
    | .callback callback :: stdout => match handle callback with
      | .refused why => (.error (.refused why), some { w with stdout })
      | .answered answer => readUntilResponse id handle rest (Worker.reply plugin { w with stdout } answer)

end

/-- The process, the last id, and the calls that wait for the lock. -/
structure Engine (Request Callback Answer Result : Type) where
  process : Option (Worker Request Callback Answer Result) := none
  requestId : Nat := 0
  waiting : List (Call Request Callback Answer) := []

/-- A call, the process it found when it got the lock, and what `invoke` returned. -/
structure Entry (Request Callback Answer Result : Type) where
  call : Call Request Callback Answer
  found : Option (Worker Request Callback Answer Result)
  answer : Except Failure Result

inductive Step (Request Callback Answer : Type) where
  /-- `start`, and the wait for the lock. -/
  | enter (call : Call Request Callback Answer)
  /-- The first of those that wait gets the lock, and ends. -/
  | turn

section
variable (plugin : Request → Talk Callback Answer Result) (engine : Engine Request Callback Answer Result)

def enter (call : Call Request Callback Answer) : Engine Request Callback Answer Result :=
  { engine with process := some (engine.process.getD {}), waiting := engine.waiting ++ [call] }

/-- A call under the lock: `_write` and `_read_until_response`. A deadline ends the process. -/
def exchange (call : Call Request Callback Answer) :
    Except Failure Result × Option (Worker Request Callback Answer Result) :=
  match engine.process with
  | none => (.error .unavailable, none)
  | some w =>
    if call.fits = false then (.error (.refused .tooLarge), some w)
    else readUntilResponse plugin (engine.requestId + 1) call.handle call.moments
      (w.receive plugin (engine.requestId + 1) call.request)

/-- What the calls of a run return, in the order of the lock. -/
def history (engine : Engine Request Callback Answer Result) :
    List (Step Request Callback Answer) → List (Entry Request Callback Answer Result)
  | [] => []
  | .enter call :: rest => history (enter engine call) rest
  | .turn :: rest => match engine.waiting with
    | [] => history engine rest
    | call :: waiting =>
      let made := exchange plugin engine call
      ⟨call, engine.process, made.1⟩ :: history ⟨made.2, engine.requestId + 1, waiting⟩ rest

end

/-! ### What a call should return -/

namespace Talk
variable (handle : Callback → Handled Answer)

/-- The result of a talk whose callbacks are handled, if it comes while the call waits. -/
def received : List Moment → Talk Callback Answer Result → Option Result
  | .read :: _, .respond result => some result
  | .read :: rest, .ask callback next => match handle callback with
    | .answered answer => received rest (next answer)
    | .refused _ => none
  | _, _ => none

/-- The result comes while the call waits, or the call ends with the process. -/
def whole : List Moment → Talk Callback Answer Result → Bool
  | .read :: _, .respond _ => true
  | .read :: rest, .ask callback next => match handle callback with
    | .answered answer => whole rest (next answer)
    | .refused _ => false
  | .cancelled :: _, _ => false
  | .stopped :: _, _ => true
  | [], _ => true

end Talk

section
variable (plugin : Request → Talk Callback Answer Result)

/-- The answer to the call's own request, if it comes in time. -/
def Call.due (call : Call Request Callback Answer) : Option Result :=
  if call.fits then (plugin call.request).received call.handle call.moments else none

/-- The call is not cut off between its request and its response, except by the end of the process; and then no
other waits for the lock. -/
def Call.Leaves (call : Call Request Callback Answer) (waiting : List (Call Request Callback Answer)) : Prop :=
  call.fits = true → (plugin call.request).whole call.handle call.moments = true ∧
    (waiting = [] ∨ (call.due plugin).isSome = true)

/-- The calls of a run leave nothing behind. -/
def CleanRun : List (Call Request Callback Answer) → List (Step Request Callback Answer) → Prop
  | _, [] => True
  | waiting, .enter call :: rest => CleanRun (waiting ++ [call]) rest
  | [], .turn :: rest => CleanRun [] rest
  | call :: waiting, .turn :: rest => call.Leaves plugin waiting ∧ CleanRun waiting rest

end

/-! ### What a process has to say -/

section
variable {plugin : Request → Talk Callback Answer Result}

@[simp] theorem play_ask (id : Nat) (callback : Callback) (next : Answer → Talk Callback Answer Result)
    (requests : List (Nat × Request)) :
    play plugin id (.ask callback next) requests = ⟨some (id, callback, next), requests, [.callback callback]⟩ := by
  cases requests <;> rfl

theorem receive_waiting {w : Worker Request Callback Answer Result} {id : Nat} {request : Request}
    {ask : Nat × Callback × (Answer → Talk Callback Answer Result)} (h : w.waiting = some ask) :
    w.receive plugin id request = { w with requests := w.requests ++ [(id, request)] } := by
  rw [Worker.receive, h]

theorem receive_reading {w : Worker Request Callback Answer Result} {id : Nat} {request : Request}
    (h : w.waiting = none) :
    w.receive plugin id request = { play plugin id (plugin request) [] with
      stdout := w.stdout ++ (play plugin id (plugin request) []).stdout } := by
  rw [Worker.receive, h]

/-- The ids of the responses nobody has read, and of the talks that are still to be had, meet `p`. A callback nobody
has read is the last line, and the plugin waits for its answer; it reads on when it does not wait. -/
structure Worker.All (p : Nat → Prop) (w : Worker Request Callback Answer Result) : Prop where
  responses : ∀ id result, .response id result ∈ w.stdout → p id
  asks : ∀ id callback next, w.waiting = some (id, callback, next) → p id
  requests : ∀ id request, (id, request) ∈ w.requests → p id
  last : w.stdout.Pairwise fun first _ => first.isResponse = true
  asked : ∀ callback, .callback callback ∈ w.stdout → ∃ id next, w.waiting = some (id, callback, next)
  reads : w.waiting = none → w.requests = []

variable {p q : Nat → Prop} {w : Worker Request Callback Answer Result} {id : Nat}

theorem all_new : (({} : Worker Request Callback Answer Result)).All p := by
  constructor <;> simp

theorem all_mono (h : w.All p) (hpq : ∀ id, p id → q id) : w.All q where
  responses id result hmem := hpq id (h.responses id result hmem)
  asks id callback next hwaiting := hpq id (h.asks id callback next hwaiting)
  requests id request hmem := hpq id (h.requests id request hmem)
  last := h.last
  asked := h.asked
  reads := h.reads

theorem all_play {talk : Talk Callback Answer Result} {requests : List (Nat × Request)} (hid : p id)
    (hrequests : ∀ id request, (id, request) ∈ requests → p id) : (play plugin id talk requests).All p := by
  induction requests generalizing id talk with
  | nil =>
    cases talk with
    | respond result =>
      constructor <;> simp [play]
      exact hid
    | ask callback next =>
      constructor <;> simp [play]
      exact hid
  | cons first rest ih =>
    obtain ⟨other, request⟩ := first
    cases talk with
    | ask callback next =>
      refine ⟨by simp [play], ?_, hrequests, by simp [play], by simp [play], by simp [play]⟩
      intro id callback next hwaiting
      cases hwaiting
      exact hid
    | respond result =>
      have hlater := @ih other (plugin request) (hrequests other request List.mem_cons_self)
        fun id request hmem => hrequests id request (List.mem_cons_of_mem _ hmem)
      refine ⟨?_, hlater.asks, hlater.requests, ?_, ?_, hlater.reads⟩
      · intro id result hmem
        rcases List.mem_cons.mp hmem with heq | hmem
        · cases heq
          exact hid
        · exact hlater.responses id result hmem
      · exact List.pairwise_cons.mpr ⟨fun _ _ => rfl, hlater.last⟩
      · intro callback hmem
        rcases List.mem_cons.mp hmem with heq | hmem
        · cases heq
        · exact hlater.asked callback hmem

theorem all_receive {request : Request} (h : w.All p) (hid : p id) : (w.receive plugin id request).All p := by
  cases hwaiting : w.waiting with
  | some ask =>
    rw [receive_waiting hwaiting]
    refine ⟨h.responses, h.asks, ?_, h.last, h.asked, fun hnone => ?_⟩
    · intro other request' hmem
      rcases List.mem_append.mp hmem with hmem | hmem
      · exact h.requests other request' hmem
      · cases List.mem_singleton.mp hmem
        exact hid
    · rw [hnone] at hwaiting
      cases hwaiting
  | none =>
    have hplay : (play plugin id (plugin request) []).All p := all_play hid (by simp)
    have hresponse : ∀ frame ∈ w.stdout, frame.isResponse = true := by
      intro frame hmem
      cases frame with
      | response other result => rfl
      | callback callback =>
        obtain ⟨id, next, heq⟩ := h.asked callback hmem
        cases hwaiting.symm.trans heq
    rw [receive_reading hwaiting]
    refine ⟨?_, hplay.asks, hplay.requests, ?_, ?_, hplay.reads⟩
    · intro other result hmem
      rcases List.mem_append.mp hmem with hmem | hmem
      · exact h.responses other result hmem
      · exact hplay.responses other result hmem
    · exact List.pairwise_append.mpr ⟨h.last, hplay.last, fun frame hmem _ _ => hresponse frame hmem⟩
    · intro callback hmem
      rcases List.mem_append.mp hmem with hmem | hmem
      · cases hresponse _ hmem
      · exact hplay.asked callback hmem

/-- A callback that is read leaves no line, and the plugin waits for its answer. -/
theorem callback_read {callback : Callback} {stdout : List (Frame Callback Result)} (h : w.All p)
    (hstdout : w.stdout = .callback callback :: stdout) :
    stdout = [] ∧ ∃ id next, w.waiting = some (id, callback, next) ∧ p id := by
  obtain ⟨id, next, hwaiting⟩ := h.asked callback (by rw [hstdout]; exact List.mem_cons_self)
  have hlast := h.last
  rw [hstdout] at hlast
  refine ⟨List.eq_nil_iff_forall_not_mem.mpr fun frame hmem => ?_, id, next, hwaiting, h.asks _ _ _ hwaiting⟩
  cases (List.pairwise_cons.mp hlast).1 frame hmem

theorem all_read {frame : Frame Callback Result} {stdout : List (Frame Callback Result)} (h : w.All p)
    (hstdout : w.stdout = frame :: stdout) : ({ w with stdout } : Worker Request Callback Answer Result).All p where
  responses id result hmem := h.responses id result (by rw [hstdout]; exact List.mem_cons_of_mem _ hmem)
  asks := h.asks
  requests := h.requests
  last := by
    have hlast := h.last
    rw [hstdout] at hlast
    exact (List.pairwise_cons.mp hlast).2
  asked callback hmem := h.asked callback (by rw [hstdout]; exact List.mem_cons_of_mem _ hmem)
  reads := h.reads

/-- An answer to the callback that has been read. -/
theorem all_reply {callback : Callback} {stdout : List (Frame Callback Result)} {answer : Answer} (h : w.All p)
    (hstdout : w.stdout = .callback callback :: stdout) :
    (Worker.reply plugin { w with stdout } answer).All p := by
  obtain ⟨rfl, id, next, hwaiting, hid⟩ := callback_read h hstdout
  unfold Worker.reply
  rw [hwaiting]
  exact all_play hid h.requests

theorem readUntilResponse_all {handle : Callback → Handled Answer} {moments : List Moment} (h : w.All p) :
    ∀ left, (readUntilResponse plugin id handle moments w).2 = some left → left.All p := by
  induction moments generalizing w with
  | nil =>
    intro left hleft
    cases hleft
  | cons moment rest ih =>
    intro left hleft
    cases moment with
    | cancelled =>
      cases hleft
      exact h
    | stopped => cases hleft
    | read =>
      unfold readUntilResponse at hleft
      cases hstdout : w.stdout with
      | nil =>
        rw [hstdout] at hleft
        exact ih h left hleft
      | cons frame stdout =>
        rw [hstdout] at hleft
        cases frame with
        | response other result =>
          cases hleft
          exact all_read h hstdout
        | callback callback =>
          dsimp only at hleft
          cases hhandled : handle callback with
          | refused why =>
            rw [hhandled] at hleft
            cases hleft
            exact all_read h hstdout
          | answered answer =>
            rw [hhandled] at hleft
            exact ih (all_reply h hstdout) left hleft

/-! ### A process with something left -/

/-- Before the response `id`, the process has another to give, or waits for an answer nobody will give. -/
def Worker.Late (id : Nat) (w : Worker Request Callback Answer Result) : Prop :=
  (∃ other result stdout, w.stdout = .response other result :: stdout ∧ other ≠ id) ∨
    (∃ other callback next, w.waiting = some (other, callback, next) ∧ other ≠ id ∧ w.stdout = [.callback callback]) ∨
    (∃ ask, w.waiting = some ask ∧ w.stdout = [])

theorem late_play {other : Nat} {talk : Talk Callback Answer Result} {requests : List (Nat × Request)}
    (hne : other ≠ id) : (play plugin other talk requests).Late id := by
  cases talk with
  | ask callback next =>
    rw [play_ask]
    exact .inr (.inl ⟨other, callback, next, rfl, hne, rfl⟩)
  | respond result =>
    cases requests with
    | nil => exact .inl ⟨other, result, [], rfl, hne⟩
    | cons first rest => exact .inl ⟨other, result, _, rfl, hne⟩

theorem late_receive {request : Request} (h : w.All (· < id)) (hleft : w ≠ {}) :
    (w.receive plugin id request).Late id := by
  cases hwaiting : w.waiting with
  | none =>
    rw [receive_reading hwaiting]
    cases hstdout : w.stdout with
    | nil =>
      -- It would read on, and had nothing to read.
      refine absurd ?_ hleft
      calc w = ⟨w.waiting, w.requests, w.stdout⟩ := rfl
        _ = {} := by rw [hwaiting, h.reads hwaiting, hstdout]
    | cons frame stdout =>
      cases frame with
      | response other result =>
        have hlt : other < id := h.responses other result (by rw [hstdout]; exact List.mem_cons_self)
        exact .inl ⟨other, result, _, rfl, hlt.ne⟩
      | callback callback =>
        obtain ⟨-, _, _, hasked, -⟩ := callback_read h hstdout
        cases hwaiting.symm.trans hasked
  | some ask =>
    rw [receive_waiting hwaiting]
    cases hstdout : w.stdout with
    | nil => exact .inr (.inr ⟨ask, hwaiting, rfl⟩)
    | cons frame stdout =>
      cases frame with
      | response other result =>
        have hlt : other < id := h.responses other result (by rw [hstdout]; exact List.mem_cons_self)
        exact .inl ⟨other, result, stdout, rfl, hlt.ne⟩
      | callback callback =>
        obtain ⟨rfl, other, next, hasked, hlt⟩ := callback_read h hstdout
        exact .inr (.inl ⟨other, callback, next, hasked, Nat.ne_of_lt hlt, rfl⟩)

/-- A call does not get past what is left. -/
theorem late_fails {handle : Callback → Handled Answer} {moments : List Moment} (h : w.Late id) (result : Result) :
    (readUntilResponse plugin id handle moments w).1 ≠ .ok result := by
  induction moments generalizing w with
  | nil => exact fun hok => by cases hok
  | cons moment rest ih =>
    cases moment with
    | cancelled => exact fun hok => by cases hok
    | stopped => exact fun hok => by cases hok
    | read =>
      unfold readUntilResponse
      rcases h with ⟨other, answer, stdout, hstdout, hne⟩ | ⟨other, callback, next, hwaiting, hne, hstdout⟩ |
        ⟨ask, hwaiting, hstdout⟩
      · rw [hstdout]
        dsimp only
        rw [if_neg hne]
        exact fun hok => by cases hok
      · rw [hstdout]
        dsimp only
        cases handle callback with
        | refused why => exact fun hok => by cases hok
        | answered answer =>
          refine ih ?_
          unfold Worker.reply
          rw [hwaiting]
          exact late_play hne
      · rw [hstdout]
        exact ih (.inr (.inr ⟨ask, hwaiting, hstdout⟩))

/-! ### A process with nothing left -/

/-- From a process that has only the talk of this call, the result is the one that is due. -/
theorem readUntilResponse_alone {handle : Callback → Handled Answer} {moments : List Moment}
    {talk : Talk Callback Answer Result} (result : Result) :
    (readUntilResponse plugin id handle moments (play plugin id talk [])).1 = .ok result ↔
      talk.received handle moments = some result := by
  induction moments generalizing talk with
  | nil =>
    cases talk <;> simp [readUntilResponse, Talk.received]
  | cons moment rest ih =>
    cases moment with
    | cancelled =>
      cases talk <;> simp [readUntilResponse, Talk.received]
    | stopped =>
      cases talk <;> simp [readUntilResponse, Talk.received]
    | read =>
      cases talk with
      | respond answer => simp [play, readUntilResponse, Talk.received]
      | ask callback next =>
        simp only [play, readUntilResponse, Talk.received]
        cases handle callback with
        | refused why => simp
        | answered answer => exact ih

/-- After a call that leaves nothing, the process has nothing left, or is ended and the call failed. -/
theorem readUntilResponse_leaves {handle : Callback → Handled Answer} {moments : List Moment}
    {talk : Talk Callback Answer Result} (hwhole : talk.whole handle moments = true) :
    (readUntilResponse plugin id handle moments (play plugin id talk [])).2 =
      (talk.received handle moments).map fun _ => {} := by
  induction moments generalizing talk with
  | nil =>
    cases talk with
    | respond => rfl
    | ask => rfl
  | cons moment rest ih =>
    cases moment with
    | cancelled => cases talk <;> cases hwhole
    | stopped =>
      cases talk with
      | respond => rfl
      | ask => rfl
    | read =>
      cases talk with
      | respond answer => rfl
      | ask callback next =>
        simp only [play, readUntilResponse, Talk.received]
        simp only [Talk.whole] at hwhole
        cases hhandled : handle callback with
        | refused why =>
          rw [hhandled] at hwhole
          cases hwhole
        | answered answer =>
          rw [hhandled] at hwhole
          exact ih hwhole

end

/-! ### The runs of the engine -/

section
variable {plugin : Request → Talk Callback Answer Result} {engine : Engine Request Callback Answer Result}

/-- What the process has to say belongs to requests that were written. -/
def Engine.Written (engine : Engine Request Callback Answer Result) : Prop :=
  ∀ w, engine.process = some w → w.All (· ≤ engine.requestId)

theorem written_enter {call : Call Request Callback Answer} (h : engine.Written) : (enter engine call).Written := by
  intro w hprocess
  cases hold : engine.process with
  | none =>
    rw [enter, hold] at hprocess
    cases hprocess
    exact all_new
  | some old =>
    rw [enter, hold] at hprocess
    cases hprocess
    exact h old hold

theorem written_exchange {call : Call Request Callback Answer} {waiting : List (Call Request Callback Answer)}
    (h : engine.Written) : Engine.Written ⟨(exchange plugin engine call).2, engine.requestId + 1, waiting⟩ := by
  intro left hleft
  unfold exchange at hleft
  cases hprocess : engine.process with
  | none =>
    rw [hprocess] at hleft
    cases hleft
  | some w =>
    have hall : w.All (· ≤ engine.requestId + 1) := all_mono (h w hprocess) fun _ => Nat.le_succ_of_le
    rw [hprocess] at hleft
    dsimp only at hleft
    split at hleft
    · cases hleft
      exact hall
    · exact readUntilResponse_all (all_receive hall (Nat.le_refl _)) left hleft

/-- A call returns a result when it found a process with nothing left and its answer came in time; and then it is
that answer. -/
theorem exchange_iff {call : Call Request Callback Answer} (h : engine.Written) (result : Result) :
    (exchange plugin engine call).1 = .ok result ↔
      engine.process = some {} ∧ call.due plugin = some result := by
  unfold exchange Call.due
  cases hprocess : engine.process with
  | none => simp
  | some w =>
    dsimp only
    cases hfits : call.fits with
    | false => simp
    | true =>
      rw [if_neg Bool.noConfusion, if_pos rfl, Option.some.injEq]
      by_cases hleft : w = {}
      · subst hleft
        rw [and_iff_right rfl]
        exact readUntilResponse_alone result
      · have hlate : (w.receive plugin (engine.requestId + 1) call.request).Late (engine.requestId + 1) :=
          late_receive (all_mono (h w hprocess) fun _ => Nat.lt_succ_of_le) hleft
        exact ⟨fun hok => absurd hok (late_fails hlate result), fun hdue => absurd hdue.1 hleft⟩

/-- A call of a clean run leaves a process with nothing left to those that wait. -/
theorem exchange_leaves {call : Call Request Callback Answer} {waiting : List (Call Request Callback Answer)}
    (hidle : engine.process = some {}) (hleaves : call.Leaves plugin waiting) :
    (exchange plugin engine call).2 = some {} ∨ (exchange plugin engine call).2 = none ∧ waiting = [] := by
  unfold exchange
  rw [hidle]
  dsimp only
  cases hfits : call.fits with
  | false => exact .inl rfl
  | true =>
    obtain ⟨hwhole, hwaits⟩ := hleaves hfits
    rw [if_neg Bool.noConfusion]
    have hprocess := @readUntilResponse_leaves _ _ _ _ plugin (engine.requestId + 1) call.handle call.moments _ hwhole
    unfold Call.due at hwaits
    rw [hfits, if_pos rfl] at hwaits
    unfold Worker.receive
    dsimp only
    cases hreceived : (plugin call.request).received call.handle call.moments with
    | some result => exact .inl (hprocess.trans (by rw [hreceived]; rfl))
    | none =>
      rw [hreceived] at hwaits hprocess
      exact .inr ⟨hprocess, hwaits.resolve_right Bool.noConfusion⟩

theorem history_exact {steps : List (Step Request Callback Answer)} (h : engine.Written) :
    ∀ entry ∈ history plugin engine steps, ∀ result,
      entry.answer = .ok result ↔ entry.found = some {} ∧ entry.call.due plugin = some result := by
  induction steps generalizing engine with
  | nil => exact fun _ hmem => absurd hmem List.not_mem_nil
  | cons step rest ih =>
    cases step with
    | enter call => exact ih (written_enter h)
    | turn =>
      unfold history
      split
      · exact ih h
      · rename_i call waiting hwaiting
        intro entry hmem
        rcases List.mem_cons.mp hmem with rfl | hmem
        · exact exchange_iff h
        · exact ih (written_exchange h) entry hmem

theorem history_clean {steps : List (Step Request Callback Answer)}
    (hidle : engine.process = some {} ∨ engine.process = none ∧ engine.waiting = [])
    (hclean : CleanRun plugin engine.waiting steps) :
    ∀ entry ∈ history plugin engine steps, entry.found = some {} := by
  induction steps generalizing engine with
  | nil => exact fun _ hmem => absurd hmem List.not_mem_nil
  | cons step rest ih =>
    cases step with
    | enter call =>
      refine @ih (enter engine call) (.inl ?_) hclean
      rcases hidle with hidle | ⟨hidle, -⟩ <;> rw [enter, hidle] <;> rfl
    | turn =>
      unfold history
      split
      · rename_i hwaiting
        rw [hwaiting] at hclean
        exact ih hidle (by rw [hwaiting]; exact hclean)
      · rename_i call waiting hwaiting
        rw [hwaiting] at hclean
        obtain ⟨hleaves, hclean⟩ := hclean
        have hfound : engine.process = some {} := by
          rcases hidle with hidle | ⟨-, hnone⟩
          · exact hidle
          · cases hwaiting.symm.trans hnone
        intro entry hmem
        rcases List.mem_cons.mp hmem with rfl | hmem
        · exact hfound
        · exact @ih ⟨(exchange plugin engine call).2, engine.requestId + 1, waiting⟩
            (exchange_leaves hfound hleaves) hclean entry hmem

end

/-- It asks the host for a number and adds it. -/
def adding (request : Nat) : Talk Nat Nat Nat := .ask request fun answer => .respond (request + answer)

/-- The host answers `1`; the call waits for `moments`. -/
def addOne (request : Nat) (moments : List Moment) : Call Nat Nat Nat :=
  { request, handle := fun _ => .answered 1, moments }

/-- The second of three calls meets its deadline, and the third starts another process. -/
def restarted : List (Step Nat Nat Nat) :=
  [.enter (addOne 1 [.read, .read]), .turn, .enter (addOne 2 [.read]), .turn, .enter (addOne 3 [.read, .read]), .turn]

-- The answer that a cancelled call did not wait for is read by the next one.
example : (history adding {} [.enter (addOne 1 [.read, .cancelled]), .turn,
    .enter (addOne 2 [.read, .read]), .turn]).map Entry.answer =
      [.error (.refused .cancelled), .error .idMismatch] := rfl

end Operant.Plugins.StdioEngine
