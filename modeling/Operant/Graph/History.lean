import Operant.Graph.Store
import Operant.Graph.Runtime
import Operant.Calls.Pool

/-! Concurrent callers on one run, and what is known about the past.

The world of a pool of operations is the rows and their history: every call that
committed, with the rows it found, and every operation that returned. What an operation
has read it knows as a fact about the history, and such facts no other caller can undo. -/
namespace Operant.Graph
open Operant.Calls

inductive Event where
  | call (found : GraphStore) (c : RepoCall)
  | returned (op : Op)

/-- The rows, and what happened so far, the latest first. -/
structure World where
  store : GraphStore
  history : List Event := []

/-- The world in which a call has just been committed. -/
abbrev World.committed (w : World) (c : RepoCall) (s : GraphStore) : World :=
  { store := s, history := .call w.store c :: w.history }

/-- A repository that keeps the history. -/
def record (backend : Backend) : Prog.Exec RepoCall RepoCall.Reply GraphError World := fun c w =>
  match backend.exec c w.store with
  | .ok (r, s) => .ok (r, { store := s, history := .call w.store c :: w.history })
  | .error e => .error e

/-- Any number of operations at once. A task is an operation and how many passes its
propagation may make. -/
def callers (backend : Backend) :
    System RepoCall RepoCall.Reply GraphError World (Nat × Op) Unit where
  exec := record backend
  code task := task.2.code task.1
  note task _ w := { w with history := .returned task.2 :: w.history }

/-- Some call found these rows. -/
def World.Found (w : World) (s : GraphStore) : Prop := ∃ c, .call s c ∈ w.history

/-- Histories whose calls had a reason (`J`, in the world they found) and whose operations
returned with something done (`N`). -/
inductive Recorded (start : GraphStore) (J : World → RepoCall → Prop) (N : World → Op → Prop) :
    World → Prop where
  | start : Recorded start J N { store := start }
  | call {w : World} {c : RepoCall} {s : GraphStore} (h : Recorded start J N w)
    (effect : w.store.Effect c s) (reason : J w c) :
    Recorded start J N { store := s, history := .call w.store c :: w.history }
  | returned {w : World} {op : Op} (h : Recorded start J N w) (done : N w op) :
    Recorded start J N { w with history := .returned op :: w.history }

namespace Recorded
variable {start : GraphStore} {J : World → RepoCall → Prop} {N : World → Op → Prop} {w : World}

theorem keyed (h : Recorded start J N w) (hk : start.Keyed) : w.store.Keyed := by
  induction h with
  | start => exact hk
  | call _ effect _ ih => exact effect.keyed ih
  | returned _ _ ih => exact ih

theorem definition (h : Recorded start J N w) : w.store.definition = start.definition := by
  induction h with
  | start => rfl
  | call _ effect _ ih => exact effect.definition.trans ih
  | returned _ _ ih => exact ih

theorem ids (h : Recorded start J N w) :
    w.store.nodeRuns.map NodeRun.id = start.nodeRuns.map NodeRun.id := by
  induction h with
  | start => rfl
  | call _ effect _ ih => exact effect.ids.trans ih
  | returned _ _ ih => exact ih

/-- What the world was when a call of the past was made. -/
theorem past (h : Recorded start J N w) {later past : List Event} {s : GraphStore} {c : RepoCall}
    (hs : w.history = later ++ .call s c :: past) :
    Recorded start J N { store := s, history := past } ∧ J { store := s, history := past } c := by
  induction h generalizing later with
  | start => simp at hs
  | @call w c' s' hw effect reason ih =>
    cases later with
    | nil =>
      cases hs
      exact ⟨hw, reason⟩
    | cons e later => exact ih (List.cons.inj hs).2
  | returned hw done ih =>
    cases later with
    | nil => cases hs
    | cons e later => exact ih (List.cons.inj hs).2

theorem reason (h : Recorded start J N w) {s : GraphStore} {c : RepoCall}
    (hs : .call s c ∈ w.history) :
    ∃ past, past <:+ w.history ∧ Recorded start J N { store := s, history := past } ∧
      J { store := s, history := past } c := by
  obtain ⟨later, past, heq⟩ := List.append_of_mem hs
  refine ⟨past, ?_, h.past heq⟩
  rw [heq]
  exact (List.suffix_cons ..).trans (List.suffix_append ..)

/-- What every call keeps between the rows it finds and those it leaves has been kept since
any call of the past. -/
theorem since (T : GraphStore → GraphStore → Prop)
    (htrans : ∀ {a b c}, T a b → T b c → T a c)
    (hstep : ∀ {w : World} {c s'}, Recorded start J N w → (∀ s, w.Found s → T s w.store) →
      w.store.Effect c s' → J w c → T w.store s')
    (h : Recorded start J N w) {s : GraphStore} (hs : w.Found s) : T s w.store := by
  induction h generalizing s with
  | start =>
    obtain ⟨c, hc⟩ := hs
    simp at hc
  | @call w c s' hw effect reason ih =>
    have hlast := hstep hw (fun s hs => ih hs) effect reason
    obtain ⟨c', hc⟩ := hs
    rcases List.mem_cons.mp hc with heq | hc
    · cases heq
      exact hlast
    · exact htrans (ih ⟨c', hc⟩) hlast
  | returned hw done ih =>
    obtain ⟨c, hc⟩ := hs
    rcases List.mem_cons.mp hc with heq | hc
    · cases heq
    · exact ih ⟨c, hc⟩

/-- A node row of the past is still stored or has been replaced by a later revision. -/
theorem node (h : Recorded start J N w) (hk : start.Keyed) {s : GraphStore} (hs : w.Found s)
    {x y : NodeRun} (hx : x ∈ s.nodeRuns) (hy : y ∈ w.store.nodeRuns) (hid : x.id = y.id) :
    y = x ∨ x.revision < y.revision := by
  have hsince := since (fun s s' => s.Keyed → s'.Keyed ∧
    s'.nodeRuns.map NodeRun.id = s.nodeRuns.map NodeRun.id ∧
    ∀ x ∈ s.nodeRuns, ∀ y ∈ s'.nodeRuns, x.id = y.id → y = x ∨ x.revision < y.revision)
    ?_ ?_ h hs
  · obtain ⟨c, hc⟩ := hs
    obtain ⟨past, -, hpast, -⟩ := h.reason hc
    exact (hsince (hpast.keyed hk)).2.2 x hx y hy hid
  · intro a b c hab hbc ha
    obtain ⟨hb, hids, hab⟩ := hab ha
    obtain ⟨hc, hids', hbc⟩ := hbc hb
    refine ⟨hc, hids'.trans hids, fun x hx y hy hid => ?_⟩
    have hmem : y.id ∈ b.nodeRuns.map NodeRun.id := hids' ▸ List.mem_map_of_mem hy
    obtain ⟨z, hz, hzy⟩ := List.mem_map.mp hmem
    rcases hab x hx z hz (hid.trans hzy.symm) with heq | hlt
    · exact heq ▸ hbc z hz y hy hzy
    · rcases hbc z hz y hy hzy with heq | hlt'
      · exact .inr (heq ▸ hlt)
      · exact .inr (hlt.trans hlt')
  · intro w c s' hw _ effect _ hk'
    exact ⟨effect.keyed hk', effect.ids, fun x hx y hy hid => effect.node hk' hx hy hid⟩

/-- The same for the row of the run. -/
theorem run (h : Recorded start J N w) {s : GraphStore} (hs : w.Found s) :
    w.store.run = s.run ∨ s.run.revision < w.store.run.revision := by
  refine since (fun s s' => s'.run = s.run ∨ s.run.revision < s'.run.revision)
    ?_ (fun _ _ effect _ => effect.run) h hs
  intro a b c hab hbc
  rcases hab with hab | hab <;> rcases hbc with hbc | hbc
  · exact .inl (hbc.trans hab)
  · exact .inr (hab ▸ hbc)
  · exact .inr (hbc ▸ hab)
  · exact .inr (hab.trans hbc)

/-- A row that was stored before some call, and still is, was stored when that call was made. -/
theorem node_between (h : Recorded start J N w) (hk : start.Keyed) {later past : List Event}
    {s s₀ : GraphStore} {c c₀ : RepoCall} (hs : w.history = later ++ .call s c :: past)
    (hs₀ : .call s₀ c₀ ∈ past) {x : NodeRun} (hx₀ : x ∈ s₀.nodeRuns) (hx : x ∈ w.store.nodeRuns) :
    x ∈ s.nodeRuns := by
  have hpast := (h.past hs).1
  have hids : s.nodeRuns.map NodeRun.id = w.store.nodeRuns.map NodeRun.id :=
    hpast.ids.trans h.ids.symm
  have hmem : x.id ∈ s.nodeRuns.map NodeRun.id := by
    rw [hids]
    exact List.mem_map_of_mem hx
  obtain ⟨y, hy, hyx⟩ := List.mem_map.mp hmem
  rcases hpast.node hk ⟨c₀, hs₀⟩ hx₀ hy hyx.symm with heq | hlt
  · exact heq ▸ hy
  · have hfound : w.Found s := ⟨c, by rw [hs]; simp⟩
    rcases h.node hk hfound hy hx hyx with heq | hlt'
    · exact heq ▸ hy
    · omega

end Recorded

/-! ### Runs of a pool -/

theorem createRun_keyed {args : RunRequest} {s : GraphStore} (h : createRun args = .ok s) :
    s.Keyed := by
  unfold createRun at h
  obtain ⟨compiled, -, h⟩ := ok_of_bind h
  dsimp only at h
  split at h
  · cases h
  · rename_i hids
    cases h
    exact ⟨not_not.mp hids, List.nodup_nil⟩

abbrev Callers := Pool RepoCall RepoCall.Reply GraphError World (Nat × Op) Unit

/-- Nobody has called yet. -/
def fresh (start : GraphStore) : Callers := { world := { store := start } }

/-- What is left of the rows after some moves. -/
def after (backend : Backend) (start : GraphStore) (moves : List (Move (Nat × Op))) : GraphStore :=
  (Pool.play (callers backend) (fresh start) moves).world.store

/-- Every call of the run, where it is made, meets `A`. -/
def CallsMeet (backend : Backend) (A : RepoCall → GraphStore → Prop) (start : GraphStore)
    (moves : List (Move (Nat × Op))) : Prop :=
  Pool.Meets (callers backend) (fun c w => A c w.store) (fresh start) moves

instance (backend : Backend) (A : RepoCall → GraphStore → Prop) [∀ c s, Decidable (A c s)]
    (start : GraphStore) (moves : List (Move (Nat × Op))) :
    Decidable (CallsMeet backend A start moves) :=
  Pool.decidableMeets (callers backend) (fresh start) moves

/-- One move: a call commits, an operation returns, or nothing happens. -/
theorem move_world (backend : Backend) (p : Callers) (m : Move (Nat × Op)) :
    (p.move (callers backend) m).world = p.world ∨
    (∃ op, (p.move (callers backend) m).world =
      { p.world with history := .returned op :: p.world.history }) ∨
    ∃ c s, p.world.store.Effect c s ∧ (p.move (callers backend) m).world =
      { store := s, history := .call p.world.store c :: p.world.history } ∧
      ∀ A : RepoCall → World → Prop, Pool.Allows A p m → A c p.world := by
  cases m with
  | start task => exact .inl rfl
  | crash i => exact .inl rfl
  | step i =>
    simp only [Pool.move, Pool.Allows]
    cases ht : p.threads[i]? with
    | none => exact .inl rfl
    | some thread =>
      obtain ⟨task, prog⟩ := thread
      cases prog with
      | ret a => exact .inr (.inl ⟨task.2, rfl⟩)
      | fail e => exact .inl rfl
      | call c k =>
        simp only [callers, record]
        cases he : backend.exec c p.world.store with
        | error e => exact .inl rfl
        | ok reply =>
          obtain ⟨r, s⟩ := reply
          exact .inr (.inr ⟨c, s, GraphStore.effect_of_exec he, rfl, fun A h => h⟩)

/-- What the calls of a run meet, the calls of its history have met. -/
theorem history_meets {backend : Backend} {A : RepoCall → GraphStore → Prop} {p : Callers}
    {moves : List (Move (Nat × Op))}
    (hm : Pool.Meets (callers backend) (fun c w => A c w.store) p moves)
    (hp : ∀ s c, .call s c ∈ p.world.history → A c s) (s : GraphStore) (c : RepoCall)
    (hc : .call s c ∈ (Pool.play (callers backend) p moves).world.history) : A c s := by
  induction moves generalizing p with
  | nil => exact hp s c hc
  | cons m rest ih =>
    refine ih hm.2 (fun s' c' hc' => ?_) hc
    rcases move_world backend p m with heq | ⟨op, heq⟩ | ⟨d, t, -, heq, hallow⟩
    · exact hp s' c' (heq ▸ hc')
    · rw [heq] at hc'
      rcases List.mem_cons.mp hc' with h | h
      · cases h
      · exact hp s' c' h
    · rw [heq] at hc'
      rcases List.mem_cons.mp hc' with h | h
      · cases h
        exact hallow _ hm.1
      · exact hp s' c' h

end Operant.Graph
