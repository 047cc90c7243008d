import Operant.RemoteControl.RelayProofs

/-! Polls come to an envelope, unless too many before it are stuck.

What counts is how many live rows of the queue come before it: an undisturbed poll either comes
to the envelope or acknowledges one of those. -/
namespace Operant.RemoteControl.Relay
open Operant.Tables
open Operant.Scheduler (Instant seconds)

/-- The row waits in the queue of the connector, before this one. -/
def Row.isBefore (row : Row) (c : Connector) (e : Row) : Bool :=
  row.isFor c.session.remoteSessionId c.session.hostId && row.isLive && row.key < e.key

/-- How many rows that meet `p` wait before this one. -/
def State.ahead (s : State) (c : Connector) (e : Row) (p : Row → Bool) : Nat :=
  s.rows.countP fun row => row.isBefore c e && p row

/-- The operation publishes something before the envelope. -/
def Operation.overtakes (envelope : RelayEnvelope) : Operation → Bool
  | .publish other _ => other.routeRef = envelope.routeRef && other.recipientRef = envelope.recipientRef &&
    other.createdAt < envelope.createdAt
  | .pull .. | .acknowledge .. | .health _ => false

section Counts
variable {s s' : State} {c : Connector} {e : Row} {p : Row → Bool} {spared fresh : Row → Prop}

theorem Row.Becomes.before {a b : Row} (h : a.Becomes b) (hb : b.isBefore c e = true) :
    a.isBefore c e = true := by
  simp only [Row.isBefore, Bool.and_eq_true, decide_eq_true_eq] at hb ⊢
  rw [← h.isFor, ← h.key]
  exact ⟨⟨hb.1.1, h.live hb.1.2⟩, hb.2⟩

/-- Rows before another one only get fewer. -/
theorem State.Evolves.ahead_le (h : s.Evolves spared fresh s')
    (hfresh : ∀ row, fresh row → row.isBefore c e = false) (hp : ∀ a b : Row, a.Becomes b → p b = p a) :
    s'.ahead c e p ≤ s.ahead c e p := by
  obtain ⟨f, more, heq, hf, hmore⟩ := h.rows
  unfold State.ahead
  have hnone : more.countP (fun row => row.isBefore c e && p row) = 0 := by
    rw [List.countP_eq_zero]
    intro row hrow
    rw [hfresh row (hmore row hrow)]
    exact Bool.false_ne_true
  rw [heq, List.countP_append, hnone, List.countP_map]
  apply List.countP_mono_left
  intro row hrow hq
  rw [Function.comp_apply, Bool.and_eq_true] at hq
  rw [Bool.and_eq_true, ← hp _ _ (hf row hrow).1]
  exact ⟨(hf row hrow).1.before hq.1, hq.2⟩

/-- One that was retired is one less. -/
theorem State.Evolves.ahead_lt (h : s.Evolves spared fresh s') (hi : s'.Inv)
    (hfresh : ∀ row, fresh row → row.isBefore c e = false) {row : Row} (hrow : row ∈ s.rows)
    (hbefore : row.isBefore c e = true) (hretired : s'.isRetired row.envelope.envelopeId) :
    (s'.ahead c e fun _ => true) < s.ahead c e fun _ => true := by
  obtain ⟨f, more, heq, hf, hmore⟩ := h.rows
  have hdead : (f row).isLive = false := by
    obtain ⟨other, hother, hid, hdead⟩ := hretired
    have hmem : f row ∈ s'.rows := by
      rw [heq]
      exact List.mem_append_left _ (List.mem_map_of_mem hrow)
    rw [← eq_of_key hi.ids hother hmem (hid.trans (hf row hrow).1.id.symm)]
    exact hdead
  unfold State.ahead
  have hnone : more.countP (fun row => row.isBefore c e && true) = 0 := by
    rw [List.countP_eq_zero]
    intro row hrow
    rw [hfresh row (hmore row hrow)]
    exact Bool.false_ne_true
  rw [heq, List.countP_append, hnone, List.countP_map, Nat.add_zero]
  apply countP_lt_countP ?_ hrow
  · simp [Row.isBefore, hdead]
  · rw [hbefore]
    rfl
  · intro other hother hq
    rw [Function.comp_apply, Bool.and_true] at hq
    rw [Bool.and_true]
    exact (hf other hother).1.before hq

/-- Rows that are spared stay before another one. -/
theorem State.Evolves.le_ahead (h : s.Evolves spared fresh s')
    (hspared : ∀ row ∈ s.rows, p row = true → spared row) (hp : ∀ a b : Row, a.Becomes b → p b = p a) :
    s.ahead c e p ≤ s'.ahead c e p := by
  obtain ⟨f, more, heq, hf, -⟩ := h.rows
  unfold State.ahead
  rw [heq, List.countP_append, List.countP_map]
  apply Nat.le_add_right_of_le
  apply List.countP_mono_left
  intro row hrow hq
  simp only [Row.isBefore, Bool.and_eq_true, decide_eq_true_eq] at hq
  obtain ⟨hbecomes, hlive⟩ := hf row hrow
  simp only [Function.comp_apply, Row.isBefore, Bool.and_eq_true, decide_eq_true_eq]
  rw [hbecomes.isFor, hbecomes.key, hp _ _ hbecomes]
  exact ⟨⟨⟨hq.1.1.1, hlive (hspared row hrow hq.2) hq.1.1.2⟩, hq.1.2⟩, hq.2⟩

end Counts

/-! ### One poll -/

section Polls
variable {s : State} {c : Connector} {poll : Poll}

/-- The rows of the page that a poll pulls. -/
def State.due (s : State) (c : Connector) (now : Instant) : List Row :=
  page Row.key (fun row => row.isDue c.session.remoteSessionId c.session.hostId now) s.rows c.limit

/-- What has lapsed is not due, before or after it is marked. -/
theorem due_expire (now : Instant) : page Row.key
    (fun row => row.isDue c.session.remoteSessionId c.session.hostId now) (s.expire now).rows c.limit =
      s.due c now := by
  have hfilter : (s.expire now).rows.filter
      (fun row => row.isDue c.session.remoteSessionId c.session.hostId now) =
        s.rows.filter fun row => row.isDue c.session.remoteSessionId c.session.hostId now := by
    show (update s.rows _ _).filter _ = _
    rw [filter_update]
    · apply update_eq_self
      intro row hrow
      have hdue := (List.mem_filter.mp hrow).2
      simp only [Row.isDue, Bool.and_eq_true, decide_eq_true_eq] at hdue
      rw [Row.lapses, decide_eq_false (not_le.mpr hdue.2), Bool.and_false]
    · intro row _ hlapses
      simp only [Row.lapses, Bool.and_eq_true, decide_eq_true_eq] at hlapses
      rw [Row.isDue, Row.isDue, decide_eq_false (not_lt.mpr hlapses.2), Bool.and_false]
      exact Bool.and_eq_false_imp.mpr fun h => by simp [Row.expired, not_lt.mpr hlapses.2]
  unfold page State.due page
  rw [hfilter]

/-- An acknowledgement that finds its row takes it from the queue, and no other. -/
theorem acknowledge_ready (hi : s.Inv) {id recipientRef : String} {now : Instant}
    (h : ∃ row ∈ s.rows, row.isDeliverable id recipientRef now = true) :
    ∃ s', s.acknowledge id recipientRef now = (.ok (), s') ∧ s'.isRetired id ∧
      ∀ row ∈ s.rows, row.envelope.envelopeId ≠ id → row ∈ s'.rows := by
  obtain ⟨row, hrow, hp⟩ := h
  have hid : ∀ other ∈ s.rows, other.isDeliverable id recipientRef now = true →
      other.envelope.envelopeId = id := by
    intro other _ hother
    simp only [Row.isDeliverable, Bool.and_eq_true, decide_eq_true_eq] at hother
    exact hother.1.1.1
  have hone := rowcount_of_key hi.ids hid hrow hp
  refine ⟨_, by unfold State.acknowledge; rw [if_neg (not_not.mpr hone)], ?_, ?_⟩
  · refine ⟨row.acknowledged now, ?_, hid row hrow hp, rfl⟩
    exact mem_update.mpr (.inl ⟨row, hrow, hp, rfl⟩)
  · intro other hother hne
    refine mem_update.mpr (.inr ⟨hother, ?_⟩)
    by_contra hdeliverable
    rw [Bool.not_eq_false] at hdeliverable
    exact hne (hid other hother hdeliverable)

/-- The acknowledgement of an envelope will find its row. -/
def Ready (c : Connector) (poll : Poll) (s : State) (envelope : RelayEnvelope) : Prop :=
  c.opensEnvelope envelope = true → poll.raises envelope.envelopeId = false →
    ∃ row ∈ s.rows, row.isDeliverable envelope.envelopeId c.session.hostId
      (poll.acknowledgedAt envelope.envelopeId) = true

/-- What a poll leaves is what it acknowledges. -/
theorem handleEach_ops (c : Connector) (poll : Poll) (envelopes : List RelayEnvelope) (s : State) :
    ∃ ops : List Operation, (handleEach c poll envelopes s).2 = ops.foldl State.apply s ∧
      ∀ op ∈ ops, ∃ id ∈ (handleEach c poll envelopes s).1,
        op = .acknowledge id c.session.hostId (poll.acknowledgedAt id) := by
  induction envelopes generalizing s with
  | nil => exact ⟨[], rfl, fun _ h => nomatch h⟩
  | cons envelope rest ih =>
    unfold handleEach
    split
    · exact ih s
    · split
      · obtain ⟨ops, heq, hops⟩ := ih s
        refine ⟨ops, heq, fun op hop => ?_⟩
        obtain ⟨id, hid, h⟩ := hops op hop
        exact ⟨id, List.mem_cons_of_mem _ hid, h⟩
      · split
        · rename_i e s' hack
          refine ⟨[.acknowledge envelope.envelopeId c.session.hostId
            (poll.acknowledgedAt envelope.envelopeId)], ?_, ?_⟩
          · show s' = (s.acknowledge _ _ _).2
            rw [hack]
          · intro op hop
            exact ⟨envelope.envelopeId, List.mem_singleton_self _, List.mem_singleton.mp hop⟩
        · rename_i s' hack
          obtain ⟨ops, heq, hops⟩ := ih s'
          refine ⟨.acknowledge envelope.envelopeId c.session.hostId
            (poll.acknowledgedAt envelope.envelopeId) :: ops, ?_, ?_⟩
          · show _ = ops.foldl State.apply (s.acknowledge _ _ _).2
            rw [hack]
            exact heq
          · intro op hop
            cases List.mem_cons.mp hop with
            | inl hfirst => exact ⟨envelope.envelopeId, List.mem_cons_self .., hfirst⟩
            | inr hrest =>
              obtain ⟨id, hid, h⟩ := hops op hrest
              exact ⟨id, List.mem_cons_of_mem _ hid, h⟩

section Loop
variable {envelope : RelayEnvelope} {rest : List RelayEnvelope}

theorem handleEach_closed (hclosed : c.opensEnvelope envelope = false) :
    handleEach c poll (envelope :: rest) s = handleEach c poll rest s := by
  rw [handleEach, hclosed]
  rfl

theorem handleEach_raising (hopens : c.opensEnvelope envelope = true)
    (hraises : poll.raises envelope.envelopeId = true) :
    handleEach c poll (envelope :: rest) s =
      (envelope.envelopeId :: (handleEach c poll rest s).1, (handleEach c poll rest s).2) := by
  rw [handleEach, hopens, hraises]
  rfl

theorem handleEach_acknowledged (hopens : c.opensEnvelope envelope = true)
    (hraises : poll.raises envelope.envelopeId = false) {s' : State}
    (hack : s.acknowledge envelope.envelopeId c.session.hostId
      (poll.acknowledgedAt envelope.envelopeId) = (.ok (), s')) :
    handleEach c poll (envelope :: rest) s =
      (envelope.envelopeId :: (handleEach c poll rest s').1, (handleEach c poll rest s').2) := by
  rw [handleEach, hopens, hraises, hack]
  rfl

end Loop

/-- Where every acknowledgement finds its row, the loop gets past envelopes, and takes those it
opens from the queue, unless their submission raises. -/
theorem handleEach_past (c : Connector) (poll : Poll) (hi : s.Inv) {before after : List RelayEnvelope}
    (hids : ((before ++ after).map RelayEnvelope.envelopeId).Nodup)
    (hready : ∀ envelope ∈ before, Ready c poll s envelope) :
    ∃ s' handed, s'.Inv ∧ s.Evolves (fun _ => False) (fun _ => False) s' ∧
      handleEach c poll (before ++ after) s =
        (handed ++ (handleEach c poll after s').1, (handleEach c poll after s').2) ∧
      ∀ envelope ∈ before, c.opensEnvelope envelope = true → poll.raises envelope.envelopeId = false →
        s'.isRetired envelope.envelopeId := by
  induction before generalizing s with
  | nil => exact ⟨s, [], hi, .refl s, rfl, fun _ h => by cases h⟩
  | cons envelope rest ih =>
    have hrestIds : ((rest ++ after).map RelayEnvelope.envelopeId).Nodup := (List.nodup_cons.mp hids).2
    have hrest : ∀ other ∈ rest, Ready c poll s other := fun other h =>
      hready other (List.mem_cons_of_mem _ h)
    rw [List.cons_append]
    cases hopen : c.opensEnvelope envelope with
    | false =>
      obtain ⟨s', handed, hinv, hevolves, heq, hretired⟩ := ih hi hrestIds hrest
      refine ⟨s', handed, hinv, hevolves, (handleEach_closed hopen).trans heq, ?_⟩
      intro other hother hopens hraises
      cases List.mem_cons.mp hother with
      | inl hfirst =>
        rw [hfirst, hopen] at hopens
        cases hopens
      | inr hlater => exact hretired other hlater hopens hraises
    | true =>
      cases hraise : poll.raises envelope.envelopeId with
      | true =>
        obtain ⟨s', handed, hinv, hevolves, heq, hretired⟩ := ih hi hrestIds hrest
        refine ⟨s', envelope.envelopeId :: handed, hinv, hevolves, ?_, ?_⟩
        · rw [handleEach_raising hopen hraise, heq]
          rfl
        · intro other hother hopens hraises
          cases List.mem_cons.mp hother with
          | inl hfirst =>
            rw [hfirst, hraise] at hraises
            cases hraises
          | inr hlater => exact hretired other hlater hopens hraises
      | false =>
        obtain ⟨s₁, hack, hdone, hkept⟩ :=
          acknowledge_ready hi (hready envelope (List.mem_cons_self ..) hopen hraise)
        have hstep := acknowledge_evolves hi envelope.envelopeId c.session.hostId
          (poll.acknowledgedAt envelope.envelopeId) fun _ => False
        rw [hack] at hstep
        have hfirst : s.Evolves (fun _ => False) (fun _ => False) s₁ :=
          hstep.2.mono (fun _ h => h.elim) fun _ h => h
        have hready₁ : ∀ other ∈ rest, Ready c poll s₁ other := by
          intro other hother hopens hraises
          obtain ⟨row, hrow, hp⟩ := hrest other hother hopens hraises
          refine ⟨row, hkept row hrow ?_, hp⟩
          simp only [Row.isDeliverable, Bool.and_eq_true, decide_eq_true_eq] at hp
          rw [hp.1.1.1]
          intro hsame
          apply (List.nodup_cons.mp hids).1
          rw [← hsame]
          exact List.mem_map_of_mem (List.mem_append_left _ hother)
        obtain ⟨s', handed, hinv, hevolves, heq, hretired⟩ := ih hstep.1 hrestIds hready₁
        refine ⟨s', envelope.envelopeId :: handed, hinv,
          hfirst.trans hevolves (fun _ _ _ h => h) fun _ _ _ h => h, ?_, ?_⟩
        · rw [handleEach_acknowledged hopen hraise hack, heq]
          rfl
        · intro other hother hopens hraises
          cases List.mem_cons.mp hother with
          | inl hsame =>
            rw [hsame]
            exact hevolves.retired hdone
          | inr hlater => exact hretired other hlater hopens hraises

/-- An envelope that opens is handed over when the loop comes to it. -/
theorem handleEach_first {envelope : RelayEnvelope} {rest : List RelayEnvelope}
    (hopens : c.opensEnvelope envelope = true) :
    envelope.envelopeId ∈ (handleEach c poll (envelope :: rest) s).1 := by
  unfold handleEach
  rw [hopens]
  split
  · rename_i hclosed
    exact nomatch hclosed
  · split
    · exact List.mem_cons_self ..
    · split
      · exact List.mem_cons_self ..
      · exact List.mem_cons_self ..

theorem mem_due (hi : s.Inv) {now : Instant} {row : Row} :
    row ∈ s.due c now ↔
      (row ∈ s.rows ∧ row.isDue c.session.remoteSessionId c.session.hostId now = true) ∧
        s.rows.countP (fun other => other.isDue c.session.remoteSessionId c.session.hostId now &&
          other.key < row.key) < c.limit :=
  mem_page hi.keys

/-- What a poll pulls, and where that leaves the rows. -/
theorem pull_due (c : Connector) (poll : Poll) (hi : s.Inv) (hlimit : 1 ≤ c.limit ∧ c.limit ≤ 50) :
    ∃ s', s.pull c.session.remoteSessionId c.session.hostId c.limit poll.now =
        (.ok ((s.due c poll.now).map fun row => (row.delivered poll.now).envelope), s') ∧
      s'.Inv ∧ s.Evolves (fun row => poll.now < row.envelope.expiresAt) (fun _ => False) s' ∧
      ∀ row ∈ s.due c poll.now, poll.acknowledgedAt row.envelope.envelopeId < row.envelope.expiresAt →
        Ready c poll s' (row.delivered poll.now).envelope := by
  obtain ⟨hinv, hevolves⟩ := pull_evolves hi c.session.remoteSessionId c.session.hostId c.limit poll.now
    (fun _ => False) fun _ _ _ h => h
  refine ⟨_, ?_, hinv, hevolves, ?_⟩
  · unfold State.pull
    rw [if_neg (not_not.mpr hlimit)]
    dsimp only [State.pullEnvelopes]
    rw [due_expire]
  · intro row hrow hexpiry _ _
    have hmem : row ∈ (s.expire poll.now).rows := by
      rw [← due_expire] at hrow
      exact (of_mem_page hrow).1
    have hdue := (of_mem_page hrow).2
    simp only [Row.isDue, Row.isFor, Bool.and_eq_true, decide_eq_true_eq] at hdue
    refine ⟨row.delivered poll.now, ?_, ?_⟩
    · unfold State.pull
      rw [if_neg (not_not.mpr hlimit)]
      dsimp only [State.pullEnvelopes]
      rw [due_expire]
      exact mem_update.mpr (.inl ⟨row, hmem, decide_eq_true (List.mem_map_of_mem hrow), rfl⟩)
    · simp [Row.isDeliverable, Row.delivered, hdue.1.1.2, hexpiry]

/-- A poll spares what it does not hand over, unless that has expired. -/
theorem pollOnce_evolves (hi : s.Inv) (c : Connector) (poll : Poll) :
    (pollOnce c s poll).2.Inv ∧
      s.Evolves (fun row => poll.now < row.envelope.expiresAt ∧
        row.envelope.envelopeId ∉ (pollOnce c s poll).1) (fun _ => False) (pollOnce c s poll).2 := by
  obtain ⟨hinv, hevolves⟩ := pull_evolves hi c.session.remoteSessionId c.session.hostId c.limit poll.now
    (fun _ => False) fun _ _ _ h => h
  unfold pollOnce
  split
  · rename_i s' hpull
    rw [hpull] at hinv hevolves
    exact ⟨hinv, hevolves.mono (fun _ h => h.1) fun _ h => h⟩
  · rename_i envelopes s' hpull
    rw [hpull] at hinv hevolves
    obtain ⟨ops, heq, hops⟩ := handleEach_ops c poll envelopes s'
    obtain ⟨hinv', hevolves'⟩ := foldl_evolves hinv ops
    rw [heq]
    refine ⟨hinv', (hevolves.mono (fun _ h => h.1) fun _ h => h).trans (hevolves'.mono ?_ ?_) ?_
      fun _ _ _ h => h⟩
    · intro row hrow op hop
      obtain ⟨id, hid, rfl⟩ := hops op hop
      apply decide_eq_false
      intro hsame
      rw [hsame] at hid
      exact hrow.2 hid
    · intro row hrow
      obtain ⟨-, envelope, now, hop, -⟩ := hrow
      obtain ⟨id, -, h⟩ := hops _ hop
      exact nomatch h
    · intro a b h hspared
      rw [h.expiry, h.id]
      exact hspared

/-- The row keeps its place for this connector: what it holds does not open, or its submission
raises. -/
def Row.isStuck (row : Row) (c : Connector) (raises : String → Bool) : Bool :=
  !c.opensEnvelope row.envelope || raises row.envelope.envelopeId

/-- An undisturbed poll comes to an envelope, or takes one that was before it from the queue. -/
theorem poll_advances (hi : s.Inv) (hlimit : 1 ≤ c.limit ∧ c.limit ≤ 50) {e : Row} (he : e ∈ s.rows)
    (hdue : e.isDue c.session.remoteSessionId c.session.hostId poll.now = true)
    (hopens : c.opensEnvelope e.envelope = true)
    (hacks : ∀ row ∈ s.rows, row.isBefore c e = true → poll.now < row.envelope.expiresAt →
      poll.acknowledgedAt row.envelope.envelopeId < row.envelope.expiresAt)
    (hstuck : (s.ahead c e fun row => row.isStuck c poll.raises) < c.limit) :
    e.envelope.envelopeId ∈ (pollOnce c s poll).1 ∨
      ((pollOnce c s poll).2.ahead c e fun _ => true) < s.ahead c e fun _ => true := by
  obtain ⟨s₁, hpull, hinv₁, hevolves₁, hready₁⟩ := pull_due c poll hi hlimit
  have hpoll : pollOnce c s poll =
      handleEach c poll ((s.due c poll.now).map fun row => (row.delivered poll.now).envelope) s₁ := by
    unfold pollOnce
    rw [hpull]
  have hids : (((s.due c poll.now).map fun row => (row.delivered poll.now).envelope).map
      RelayEnvelope.envelopeId).Nodup := by
    rw [List.map_map]
    exact nodup_map_page hi.ids
  -- Rows of the page that are before the envelope can be acknowledged.
  have hready : ∀ row ∈ s.due c poll.now, row.key < e.key → row.isBefore c e = true ∧
      Ready c poll s₁ (row.delivered poll.now).envelope := by
    intro row hrow hkey
    obtain ⟨hmem, hrowDue⟩ := of_mem_page hrow
    simp only [Row.isDue, Bool.and_eq_true, decide_eq_true_eq] at hrowDue
    have hbefore : row.isBefore c e = true := by
      simp only [Row.isBefore, Bool.and_eq_true, decide_eq_true_eq]
      exact ⟨hrowDue.1, hkey⟩
    exact ⟨hbefore, hready₁ row hrow (hacks row hmem hbefore hrowDue.2)⟩
  by_cases hpage : e ∈ s.due c poll.now
  · -- The poll gets past what is before it on the page.
    left
    obtain ⟨before, after, heq⟩ := List.append_of_mem hpage
    have hpairs : (s.due c poll.now).Pairwise fun a b => a.key < b.key := pairwise_page hi.keys
    rw [heq] at hpairs
    have hkeys : ∀ row ∈ before, row.key < e.key := fun row hrow =>
      (List.pairwise_append.mp hpairs).2.2 row hrow e (List.mem_cons_self ..)
    rw [hpoll, heq, List.map_append, List.map_cons]
    rw [heq, List.map_append, List.map_cons] at hids
    obtain ⟨s₂, handed, -, -, hpast, -⟩ := handleEach_past c poll hinv₁ hids (by
      intro envelope henvelope
      obtain ⟨row, hrow, rfl⟩ := List.mem_map.mp henvelope
      exact (hready row (heq ▸ List.mem_append_left _ hrow) (hkeys row hrow)).2)
    rw [hpast]
    exact List.mem_append_right _ (handleEach_first hopens)
  · -- The whole page is before it, and some of that is not stuck.
    right
    have hfull : c.limit ≤ s.rows.countP fun row =>
        row.isDue c.session.remoteSessionId c.session.hostId poll.now && row.key < e.key := by
      by_contra hlt
      exact hpage ((mem_due hi).mpr ⟨⟨he, hdue⟩, by omega⟩)
    have hbefore : ∀ row ∈ s.due c poll.now, row.key < e.key := by
      intro row hrow
      by_contra hkey
      obtain ⟨-, hcount⟩ := (mem_due hi).mp hrow
      have hle : s.rows.countP (fun other =>
          other.isDue c.session.remoteSessionId c.session.hostId poll.now && other.key < e.key) ≤
          s.rows.countP fun other =>
            other.isDue c.session.remoteSessionId c.session.hostId poll.now && other.key < row.key := by
        apply List.countP_mono_left
        intro other _ hother
        simp only [Bool.and_eq_true, decide_eq_true_eq] at hother ⊢
        exact ⟨hother.1, lt_of_lt_of_le hother.2 (not_lt.mp hkey)⟩
      omega
    have hlength : (s.due c poll.now).length = c.limit := by
      have hle : s.rows.countP (fun row =>
          row.isDue c.session.remoteSessionId c.session.hostId poll.now && row.key < e.key) ≤
          s.rows.countP fun row => row.isDue c.session.remoteSessionId c.session.hostId poll.now := by
        apply List.countP_mono_left
        intro row _ hrow
        exact (Bool.and_eq_true_iff.mp hrow).1
      unfold State.due
      rw [length_page]
      omega
    have hfree : ∃ row ∈ s.due c poll.now, row.isStuck c poll.raises = false := by
      by_contra hnone
      have hall : ∀ row ∈ s.due c poll.now, row ∈ s.rows.filter fun row =>
          row.isBefore c e && row.isStuck c poll.raises := by
        intro row hrow
        apply List.mem_filter.mpr
        refine ⟨(of_mem_page hrow).1, ?_⟩
        rw [(hready row hrow (hbefore row hrow)).1, Bool.true_and]
        by_contra hfree
        rw [Bool.not_eq_true] at hfree
        exact hnone ⟨row, hrow, hfree⟩
      have hnodup : (s.due c poll.now).Nodup := (nodup_map_page hi.keys).of_map _
      have hle := (hnodup.subperm hall).length_le
      have hlt : s.rows.countP (fun row => row.isBefore c e && row.isStuck c poll.raises) < c.limit :=
        hstuck
      rw [← List.countP_eq_length_filter, hlength] at hle
      omega
    obtain ⟨row, hrow, hfree⟩ := hfree
    rw [Row.isStuck, Bool.or_eq_false_iff, Bool.not_eq_false'] at hfree
    have hidsAll : ((((s.due c poll.now).map fun row : Row => (row.delivered poll.now).envelope) ++ []).map
        RelayEnvelope.envelopeId).Nodup := by
      rw [List.append_nil]
      exact hids
    have hpast := handleEach_past c poll hinv₁ hidsAll (by
      intro envelope henvelope
      obtain ⟨row, hrow, rfl⟩ := List.mem_map.mp henvelope
      exact (hready row hrow (hbefore row hrow)).2)
    obtain ⟨s₂, handed, hinv₂, hevolves₂, heq, hretired⟩ := hpast
    rw [List.append_nil] at heq
    rw [hpoll, heq]
    have hevolves : s.Evolves (fun _ => False) (fun _ => False) s₂ :=
      (hevolves₁.mono (fun _ h => h.elim) fun _ h => h).trans hevolves₂ (fun _ _ _ h => h) fun _ _ _ h => h
    exact hevolves.ahead_lt hinv₂ (fun _ h => h.elim) (of_mem_page hrow).1
      (hready row hrow (hbefore row hrow)).1
      (hretired (row.delivered poll.now).envelope (List.mem_map.mpr ⟨row, hrow, rfl⟩) hfree.1 hfree.2)

/-- What a poll hands over was on its page, and opened. -/
theorem handleEach_handed {id : String} {envelopes : List RelayEnvelope}
    (h : id ∈ (handleEach c poll envelopes s).1) :
    ∃ envelope ∈ envelopes, envelope.envelopeId = id ∧ c.opensEnvelope envelope = true := by
  induction envelopes generalizing s with
  | nil => exact nomatch h
  | cons envelope rest ih =>
    have hrest : ∀ {s : State}, id ∈ (handleEach c poll rest s).1 → ∃ other ∈ envelope :: rest,
        other.envelopeId = id ∧ c.opensEnvelope other = true := by
      intro s hmem
      obtain ⟨other, hother, hall⟩ := ih hmem
      exact ⟨other, List.mem_cons_of_mem _ hother, hall⟩
    cases hopen : c.opensEnvelope envelope with
    | false =>
      rw [handleEach_closed hopen] at h
      exact hrest h
    | true =>
      have hfirst : id = envelope.envelopeId → ∃ other ∈ envelope :: rest,
          other.envelopeId = id ∧ c.opensEnvelope other = true :=
        fun heq => ⟨envelope, List.mem_cons_self .., heq.symm, hopen⟩
      rw [handleEach, hopen] at h
      rw [Bool.not_true, if_neg Bool.false_ne_true] at h
      split at h
      · cases List.mem_cons.mp h with
        | inl heq => exact hfirst heq
        | inr hmem => exact hrest hmem
      · split at h
        · exact hfirst (List.mem_singleton.mp h)
        · cases List.mem_cons.mp h with
          | inl heq => exact hfirst heq
          | inr hmem => exact hrest hmem

theorem pollOnce_handed {id : String} (h : id ∈ (pollOnce c s poll).1) :
    ∃ row ∈ s.due c poll.now, row.envelope.envelopeId = id ∧ c.opensEnvelope row.envelope = true := by
  unfold pollOnce State.pull at h
  split at h
  · exact nomatch h
  · rename_i envelopes s' hpull
    split at hpull
    · exact nomatch hpull
    · dsimp only [State.pullEnvelopes] at hpull
      rw [due_expire] at hpull
      obtain ⟨envelope, henvelope, hid, hopens⟩ := handleEach_handed h
      cases hpull
      obtain ⟨row, hrow, rfl⟩ := List.mem_map.mp henvelope
      exact ⟨row, hrow, hid, hopens⟩

end Polls

/-! ### Many polls -/

/-- The envelope waits for this connector through the rounds: it opens, it does not expire, and
nobody else acknowledges it. -/
structure Waits (c : Connector) (rounds : List Round) (s : State) (e : Row) : Prop where
  row : e ∈ s.rows
  live : e.isLive = true
  addressed : e.isFor c.session.remoteSessionId c.session.hostId = true
  opens : c.opensEnvelope e.envelope = true
  spared : ∀ round ∈ rounds, (∀ op ∈ round.others, op.mayRetire e.envelope = false) ∧
    round.poll.now < e.envelope.expiresAt

/-- Nothing is published before the envelope, and what is pulled before it does not expire before
it is acknowledged. -/
structure Undisturbed (c : Connector) (rounds : List Round) (s : State) (e : Row) : Prop where
  order : ∀ round ∈ rounds, ∀ op ∈ round.others, op.overtakes e.envelope = false
  acks : ∀ row ∈ s.rows, row.isBefore c e = true → ∀ round ∈ rounds,
    round.poll.now < row.envelope.expiresAt →
      round.poll.acknowledgedAt row.envelope.envelopeId < row.envelope.expiresAt

/-- The submission of the envelope raises in one of the rounds. -/
def raisesIn (rounds : List Round) (id : String) : Bool := rounds.any fun round => round.poll.raises id

section Rounds
variable {s s' : State} {c : Connector} {e : Row} {rounds : List Round}

theorem Row.Becomes.isBefore {e e' : Row} (h : e.Becomes e') (c : Connector) (row : Row) :
    row.isBefore c e' = row.isBefore c e := by
  unfold Row.isBefore
  rw [h.key]

theorem Row.Becomes.ahead {e e' : Row} (h : e.Becomes e') (s : State) (c : Connector) (p : Row → Bool) :
    s.ahead c e' p = s.ahead c e p := by
  unfold State.ahead
  simp only [h.isBefore]

theorem ahead_mono {p q : Row → Bool} (h : ∀ row, p row = true → q row = true) :
    s.ahead c e p ≤ s.ahead c e q := by
  apply List.countP_mono_left
  intro row _ hrow
  rw [Bool.and_eq_true] at hrow ⊢
  exact ⟨hrow.1, h row hrow.2⟩

theorem stuck_becomes (c : Connector) (raises : String → Bool) (a b : Row) (h : a.Becomes b) :
    b.isStuck c raises = a.isStuck c raises := by
  unfold Row.isStuck
  rw [h.opens, h.id]

/-- What is published comes after what is there, unless it overtakes. -/
theorem published_after (hi : s.Inv) (he : e ∈ s.rows)
    (hfor : e.isFor c.session.remoteSessionId c.session.hostId = true) {ops : List Operation}
    (horder : ∀ op ∈ ops, op.overtakes e.envelope = false) {row : Row}
    (hrow : Published ops s.rows.length row) : row.isBefore c e = false := by
  obtain ⟨hrowid, envelope, now, hop, hroute, hrecipient, hcreated⟩ := hrow
  have hlt : e.rowid < s.rows.length := by
    have hmem : e.rowid ∈ List.range s.rows.length := by
      rw [← hi.rowids]
      exact List.mem_map_of_mem he
    exact List.mem_range.mp hmem
  by_contra hbefore
  simp only [Bool.not_eq_false, Row.isBefore, Row.isFor, Bool.and_eq_true, decide_eq_true_eq] at hbefore hfor
  have hovertakes := horder _ hop
  simp only [Operation.overtakes, ← hroute, ← hrecipient, ← hcreated, hbefore.1.1.1, hbefore.1.1.2, hfor,
    decide_true, Bool.true_and, decide_eq_false_iff_not, not_lt] at hovertakes
  have hkey := Prod.Lex.lt_iff.mp hbefore.2
  cases hkey with
  | inl hless => exact absurd hless (not_lt.mpr hovertakes)
  | inr hsame =>
    have hrowids : row.rowid < e.rowid := hsame.2
    omega

/-- The row of an envelope that waits, after something that spares it. -/
theorem Waits.later {spared fresh : Row → Prop} {rest : List Round} (h : Waits c rounds s e)
    (hr : s.Evolves spared fresh s') (hspared : spared e) (hrest : ∀ round ∈ rest, round ∈ rounds) :
    ∃ e', e.Becomes e' ∧ Waits c rest s' e' := by
  obtain ⟨f, more, heq, hf, -⟩ := hr.rows
  obtain ⟨hbecomes, hlive⟩ := hf e h.row
  refine ⟨f e, hbecomes, ?_, hlive hspared h.live, ?_, ?_, fun round hround => ?_⟩
  · rw [heq]
    exact List.mem_append_left _ (List.mem_map_of_mem h.row)
  · rw [hbecomes.isFor]
    exact h.addressed
  · rw [hbecomes.opens]
    exact h.opens
  · obtain ⟨hops, hnow⟩ := h.spared round (hrest round hround)
    rw [hbecomes.expiry]
    exact ⟨fun op hop => (hbecomes.mayRetire op).trans (hops op hop), hnow⟩

theorem Undisturbed.later {spared fresh : Row → Prop} {rest : List Round} {e' : Row}
    (h : Undisturbed c rounds s e) (hr : s.Evolves spared fresh s') (hbecomes : e.Becomes e')
    (hfresh : ∀ row, fresh row → row.isBefore c e = false) (hrest : ∀ round ∈ rest, round ∈ rounds) :
    Undisturbed c rest s' e' := by
  constructor
  · intro round hround op hop
    have horder := h.order round (hrest round hround) op hop
    unfold Operation.overtakes at horder ⊢
    rwa [hbecomes.route, hbecomes.recipient, hbecomes.created]
  · intro row hrow hbefore round hround
    rw [hbecomes.isBefore] at hbefore
    obtain ⟨f, more, heq, hf, hmore⟩ := hr.rows
    rw [heq] at hrow
    cases List.mem_append.mp hrow with
    | inl hold =>
      obtain ⟨old, hmem, rfl⟩ := List.mem_map.mp hold
      have hsame := (hf old hmem).1
      rw [hsame.expiry, hsame.id]
      exact h.acks old hmem (hsame.before hbefore) round (hrest round hround)
    | inr hnew =>
      rw [hfresh row (hmore row hnew)] at hbefore
      cases hbefore

/-- Where fewer than a page of those before it are stuck, and polls are undisturbed, as many
polls as there are rows before it, and one more, come to an envelope that waits. -/
theorem eventually_handed (hi : s.Inv) (hlimit : 1 ≤ c.limit ∧ c.limit ≤ 50) (hwaits : Waits c rounds s e)
    (hundisturbed : Undisturbed c rounds s e) (raises : String → Bool)
    (hraises : ∀ round ∈ rounds, ∀ id, round.poll.raises id = true → raises id = true)
    (hstuck : (s.ahead c e fun row => row.isStuck c raises) < c.limit)
    (hrounds : (s.ahead c e fun _ => true) < rounds.length) :
    e.envelope.envelopeId ∈ (playRounds c s rounds).1 := by
  induction rounds generalizing s e with
  | nil => exact absurd hrounds (Nat.not_lt_zero _)
  | cons round rest ih =>
    have hfirst := List.mem_cons_self (a := round) (l := rest)
    obtain ⟨hinv₁, hevolves₁⟩ := foldl_evolves hi round.others
    have hfresh : ∀ row, Published round.others s.rows.length row → row.isBefore c e = false :=
      fun row => published_after hi hwaits.row hwaits.addressed (hundisturbed.order round hfirst)
    have hall : ∀ other ∈ round :: rest, other ∈ round :: rest := fun _ h => h
    obtain ⟨e₁, hbecomes₁, hwaits₁⟩ := hwaits.later hevolves₁ (hwaits.spared round hfirst).1 hall
    have hundisturbed₁ := hundisturbed.later hevolves₁ hbecomes₁ hfresh hall
    have hstuck₁ := hevolves₁.ahead_le (c := c) hfresh (stuck_becomes c raises)
    have hahead₁ := hevolves₁.ahead_le (c := c) (p := fun _ => true) hfresh fun _ _ _ => rfl
    rw [← hbecomes₁.ahead] at hstuck₁ hahead₁
    rw [← hbecomes₁.id]
    unfold playRounds
    dsimp only
    rw [List.mem_append]
    by_cases hhanded : e₁.envelope.envelopeId ∈
        (pollOnce c (round.others.foldl State.apply s) round.poll).1
    · exact .inl hhanded
    · right
      have hnow := (hwaits₁.spared round hfirst).2
      have hdue : e₁.isDue c.session.remoteSessionId c.session.hostId round.poll.now = true := by
        rw [Row.isDue, hwaits₁.addressed, hwaits₁.live, decide_eq_true hnow]
        rfl
      have hnarrow : ((round.others.foldl State.apply s).ahead c e₁ fun row =>
          row.isStuck c round.poll.raises) ≤
          (round.others.foldl State.apply s).ahead c e₁ fun row => row.isStuck c raises := by
        apply ahead_mono
        intro row hrow
        simp only [Row.isStuck, Bool.or_eq_true] at hrow ⊢
        exact hrow.imp_right (hraises round hfirst _)
      have hadvance := (poll_advances hinv₁ hlimit hwaits₁.row hdue hwaits₁.opens
        (fun row hrow hbefore => hundisturbed₁.acks row hrow hbefore round hfirst) (by omega)).resolve_left
        hhanded
      obtain ⟨hinv₂, hevolves₂⟩ := pollOnce_evolves hinv₁ c round.poll
      have hnone : ∀ row : Row, False → row.isBefore c e₁ = false := fun _ h => h.elim
      have hrest : ∀ other ∈ rest, other ∈ round :: rest := fun other h => List.mem_cons_of_mem _ h
      obtain ⟨e₂, hbecomes₂, hwaits₂⟩ := hwaits₁.later hevolves₂ ⟨hnow, hhanded⟩ hrest
      have hundisturbed₂ := hundisturbed₁.later hevolves₂ hbecomes₂ hnone hrest
      have hstuck₂ := hevolves₂.ahead_le (c := c) hnone (stuck_becomes c raises)
      rw [← hbecomes₂.ahead] at hstuck₂ hadvance
      rw [← hbecomes₂.id]
      rw [List.length_cons] at hrounds
      exact ih hinv₂ hwaits₂ hundisturbed₂ (fun other h => hraises other (hrest other h)) (by omega)
        (by omega)

/-- The row blocks its place through the rounds: it does not open, it does not expire, and
nobody acknowledges it. -/
def Row.blocks (row : Row) (c : Connector) (rounds : List Round) : Bool :=
  !c.opensEnvelope row.envelope && rounds.all fun round =>
    (round.others.all fun op => !op.mayRetire row.envelope) && round.poll.now < row.envelope.expiresAt

theorem blocks_becomes (c : Connector) (rounds : List Round) (a b : Row) (h : a.Becomes b) :
    b.blocks c rounds = a.blocks c rounds := by
  unfold Row.blocks
  simp only [h.opens, h.mayRetire, h.expiry]

/-- A page of rows that block their place, and no poll ever comes to the envelope. -/
theorem never_handed (hi : s.Inv) (he : e ∈ s.rows)
    (hblocked : c.limit ≤ s.ahead c e fun row => row.blocks c rounds) :
    e.envelope.envelopeId ∉ (playRounds c s rounds).1 := by
  induction rounds generalizing s e with
  | nil => exact List.not_mem_nil
  | cons round rest ih =>
    have hblocks : ∀ row : Row, row.blocks c (round :: rest) = true → c.opensEnvelope row.envelope = false ∧
        (∀ op ∈ round.others, op.mayRetire row.envelope = false) ∧
        round.poll.now < row.envelope.expiresAt ∧ row.blocks c rest = true := by
      intro row hrow
      simp only [Row.blocks, List.all_cons, Bool.and_eq_true, Bool.not_eq_true', List.all_eq_true,
        decide_eq_true_eq] at hrow ⊢
      exact ⟨hrow.1, hrow.2.1.1, hrow.2.1.2, hrow.1, hrow.2.2⟩
    obtain ⟨hinv₁, hevolves₁⟩ := foldl_evolves hi round.others
    obtain ⟨f, more, heq, hf, -⟩ := hevolves₁.rows
    have he₁ : f e ∈ (round.others.foldl State.apply s).rows := by
      rw [heq]
      exact List.mem_append_left _ (List.mem_map_of_mem he)
    have hbecomes₁ := (hf e he).1
    have hblocked₁ := hevolves₁.le_ahead (c := c) (e := e)
      (fun row _ hrow => (hblocks row hrow).2.1) (blocks_becomes c (round :: rest))
    rw [← hbecomes₁.ahead (round.others.foldl State.apply s)] at hblocked₁
    have hmissed : (f e).envelope.envelopeId ∉
        (pollOnce c (round.others.foldl State.apply s) round.poll).1 := by
      intro hhanded
      obtain ⟨row, hrow, hid, -⟩ := pollOnce_handed hhanded
      obtain rfl := eq_of_key hinv₁.ids (of_mem_page hrow).1 he₁ hid
      obtain ⟨-, hcount⟩ := (mem_due hinv₁).mp hrow
      have hle : ((round.others.foldl State.apply s).ahead c (f e) fun row =>
          row.blocks c (round :: rest)) ≤ (round.others.foldl State.apply s).rows.countP fun other =>
            other.isDue c.session.remoteSessionId c.session.hostId round.poll.now &&
              other.key < (f e).key := by
        apply List.countP_mono_left
        intro other _ hother
        simp only [Row.isBefore, Bool.and_eq_true, decide_eq_true_eq] at hother
        simp only [Row.isDue, Bool.and_eq_true, decide_eq_true_eq]
        exact ⟨⟨hother.1.1, (hblocks other hother.2).2.2.1⟩, hother.1.2⟩
      omega
    obtain ⟨hinv₂, hevolves₂⟩ := pollOnce_evolves hinv₁ c round.poll
    obtain ⟨g, more', heq', hg, -⟩ := hevolves₂.rows
    have he₂ : g (f e) ∈ (pollOnce c (round.others.foldl State.apply s) round.poll).2.rows := by
      rw [heq']
      exact List.mem_append_left _ (List.mem_map_of_mem he₁)
    have hbecomes₂ := (hg (f e) he₁).1
    have hblocked₂ := hevolves₂.le_ahead (c := c) (e := f e) (p := fun row => row.blocks c (round :: rest))
      (by
        intro row hrow hblock
        refine ⟨(hblocks row hblock).2.2.1, fun hhanded => ?_⟩
        obtain ⟨other, hother, hid, hopens⟩ := pollOnce_handed hhanded
        rw [eq_of_key hinv₁.ids (of_mem_page hother).1 hrow hid, (hblocks row hblock).1] at hopens
        cases hopens) (blocks_becomes c (round :: rest))
    rw [← hbecomes₂.ahead (pollOnce c (round.others.foldl State.apply s) round.poll).2] at hblocked₂
    have hnarrow := ahead_mono (s := (pollOnce c (round.others.foldl State.apply s) round.poll).2) (c := c)
      (e := g (f e)) fun row hrow => (hblocks row hrow).2.2.2
    have hlater := ih hinv₂ he₂ (by omega)
    rw [hbecomes₂.id] at hlater
    rw [← hbecomes₁.id]
    unfold playRounds
    dsimp only
    rw [List.mem_append, not_or]
    exact ⟨hmissed, hlater⟩

end Rounds

def desk : Connector :=
  { session := { remoteSessionId := "call", hostId := "desk", deviceId := "phone"
                 protocolVersion := "v1", sessionKeyRef := "key", expiresAt := seconds 1000 }
    opens := fun ciphertext _ _ => ciphertext = "sealed" }

/-- One that does not open. -/
def junk (i : Nat) : RelayEnvelope :=
  { envelopeId := "junk-" ++ toString i, routeRef := "call", senderRef := "anybody"
    recipientRef := "desk", ciphertext := "junk", nonce := "nonce-of-16-chars-" ++ toString i
    expiresAt := seconds 100, createdAt := 0 }

def command : RelayEnvelope :=
  { envelopeId := "command", routeRef := "call", senderRef := "phone", recipientRef := "desk"
    ciphertext := "sealed", nonce := "nonce-of-command", expiresAt := seconds 100
    createdAt := seconds 1 }

/-- Some of them, and a command after them. -/
def queued (n : Nat) : List Operation :=
  (List.range n).map (fun i => .publish (junk i) (seconds 2)) ++ [.publish command (seconds 2)]

/-- A poll that nothing happens to. -/
def quiet : Round := ⟨[], ⟨seconds 3, fun _ => seconds 4, fun _ => false⟩⟩

theorem junk_inj {i j : Nat} (h : (junk i).envelopeId = (junk j).envelopeId ∨ (junk i).nonce = (junk j).nonce) :
    i = j := by
  have hdigits : toString i = toString j := h.elim (String.append_right_inj _).mp (String.append_right_inj _).mp
  rw [Nat.toString_eq_ofList_toDigits, Nat.toString_eq_ofList_toDigits] at hdigits
  have hvalue := congrArg (fun s => Nat.ofDigitChars 10 (String.toList s) 0) hdigits
  simpa [Nat.ofDigitChars_toDigits] using hvalue

def junkRows (n : Nat) : List Row := (List.range n).map fun i => ⟨junk i, i⟩

/-- What differs in its id and its nonce is added. -/
theorem apply_publish {s : State} {envelope : RelayEnvelope} (hsize : envelope.ciphertext.length ≤ 350000)
    (hexpires : envelope.expiresAt = seconds 100) (hnew : ∀ row ∈ s.rows,
      row.envelope.envelopeId ≠ envelope.envelopeId ∧ row.envelope.nonce ≠ envelope.nonce) :
    s.apply (.publish envelope (seconds 2)) = { s with rows := s.rows ++ [⟨envelope, s.rows.length⟩] } := by
  have hfresh : (s.rows.any fun row => row.envelope.envelopeId = envelope.envelopeId ||
      (row.envelope.senderRef = envelope.senderRef && row.envelope.nonce = envelope.nonce)) = false := by
    rw [List.any_eq_false]
    intro row hrow
    simp [hnew row hrow]
  have httl : ¬(envelope.expiresAt ≤ seconds 2 ∨ seconds 120 < envelope.expiresAt - seconds 2) := by
    rw [hexpires]
    norm_num [seconds]
  rw [State.apply, State.publish, if_neg (Nat.not_lt.mpr hsize), if_neg httl, State.publishEnvelope, hfresh]
  rfl

theorem reached_junk (n : Nat) :
    ((List.range n).map fun i => Operation.publish (junk i) (seconds 2)).foldl State.apply {} =
      { rows := junkRows n } := by
  induction n with
  | zero => rfl
  | succ n ih =>
    rw [List.range_succ, List.map_append, List.foldl_append, ih, List.map_singleton, List.foldl_cons, List.foldl_nil,
      apply_publish (show "junk".length ≤ 350000 by decide) rfl]
    · simp [junkRows, List.range_succ]
    · intro row hrow
      obtain ⟨i, hi, rfl⟩ := List.mem_map.mp hrow
      rw [List.mem_range] at hi
      exact ⟨fun h => absurd (junk_inj (.inl h)) (by omega), fun h => absurd (junk_inj (.inr h)) (by omega)⟩

/-- The junk and the command, in their order. -/
theorem reached_queued (n : Nat) : reached (queued n) = { rows := junkRows n ++ [⟨command, n⟩] } := by
  rw [reached, queued, List.foldl_append, reached_junk, List.foldl_cons, List.foldl_nil,
    apply_publish (show "sealed".length ≤ 350000 by decide) rfl]
  · simp [junkRows]
  · intro row hrow
    obtain ⟨i, hi, rfl⟩ := List.mem_map.mp hrow
    constructor
    · intro h
      have hfirst := congrArg (fun s => (String.toList s).head?) (show "junk-" ++ toString i = "command" from h)
      simp at hfirst
    · intro h
      have hlength := congrArg String.length (show "nonce-of-16-chars-" ++ toString i = "nonce-of-command" from h)
      rw [String.length_append, show "nonce-of-16-chars-".length = 18 from rfl, show "nonce-of-command".length = 16 from rfl]
        at hlength
      omega

theorem junk_blocks (n : Nat) : 50 ≤ (reached (queued 50)).ahead desk ⟨command, 50⟩ fun row =>
    row.blocks desk (List.replicate n quiet) := by
  rw [reached_queued, State.ahead, List.countP_append]
  have hall : (junkRows 50).countP (fun row => row.isBefore desk ⟨command, 50⟩ &&
      row.blocks desk (List.replicate n quiet)) = 50 := by
    rw [List.countP_eq_length.mpr, junkRows, List.length_map, List.length_range]
    intro row hrow
    obtain ⟨i, hi, rfl⟩ := List.mem_map.mp hrow
    have hbefore : (⟨junk i, i⟩ : Row).isBefore desk ⟨command, 50⟩ = true := by
      have hkey : (⟨junk i, i⟩ : Row).key < (⟨command, 50⟩ : Row).key :=
        Prod.Lex.toLex_lt_toLex.mpr (.inl (show (0 : Int) < seconds 1 by norm_num [seconds]))
      rw [Row.isBefore, decide_eq_true hkey]
      rfl
    have hblocks : (⟨junk i, i⟩ : Row).blocks desk (List.replicate n quiet) = true := by
      simp only [Row.blocks, Bool.and_eq_true, Bool.not_eq_true', List.all_eq_true, decide_eq_true_eq]
      refine ⟨rfl, fun round hround => ?_⟩
      rw [List.eq_of_mem_replicate hround]
      exact ⟨nofun, show seconds 3 < seconds 100 by norm_num [seconds]⟩
    rw [hbefore, hblocks]
    rfl
  omega

end Operant.RemoteControl.Relay
