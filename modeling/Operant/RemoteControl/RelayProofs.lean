import Operant.RemoteControl.Relay

/-! What the relay does with an envelope.

A row keeps everything but its status and times, and is never live again. So what is retired is
never returned, and the envelopes before another one only get fewer, but for those that are
published before it. -/
namespace Operant.RemoteControl.Relay
open Operant.Tables
open Operant.Scheduler (Instant seconds)

/-- A row before and after some operations. -/
structure Row.Becomes (a b : Row) : Prop where
  rowid : b.rowid = a.rowid
  id : b.envelope.envelopeId = a.envelope.envelopeId
  route : b.envelope.routeRef = a.envelope.routeRef
  recipient : b.envelope.recipientRef = a.envelope.recipientRef
  ciphertext : b.envelope.ciphertext = a.envelope.ciphertext
  nonce : b.envelope.nonce = a.envelope.nonce
  expiry : b.envelope.expiresAt = a.envelope.expiresAt
  created : b.envelope.createdAt = a.envelope.createdAt
  live : b.isLive = true → a.isLive = true

namespace Row.Becomes
variable {a b c : Row}

theorem refl (a : Row) : a.Becomes a := ⟨rfl, rfl, rfl, rfl, rfl, rfl, rfl, rfl, fun h => h⟩

theorem trans (h : a.Becomes b) (h' : b.Becomes c) : a.Becomes c :=
  ⟨h'.rowid.trans h.rowid, h'.id.trans h.id, h'.route.trans h.route, h'.recipient.trans h.recipient,
    h'.ciphertext.trans h.ciphertext, h'.nonce.trans h.nonce, h'.expiry.trans h.expiry,
    h'.created.trans h.created, fun hl => h.live (h'.live hl)⟩

theorem key (h : a.Becomes b) : b.key = a.key := by
  unfold Row.key
  rw [h.created, h.rowid]

theorem isFor (h : a.Becomes b) (routeRef recipientRef : String) :
    b.isFor routeRef recipientRef = a.isFor routeRef recipientRef := by
  unfold Row.isFor
  rw [h.route, h.recipient]

theorem opens (h : a.Becomes b) (c : Connector) :
    c.opensEnvelope b.envelope = c.opensEnvelope a.envelope := by
  unfold Connector.opensEnvelope
  rw [h.ciphertext, h.nonce, h.route]

end Row.Becomes

theorem expired_becomes {row : Row} {now : Instant} (h : row.lapses now = true) :
    row.Becomes row.expired :=
  ⟨rfl, rfl, rfl, rfl, rfl, rfl, rfl, rfl, fun _ => (Bool.and_eq_true_iff.mp h).1⟩

theorem acknowledged_becomes {row : Row} (now : Instant) : row.Becomes (row.acknowledged now) :=
  ⟨rfl, rfl, rfl, rfl, rfl, rfl, rfl, rfl, fun h => nomatch h⟩

/-- The operation may end the life of the envelope. -/
def Operation.mayRetire (envelope : RelayEnvelope) : Operation → Bool
  | .publish .. => false
  | .acknowledge envelopeId _ _ => envelopeId = envelope.envelopeId
  | .pull _ _ _ now | .health now => envelope.expiresAt ≤ now

theorem Row.Becomes.mayRetire {a b : Row} (h : a.Becomes b) (op : Operation) :
    op.mayRetire b.envelope = op.mayRetire a.envelope := by
  unfold Operation.mayRetire
  rw [h.id, h.expiry]

namespace State

/-- The envelope is acknowledged or expired. -/
def isRetired (s : State) (id : String) : Prop :=
  ∃ row ∈ s.rows, row.envelope.envelopeId = id ∧ row.isLive = false

structure Inv (s : State) : Prop where
  ids : (s.rows.map fun row => row.envelope.envelopeId).Nodup
  rowids : s.rows.map Row.rowid = List.range s.rows.length

/-- What operations that retire what `spared` does not spare, and publish what is `fresh`, make
of a state. -/
structure Evolves (spared fresh : Row → Prop) (s s' : State) : Prop where
  rows : ∃ (f : Row → Row) (more : List Row), s'.rows = s.rows.map f ++ more ∧
    (∀ row ∈ s.rows, row.Becomes (f row) ∧ (spared row → row.isLive = true → (f row).isLive = true)) ∧
    ∀ row ∈ more, fresh row
  pulls : ∃ more, s'.pulls = s.pulls ++ more ∧ ∀ p ∈ more, ∀ envelope ∈ p.2,
    ¬s.isRetired envelope.envelopeId ∧ p.1 < envelope.expiresAt

end State

section Evolves
variable {spared fresh : Row → Prop} {s s' : State}

theorem State.Inv.keys (hi : s.Inv) : (s.rows.map Row.key).Nodup := by
  have hrowids : (s.rows.map Row.rowid).Nodup := by
    rw [hi.rowids]
    exact List.nodup_range
  rw [List.nodup_iff_pairwise_ne, List.pairwise_map] at hrowids ⊢
  refine hrowids.imp fun hne heq => hne ?_
  exact congrArg (fun key => (ofLex key).2) heq

theorem State.Evolves.refl (s : State) : s.Evolves spared fresh s where
  rows := ⟨fun row => row, [], by simp, fun row _ => ⟨.refl row, fun _ h => h⟩, fun _ h => nomatch h⟩
  pulls := ⟨[], by simp, fun _ h => nomatch h⟩

theorem State.Evolves.retired (h : s.Evolves spared fresh s') {id : String} (hr : s.isRetired id) :
    s'.isRetired id := by
  obtain ⟨f, more, heq, hf, -⟩ := h.rows
  obtain ⟨row, hrow, hid, hdead⟩ := hr
  obtain ⟨hbecomes, -⟩ := hf row hrow
  refine ⟨f row, ?_, hbecomes.id.trans hid, ?_⟩
  · rw [heq]
    exact List.mem_append_left _ (List.mem_map_of_mem hrow)
  · by_contra hlive
    rw [Bool.not_eq_false] at hlive
    rw [hbecomes.live hlive] at hdead
    exact nomatch hdead

theorem State.Evolves.mono {spared' fresh' : Row → Prop} (h : s.Evolves spared fresh s')
    (hspared : ∀ row, spared' row → spared row) (hfresh : ∀ row, fresh row → fresh' row) :
    s.Evolves spared' fresh' s' := by
  obtain ⟨f, more, heq, hf, hmore⟩ := h.rows
  exact ⟨⟨f, more, heq, fun row hrow => ⟨(hf row hrow).1, fun hs => (hf row hrow).2 (hspared row hs)⟩,
    fun row hrow => hfresh row (hmore row hrow)⟩, h.pulls⟩

/-- One after the other, where what is spared does not depend on a row's status. -/
theorem State.Evolves.trans {s'' : State} (h : s.Evolves spared fresh s') (h' : s'.Evolves spared fresh s'')
    (hspared : ∀ a b : Row, a.Becomes b → spared a → spared b)
    (hfresh : ∀ a b : Row, a.Becomes b → fresh a → fresh b) : s.Evolves spared fresh s'' := by
  obtain ⟨f, more, heq, hf, hmore⟩ := h.rows
  obtain ⟨g, more', heq', hg, hmore'⟩ := h'.rows
  have hmem : ∀ row ∈ s.rows, f row ∈ s'.rows := by
    intro row hrow
    rw [heq]
    exact List.mem_append_left _ (List.mem_map_of_mem hrow)
  constructor
  · refine ⟨fun row => g (f row), more.map g ++ more', ?_, ?_, ?_⟩
    · rw [heq', heq, List.map_append, List.map_map, List.append_assoc]
      rfl
    · intro row hrow
      obtain ⟨hbecomes, hlive⟩ := hf row hrow
      obtain ⟨hbecomes', hlive'⟩ := hg (f row) (hmem row hrow)
      exact ⟨hbecomes.trans hbecomes', fun hs hl => hlive' (hspared _ _ hbecomes hs) (hlive hs hl)⟩
    · intro row hrow
      cases List.mem_append.mp hrow with
      | inl hold =>
        obtain ⟨old, hmem, rfl⟩ := List.mem_map.mp hold
        have hkept : old ∈ s'.rows := by
          rw [heq]
          exact List.mem_append_right _ hmem
        exact hfresh _ _ (hg old hkept).1 (hmore old hmem)
      | inr hnew => exact hmore' row hnew
  · obtain ⟨pulls, hpulls, hgood⟩ := h.pulls
    obtain ⟨pulls', hpulls', hgood'⟩ := h'.pulls
    refine ⟨pulls ++ pulls', by rw [hpulls', hpulls, List.append_assoc], fun p hp envelope he => ?_⟩
    cases List.mem_append.mp hp with
    | inl hfirst => exact hgood p hfirst envelope he
    | inr hlater =>
      obtain ⟨hnot, hexpiry⟩ := hgood' p hlater envelope he
      exact ⟨fun hr => hnot (h.retired hr), hexpiry⟩

/-- An update of rows. -/
theorem evolves_update {p : Row → Bool} {f : Row → Row}
    (hf : ∀ row ∈ s.rows, p row = true → row.Becomes (f row))
    (hspared : ∀ row ∈ s.rows, p row = true → spared row → (f row).isLive = true)
    (hpulls : ∃ more, s'.pulls = s.pulls ++ more ∧ ∀ q ∈ more, ∀ envelope ∈ q.2,
      ¬s.isRetired envelope.envelopeId ∧ q.1 < envelope.expiresAt)
    (hrows : s'.rows = update s.rows p f) : s.Evolves spared fresh s' where
  rows := by
    refine ⟨fun row => if p row then f row else row, [], by rw [hrows, List.append_nil]; rfl, ?_,
      fun _ h => nomatch h⟩
    intro row hrow
    dsimp only
    split
    · rename_i hp
      exact ⟨hf row hrow hp, fun hs _ => hspared row hrow hp hs⟩
    · exact ⟨.refl row, fun _ h => h⟩
  pulls := hpulls

theorem inv_update {p : Row → Bool} {f : Row → Row} (hi : s.Inv)
    (hf : ∀ row ∈ s.rows, p row = true → row.Becomes (f row)) (hrows : s'.rows = update s.rows p f) :
    s'.Inv where
  ids := by
    rw [hrows, map_update _ fun row hrow hp => (hf row hrow hp).id]
    exact hi.ids
  rowids := by
    rw [hrows, map_update _ fun row hrow hp => (hf row hrow hp).rowid, length_update]
    exact hi.rowids

end Evolves

/-! ### One lemma for each operation -/

section Operations
variable {s : State}

/-- A row is published. -/
def Operation.publishes (op : Operation) (row : Row) : Prop := ∃ now, op = .publish row.envelope now

theorem expire_evolves (hi : s.Inv) (now : Instant) (fresh : Row → Prop) :
    (s.expire now).Inv ∧
      s.Evolves (fun row => now < row.envelope.expiresAt) fresh (s.expire now) := by
  have hf : ∀ row ∈ s.rows, row.lapses now = true → row.Becomes row.expired :=
    fun row _ h => expired_becomes h
  refine ⟨inv_update hi hf rfl, evolves_update hf ?_ ⟨[], (List.append_nil _).symm, fun _ h => nomatch h⟩ rfl⟩
  intro row _ hlapses hspared
  have hover := (Bool.and_eq_true_iff.mp hlapses).2
  rw [decide_eq_true_eq] at hover
  exact absurd hspared (not_lt.mpr hover)

theorem acknowledge_evolves (hi : s.Inv) (id recipientRef : String) (now : Instant) (fresh : Row → Prop) :
    (s.acknowledge id recipientRef now).2.Inv ∧
      s.Evolves (fun row => id ≠ row.envelope.envelopeId) fresh (s.acknowledge id recipientRef now).2 := by
  unfold State.acknowledge
  dsimp only
  split
  · exact ⟨hi, .refl s⟩
  · have hf : ∀ row ∈ s.rows, row.isDeliverable id recipientRef now = true →
        row.Becomes (row.acknowledged now) := fun row _ _ => acknowledged_becomes now
    refine ⟨inv_update hi hf rfl, evolves_update hf ?_ ⟨[], (List.append_nil _).symm, fun _ h => nomatch h⟩ rfl⟩
    intro row _ hp hspared
    simp only [Row.isDeliverable, Bool.and_eq_true, decide_eq_true_eq] at hp
    exact absurd hp.1.1.1.symm hspared

theorem publish_evolves (hi : s.Inv) (envelope : RelayEnvelope) (now : Instant) (spared : Row → Prop) :
    (s.publish envelope now).2.Inv ∧
      s.Evolves spared (fun row => s.rows.length ≤ row.rowid ∧ row.envelope = envelope)
        (s.publish envelope now).2 := by
  unfold State.publish
  split
  · exact ⟨hi, .refl s⟩
  · split
    · exact ⟨hi, .refl s⟩
    · unfold State.publishEnvelope
      split
      · exact ⟨hi, .refl s⟩
      · rename_i hfree
        rw [Bool.not_eq_true, List.any_eq_false] at hfree
        refine ⟨⟨?_, ?_⟩, ⟨fun row => row, [⟨envelope, s.rows.length⟩], by simp,
          fun row _ => ⟨.refl row, fun _ h => h⟩, fun row hrow => ?_⟩,
          ⟨[], (List.append_nil _).symm, fun _ h => nomatch h⟩⟩
        · rw [List.map_append, List.nodup_append]
          refine ⟨hi.ids, List.nodup_singleton _, ?_⟩
          intro a ha b hb heq
          obtain ⟨row, hrow, rfl⟩ := List.mem_map.mp ha
          rw [List.mem_singleton.mp hb] at heq
          apply hfree row hrow
          rw [heq]
          simp
        · rw [List.map_append, hi.rowids, List.length_append, List.length_singleton, List.range_succ]
          rfl
        · rw [List.mem_singleton.mp hrow]
          exact ⟨Nat.le_refl _, rfl⟩

/-- A page that is delivered: none of its envelopes was retired. -/
theorem pull_evolves (hi : s.Inv) (routeRef recipientRef : String) (limit : Nat) (now : Instant)
    (fresh : Row → Prop) (hfresh : ∀ a b : Row, a.Becomes b → fresh a → fresh b) :
    (s.pull routeRef recipientRef limit now).2.Inv ∧
      s.Evolves (fun row => now < row.envelope.expiresAt) fresh
        (s.pull routeRef recipientRef limit now).2 := by
  unfold State.pull
  split
  · exact ⟨hi, .refl s⟩
  · dsimp only
    obtain ⟨hexpired, hfirst⟩ := expire_evolves hi now fresh
    have hdue : ∀ row ∈ page Row.key (fun row => row.isDue routeRef recipientRef now) (s.expire now).rows
        limit, row ∈ (s.expire now).rows ∧ row.isLive = true ∧ now < row.envelope.expiresAt := by
      intro row hrow
      obtain ⟨hmem, hp⟩ := of_mem_page hrow
      simp only [Row.isDue, Bool.and_eq_true, decide_eq_true_eq] at hp
      exact ⟨hmem, hp.1.2, hp.2⟩
    -- The rows that are delivered are those of the page.
    have hids : ∀ row ∈ (s.expire now).rows, (row.envelope.envelopeId ∈
        (page Row.key (fun row => row.isDue routeRef recipientRef now) (s.expire now).rows limit).map
          fun row => row.envelope.envelopeId) → row.isLive = true := by
      intro row hrow hid
      obtain ⟨other, hother, heq⟩ := List.mem_map.mp hid
      obtain ⟨hmem, hlive, -⟩ := hdue other hother
      rw [← eq_of_key hexpired.ids hmem hrow heq]
      exact hlive
    have hf : ∀ row ∈ (s.expire now).rows, decide (row.envelope.envelopeId ∈
        (page Row.key (fun row => row.isDue routeRef recipientRef now) (s.expire now).rows limit).map
          fun row => row.envelope.envelopeId) = true → row.Becomes (row.delivered now) := by
      intro row hrow hp
      have hlive := hids row hrow (of_decide_eq_true hp)
      exact ⟨rfl, rfl, rfl, rfl, rfl, rfl, rfl, rfl, fun _ => hlive⟩
    refine ⟨inv_update hexpired hf rfl, hfirst.trans (evolves_update hf (fun _ _ _ _ => rfl) ?_ rfl)
      (fun a b h hs => by rw [h.expiry]; exact hs) hfresh⟩
    refine ⟨_, rfl, fun p hp envelope he => ?_⟩
    rw [List.mem_singleton.mp hp] at he ⊢
    obtain ⟨row, hrow, rfl⟩ := List.mem_map.mp he
    obtain ⟨hmem, hlive, hexpiry⟩ := hdue row hrow
    refine ⟨fun hretired => ?_, hexpiry⟩
    obtain ⟨other, hother, hid, hdead⟩ := hretired
    rw [eq_of_key hexpired.ids hother hmem hid, hlive] at hdead
    exact nomatch hdead

/-- What one operation does. -/
theorem apply_evolves (hi : s.Inv) (op : Operation) :
    (s.apply op).Inv ∧
      s.Evolves (fun row => op.mayRetire row.envelope = false)
        (fun row => s.rows.length ≤ row.rowid ∧ ∃ envelope now, op = .publish envelope now ∧
          row.envelope.routeRef = envelope.routeRef ∧ row.envelope.recipientRef = envelope.recipientRef ∧
          row.envelope.createdAt = envelope.createdAt) (s.apply op) := by
  have hexpiry : ∀ {now : Instant} {row : Row}, decide (row.envelope.expiresAt ≤ now) = false →
      now < row.envelope.expiresAt := fun h => not_le.mp (of_decide_eq_false h)
  cases op with
  | publish envelope now =>
    obtain ⟨hinv, hevolves⟩ := publish_evolves hi envelope now fun _ => True
    refine ⟨hinv, hevolves.mono (fun _ _ => trivial) fun row hrow => ⟨hrow.1, envelope, now, rfl, ?_⟩⟩
    rw [hrow.2]
    exact ⟨rfl, rfl, rfl⟩
  | pull routeRef recipientRef limit now =>
    obtain ⟨hinv, hevolves⟩ := pull_evolves hi routeRef recipientRef limit now (fun _ => False)
      fun _ _ _ h => h
    exact ⟨hinv, hevolves.mono (fun _ => hexpiry) fun _ h => h.elim⟩
  | acknowledge id recipientRef now =>
    obtain ⟨hinv, hevolves⟩ := acknowledge_evolves hi id recipientRef now fun _ => False
    exact ⟨hinv, hevolves.mono (fun _ => of_decide_eq_false) fun _ h => h.elim⟩
  | health now =>
    obtain ⟨hinv, hevolves⟩ := expire_evolves hi now fun _ => False
    exact ⟨hinv, hevolves.mono (fun _ => hexpiry) fun _ h => h.elim⟩

/-- A row that some of the operations have published. -/
def Published (ops : List Operation) (n : Nat) (row : Row) : Prop :=
  n ≤ row.rowid ∧ ∃ envelope now, .publish envelope now ∈ ops ∧
    row.envelope.routeRef = envelope.routeRef ∧ row.envelope.recipientRef = envelope.recipientRef ∧
    row.envelope.createdAt = envelope.createdAt

theorem State.Evolves.length_le {spared fresh : Row → Prop} {s' : State} (h : s.Evolves spared fresh s') :
    s.rows.length ≤ s'.rows.length := by
  obtain ⟨f, more, heq, -, -⟩ := h.rows
  rw [heq, List.length_append, List.length_map]
  omega

/-- What operations do, one after the other. -/
theorem foldl_evolves (hi : s.Inv) (ops : List Operation) :
    (ops.foldl State.apply s).Inv ∧
      s.Evolves (fun row => ∀ op ∈ ops, op.mayRetire row.envelope = false)
        (Published ops s.rows.length) (ops.foldl State.apply s) := by
  induction ops generalizing s with
  | nil => exact ⟨hi, .refl s⟩
  | cons op rest ih =>
    obtain ⟨hinv, hfirst⟩ := apply_evolves hi op
    obtain ⟨hinv', hrest⟩ := ih hinv
    refine ⟨hinv', (hfirst.mono ?_ ?_).trans (hrest.mono ?_ ?_) ?_ ?_⟩
    · exact fun row hs => hs op (List.mem_cons_self ..)
    · intro row hrow
      obtain ⟨hrowid, envelope, now, hop, hsame⟩ := hrow
      exact ⟨hrowid, envelope, now, hop ▸ List.mem_cons_self .., hsame⟩
    · exact fun row hs op' hop' => hs op' (List.mem_cons_of_mem _ hop')
    · intro row hrow
      obtain ⟨hrowid, envelope, now, hop, hsame⟩ := hrow
      exact ⟨Nat.le_trans hfirst.length_le hrowid, envelope, now, List.mem_cons_of_mem _ hop, hsame⟩
    · intro a b h hs op' hop'
      rw [h.mayRetire]
      exact hs op' hop'
    · intro a b h hrow
      obtain ⟨hrowid, envelope, now, hop, hroute, hrecipient, hcreated⟩ := hrow
      exact ⟨by rw [h.rowid]; exact hrowid, envelope, now, hop, h.route.trans hroute,
        h.recipient.trans hrecipient, h.created.trans hcreated⟩

theorem inv_empty : State.Inv {} := ⟨List.nodup_nil, rfl⟩

theorem reached_inv (ops : List Operation) : (reached ops).Inv := (foldl_evolves inv_empty ops).1

end Operations
end Operant.RemoteControl.Relay
