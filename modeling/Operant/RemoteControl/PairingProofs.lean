import Operant.RemoteControl.Pairing

/-! No challenge lets in more devices than it has uses.

The ticket of an attempt is the use it has consumed: no use is consumed twice, and each lets in
one device at most. -/
namespace Operant.RemoteControl.Pairing
open Operant.Tables Operant.Calls
open Operant.Scheduler (Instant seconds)

namespace World

/-- The use has been consumed. -/
def issued (w : World) (use : Use) : Prop :=
  ∃ challenge ∈ w.challenges, challenge.challengeId = use.1 ∧ use.2 ≤ challenge.uses

/-- The use has let a device in. -/
def isSpent (w : World) (use : Use) : Prop := ∃ p ∈ w.paired, p.use = use

/-- What is asked of calls for no use to be lost: from the consumption of a use on, the host
is there and active, the device is as it should be and nobody else's, and the store answers. -/
def allowsUse (w : World) : Call → Prop
  | .consumeChallenge request _ => request.isValid = true
  | .getHost id (some _) => w.fault = none ∧ (w.host? id).any HostInstance.isActive = true
  | .putDevice device _ => w.fault = none ∧ w.isTaken device = false ∧
    (w.host? device.hostId).isSome = true
  | _ => True

instance (c : Call) (w : World) : Decidable (w.allowsUse c) := by
  unfold allowsUse
  split <;> infer_instance

end World

/-- The two are of one challenge, and the second is the later. -/
structure PairingChallenge.Before (a b : PairingChallenge) : Prop where
  id : b.challengeId = a.challengeId
  host : b.hostId = a.hostId
  scopes : b.allowedScopes = a.allowedScopes
  expiry : b.expiresAt = a.expiresAt
  maxUses : b.maxUses = a.maxUses
  uses : a.uses ≤ b.uses

theorem PairingChallenge.Before.refl (a : PairingChallenge) : a.Before a :=
  ⟨rfl, rfl, rfl, rfl, rfl, Nat.le_refl _⟩

theorem PairingChallenge.Before.trans {a b c : PairingChallenge} (h : a.Before b) (h' : b.Before c) :
    a.Before c :=
  ⟨h'.id.trans h.id, h'.host.trans h.host, h'.scopes.trans h.scopes, h'.expiry.trans h.expiry,
    h'.maxUses.trans h.maxUses, Nat.le_trans h.uses h'.uses⟩

/-- The challenge let the device in. -/
structure Paired.By (p : Paired) (challenge : PairingChallenge) : Prop where
  id : challenge.challengeId = p.use.1
  positive : 1 ≤ p.use.2
  use : p.use.2 ≤ challenge.uses
  host : p.device.hostId = challenge.hostId
  scopes : ∀ scope ∈ p.device.scopes, scope ∈ challenge.allowedScopes
  expiry : p.device.pairedAt < challenge.expiresAt

theorem Paired.By.later {p : Paired} {a b : PairingChallenge} (h : p.By a) (hb : a.Before b) : p.By b where
  id := hb.id.trans h.id
  positive := h.positive
  use := Nat.le_trans h.use hb.uses
  host := h.host.trans hb.host.symm
  scopes := by rw [hb.scopes]; exact h.scopes
  expiry := by rw [hb.expiry]; exact h.expiry

structure Inv (kept : Prop) (w : World) : Prop where
  ids : (w.challenges.map PairingChallenge.challengeId).Nodup
  paired : ∀ p ∈ w.paired, ∃ challenge ∈ w.challenges, p.By challenge
  uses : (w.paired.map Paired.use).Nodup
  devices : w.devices.map RemoteDevice.deviceId = w.paired.map fun p => p.device.deviceId
  attempts : kept → ∀ a ∈ w.attempts, a.raised = true → a.consumed = none

/-- What others leave as it is, for everybody and for the owner of a use. -/
structure Rely (k : Option Use) (w w' : World) : Prop where
  challenges : ∀ challenge ∈ w.challenges, ∃ challenge' ∈ w'.challenges, challenge.Before challenge'
  owned : ∀ use, k = some use → w'.isSpent use → w.isSpent use

namespace Rely
variable {k : Option Use} {a b c w w' : World}

theorem refl (k : Option Use) (w : World) : Rely k w w :=
  ⟨fun challenge h => ⟨challenge, h, .refl challenge⟩, fun _ _ h => h⟩

theorem trans (h : Rely k a b) (h' : Rely k b c) : Rely k a c where
  challenges challenge hc := by
    obtain ⟨mid, hmid, hbefore⟩ := h.challenges challenge hc
    obtain ⟨last, hlast, hbefore'⟩ := h'.challenges mid hmid
    exact ⟨last, hlast, hbefore.trans hbefore'⟩
  owned use hk hs := h.owned use hk (h'.owned use hk hs)

theorem issued (h : Rely k w w') {use : Use} (hu : w.issued use) : w'.issued use := by
  obtain ⟨challenge, hc, hid, huse⟩ := hu
  obtain ⟨challenge', hc', hbefore⟩ := h.challenges challenge hc
  exact ⟨challenge', hc', hbefore.id.trans hid, Nat.le_trans huse hbefore.uses⟩

end Rely

/-- The rules of the system. -/
def rules (kept : Prop) : OwnerRules Call Answer Raised World Use where
  exec c w := .ok (w.exec c)
  inv := Inv kept
  issued use w := w.issued use
  rely := Rely
  allowed c w := kept → w.allowsUse c
  refl := Rely.refl
  trans := Rely.trans
  keep h ht := h.issued ht

section Rules
variable {kept : Prop} {k : Option Use} {w : World} {X : Option Use → Raised → World → Prop}

theorem exec_ok (c : Call) (w : World) (e : Raised) : (rules kept).exec c w ≠ .error e :=
  fun h => nomatch h

/-! ### One rule for each call -/

/-- A call that is answered, or at fault. -/
theorem ask_holds {c : Call} {Q : Option Use → Reply c → World → Prop}
    (h : ∀ w', Rely k w w' → Inv kept w' → (kept → w'.allowsUse c) →
      ∃ k', (rules kept).Step k w' (w'.answer c).2 k' ∧
        (∀ a, (w'.answer c).1 = .ok a → Q k' a (w'.answer c).2) ∧
        ∀ e, (w'.answer c).1 = .error e → X k' e (w'.answer c).2)
    (hfault : ∀ w' typeName, w'.fault = some typeName → (kept → w'.allowsUse c) →
      X k (.other typeName) w') :
    (ask c).HoldsAs (rules kept) k Q X w := by
  show (Prog.call c Prog.lift : Action (Reply c)).HoldsAs (rules kept) k Q X w
  apply Prog.holdsAs_ask (fun w => w.exec c) fun _ => rfl
  intro w' hr hi hc
  unfold World.exec
  split
  · exact h w' hr hi hc
  · rename_i typeName hfaulty
    split
    · refine ⟨k, ⟨hi, fun _ _ => Rely.refl _ _, .inl rfl⟩, fun _ hok => (nomatch hok), ?_⟩
      intro e he
      cases he
      exact hfault w' typeName hfaulty hc
    · exact h w' hr hi hc

/-- A call that reads. -/
theorem ask_read {c : Call} {Q : Option Use → Reply c → World → Prop}
    (hread : ∀ w' : World, (w'.answer c).2 = w')
    (hok : ∀ (w' : World) a, Rely k w w' → (kept → w'.allowsUse c) → (w'.answer c).1 = .ok a → Q k a w')
    (herror : ∀ (w' : World) e, (kept → w'.allowsUse c) → (w'.answer c).1 = .error e → X k e w')
    (hfault : ∀ w' typeName, w'.fault = some typeName → (kept → w'.allowsUse c) →
      X k (.other typeName) w') :
    (ask c).HoldsAs (rules kept) k Q X w := by
  apply ask_holds ?_ hfault
  intro w' hr hi hc
  rw [hread w']
  exact ⟨k, ⟨hi, fun _ _ => Rely.refl _ _, .inl rfl⟩, fun a => hok w' a hr hc, fun e => herror w' e hc⟩

/-- Nothing that the rules are about is written. -/
theorem same_step {w' : World} (hi : Inv kept w) (hchallenges : w'.challenges = w.challenges)
    (hdevices : w'.devices.map RemoteDevice.deviceId = w.devices.map RemoteDevice.deviceId)
    (hpaired : w'.paired = w.paired) (hattempts : w'.attempts = w.attempts) :
    (rules kept).Step k w w' k := by
  refine ⟨⟨?_, ?_, ?_, ?_, ?_⟩, fun other _ => ⟨?_, ?_⟩, .inl rfl⟩
  · rw [hchallenges]; exact hi.ids
  · rw [hpaired, hchallenges]; exact hi.paired
  · rw [hpaired]; exact hi.uses
  · rw [hpaired, hdevices]; exact hi.devices
  · rw [hattempts]; exact hi.attempts
  · rw [hchallenges]
    exact (Rely.refl other w).challenges
  · intro use _ hs
    unfold World.isSpent at hs ⊢
    rwa [hpaired] at hs

theorem putHost_step (hi : Inv kept w) (host : HostInstance) :
    (rules kept).Step k w (w.putHost host) k := by
  unfold World.putHost
  split <;> exact same_step hi rfl rfl rfl rfl

theorem revokeDevice_step (hi : Inv kept w) (id : String) (now : Instant) :
    (rules kept).Step k w (w.revokeDevice id now).2 k := by
  unfold World.revokeDevice
  exact same_step hi rfl (map_update _ fun _ _ _ => rfl) rfl rfl

theorem createChallenge_step (hi : Inv kept w) (challenge : PairingChallenge) :
    (rules kept).Step k w (w.createChallenge challenge).2 k := by
  unfold World.createChallenge
  split
  · exact ⟨hi, fun _ _ => Rely.refl _ _, .inl rfl⟩
  · rename_i hfree
    rw [not_or] at hfree
    have hrely : ∀ other, Rely other w { w with challenges := w.challenges ++ [challenge] } :=
      fun other => ⟨fun old hold => ⟨old, List.mem_append_left _ hold, .refl old⟩, fun _ _ h => h⟩
    refine ⟨{ hi with ids := ?_, paired := ?_ }, fun other _ => hrely other, .inl rfl⟩
    · show ((w.challenges ++ [challenge]).map PairingChallenge.challengeId).Nodup
      rw [List.map_append, List.nodup_append]
      refine ⟨hi.ids, List.nodup_singleton _, ?_⟩
      intro a ha b hb heq
      obtain ⟨old, hold, rfl⟩ := List.mem_map.mp ha
      rw [List.mem_singleton.mp hb] at heq
      apply hfree.1
      rw [List.any_eq_true]
      exact ⟨old, hold, by rw [heq]; simp⟩
    · intro p hp
      obtain ⟨old, hold, hby⟩ := hi.paired p hp
      exact ⟨old, List.mem_append_left _ hold, hby⟩

/-- A challenge before and after one of its uses is consumed. -/
theorem consumed_before (now : Instant) (challenge : PairingChallenge) :
    challenge.Before (World.consumed now challenge) := by
  unfold World.consumed
  split
  · exact ⟨rfl, rfl, rfl, rfl, rfl, Nat.le_succ _⟩
  · exact .refl challenge

theorem consumed_uses {now : Instant} {challenge : PairingChallenge}
    (h : World.isOpen challenge now = true) :
    (World.consumed now challenge).uses = challenge.uses + 1 := by
  unfold World.isOpen at h
  rw [Bool.and_eq_true, decide_eq_true_eq] at h
  unfold World.consumed
  rw [dif_pos h.2]

/-- The use that an attempt has consumed, as long as it has not let a device in. -/
structure Holding (now : Instant) (challenge : PairingChallenge) (w : World) : Prop where
  positive : 1 ≤ challenge.uses
  expiry : now < challenge.expiresAt
  row : ∃ row ∈ w.challenges, challenge.Before row
  fresh : ¬w.isSpent (challenge.challengeId, challenge.uses)

theorem Holding.later {now : Instant} {challenge : PairingChallenge} {w' : World}
    (h : Holding now challenge w) (hr : Rely (some (challenge.challengeId, challenge.uses)) w w') :
    Holding now challenge w' := by
  refine { h with row := ?_, fresh := fun hs => h.fresh (hr.owned _ rfl hs) }
  obtain ⟨row, hrow, hbefore⟩ := h.row
  obtain ⟨row', hrow', hbefore'⟩ := hr.challenges row hrow
  exact ⟨row', hrow', hbefore.trans hbefore'⟩

theorem challenge?_eq (hi : Inv kept w) {challenge : PairingChallenge} (h : challenge ∈ w.challenges) :
    w.challenge? challenge.challengeId = some challenge := by
  unfold World.challenge?
  cases hfind : w.challenges.find? fun row => row.challengeId = challenge.challengeId with
  | none =>
    have hnone := List.find?_eq_none.mp hfind challenge h
    simp at hnone
  | some other =>
    have hid : other.challengeId = challenge.challengeId := by simpa using List.find?_some hfind
    rw [eq_of_key hi.ids (List.mem_of_find?_eq_some hfind) h hid]

/-- What consuming a use does to everybody. -/
theorem consumed_step (hi : Inv kept w) {p : PairingChallenge → Bool} (now : Instant) :
    Inv kept { w with challenges := update w.challenges p (World.consumed now) } ∧
      ∀ other, Rely other w { w with challenges := update w.challenges p (World.consumed now) } := by
  have hrely : ∀ other, Rely other w { w with challenges := update w.challenges p (World.consumed now) } := by
    intro other
    refine ⟨fun old hold => ⟨if p old then World.consumed now old else old,
      List.mem_map.mpr ⟨old, hold, rfl⟩, ?_⟩, fun _ _ h => h⟩
    split
    · exact consumed_before now old
    · exact .refl old
  refine ⟨{ hi with ids := ?_, paired := ?_ }, hrely⟩
  · show ((update w.challenges p (World.consumed now)).map PairingChallenge.challengeId).Nodup
    rw [map_update _ fun row _ _ => (consumed_before now row).id]
    exact hi.ids
  · intro paired hpaired
    obtain ⟨old, hold, hby⟩ := hi.paired paired hpaired
    obtain ⟨row, hrow, hbefore⟩ := (hrely none).challenges old hold
    exact ⟨row, hrow, hby.later hbefore⟩

/-- Consuming a use issues the ticket. -/
theorem consume_holds {request : PairingRequest} {now : Instant} {earlier : PairingChallenge}
    {Q : Option Use → PairingChallenge → World → Prop}
    (hearlier : ∃ row ∈ w.challenges, earlier.Before row)
    (hid : earlier.challengeId = request.challengeId)
    (hok : ∀ challenge w', Holding now challenge w' → (kept → request.isValid = true) →
      challenge.allowedScopes = earlier.allowedScopes →
      Q (some (challenge.challengeId, challenge.uses)) challenge w')
    (herror : ∀ k' e w', X k' e w') :
    (ask (.consumeChallenge request now)).HoldsAs (rules kept) k Q X w := by
  apply ask_holds ?_ fun w' typeName _ _ => herror _ _ _
  intro w' hr hi hallowed
  show ∃ k', (rules kept).Step k w' (w'.consumeChallenge _ _ _).2 k' ∧ _
  dsimp only [World.answer]
  unfold World.consumeChallenge
  dsimp only
  split
  · exact ⟨k, ⟨hi, fun _ _ => Rely.refl _ _, .inl rfl⟩, fun _ h => (nomatch h), fun e _ => herror _ _ _⟩
  · rename_i hcount
    obtain ⟨old, hold, hp⟩ := exists_of_rowcount (not_not.mp hcount)
    have hfound : (update w'.challenges (fun row => row.challengeId = request.challengeId &&
        row.code = request.oneTimeCode && World.isOpen row now) (World.consumed now)).find?
          (fun row => row.challengeId = request.challengeId) = some (World.consumed now old) := by
      have hold? := challenge?_eq hi hold
      rw [find?_update]
      · rw [Bool.and_eq_true, Bool.and_eq_true, decide_eq_true_eq, decide_eq_true_eq] at hp
        rw [hp.1.1] at hold?
        unfold World.challenge? at hold?
        rw [hold?]
        simp [hp]
      · intro row _ _
        rw [(consumed_before now row).id]
    rw [Bool.and_eq_true, Bool.and_eq_true, decide_eq_true_eq] at hp
    obtain ⟨⟨hsame, -⟩, hopen⟩ := hp
    have huses := consumed_uses hopen
    have hbefore := consumed_before now old
    obtain ⟨hinv, hrely⟩ := consumed_step hi (p := fun row => row.challengeId = request.challengeId &&
      row.code = request.oneTimeCode && World.isOpen row now) now
    have hmem := List.mem_of_find?_eq_some hfound
    -- The use is one over those that have been consumed.
    have hfresh : ¬w'.issued ((World.consumed now old).challengeId, (World.consumed now old).uses) := by
      intro hissued
      obtain ⟨other, hother, hotherId, hle⟩ := hissued
      rw [hbefore.id] at hotherId
      rw [eq_of_key hi.ids hother hold hotherId, huses] at hle
      omega
    refine ⟨some ((World.consumed now old).challengeId, (World.consumed now old).uses),
      ⟨hinv, fun other _ => hrely other, .inr (.inr ⟨_, rfl, hfresh, _, hmem, rfl, Nat.le_refl _⟩)⟩,
      fun challenge hc => ?_, fun e _ => herror _ _ _⟩
    unfold World.challenge? World.found at hc
    dsimp only at hc
    rw [hfound] at hc
    cases hc
    apply hok
    · constructor
      · omega
      · unfold World.isOpen at hopen
        rw [Bool.and_eq_true, Bool.and_eq_true, decide_eq_true_eq] at hopen
        rw [hbefore.expiry]
        exact hopen.1.1
      · exact ⟨_, hmem, .refl _⟩
      · intro hspent
        obtain ⟨p, hp, huse⟩ := hspent
        obtain ⟨by', hby', hspent⟩ := hi.paired p hp
        apply hfresh
        rw [← huse]
        exact ⟨by', hby', hspent.id, hspent.use⟩
    · exact hallowed
    · obtain ⟨row, hrow, hearlier⟩ := hearlier
      obtain ⟨row', hrow', hlater⟩ := hr.challenges row hrow
      have hrowId := (hearlier.trans hlater).id.trans hid
      rw [hbefore.scopes, ← eq_of_key hi.ids hrow' hold (hrowId.trans hsame.symm)]
      exact (hearlier.trans hlater).scopes

/-- The owner of a use lets a device in. -/
theorem putDevice_holds {now : Instant} {challenge : PairingChallenge} {device : RemoteDevice}
    {Q : Option Use → Unit → World → Prop} (hholding : Holding now challenge w)
    (hhost : device.hostId = challenge.hostId) (hpaired : device.pairedAt = now)
    (hscopes : ∀ scope ∈ device.scopes, scope ∈ challenge.allowedScopes)
    (hok : ∀ k' w', Q k' () w') (herror : ∀ k' e w', ¬kept → X k' e w') :
    (ask (.putDevice device (challenge.challengeId, challenge.uses))).HoldsAs (rules kept)
      (some (challenge.challengeId, challenge.uses)) Q X w := by
  apply ask_holds
  · intro w' hr hi hallowed
    have hholding' := hholding.later hr
    show ∃ k', (rules kept).Step _ w' (w'.putDevice _ _).2 k' ∧ _
    dsimp only [World.answer]
    unfold World.putDevice
    split
    · rename_i hrefused
      refine ⟨_, ⟨hi, fun _ _ => Rely.refl _ _, .inl rfl⟩, fun _ h => (nomatch h), fun e _ => ?_⟩
      apply herror
      intro hk
      obtain ⟨-, hfree, hthere⟩ := hallowed hk
      rw [hfree, ← Option.not_isSome, hthere] at hrefused
      simp at hrefused
    · refine ⟨_, ⟨{ hi with paired := ?_, uses := ?_, devices := ?_ }, ?_, .inl rfl⟩,
        fun _ _ => hok _ _, fun _ h => (nomatch h)⟩
      · intro p hp
        cases List.mem_append.mp hp with
        | inl hold => exact hi.paired p hold
        | inr hnew =>
          rw [List.mem_singleton.mp hnew]
          obtain ⟨row, hrow, hbefore⟩ := hholding'.row
          refine ⟨row, hrow, ?_⟩
          constructor
          · exact hbefore.id
          · exact hholding'.positive
          · exact hbefore.uses
          · exact hhost.trans hbefore.host.symm
          · rw [hbefore.scopes]
            exact hscopes
          · rw [hbefore.expiry, hpaired]
            exact hholding'.expiry
      · show ((w'.paired ++ _).map Paired.use).Nodup
        rw [List.map_append, List.nodup_append]
        refine ⟨hi.uses, List.nodup_singleton _, ?_⟩
        intro a ha b hb heq
        rw [List.mem_singleton.mp hb] at heq
        obtain ⟨p, hp, huse⟩ := List.mem_map.mp ha
        exact hholding'.fresh ⟨p, hp, huse.trans heq⟩
      · show (w'.devices ++ _).map _ = (w'.paired ++ _).map _
        rw [List.map_append, List.map_append, hi.devices]
        rfl
      · intro other hother
        refine ⟨fun row hrow => ⟨row, hrow, .refl row⟩, fun use huse hs => ?_⟩
        obtain ⟨p, hp, hpuse⟩ := hs
        cases List.mem_append.mp hp with
        | inl hold => exact ⟨p, hold, hpuse⟩
        | inr hnew =>
          rw [List.mem_singleton.mp hnew] at hpuse
          exact absurd (congrArg some hpuse) (hother use huse).1
  · intro w' typeName hfaulty hallowed
    apply herror
    intro hk
    rw [(hallowed hk).1] at hfaulty
    exact nomatch hfaulty

/-! ### Attempts -/

theorem found_ok {α : Type} {row : Option α} {a : α} (h : World.found row = .ok a) : row = some a := by
  unfold World.found at h
  cases row with
  | none => exact nomatch h
  | some row =>
    cases h
    rfl

/-- The host, as it is checked for a use that has been consumed. -/
theorem activeHost_holds {now : Instant} {challenge : PairingChallenge}
    (hholding : Holding now challenge w) :
    (activeHost challenge.hostId (some (challenge.challengeId, challenge.uses))).HoldsAs (rules kept)
      (some (challenge.challengeId, challenge.uses))
      (fun k' _ w' => k' = some (challenge.challengeId, challenge.uses) ∧ Holding now challenge w')
      (fun _ _ _ => ¬kept) w := by
  unfold activeHost
  apply Prog.HoldsAs.bind
  apply Prog.HoldsAs.attempt exec_ok
  apply ask_read fun _ => rfl
  · intro w' host hr hallowed ha
    have hfound : w'.host? challenge.hostId = some host := found_ok ha
    show Prog.HoldsAs (rules kept) _ (if _ then _ else _) _ _ w'
    split
    · rename_i hinactive
      intro hk
      have hactive := (hallowed hk).2
      rw [hfound, Option.any_some] at hactive
      rw [hactive] at hinactive
      exact nomatch hinactive
    · exact ⟨rfl, hholding.later hr⟩
  · intro w' e hallowed he
    have hnot : ¬kept := by
      intro hk
      have hactive := (hallowed hk).2
      have he : World.found (w'.host? challenge.hostId) = .error e := he
      cases hhost : w'.host? challenge.hostId with
      | none =>
        rw [hhost] at hactive
        exact nomatch hactive
      | some host =>
        rw [hhost] at he
        exact nomatch he
    cases e <;> exact hnot
  · intro w' typeName hfaulty hallowed hk
    rw [(hallowed hk).1] at hfaulty
    exact nomatch hfaulty

/-- From the consumption of a use on, nothing raises where no use is to be lost. -/
theorem letIn_holds {request : PairingRequest} {deviceId : String} {now : Instant}
    {requested : List RemoteScope} {challenge : PairingChallenge} (hholding : Holding now challenge w)
    (hvalid : kept → request.isValid = true)
    (hscopes : ∀ scope ∈ requested, scope ∈ challenge.allowedScopes) :
    (letIn request deviceId now requested challenge).HoldsAs (rules kept)
      (some (challenge.challengeId, challenge.uses)) (fun _ _ _ => True) (fun _ _ _ => ¬kept) w := by
  unfold letIn
  apply Prog.HoldsAs.bind
  apply (activeHost_holds hholding).mono ?_ fun _ _ _ h => h
  intro k' _ w' h
  obtain ⟨rfl, hholding'⟩ := h
  split
  · rename_i hinvalid
    intro hk
    rw [hvalid hk] at hinvalid
    exact nomatch hinvalid
  · apply Prog.HoldsAs.bind
    exact putDevice_holds hholding' rfl rfl hscopes (fun _ _ => trivial) fun _ _ _ h => h

theorem now_holds {Q : Option Use → Instant → World → Prop}
    (hok : ∀ w' now, Rely k w w' → Q k now w') (herror : ∀ e w', X k e w') :
    (ask .now).HoldsAs (rules kept) k Q X w :=
  ask_read (fun _ => rfl) (fun w' now hr _ _ => hok w' now hr) (fun w' e _ _ => herror e w')
    fun w' _ _ _ => herror _ w'

/-- A consumed use is held, for scopes that the challenge allows. -/
theorem consume_keeps (request : PairingRequest) :
    (consume request).HoldsAs (rules kept) none
      (fun k' consumed w' => k' = some (consumed.2.2.challengeId, consumed.2.2.uses) ∧
        Holding consumed.1 consumed.2.2 w' ∧ (kept → request.isValid = true) ∧
        ∀ scope ∈ consumed.2.1, scope ∈ consumed.2.2.allowedScopes) (fun _ _ _ => True) w := by
  unfold consume
  apply Prog.HoldsAs.bind
  apply now_holds ?_ fun _ _ => trivial
  intro w₁ now _
  dsimp only
  split
  · trivial
  · apply Prog.HoldsAs.bind
    apply ask_read (fun _ => rfl) ?_ (fun _ _ _ _ => trivial) fun _ _ _ _ => trivial
    intro w₂ earlier _ _ ha
    have hfound : w₂.challenge? request.challengeId = some earlier := found_ok ha
    have hid : earlier.challengeId = request.challengeId := by simpa using List.find?_some hfound
    split
    · trivial
    · rename_i hscopes
      rw [Bool.not_eq_true', Bool.not_eq_false, List.all_eq_true] at hscopes
      apply Prog.HoldsAs.bind
      apply consume_holds ⟨earlier, List.mem_of_find?_eq_some hfound, .refl earlier⟩ hid ?_
        fun _ _ _ => trivial
      intro challenge w₃ hholding hvalid hsame
      refine ⟨rfl, hholding, hvalid, fun scope hscope => ?_⟩
      rw [hsame]
      exact of_decide_eq_true (hscopes scope hscope)

theorem attempt_keeps (request : PairingRequest) (deviceId : String) :
    (attempt request deviceId).HoldsAs (rules kept) none
      (fun _ a _ => kept → a.raised = true → a.consumed = none) (fun _ _ _ => True) w := by
  unfold attempt
  apply Prog.HoldsAs.bind
  apply Prog.HoldsAs.attempt exec_ok
  apply (consume_keeps request).mono
  · intro k' consumed w' h
    obtain ⟨now, requested, challenge⟩ := consumed
    obtain ⟨rfl, hholding, hvalid, hscopes⟩ := h
    apply Prog.HoldsAs.bind
    apply Prog.HoldsAs.attempt exec_ok
    apply (letIn_holds hholding hvalid hscopes).mono
    · exact fun _ _ _ _ _ hraised => nomatch hraised
    · exact fun _ _ _ hnot hk => absurd hk hnot
  · exact fun _ _ _ _ _ _ => rfl

/-! ### The other operations -/

/-- A call of somebody who owns nothing. -/
theorem ask_nobody {c : Call} (h : ∀ w', Inv kept w' → (rules kept).Step none w' (w'.answer c).2 none) :
    (ask c).HoldsAs (rules kept) none (fun k' _ _ => k' = none) (fun _ _ _ => True) w := by
  apply ask_holds ?_ fun _ _ _ _ => trivial
  intro w' _ hi _
  exact ⟨none, h w' hi, fun _ _ => rfl, fun _ _ => trivial⟩

theorem createPairingChallenge_keeps (request : ChallengeRequest) :
    (createPairingChallenge request).HoldsAs (rules kept) none (fun k' _ _ => k' = none)
      (fun _ _ _ => True) w := by
  unfold createPairingChallenge
  split
  · apply Prog.HoldsAs.bind
    apply now_holds ?_ fun _ _ => trivial
    intro w₁ now _
    apply Prog.HoldsAs.bind
    unfold activeHost
    apply Prog.HoldsAs.bind
    apply Prog.HoldsAs.attempt exec_ok
    apply (ask_read (Q := fun k' _ _ => k' = none) (X := fun _ _ _ => True) (fun _ => rfl)
      (fun _ _ _ _ _ => rfl) (fun _ _ _ _ => trivial) fun _ _ _ _ => trivial).mono
    · intro k' host w₂ hk
      obtain rfl := hk
      show Prog.HoldsAs (rules kept) none (if _ then _ else _) _ _ w₂
      split
      · trivial
      · show Prog.HoldsAs (rules kept) none (if h : _ then _ else _) _ _ w₂
        split
        · apply Prog.HoldsAs.bind
          exact ask_nobody fun w' hi => createChallenge_step hi _
        · trivial
    · intro k' e w₂ _
      cases e <;> trivial
  · trivial

/-- What is asked of the end of a task. -/
def Ends (kept : Prop) (_ : Task) (_ : Option Use) (ending : Option Attempt) (_ : World) : Prop :=
  kept → ∀ a ∈ ending, a.raised = true → a.consumed = none

/-- A task of which we note nothing. -/
theorem unnoted_keeps {α : Type} {p : Action α} {task : Task}
    (h : p.HoldsAs (rules kept) none (fun k' _ _ => k' = none) (fun _ _ _ => True) w) :
    (p >>= fun _ => pure (none : Option Attempt)).HoldsAs (rules kept) none (Ends kept task)
      (fun _ _ _ => True) w := by
  apply Prog.HoldsAs.bind
  exact h.mono (fun _ _ _ _ _ _ hn => nomatch hn) fun _ _ _ h => h

theorem code_keeps (task : Task) :
    task.code.HoldsAs (rules kept) none (Ends kept task) (fun _ _ _ => True) w := by
  cases task with
  | pair request deviceId =>
    apply Prog.HoldsAs.bind
    apply (attempt_keeps request deviceId).mono ?_ fun _ _ _ h => h
    intro k' a w' h hk a' ha hraised
    cases ha
    exact h hk hraised
  | create request => exact unnoted_keeps (createPairingChallenge_keeps request)
  | put challenge => exact unnoted_keeps (ask_nobody fun w' hi => createChallenge_step hi challenge)
  | putHost host => exact unnoted_keeps (ask_nobody fun w' hi => putHost_step hi host)
  | revoke deviceId =>
    apply Prog.HoldsAs.bind
    apply now_holds ?_ fun _ _ => trivial
    intro w₁ now _
    exact unnoted_keeps (ask_nobody fun w' hi => revokeDevice_step hi deviceId now)
  | outside clock fault =>
    exact unnoted_keeps (ask_nobody fun w' hi => same_step hi rfl rfl rfl rfl)

/-- All programs keep the rules. -/
theorem system_sound (kept : Prop) : Pool.OwnersSound (rules kept) (Ends kept) system where
  exec := rfl
  code _ _ _ := code_keeps _
  note task k ending w w' h _ hi := by
    refine ⟨{ hi with attempts := ?_ }, fun other _ => ⟨(Rely.refl other w').challenges, fun _ _ hs => hs⟩,
      .inr (.inl rfl)⟩
    intro hk a ha hraised
    cases List.mem_append.mp ha with
    | inl hold => exact hi.attempts hk a hold hraised
    | inr hnew => exact h hk a (Option.mem_toList.mp hnew) hraised

end Rules

/-! ### Every run -/

theorem inv_empty (kept : Prop) : Inv kept {} where
  ids := List.nodup_nil
  paired _ h := nomatch h
  uses := List.nodup_nil
  devices := rfl
  attempts _ _ h := nomatch h

theorem reached_inv {kept : Prop} {moves : List (Move Task)}
    (h : Pool.Meets system (rules kept).allowed start moves) : Inv kept (reached moves) := by
  obtain ⟨⟨ks, howns⟩, -⟩ := (Pool.Owns.init (inv_empty kept)).play (system_sound kept) moves h
  exact howns.inv

/-- The devices that the challenge let in. -/
def World.pairedWith (w : World) (challenge : PairingChallenge) : List Paired :=
  w.paired.filter fun p => p.use.1 = challenge.challengeId

/-- Each device has a use of its own. -/
theorem Inv.pairedWith_le {kept : Prop} {w : World} (hi : Inv kept w) {challenge : PairingChallenge}
    (hc : challenge ∈ w.challenges) : (w.pairedWith challenge).length ≤ challenge.uses := by
  have huses : ((w.pairedWith challenge).map fun p => p.use.2).Nodup := by
    have hall : ((w.pairedWith challenge).map Paired.use).Nodup := hi.uses.sublist (List.filter_sublist.map _)
    rw [List.nodup_iff_pairwise_ne, List.pairwise_map] at hall ⊢
    refine hall.imp_of_mem ?_
    intro a b ha hb hne heq
    apply hne
    have hsame : a.use.1 = b.use.1 :=
      (of_decide_eq_true (List.mem_filter.mp ha).2).trans (of_decide_eq_true (List.mem_filter.mp hb).2).symm
    exact Prod.ext hsame heq
  have hrange : ∀ n ∈ (w.pairedWith challenge).map (fun p => p.use.2), n ∈ List.range' 1 challenge.uses := by
    intro n hn
    obtain ⟨p, hp, rfl⟩ := List.mem_map.mp hn
    obtain ⟨hmem, hid⟩ := List.mem_filter.mp hp
    obtain ⟨row, hrow, hby⟩ := hi.paired p hmem
    obtain rfl := eq_of_key hi.ids hrow hc (hby.id.trans (of_decide_eq_true hid))
    have hpositive := hby.positive
    have huse := hby.use
    rw [List.mem_range'_1]
    omega
  calc (w.pairedWith challenge).length = ((w.pairedWith challenge).map fun p => p.use.2).length :=
        (List.length_map _).symm
    _ ≤ (List.range' 1 challenge.uses).length := (huses.subperm hrange).length_le
    _ = challenge.uses := List.length_range'

/-- A task alone, for this many steps. -/
def alone (task : Task) (steps : Nat) : List (Move Task) :=
  .start task :: List.replicate steps (.step 0)

def desk (enabled : Bool) : HostInstance :=
  { hostId := "desk", protocolVersion := "v1", enabled := enabled
    onlineState := if enabled then .online else .offline }

def phone : PairingRequest :=
  { challengeId := "challenge", oneTimeCode := "one-time-code-0", displayName := "phone"
    signingPublicKey := "signing-key-signing-key-signing-key"
    exchangePublicKey := "exchange-key-exchange-key-exchange" }

/-- The host is there, and a challenge. -/
def challenged : List (Move Task) :=
  alone (.putHost (desk true)) 2 ++
    alone (.create { hostId := "desk", challengeId := "challenge", code := "one-time-code-0" }) 4

/-- An attempt with a wrong code, and one with the right one. -/
def pairedOnce : List (Move Task) :=
  challenged ++ alone (.pair { phone with oneTimeCode := "wrong-code" } "phone-1") 6 ++
    alone (.pair phone "phone-2") 6

/-- The right code, for a host that is disabled by then. -/
def disabledHost : List (Move Task) :=
  challenged ++ alone (.putHost (desk false)) 2 ++ alone (.pair phone "phone-1") 6

end Operant.RemoteControl.Pairing
