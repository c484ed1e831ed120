import NostrLn.Service.World

/-!
# Who signed the grants

`Grants::apply` looks at the author of an event and not at its signature; that it leaves to the
client. The client verifies an event when its id is new to it. An event that carries an id on
record, whatever its other fields, is handed on as it is, and the re-read gives it to the grants.
-/

namespace NostrLn

variable {crypto : Crypto} {svc : Service} {codec : Codec} {node : PublicKey}
  {parse : String → Option UsageProfile} {w w' : World}

/-- No event that carries an id on record is a grant that does not verify: on the subscription, or
in the answer to a fetch. -/
def NoForgery (crypto : Crypto) (svc : Service) (node : PublicKey) (w : World) : Act → Prop
  | .deliver event => w.client.Trusts crypto (IsGrant node svc.owners) [event]
  | .deliverUnseen event => w.client.Trusts crypto (IsGrant node svc.owners) [event]
  | .fetch => w.client.Trusts crypto (IsGrant node svc.owners) w.held
  | _ => True

/-! ### What a store has taken -/

lemma Grants.isGrant_of_stores {g : Grants} (hnode : g.node = some node) {e : Event}
    (h : g.stores parse e = true) : IsGrant node g.owners e := by
  obtain ⟨k, hk, _⟩ | ⟨r, hr, heq, _⟩ := Grants.apply_cases parse hnode e
  · exact ⟨k, hk⟩
  · rw [Grants.stores, heq] at h
    cases r <;> simp at h hr

lemma Grants.mem_storedFrom_cons {g : Grants} {e x : Event} {es : List Event} :
    x ∈ g.storedFrom parse (e :: es) ↔
      (g.stores parse e = true ∧ x = e) ∨ x ∈ (g.apply parse e).2.storedFrom parse es := by
  simp only [Grants.storedFrom]
  split_ifs with hstores <;> simp [hstores]

/-- What is stored from a list is a grant of that list. -/
lemma Grants.mem_storedFrom {g : Grants} (hnode : g.node = some node) {es : List Event} {e : Event}
    (h : e ∈ g.storedFrom parse es) : e ∈ es ∧ IsGrant node g.owners e := by
  induction es generalizing g with
  | nil => simp [Grants.storedFrom] at h
  | cons e' es ih =>
    rcases Grants.mem_storedFrom_cons.mp h with ⟨hstores, rfl⟩ | h
    · exact ⟨by simp, Grants.isGrant_of_stores hnode hstores⟩
    · obtain ⟨hmem, hgrant⟩ := ih (by rw [Grants.node_apply, hnode]) h
      rw [Grants.owners_apply] at hgrant
      exact ⟨by simp [hmem], hgrant⟩

/-- One `apply`: what a slot holds after it was there, or is the event's and was stored. -/
lemma Grants.getRaw_apply_cases {g : Grants} (hnode : g.node = some node) {e : Event} {k : String}
    {v : VerifiedGrant} (h : (g.apply parse e).2.getRaw k = some v) :
    g.getRaw k = some v ∨
      (g.stores parse e = true ∧ Eligible node g.owners k e ∧ v = VerifiedGrant.ofEvent parse e) := by
  obtain ⟨k', hk', _, heq⟩ | ⟨r, _, heq, _⟩ := Grants.apply_cases parse hnode e
  · rw [heq, Grants.getRaw_store] at h
    split_ifs at h with hkk
    · subst hkk
      refine Or.inr ⟨?_, hk', by simpa using h.symm⟩
      rw [Grants.stores, heq]
      split_ifs <;> rfl
    · exact Or.inl h
  · rw [heq] at h
    exact Or.inl h

/-- Whatever a slot holds after a list was applied was there before, or is stored from the list. -/
lemma Grants.getRaw_applyAll_cases {g : Grants} (hnode : g.node = some node) {es : List Event}
    {k : String} {v : VerifiedGrant} (h : (g.applyAll parse es).getRaw k = some v) :
    g.getRaw k = some v ∨ ∃ e ∈ g.storedFrom parse es,
      Eligible node g.owners k e ∧ v = VerifiedGrant.ofEvent parse e := by
  induction es generalizing g with
  | nil => exact Or.inl h
  | cons e es ih =>
    rw [Grants.applyAll_cons] at h
    rcases ih (by rw [Grants.node_apply, hnode]) h with h | ⟨x, hx, helig, hv⟩
    · rcases Grants.getRaw_apply_cases hnode h with h | ⟨hstores, helig, hv⟩
      · exact Or.inl h
      · exact Or.inr ⟨e, Grants.mem_storedFrom_cons.mpr (Or.inl ⟨hstores, rfl⟩), helig, hv⟩
    · rw [Grants.owners_apply] at helig
      exact Or.inr ⟨x, Grants.mem_storedFrom_cons.mpr (Or.inr hx), helig, hv⟩

/-! ### Along a run -/

/-- What holds while nobody forges: what waits to be polled verifies, if it is a grant; what was
stored verifies and is an owner's; and what the store holds was stored. -/
structure Signed (crypto : Crypto) (svc : Service) (codec : Codec) (node : PublicKey) (w : World) :
    Prop where
  me : w.loop.own.grants.node = some node
  ours : w.loop.own.grants.owners = svc.owners
  waiting : ∀ e ∈ w.receiver, IsGrant node svc.owners e → e.verify crypto = true
  stored : ∀ e ∈ w.stored, e.verify crypto = true ∧ IsGrant node svc.owners e
  held : ∀ k v, w.loop.own.grants.getRaw k = some v → ∃ e ∈ w.stored,
    Eligible node svc.owners k e ∧ v = VerifiedGrant.ofEvent codec.parseProfile e

/-- Applying events that verify, if they are grants, keeps everything signed. -/
lemma Signed.applyAll (h : Signed crypto svc codec node w) {fed : List Event}
    (hfed : ∀ e ∈ fed, IsGrant node svc.owners e → e.verify crypto = true)
    (hgrants : w'.loop.own.grants = w.loop.own.grants.applyAll codec.parseProfile fed)
    (hstored : w'.stored = w.stored ++ w.loop.own.grants.storedFrom codec.parseProfile fed)
    (hwaiting : ∀ e ∈ w'.receiver, IsGrant node svc.owners e → e.verify crypto = true) :
    Signed crypto svc codec node w' := by
  refine ⟨by rw [hgrants, Grants.node_applyAll, h.me],
    by rw [hgrants, Grants.owners_applyAll, h.ours], hwaiting, ?_, ?_⟩
  · intro e he
    rw [hstored] at he
    rcases List.mem_append.mp he with he | he
    · exact h.stored e he
    · obtain ⟨hmem, hgrant⟩ := Grants.mem_storedFrom h.me he
      rw [h.ours] at hgrant
      exact ⟨hfed e hmem hgrant, hgrant⟩
  · intro k v hv
    rw [hgrants] at hv
    rw [hstored]
    rcases Grants.getRaw_applyAll_cases h.me hv with hv | ⟨e, he, helig, hv⟩
    · obtain ⟨e, he, helig, hv⟩ := h.held k v hv
      exact ⟨e, by simp [he], helig, hv⟩
    · rw [h.ours] at helig
      exact ⟨e, by simp [he], helig, hv⟩

lemma Signed.start (crypto : Crypto) (svc : Service) (codec : Codec) (node : PublicKey) :
    Signed crypto svc codec node (World.start svc node) := by
  refine ⟨rfl, rfl, by simp [World.start], by simp [World.start], ?_⟩
  intro k v hv
  simp [World.start] at hv

/-- A step that forges nothing keeps everything signed. -/
lemma Signed.step (h : Signed crypto svc codec node w) {act : Act}
    (hact : NoForgery crypto svc node w act) (hstep : w.step crypto svc codec act = some w') :
    Signed crypto svc codec node w' := by
  cases World.stepped hstep with
  | publish event => exact ⟨h.me, h.ours, h.waiting, h.stored, h.held⟩
  | drop event => exact ⟨h.me, h.ours, h.waiting, h.stored, h.held⟩
  | deliver event hheld =>
    have hannounced := World.forall_announce h.waiting (Client.verify_of_announced hact)
    obtain ⟨early, late, hdeliver⟩ := w.exists_deliver crypto event
    rw [hdeliver]
    exact ⟨h.me, h.ours, hannounced, h.stored, h.held⟩
  | deliverUnseen event hheld =>
    have hannounced := World.forall_announce h.waiting (Client.verify_of_unseen hact)
    obtain ⟨early, late, hdeliver⟩ := w.exists_deliverUnseen crypto event
    rw [hdeliver]
    exact ⟨h.me, h.ours, hannounced, h.stored, h.held⟩
  | fetch stage hstage =>
    refine h.applyAll ?_ (Delivery.grants_feedAll codec w.loop.own _) rfl
      (World.forall_announce h.waiting (Client.verify_of_announced hact))
    intro e he
    have hmem := (perm_oldestFirst _).mem_iff.mp (List.mem_of_mem_filter he)
    exact Client.verify_of_returned hact e hmem
  | fetchFails stage hstage => exact ⟨h.me, h.ours, h.waiting, h.stored, h.held⟩
  | listen hstage => exact ⟨h.me, h.ours, h.waiting, h.stored, h.held⟩
  | poll now event rest hstage hreceiver =>
    have hwaiting := h.waiting
    rw [hreceiver] at hwaiting
    refine h.applyAll ?_ (svc.grants_onEvent codec w.loop event now) rfl fun e he =>
      hwaiting e (by simp [show e ∈ rest from he])
    intro e he
    exact hwaiting e (by simp [List.mem_singleton.mp (List.mem_of_mem_filter he)])
  | evict keep => exact ⟨h.me, h.ours, h.waiting, h.stored, h.held⟩

/-- **Signed grants.** In a run in which no event under an id on record is a grant that does not
verify, every event that a grant was stored from verifies, under the key of an owner; and every
grant that is in the store was stored from such an event. -/
theorem stored_grants_are_signed (crypto : Crypto) (svc : Service) (codec : Codec)
    (node : PublicKey) (w : World)
    (hreach : Reaches crypto svc codec (NoForgery crypto svc node) (World.start svc node) w) :
    (∀ e ∈ w.stored, e.verify crypto = true ∧ e.pubkey ∈ svc.owners) ∧
    ∀ k v, w.loop.own.grants.getRaw k = some v →
      ∃ e ∈ w.stored, v = VerifiedGrant.ofEvent codec.parseProfile e := by
  have hsigned : Signed crypto svc codec node w := by
    induction hreach with
    | refl => exact Signed.start crypto svc codec node
    | step _ hallowed hstep ih => exact ih.step hallowed hstep
  refine ⟨?_, ?_⟩
  · intro e he
    obtain ⟨hverify, k, helig⟩ := hsigned.stored e he
    exact ⟨hverify, helig.author⟩
  · intro k v hv
    obtain ⟨e, he, _, hv⟩ := hsigned.held k v hv
    exact ⟨e, he, hv⟩

/-! ### A forged grant -/

namespace Sample

/-- What anybody can send: an event of their own, properly signed. -/
def decoy : Event := subscriptionEvent 8 "1" 5

/-- A grant in the owner's name, under the id of the decoy and with its signature. -/
def forged : Event :=
  { grantEvent 2 (key 8).toHex everyMethod 9 with id := decoy.id, sig := decoy.sig }

/-- The decoy is delivered and its id recorded; then the fetch is answered with the forged grant. -/
def forging : List Act := [.publish decoy, .deliver decoy, .publish forged, .fetch]

/-- The relays hold one grant, signed by the owner. -/
def holding : World :=
  { World.start idle (key 1) with held := [grantEvent 2 (key 4).toHex revocation 5] }

end Sample

open Sample in
/-- The forged grant is stored. -/
theorem forged_grant_is_stored :
    ¬ ∀ (crypto : Crypto) (svc : Service) (codec : Codec) (node : PublicKey) (w : World),
      Reaches crypto svc codec (fun _ _ => True) (World.start svc node) w →
      ∀ e ∈ w.stored, e.verify crypto = true ∧ e.pubkey ∈ svc.owners := by
  intro h
  have hforged : ((World.start idle (key 1)).run toyCrypto idle plain forging).any
      (fun w => w.stored.any fun e => !e.verify toyCrypto) = true := by decide +kernel
  cases hrun : (World.start idle (key 1)).run toyCrypto idle plain forging with
  | none =>
    rw [hrun] at hforged
    cases hforged
  | some w =>
    rw [hrun, Option.any_some, List.any_eq_true] at hforged
    obtain ⟨e, he, hnot⟩ := hforged
    have := (h toyCrypto idle plain (key 1) w (World.reaches_of_run (fun _ _ _ => trivial) hrun) e he).1
    simp [this] at hnot

open Sample in
/-- A grant that the owner did sign is read, and stored. -/
theorem stored_grants_are_signed_read :
    (holding.refresh toyCrypto plain).stored.length = 1 ∧
    ∀ e ∈ (holding.refresh toyCrypto plain).stored,
      e.verify toyCrypto = true ∧ e.pubkey ∈ idle.owners := by
  have hpublish : (World.start idle (key 1)).step toyCrypto idle plain
      (.publish (grantEvent 2 (key 4).toHex revocation 5)) = some holding := rfl
  have hfetch : holding.step toyCrypto idle plain .fetch =
      some { holding.refresh toyCrypto plain with stage := .fetched } := rfl
  have hread : Reaches toyCrypto idle plain (NoForgery toyCrypto idle (key 1))
      (World.start idle (key 1)) { holding.refresh toyCrypto plain with stage := .fetched } := by
    refine .step (.step .refl ?_ hpublish) ?_ hfetch
    · trivial
    · refine ⟨?_, trivial⟩
      rintro (h | h) <;> cases h
  have hsigned := stored_grants_are_signed toyCrypto idle plain (key 1) _ hread
  exact ⟨by decide +kernel, hsigned.1⟩

end NostrLn
