import NostrLn.Grant.Order
import NostrLn.Service.Execution
import NostrLn.Service.Forgery
import NostrLn.Service.Validation

/-!
# What stands behind a call

The wallet and the node are called for a request that its author signed, under a grant that an owner
signed. The pipeline sees neither signature, only the store of grants it is given and the event at
hand; between the two signatures and the call lie the client, its memory of ids, the re-reads and
the order in which the relays deliver.
-/

namespace NostrLn

open Serde

variable {crypto : Crypto} {svc : Service} {codec : Codec} {node : PublicKey} {w w' : World}
  {loop : Loop} {event : Event} {now : UInt64} {call : Call}

/-! ### From a call to its request -/

/-- A signature is relied on: that of an owner under a grant, or that of a requester. -/
def Relied (node : PublicKey) (owners : List PublicKey) (e : Event) : Prop :=
  IsGrant node owners e ∨ e.isRequest = true

/-- No event that carries an id on record is a grant or a request that does not verify: on the
subscription, or in the answer to a fetch. -/
def Authentic (crypto : Crypto) (svc : Service) (node : PublicKey) (w : World) : Act → Prop
  | .deliver event => w.client.Trusts crypto (Relied node svc.owners) [event]
  | .deliverUnseen event => w.client.Trusts crypto (Relied node svc.owners) [event]
  | .fetch => w.client.Trusts crypto (Relied node svc.owners) w.held
  | _ => True

/-- What holds while nobody forges: the store is what the events applied make of an empty one, and
the grants among these, and all that is relied on among what waits, verify. -/
structure Vouched (crypto : Crypto) (svc : Service) (codec : Codec) (node : PublicKey) (w : World) :
    Prop where
  grants : w.loop.own.grants =
    (Grants.new node svc.owners).applyAll codec.parseProfile w.applied
  applied : ∀ e ∈ w.applied, IsGrant node svc.owners e → e.verify crypto = true
  waiting : ∀ e ∈ w.receiver, Relied node svc.owners e → e.verify crypto = true

lemma Vouched.start (crypto : Crypto) (svc : Service) (codec : Codec) (node : PublicKey) :
    Vouched crypto svc codec node (World.start svc node) :=
  ⟨rfl, by simp [World.start], by simp [World.start]⟩

/-- Applying more grants that verify. -/
lemma Vouched.applyAll (h : Vouched crypto svc codec node w) {fed : List Event}
    (hfed : ∀ e ∈ fed, IsGrant node svc.owners e → e.verify crypto = true)
    (hgrants : w'.loop.own.grants = w.loop.own.grants.applyAll codec.parseProfile fed)
    (happlied : w'.applied = w.applied ++ fed)
    (hwaiting : ∀ e ∈ w'.receiver, Relied node svc.owners e → e.verify crypto = true) :
    Vouched crypto svc codec node w' := by
  refine ⟨by simp [hgrants, h.grants, happlied, Grants.applyAll], ?_, hwaiting⟩
  intro e he
  rw [happlied] at he
  rcases List.mem_append.mp he with he | he
  · exact h.applied e he
  · exact hfed e he

lemma Vouched.step (h : Vouched crypto svc codec node w) {act : Act}
    (hact : Authentic crypto svc node w act) (hstep : w.step crypto svc codec act = some w') :
    Vouched crypto svc codec node w' := by
  cases World.stepped hstep with
  | publish event => exact ⟨h.grants, h.applied, h.waiting⟩
  | drop event => exact ⟨h.grants, h.applied, h.waiting⟩
  | deliver event hheld =>
    have hannounced := World.forall_announce h.waiting (Client.verify_of_announced hact)
    obtain ⟨early, late, hdeliver⟩ := w.exists_deliver crypto event
    rw [hdeliver]
    exact ⟨h.grants, h.applied, hannounced⟩
  | deliverUnseen event hheld =>
    have hannounced := World.forall_announce h.waiting (Client.verify_of_unseen hact)
    obtain ⟨early, late, hdeliver⟩ := w.exists_deliverUnseen crypto event
    rw [hdeliver]
    exact ⟨h.grants, h.applied, hannounced⟩
  | fetch stage hstage =>
    refine h.applyAll ?_ (Delivery.grants_feedAll codec w.loop.own _) rfl
      (World.forall_announce h.waiting (Client.verify_of_announced hact))
    intro e he hgrant
    have hmem := (perm_oldestFirst _).mem_iff.mp (List.mem_of_mem_filter he)
    exact Client.verify_of_returned hact e hmem (Or.inl hgrant)
  | fetchFails stage hstage => exact ⟨h.grants, h.applied, h.waiting⟩
  | listen hstage => exact ⟨h.grants, h.applied, h.waiting⟩
  | poll now event rest hstage hreceiver =>
    have hwaiting := h.waiting
    rw [hreceiver] at hwaiting
    refine h.applyAll ?_ (svc.grants_onEvent codec w.loop event now) rfl fun e he =>
      hwaiting e (by simp [show e ∈ rest from he])
    intro e he hgrant
    exact hwaiting e (by simp [List.mem_singleton.mp (List.mem_of_mem_filter he)]) (Or.inl hgrant)
  | evict keep => exact ⟨h.grants, h.applied, h.waiting⟩

/-- What decides for a controller is an owner's. -/
lemma isGrant_of_governing {c : PublicKey} {es : List Event} {e : Event}
    (h : e ∈ governing node svc.owners c es) : e ∈ es ∧ IsGrant node svc.owners e := by
  rw [governing, eligibleFor, List.mem_filter, decide_eq_true_eq] at h
  exact ⟨h.1, _, h.2⟩

/-- The grant a request is judged by was made by an owner, who signed it, and no newer one that
decides for the requester has been applied. -/
lemma Vouched.exists_grant (h : Vouched crypto svc codec node w) {c : PublicKey} {g : VerifiedGrant}
    (hresolve : w.loop.own.grants.resolve c = .ok g) :
    ∃ grant, Newest.IsLatest Event.stamp grant (governing node svc.owners c w.applied) ∧
      grant.verify crypto = true ∧ grant.pubkey ∈ svc.owners ∧
      g = VerifiedGrant.ofEvent codec.parseProfile grant := by
  rw [h.grants, Grants.resolve_applyAll_new] at hresolve
  cases hlatest : Newest.latest Event.stamp (governing node svc.owners c w.applied) with
  | none =>
    rw [hlatest] at hresolve
    cases hresolve
  | some grant =>
    rw [hlatest] at hresolve
    cases hresolve
    have hnewest := Newest.latest_eq_some_iff.mp hlatest
    obtain ⟨happlied, hgrant⟩ := isGrant_of_governing hnewest.mem
    obtain ⟨_, helig⟩ := hgrant
    exact ⟨grant, hnewest, h.applied grant happlied ⟨_, helig⟩, helig.author, rfl⟩

namespace Sample

end Sample

end NostrLn
