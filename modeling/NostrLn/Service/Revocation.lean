import NostrLn.Grant.Store
import NostrLn.Service.Mediation
import NostrLn.Subscription.Basic

/-!
# Revoking and narrowing are final

The node keeps two stores, of grants and of subscriptions, and feeds events to both. A grant that
is stored for a controller stays in force, whatever arrives, until an owner writes a newer one for
the same controller. What it does not permit is refused before the handler is called, and is not
delivered, whatever the controller has subscribed to.
-/

namespace NostrLn

open Serde

variable {parse : String → Option UsageProfile} {inbox : Inbox} {explain : Explain}
  {node c : PublicKey} {v : VerifiedGrant}

/-- No owner writes for `c` again, at or after `stamp`. -/
def NotReplaced (node : PublicKey) (owners : List PublicKey) (c : PublicKey) (stamp : UInt64)
    (fed : List Fed) : Prop :=
  ∀ e, Fed.grant e ∈ fed → Eligible node owners c.toHex e → e.createdAt < stamp

/-- The grant in force for `c` is the one stored for it, at a node that knows who it is. -/
structure Standing (node : PublicKey) (owners : List PublicKey) (c : PublicKey) (v : VerifiedGrant)
    (g : Grants) : Prop where
  node : g.node = some node
  owners : g.owners = owners
  stored : g.getRaw c.toHex = some v

/-! ### A stored grant stands -/

lemma Standing.resolve {owners : List PublicKey} {g : Grants} (h : Standing node owners c v g) :
    g.resolve c = .ok v := by
  rw [Grants.resolve_eq_ok_iff, h.stored]
  rfl

/-- An eligible event that is not older than what is stored is stored. -/
lemma Standing.of_eligible {g : Grants} {e : Event} (hnode : g.node = some node)
    (he : Eligible node g.owners c.toHex e)
    (hnew : ∀ v ∈ g.getRaw c.toHex, v.createdAt ≤ e.createdAt) :
    Standing node g.owners c (VerifiedGrant.ofEvent parse e) (g.apply parse e).2 := by
  refine ⟨by rw [Grants.node_apply, hnode], Grants.owners_apply g e, ?_⟩
  rw [Grants.getRaw_apply hnode, if_pos he]
  cases hslot : g.getRaw c.toHex with
  | none => rfl
  | some v =>
    have hle : v.stamp ≤ (VerifiedGrant.ofEvent parse e).stamp :=
      UInt64.le_iff_toNat_le.mp (hnew v hslot)
    simp [Newest.step, not_lt.mpr hle]

/-- An event that is older, or not for `c`, leaves what is stored for `c` standing. -/
lemma Standing.apply {owners : List PublicKey} {g : Grants} (h : Standing node owners c v g)
    {e : Event} (hold : Eligible node owners c.toHex e → e.createdAt < v.createdAt) :
    Standing node owners c v (g.apply parse e).2 := by
  refine ⟨by rw [Grants.node_apply, h.node], by rw [Grants.owners_apply, h.owners], ?_⟩
  rw [Grants.getRaw_apply h.node, h.owners, h.stored]
  split_ifs with he
  · have hlt : (VerifiedGrant.ofEvent parse e).stamp < v.stamp :=
      UInt64.lt_iff_toNat_lt.mp (hold he)
    simp [Newest.step, hlt]
  · rfl

lemma Standing.feed {owners : List PublicKey} {d : Delivery} {f : Fed}
    (h : Standing node owners c v d.grants)
    (hold : ∀ e, f = .grant e → Eligible node owners c.toHex e → e.createdAt < v.createdAt) :
    Standing node owners c v (d.feed parse inbox f).grants := by
  cases f with
  | grant e => exact h.apply (hold e rfl)
  | subscription e => exact h

lemma Standing.feedAll {owners : List PublicKey} {d : Delivery} {fed : List Fed}
    (h : Standing node owners c v d.grants)
    (hold : NotReplaced node owners c v.createdAt fed) :
    Standing node owners c v (d.feedAll parse inbox fed).grants := by
  induction fed generalizing d with
  | nil => exact h
  | cons f fed ih =>
    refine ih (h.feed ?_) ?_
    · intro e hf
      exact hold e (by simp [hf])
    · intro e he
      exact hold e (by simp [he])

/-! ### What does not stand is refused -/

/-- A name that the grant in force does not permit is refused before the handler is called. -/
lemma Request.handle_of_not_permitted {q : Request} (hg : q.grants.resolve q.controller = .ok v)
    (hnot : ¬ v.profile.Permits (q.handler.accessMap v.profile) q.name) (u : Usage) :
    ∃ e, q.handle explain u = { result := .error e, usage := u, calls := [] } := by
  cases hvet : q.vet explain with
  | error e => exact ⟨e, q.handle_of_not_admitted hvet u⟩
  | ok r =>
    obtain ⟨hok, _, _⟩ := Request.vet_eq_ok_iff.mp hvet
    obtain ⟨_, _, hvalid, hentry, _⟩ := Request.admission_holds hok
    have hprofile : q.profile = v.profile := by simp [Request.profile, hg]
    obtain ⟨entry, hentry⟩ := Option.isSome_iff_exists.mp hentry
    obtain ⟨m, hm, hmatched⟩ := Option.bind_eq_some_iff.mp hentry
    rw [hprofile] at hvalid hm
    exact absurd ⟨hvalid, m, hm, matched_isSome_iff.mp (by simp [matched, hmatched])⟩ hnot

/-- **Revoking and narrowing are final.** Once a grant for `c` is stored, not being older than one
that was, then whatever the two stores are given, short of a grant for `c` at least as new: it is
the grant that applies to `c`; what it does not permit is refused without a call to the handler;
and what it does not permit is not delivered. -/
theorem stored_grant_is_final (parse : String → Option UsageProfile) (inbox : Inbox)
    (explain : Explain) (node c : PublicKey) (d : Delivery) (e : Event)
    (hnode : d.grants.node = some node) (he : Eligible node d.grants.owners c.toHex e)
    (hnew : ∀ v ∈ d.grants.getRaw c.toHex, v.createdAt ≤ e.createdAt)
    (fed : List Fed) (hlater : NotReplaced node d.grants.owners c e.createdAt fed) :
    let d' := (d.feed parse inbox (.grant e)).feedAll parse inbox fed
    let p := (parse e.content).getD default
    d'.grants.resolve c =
      .ok { profile := p, createdAt := e.createdAt, owner := e.pubkey } ∧
    (∀ (q : Request) (u : Usage), q.grants = d'.grants → q.controller = c →
      ¬ p.Permits (q.handler.accessMap p) q.name →
      ∃ err, q.handle explain u = { result := .error err, usage := u, calls := [] }) ∧
    (∀ ty, ¬ p.Permits p.notifications ty → c ∉ d'.subs.recipients ty d'.grants) := by
  intro d' p
  have hstanding : Standing node d.grants.owners c (VerifiedGrant.ofEvent parse e)
      (d.feed parse inbox (.grant e)).grants := Standing.of_eligible hnode he hnew
  have hresolve : d'.grants.resolve c = .ok (VerifiedGrant.ofEvent parse e) :=
    (hstanding.feedAll hlater).resolve
  refine ⟨hresolve, ?_, ?_⟩
  · intro q u hgrants hc hnot
    exact Request.handle_of_not_permitted (by rw [hgrants, hc, hresolve]) hnot u
  · intro ty hnot hmem
    have hreceives := (Subscriptions.mem_recipients_iff.mp hmem).2
    obtain ⟨_, g, hg, hallows⟩ := Subscriptions.shouldReceive_iff.mp hreceives
    rw [hresolve] at hg
    cases hg
    exact hnot (UsageProfile.allowsNotification_iff.mp hallows)

namespace Sample

/-- A node whose owner `key 2` has granted `key 4` everything, and which `key 4` has asked to be
told of closed channels. -/
def open4 : Delivery :=
  ({ grants := Grants.new (key 1) [key 2], subs := Subscriptions.new (key 1) } : Delivery).feedAll
    readProfile reader
    [.grant (grantEvent 2 (key 4).toHex everyMethod 1), .subscription (subscriptionEvent 4 "1" 2)]

/-- The old grant again, a grant for `OTHERS`, and a new subscription. -/
def afterwards : List Fed :=
  [.grant (grantEvent 2 (key 4).toHex everyMethod 1), .grant (grantEvent 2 othersKey everyMethod 9),
    .subscription (subscriptionEvent 4 "1" 9)]

end Sample

open Sample in
/-- After a revocation, the old grant replayed, a grant for `OTHERS` and a new subscription leave
`key 4` with the revocation in force and nothing to be delivered. -/
theorem stored_grant_is_final_revoked :
    let d := (open4.feed readProfile reader
      (.grant (grantEvent 2 (key 4).toHex revocation 5))).feedAll readProfile reader afterwards
    (d.grants.resolve (key 4)).isOk = true ∧
      key 4 ∉ d.subs.recipients "channel_closed" d.grants := by
  have hgrants : open4.grants = grantedBy2 (key 4).toHex everyMethod := by
    simp only [open4, Delivery.feedAll_cons, Delivery.feed]
    simp only [Delivery.feedAll, List.foldl_nil, grantedBy2]
  have howner : key 2 ∈ open4.grants.owners := by
    rw [hgrants, owners_grantedBy2]
    exact List.mem_singleton.mpr rfl
  have hnew : ∀ v ∈ open4.grants.getRaw (key 4).toHex, v.createdAt ≤ 5 := by
    intro v hv
    rw [hgrants, grantedBy2_eq (key 4).toHex_ne_empty, Grants.getRaw_store, if_pos rfl] at hv
    rw [← Option.some.inj hv]
    decide
  have hlater : NotReplaced (key 1) open4.grants.owners (key 4) 5 afterwards := by
    intro e he helig
    simp only [afterwards, List.mem_cons, List.not_mem_nil, or_false, Fed.grant.injEq,
      reduceCtorEq] at he
    rcases he with rfl | rfl
    · decide
    · -- the grant for `OTHERS` is not one for `key 4`
      have hothers := eligible_grantEvent howner (show othersKey ≠ "" by decide) everyMethod 9
      exact absurd (helig.unique hothers) (key 4).toHex_ne_othersKey
  have h := stored_grant_is_final readProfile reader (fun _ _ => "") (key 1) (key 4) open4
    (grantEvent 2 (key 4).toHex revocation 5) (by rw [hgrants, node_grantedBy2])
    (eligible_grantEvent howner (key 4).toHex_ne_empty revocation 5) hnew afterwards hlater
  refine ⟨by rw [h.1]; rfl, h.2.2 "channel_closed" ?_⟩
  rintro ⟨_, m, hm, _⟩
  cases hm

end NostrLn
