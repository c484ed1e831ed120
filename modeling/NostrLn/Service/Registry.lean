import NostrLn.Service.Recipients

/-!
# How large the registry of subscriptions can get

Anyone may publish a subscription that names any node. The registry is to be bounded by what the
owner wrote, so an event is refused unless its author holds a grant. But `resolve` also finds the
grant of `OTHERS`, which everybody holds.
-/

namespace NostrLn

variable {parse : String → Option UsageProfile} {inbox : Inbox} {node c : PublicKey}
  {owners : List PublicKey} {fed : List Fed}

/-! ### The grants among what was fed -/

/-- The events that were given to the store of grants. -/
def fedGrants (fed : List Fed) : List Event :=
  fed.filterMap fun f =>
    match f with
    | .grant e => some e
    | .subscription _ => none

lemma mem_fedGrants {e : Event} : e ∈ fedGrants fed ↔ .grant e ∈ fed := by
  simp only [fedGrants, List.mem_filterMap]
  constructor
  · rintro ⟨f, hf, heq⟩
    cases f with
    | grant e' => cases heq; exact hf
    | subscription e' => cases heq
  · intro h
    exact ⟨.grant e, h, rfl⟩

/-- What was fed to the other store makes no difference to the grants. -/
lemma Delivery.grants_feedAll_eq (d : Delivery) (fed : List Fed) :
    (d.feedAll parse inbox fed).grants = d.grants.applyAll parse (fedGrants fed) := by
  induction fed generalizing d with
  | nil => rfl
  | cons f fed ih =>
    rw [Delivery.feedAll_cons, ih]
    cases f with
    | grant e => rfl
    | subscription e => rfl

/-- An owner wrote a grant under this key. -/
def Named (node : PublicKey) (owners : List PublicKey) (fed : List Fed) (k : String) : Prop :=
  ∃ e, .grant e ∈ fed ∧ Eligible node owners k e

/-- There is a grant in a slot once an owner wrote one. -/
lemma Delivery.getRaw_isSome_iff (parse : String → Option UsageProfile) (inbox : Inbox)
    {k : String} :
    (((Delivery.fresh node owners).feedAll parse inbox fed).grants.getRaw k).isSome = true ↔
      Named node owners fed k := by
  have hgrants : ((Delivery.fresh node owners).feedAll parse inbox fed).grants =
      (Grants.new node owners).applyAll parse (fedGrants fed) := Delivery.grants_feedAll_eq _ _
  rw [hgrants, Grants.getRaw_applyAll_new, Option.isSome_map, Option.isSome_iff_ne_none, ne_eq,
    Newest.latest_eq_none_iff]
  simp [eligibleFor, Named, mem_fedGrants, List.filter_eq_nil_iff]

lemma Delivery.mem_grants_iff (parse : String → Option UsageProfile) (inbox : Inbox) :
    c.toHex ∈ ((Delivery.fresh node owners).feedAll parse inbox fed).grants.byController ↔
      Named node owners fed c.toHex := by
  rw [← Delivery.getRaw_isSome_iff parse inbox, Grants.getRaw_toHex, AList.lookup_isSome]

/-- A caller resolves once an owner wrote a grant for it, or for `OTHERS`. -/
lemma Delivery.resolve_isOk_feedAll_iff (parse : String → Option UsageProfile) (inbox : Inbox) :
    (((Delivery.fresh node owners).feedAll parse inbox fed).grants.resolve c).isOk = true ↔
      Named node owners fed c.toHex ∨ Named node owners fed othersKey := by
  rw [← Delivery.getRaw_isSome_iff parse inbox, ← Delivery.getRaw_isSome_iff parse inbox,
    Grants.resolve_eq]
  generalize ((Delivery.fresh node owners).feedAll parse inbox fed).grants = g
  cases hown : g.getRaw c.toHex with
  | some v => simp [Except.isOk, Except.toBool]
  | none => cases hothers : g.getRaw othersKey <;> simp [Except.isOk, Except.toBool]

/-! ### The bound -/

/-- In every state of a run: whoever is registered, an owner wrote a grant for; there are no more of
them than there are grants; and an event by a key the owner never named registers nobody. -/
def RegistryBounded (parse : String → Option UsageProfile) (inbox : Inbox) (node : PublicKey)
    (owners : List PublicKey) (fed : List Fed) : Prop :=
  ∀ pre post, fed = pre ++ post →
    let d := (Delivery.fresh node owners).feedAll parse inbox pre
    (∀ k ∈ d.subs.byController, Named node owners pre k) ∧
    d.subs.len ≤ d.grants.len ∧
    ∀ e rest, post = .subscription e :: rest → ¬ Named node owners pre e.pubkey.toHex →
      ∀ k ∈ (d.feed parse inbox (.subscription e)).subs.byController, k ∈ d.subs.byController

/-- A key that no owner has named asks for something, and an owner has written a grant for
`OTHERS`. -/
def StrangerSubscribes (inbox : Inbox) (node : PublicKey) (owners : List PublicKey)
    (pre : List Fed) (e : Event) : Prop :=
  ¬ Named node owners pre e.pubkey.toHex ∧ Named node owners pre othersKey ∧
    ∃ w, Wanted.ofEvent inbox node e = some w ∧ w.clears = false

lemma Named.mono {pre post : List Fed} {k : String} (h : Named node owners pre k) :
    Named node owners (pre ++ post) k := by
  obtain ⟨e, he, hk⟩ := h
  exact ⟨e, by simp [he], hk⟩

/-- One event registers nobody whom no owner has named, unless a stranger subscribes. -/
lemma named_of_feed {pre : List Fed} {f : Fed}
    (h : ∀ k ∈ ((Delivery.fresh node owners).feedAll parse inbox pre).subs.byController,
      Named node owners pre k)
    (hf : ∀ e, f = .subscription e → ¬ StrangerSubscribes inbox node owners pre e) :
    ∀ k ∈ (((Delivery.fresh node owners).feedAll parse inbox pre).feed
        parse inbox f).subs.byController,
      Named node owners pre k := by
  intro k hk
  cases f with
  | grant e => exact h k hk
  | subscription e =>
    obtain hold | ⟨rfl, hgrant⟩ := Subscriptions.mem_apply hk
    · exact h k hold
    · by_contra hstranger
      have hnode :
          ((Delivery.fresh node owners).feedAll parse inbox pre).subs.node = some node := by
        rw [Delivery.subs_node_feedAll]
        rfl
      refine hf e rfl ⟨hstranger, ?_, ?_⟩
      · exact ((Delivery.resolve_isOk_feedAll_iff parse inbox).mp hgrant).resolve_left hstranger
      · exact Subscriptions.wants_of_mem_apply hnode hk fun hold => hstranger (h _ hold)

/-- A stranger who subscribes is registered. -/
lemma registered_of_stranger {pre : List Fed} {e : Event}
    (h : StrangerSubscribes inbox node owners pre e) :
    e.pubkey.toHex ∈ (((Delivery.fresh node owners).feedAll parse inbox pre).feed parse inbox
      (.subscription e)).subs.byController := by
  obtain ⟨_, hothers, w, hw, hwants⟩ := h
  refine Subscriptions.mem_apply_self ?_ hw hwants ?_
  · rw [Delivery.subs_node_feedAll]
    rfl
  · exact (Delivery.resolve_isOk_feedAll_iff parse inbox).mpr (Or.inr hothers)

/-- If whoever is registered has a grant, there are no more of them than there are grants. -/
lemma len_le_of_named {pre : List Fed}
    (h : ∀ k ∈ ((Delivery.fresh node owners).feedAll parse inbox pre).subs.byController,
      Named node owners pre k) :
    ((Delivery.fresh node owners).feedAll parse inbox pre).subs.len ≤
      ((Delivery.fresh node owners).feedAll parse inbox pre).grants.len := by
  have hcanonical : ((Delivery.fresh node owners).feedAll parse inbox pre).subs.Canonical :=
    Delivery.canonical_feedAll (fun k hk => absurd hk (AList.notMem_empty k)) pre
  refine List.Subperm.length_le (List.subperm_of_subset (AList.keys_nodup _) ?_)
  intro k hk
  have hk' := AList.mem_keys.mpr hk
  obtain ⟨c, rfl⟩ := hcanonical k hk'
  exact AList.mem_keys.mp ((Delivery.mem_grants_iff parse inbox).mpr (h _ hk'))

/-- **The registry is bounded by what the owner wrote** exactly if no stranger subscribes under a
grant for `OTHERS`. -/
theorem registry_bounded_iff (parse : String → Option UsageProfile) (inbox : Inbox)
    (node : PublicKey) (owners : List PublicKey) (fed : List Fed) :
    RegistryBounded parse inbox node owners fed ↔
      ∀ pre e post, fed = pre ++ .subscription e :: post →
        ¬ StrangerSubscribes inbox node owners pre e := by
  constructor
  · intro h pre e post hfed hstranger
    obtain ⟨hnamed, _, hidle⟩ := h pre (.subscription e :: post) hfed
    have hold := hidle e post rfl hstranger.1 _ (registered_of_stranger hstranger)
    exact hstranger.1 (hnamed _ hold)
  · intro h
    have hnamed : ∀ pre post, fed = pre ++ post →
        ∀ k ∈ ((Delivery.fresh node owners).feedAll parse inbox pre).subs.byController,
          Named node owners pre k := by
      intro pre
      induction pre using List.reverseRecOn with
      | nil => intro post _ k hk; exact absurd hk (AList.notMem_empty k)
      | append_singleton pre f ih =>
        intro post hfed k hk
        rw [List.append_assoc] at hfed
        rw [Delivery.feedAll_append] at hk
        have hnone : ∀ e, f = .subscription e → ¬ StrangerSubscribes inbox node owners pre e :=
          fun e he => h pre e post (by rw [hfed, he]; rfl)
        exact (named_of_feed (ih _ hfed) hnone k hk).mono
    intro pre post hfed d
    have hpre := hnamed pre post hfed
    refine ⟨hpre, len_le_of_named hpre, ?_⟩
    rintro e rest rfl hnot k hk
    obtain hold | ⟨rfl, _⟩ := Subscriptions.mem_apply hk
    · exact hold
    · refine absurd ?_ hnot
      exact named_of_feed hpre (fun e' he' => by cases he'; exact h pre e rest hfed) _ hk

namespace Sample

/-- The owner writes one grant, for `OTHERS`; then `key 9`, whom nobody named, subscribes. -/
def crowd : List Fed :=
  [.grant (grantEvent 2 othersKey everyNotification 1), .subscription (subscriptionEvent 9 "1" 5)]

end Sample

open Sample in
/-- One is registered, and no controller has a grant of its own. -/
theorem crowd_registers :
    ¬ ∀ (parse : String → Option UsageProfile) (inbox : Inbox) (node : PublicKey)
      (owners : List PublicKey) (fed : List Fed), RegistryBounded parse inbox node owners fed := by
  intro h
  have hlen := (h readProfile reader (key 1) [key 2] crowd crowd [] rfl).2.1
  revert hlen
  decide +kernel

end NostrLn
