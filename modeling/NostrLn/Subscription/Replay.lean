import NostrLn.Subscription.Basic

/-!
# Which subscription is in force

A controller's slot is a register that forgets: unsubscribing removes the entry together with its
time stamp. While the newest event asks for something it is in force, whatever is replayed. Once
the newest event unsubscribes, an older event that arrives later finds nothing to be older than.
-/

namespace NostrLn

variable {inbox : Inbox} {node c : PublicKey}

/-- Apply events one after another, each under the grants in force at the time. -/
def Subscriptions.applyAll (inbox : Inbox) (s : Subscriptions) (es : List (Event × Grants)) :
    Subscriptions :=
  es.foldl (fun s p => (s.apply inbox p.1 p.2).2) s

/-- The types an event lists, once decrypted. -/
def Event.types (inbox : Inbox) (e : Event) : List String :=
  ((inbox.nip44Decrypt e.pubkey e.content).bind inbox.parseTypes).getD []

/-- The types registered for a controller. -/
def Subscriptions.registered (s : Subscriptions) (c : PublicKey) : Option (List String) :=
  (s.byController.lookup c.toHex).map Wanted.types

/-- A well-formed, readable subscription of `c` to this node, while a grant applies to `c`. -/
structure Subscribes (inbox : Inbox) (node c : PublicKey) (p : Event × Grants) : Prop where
  author : p.1.pubkey = c
  readable : (Wanted.ofEvent inbox node p.1).isSome
  granted : (p.2.resolve c).isOk = true

/-- When the event of a step was signed. -/
def stepStamp (p : Event × Grants) : ℕ := p.1.createdAt.toNat

/-- The types registered are those of the newest event, and none if that one lists none. -/
def NewestWins (inbox : Inbox) (node c : PublicKey) (es : List (Event × Grants)) : Prop :=
  ∀ p, Newest.IsLatest stepStamp p es →
    ((Subscriptions.new node).applyAll inbox es).registered c =
      if p.1.types inbox = [] then none else some (p.1.types inbox)

/-- If the newest event unsubscribes, then so does every event that is newer than all those
applied after it. -/
def NothingStale (inbox : Inbox) (es : List (Event × Grants)) : Prop :=
  ∀ p, Newest.IsLatest stepStamp p es → p.1.types inbox = [] →
    ∀ q, Newest.IsPeak stepStamp q es → q.1.types inbox = []

/-! ### The register of one controller -/

lemma Wanted.ofEvent_eq {e : Event} {w : Wanted} (h : Wanted.ofEvent inbox node e = some w) :
    w = { types := e.types inbox, createdAt := e.createdAt } := by
  obtain ⟨_, types, htypes, rfl⟩ := Wanted.ofEvent_eq_some_iff.mp h
  simp [Event.types, htypes]

lemma Subscriptions.applyAll_concat (s : Subscriptions) (es : List (Event × Grants))
    (p : Event × Grants) :
    s.applyAll inbox (es ++ [p]) = ((s.applyAll inbox es).apply inbox p.1 p.2).2 := by
  simp [Subscriptions.applyAll]

@[simp] lemma Subscriptions.node_applyAll (s : Subscriptions) (es : List (Event × Grants)) :
    (s.applyAll inbox es).node = s.node := by
  induction es using List.reverseRecOn with
  | nil => rfl
  | append_singleton es p ih => rw [Subscriptions.applyAll_concat, Subscriptions.node_apply, ih]

/-- What a step asks to have registered. -/
def wantedOf (inbox : Inbox) (p : Event × Grants) : Wanted :=
  { types := p.1.types inbox, createdAt := p.1.createdAt }

/-- The slot of a controller after its own events is what the forgetful register remembers. -/
lemma Subscriptions.lookup_applyAll_new {es : List (Event × Grants)}
    (hes : ∀ p ∈ es, Subscribes inbox node c p) :
    ((Subscriptions.new node).applyAll inbox es).byController.lookup c.toHex =
      (Newest.remembered stepStamp (fun p => (p.1.types inbox).isEmpty) es).map (wantedOf inbox) := by
  induction es using List.reverseRecOn with
  | nil => simp [Subscriptions.applyAll, Subscriptions.new]
  | append_singleton es p ih =>
    have hp := hes p (by simp)
    have hnode : ((Subscriptions.new node).applyAll inbox es).node = some node := by
      rw [Subscriptions.node_applyAll]; rfl
    have happly : ((Subscriptions.new node).applyAll inbox es).apply inbox p.1 p.2 =
        ((Subscriptions.new node).applyAll inbox es).put c.toHex (wantedOf inbox p) := by
      obtain ⟨w, hw, _, h⟩ | ⟨r, _, h⟩ := Subscriptions.apply_cases inbox hnode p.1 p.2
      · rw [h, Wanted.ofEvent_eq hw, hp.author]; rfl
      · rw [hp.author, hp.granted] at h
        have := hp.readable
        simp_all
    rw [Subscriptions.applyAll_concat, happly, Subscriptions.lookup_put, if_pos rfl,
      ih fun q hq => hes q (by simp [hq]), Newest.remembered_concat]
    exact Newest.forgetStep_map (fun _ => rfl) (fun _ => rfl) _ p

/-- **The newest subscription wins, except over a forgotten one.** What is registered for a
controller after its events is what the newest of them lists if and only if no stale event, replayed
after the newest one unsubscribed, is left standing. Where that holds before and after it, replaying
an event older than one already applied changes nothing. -/
theorem newest_subscription_wins_iff (inbox : Inbox) (node c : PublicKey)
    (es : List (Event × Grants)) (hes : ∀ p ∈ es, Subscribes inbox node c p) :
    (NewestWins inbox node c es ↔ NothingStale inbox es) ∧
    ∀ p, Subscribes inbox node c p → (∃ q ∈ es, stepStamp p < stepStamp q) →
      NothingStale inbox es → NothingStale inbox (es ++ [p]) →
      ((Subscriptions.new node).applyAll inbox (es ++ [p])).registered c =
        ((Subscriptions.new node).applyAll inbox es).registered c := by
  have hiff : ∀ es : List (Event × Grants), (∀ p ∈ es, Subscribes inbox node c p) →
      (NewestWins inbox node c es ↔ NothingStale inbox es) := by
    intro es hes
    have hlookup := Subscriptions.lookup_applyAll_new hes
    constructor
    · intro h p hp hempty q hq
      have hreg := h p hp
      rw [if_pos hempty, Subscriptions.registered, hlookup, Option.map_eq_none_iff,
        Option.map_eq_none_iff, Newest.remembered_eq_none_iff] at hreg
      simpa using hreg q hq
    · intro h p hp
      rw [Subscriptions.registered, hlookup]
      split_ifs with hempty
      · rw [Option.map_eq_none_iff, Option.map_eq_none_iff, Newest.remembered_eq_none_iff]
        intro q hq
        simpa using h p hp hempty q hq
      · rw [Newest.remembered_of_isLatest hp (by simpa using hempty)]
        rfl
  refine ⟨hiff es hes, ?_⟩
  rintro p hp ⟨q, hq, hlt⟩ hstale hstale'
  cases hlatest : Newest.latest stepStamp es with
  | none =>
    rw [Newest.latest_eq_none_iff.mp hlatest] at hq
    simp at hq
  | some m =>
    have hm := Newest.latest_eq_some_iff.mp hlatest
    have hm' := Newest.isLatest_concat_of_lt hm (lt_of_lt_of_le hlt (hm.le hq))
    have hes' : ∀ r ∈ es ++ [p], Subscribes inbox node c r := by
      intro r hr
      rcases List.mem_append.mp hr with hr | hr
      · exact hes r hr
      · rw [List.mem_singleton.mp hr]; exact hp
    rw [(hiff _ hes').mpr hstale' m hm', (hiff _ hes).mpr hstale m hm]

namespace Sample

/-- A store in which `key 4` holds a grant. -/
def granted : Grants :=
  ((Grants.new (key 1) [key 2]).apply readProfile (grantEvent 2 (key 4).toHex everyMethod 1)).2

/-- Subscribe, unsubscribe, and the first event again from another relay. -/
def replayed : List (Event × Grants) :=
  [(subscriptionEvent 4 "1" 5, granted), (subscriptionEvent 4 "2" 6, granted),
    (subscriptionEvent 4 "1" 5, granted)]

lemma subscribes_replayed : ∀ p ∈ replayed, Subscribes reader (key 1) (key 4) p := by
  intro p hp
  have h : p.1.pubkey = key 4 ∧ (Wanted.ofEvent reader (key 1) p.1).isSome ∧
      (p.2.resolve (key 4)).isOk = true := by
    revert p
    decide +kernel
  exact ⟨h.1, h.2.1, h.2.2⟩

end Sample

open Sample in
/-- A replayed subscription outlives the unsubscription that was newer than it. -/
theorem unsubscription_undone_by_replay :
    ¬ ∀ (inbox : Inbox) (node c : PublicKey) (es : List (Event × Grants)),
      (∀ p ∈ es, Subscribes inbox node c p) → NewestWins inbox node c es := by
  intro h
  have hwins := h reader (key 1) (key 4) replayed subscribes_replayed
    (subscriptionEvent 4 "2" 6, granted)
    ⟨[(subscriptionEvent 4 "1" 5, granted)], [(subscriptionEvent 4 "1" 5, granted)], rfl,
      by decide +kernel, by decide +kernel⟩
  revert hwins
  decide +kernel

open Sample in
/-- Without the replay, unsubscribing is final. -/
theorem newest_subscription_wins_unsubscribed :
    NewestWins reader (key 1) (key 4) (replayed.take 2) := by
  refine (newest_subscription_wins_iff reader (key 1) (key 4) (replayed.take 2)
    fun p hp => subscribes_replayed p (List.mem_of_mem_take hp)).1.mpr ?_
  intro p _ _ q hq
  have hsplit : replayed.take 2 =
      [(subscriptionEvent 4 "1" 5, granted)] ++ [(subscriptionEvent 4 "2" 6, granted)] := rfl
  rw [hsplit, Newest.isPeak_concat] at hq
  rcases hq with rfl | ⟨hq, hlt⟩
  · decide +kernel
  · -- the subscription is older than what follows it
    rw [List.mem_singleton.mp hq.mem] at hlt
    exact absurd hlt (by decide +kernel)

end NostrLn
