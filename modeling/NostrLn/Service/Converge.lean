import NostrLn.Service.Refresh

/-!
# Re-reading twice

One re-read may refuse a subscription that is older than the grant it needs. The grant is in the
store from then on, so the next re-read takes the subscription. Whatever the service saw before,
in whatever order and however often, two re-reads of what the relays hold leave it delivering
exactly what is asked for there and permitted there, and so do any more.
-/

namespace NostrLn

variable {codec : Codec} {node c : PublicKey} {owners : List PublicKey} {seen events : List Event}

/-- The stores of a service that saw these events since it started. -/
def Delivery.after (codec : Codec) (node : PublicKey) (owners : List PublicKey)
    (seen : List Event) : Delivery :=
  (Delivery.fresh node owners).feedAll codec.parseProfile codec.inbox (seen.map Fed.ofFetched)

/-- For every grant and subscription that was seen, there is one not older among the events. A
relay that keeps the newest of each holds such a list. -/
structure Covers (codec : Codec) (node : PublicKey) (owners : List PublicKey)
    (events seen : List Event) : Prop where
  grants : ∀ e ∈ seen, ∀ k, Eligible node owners k e →
    ∃ e' ∈ events, Eligible node owners k e' ∧ e.createdAt ≤ e'.createdAt
  subscriptions : ∀ e ∈ seen, ∀ c, Registers codec node c e →
    ∃ e' ∈ events, Registers codec node c e' ∧ e.createdAt ≤ e'.createdAt

/-- A controller receives what it asks for in these events, if the newest grant there permits it. -/
def Delivery.Exact (codec : Codec) (node : PublicKey) (owners : List PublicKey)
    (events : List Event) (d : Delivery) : Prop :=
  ∀ c ty, d.subs.shouldReceive c ty d.grants = true ↔
    AsksFor codec node events c ty ∧ MayReceive codec node owners events c ty

/-- Re-read the same events `n` times. -/
def Delivery.refreshTimes (codec : Codec) (events : List Event) : ℕ → Delivery → Delivery
  | 0, d => d
  | n + 1, d => (Delivery.refreshTimes codec events n d).refresh codec (some events)

/-! ### What was seen -/

lemma Delivery.refresh_after (seen events : List Event) :
    (Delivery.after codec node owners seen).refresh codec (some events) =
      Delivery.after codec node owners (seen ++ oldestFirst events) := by
  rw [Delivery.refresh, Delivery.after, Delivery.after, List.map_append, Delivery.feedAll_append]

lemma Covers.append (hcovers : Covers codec node owners events seen) :
    Covers codec node owners events (seen ++ oldestFirst events) := by
  have hmem : ∀ {e}, e ∈ oldestFirst events → e ∈ events :=
    fun he => (perm_oldestFirst events).mem_iff.mp he
  constructor
  · intro e he k hk
    rcases List.mem_append.mp he with he | he
    · exact hcovers.grants e he k hk
    · exact ⟨e, hmem he, hk, UInt64.le_refl _⟩
  · intro e he c hc
    rcases List.mem_append.mp he with he | he
    · exact hcovers.subscriptions e he c hc
    · exact ⟨e, hmem he, hc, UInt64.le_refl _⟩

/-- Once everything was said again, not older, the newest deciding event is one of the newer. -/
lemma Covers.latest_governing (hcovers : Covers codec node owners events seen) (c : PublicKey) :
    Newest.latest Event.stamp (governing node owners c (seen ++ oldestFirst events)) =
      Newest.latest Event.stamp (governing node owners c (oldestFirst events)) := by
  have hagain : ∀ k, ∀ e ∈ eligibleFor node owners k seen,
      ∃ e' ∈ eligibleFor node owners k (oldestFirst events), e.stamp ≤ e'.stamp := by
    intro k e he
    obtain ⟨he, hk⟩ : e ∈ seen ∧ Eligible node owners k e := by simpa [eligibleFor] using he
    obtain ⟨e', he', hk', hle⟩ := hcovers.grants e he k hk
    refine ⟨e', ?_, UInt64.le_iff_toNat_le.mp hle⟩
    simpa [eligibleFor, (perm_oldestFirst events).mem_iff] using ⟨he', hk'⟩
  have hsplit : ∀ k, eligibleFor node owners k (seen ++ oldestFirst events) =
      eligibleFor node owners k seen ++ eligibleFor node owners k (oldestFirst events) := by
    intro k
    rw [eligibleFor, List.filter_append]
    rfl
  have hnil : eligibleFor node owners c.toHex (seen ++ oldestFirst events) = [] ↔
      eligibleFor node owners c.toHex (oldestFirst events) = [] := by
    rw [hsplit, List.append_eq_nil_iff]
    constructor
    · exact And.right
    · intro h
      refine ⟨List.eq_nil_iff_forall_not_mem.mpr fun e he => ?_, h⟩
      obtain ⟨e', he', _⟩ := hagain _ e he
      simp [h] at he'
  rw [governing, governing, governingKey, governingKey, if_congr hnil rfl rfl, hsplit]
  exact Newest.latest_append_of_covered (hagain _)

/-- The grant in force after a re-read of events that cover what was seen. -/
lemma Covers.mayReceive_iff (hcovers : Covers codec node owners events seen) {ty : String} :
    (∃ g, (Delivery.after codec node owners (seen ++ oldestFirst events)).grants.resolve c = .ok g ∧
      g.profile.allowsNotification ty = true) ↔ MayReceive codec node owners events c ty := by
  rw [Delivery.after, Delivery.resolve_feedAll_fresh, hcovers.latest_governing, MayReceive]
  cases Newest.latest Event.stamp (governing node owners c (oldestFirst events)) with
  | none => simp
  | some g => simp [Event.profile]

@[simp] lemma Delivery.node_after (seen : List Event) :
    (Delivery.after codec node owners seen).subs.node = some node := by
  rw [Delivery.after, Delivery.subs_node_feedAll]
  rfl

lemma Delivery.after_concat (seen : List Event) (e : Event) :
    Delivery.after codec node owners (seen ++ [e]) =
      (Delivery.after codec node owners seen).feed codec.parseProfile codec.inbox
        (Fed.ofFetched e) := by
  rw [Delivery.after, List.map_append, Delivery.feedAll_append]
  rfl

/-- What is registered was asked for in an event that was seen. -/
lemma Delivery.exists_of_lookup_after {w : Wanted}
    (h : (Delivery.after codec node owners seen).subs.byController.lookup c.toHex = some w) :
    ∃ e ∈ seen, Registers codec node c e ∧ w.createdAt = e.createdAt := by
  induction seen using List.reverseRecOn generalizing w with
  | nil => simp [Delivery.after, Delivery.feedAll, Delivery.fresh, Subscriptions.new] at h
  | append_singleton seen e ih =>
    have hbefore : (Delivery.after codec node owners seen).subs.byController.lookup c.toHex =
        some w → ∃ e' ∈ seen ++ [e], Registers codec node c e' ∧ w.createdAt = e'.createdAt := by
      intro hslot
      obtain ⟨e', he', hr, hcreated⟩ := ih hslot
      exact ⟨e', by simp [he'], hr, hcreated⟩
    have hnode : (Delivery.after codec node owners seen).subs.node = some node :=
      Delivery.node_after seen
    rw [Delivery.after_concat] at h
    by_cases hr : Registers codec node c e
    · obtain ⟨rfl, hread⟩ := hr
      obtain ⟨w', hw'⟩ := Option.isSome_iff_exists.mp hread
      obtain ⟨⟨hkind, _⟩, types, _, hwanted⟩ := Wanted.ofEvent_eq_some_iff.mp hw'
      have hgrant : e.kind ≠ grantKind := by
        rw [hkind]
        decide
      simp only [Fed.ofFetched, hgrant, if_false, Delivery.feed] at h
      obtain ⟨w'', hw'', _, heq⟩ | ⟨r, heq, _⟩ := Subscriptions.apply_cases codec.inbox
        hnode e (Delivery.after codec node owners seen).grants
      · obtain rfl : w' = w'' := by simpa [hw'] using hw''
        rw [heq, Subscriptions.lookup_put, if_pos rfl] at h
        -- either the new event was kept, or what was there already
        obtain rfl | hslot := Newest.eq_or_eq_of_forgetStep h
        · exact ⟨e, by simp, ⟨rfl, hread⟩, by rw [hwanted]⟩
        · exact hbefore hslot
      · rw [heq] at h
        exact hbefore h
    · rw [Delivery.lookup_feed_of_not hnode hr] at h
      exact hbefore h

/-! ### One re-read when the grants are there already -/

/-- The one event that registers something for its author, among events whose grants are in force
already and that are not older than what is registered. -/
lemma Delivery.lookup_after_granted {pre post : List Event} {e : Event} {w : Wanted}
    (hw : Wanted.ofEvent codec.inbox node e = some w)
    (hpre : ∀ e' ∈ pre, ¬ Registers codec node e.pubkey e')
    (hpost : ∀ e' ∈ post, ¬ Registers codec node e.pubkey e')
    (hgranted : ∃ g ∈ seen, Eligible node owners e.pubkey.toHex g ∨
      Eligible node owners othersKey g)
    (hage : ∀ e' ∈ seen, Registers codec node e.pubkey e' → e'.createdAt ≤ e.createdAt)
    (ty : String) :
    (∃ w', (Delivery.after codec node owners
        (seen ++ (pre ++ e :: post))).subs.byController.lookup e.pubkey.toHex = some w' ∧
          ty ∈ w'.types) ↔ ty ∈ w.types := by
  obtain ⟨⟨hkind, _⟩, types, _, hwanted⟩ := Wanted.ofEvent_eq_some_iff.mp hw
  have hgrant : e.kind ≠ grantKind := by
    rw [hkind]
    decide
  have hok : ((Delivery.after codec node owners (seen ++ pre)).grants.resolve e.pubkey).isOk =
      true := by
    obtain ⟨g, hg, hfor⟩ := hgranted
    rw [Delivery.after, Delivery.resolve_isOk_iff]
    exact ⟨g, by simp [hg], hfor⟩
  have hslot : ∀ v, (Delivery.after codec node owners
      (seen ++ pre)).subs.byController.lookup e.pubkey.toHex = some v →
        v.createdAt ≤ w.createdAt := by
    intro v hv
    obtain ⟨e', he', hr, hcreated⟩ := Delivery.exists_of_lookup_after hv
    rw [hcreated, hwanted]
    rcases List.mem_append.mp he' with he' | he'
    · exact hage e' he' hr
    · exact absurd hr (hpre e' he')
  have hnode : (Delivery.after codec node owners (seen ++ pre)).subs.node = some node :=
    Delivery.node_after (seen ++ pre)
  have hafter : (Delivery.after codec node owners (seen ++ (pre ++ e :: post))) =
      ((Delivery.after codec node owners (seen ++ pre ++ [e])).feedAll codec.parseProfile
        codec.inbox (post.map Fed.ofFetched)) := by
    rw [Delivery.after, Delivery.after, ← Delivery.feedAll_append, ← List.map_append]
    simp
  rw [hafter, Delivery.lookup_feedAll_of_not (Delivery.node_after _) hpost, Delivery.after_concat]
  simp only [Fed.ofFetched, hgrant, if_false, Delivery.feed]
  obtain ⟨w', hw', _, heq⟩ | ⟨r, _, hnone | hno⟩ := Subscriptions.apply_cases codec.inbox
    hnode e (Delivery.after codec node owners (seen ++ pre)).grants
  · obtain rfl : w = w' := by simpa [hw] using hw'
    rw [heq]
    exact (Subscriptions.put_of_newest hslot).2 ty
  · rw [hw] at hnone
    cases hnone
  · rw [hok] at hno
    cases hno

/-- A re-read is exact if every grant it finds for somebody was there for them already. -/
lemma Covers.exact_of_granted (haddr : Addressable events)
    (hcovers : Covers codec node owners events seen)
    (hgranted : ∀ e ∈ events, ∀ k, Eligible node owners k e →
      ∃ g ∈ seen, Eligible node owners k g) :
    Delivery.Exact codec node owners events
      ((Delivery.after codec node owners seen).refresh codec (some events)) := by
  intro c ty
  rw [Delivery.refresh_after, Subscriptions.shouldReceive_iff, hcovers.mayReceive_iff]
  refine and_congr_left fun hmay => ?_
  obtain ⟨g, hg, _⟩ := hmay
  have hgoverns : ∃ g ∈ seen, Eligible node owners c.toHex g ∨
      Eligible node owners othersKey g := by
    have hne : governing node owners c (oldestFirst events) ≠ [] := by
      intro hnil
      simp [hnil, Newest.latest] at hg
    obtain ⟨g, hg, hfor⟩ := governing_ne_nil_iff.mp hne
    rw [(perm_oldestFirst events).mem_iff] at hg
    rcases hfor with hown | hothers
    · obtain ⟨g', hg', hk⟩ := hgranted g hg _ hown
      exact ⟨g', hg', Or.inl hk⟩
    · obtain ⟨g', hg', hk⟩ := hgranted g hg _ hothers
      exact ⟨g', hg', Or.inr hk⟩
  by_cases hsome : ∃ e ∈ events, Registers codec node c e
  · obtain ⟨e, he, rfl, hread⟩ := hsome
    obtain ⟨w, hw⟩ := Option.isSome_iff_exists.mp hread
    have hr : Registers codec node e.pubkey e := ⟨rfl, hread⟩
    obtain ⟨pre, post, hsplit, hpre, hpost⟩ := exists_split haddr he hr
    have hage : ∀ e' ∈ seen, Registers codec node e.pubkey e' → e'.createdAt ≤ e.createdAt := by
      intro e' he' hr'
      obtain ⟨e'', he'', hr'', hle⟩ := hcovers.subscriptions e' he' _ hr'
      rwa [haddr.registers_unique he'' he hr'' hr] at hle
    rw [hsplit, Delivery.lookup_after_granted hw hpre hpost hgoverns hage ty]
    constructor
    · intro hty
      exact ⟨e, he, rfl, w, hw, hty⟩
    · rintro ⟨e', he', hauthor, w', hw', hty⟩
      obtain rfl : e' = e := haddr.registers_unique he' he ⟨hauthor, by simp [hw']⟩ hr
      rw [hw] at hw'
      cases hw'
      exact hty
  · -- nothing was ever asked for
    constructor
    · rintro ⟨w, hslot, _⟩
      obtain ⟨e, he, hr, _⟩ := Delivery.exists_of_lookup_after hslot
      rcases List.mem_append.mp he with he | he
      · obtain ⟨e', he', hr', _⟩ := hcovers.subscriptions e he _ hr
        exact absurd ⟨e', he', hr'⟩ hsome
      · exact absurd ⟨e, (perm_oldestFirst events).mem_iff.mp he, hr⟩ hsome
    · rintro ⟨e, he, hauthor, w, hw, _⟩
      exact absurd ⟨e, he, hauthor, by simp [hw]⟩ hsome

/-! ### Twice, and more often -/

/-- The stores after `n` re-reads are those of a service that saw the events `n` times. -/
lemma Delivery.exists_refreshTimes (hcovers : Covers codec node owners events seen) (n : ℕ) :
    ∃ seen', Covers codec node owners events seen' ∧ (∀ e ∈ seen, e ∈ seen') ∧
      Delivery.refreshTimes codec events n (Delivery.after codec node owners seen) =
        Delivery.after codec node owners seen' := by
  induction n with
  | zero => exact ⟨seen, hcovers, fun e he => he, rfl⟩
  | succ n ih =>
    obtain ⟨seen', hcovers', hsub, heq⟩ := ih
    refine ⟨seen' ++ oldestFirst events, hcovers'.append, fun e he => by simp [hsub e he], ?_⟩
    rw [Delivery.refreshTimes, heq, Delivery.refresh_after]

/-- **Two re-reads converge.** Whatever events a service saw since it started, in whatever order,
if the relays hold for each of them one that is not older, then after two re-reads, and after any
further one, a controller receives a notification if and only if it asks for it and may have it,
by what the relays hold. -/
theorem rereads_converge (codec : Codec) (node : PublicKey) (owners : List PublicKey)
    (seen events : List Event) (haddr : Addressable events)
    (hcovers : Covers codec node owners events seen) (n : ℕ) (hn : 2 ≤ n) :
    Delivery.Exact codec node owners events
      (Delivery.refreshTimes codec events n (Delivery.after codec node owners seen)) := by
  obtain ⟨n, rfl⟩ := Nat.exists_eq_add_of_le' hn
  have hfirst : ∀ m, Delivery.refreshTimes codec events (m + 1) (Delivery.after codec node owners
      seen) = Delivery.refreshTimes codec events m (Delivery.after codec node owners
        (seen ++ oldestFirst events)) := by
    intro m
    induction m with
    | zero => exact Delivery.refresh_after seen events
    | succ m ih => rw [Delivery.refreshTimes, ih, Delivery.refreshTimes]
  obtain ⟨seen', hcovers', hsub, heq⟩ := Delivery.exists_refreshTimes hcovers.append n
  rw [Delivery.refreshTimes, hfirst, heq]
  refine hcovers'.exact_of_granted haddr fun e he k hk => ⟨e, hsub e ?_, hk⟩
  exact List.mem_append_right _ ((perm_oldestFirst events).mem_iff.mpr he)

namespace Sample

/-- What the service saw: a grant for `key 3`, and a subscription of `key 4`, which nobody had
granted anything. -/
def outdated : List Event :=
  [grantEvent 2 (key 3).toHex everyNotification 1, subscriptionEvent 4 "1" 2]

/-- What the relays hold by now: both again, and a grant for `key 4` as well. -/
def current : List Event := grantEvent 2 (key 3).toHex everyNotification 4 :: renewed

lemma current_covers : Covers plain (key 1) [key 2] current outdated where
  grants := by
    intro e he k hk
    simp only [outdated, List.mem_cons, List.not_mem_nil, or_false] at he
    rcases he with rfl | rfl
    · have hown : ∀ t, Eligible (key 1) [key 2] (key 3).toHex
          (grantEvent 2 (key 3).toHex everyNotification t) :=
        eligible_grantEvent (List.mem_singleton.mpr rfl) (key 3).toHex_ne_empty everyNotification
      obtain rfl := hk.unique (hown 1)
      exact ⟨_, List.mem_cons_self, hown 4, by decide⟩
    · exact absurd hk.kind (by decide)
  subscriptions := by
    intro e he c hc
    simp only [outdated, List.mem_cons, List.not_mem_nil, or_false] at he
    rcases he with rfl | rfl
    · obtain ⟨_, hread⟩ := hc
      obtain ⟨w, hw⟩ := Option.isSome_iff_exists.mp hread
      exact absurd (Wanted.ofEvent_eq_some_iff.mp hw).1.1 (by decide)
    · obtain ⟨rfl, _⟩ := hc
      exact ⟨subscriptionEvent 4 "1" 5, by simp [current, renewed], ⟨rfl, by decide +kernel⟩,
        by decide⟩

end Sample

open Sample in
/-- The subscription that one re-read refused is taken by the next. -/
theorem rereads_converge_renewed :
    (let d := Delivery.refreshTimes plain current 1 (Delivery.after plain (key 1) [key 2] outdated)
     d.subs.shouldReceive (key 4) "channel_closed" d.grants = false) ∧
    Delivery.Exact plain (key 1) [key 2] current
      (Delivery.refreshTimes plain current 2 (Delivery.after plain (key 1) [key 2] outdated)) :=
  ⟨by decide +kernel, rereads_converge plain (key 1) [key 2] outdated current
    ⟨by decide +kernel, by decide +kernel, by decide +kernel⟩ current_covers 2 (le_refl 2)⟩

end NostrLn
