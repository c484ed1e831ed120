import NostrLn.Grant.Order
import NostrLn.Service.Transport

/-!
# Is the re-read exact?

At start-up both stores are rebuilt from one list of events, oldest first. A subscription is
accepted only if a grant is already in force for its author, so what is rebuilt depends on how the
age of each subscription compares with that of the grants. A grant that is renewed after its
controller subscribed comes too late for the subscription.
-/

namespace NostrLn

variable {codec : Codec} {node c : PublicKey} {owners : List PublicKey}

/-- Both stores, before anything was read. -/
def Delivery.fresh (node : PublicKey) (owners : List PublicKey) : Delivery :=
  { grants := Grants.new node owners, subs := Subscriptions.new node }

/-- `c` asks for `ty` in an event of the list that the node can read. -/
def AsksFor (codec : Codec) (node : PublicKey) (events : List Event) (c : PublicKey)
    (ty : String) : Prop :=
  ∃ e ∈ events, e.pubkey = c ∧ ∃ w, Wanted.ofEvent codec.inbox node e = some w ∧ ty ∈ w.types

/-- After the re-read, a controller receives what it asks for and its grant permits. -/
def ReadExactly (codec : Codec) (node : PublicKey) (owners : List PublicKey)
    (events : List Event) : Prop :=
  let d := (Delivery.fresh node owners).refresh codec (some events)
  ∀ c ty, d.subs.shouldReceive c ty d.grants = true ↔
    AsksFor codec node events c ty ∧
      ∃ g, d.grants.resolve c = .ok g ∧ g.profile.allowsNotification ty = true

/-- A set of grants and subscriptions with at most one event for each kind, author and `d`. -/
structure Addressable (events : List Event) : Prop where
  nodup : events.Nodup
  kinds : ∀ e ∈ events, e.kind = grantKind ∨ e.kind = subscriptionKind
  unique : ∀ e ∈ events, ∀ e' ∈ events, e.kind = e'.kind → e.pubkey = e'.pubkey →
    dTag e = dTag e' → e = e'

/-- The newest of the events that decide what `c` may do permits `ty`. -/
def MayReceive (codec : Codec) (node : PublicKey) (owners : List PublicKey) (events : List Event)
    (c : PublicKey) (ty : String) : Prop :=
  ∃ g ∈ Newest.latest Event.stamp (governing node owners c (oldestFirst events)),
    (g.profile codec.parseProfile).allowsNotification ty = true

/-- Oldest first, a grant for the author of `e`, or for `OTHERS`, comes before `e`. -/
def GrantedBefore (node : PublicKey) (owners : List PublicKey) (events : List Event)
    (e : Event) : Prop :=
  ∃ pre post, oldestFirst events = pre ++ e :: post ∧
    ∃ g ∈ pre, Eligible node owners e.pubkey.toHex g ∨ Eligible node owners othersKey g

/-! ### The grants that were read -/

lemma eligibleFor_grantsAmong (k : String) (events : List Event) :
    eligibleFor node owners k (grantsAmong events) = eligibleFor node owners k events := by
  simp only [eligibleFor, grantsAmong, List.filter_filter]
  apply List.filter_congr
  intro e _
  by_cases h : Eligible node owners k e
  · simp [h, h.kind]
  · simp [h]

lemma governing_grantsAmong (events : List Event) :
    governing node owners c (grantsAmong events) = governing node owners c events := by
  simp only [governing, governingKey, eligibleFor_grantsAmong]

lemma governing_ne_nil_iff {events : List Event} :
    governing node owners c events ≠ [] ↔
      ∃ g ∈ events, Eligible node owners c.toHex g ∨ Eligible node owners othersKey g := by
  have hmem : ∀ k, eligibleFor node owners k events ≠ [] ↔ ∃ g ∈ events, Eligible node owners k g := by
    intro k
    simp [eligibleFor, List.filter_eq_nil_iff]
  rw [governing, governingKey]
  split_ifs with hown
  · rw [hmem]
    have hnone := mt (hmem c.toHex).mpr (not_not.mpr hown)
    constructor
    · rintro ⟨g, hg, he⟩
      exact ⟨g, hg, Or.inr he⟩
    · rintro ⟨g, hg, he | he⟩
      · exact absurd ⟨g, hg, he⟩ hnone
      · exact ⟨g, hg, he⟩
  · rw [hmem]
    constructor
    · rintro ⟨g, hg, he⟩
      exact ⟨g, hg, Or.inl he⟩
    · intro _
      exact (hmem c.toHex).mp hown

/-- The grant in force after a list was read is that of the newest deciding event. -/
lemma Delivery.resolve_feedAll_fresh (events : List Event) (c : PublicKey) :
    ((Delivery.fresh node owners).feedAll codec.parseProfile codec.inbox
        (events.map Fed.ofFetched)).grants.resolve c =
      match Newest.latest Event.stamp (governing node owners c events) with
      | some e => .ok (VerifiedGrant.ofEvent codec.parseProfile e)
      | none => .error .unauthorized := by
  rw [Delivery.grants_feedAll, ← governing_grantsAmong]
  exact Grants.resolve_applyAll_new (grantsAmong events) c

lemma Delivery.resolve_isOk_iff (codec : Codec) (events : List Event) (c : PublicKey) :
    (((Delivery.fresh node owners).feedAll codec.parseProfile codec.inbox
        (events.map Fed.ofFetched)).grants.resolve c).isOk = true ↔
      ∃ g ∈ events, Eligible node owners c.toHex g ∨ Eligible node owners othersKey g := by
  have hnone : Newest.latest Event.stamp (governing node owners c events) = none ↔
      governing node owners c events = [] := Newest.latest_eq_none_iff
  rw [← governing_ne_nil_iff, ne_eq, ← hnone, Delivery.resolve_feedAll_fresh]
  cases Newest.latest Event.stamp (governing node owners c events) <;>
    simp [Except.isOk, Except.toBool]

/-! ### The subscriptions that were read -/

/-- The event registers something for `c`, if a grant is in force. -/
def Registers (codec : Codec) (node c : PublicKey) (e : Event) : Prop :=
  e.pubkey = c ∧ (Wanted.ofEvent codec.inbox node e).isSome

/-- An event that registers nothing for `c` leaves its slot alone. -/
lemma Delivery.lookup_feed_of_not {d : Delivery} (hnode : d.subs.node = some node) {e : Event}
    (hnot : ¬ Registers codec node c e) :
    (d.feed codec.parseProfile codec.inbox (Fed.ofFetched e)).subs.byController.lookup c.toHex =
      d.subs.byController.lookup c.toHex := by
  by_cases hkind : e.kind = grantKind
  · simp [Fed.ofFetched, hkind, Delivery.feed]
  simp only [Fed.ofFetched, hkind, if_false, Delivery.feed]
  obtain ⟨w, hw, _, h⟩ | ⟨r, h, _⟩ :=
    Subscriptions.apply_cases codec.inbox hnode e d.grants
  · have hne : c.toHex ≠ e.pubkey.toHex := by
      intro heq
      exact hnot ⟨(PublicKey.toHex_inj.mp heq).symm, by simp [hw]⟩
    rw [h, Subscriptions.lookup_put, if_neg hne]
  · rw [h]

lemma Delivery.lookup_feedAll_of_not {d : Delivery} (hnode : d.subs.node = some node)
    {events : List Event} (hnot : ∀ e ∈ events, ¬ Registers codec node c e) :
    (d.feedAll codec.parseProfile codec.inbox
      (events.map Fed.ofFetched)).subs.byController.lookup c.toHex =
        d.subs.byController.lookup c.toHex := by
  induction events generalizing d with
  | nil => rfl
  | cons e events ih =>
    rw [List.map_cons, Delivery.feedAll_cons,
      ih (by rw [Delivery.subs_node_feed, hnode]) fun e he => hnot e (by simp [he]),
      Delivery.lookup_feed_of_not hnode (hnot e (by simp))]

/-- The one event that registers something for its author does so if a grant came before it. -/
lemma Delivery.lookup_feedAll_fresh {pre post : List Event} {e : Event} {w : Wanted}
    (hw : Wanted.ofEvent codec.inbox node e = some w)
    (hpre : ∀ e' ∈ pre, ¬ Registers codec node e.pubkey e')
    (hpost : ∀ e' ∈ post, ¬ Registers codec node e.pubkey e') (ty : String) :
    (∃ w', ((Delivery.fresh node owners).feedAll codec.parseProfile codec.inbox
        ((pre ++ e :: post).map Fed.ofFetched)).subs.byController.lookup e.pubkey.toHex = some w' ∧
          ty ∈ w'.types) ↔
      ty ∈ w.types ∧
        ∃ g ∈ pre, Eligible node owners e.pubkey.toHex g ∨ Eligible node owners othersKey g := by
  have hfresh : (Delivery.fresh node owners).subs.node = some node := rfl
  have hempty : ((Delivery.fresh node owners).feedAll codec.parseProfile codec.inbox
      (pre.map Fed.ofFetched)).subs.byController.lookup e.pubkey.toHex = none :=
    Delivery.lookup_feedAll_of_not hfresh hpre
  have hkind : e.kind ≠ grantKind := by
    rw [(Wanted.ofEvent_eq_some_iff.mp hw).1.1]
    decide
  rw [← Delivery.resolve_isOk_iff codec pre e.pubkey, List.map_append, List.map_cons,
    Delivery.feedAll_append, Delivery.feedAll_cons]
  generalize hd : (Delivery.fresh node owners).feedAll codec.parseProfile codec.inbox
    (pre.map Fed.ofFetched) = d at hempty ⊢
  have hnode : d.subs.node = some node := by
    rw [← hd, Delivery.subs_node_feedAll]
    rfl
  rw [Delivery.lookup_feedAll_of_not (by rw [Delivery.subs_node_feed, hnode]) hpost]
  simp only [Fed.ofFetched, hkind, if_false, Delivery.feed]
  obtain ⟨w', hw', hok, h⟩ | ⟨r, h, hnot⟩ := Subscriptions.apply_cases codec.inbox hnode e d.grants
  · obtain rfl : w = w' := by simpa [hw] using hw'
    rw [h, Subscriptions.lookup_put, if_pos rfl, hempty]
    simp only [Newest.forgetStep, Wanted.clears, hok, and_true]
    by_cases hclear : w.types = [] <;> simp [hclear]
  · rw [hw] at hnot
    have hno : (d.grants.resolve e.pubkey).isOk = false := by simpa using hnot
    rw [h, hempty, hno]
    simp

/-! ### Exactness -/

/-- Of addressable events, one at most registers something for a controller. -/
lemma Addressable.registers_unique {events : List Event} (h : Addressable events) {e e' : Event}
    (he : e ∈ events) (he' : e' ∈ events) (hr : Registers codec node c e)
    (hr' : Registers codec node c e') : e = e' := by
  have hread : ∀ e, Registers codec node c e →
      e.kind = subscriptionKind ∧ dTag e = some node.toHex := by
    rintro e ⟨_, hsome⟩
    obtain ⟨w, hw⟩ := Option.isSome_iff_exists.mp hsome
    obtain ⟨⟨hkind, hd, _⟩, _⟩ := Wanted.ofEvent_eq_some_iff.mp hw
    exact ⟨hkind, hd⟩
  obtain ⟨hkind, hd⟩ := hread e hr
  obtain ⟨hkind', hd'⟩ := hread e' hr'
  exact h.unique e he e' he' (hkind.trans hkind'.symm) (hr.1.trans hr'.1.symm) (hd.trans hd'.symm)

/-- In a list without repetition, what is unique stands with nothing like it on either side. -/
lemma exists_split {events : List Event} (h : Addressable events) {e : Event} (he : e ∈ events)
    (hr : Registers codec node e.pubkey e) :
    ∃ pre post, oldestFirst events = pre ++ e :: post ∧
      (∀ e' ∈ pre, ¬ Registers codec node e.pubkey e') ∧
      ∀ e' ∈ post, ¬ Registers codec node e.pubkey e' := by
  have hperm := perm_oldestFirst events
  obtain ⟨pre, post, hsplit⟩ := List.append_of_mem (hperm.mem_iff.mpr he)
  have hnodup : (pre ++ e :: post).Nodup := hsplit ▸ hperm.nodup_iff.mpr h.nodup
  have hother : ∀ e' ∈ pre ++ post, ¬ Registers codec node e.pubkey e' := by
    intro e' he' hr'
    have hmem : e' ∈ events := by
      rw [← hperm.mem_iff, hsplit]
      rcases List.mem_append.mp he' with h | h <;> simp [h]
    have heq : e' = e := h.registers_unique hmem he hr' hr
    rw [List.nodup_middle, List.nodup_cons] at hnodup
    exact hnodup.1 (heq ▸ he')
  refine ⟨pre, post, hsplit, ?_, ?_⟩
  · intro e' he'
    exact hother e' (by simp [he'])
  · intro e' he'
    exact hother e' (by simp [he'])

/-- The grant in force after the re-read permits `ty`. -/
lemma mayReceive_iff {events : List Event} {ty : String} :
    (∃ g, ((Delivery.fresh node owners).refresh codec (some events)).grants.resolve c = .ok g ∧
      g.profile.allowsNotification ty = true) ↔ MayReceive codec node owners events c ty := by
  rw [Delivery.refresh, MayReceive]
  simp only [Delivery.resolve_feedAll_fresh]
  cases Newest.latest Event.stamp (governing node owners c (oldestFirst events)) with
  | none => simp
  | some g => simp [Event.profile]

/-- What is registered for a controller after the re-read is what it asks for in an event that a
grant came before. -/
lemma registered_refresh_iff {events : List Event} (h : Addressable events) {ty : String} :
    (∃ w, ((Delivery.fresh node owners).refresh codec
        (some events)).subs.byController.lookup c.toHex = some w ∧ ty ∈ w.types) ↔
      ∃ e ∈ events, e.pubkey = c ∧ ∃ w, Wanted.ofEvent codec.inbox node e = some w ∧
        ty ∈ w.types ∧ GrantedBefore node owners events e := by
  rw [Delivery.refresh]
  by_cases hsome : ∃ e ∈ events, Registers codec node c e
  · obtain ⟨e, he, rfl, hread⟩ := hsome
    obtain ⟨w, hw⟩ := Option.isSome_iff_exists.mp hread
    have hr : Registers codec node e.pubkey e := ⟨rfl, hread⟩
    obtain ⟨pre, post, hsplit, hpre, hpost⟩ := exists_split h he hr
    have hbefore : GrantedBefore node owners events e ↔
        ∃ g ∈ pre, Eligible node owners e.pubkey.toHex g ∨ Eligible node owners othersKey g := by
      constructor
      · rintro ⟨pre', post', hsplit', hg⟩
        have hin := (List.append_cons_inj_of_notMem (fun hmem => hpre e hmem hr)
          (fun hmem => hpost e hmem hr)).mp (hsplit.symm.trans hsplit')
        rwa [hin.1]
      · intro hg
        exact ⟨pre, post, hsplit, hg⟩
    simp only [hsplit]
    rw [Delivery.lookup_feedAll_fresh hw hpre hpost ty, ← hbefore]
    constructor
    · rintro ⟨hty, hg⟩
      exact ⟨e, he, rfl, w, hw, hty, hg⟩
    · rintro ⟨e', he', hauthor, w', hw', hty, hg⟩
      obtain rfl : e' = e := h.registers_unique he' he ⟨hauthor, by simp [hw']⟩ hr
      rw [hw] at hw'
      cases hw'
      exact ⟨hty, hg⟩
  · have hnone : ∀ e ∈ oldestFirst events, ¬ Registers codec node c e := by
      intro e he hr
      exact hsome ⟨e, (perm_oldestFirst events).mem_iff.mp he, hr⟩
    have hfresh : (Delivery.fresh node owners).subs.node = some node := rfl
    simp only [Delivery.lookup_feedAll_of_not hfresh hnone]
    constructor
    · rintro ⟨w, hw, _⟩
      simp [Delivery.fresh, Subscriptions.new] at hw
    · rintro ⟨e, he, hauthor, w, hw, _⟩
      exact absurd ⟨e, he, hauthor, by simp [hw]⟩ hsome

/-- **When the re-read is exact.** It is, if and only if every subscription that asks for something
its author may receive comes after a grant for its author or for `OTHERS`. -/
theorem refresh_exact_iff (codec : Codec) (node : PublicKey) (owners : List PublicKey)
    (events : List Event) (h : Addressable events) :
    ReadExactly codec node owners events ↔
      ∀ e ∈ events, ∀ w, Wanted.ofEvent codec.inbox node e = some w →
        (∃ ty ∈ w.types, MayReceive codec node owners events e.pubkey ty) →
        GrantedBefore node owners events e := by
  simp only [ReadExactly, Subscriptions.shouldReceive_iff, registered_refresh_iff h, mayReceive_iff]
  constructor
  · rintro hexact e he w hw ⟨ty, hty, hmay⟩
    obtain ⟨⟨e', he', hauthor, w', hw', _, hbefore⟩, _⟩ :=
      (hexact e.pubkey ty).mpr ⟨⟨e, he, rfl, w, hw, hty⟩, hmay⟩
    obtain rfl : e' = e := h.registers_unique he' he
      ⟨hauthor, Option.isSome_iff_exists.mpr ⟨w', hw'⟩⟩ ⟨rfl, Option.isSome_iff_exists.mpr ⟨w, hw⟩⟩
    exact hbefore
  · intro hbefore c ty
    constructor
    · rintro ⟨⟨e, he, hauthor, w, hw, hty, _⟩, hmay⟩
      exact ⟨⟨e, he, hauthor, w, hw, hty⟩, hmay⟩
    · rintro ⟨⟨e, he, rfl, w, hw, hty⟩, hmay⟩
      exact ⟨⟨e, he, rfl, w, hw, hty, hbefore e he w hw ⟨ty, hty, hmay⟩⟩, hmay⟩

/-! ### A renewed grant -/

namespace Sample

/-- The controller subscribed, and then its grant was renewed: the older grant is replaced and no
longer there to be read. -/
def renewed : List Event :=
  [subscriptionEvent 4 "1" 5, grantEvent 2 (key 4).toHex everyNotification 6]

/-- The controller subscribed under a grant that is still there. -/
def lasting : List Event :=
  [subscriptionEvent 4 "1" 5, grantEvent 2 (key 4).toHex everyNotification 4]

end Sample

open Sample in
/-- The subscription is older than the renewed grant, so it is refused, although the grant permits
what it asks for. -/
theorem refresh_loses_subscription :
    ¬ ∀ (codec : Codec) (node : PublicKey) (owners : List PublicKey) (events : List Event),
      Addressable events → ReadExactly codec node owners events := by
  intro h
  have haddr : Addressable renewed :=
    ⟨by decide +kernel, by decide +kernel, by decide +kernel⟩
  have hasks : AsksFor plain (key 1) renewed (key 4) "channel_closed" :=
    ⟨subscriptionEvent 4 "1" 5, by simp [renewed], rfl, ⟨["channel_closed"], 5⟩,
      by decide +kernel, by decide⟩
  have hpermits : (((Delivery.fresh (key 1) [key 2]).refresh plain (some renewed)).grants.resolve
      (key 4)).toOption.any (fun g => g.profile.allowsNotification "channel_closed") = true := by
    decide +kernel
  have hreceives := (h plain (key 1) [key 2] renewed haddr (key 4) "channel_closed").mpr
  cases hg : ((Delivery.fresh (key 1) [key 2]).refresh plain (some renewed)).grants.resolve
      (key 4) with
  | error d => simp [hg, Except.toOption] at hpermits
  | ok g =>
    rw [hg] at hpermits
    have hdelivers := hreceives ⟨hasks, g, hg, by simpa [Except.toOption] using hpermits⟩
    revert hdelivers
    decide +kernel

open Sample in
/-- Under a grant that is older than the subscription, the re-read is exact. -/
theorem refresh_exact_lasting : ReadExactly plain (key 1) [key 2] lasting := by
  refine (refresh_exact_iff plain (key 1) [key 2] lasting
    ⟨by decide +kernel, by decide +kernel, by decide +kernel⟩).mpr ?_
  intro e he w hw _
  simp only [lasting, List.mem_cons, List.not_mem_nil, or_false] at he
  rcases he with rfl | rfl
  · refine ⟨[grantEvent 2 (key 4).toHex everyNotification 4], [], by decide +kernel, _,
      List.mem_singleton.mpr rfl, Or.inl (by decide +kernel)⟩
  · -- the grant is no subscription
    exact absurd (Wanted.ofEvent_eq_some_iff.mp hw).1.1 (by decide +kernel)

end NostrLn
