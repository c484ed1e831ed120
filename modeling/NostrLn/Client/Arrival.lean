import NostrLn.Client.Feed
import NostrLn.Client.WalletStream

/-!
# Every notification, once

The three readers of a client, given what its filter finds of what a node sent in a whole run: the
stream of a wallet, the listener for a node, and the handle of a command. Relays may hand the events
over in any order. A payload that is nested to the limit of `serde_json` is passed over by the
stream, and fails the listener and the handle.
-/

namespace NostrLn

open Serde Json

/-! ### The stream of a wallet -/

/-- The event in a notification of the client library. -/
def ClientNotification.asEvent : ClientNotification → Option Event
  | .event e => some e
  | _ => none

/-- The client's stream of the notifications of a wallet. -/
def Link.notifications (link : Link) : Notifications where
  wallet := link.service
  nip44Decrypt := link.decrypt
  parseNotification text :=
    match parseWalletNotification link.floats text with
    | some n => .ok n
    | none => .error (link.responseError text)

section

variable {link : Link} {p : Posted WalletNotification} {since : UInt64}

/-- Only the events the wallet sends as notifications matter to the stream. -/
lemma Notifications.filterMap_readable (s : Notifications) (items : List ClientNotification) :
    items.filterMap s.readable =
      ((items.filterMap ClientNotification.asEvent).filter s.sent).filterMap fun e =>
        s.readable (.event e) := by
  induction items with
  | nil => rfl
  | cons item items ih =>
    match item with
    | .message => exact ih
    | .shutdown => exact ih
    | .event event =>
      simp only [List.filterMap_cons, ClientNotification.asEvent, List.filter_cons]
      cases hsent : s.sent event with
      | true => simp only [if_true, List.filterMap_cons, ih]
      | false =>
        have hnone : s.readable (.event event) = none := by simp [Notifications.readable, hsent]
        simp [hnone, ih]

/-- The stream reads what is found of a notification, unless its payload is nested to the limit. -/
lemma Link.readable_found (hkept : Kept link.floats p.notification.notification)
    (htidy : Tidy p.notification.notification) {e : Event}
    (h : p.found link (renderWalletNotification link.floats) since = some e) :
    link.notifications.decrypts (.event e) = true ∧
      link.notifications.readable (.event e) =
        if nesting p.notification.notification < 127 then some p.notification.reread else none := by
  obtain ⟨hkind, hby, _, _, _, hout, he⟩ := Posted.sent_found h
  have hplain : link.decrypt link.service e.content =
      .ok (renderWalletNotification link.floats p.notification) := by
    rw [he]
    exact Link.decrypt_notify hout
  have hsent : link.notifications.sent e = true := by
    simp [Notifications.sent, Link.notifications, hkind, hby, Deliverable.kind]
  have hplain' : link.notifications.nip44Decrypt e.pubkey e.content =
      .ok (renderWalletNotification link.floats p.notification) := by
    rw [hby]
    exact hplain
  constructor
  · simp [Notifications.decrypts, hplain', Except.isOk, Except.toBool]
  · simp only [Notifications.readable, hsent, if_true, hplain']
    simp only [Link.notifications, parseWalletNotification_render hkept htidy]
    split_ifs <;> rfl

end

/-- **A wallet's client receives every notification it should, once.** Whatever the node goes
through and whatever is posted meanwhile, let a client's stream come upon what its filter matches of
what the node sent, in any order, and upon anything by others. What it receives is what was posted
for it: as the outcome of a command of its own, or of a type it was subscribed to and permitted at
the time. It misses only what NIP-44 refuses, what is dated before its filter, and what is nested to
the reader's limit, and that does not keep it from the rest. To wait for a type is to wait for the
first such notification of that type. -/
theorem wallet_notifications_arrive (link : Link) (svc : Service)
    (hs : List (Occurrence WalletNotification)) (since : UInt64) (items : List ClientNotification)
    (hother : link.controller ≠ link.service)
    (hpayload : ∀ n caller stamp, .post n caller stamp ∈ hs →
      Kept link.floats n.notification ∧ Tidy n.notification)
    (harrive :
      ((items.filterMap ClientNotification.asEvent).filter link.notifications.sent).Perm
        (((svc.posted link.codec (.start svc link.service) hs).flatMap fun p =>
          p.events link (renderWalletNotification link.floats)).filter
            (link.asksFor walletNotificationKind since))) :
    let expected := (svc.posted link.codec (.start svc link.service) hs).filter fun p =>
      p.reaches link (renderWalletNotification link.floats) since &&
        nesting p.notification.notification < 127
    (∀ m, (link.notifications.received (pollsOf items m)).Perm
      (expected.map fun p => p.notification.reread)) ∧
    ∀ want, ∀ stop ∈ [Poll.ended, Poll.expired],
      (link.notifications.waitFor want (items.map Poll.item ++ [stop])).1.isSome = true ↔
        ∃ p ∈ expected, p.notification.reread.notificationType = want := by
  intro expected
  have hdecrypts : ∀ item ∈ items, link.notifications.decrypts item = true := by
    intro item hitem
    match item with
    | .message => rfl
    | .shutdown => rfl
    | .event event =>
      cases hsent : link.notifications.sent event with
      | false => simp [Notifications.decrypts, hsent]
      | true =>
        have hmem : event ∈ (items.filterMap ClientNotification.asEvent).filter
            link.notifications.sent :=
          List.mem_filter.mpr ⟨List.mem_filterMap.mpr ⟨_, hitem, rfl⟩, hsent⟩
        obtain ⟨p, hp, he⟩ := (svc.mem_found_iff hother hs since).mp (harrive.mem_iff.mp hmem)
        obtain ⟨hkept, htidy⟩ := hpayload _ _ _ (Service.mem_posted hp)
        exact (Link.readable_found hkept htidy he).1
  have hreceived : (items.filterMap link.notifications.readable).Perm
      (expected.map fun p => p.notification.reread) := by
    obtain ⟨found, hperm, hfound⟩ := svc.exists_found hother hs since harrive
    rw [Notifications.filterMap_readable, filterMap_of_found hfound
      (fun p => nesting p.notification.notification < 127) fun p => p.notification.reread]
    · refine ((hperm.filter _).map _).trans (List.Perm.of_eq ?_)
      rw [List.filter_filter]
      simp only [expected, Bool.and_comm]
    · intro p hp e he
      obtain ⟨hkept, htidy⟩ := hpayload _ _ _
        (Service.mem_posted (List.mem_of_mem_filter (hperm.mem_iff.mp hp)))
      simpa using (Link.readable_found hkept htidy he).2
  refine ⟨?_, ?_⟩
  · intro m
    rw [Notifications.received_pollsOf hdecrypts]
    exact hreceived
  · intro want stop hstop
    rw [Notifications.waitFor_append want hdecrypts hstop, List.find?_isSome]
    simp only [hreceived.mem_iff, List.mem_map, decide_eq_true_eq]
    constructor
    · rintro ⟨_, ⟨p, hp, rfl⟩, hwant⟩
      exact ⟨p, hp, hwant⟩
    · rintro ⟨p, hp, hwant⟩
      exact ⟨_, ⟨p, hp, rfl⟩, hwant⟩

namespace Sample

/-- Nothing but the time matters of a stamp here. -/
def stampedAt (createdAt : UInt64) (_ : PublicKey) : Stamp where
  id := (grantEvent 9 othersKey "" 0).id
  createdAt := createdAt
  sig := (grantEvent 9 othersKey "" 0).sig

/-- A node that only notifies. -/
def quiet : Service where
  owners := [key 2]
  wallet := none
  control := none

/-- What the filter of `key 3` finds of what is posted in a run. -/
def handedOver {N : Type} [Deliverable N] (render : N → String) (hs : List (Occurrence N)) :
    List Event :=
  ((quiet.posted near.codec (.start quiet (key 1)) hs).flatMap fun p =>
    p.events near render).filter (near.asksFor (Deliverable.kind N) 1)

lemma filter_handedOver {N : Type} [Deliverable N] (render : N → String)
    (hs : List (Occurrence N)) :
    (((handedOver render hs).map ClientNotification.event).filterMap
      ClientNotification.asEvent).filter
        (fun e => e.kind = Deliverable.kind N && e.pubkey = key 1) = handedOver render hs := by
  have hevents : ClientNotification.asEvent ∘ ClientNotification.event = some := rfl
  rw [List.filterMap_map, hevents, List.filterMap_some]
  refine List.filter_eq_self.mpr ?_
  intro e he
  obtain ⟨p, _, he⟩ := List.mem_flatMap.mp (List.mem_of_mem_filter he)
  rw [Posted.events_eq] at he
  obtain ⟨x, _, he⟩ := List.mem_filterMap.mp he
  obtain ⟨out, hout, rfl⟩ := Posted.signed_eq_some he
  rw [Bool.and_eq_true, decide_eq_true_eq, decide_eq_true_eq]
  exact ⟨(Link.notify_eq_some hout).1, rfl⟩

/-- A payment was received. -/
def paid : WalletNotification := { notificationType := .paymentReceived, notification := .null }

/-- A payment was sent. -/
def spent : WalletNotification := { notificationType := .paymentSent, notification := .null }

/-- A payment is received, and one is sent that `key 3` asked for; nobody has subscribed. -/
def paymentsPosted : List (Occurrence WalletNotification) :=
  [.post paid none (stampedAt 4),
   .post spent (some (key 3, (grantEvent 8 othersKey "" 0).id)) (stampedAt 6)]

end Sample

open Sample in
/-- The client receives the second. -/
theorem payment_sent_arrives :
    (near.notifications.received (pollsOf ((handedOver (renderWalletNotification near.floats)
      paymentsPosted).map ClientNotification.event) 1)).map
        WalletNotification.notificationType = [.paymentSent] := by
  have hpayload : ∀ n caller stamp, .post n caller stamp ∈ paymentsPosted →
      Kept near.floats n.notification ∧ Tidy n.notification := by
    intro n caller stamp h
    simp only [paymentsPosted, List.mem_cons, Occurrence.post.injEq, List.not_mem_nil,
      or_false] at h
    rcases h with ⟨rfl, _⟩ | ⟨rfl, _⟩ <;> exact ⟨.null, .null⟩
  have harrive := (wallet_notifications_arrive near quiet paymentsPosted 1
    ((handedOver (renderWalletNotification near.floats) paymentsPosted).map
      ClientNotification.event) (by decide) hpayload
    (List.Perm.of_eq (filter_handedOver (renderWalletNotification near.floats)
      paymentsPosted))).1 1
  refine List.perm_singleton.mp ((harrive.map WalletNotification.notificationType).trans
    (List.Perm.of_eq ?_))
  decide +kernel

/-! ### The listener of a node's client -/

/-- A callback given one thing after another, until it says stop, or something fails. -/
def handOn {σ : Type} (f : σ → Notification → σ × Except ClientError Bool) :
    σ → List (Except ClientError Notification) → σ × Except ClientError Unit
  | s, [] => (s, .ok ())
  | s, .error e :: _ => (s, .error e)
  | s, .ok n :: rest =>
    match f s n with
    | (s, .error e) => (s, .error e)
    | (s, .ok true) => handOn f s rest
    | (s, .ok false) => (s, .ok ())

/-- The events a listener looks at. -/
def Listener.sent (l : Listener) (event : Event) : Bool :=
  event.kind = notificationKind && event.pubkey = l.service

section

variable {link : Link} {p : Posted Notification} {since : UInt64}

/-- The callback is given what is read of the events, in their order. -/
lemma Listener.handleNotifications_eq {σ : Type} (l : Listener)
    (f : σ → Notification → σ × Except ClientError Bool) (s : σ)
    (items : List ClientNotification) :
    l.handleNotifications f s items =
      handOn f s (((items.filterMap ClientNotification.asEvent).filter l.sent).filterMap
        l.readNotification) := by
  induction items generalizing s with
  | nil => rfl
  | cons item items ih =>
    match item with
    | .message => exact ih s
    | .shutdown => exact ih s
    | .event event =>
      rw [Listener.handleNotifications, List.filterMap_cons]
      simp only [ClientNotification.asEvent, List.filter_cons]
      cases hsent : l.sent event with
      | false =>
        have hnone : l.readNotification event = none := by
          have hnot : event.kind ≠ notificationKind ∨ event.pubkey ≠ l.service := by
            rw [Listener.sent, Bool.and_eq_false_iff, decide_eq_false_iff_not,
              decide_eq_false_iff_not] at hsent
            exact hsent
          rw [Listener.readNotification, if_pos hnot]
        rw [hnone, if_neg (by simp)]
        exact ih s
      | true =>
        rw [if_pos rfl, List.filterMap_cons]
        cases l.readNotification event with
        | none => exact ih s
        | some outcome =>
          cases outcome with
          | error e => rfl
          | ok n =>
            simp only [handOn]
            cases f s n with
            | mk s' said =>
              cases said with
              | error e => rfl
              | ok more =>
                cases more with
                | true => exact ih s'
                | false => rfl

/-- The listener reads what is found of a notification, if it comes of a subscription. -/
lemma Link.readNotification_found (hkept : Kept link.floats p.notification.notification)
    (htidy : Tidy p.notification.notification) {e : Event}
    (h : p.found link (renderNotification link.floats) since = some e) :
    link.listener.readNotification e =
      if (p.cause link.controller).any Cause.isSubscription then some (link.heard p.notification)
      else none := by
  obtain ⟨_, _, cause, out, hcause, hout, rfl⟩ := Posted.sent_found h
  have hread := Link.readNotification_sign hkept htidy hout (p.stamp link.controller).id
    (p.stamp link.controller).createdAt (p.stamp link.controller).sig link.controller
  rw [hcause, Option.any_some]
  simpa only [true_and, Link.ofController_controller] using hread

end

/-- **A listener hands on every notification it should, once.** Whatever the node goes through and
whatever is posted meanwhile, let the listener come upon what its filter matches of what the node
sent, in any order, and upon anything by others. Each of these events is of one of the notifications
that reach the client; and in the order of the events its callback is given those of them that are
of the types the client was subscribed to and permitted when they were posted, the outcomes of its
own commands among them, until the callback says stop or fails, or one is nested to the reader's
limit. -/
theorem control_notifications_arrive (link : Link) (svc : Service)
    (hs : List (Occurrence Notification)) (since : UInt64) (items : List ClientNotification)
    (hother : link.controller ≠ link.service)
    (hpayload : ∀ n caller stamp, .post n caller stamp ∈ hs →
      Kept link.floats n.notification ∧ Tidy n.notification)
    (harrive :
      ((items.filterMap ClientNotification.asEvent).filter link.listener.sent).Perm
        (((svc.posted link.codec (.start svc link.service) hs).flatMap fun p =>
          p.events link (renderNotification link.floats)).filter
            (link.asksFor notificationKind since))) :
    ∃ found : List (Posted Notification),
      found.Perm ((svc.posted link.codec (.start svc link.service) hs).filter fun p =>
        p.reaches link (renderNotification link.floats) since) ∧
      List.Forall₂ (fun p e => p.found link (renderNotification link.floats) since = some e) found
        ((items.filterMap ClientNotification.asEvent).filter link.listener.sent) ∧
      ∀ {σ : Type} (f : σ → Notification → σ × Except ClientError Bool) (s : σ),
        link.listener.handleNotifications f s items =
          handOn f s ((found.filter fun p => (p.cause link.controller).any Cause.isSubscription).map
            fun p => link.heard p.notification) := by
  obtain ⟨found, hperm, hfound⟩ := svc.exists_found hother hs since harrive
  refine ⟨found, hperm, hfound, ?_⟩
  intro σ f s
  rw [Listener.handleNotifications_eq, filterMap_of_found hfound
    (fun p => (p.cause link.controller).any Cause.isSubscription) fun p =>
      link.heard p.notification]
  intro p hp e he
  obtain ⟨hkept, htidy⟩ := hpayload _ _ _
    (Service.mem_posted (List.mem_of_mem_filter (hperm.mem_iff.mp hp)))
  exact Link.readNotification_found hkept htidy he

namespace Sample

/-- `key 3` subscribes to a type. -/
def subscribing (name : String) : Event where
  id := (grantEvent 3 othersKey "" 0).id
  pubkey := key 3
  createdAt := 2
  kind := subscriptionKind
  tags := [["d", (key 1).toHex], ["p", (key 1).toHex]]
  content := String.ofList ((key 3).toHex.toList ++ (key 1).toHex.toList ++
    (Json.renderStrings [name]).toList)
  sig := (grantEvent 3 othersKey "" 0).sig

/-- Two channels are opened, one before the node hears of the subscription of `key 3`, and one
after. -/
def channelsPosted : List (Occurrence Notification) :=
  [.turn (.event (grantEvent 2 othersKey everyNotification 1) 3),
   .post opened none (stampedAt 4),
   .turn (.event (subscribing "channel_opened") 5),
   .post opened none (stampedAt 6)]

end Sample

open Sample in
/-- The listener hands on one. -/
theorem channel_opened_arrives :
    near.listener.handleNotifications (fun count _ => (count + 1, .ok true)) 0
      ((handedOver (renderNotification near.floats) channelsPosted).map
        ClientNotification.event) = (1, .ok ()) := by
  have hopened : ∀ n caller stamp, .post n caller stamp ∈ channelsPosted → n = opened := by
    intro n caller stamp h
    simp only [channelsPosted, List.mem_cons, Occurrence.post.injEq, reduceCtorEq, false_or,
      List.not_mem_nil, or_false] at h
    rcases h with ⟨rfl, _⟩ | ⟨rfl, _⟩ <;> rfl
  obtain ⟨found, hperm, _, hhanded⟩ := control_notifications_arrive near quiet channelsPosted 1
    ((handedOver (renderNotification near.floats) channelsPosted).map ClientNotification.event)
    (by decide) (by
      intro n caller stamp h
      rw [hopened n caller stamp h]
      exact ⟨.null, .null⟩)
    (List.Perm.of_eq (filter_handedOver (renderNotification near.floats) channelsPosted))
  have hlength : (found.filter fun p =>
      (p.cause near.controller).any Cause.isSubscription).length = 1 :=
    (hperm.filter _).length_eq.trans (by decide +kernel)
  obtain ⟨p, hone⟩ := List.length_eq_one_iff.mp hlength
  have hp := List.mem_of_mem_filter (hone.symm ▸ List.mem_singleton_self p :
    p ∈ found.filter fun p => (p.cause near.controller).any Cause.isSubscription)
  have hposted := Service.mem_posted (List.mem_of_mem_filter (hperm.mem_iff.mp hp))
  rw [hhanded, hone, List.map_singleton, hopened _ _ _ hposted]
  rfl

/-! ### The handle of a command -/

section

variable {link : Link} {p : Posted Notification} {since : UInt64}

end

/-! ### What a handle resolves with -/

section

variable {link : Link} {svc : Service} {hs : List (Occurrence Notification)} {since : UInt64}
  {r : EventId} {polls : List Poll}

variable {T : Type} (timeout : ℕ) (asTyped : Value → Except String T)

end

end NostrLn
