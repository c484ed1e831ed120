import NostrLn.Client.Listener
import NostrLn.Service.Recipients
import NostrLn.Service.Turns

/-!
# What a node posts, and what a filter finds of it

Handlers of a node post notifications while its loop runs. Each goes out to every controller it is
for, with tags and a ciphertext of its own. A controller's filter finds one event of it or none, and
which it is follows from who was subscribed and permitted when it was posted.
-/

namespace NostrLn

open Serde Json

/-! ### What is posted -/

/-- What the client library adds to an event when it signs it. -/
structure Stamp where
  id : EventId
  createdAt : UInt64
  sig : Signature

/-- A notification that was posted: the mirror as it was then, whose command it is the outcome of,
and how the event for each controller was signed. -/
structure Posted (N : Type) where
  delivery : Delivery
  notification : N
  caller : Option (PublicKey × EventId)
  stamp : PublicKey → Stamp

/-- What happens at a node: an iteration of its loop, or a notification is posted. -/
inductive Occurrence (N : Type)
  | turn (t : Turn)
  | post (notification : N) (caller : Option (PublicKey × EventId)) (stamp : PublicKey → Stamp)

/-- The notifications posted in a run. -/
def Service.posted {N : Type} (svc : Service) (codec : Codec) :
    Loop → List (Occurrence N) → List (Posted N)
  | _, [] => []
  | loop, .turn t :: hs => svc.posted codec (svc.turn codec loop t) hs
  | loop, .post n caller stamp :: hs =>
    { delivery := loop.delivery, notification := n, caller, stamp } :: svc.posted codec loop hs

/-- The loop after a run. -/
def Service.reached {N : Type} (svc : Service) (codec : Codec) : Loop → List (Occurrence N) → Loop
  | loop, [] => loop
  | loop, .turn t :: hs => svc.reached codec (svc.turn codec loop t) hs
  | loop, .post _ _ _ :: hs => svc.reached codec loop hs

section

variable {N : Type} [Deliverable N]

/-- The request of a controller that it is the outcome of, if there is one. -/
def Posted.request (p : Posted N) (k : PublicKey) : Option EventId :=
  (p.caller.filter fun c => c.1 = k).map Prod.snd

/-- Why a controller is to be sent it, if it is: it asked for this, or subscribes to the type and
is permitted it. -/
def Posted.cause (p : Posted N) (k : PublicKey) : Option Cause :=
  match p.request k,
    p.delivery.subs.shouldReceive k (Deliverable.typeStr p.notification) p.delivery.grants with
  | some id, true => some (.both id)
  | some id, false => some (.command id)
  | none, true => some .subscription
  | none, false => none

/-- The event it goes out as to a controller, if it can be encrypted. -/
def Posted.signed (link : Link) (render : N → String) (p : Posted N) (k : PublicKey)
    (cause : Cause) : Option Event :=
  (notify link.service render link.codec.nip44Encrypt k p.notification cause).map fun out =>
    out.sign link.service (p.stamp k).id (p.stamp k).createdAt (p.stamp k).sig

/-- Send it to one recipient, by relays that take everything: a recipient is missed only if it
cannot be encrypted for it. -/
def Posted.send (link : Link) (render : N → String) (p : Posted N) (published : List Event)
    (recipient : PublicKey × Cause) : Except String Unit × List Event :=
  match p.signed link render recipient.1 recipient.2 with
  | some event => (.ok (), published ++ [event])
  | none => (.error "signer", published)

/-- The events it goes out as. -/
def Posted.events (link : Link) (render : N → String) (p : Posted N) : List Event :=
  (p.delivery.deliver (p.send link render) [] (Deliverable.typeStr p.notification) p.caller).2

/-- What the client asks the relays for, from the time it does. -/
def Link.asksFor (link : Link) (kind : UInt16) (since : UInt64) (event : Event) : Bool :=
  ({ kinds := [kind], pubkey := link.controller } : Filter).matchEvent event &&
    since ≤ event.createdAt

/-- The event the client's filter finds of it, if there is one. -/
def Posted.found (link : Link) (render : N → String) (since : UInt64) (p : Posted N) :
    Option Event :=
  ((p.cause link.controller).bind (p.signed link render link.controller)).filter fun event =>
    since ≤ event.createdAt

/-- It is to be sent to the client, can be encrypted to it, and is dated late enough. -/
def Posted.reaches (link : Link) (render : N → String) (since : UInt64) (p : Posted N) : Bool :=
  (p.cause link.controller).isSome &&
    (link.nip44.encrypt link.service link.controller (render p.notification)).isOk &&
    since ≤ (p.stamp link.controller).createdAt

end

/-! ### The mirror in a run -/

lemma Service.canonical_turn (svc : Service) (codec : Codec) {loop : Loop}
    (h : loop.own.subs.Canonical ∧ loop.delivery.subs.Canonical) (t : Turn) :
    (svc.turn codec loop t).own.subs.Canonical ∧
      (svc.turn codec loop t).delivery.subs.Canonical := by
  cases t with
  | event event now =>
    simp only [Service.turn, Service.onEvent]
    split_ifs
    · exact ⟨Delivery.canonical_feed h.1 _, Delivery.canonical_feed h.1 _⟩
    · exact ⟨Delivery.canonical_feed h.1 _, Delivery.canonical_feed h.1 _⟩
    · exact h
    · exact h
  | notice => exact h
  | tick fetched =>
    cases fetched with
    | none => exact h
    | some answer =>
      cases answer with
      | none => exact ⟨h.1, h.1⟩
      | some found => exact ⟨Delivery.canonical_feedAll h.1 _, Delivery.canonical_feedAll h.1 _⟩

/-- Whoever posts a notification, and whenever: the mirror lists keys as the library writes them. -/
lemma Service.canonical_posted {N : Type} (svc : Service) (codec : Codec) {loop : Loop}
    (h : loop.own.subs.Canonical ∧ loop.delivery.subs.Canonical) (hs : List (Occurrence N)) :
    ∀ p ∈ svc.posted codec loop hs, p.delivery.subs.Canonical := by
  induction hs generalizing loop with
  | nil => simp [Service.posted]
  | cons happening hs ih =>
    cases happening with
    | turn t => exact ih (svc.canonical_turn codec h t)
    | post n caller stamp =>
      rw [Service.posted, List.forall_mem_cons]
      exact ⟨h.2, ih h⟩

lemma Loop.canonical_start (svc : Service) (me : PublicKey) :
    (Loop.start svc me).own.subs.Canonical ∧ (Loop.start svc me).delivery.subs.Canonical := by
  constructor
  · intro k hk
    exact absurd hk (AList.notMem_empty k)
  · intro k hk
    exact absurd hk (AList.notMem_empty k)

/-! ### A run among the relays -/

/-- What happens at a node and its relays: a step of theirs, or a notification is posted. -/
inductive Incident (N : Type)
  | act (act : Act)
  | post (notification : N) (caller : Option (PublicKey × EventId)) (stamp : PublicKey → Stamp)

/-- The notifications posted in a run, up to the first step that cannot be taken. -/
def World.posted {N : Type} (crypto : Crypto) (svc : Service) (codec : Codec) :
    World → List (Incident N) → List (Posted N)
  | _, [] => []
  | w, .act act :: is =>
    match w.step crypto svc codec act with
    | none => []
    | some w' => posted crypto svc codec w' is
  | w, .post n caller stamp :: is =>
    { delivery := w.loop.delivery, notification := n, caller, stamp } ::
      posted crypto svc codec w is

/-- What happens in it at the node. -/
def World.occurrencesOf {N : Type} (crypto : Crypto) (svc : Service) (codec : Codec) :
    World → List (Incident N) → List (Occurrence N)
  | _, [] => []
  | w, .act act :: is =>
    match w.step crypto svc codec act with
    | none => []
    | some w' => (w.turnsAt crypto act).map .turn ++ occurrencesOf crypto svc codec w' is
  | w, .post n caller stamp :: is =>
    .post n caller stamp :: occurrencesOf crypto svc codec w is

lemma Service.posted_turns {N : Type} (svc : Service) (codec : Codec) (loop : Loop)
    (ts : List Turn) (hs : List (Occurrence N)) :
    svc.posted codec loop (ts.map .turn ++ hs) =
      svc.posted codec (ts.foldl (svc.turn codec) loop) hs := by
  induction ts generalizing loop with
  | nil => rfl
  | cons t ts ih => exact ih (svc.turn codec loop t)

/-- **What is posted among the relays** is what is posted in a run of the loop, with the iterations
that the steps are. So what is said below of every run of the loop is said of the node among its
relays. -/
theorem World.posted_eq {N : Type} (crypto : Crypto) (svc : Service) (codec : Codec)
    (node : PublicKey) (is : List (Incident N)) :
    (World.start svc node).posted crypto svc codec is =
      svc.posted codec (.start svc node)
        ((World.start svc node).occurrencesOf crypto svc codec is) := by
  have hany : ∀ w : World, w.posted crypto svc codec is =
      svc.posted codec w.loop (w.occurrencesOf crypto svc codec is) := by
    induction is with
    | nil => exact fun _ => rfl
    | cons incident is ih =>
      intro w
      cases incident with
      | post n caller stamp =>
        rw [World.posted, World.occurrencesOf, Service.posted, ih]
      | act act =>
        rw [World.posted, World.occurrencesOf]
        cases hstep : w.step crypto svc codec act with
        | none => rfl
        | some w' =>
          simp only [ih, svc.posted_turns, World.loop_step hstep]
  exact hany (World.start svc node)

/-! ### One event for each controller -/

/-- Where no key comes twice, what is kept for a key comes from the one entry it has, if any. -/
lemma filterMap_of_key {α β γ : Type} [DecidableEq α] {l : List (α × β)}
    (hnodup : (l.map Prod.fst).Nodup) {k : α} {o : Option β} (h : ∀ b, (k, b) ∈ l ↔ o = some b)
    (g : β → Option γ) :
    l.filterMap (fun x => if x.1 = k then g x.2 else none) = (o.bind g).toList := by
  have hother : ∀ l : List (α × β), k ∉ l.map Prod.fst →
      l.filterMap (fun x => if x.1 = k then g x.2 else none) = [] := by
    intro l hk
    rw [List.filterMap_eq_nil_iff]
    intro x hx
    rw [if_neg]
    rintro rfl
    exact hk (List.mem_map.mpr ⟨x, hx, rfl⟩)
  cases o with
  | none =>
    refine hother l ?_
    intro hk
    obtain ⟨x, hx, rfl⟩ := List.mem_map.mp hk
    cases (h x.2).mp hx
  | some b =>
    obtain ⟨before, after, rfl⟩ := List.append_of_mem ((h b).mpr rfl)
    rw [List.map_append, List.map_cons, List.nodup_append] at hnodup
    obtain ⟨_, hafter, hdisjoint⟩ := hnodup
    have hbefore : k ∉ before.map Prod.fst := by
      intro hk
      exact hdisjoint k hk k (by simp) rfl
    rw [List.filterMap_append, hother before hbefore, List.filterMap_cons, if_pos rfl,
      hother after (List.nodup_cons.mp hafter).1]
    cases hg : g b <;> simp [hg]

section

variable {N : Type} [Deliverable N] {link : Link} {render : N → String} {p : Posted N}

omit [Deliverable N] in
lemma Posted.request_eq_some_iff {k : PublicKey} {id : EventId} :
    p.request k = some id ↔ p.caller = some (k, id) := by
  rw [Posted.request, Option.map_eq_some_iff]
  constructor
  · rintro ⟨⟨who, id⟩, h, rfl⟩
    obtain ⟨hcaller, hwho⟩ := Option.filter_eq_some_iff.mp h
    obtain rfl : who = k := of_decide_eq_true hwho
    exact hcaller
  · intro h
    exact ⟨(k, id), Option.filter_eq_some_iff.mpr ⟨h, decide_eq_true rfl⟩, rfl⟩

/-- Whoever it can be encrypted for is sent it. -/
lemma Posted.events_eq (link : Link) (render : N → String) (p : Posted N) :
    p.events link render =
      (p.delivery.addressees (Deliverable.typeStr p.notification) p.caller).filterMap fun x =>
        p.signed link render x.1 x.2 := by
  have hall : ∀ published recipients, (sendAll (p.send link render) published recipients).2 =
      published ++ recipients.filterMap fun x => p.signed link render x.1 x.2 := by
    intro published recipients
    induction recipients generalizing published with
    | nil => simp [sendAll]
    | cons r rest ih =>
      simp only [sendAll, Posted.send]
      cases h : p.signed link render r.1 r.2 with
      | none => simpa [h] using ih published
      | some event => simpa [h] using ih (published ++ [event])
  exact hall [] _

lemma Posted.mem_addressees (hcanonical : p.delivery.subs.Canonical) {k : PublicKey}
    {cause : Cause} :
    (k, cause) ∈ p.delivery.addressees (Deliverable.typeStr p.notification) p.caller ↔
      p.cause k = some cause := by
  have hsubscribed : p.delivery.Subscribed k (Deliverable.typeStr p.notification) ↔
      p.delivery.subs.shouldReceive k (Deliverable.typeStr p.notification) p.delivery.grants =
        true := by
    rw [← Delivery.subscribed_iff hcanonical, (hcanonical.recipients _ _).2]
  rw [Delivery.mem_addressees hcanonical, hsubscribed, Posted.cause]
  simp only [ne_eq, ← Posted.request_eq_some_iff]
  cases p.request k <;>
    cases p.delivery.subs.shouldReceive k (Deliverable.typeStr p.notification) p.delivery.grants <;>
    simp [eq_comm]

/-- What a controller is sent, signed by the service. -/
lemma Posted.signed_eq_some {k : PublicKey} {cause : Cause} {e : Event}
    (h : p.signed link render k cause = some e) :
    ∃ out, notify link.service render link.codec.nip44Encrypt k p.notification cause = some out ∧
      e = out.sign link.service (p.stamp k).id (p.stamp k).createdAt (p.stamp k).sig := by
  obtain ⟨out, hout, rfl⟩ := Option.map_eq_some_iff.mp h
  exact ⟨out, hout, rfl⟩

/-- The client's filter matches what is sent to it, if it was sent in time. -/
lemma Link.asksFor_signed (hother : link.controller ≠ link.service) {k : PublicKey}
    {cause : Cause} {e : Event} (h : p.signed link render k cause = some e) (since : UInt64) :
    link.asksFor (Deliverable.kind N) since e =
      (decide (k = link.controller) && decide (since ≤ e.createdAt)) := by
  obtain ⟨out, hout, he⟩ := Posted.signed_eq_some h
  obtain ⟨hkind, htags, _⟩ := Link.notify_eq_some hout
  have hkind' : e.kind = Deliverable.kind N := by rw [he, ← hkind, Outgoing.sign]
  have hp : pTagged link.controller.toHex e = decide (k = link.controller) := by
    rw [he, pTagged, Outgoing.sign, List.any_filter, htags, Cause.tags]
    by_cases hk : k = link.controller
    · simp [hk, selfTag, tagIs, hother]
    · cases cause <;> simp [hk, selfTag, tagIs, Cause.requestId, Cause.isSubscription]
  simp [Link.asksFor, Filter.matchEvent, hp, hkind']

/-- Of the events it goes out as, the client's filter finds the one that is for the client. -/
lemma Posted.filter_events (hother : link.controller ≠ link.service)
    (hcanonical : p.delivery.subs.Canonical) (since : UInt64) :
    (p.events link render).filter (link.asksFor (Deliverable.kind N) since) =
      (p.found link render since).toList := by
  have hnodup := Delivery.nodup_addressees hcanonical (Deliverable.typeStr p.notification) p.caller
  have hone : ∀ x : PublicKey × Cause, (p.signed link render x.1 x.2).filter
      (link.asksFor (Deliverable.kind N) since) =
      if x.1 = link.controller then
        (p.signed link render link.controller x.2).filter fun e => since ≤ e.createdAt
      else none := by
    rintro ⟨k, cause⟩
    by_cases hk : k = link.controller
    · subst hk
      rw [if_pos rfl]
      cases he : p.signed link render link.controller cause with
      | none => rfl
      | some e =>
        rw [Option.filter_some, Option.filter_some, Link.asksFor_signed hother he,
          decide_eq_true rfl, Bool.true_and]
    · rw [if_neg hk, Option.filter_eq_none_iff]
      intro e he
      simp [Link.asksFor_signed hother he, hk]
  have hfiltered := filterMap_of_key hnodup
    (fun _ => Posted.mem_addressees (k := link.controller) hcanonical)
    fun cause => (p.signed link render link.controller cause).filter fun e => since ≤ e.createdAt
  rw [Posted.events_eq, List.filter_filterMap]
  simp only [hone]
  rw [hfiltered, Posted.found]
  cases p.cause link.controller <;> rfl

/-- What a run sends that the client's filter finds. -/
lemma Service.filter_posted (svc : Service) (hother : link.controller ≠ link.service)
    (hs : List (Occurrence N)) (since : UInt64) :
    ((svc.posted link.codec (.start svc link.service) hs).flatMap fun p =>
        p.events link render).filter (link.asksFor (Deliverable.kind N) since) =
      (svc.posted link.codec (.start svc link.service) hs).filterMap fun p =>
        p.found link render since := by
  have hcanonical := svc.canonical_posted link.codec (Loop.canonical_start svc link.service) hs
  generalize svc.posted link.codec (.start svc link.service) hs = ps at hcanonical ⊢
  induction ps with
  | nil => rfl
  | cons p ps ih =>
    obtain ⟨hp, hps⟩ := List.forall_mem_cons.mp hcanonical
    rw [List.flatMap_cons, List.filter_append, Posted.filter_events hother hp, ih hps,
      List.filterMap_cons]
    cases p.found link render since <;> rfl

/-- What the filter finds is what is to be sent to the client. -/
lemma Posted.found_eq_some {since : UInt64} {e : Event} (h : p.found link render since = some e) :
    ∃ cause, p.cause link.controller = some cause ∧
      p.signed link render link.controller cause = some e := by
  obtain ⟨h, _⟩ := Option.filter_eq_some_iff.mp h
  exact Option.bind_eq_some_iff.mp h

lemma Posted.isSome_found (since : UInt64) :
    (p.found link render since).isSome = p.reaches link render since := by
  rw [Posted.found, Posted.reaches]
  cases p.cause link.controller with
  | none => rfl
  | some cause =>
    have hnip : link.codec.nip44Encrypt link.controller (render p.notification) =
      (link.nip44.encrypt link.service link.controller (render p.notification)).toOption := rfl
    rw [Option.bind_some, Posted.signed, notify, hnip]
    cases link.nip44.encrypt link.service link.controller (render p.notification) with
    | error text => rfl
    | ok ciphertext =>
      simp only [Except.toOption, Option.map_some, Option.filter_some, Except.isOk, Except.toBool,
        Outgoing.sign, Option.isSome_some, Bool.and_self, Bool.true_and]
      split_ifs with hsince
      · simpa using hsince
      · simpa using hsince

/-- What is found is a notification by the service, and was sent for a cause. -/
lemma Posted.sent_found {since : UInt64} {e : Event} (h : p.found link render since = some e) :
    e.kind = Deliverable.kind N ∧ e.pubkey = link.service ∧
      ∃ cause out, p.cause link.controller = some cause ∧
        notify link.service render link.codec.nip44Encrypt link.controller p.notification cause =
          some out ∧
        e = out.sign link.service (p.stamp link.controller).id (p.stamp link.controller).createdAt
          (p.stamp link.controller).sig := by
  obtain ⟨cause, hcause, hsigned⟩ := Posted.found_eq_some h
  obtain ⟨out, hout, rfl⟩ := Posted.signed_eq_some hsigned
  exact ⟨(Link.notify_eq_some hout).1, rfl, cause, out, hcause, hout, rfl⟩

/-- What the client's filter finds was posted. -/
lemma Service.mem_found_iff (svc : Service) (hother : link.controller ≠ link.service)
    (hs : List (Occurrence N)) (since : UInt64) {e : Event} :
    (e ∈ ((svc.posted link.codec (.start svc link.service) hs).flatMap fun p =>
      p.events link render).filter (link.asksFor (Deliverable.kind N) since)) ↔
    ∃ p ∈ svc.posted link.codec (.start svc link.service) hs,
      p.found link render since = some e := by
  rw [svc.filter_posted hother hs since, List.mem_filterMap]

/-- The events a client's filter matches, in whatever order they come, are of the notifications that
reach it, in some order: each event of one. -/
lemma Service.exists_found (svc : Service) (hother : link.controller ≠ link.service)
    (hs : List (Occurrence N)) (since : UInt64) {events : List Event}
    (hevents : events.Perm (((svc.posted link.codec (.start svc link.service) hs).flatMap fun p =>
      p.events link render).filter (link.asksFor (Deliverable.kind N) since))) :
    ∃ found : List (Posted N),
      found.Perm ((svc.posted link.codec (.start svc link.service) hs).filter fun p =>
        p.reaches link render since) ∧
      List.Forall₂ (fun p e => p.found link render since = some e) found events := by
  rw [svc.filter_posted hother hs since] at hevents
  have heach : ∀ ps : List (Posted N),
      List.Forall₂ (fun e p => p.found link render since = some e)
        (ps.filterMap fun p => p.found link render since)
        (ps.filter fun p => p.reaches link render since) := by
    intro ps
    induction ps with
    | nil => exact .nil
    | cons p ps ih =>
      rw [List.filterMap_cons, List.filter_cons, ← Posted.isSome_found]
      cases he : p.found link render since with
      | none => exact ih
      | some e => exact .cons he ih
  obtain ⟨found, hfound, hperm⟩ := List.perm_comp_forall₂ hevents (heach _)
  exact ⟨found, hperm, hfound.flip⟩

/-- What is read of events, each of a notification, if a reader keeps some of the notifications and
makes something of each. -/
lemma filterMap_of_found {α : Type} {since : UInt64} {found : List (Posted N)}
    {events : List Event}
    (h : List.Forall₂ (fun p e => p.found link render since = some e) found events)
    {read : Event → Option α} (keep : Posted N → Bool) (value : Posted N → α)
    (hread : ∀ p ∈ found, ∀ e, p.found link render since = some e →
      read e = if keep p then some (value p) else none) :
    events.filterMap read = (found.filter keep).map value := by
  induction h with
  | nil => rfl
  | cons he _ ih =>
    obtain ⟨hfirst, hrest⟩ := List.forall_mem_cons.mp hread
    rw [List.filterMap_cons, List.filter_cons, hfirst _ he, ih hrest]
    split_ifs <;> rfl

omit [Deliverable N] in
/-- What is posted in a run. -/
lemma Service.mem_posted {svc : Service} {codec : Codec} {loop : Loop} {hs : List (Occurrence N)}
    (h : p ∈ svc.posted codec loop hs) : .post p.notification p.caller p.stamp ∈ hs := by
  induction hs generalizing loop with
  | nil => simp [Service.posted] at h
  | cons happening hs ih =>
    cases happening with
    | turn t => exact List.mem_cons_of_mem _ (ih h)
    | post n caller stamp =>
      obtain rfl | h := List.mem_cons.mp h
      · exact List.mem_cons_self
      · exact List.mem_cons_of_mem _ (ih h)

end

end NostrLn
