import NostrLn.Service.World

/-!
# Which requests are answered

A request reaches the service if its subscription asks for the kind, and the subscription asks for
the kinds of the protocols that have a handler. A request for the other protocol would be answered
`NOT_IMPLEMENTED` by the loop, and is never delivered to it. Nor is one to the loop that a relay
sends before the receiver is taken, or that the client refuses to look at.
-/

namespace NostrLn

open Serde

/-! ### The subscription -/

/-- A filter by kinds, and by the key that a `p` tag names. -/
structure Filter where
  kinds : List UInt16
  pubkey : PublicKey

/-- The event matches the filter. -/
def Filter.matchEvent (filter : Filter) (event : Event) : Bool :=
  filter.kinds.contains event.kind && pTagged filter.pubkey.toHex event

/-- What the service asks the relays for. -/
def Service.subscribe (svc : Service) (me : PublicKey) : Filter where
  kinds := [grantKind, subscriptionKind] ++
    (if svc.wallet.isSome then [walletRequestKind] else []) ++
    (if svc.control.isSome then [controlRequestKind] else [])
  pubkey := me

/-- There is a handler for the protocol of this request kind. -/
def Service.serves (svc : Service) (kind : UInt16) : Bool :=
  if kind = walletRequestKind then svc.wallet.isSome else svc.control.isSome

/-- The handler of a request kind. -/
def Service.handler (svc : Service) (kind : UInt16) : Option Handler :=
  if kind = walletRequestKind then svc.wallet.map Handler.wallet
  else svc.control.map Handler.control

/-- An event is published at a relay, which sends on what the subscription asks for, in a message of
some size; and the client looks at it now. -/
def World.forward (crypto : Crypto) (svc : Service) (me : PublicKey) (now : UInt64) (size : ℕ)
    (w : World) (event : Event) : World :=
  if (svc.subscribe me).matchEvent event && Client.admits now size event then
    w.deliver crypto event
  else w

/-! ### Replies -/

/-- What the loop sends in reply to an event, and to what. -/
def Service.repliesFor (svc : Service) (codec : Codec) (loop : Loop) (event : Event)
    (now : UInt64) : List (Event × Outgoing) :=
  (svc.onEvent codec loop event now).2.2.toList.map fun out => (event, out)

/-- What is sent in reply in one step. -/
def World.repliesAt (svc : Service) (codec : Codec) (w : World) : Act → List (Event × Outgoing)
  | .poll now =>
    match w.stage, w.receiver with
    | .listening, event :: _ => svc.repliesFor codec w.loop event now
    | _, _ => []
  | _ => []

/-- What is sent in reply in a run, up to the first step that cannot be taken. -/
def World.replies (crypto : Crypto) (svc : Service) (codec : Codec) :
    World → List Act → List (Event × Outgoing)
  | _, [] => []
  | w, act :: acts =>
    match w.step crypto svc codec act with
    | none => []
    | some w' => w.repliesAt svc codec act ++ replies crypto svc codec w' acts

/-- The replies to an event with this id. -/
def repliesTo (id : EventId) (replies : List (Event × Outgoing)) : List (Event × Outgoing) :=
  replies.filter fun r => r.1.id = id

/-- A response as it should be: of the kind that belongs to the request, encrypted to the requester,
with a result or an error and not both, and with tags that name the requester and the request; and
if there is nothing to serve it, the error says so. -/
def IsAnswer (svc : Service) (codec : Codec) (me : PublicKey) (request : Event) (out : Outgoing) :
    Prop :=
  ∃ response : Response,
    out.kind =
      (if request.kind = walletRequestKind then walletResponseKind else controlResponseKind) ∧
    codec.nip44Encrypt request.pubkey (codec.renderResponse response) = some out.content ∧
    (response.result.isSome = true ↔ response.error = none) ∧
    (∀ id createdAt sig, pTagged request.pubkey.toHex (out.sign me id createdAt sig) = true ∧
      eTagged request.id.toHex (out.sign me id createdAt sig) = true) ∧
    (svc.serves request.kind = false →
      response.error.map NncError.code = some ErrorCode.notImplemented)

/-- Whatever happens next, if the client announces the request no more: once the loop has polled
all that waits for it, it has sent one reply, and that is as it should be. -/
def Answered (crypto : Crypto) (svc : Service) (codec : Codec) (me : PublicKey) (w : World)
    (request : Event) : Prop :=
  ∀ acts w', w.run crypto svc codec acts = some w' →
    occurrences request.id (w.announcements crypto svc codec acts) = 0 →
    w'.stage = .listening → w'.receiver = [] →
    ∃ out, repliesTo request.id (w.replies crypto svc codec acts) = [(request, out)] ∧
      IsAnswer svc codec me request out

/-! ### One reply -/

section

variable {svc : Service} {codec : Codec} {me : PublicKey} {request : Event} {response : Response}
  {out : Outgoing} {id : EventId} {createdAt : UInt64} {sig : Signature}

/-- A request is sent on exactly if there is a handler for its protocol. -/
lemma Service.matchEvent_subscribe
    (hkind : request.kind = walletRequestKind ∨ request.kind = controlRequestKind)
    (htagged : pTagged me.toHex request = true) :
    (svc.subscribe me).matchEvent request = svc.serves request.kind := by
  simp only [Filter.matchEvent, Service.subscribe, Service.serves, htagged, Bool.and_true]
  rcases hkind with h | h
  · rw [h]
    cases svc.wallet.isSome <;> cases svc.control.isSome <;> decide
  · rw [h]
    cases svc.wallet.isSome <;> cases svc.control.isSome <;> decide

/-- A response carries a result or an error. -/
lemma Service.answer_one (svc : Service) (codec : Codec) (event : Event) (kind : UInt16)
    (grants : Grants) (usage : Usage) (now : UInt64) :
    (svc.answer codec event kind grants usage now).1.result.isSome = true ↔
      (svc.answer codec event kind grants usage now).1.error = none := by
  simp only [Service.answer]
  split
  · simp [Response.err]
  · split
    · simp [Response.err]
    · split
      · simp [Response.err]
      · split <;> simp [Response.err]

/-- Of a reply, the tag that names the requester is kept unless the service itself is asking. -/
lemma pTagged_sign_reply (h : reply codec request request.kind response = some out) :
    pTagged request.pubkey.toHex (out.sign me id createdAt sig) = true ↔ request.pubkey ≠ me := by
  obtain ⟨ciphertext, _, rfl⟩ := Option.map_eq_some_iff.mp h
  by_cases hself : request.pubkey = me
  · simp [pTagged, Outgoing.sign, selfTag, tagIs, hself]
  · simp [pTagged, Outgoing.sign, selfTag, tagIs, hself]

lemma eTagged_sign_reply (h : reply codec request request.kind response = some out) :
    eTagged request.id.toHex (out.sign me id createdAt sig) = true := by
  obtain ⟨ciphertext, _, rfl⟩ := Option.map_eq_some_iff.mp h
  rw [eTagged, any_sign_tags _ fun t ht => by simp [tagIs, head_of_selfTag ht]]
  simp [tagIs]

/-- What the loop sends for a request of a protocol it serves is an answer, unless the service
itself is asking; if that is so, it is not. -/
lemma Service.onEvent_answer (svc : Service) (codec : Codec) (me : PublicKey) (loop : Loop)
    (now : UInt64) (hkind : request.kind = walletRequestKind ∨ request.kind = controlRequestKind)
    (hserves : svc.serves request.kind = true)
    (hencrypts : ∀ peer text, (codec.nip44Encrypt peer text).isSome = true) :
    ∃ out, (svc.onEvent codec loop request now).2.2 = some out ∧
      (IsAnswer svc codec me request out ↔ request.pubkey ≠ me) := by
  obtain ⟨ciphertext, hciphertext⟩ := Option.isSome_iff_exists.mp (hencrypts request.pubkey
    (codec.renderResponse
      (svc.answer codec request request.kind loop.own.grants loop.usage now).1))
  have hreply : reply codec request request.kind
      (svc.answer codec request request.kind loop.own.grants loop.usage now).1 =
        some { kind := if request.kind = walletRequestKind then walletResponseKind
                 else controlResponseKind
               content := ciphertext
               tags := [["p", request.pubkey.toHex], ["e", request.id.toHex]] } := by
    simp [reply, hciphertext]
  refine ⟨_, by rw [svc.onEvent_of_request codec loop now hkind, hreply], ?_⟩
  constructor
  · rintro ⟨_, _, _, _, htags, _⟩
    exact (pTagged_sign_reply hreply).mp (htags request.id 0 request.sig).1
  · intro hother
    refine ⟨(svc.answer codec request request.kind loop.own.grants loop.usage now).1, rfl,
      hciphertext, svc.answer_one .., ?_, ?_⟩
    · intro id createdAt sig
      exact ⟨(pTagged_sign_reply hreply).mpr hother, eTagged_sign_reply hreply⟩
    · simp [hserves]

end

/-! ### Among the relays -/

section

variable {crypto : Crypto} {svc : Service} {codec : Codec} {w w' : World} {id : EventId}

/-- The service can finish its start-up and poll all that waits, with nothing new announced. -/
def World.Drains (crypto : Crypto) (svc : Service) (codec : Codec) (w : World) : Prop :=
  ∃ acts w', w.run crypto svc codec acts = some w' ∧
    w.announcements crypto svc codec acts = [] ∧ w'.stage = .listening ∧ w'.receiver = []

/-- It is enough that it can after a step that announces nothing. -/
lemma World.Drains.of_step {act : Act} (hstep : w.step crypto svc codec act = some w')
    (hquiet : w.announcedAt crypto act = []) (h : w'.Drains crypto svc codec) :
    w.Drains crypto svc codec := by
  obtain ⟨acts, v, hrun, hnone, hend⟩ := h
  refine ⟨act :: acts, v, ?_, ?_, hend⟩
  · rw [World.run, List.foldlM_cons, hstep]
    exact hrun
  · rw [World.announcements, hstep]
    simp only [hquiet, hnone, List.append_nil]

lemma World.drains_of_listening (crypto : Crypto) (svc : Service) (codec : Codec)
    (hstage : w.stage = .listening) : w.Drains crypto svc codec := by
  generalize hreceiver : w.receiver = waiting
  induction waiting generalizing w with
  | nil => exact ⟨[], w, rfl, rfl, hstage, hreceiver⟩
  | cons event rest ih =>
    have hstep : w.step crypto svc codec (.poll 0) = some (w.poll svc codec event rest 0) := by
      simp only [World.step, hstage, hreceiver]
    exact .of_step hstep rfl (ih hstage rfl)

lemma World.drains_of_fetched (crypto : Crypto) (svc : Service) (codec : Codec)
    (hstage : w.stage = .fetched) : w.Drains crypto svc codec := by
  have hstep : w.step crypto svc codec .listen = some { w with stage := .listening } := by
    simp only [World.step, hstage]
  exact .of_step hstep rfl (World.drains_of_listening crypto svc codec rfl)

/-- It can from wherever it has got to. -/
lemma World.drains (crypto : Crypto) (svc : Service) (codec : Codec) (w : World) :
    w.Drains crypto svc codec := by
  cases hstage : w.stage with
  | subscribed =>
    have hstep : w.step crypto svc codec .fetchFails =
        some { w with loop := { w.loop with delivery := w.loop.own }, stage := .fetched } := by
      simp only [World.step, hstage]
    exact .of_step hstep rfl (World.drains_of_fetched crypto svc codec rfl)
  | fetched => exact World.drains_of_fetched crypto svc codec hstage
  | listening => exact World.drains_of_listening crypto svc codec hstage

lemma Service.repliesTo_repliesFor (svc : Service) (codec : Codec) (loop : Loop) (event : Event)
    (now : UInt64) (id : EventId) :
    repliesTo id (svc.repliesFor codec loop event now) =
      if event.id = id then svc.repliesFor codec loop event now else [] := by
  rw [repliesTo, Service.repliesFor, List.filter_map]
  by_cases hid : event.id = id
  · simp [hid, Function.comp_def]
  · simp [hid, Function.comp_def]

/-- While nothing of an id is announced, the loop sends for each event of that id that waits what it
sends for it at some time, and nothing else. -/
lemma World.repliesTo_eq {acts : List Act} (hrun : w.run crypto svc codec acts = some w')
    (hquiet : occurrences id (w.announcements crypto svc codec acts) = 0)
    (hdrained : w'.receiver = []) :
    ∃ sent : List (List (Event × Outgoing)),
      List.Forall₂ (fun event out => ∃ loop now, out = svc.repliesFor codec loop event now)
        (w.receiver.filter fun e => e.id = id) sent ∧
      repliesTo id (w.replies crypto svc codec acts) = sent.flatten := by
  induction acts generalizing w with
  | nil =>
    cases hrun
    rw [hdrained]
    exact ⟨[], List.Forall₂.nil, rfl⟩
  | cons act acts ih =>
    rw [World.run, List.foldlM_cons] at hrun
    obtain ⟨v, hstep, hrest⟩ := Option.bind_eq_some_iff.mp hrun
    rw [World.announcements, hstep, occurrences_append, Nat.add_eq_zero_iff] at hquiet
    obtain ⟨hnow, hlater⟩ := hquiet
    obtain ⟨sent, hsent, hreplies⟩ := ih hrest hlater
    have hsplit : repliesTo id (w.replies crypto svc codec (act :: acts)) =
        repliesTo id (w.repliesAt svc codec act) ++ sent.flatten := by
      rw [World.replies, hstep, ← hreplies]
      exact List.filter_append _ _
    rw [hsplit]
    obtain ⟨now, event, rfl, hstage, hreceiver⟩ | ⟨hact, announced, hsublist, hreceiver⟩ :=
      World.receiver_step hstep
    · have hpolled : w.repliesAt svc codec (.poll now) = svc.repliesFor codec w.loop event now := by
        simp only [World.repliesAt, hstage, hreceiver]
      rw [hpolled, svc.repliesTo_repliesFor, hreceiver, List.filter_cons]
      by_cases hid : event.id = id
      · rw [if_pos hid, if_pos (decide_eq_true hid)]
        exact ⟨_ :: sent, List.Forall₂.cons ⟨w.loop, now, rfl⟩ hsent, rfl⟩
      · rw [if_neg hid, if_neg (by simpa using hid)]
        exact ⟨sent, hsent, rfl⟩
    · have hnothing : w.repliesAt svc codec act = [] := by
        cases act with
        | poll now => exact absurd rfl (hact now)
        | _ => rfl
      -- what is announced is not of this id
      have hothers : announced.filter (fun e => e.id = id) = [] := by
        rw [occurrences, List.countP_eq_zero] at hnow
        exact List.filter_eq_nil_iff.mpr fun e he => hnow e (hsublist.subset he)
      rw [hreceiver, List.filter_append, hothers, List.append_nil] at hsent
      rw [hnothing]
      exact ⟨sent, hsent, rfl⟩

variable {me : PublicKey} {request : Event}

/-- What waits of a new request once it was published: the request, if it is served and looked at,
and the receiver had been taken. -/
lemma World.receiver_forward (w : World) (svc : Service) (now : UInt64) (size : ℕ)
    (hkind : request.kind = walletRequestKind ∨ request.kind = controlRequestKind)
    (htagged : pTagged me.toHex request = true) (hverify : request.verify crypto = true)
    (hnew : request.id ∉ w.client.database) (hwaiting : ∀ e ∈ w.receiver, e.id ≠ request.id) :
    ((w.forward crypto svc me now size request).receiver.filter fun e => e.id = request.id) =
      if svc.serves request.kind = true ∧ Client.admits now size request = true ∧
        w.stage = .listening then [request]
      else [] := by
  have hnone : (w.receiver.filter fun e => e.id = request.id) = [] :=
    List.filter_eq_nil_iff.mpr fun e he => by simpa using hwaiting e he
  have hannounced : (w.client.receive crypto [request]).2.1 = [request] := by
    obtain ⟨hdb, _⟩ | ⟨_, hnot, _⟩ | ⟨_, _, heq⟩ := w.client.handleEventMsg_cases crypto request
    · exact absurd hdb hnew
    · rw [hverify] at hnot
      cases hnot
    · simp only [Client.receive, heq]
  rw [World.forward, Service.matchEvent_subscribe hkind htagged]
  by_cases hsent : (svc.serves request.kind && Client.admits now size request) = true
  · obtain ⟨hserves, hadmits⟩ := Bool.and_eq_true_iff.mp hsent
    rw [if_pos hsent]
    by_cases hstage : w.stage = .listening
    · rw [if_pos ⟨hserves, hadmits, hstage⟩, World.deliver_of_listening hstage, hannounced]
      simp [hnone]
    · rw [if_neg fun h => hstage h.2.2, World.deliver_of_not_listening hstage]
      exact hnone
  · rw [if_neg hsent, if_neg fun h => hsent (Bool.and_eq_true_iff.mpr ⟨h.1, h.2.1⟩)]
    exact hnone

end

/-- **Which requests are answered.** With a signer that does not fail, a new request addressed to
the service is answered once, as it should be, exactly if there is a handler for its protocol, the
service is not asking itself, the receiver had been taken when the request was delivered, and the
client does not refuse to look at it. -/
theorem answered_iff (crypto : Crypto) (svc : Service) (codec : Codec) (me : PublicKey) (w : World)
    (request : Event) (now : UInt64) (size : ℕ)
    (hkind : request.kind = walletRequestKind ∨ request.kind = controlRequestKind)
    (htagged : pTagged me.toHex request = true) (hverify : request.verify crypto = true)
    (hnew : request.id ∉ w.client.database) (hwaiting : ∀ e ∈ w.receiver, e.id ≠ request.id)
    (hencrypts : ∀ peer text, (codec.nip44Encrypt peer text).isSome = true) :
    Answered crypto svc codec me (w.forward crypto svc me now size request) request ↔
      svc.serves request.kind = true ∧ request.pubkey ≠ me ∧ w.stage = .listening ∧
        Client.admits now size request = true := by
  have hreceiver := w.receiver_forward svc now size hkind htagged hverify hnew hwaiting
  constructor
  · intro h
    obtain ⟨acts, w', hrun, hquiet, hstage, hdrained⟩ :=
      (w.forward crypto svc me now size request).drains crypto svc codec
    have hquiet' : occurrences request.id
        ((w.forward crypto svc me now size request).announcements crypto svc codec acts) = 0 := by
      rw [hquiet]
      rfl
    obtain ⟨out, hone, hanswer⟩ := h acts w' hrun hquiet' hstage hdrained
    obtain ⟨sent, hsent, hreplies⟩ := World.repliesTo_eq hrun hquiet' hdrained
    rw [hreceiver] at hsent
    split_ifs at hsent with hwaits
    · obtain ⟨hserves, hadmits, hlistening⟩ := hwaits
      cases hsent with
      | cons hfirst hrest =>
        cases hrest
        obtain ⟨loop, polled, rfl⟩ := hfirst
        obtain ⟨out', hout', hiff⟩ :=
          svc.onEvent_answer codec me loop polled hkind hserves hencrypts
        rw [hone] at hreplies
        simp [Service.repliesFor, hout'] at hreplies
        subst hreplies
        exact ⟨hserves, hiff.mp hanswer, hlistening, hadmits⟩
    · cases hsent
      rw [hone] at hreplies
      cases hreplies
  · rintro ⟨hserves, hother, hlistening, hadmits⟩ acts w' hrun hquiet _ hdrained
    obtain ⟨sent, hsent, hreplies⟩ := World.repliesTo_eq hrun hquiet hdrained
    rw [hreceiver, if_pos ⟨hserves, hadmits, hlistening⟩] at hsent
    cases hsent with
    | cons hfirst hrest =>
      cases hrest
      obtain ⟨loop, polled, rfl⟩ := hfirst
      obtain ⟨out, hout, hiff⟩ := svc.onEvent_answer codec me loop polled hkind hserves hencrypts
      refine ⟨out, ?_, hiff.mpr hother⟩
      rw [hreplies]
      simp [Service.repliesFor, hout]

namespace Sample

/-- A service that can be administered, and has no wallet. -/
def nodeOnly : Service where
  owners := [key 2]
  wallet := none
  control := some
    { methods := []
      prepare := fun _ _ _ => .ok { costSats := 0 }
      call := fun _ _ _ => .ok (.ok .null) }

/-- As `plain`, with every text its own ciphertext. -/
def clear : Codec := { plain with nip44Encrypt := fun _ text => some text }

/-- A request of `key 4` to the node `key 1`. -/
def requestEvent (kind : UInt16) : Event :=
  { grantEvent 4 othersKey "" 7 with
    id := eventId 7
    kind := kind
    tags := [["p", (key 1).toHex]] }

/-- The service `key 1` once it has taken its receiver, with nothing delivered yet. -/
def ready (svc : Service) : World := { World.start svc (key 1) with stage := .listening }

end Sample

open Sample in
/-- A wallet request to a service without a wallet is not answered at all. -/
theorem wallet_request_unanswered :
    ¬ ∀ (crypto : Crypto) (svc : Service) (codec : Codec) (me : PublicKey) (w : World)
      (request : Event) (now : UInt64) (size : ℕ),
      request.kind = walletRequestKind ∨ request.kind = controlRequestKind →
      pTagged me.toHex request = true → request.verify crypto = true →
      request.id ∉ w.client.database → (∀ e ∈ w.receiver, e.id ≠ request.id) →
      (∀ peer text, (codec.nip44Encrypt peer text).isSome = true) →
      Answered crypto svc codec me (w.forward crypto svc me now size request) request := by
  intro h
  obtain ⟨out, hone, _⟩ := h toyCrypto nodeOnly clear (key 1) (ready nodeOnly)
    (requestEvent walletRequestKind) 8 200 (Or.inl rfl) (by decide +kernel) (by decide +kernel)
    (by decide) (by decide) (fun _ _ => rfl) [] _ rfl rfl (by decide +kernel) (by decide +kernel)
  cases hone

open Sample in
/-- A control request to the same service is. -/
theorem answered_control_request :
    Answered toyCrypto nodeOnly clear (key 1)
      ((ready nodeOnly).forward toyCrypto nodeOnly (key 1) 8 200 (requestEvent controlRequestKind))
      (requestEvent controlRequestKind) :=
  (answered_iff toyCrypto nodeOnly clear (key 1) (ready nodeOnly) (requestEvent controlRequestKind)
    8 200 (Or.inr rfl) (by decide +kernel) (by decide +kernel) (by decide) (by decide)
    (fun _ _ => rfl)).mpr ⟨rfl, by decide, rfl, by decide +kernel⟩

end NostrLn
