import NostrLn.Client.Stream
import NostrLn.Lib.Json
import NostrLn.Service.Transport

/-!
# What a client subscribes to is what the node registers

Both clients write the subscription themselves, and the node reads it: the kind, the two tags, the
direction of the encryption, the JSON and the spelling of the names have to agree, and nobody is
told if they do not. The library leaves out a `p` tag that names the author, so this is about a
controller other than the service.
-/

namespace NostrLn

/-! ### Subscribing -/

/-- A client, as far as it subscribes: the service it talks to, and what its signer makes of a
text. -/
structure Subscriber where
  service : PublicKey
  nip44Encrypt : PublicKey → String → Except String String

/-- The event that asks for these names. -/
def Subscriber.subscribe (client : Subscriber) (names : List String) :
    Except ClientError Outgoing :=
  match client.nip44Encrypt client.service (Json.renderStrings names) with
  | .error text => .error (.signer text)
  | .ok content => .ok
    { kind := subscriptionKind
      content := content
      tags := [["d", client.service.toHex], ["p", client.service.toHex]] }

/-- Node control: set which notification types this controller receives. -/
def Subscriber.setSubscription (client : Subscriber) (types : List NotificationType) :
    Except ClientError Outgoing :=
  client.subscribe (types.map NotificationType.asStr)

/-- Wallet connect: what is sent before the filter for notifications is opened. -/
def Subscriber.notifications (client : Subscriber) (types : List WalletNotificationType) :
    Except ClientError Outgoing :=
  client.subscribe (types.map WalletNotificationType.asStr)

/-! ### Both ends -/

/-- NIP-44 between any two keys. It may refuse a text, but what one key encrypts for another, the
other decrypts as coming from it. -/
structure Nip44 where
  encrypt : PublicKey → PublicKey → String → Except String String
  decrypt : PublicKey → PublicKey → String → Option String
  decrypt_encrypt : ∀ {a b text ciphertext}, encrypt a b text = .ok ciphertext →
    decrypt b a ciphertext = some text

/-- The client of a controller, for a service. -/
def Nip44.subscriber (nip44 : Nip44) (service controller : PublicKey) : Subscriber where
  service := service
  nip44Encrypt := nip44.encrypt controller

/-- The inbox of a service. -/
def Nip44.inbox (nip44 : Nip44) (service : PublicKey) : Inbox where
  nip44Decrypt := nip44.decrypt service
  parseTypes := Json.parseStrings

section

variable {nip44 : Nip44} {service controller : PublicKey} {names : List String} {out : Outgoing}
  (id : EventId) (createdAt : UInt64) (sig : Signature)

/-- The event is built unless the signer refuses the text, and then it fails as the signer did. -/
lemma Subscriber.subscribe_cases (client : Subscriber) (names : List String) :
    (∃ text, client.nip44Encrypt client.service (Json.renderStrings names) = .error text ∧
      client.subscribe names = .error (.signer text)) ∨
    ∃ out, client.subscribe names = .ok out ∧ out.kind = subscriptionKind ∧
      out.tags = [["d", client.service.toHex], ["p", client.service.toHex]] ∧
      client.nip44Encrypt client.service (Json.renderStrings names) = .ok out.content := by
  rw [Subscriber.subscribe]
  cases client.nip44Encrypt client.service (Json.renderStrings names) with
  | error text => exact Or.inl ⟨text, rfl, rfl⟩
  | ok content => exact Or.inr ⟨_, rfl, rfl, rfl, rfl⟩

/-- Signed by another than the service, both tags are there. -/
lemma tags_sign_of_ne (hother : controller ≠ service)
    (htags : out.tags = [["d", service.toHex], ["p", service.toHex]]) :
    (out.sign controller id createdAt sig).tags =
      [["d", service.toHex], ["p", service.toHex]] := by
  have hself : selfTag controller ["p", service.toHex] = false := by
    simp [selfTag, tagIs, Ne.symm hother]
  have hd : selfTag controller ["d", service.toHex] = false := rfl
  rw [Outgoing.sign, htags]
  simp [hself, hd]

/-- The node reads the names that were given. -/
lemma ofEvent_sign (hother : controller ≠ service) (hkind : out.kind = subscriptionKind)
    (htags : out.tags = [["d", service.toHex], ["p", service.toHex]])
    (hcontent : nip44.encrypt controller service (Json.renderStrings names) = .ok out.content) :
    Wanted.ofEvent (nip44.inbox service) service (out.sign controller id createdAt sig) =
      some { types := names, createdAt := createdAt } := by
  have htags' := tags_sign_of_ne id createdAt sig hother htags
  rw [Wanted.ofEvent_eq_some_iff]
  refine ⟨⟨hkind, ?_, ?_⟩, names, ?_, rfl⟩
  · rw [dTag, htags']
    simp
  · rw [pTagged, htags']
    simp [tagIs]
  · have hplain := nip44.decrypt_encrypt hcontent
    simp [Nip44.inbox, Outgoing.sign, hplain, Json.parseStrings_renderStrings]

end

/-- The call fails as its signer did; or the event it sends is accepted, and from then on the
controller receives exactly those of the names that its grant permits. -/
def RegistersExactly (nip44 : Nip44) (service controller : PublicKey) (subs : Subscriptions)
    (grants : Grants) (id : EventId) (createdAt : UInt64) (sig : Signature) (names : List String)
    (sent : Except ClientError Outgoing) : Prop :=
  (∃ text, nip44.encrypt controller service (Json.renderStrings names) = .error text ∧
    sent = .error (.signer text)) ∨
  ∃ out, sent = .ok out ∧
    let applied := subs.apply (nip44.inbox service) (out.sign controller id createdAt sig) grants
    applied.1 = .ok names.length ∧
    ∀ ty, applied.2.shouldReceive controller ty grants = true ↔
      ty ∈ names ∧
        ∃ g, grants.resolve controller = .ok g ∧ g.profile.allowsNotification ty = true

section

variable {nip44 : Nip44} {service controller : PublicKey} {subs : Subscriptions} {grants : Grants}
  {id : EventId} {createdAt : UInt64} {sig : Signature}

/-- Whatever the names are. -/
lemma registersExactly_subscribe (hother : controller ≠ service) (hnode : subs.node = some service)
    (hgrant : (grants.resolve controller).isOk = true)
    (hnewest : ∀ w, subs.byController.lookup controller.toHex = some w → w.createdAt ≤ createdAt)
    (names : List String) :
    RegistersExactly nip44 service controller subs grants id createdAt sig names
      ((nip44.subscriber service controller).subscribe names) := by
  obtain ⟨text, htext, hfails⟩ | ⟨out, hout, hkind, htags, hcontent⟩ :=
    (nip44.subscriber service controller).subscribe_cases names
  · exact Or.inl ⟨text, htext, hfails⟩
  refine Or.inr ⟨out, hout, ?_⟩
  have hread := ofEvent_sign id createdAt sig hother hkind htags hcontent
  obtain ⟨w, hw, _, happly⟩ | ⟨r, _, hnone | hno⟩ :=
    subs.apply_cases (nip44.inbox service) hnode (out.sign controller id createdAt sig) grants
  · rw [hread] at hw
    cases hw
    obtain ⟨htaken, hlookup⟩ :=
      Subscriptions.put_of_newest (w := { types := names, createdAt := createdAt }) hnewest
    have hput : subs.apply (nip44.inbox service) (out.sign controller id createdAt sig) grants =
        subs.put controller.toHex { types := names, createdAt := createdAt } := happly
    rw [hput]
    refine ⟨htaken, ?_⟩
    intro ty
    rw [Subscriptions.shouldReceive_iff, hlookup ty]
  · rw [hread] at hnone
    cases hnone
  · have : (grants.resolve controller).isOk = false := hno
    rw [hgrant] at this
    cases this

end

/-- **What is subscribed is what is registered.** Let a controller, which is not the service
itself, have a grant and no newer subscription at the node. Whatever types the client of node
control is given, or that of a wallet, known or not: unless NIP-44 refuses the text, the node
accepts the event, and the controller receives exactly the types that were listed and are
permitted. -/
theorem subscribed_is_registered (nip44 : Nip44) (service controller : PublicKey)
    (subs : Subscriptions) (grants : Grants) (id : EventId) (createdAt : UInt64) (sig : Signature)
    (hother : controller ≠ service) (hnode : subs.node = some service)
    (hgrant : (grants.resolve controller).isOk = true)
    (hnewest : ∀ w, subs.byController.lookup controller.toHex = some w → w.createdAt ≤ createdAt) :
    (∀ types : List NotificationType,
      RegistersExactly nip44 service controller subs grants id createdAt sig
        (types.map NotificationType.asStr)
        ((nip44.subscriber service controller).setSubscription types)) ∧
    ∀ types : List WalletNotificationType,
      RegistersExactly nip44 service controller subs grants id createdAt sig
        (types.map WalletNotificationType.asStr)
        ((nip44.subscriber service controller).notifications types) := by
  constructor
  · intro types
    exact registersExactly_subscribe hother hnode hgrant hnewest _
  · intro types
    exact registersExactly_subscribe hother hnode hgrant hnewest _

namespace Sample

/-- Texts sealed with the keys of the two parties; the texts here are short enough for NIP-44. -/
def sealedTexts : Nip44 where
  encrypt a b text := .ok (String.ofList (a.toHex.toList ++ b.toHex.toList ++ text.toList))
  decrypt b a ciphertext :=
    let parties := a.toHex.toList ++ b.toHex.toList
    if parties.isPrefixOf ciphertext.toList then
      some (String.ofList (ciphertext.toList.drop parties.length))
    else none
  decrypt_encrypt h := by
    cases h
    simp [String.toList_ofList]

/-- The owner `key 2` of the node `key 1` lets `controller` be told everything. -/
def tellEverything (controller : PublicKey) : Grants :=
  grantedBy2 controller.toHex everyNotification

lemma resolve_tellEverything (controller : PublicKey) :
    (tellEverything controller).resolve controller =
      .ok (VerifiedGrant.ofEvent readProfile
        (grantEvent 2 controller.toHex everyNotification 1)) := by
  rw [tellEverything, grantedBy2_eq controller.toHex_ne_empty, Grants.resolve_eq_ok_iff,
    Grants.getRaw_store, if_pos rfl]
  rfl

end Sample

open Sample in
/-- A name nobody knows is registered as it came. -/
theorem subscribed_is_registered_unknown :
    ∃ out, (sealedTexts.subscriber (key 1) (key 4)).setSubscription
        [.channelClosed, .unknown "\"", .channelClosed] = .ok out ∧
      let applied := (Subscriptions.new (key 1)).apply (sealedTexts.inbox (key 1))
        (out.sign (key 4) (grantEvent 4 othersKey "" 0).id 5 (grantEvent 4 othersKey "" 0).sig)
        (tellEverything (key 4))
      applied.1 = .ok 3 ∧
      applied.2.shouldReceive (key 4) "\"" (tellEverything (key 4)) = true ∧
      applied.2.shouldReceive (key 4) "channel_opened" (tellEverything (key 4)) = false := by
  obtain ⟨hcontrol, _⟩ := subscribed_is_registered sealedTexts (key 1) (key 4)
    (Subscriptions.new (key 1)) (tellEverything (key 4)) (grantEvent 4 othersKey "" 0).id 5
    (grantEvent 4 othersKey "" 0).sig (by decide) rfl (by rw [resolve_tellEverything]; rfl)
    (by simp [Subscriptions.new])
  obtain ⟨text, htext, _⟩ | ⟨out, hout, hok, hreceive⟩ :=
    hcontrol [.channelClosed, .unknown "\"", .channelClosed]
  · cases htext
  · refine ⟨out, hout, hok, ?_, ?_⟩
    · rw [hreceive]
      exact ⟨by decide, _, resolve_tellEverything (key 4), by decide⟩
    · rw [Bool.eq_false_iff, ne_eq, hreceive]
      rintro ⟨h, _⟩
      revert h
      decide

open Sample in
/-- The service as its own controller: its grant resolves, but the library leaves out the `p` tag,
and the node refuses the event. -/
theorem service_cannot_subscribe :
    ¬ ∀ (nip44 : Nip44) (service controller : PublicKey) (subs : Subscriptions) (grants : Grants)
      (id : EventId) (createdAt : UInt64) (sig : Signature) (types : List NotificationType),
      subs.node = some service → (grants.resolve controller).isOk = true →
      (∀ w, subs.byController.lookup controller.toHex = some w → w.createdAt ≤ createdAt) →
      RegistersExactly nip44 service controller subs grants id createdAt sig
        (types.map NotificationType.asStr)
        ((nip44.subscriber service controller).setSubscription types) := by
  intro h
  obtain ⟨text, htext, _⟩ | ⟨out, hout, hok, _⟩ := h sealedTexts (key 1) (key 1)
    (Subscriptions.new (key 1)) (tellEverything (key 1)) (grantEvent 1 othersKey "" 0).id 5
    (grantEvent 1 othersKey "" 0).sig [.channelClosed] rfl (by rw [resolve_tellEverything]; rfl)
    (by simp [Subscriptions.new])
  · cases htext
  · cases hout
    revert hok
    decide +kernel

end NostrLn
