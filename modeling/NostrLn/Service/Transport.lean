import Mathlib.Data.List.Sort
import NostrLn.Grant.Store
import NostrLn.Sdk
import NostrLn.Service.Pipeline
import NostrLn.Subscription.Basic

/-!
# The service loop

What the service does with what the client gives it: a list of events it fetched (`refresh`), and
events from the notification stream, one at a time (`onEvent`). JSON and NIP-44 are the node's
`Codec`.
-/

namespace NostrLn

open Serde

def walletRequestKind : UInt16 := 23194

def walletResponseKind : UInt16 := 23195

def controlRequestKind : UInt16 := 23198

def controlResponseKind : UInt16 := 23199

/-- A response to a request. -/
structure Response where
  resultType : Method
  result : Option Value
  error : Option NncError

/-- A failed response. -/
def Response.err (resultType : Method) (error : NncError) : Response :=
  { resultType, result := none, error := some error }

/-- What the node makes of text, and text of: NIP-44 with its own key, and `serde_json`. -/
structure Codec where
  parseProfile : String → Option UsageProfile
  inbox : Inbox
  parseRequest : String → Except String (Method × Value)
  renderResponse : Response → String
  nip44Encrypt : PublicKey → String → Option String
  explain : Explain

/-- A node service, as it was built. -/
structure Service where
  owners : List PublicKey
  wallet : Option WalletService
  control : Option ControlService

/-- An event the service has built and asks the client to sign and send. -/
structure Outgoing where
  kind : UInt16
  content : String
  tags : List Tag

/-- A `p` tag that names this key. -/
def selfTag (me : PublicKey) (tag : Tag) : Bool := tagIs tag "p" me.toHex

/-- The event the client makes of it: tags that name the author itself are left out. -/
def Outgoing.sign (out : Outgoing) (me : PublicKey) (id : EventId) (createdAt : UInt64)
    (sig : Signature) : Event where
  id := id
  pubkey := me
  createdAt := createdAt
  kind := out.kind
  tags := out.tags.filter fun t => !selfTag me t
  content := out.content
  sig := sig

/-- What the loop holds: its own stores, the buckets, and the mirror its notifiers read. -/
structure Loop where
  own : Delivery
  usage : Usage
  delivery : Delivery

/-! ### Reading the current state -/

/-- Which store an event of the fetched list is given to. -/
def Fed.ofFetched (event : Event) : Fed :=
  if event.kind = grantKind then .grant event else .subscription event

/-- Oldest first. -/
def oldestFirst (events : List Event) : List Event :=
  events.insertionSort fun a b => a.createdAt ≤ b.createdAt

/-- Read current grants and subscriptions: `found` is what the fetch gave, if it did not fail. -/
def Delivery.refresh (codec : Codec) (d : Delivery) (found : Option (List Event)) : Delivery :=
  match found with
  | none => d
  | some events =>
    d.feedAll codec.parseProfile codec.inbox ((oldestFirst events).map Fed.ofFetched)

/-! ### Answering -/

/-- Steps 1 to 7, for one request event. -/
def Service.answer (svc : Service) (codec : Codec) (event : Event) (kind : UInt16)
    (grants : Grants) (usage : Usage) (now : UInt64) : Response × Usage × List Call :=
  match codec.inbox.nip44Decrypt event.pubkey event.content with
  | none =>
    (.err (.unknown "") { code := .unsupportedEncryption
                          message := "this service speaks NIP-44 only" }, usage, [])
  | some plaintext =>
    match codec.parseRequest plaintext with
    | .error text =>
      (.err (.unknown "") { code := .other, message := "malformed request: " ++ text }, usage, [])
    | .ok (method, params) =>
      let handler :=
        if kind = walletRequestKind then svc.wallet.map Handler.wallet
        else svc.control.map Handler.control
      match handler with
      | none => (.err method (.notImplemented method.asStr), usage, [])
      | some handler =>
        let out := handle codec.explain handler grants usage event.pubkey (some event.id) method
          params now
        match out.result with
        | .ok value =>
          ({ resultType := method, result := some value, error := none }, out.usage, out.calls)
        | .error e => (.err method e, out.usage, out.calls)

/-- The response event, if the response can be encrypted. -/
def reply (codec : Codec) (request : Event) (requestKind : UInt16) (response : Response) :
    Option Outgoing :=
  (codec.nip44Encrypt request.pubkey (codec.renderResponse response)).map fun ciphertext =>
    { kind := if requestKind = walletRequestKind then walletResponseKind else controlResponseKind
      content := ciphertext
      tags := [["p", request.pubkey.toHex], ["e", request.id.toHex]] }

/-- One event from the notification stream: the loop after it, the calls made to a handler, and
the event sent in reply. -/
def Service.onEvent (svc : Service) (codec : Codec) (loop : Loop) (event : Event) (now : UInt64) :
    Loop × List Call × Option Outgoing :=
  if event.kind = grantKind then
    let own := loop.own.feed codec.parseProfile codec.inbox (.grant event)
    ({ loop with own := own, delivery := own }, [], none)
  else if event.kind = subscriptionKind then
    let own := loop.own.feed codec.parseProfile codec.inbox (.subscription event)
    ({ loop with own := own, delivery := own }, [], none)
  else if event.kind = walletRequestKind ∨ event.kind = controlRequestKind then
    let (response, usage, calls) :=
      svc.answer codec event event.kind loop.own.grants loop.usage now
    ({ loop with usage := usage }, calls, reply codec event event.kind response)
  else (loop, [], none)

/-- A request is answered; the stores and their mirror are read, and stay as they are. -/
lemma Service.onEvent_of_request (svc : Service) (codec : Codec) (loop : Loop) {event : Event}
    (now : UInt64) (hkind : event.kind = walletRequestKind ∨ event.kind = controlRequestKind) :
    svc.onEvent codec loop event now =
      ({ loop with
          usage := (svc.answer codec event event.kind loop.own.grants loop.usage now).2.1 },
        (svc.answer codec event event.kind loop.own.grants loop.usage now).2.2,
        reply codec event event.kind
          (svc.answer codec event event.kind loop.own.grants loop.usage now).1) := by
  have hgrant : event.kind ≠ grantKind := by
    rcases hkind with h | h <;> rw [h] <;> decide
  have hsub : event.kind ≠ subscriptionKind := by
    rcases hkind with h | h <;> rw [h] <;> decide
  simp [Service.onEvent, hgrant, hsub, hkind]

/-! ### What the client signs -/

/-- The tags left out when the service writes to itself make no difference to a test of others. -/
lemma any_sign_tags {me : PublicKey} {id : EventId} {createdAt : UInt64} {sig : Signature}
    (out : Outgoing) {test : Tag → Bool} (htest : ∀ t, selfTag me t = true → test t = false) :
    (out.sign me id createdAt sig).tags.any test = out.tags.any test := by
  rw [Outgoing.sign, List.any_filter]
  congr 1
  funext t
  cases hself : selfTag me t with
  | true => simp [htest t hself]
  | false => simp

lemma head_of_selfTag {me : PublicKey} {t : Tag} (h : selfTag me t = true) : t.head? = some "p" := by
  simp only [selfTag, tagIs, Bool.and_eq_true, beq_iff_eq] at h
  exact h.1

/-! ### What reaches the grants -/

/-- The grants among some events. -/
def grantsAmong (events : List Event) : List Event := events.filter fun e => e.kind = grantKind

lemma perm_oldestFirst (events : List Event) : (oldestFirst events).Perm events :=
  List.perm_insertionSort _ events

/-- Feeding a list to both stores applies its grants in order. -/
lemma Delivery.grants_feedAll (codec : Codec) (d : Delivery) (events : List Event) :
    (d.feedAll codec.parseProfile codec.inbox (events.map Fed.ofFetched)).grants =
      d.grants.applyAll codec.parseProfile (grantsAmong events) := by
  induction events generalizing d with
  | nil => rfl
  | cons e events ih =>
    rw [List.map_cons, Delivery.feedAll_cons, ih]
    by_cases hkind : e.kind = grantKind
    · simp [Fed.ofFetched, grantsAmong, hkind, Delivery.feed, Grants.applyAll_cons]
    · simp [Fed.ofFetched, grantsAmong, hkind, Delivery.feed]

/-- An event from the stream is applied to the grants if it is one, and else leaves them alone. -/
lemma Service.grants_onEvent (svc : Service) (codec : Codec) (loop : Loop) (event : Event)
    (now : UInt64) :
    (svc.onEvent codec loop event now).1.own.grants =
      loop.own.grants.applyAll codec.parseProfile (grantsAmong [event]) := by
  rw [Service.onEvent]
  by_cases hkind : event.kind = grantKind
  · simp [hkind, grantsAmong, Delivery.feed, Grants.applyAll_cons]
  · simp only [hkind, if_false, grantsAmong, decide_false, List.filter_cons, Bool.false_eq_true,
      List.filter_nil, Grants.applyAll_nil]
    split_ifs <;> rfl

/-! ### Sample codec -/

namespace Sample

/-- What the node reads and writes in these samples. -/
def plain : Codec where
  parseProfile := readProfile
  inbox := reader
  parseRequest _ := .error "not a request"
  renderResponse _ := ""
  nip44Encrypt _ _ := none
  explain _ _ := ""

end Sample

end NostrLn
