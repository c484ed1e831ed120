import NostrLn.Service.Transport

/-!
# Notifications: to whom, and by which route

A notification goes to the controller whose command it is the outcome of, and to those who have
subscribed to its type. Its tags say which: an `e` tag with the id of the request, an `a` tag with
the address of the subscription, or both. The notifier reads the mirror, not the loop's own stores.
-/

namespace NostrLn

open Serde

def notificationKind : UInt16 := 23200

def walletNotificationKind : UInt16 := 23197

/-- Why a controller is receiving a notification. -/
inductive Cause
  | command (requestId : EventId)
  | subscription
  | both (requestId : EventId)
deriving DecidableEq

/-- The request this is the outcome of, if it is one. -/
def Cause.requestId : Cause → Option EventId
  | .command id => some id
  | .both id => some id
  | .subscription => none

/-- Whether it is also a subscription delivery. -/
def Cause.isSubscription : Cause → Bool
  | .subscription => true
  | .both _ => true
  | .command _ => false

/-- A notification either protocol can deliver: the kind it is carried on, and its type. -/
class Deliverable (N : Type) where
  kind : UInt16
  typeStr : N → String

instance : Deliverable Notification where
  kind := notificationKind
  typeStr n := n.notificationType.asStr

instance : Deliverable WalletNotification where
  kind := walletNotificationKind
  typeStr n := n.notificationType.asStr

/-- The address of an addressable event. -/
structure Coordinate where
  kind : UInt16
  publicKey : PublicKey
  identifier : String

/-- The address of a controller's subscription at a node. -/
def Coordinate.subscription (controller node : PublicKey) : Coordinate where
  kind := subscriptionKind
  publicKey := controller
  identifier := node.toHex

/-- An address as an `a` tag has it. -/
def Coordinate.toStr (c : Coordinate) : String :=
  toString c.kind ++ ":" ++ c.publicKey.toHex ++ ":" ++ c.identifier

/-- The tags of a notification: who it is for, and what caused it. -/
def Cause.tags (cause : Cause) (me recipient : PublicKey) : List Tag :=
  [["p", recipient.toHex]] ++
    (match cause.requestId with
     | some id => [["e", id.toHex]]
     | none => []) ++
    (if cause.isSubscription then [["a", (Coordinate.subscription recipient me).toStr]] else [])

/-- A notification to one controller, if it can be encrypted; `render` is `serde_json`. -/
def notify {N : Type} [Deliverable N] (me : PublicKey) (render : N → String)
    (nip44Encrypt : PublicKey → String → Option String) (recipient : PublicKey) (n : N)
    (cause : Cause) : Option Outgoing :=
  (nip44Encrypt recipient (render n)).map fun ciphertext =>
    { kind := Deliverable.kind N, content := ciphertext, tags := cause.tags me recipient }

/-- To whom a notification of this type is sent, and why. The caller of the command it is the
outcome of comes first, and comes once. -/
def Delivery.addressees (d : Delivery) (ty : String) (caller : Option (PublicKey × EventId)) :
    List (PublicKey × Cause) :=
  let subscribers := d.subs.recipients ty d.grants
  let first := match caller with
    | some (who, id) => [(who, if who ∈ subscribers then .both id else .command id)]
    | none => []
  first ++ (subscribers.filter fun s => caller.map Prod.fst ≠ some s).map fun s =>
    (s, .subscription)

/-! ### The mirror -/

/-- `run` before it has read anything. -/
def Loop.start (svc : Service) (me : PublicKey) : Loop where
  own := { grants := Grants.new me svc.owners, subs := Subscriptions.new me }
  usage := Usage.new
  delivery := { grants := { node := none, owners := [], byController := ∅, others := none }
                subs := { node := none, byController := ∅ } }

/-- Read the current state again, if the fetch does not fail, and mirror it. -/
def Loop.reread (codec : Codec) (loop : Loop) (found : Option (List Event)) : Loop :=
  let own := loop.own.refresh codec found
  { loop with own := own, delivery := own }

/-- What one iteration of the loop takes up: an event or another notification of the stream; or a
tick, which finds that no relay has come back, or fetches. -/
inductive Turn
  | event (event : Event) (now : UInt64)
  | notice
  | tick (fetched : Option (Option (List Event)))

/-- One iteration of the loop. -/
def Service.turn (svc : Service) (codec : Codec) (loop : Loop) : Turn → Loop
  | .event event now => (svc.onEvent codec loop event now).1
  | .notice => loop
  | .tick none => loop
  | .tick (some found) => loop.reread codec found

/-- `run`, up to some iteration: `found` is what the fetch at the start gave, if it did not fail. -/
def Service.loopAfter (svc : Service) (codec : Codec) (me : PublicKey)
    (found : Option (List Event)) (turns : List Turn) : Loop :=
  turns.foldl (svc.turn codec) ((Loop.start svc me).reread codec found)

/-- No iteration leaves the mirror behind. -/
lemma Service.mirrored_turn (svc : Service) (codec : Codec) {loop : Loop}
    (h : loop.delivery = loop.own) (t : Turn) :
    (svc.turn codec loop t).delivery = (svc.turn codec loop t).own := by
  cases t with
  | event event now =>
    simp only [Service.turn, Service.onEvent]
    split_ifs
    · rfl
    · rfl
    · exact h
    · exact h
  | notice => exact h
  | tick fetched =>
    cases fetched with
    | none => exact h
    | some found => rfl

lemma Service.mirrored_loopAfter (svc : Service) (codec : Codec) (me : PublicKey)
    (found : Option (List Event)) (turns : List Turn) :
    (svc.loopAfter codec me found turns).delivery = (svc.loopAfter codec me found turns).own := by
  induction turns using List.reverseRecOn with
  | nil => rfl
  | append_singleton turns t ih =>
    rw [Service.loopAfter, List.foldl_append]
    exact svc.mirrored_turn codec ih t

/-- **The mirror is never stale.** Between any two iterations of the loop a notifier reads the
loop's own grants and subscriptions, and so it does while a request is served: serving it changes
neither. -/
theorem mirror_never_stale (svc : Service) (codec : Codec) (me : PublicKey)
    (found : Option (List Event)) (turns : List Turn) :
    (svc.loopAfter codec me found turns).delivery = (svc.loopAfter codec me found turns).own ∧
    (∀ ty caller, (svc.loopAfter codec me found turns).delivery.addressees ty caller =
      (svc.loopAfter codec me found turns).own.addressees ty caller) ∧
    ∀ event now, event.kind = walletRequestKind ∨ event.kind = controlRequestKind →
      (svc.turn codec (svc.loopAfter codec me found turns) (.event event now)).own =
        (svc.loopAfter codec me found turns).own ∧
      (svc.turn codec (svc.loopAfter codec me found turns) (.event event now)).delivery =
        (svc.loopAfter codec me found turns).own := by
  have hmirror := svc.mirrored_loopAfter codec me found turns
  refine ⟨hmirror, ?_, ?_⟩
  · intro ty caller
    rw [hmirror]
  · intro event now hkind
    rw [Service.turn, svc.onEvent_of_request codec _ now hkind]
    exact ⟨rfl, hmirror⟩

end NostrLn
