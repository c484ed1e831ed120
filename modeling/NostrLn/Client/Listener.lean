import NostrLn.Client.Link
import NostrLn.Client.Pending
import NostrLn.Wire.Notice

/-!
# Which reader a notification reaches

The service names in a notification's tags what caused it, and two readers go by these tags: the
listener of a controller, by the address of its subscription, and the handle of a command, by the
id of its request. The address is built by the library on one side and by a format string on the
other.
-/

namespace NostrLn

open Serde Json

/-! ### The listener -/

/-- A listener for the notifications of a service. -/
structure Listener where
  me : PublicKey
  service : PublicKey
  nip44Decrypt : PublicKey → String → Except String String
  parseNotification : String → Except String Notification

/-- The subscription this listener is for. -/
def Listener.mine (l : Listener) : String :=
  toString subscriptionKind ++ ":" ++ l.me.toHex ++ ":" ++ l.service.toHex

/-- What is made of a notification. -/
def Listener.decodeNotification (l : Listener) (event : Event) :
    Except ClientError Notification :=
  match l.nip44Decrypt l.service event.content with
  | .error text => .error (.signer text)
  | .ok plaintext =>
    match l.parseNotification plaintext with
    | .error text => .error (.json text)
    | .ok n => .ok n

/-- Some tag has this name. -/
def hasTag (name : String) (event : Event) : Bool := event.tags.any fun t => t.head? = some name

/-- An event of the stream: passed over, or a notification. One that names no subscription is the
outcome of some command, or names nothing, which is only logged. -/
def Listener.readNotification (l : Listener) (event : Event) :
    Option (Except ClientError Notification) :=
  if event.kind ≠ notificationKind ∨ event.pubkey ≠ l.service then none
  else if !hasTag "a" event then none
  else if !(event.tags.any fun t => tagIs t "a" l.mine) then none
  else some (l.decodeNotification event)

/-- Hand notifications to a callback as they arrive, until it says stop, or fails, or the stream
ends. `σ` is what the callback holds. -/
def Listener.handleNotifications {σ : Type} (l : Listener)
    (f : σ → Notification → σ × Except ClientError Bool) :
    σ → List ClientNotification → σ × Except ClientError Unit
  | s, [] => (s, .ok ())
  | s, .event event :: rest =>
    match l.readNotification event with
    | none => handleNotifications l f s rest
    | some (.error e) => (s, .error e)
    | some (.ok n) =>
      match f s n with
      | (s, .error e) => (s, .error e)
      | (s, .ok true) => handleNotifications l f s rest
      | (s, .ok false) => (s, .ok ())
  | s, _ :: rest => handleNotifications l f s rest

/-- The notifications handed to a callback that never says stop. -/
def Listener.handed (l : Listener) (stream : List ClientNotification) : List Notification :=
  (l.handleNotifications (fun seen n => (seen ++ [n], .ok true)) [] stream).1

/-- The listener passes over this. -/
def Listener.passes (l : Listener) : ClientNotification → Bool
  | .event event => (l.readNotification event).isNone
  | _ => true

/-! ### What the listener does with one event -/

variable {l : Listener}

/-- What has been handed on already stays. -/
lemma Listener.handed_seen (l : Listener) (seen : List Notification)
    (stream : List ClientNotification) :
    (l.handleNotifications (fun seen n => (seen ++ [n], .ok true)) seen stream).1 =
      seen ++ l.handed stream := by
  induction stream generalizing seen with
  | nil => simp [Listener.handed, Listener.handleNotifications]
  | cons x stream ih =>
    match x with
    | .message => exact ih seen
    | .shutdown => exact ih seen
    | .event event =>
      simp only [Listener.handed, Listener.handleNotifications]
      split
      · exact ih seen
      · simp
      · rw [ih, ih, List.nil_append, List.append_assoc]

section

variable {σ : Type} (f : σ → Notification → σ × Except ClientError Bool) (s : σ)

/-- What is passed over makes no difference. -/
lemma Listener.handleNotifications_event_none {event : Event}
    (h : l.readNotification event = none) (after : List ClientNotification) :
    l.handleNotifications f s (.event event :: after) = l.handleNotifications f s after := by
  simp only [Listener.handleNotifications, h]

/-- An event that cannot be read is the end. -/
lemma Listener.handleNotifications_event_error {event : Event} {e : ClientError}
    (h : l.readNotification event = some (.error e)) (after : List ClientNotification) :
    l.handleNotifications f s (.event event :: after) = (s, .error e) := by
  simp only [Listener.handleNotifications, h]

lemma Listener.handleNotifications_append {before : List ClientNotification}
    (h : ∀ x ∈ before, l.passes x = true) (after : List ClientNotification) :
    l.handleNotifications f s (before ++ after) = l.handleNotifications f s after := by
  induction before with
  | nil => rfl
  | cons x before ih =>
    have hx := h x (by simp)
    have hrest := ih fun x hx => h x (by simp [hx])
    match x with
    | .message => exact hrest
    | .shutdown => exact hrest
    | .event event =>
      rw [List.cons_append, Listener.handleNotifications_event_none f s
        (Option.isNone_iff_eq_none.mp hx)]
      exact hrest

end

lemma Listener.handed_event_some {event : Event} {n : Notification}
    (h : l.readNotification event = some (.ok n)) (after : List ClientNotification) :
    l.handed (.event event :: after) = n :: l.handed after := by
  rw [Listener.handed]
  simp only [Listener.handleNotifications, h]
  rw [l.handed_seen]
  rfl

/-! ### The tags of a notification -/

section

variable {me recipient : PublicKey} {cause : Cause} {out : Outgoing} {id : EventId}
  {createdAt : UInt64} {sig : Signature}

/-- A notification names a subscription exactly if that is a cause of it. -/
lemma hasTag_sign (h : out.tags = cause.tags me recipient) :
    hasTag "a" (out.sign me id createdAt sig) = cause.isSubscription := by
  rw [hasTag, any_sign_tags out fun t ht => by simp [head_of_selfTag ht], h]
  cases cause <;> simp [Cause.tags, Cause.requestId, Cause.isSubscription]

/-- It names the subscription of its recipient, at the service that sent it. -/
lemma tagIs_sign (h : out.tags = cause.tags me recipient) (address : String) :
    ((out.sign me id createdAt sig).tags.any fun t => tagIs t "a" address) =
      (cause.isSubscription && (Coordinate.subscription recipient me).toStr == address) := by
  rw [any_sign_tags out fun t ht => by simp [tagIs, head_of_selfTag ht], h]
  cases cause <;> simp [Cause.tags, Cause.requestId, Cause.isSubscription, tagIs]

/-- It names a request exactly if it is the outcome of it. -/
lemma eTagged_sign (h : out.tags = cause.tags me recipient) (r : EventId) :
    eTagged r.toHex (out.sign me id createdAt sig) = true ↔ cause.requestId = some r := by
  rw [eTagged, any_sign_tags out fun t ht => by simp [tagIs, head_of_selfTag ht], h]
  cases cause <;> simp [Cause.tags, Cause.requestId, Cause.isSubscription, tagIs]

end

/-- The address the library builds is the one the listener looks for, if the controller is the
same. -/
lemma Listener.mine_eq_iff {l : Listener} {k : PublicKey} :
    (Coordinate.subscription k l.service).toStr = l.mine ↔ l.me = k := by
  rw [Coordinate.toStr, Coordinate.subscription, Listener.mine]
  constructor
  · intro h
    have hlist := congrArg String.toList h
    simp only [String.toList_append, List.append_assoc, List.append_cancel_left_eq] at hlist
    have hhex := (List.append_inj' hlist rfl).1
    exact (PublicKey.toHex_inj.mp (String.ext hhex)).symm
  · rintro rfl
    rfl

/-! ### Both readers -/

/-- The same of another controller. -/
def Link.ofController (link : Link) (controller : PublicKey) : Link :=
  { link with controller := controller }

@[simp] lemma Link.ofController_controller (link : Link) :
    link.ofController link.controller = link := rfl

@[simp] lemma Link.service_ofController (link : Link) (j : PublicKey) :
    (link.ofController j).service = link.service := rfl

@[simp] lemma Link.floats_ofController (link : Link) (j : PublicKey) :
    (link.ofController j).floats = link.floats := rfl

@[simp] lemma Link.responseError_ofController (link : Link) (j : PublicKey) :
    (link.ofController j).responseError = link.responseError := rfl

/-- The client's listener for the notifications of a node. -/
def Link.listener (link : Link) : Listener where
  me := link.controller
  service := link.service
  nip44Decrypt := link.decrypt
  parseNotification text :=
    match parseNotification link.floats text with
    | some n => .ok n
    | none => .error (link.responseError text)

/-- The client's handle for a request. -/
def Link.pending {T : Type} (link : Link) (requestId : EventId) (timeout : ℕ)
    (asTyped : Value → Except String T) : Pending T where
  requestId := requestId
  service := link.service
  timeout := timeout
  nip44Decrypt := link.decrypt
  parseNotification := link.listener.parseNotification
  asTyped := asTyped

/-- What is to be read of a notification of a node: its payload may not be nested to the limit. -/
def Link.heard (link : Link) (n : Notification) : Except ClientError Notification :=
  if nesting n.notification < 127 then .ok n.reread
  else .error (.json (link.responseError (renderNotification link.floats n)))

section

variable {link : Link} {k : PublicKey} {cause : Cause} {out : Outgoing}

/-- What is sent: the text, encrypted, and the tags of its cause. -/
lemma Link.notify_eq_some {N : Type} [Deliverable N] {render : N → String} {n : N}
    (h : notify link.service render link.codec.nip44Encrypt k n cause = some out) :
    out.kind = Deliverable.kind N ∧ out.tags = cause.tags link.service k ∧
      link.nip44.encrypt link.service k (render n) = .ok out.content := by
  obtain ⟨ciphertext, hciphertext, rfl⟩ := Option.map_eq_some_iff.mp h
  refine ⟨rfl, rfl, ?_⟩
  have hok : (link.nip44.encrypt link.service k (render n)).toOption = some ciphertext :=
    hciphertext
  cases henc : link.nip44.encrypt link.service k (render n) with
  | error text =>
    rw [henc] at hok
    cases hok
  | ok c =>
    rw [henc] at hok
    rw [Option.some.inj hok]

/-- The recipient decrypts it. -/
lemma Link.decrypt_notify {N : Type} [Deliverable N] {render : N → String} {n : N}
    (h : notify link.service render link.codec.nip44Encrypt k n cause = some out) :
    (link.ofController k).decrypt link.service out.content = .ok (render n) := by
  obtain ⟨_, _, hcipher⟩ := Link.notify_eq_some h
  rw [Link.decrypt]
  simp only [Link.ofController, link.nip44.decrypt_encrypt hcipher]

variable {n : Notification} (hkept : Kept link.floats n.notification)
  (htidy : Tidy n.notification)
  (hsent : notify link.service (renderNotification link.floats) link.codec.nip44Encrypt k n cause =
    some out) (id : EventId) (createdAt : UInt64) (sig : Signature)

include hkept htidy hsent

/-- What a listener does with a notification that was sent. -/
lemma Link.readNotification_sign (j : PublicKey) :
    (link.ofController j).listener.readNotification (out.sign link.service id createdAt sig) =
      if j = k ∧ cause.isSubscription = true then some (link.heard n) else none := by
  obtain ⟨hkind, htags, _⟩ := Link.notify_eq_some hsent
  have hby : ¬ ((out.sign link.service id createdAt sig).kind ≠ notificationKind ∨
      (out.sign link.service id createdAt sig).pubkey ≠
        (link.ofController j).listener.service) := by
    rintro (h | h)
    · exact h hkind
    · exact h rfl
  have hmine : ((Coordinate.subscription k link.service).toStr ==
      (link.ofController j).listener.mine) = decide (j = k) := by
    rw [Bool.eq_iff_iff, beq_iff_eq, decide_eq_true_iff]
    exact Listener.mine_eq_iff (l := (link.ofController j).listener)
  rw [Listener.readNotification, if_neg hby, hasTag_sign htags, tagIs_sign htags, hmine]
  by_cases hj : j = k
  · subst hj
    have hdecode : (link.ofController j).listener.decodeNotification
        (out.sign link.service id createdAt sig) = link.heard n := by
      simp only [Listener.decodeNotification, Link.listener, Link.service_ofController,
        Outgoing.sign, Link.decrypt_notify hsent, Link.floats_ofController,
        Link.responseError_ofController, parseNotification_render hkept htidy, Link.heard]
      by_cases hn : nesting n.notification < 127
      · simp only [if_pos hn]
      · simp only [if_neg hn]
    cases cause.isSubscription <;> simp [hdecode]
  · cases cause.isSubscription <;> simp [hj]

/-- What a handle makes of an outcome that was sent. -/
lemma Link.decodeOutcome_sign {T : Type} (r : EventId) (timeout : ℕ)
    (asTyped : Value → Except String T) :
    ((link.ofController k).pending r timeout asTyped).decodeOutcome
        (out.sign link.service id createdAt sig) =
      (link.heard n).bind fun n => (asTyped n.notification).mapError .json := by
  simp only [Pending.decodeOutcome, Link.pending, Link.listener, Link.service_ofController,
    Outgoing.sign, Link.decrypt_notify hsent, Link.floats_ofController,
    Link.responseError_ofController, parseNotification_render hkept htidy, Link.heard]
  by_cases hn : nesting n.notification < 127
  · simp only [if_pos hn, Notification.reread, Except.bind]
    cases asTyped n.notification <;> rfl
  · simp only [if_neg hn]
    rfl

/-- What a handle does with a notification that was sent. -/
lemma Link.readOutcome_sign {T : Type} (r : EventId) (timeout : ℕ)
    (asTyped : Value → Except String T) :
    ((link.ofController k).pending r timeout asTyped).readOutcome
        (out.sign link.service id createdAt sig) =
      if cause.requestId = some r then
        some ((link.heard n).bind fun n => (asTyped n.notification).mapError .json)
      else none := by
  obtain ⟨hkind, htags, _⟩ := Link.notify_eq_some hsent
  have hkind' : ¬ (out.sign link.service id createdAt sig).kind ≠ notificationKind := by
    intro h
    exact h hkind
  rw [Pending.readOutcome, if_neg hkind', Link.decodeOutcome_sign hkept htidy hsent]
  by_cases hcause : cause.requestId = some r
  · simp [Link.pending, (eTagged_sign htags r).mpr hcause, hcause]
  · have htag : eTagged r.toHex (out.sign link.service id createdAt sig) = false := by
      rw [Bool.eq_false_iff]
      exact fun h => hcause ((eTagged_sign htags r).mp h)
    simp [Link.pending, htag, hcause]

end

/-- **Notifications reach the right reader.** Let a notification be sent to controller `k`. The
listener of a controller, having passed over what came before, is handed it exactly if that is `k`
and the cause is a subscription; and a handle of `k` for a request resolves with its payload
exactly if the cause is that request. Otherwise they pass over it. If the payload is nested to the
reader's limit, both fail where they would have been given it. -/
theorem notifications_routed (link : Link) (k : PublicKey) (n : Notification) (cause : Cause)
    (out : Outgoing) (id : EventId) (createdAt : UInt64) (sig : Signature)
    (hkept : Kept link.floats n.notification) (htidy : Tidy n.notification)
    (hsent : notify link.service (renderNotification link.floats) link.codec.nip44Encrypt k n
      cause = some out) :
    (∀ (j : PublicKey) (before after : List ClientNotification),
      (∀ x ∈ before, (link.ofController j).listener.passes x = true) →
      (nesting n.notification < 127 →
        (link.ofController j).listener.handed
            (before ++ .event (out.sign link.service id createdAt sig) :: after) =
          (if j = k ∧ cause.isSubscription = true then [n.reread] else []) ++
            (link.ofController j).listener.handed after) ∧
      (127 ≤ nesting n.notification →
        ∀ {σ : Type} (f : σ → Notification → σ × Except ClientError Bool) (s : σ),
          (link.ofController j).listener.handleNotifications f s
              (before ++ .event (out.sign link.service id createdAt sig) :: after) =
            if j = k ∧ cause.isSubscription = true then
              (s, .error (.json (link.responseError (renderNotification link.floats n))))
            else (link.ofController j).listener.handleNotifications f s after)) ∧
    ∀ {T : Type} (r : EventId) (timeout : ℕ) (asTyped : Value → Except String T)
      (before after : List Poll),
      (∀ poll ∈ before,
        poll.passes ((link.ofController k).pending r timeout asTyped).readOutcome = true) →
      ((link.ofController k).pending r timeout asTyped).wait
          (before ++ .item (.event (out.sign link.service id createdAt sig)) :: after) =
        if cause = .command r ∨ cause = .both r then
          (if nesting n.notification < 127 then (asTyped n.notification).mapError .json
           else .error (.json (link.responseError (renderNotification link.floats n))))
        else ((link.ofController k).pending r timeout asTyped).wait after := by
  constructor
  · intro j before after hbefore
    have hread := Link.readNotification_sign hkept htidy hsent id createdAt sig j
    constructor
    · intro hn
      rw [Link.heard, if_pos hn] at hread
      rw [Listener.handed, Listener.handleNotifications_append _ _ hbefore]
      split_ifs with hcause
      · rw [if_pos hcause] at hread
        exact Listener.handed_event_some hread after
      · rw [if_neg hcause] at hread
        rw [Listener.handleNotifications_event_none _ _ hread]
        rfl
    · intro hn σ f s
      rw [Link.heard, if_neg (Nat.not_lt.mpr hn)] at hread
      rw [Listener.handleNotifications_append f s hbefore]
      split_ifs with hcause
      · rw [if_pos hcause] at hread
        exact Listener.handleNotifications_event_error f s hread after
      · rw [if_neg hcause] at hread
        exact Listener.handleNotifications_event_none f s hread after
  · intro T r timeout asTyped before after hbefore
    have hread := Link.readOutcome_sign hkept htidy hsent id createdAt sig r timeout asTyped
    have hcause : cause.requestId = some r ↔ cause = .command r ∨ cause = .both r := by
      cases cause <;> simp [Cause.requestId]
    rw [Pending.wait, waitLoop_append hbefore, waitLoop, hread]
    simp only [hcause, Link.heard]
    split_ifs <;> rfl

namespace Sample

/-- A channel was opened. -/
def opened : Notification := { notificationType := .channelOpened, notification := .null }

/-- What the node sends `key 3` about it, who asked for it in `8…8` and has subscribed as well. -/
def openedOut : Outgoing where
  kind := notificationKind
  content := String.ofList ((key 1).toHex.toList ++ (key 3).toHex.toList ++
    (renderNotification noFloats opened).toList)
  tags := Cause.tags (.both (eventId 8)) (key 1) (key 3)

/-- The same, signed. -/
def openedNotice : Event :=
  openedOut.sign (key 1) (eventId 9) 9 (grantEvent 1 othersKey "" 0).sig

end Sample

open Sample in
/-- Its listener is handed it and its handle resolves; another controller's listener, and a handle
for another request, pass over it. -/
theorem notifications_routed_both :
    near.listener.handed [.event openedNotice] = [opened] ∧
    (near.ofController (key 5)).listener.handed [.event openedNotice] = [] ∧
    (near.pending (eventId 8) 5 fun _ => .ok "funded").wait
      [.item (.event openedNotice)] = .ok "funded" ∧
    (near.pending (eventId 9) 5 fun _ => .ok "funded").wait
      [.item (.event openedNotice)] = .error (.timedOut 5) := by
  obtain ⟨hlistener, hpending⟩ := notifications_routed near (key 3) opened
    (.both (eventId 8)) openedOut (eventId 9) 9
    (grantEvent 1 othersKey "" 0).sig .null .null rfl
  refine ⟨?_, ?_, ?_, ?_⟩
  · exact (hlistener (key 3) [] [] (by simp)).1 (by decide)
  · exact ((hlistener (key 5) [] [] (by simp)).1 (by decide)).trans
      (by rw [if_neg (by decide)]; rfl)
  · exact (hpending _ 5 (fun _ => .ok "funded") [] [] (by simp)).trans
      (by rw [if_pos (by simp), if_pos (by decide)]; rfl)
  · exact (hpending _ 5 (fun _ => .ok "funded") [] [] (by simp)).trans
      (by rw [if_neg (by decide)]; rfl)

namespace Sample

/-- Arrays around `null`. -/
def deep : ℕ → Value
  | 0 => .null
  | depth + 1 => .array [deep depth]

lemma nesting_deep (depth : ℕ) : nesting (deep depth) = depth := by
  induction depth with
  | zero => rfl
  | succ depth ih => simp [deep, nesting, nestingItems, ih]

lemma closed_deep {p : Value → Prop} (hp : Closed p) (depth : ℕ) : p (deep depth) := by
  induction depth with
  | zero => exact hp.null
  | succ depth ih => exact hp.array _ (by simpa using ih)

/-- A channel was opened, and the node has a lot to say about it. -/
def deeplyOpened : Notification := { opened with notification := deep 127 }

end Sample

open Sample in
/-- A payload nested to the reader's limit is not handed to the controller it was sent to. -/
theorem deep_notification_is_lost :
    ¬ ∀ (link : Link) (k j : PublicKey) (n : Notification) (cause : Cause) (out : Outgoing)
      (id : EventId) (createdAt : UInt64) (sig : Signature), Kept link.floats n.notification →
      Tidy n.notification →
      notify link.service (renderNotification link.floats) link.codec.nip44Encrypt k n cause =
        some out →
      (n ∈ (link.ofController j).listener.handed
          [.event (out.sign link.service id createdAt sig)] ↔
        j = k ∧ (cause = .subscription ∨ ∃ r, cause = .both r)) := by
  intro h
  have hkept : Kept near.floats deeplyOpened.notification := closed_deep (kept_closed _) 127
  have htidy : Tidy deeplyOpened.notification := closed_deep tidy_closed 127
  have hdeep : ¬ nesting deeplyOpened.notification < 127 := by
    rw [deeplyOpened, nesting_deep]
    decide
  obtain ⟨out, hsent⟩ : ∃ out, notify near.service (renderNotification near.floats)
      near.codec.nip44Encrypt (key 3) deeplyOpened .subscription = some out := ⟨_, rfl⟩
  have hread := Link.readNotification_sign hkept htidy hsent (eventId 9) 9
    (grantEvent 1 othersKey "" 0).sig (key 3)
  rw [if_pos ⟨rfl, rfl⟩, Link.heard, if_neg hdeep] at hread
  have hhanded := (h near (key 3) (key 3) deeplyOpened .subscription out
    (eventId 9) 9 (grantEvent 1 othersKey "" 0).sig hkept htidy hsent).mpr
    ⟨rfl, Or.inl rfl⟩
  rw [Listener.handed, Listener.handleNotifications_event_error _ _ hread] at hhanded
  cases hhanded

end NostrLn
