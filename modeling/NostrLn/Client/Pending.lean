import NostrLn.Client.Response
import NostrLn.Service.Notifier

/-!
# The outcome of an asynchronous command

A command that waits on the chain is acknowledged, and its outcome comes later as a notification
with an `e` tag that names the request. The handle that waits for it looks at the kind and at that
tag, and not at the author: the first event that has both decides, whoever made it.
-/

namespace NostrLn

open Serde

/-- The handle an asynchronous command returns, as far as it waits. `T` is the type of the payload
it expects. -/
structure Pending (T : Type) where
  requestId : EventId
  service : PublicKey
  timeout : ℕ
  nip44Decrypt : PublicKey → String → Except String String
  parseNotification : String → Except String Notification
  asTyped : Value → Except String T

variable {T : Type}

/-- What is made of an outcome. -/
def Pending.decodeOutcome (p : Pending T) (event : Event) : Except ClientError T :=
  match p.nip44Decrypt p.service event.content with
  | .error text => .error (.signer text)
  | .ok plaintext =>
    match p.parseNotification plaintext with
    | .error text => .error (.json text)
    | .ok n =>
      match p.asTyped n.notification with
      | .error text => .error (.json text)
      | .ok payload => .ok payload

/-- An event of the stream: passed over, or the outcome. -/
def Pending.readOutcome (p : Pending T) (event : Event) : Option (Except ClientError T) :=
  if event.kind ≠ notificationKind then none
  else if !eTagged p.requestId.toHex event then none
  else some (p.decodeOutcome event)

/-- Wait for the outcome. -/
def Pending.wait (p : Pending T) (polls : List Poll) : Except ClientError T :=
  waitLoop p.readOutcome p.timeout polls

/-! ### Whose outcome -/

/-- What the handle is for: the first outcome by the service. -/
def Pending.intended (p : Pending T) (polls : List Poll) : Except ClientError T :=
  match (arrivals polls).find? (respondsTo notificationKind p.service p.requestId) with
  | some e => p.decodeOutcome e
  | none => .error (.timedOut p.timeout)

/-- The event names the request as an outcome does, whoever made it. -/
def namesOutcome (requestId : EventId) (event : Event) : Bool :=
  event.kind = notificationKind && eTagged requestId.toHex event

/-- Nobody got in first: the first event that names the request is by the service, or says what the
service's own first one says. -/
def Undisturbed (service : PublicKey) (requestId : EventId) (polls : List Poll) : Prop :=
  ∀ e ∈ (arrivals polls).find? (namesOutcome requestId),
    e.pubkey = service ∨
      ∃ e' ∈ (arrivals polls).find? (respondsTo notificationKind service requestId),
        e'.content = e.content

/-- The events that are not passed over are those that name the request. -/
lemma Pending.readOutcome_eq (p : Pending T) :
    p.readOutcome = fun e =>
      if namesOutcome p.requestId e then some (p.decodeOutcome e) else none := by
  funext e
  rw [Pending.readOutcome, namesOutcome]
  by_cases hkind : e.kind = notificationKind <;>
    cases htag : eTagged p.requestId.toHex e <;> simp [hkind]

/-- The handle acts on the first event that names the request. -/
lemma Pending.wait_eq (p : Pending T) (polls : List Poll) :
    p.wait polls =
      match (arrivals polls).find? (namesOutcome p.requestId) with
      | some e => p.decodeOutcome e
      | none => .error (.timedOut p.timeout) := by
  rw [Pending.wait, p.readOutcome_eq]
  exact waitLoop_choose ..

lemma respondsTo_eq (service : PublicKey) (requestId : EventId) (e : Event) :
    respondsTo notificationKind service requestId e =
      (namesOutcome requestId e && e.pubkey = service) := by
  rw [respondsTo, namesOutcome]
  cases decide (e.kind = notificationKind) <;> cases eTagged requestId.toHex e <;> simp

/-- If the first event that names the request is by the service, it is the service's first. -/
lemma find_respondsTo {service : PublicKey} {requestId : EventId} {es : List Event} {e : Event}
    (h : es.find? (namesOutcome requestId) = some e) (hby : e.pubkey = service) :
    es.find? (respondsTo notificationKind service requestId) = some e := by
  induction es with
  | nil => cases h
  | cons x es ih =>
    rw [List.find?_cons] at h ⊢
    rw [respondsTo_eq]
    cases hx : namesOutcome requestId x with
    | true =>
      rw [hx] at h
      cases h
      simp [hby]
    | false =>
      rw [hx] at h
      simpa using ih h

lemma find_respondsTo_eq_none {service : PublicKey} {requestId : EventId} {es : List Event}
    (h : es.find? (namesOutcome requestId) = none) :
    es.find? (respondsTo notificationKind service requestId) = none := by
  rw [List.find?_eq_none] at h ⊢
  intro e he
  simp [respondsTo_eq, h e he]

/-- The outcome of an event depends on its content alone. -/
lemma Pending.decodeOutcome_congr (p : Pending T) {e e' : Event} (h : e.content = e'.content) :
    p.decodeOutcome e = p.decodeOutcome e' := by
  rw [Pending.decodeOutcome, Pending.decodeOutcome, h]

/-- What can be decrypted does not fail for the signer. -/
lemma Pending.decodeOutcome_ne_signer {p : Pending T} {e : Event} {plaintext text : String}
    (h : p.nip44Decrypt p.service e.content = .ok plaintext) :
    p.decodeOutcome e ≠ .error (.signer text) := by
  rw [Pending.decodeOutcome, h]
  cases hparse : p.parseNotification plaintext with
  | error t => simp [hparse]
  | ok n => cases htyped : p.asTyped n.notification <;> simp [hparse, htyped]

/-- If nobody got in first, the outcome is the service's. -/
lemma Pending.wait_of_undisturbed (p : Pending T) {polls : List Poll}
    (h : Undisturbed p.service p.requestId polls) : p.wait polls = p.intended polls := by
  rw [p.wait_eq, Pending.intended]
  cases hfirst : (arrivals polls).find? (namesOutcome p.requestId) with
  | none => rw [find_respondsTo_eq_none hfirst]
  | some e =>
    rcases h e hfirst with hby | ⟨e', he', hcontent⟩
    · rw [find_respondsTo hfirst hby]
    · rw [Option.mem_def.mp he']
      exact p.decodeOutcome_congr hcontent.symm

/-- A signer that cannot read one text, and finds nothing in any other. -/
def cannotRead (text : String) : PublicKey → String → Except String String :=
  fun _ content => if content = text then .error "unreadable" else .ok ""

/-- If somebody did, a signer that cannot read what they wrote tells the difference. -/
lemma Pending.undisturbed_of_wait (p : Pending T) {polls : List Poll}
    (h : ∀ decrypt, { p with nip44Decrypt := decrypt }.wait polls =
      { p with nip44Decrypt := decrypt }.intended polls) :
    Undisturbed p.service p.requestId polls := by
  intro e hfirst
  by_contra hnot
  obtain ⟨hby, hcontent⟩ := not_or.mp hnot
  have hdiffer := h (cannotRead e.content)
  rw [Pending.wait_eq, Pending.intended] at hdiffer
  rw [Option.mem_def] at hfirst
  simp only [hfirst] at hdiffer
  have hwait : { p with nip44Decrypt := cannotRead e.content }.decodeOutcome e =
      .error (.signer "unreadable") := by
    simp [Pending.decodeOutcome, cannotRead]
  rw [hwait] at hdiffer
  cases hown : (arrivals polls).find? (respondsTo notificationKind p.service p.requestId) with
  | none => simp [hown] at hdiffer
  | some e' =>
    rw [hown] at hdiffer
    have hne : e'.content ≠ e.content := by
      intro heq
      exact hcontent ⟨e', hown, heq⟩
    have hreads : cannotRead e.content p.service e'.content = .ok "" := by
      simp [cannotRead, hne]
    exact Pending.decodeOutcome_ne_signer hreads hdiffer.symm

/-- **Whose outcome a handle gives.** The outcome is that of the service's first event, for every
signer, exactly if nobody got in first. Streams in which nobody did, and which have the same events
of the service, have the same outcome. -/
theorem pending_undisturbed_iff {T : Type} (p : Pending T) (polls : List Poll) :
    ((∀ decrypt, { p with nip44Decrypt := decrypt }.wait polls =
        { p with nip44Decrypt := decrypt }.intended polls) ↔
      Undisturbed p.service p.requestId polls) ∧
    ∀ polls', (arrivals polls).filter (fun e => e.pubkey = p.service) =
        (arrivals polls').filter (fun e => e.pubkey = p.service) →
      Undisturbed p.service p.requestId polls → Undisturbed p.service p.requestId polls' →
      p.wait polls = p.wait polls' := by
  refine ⟨⟨p.undisturbed_of_wait, ?_⟩, ?_⟩
  · intro h decrypt
    exact Pending.wait_of_undisturbed { p with nip44Decrypt := decrypt } h
  · intro polls' hsame h h'
    have hfilter : (arrivals polls).filter (respondsTo notificationKind p.service p.requestId) =
        (arrivals polls').filter (respondsTo notificationKind p.service p.requestId) := by
      have hsplit : respondsTo notificationKind p.service p.requestId =
          fun e => (namesOutcome p.requestId e && e.pubkey = p.service) := by
        funext e
        exact respondsTo_eq ..
      rw [hsplit, ← List.filter_filter, ← List.filter_filter, hsame]
    rw [p.wait_of_undisturbed h, p.wait_of_undisturbed h', Pending.intended, Pending.intended,
      find_congr_filter hfilter]

namespace Sample

/-- An event of `key b` that names the request `8…8` as its outcome does. -/
def outcomeBy (b : UInt8) (content : String) : Event :=
  { grantEvent b othersKey content 9 with
    kind := notificationKind
    tags := [["p", (key 4).toHex], ["e", (grantEvent 8 othersKey "" 0).id.toHex]] }

/-- A handle of `key 4` for that request, which can read the ciphertext `1`. -/
def waiting : Pending String where
  requestId := (grantEvent 8 othersKey "" 0).id
  service := key 1
  timeout := 5
  nip44Decrypt _ content := if content = "1" then .ok "opened" else .error "invalid payload"
  parseNotification _ := .ok { notificationType := .channelOpened, notification := .null }
  asTyped _ := .ok "funded"

/-- The outcome, after something that is not an event and something that names nothing. -/
def calm : List Poll :=
  [.item .message, .item (.event (subscriptionEvent 9 "x" 1)), .item (.event (outcomeBy 1 "1"))]

/-- The same, after a stranger's event that names the request. -/
def crowded : List Poll := .item (.event (outcomeBy 9 "junk")) :: calm

end Sample

open Sample in
/-- A stranger who names the request makes the handle fail. -/
theorem stranger_disturbs_outcome :
    ¬ ∀ (p : Pending String) (polls polls' : List Poll),
      (arrivals polls).filter (fun e => e.pubkey = p.service) =
        (arrivals polls').filter (fun e => e.pubkey = p.service) →
      p.wait polls = p.wait polls' := by
  intro h
  have hsame := h waiting crowded calm (by decide +kernel)
  have hcrowded : waiting.wait crowded = .error (.signer "invalid payload") := by decide +kernel
  have hcalm : waiting.wait calm = .ok "funded" := by decide +kernel
  rw [hcrowded, hcalm] at hsame
  cases hsame

open Sample in
/-- Without the stranger it gives the service's outcome. -/
theorem pending_undisturbed_calm :
    waiting.wait calm = .ok "funded" ∧
    ∀ decrypt, { waiting with nip44Decrypt := decrypt }.wait calm =
      { waiting with nip44Decrypt := decrypt }.intended calm := by
  refine ⟨by decide +kernel, (pending_undisturbed_iff waiting calm).1.mpr ?_⟩
  intro e he
  have hfirst : (arrivals calm).find? (namesOutcome waiting.requestId) = some (outcomeBy 1 "1") := by
    decide +kernel
  rw [hfirst] at he
  cases he
  exact Or.inl rfl

end NostrLn
