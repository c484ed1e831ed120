import NostrLn.Grant.Basic
import NostrLn.Lib.Newest

/-!
# Subscriptions: kind `30199`, authored by the controller

A subscription says what a controller wants; its grant says what it may have. Delivery is the
intersection. NIP-44 decryption and the reading of a JSON array of strings are parameters,
gathered in `Inbox`.
-/

namespace NostrLn

/-- Kind of a subscription. -/
def subscriptionKind : UInt16 := 30199

/-- What the node can make of an event's content: its own NIP-44, and `serde_json`. -/
structure Inbox where
  nip44Decrypt : PublicKey → String → Option String
  parseTypes : String → Option (List String)

namespace Subscription

/-- Why a subscription event was not applied. -/
inductive Rejected
  | wrongTarget
  | notAddressedToThisNode
  | unparseable
  | undecryptable
  | noGrant
  | superseded
  | wrongKind
deriving DecidableEq

end Subscription

/-- What a controller asked for, and when. -/
structure Wanted where
  types : List String
  createdAt : UInt64
deriving DecidableEq

/-- What each controller has asked to be told about. -/
structure Subscriptions where
  node : Option PublicKey
  byController : HashMap String Wanted

/-- No subscriptions yet. -/
def Subscriptions.new (node : PublicKey) : Subscriptions :=
  { node := some node, byController := ∅ }

/-- Register what a controller wants, unless it is older than what is registered. -/
def Subscriptions.put (s : Subscriptions) (controller : String) (wanted : Wanted) :
    Except Subscription.Rejected ℕ × Subscriptions :=
  if (s.byController.lookup controller).any fun existing =>
      wanted.createdAt < existing.createdAt then
    (.error .superseded, s)
  else if wanted.types.length = 0 then
    -- an empty array unsubscribes from everything
    (.ok 0, { s with byController := s.byController.erase controller })
  else
    (.ok wanted.types.length, { s with byController := s.byController.insert controller wanted })

/-- Apply a kind-`30199` event, given the grants in force. The grant is checked before anything
is decrypted. -/
def Subscriptions.apply (inbox : Inbox) (s : Subscriptions) (event : Event) (grants : Grants) :
    Except Subscription.Rejected ℕ × Subscriptions :=
  match s.node with
  | none => (.error .wrongTarget, s)
  | some node =>
    if event.kind ≠ subscriptionKind then (.error .wrongKind, s)
    else
      match dTag event with
      | none => (.error .wrongTarget, s)
      | some d =>
        if d ≠ node.toHex then (.error .wrongTarget, s)
        else if !pTagged node.toHex event then (.error .notAddressedToThisNode, s)
        else if !(grants.resolve event.pubkey).isOk then (.error .noGrant, s)
        else
          match inbox.nip44Decrypt event.pubkey event.content with
          | none => (.error .undecryptable, s)
          | some plaintext =>
            match inbox.parseTypes plaintext with
            | none => (.error .unparseable, s)
            | some types =>
              s.put event.pubkey.toHex { types := types, createdAt := event.createdAt }

/-- Whether a controller should receive a notification type now. -/
def Subscriptions.shouldReceive (s : Subscriptions) (controller : PublicKey)
    (notificationType : String) (grants : Grants) : Bool :=
  match s.byController.lookup controller.toHex with
  | none => false
  | some wanted =>
    if !wanted.types.any (· == notificationType) then false
    else
      match grants.resolve controller with
      | .ok g => g.profile.allowsNotification notificationType
      | .error _ => false

/-- Every controller that should receive this notification type now. -/
def Subscriptions.recipients (s : Subscriptions) (notificationType : String) (grants : Grants) :
    List PublicKey :=
  (s.byController.keys.filterMap PublicKey.fromHex).filter
    fun pk => s.shouldReceive pk notificationType grants

/-- How many controllers hold a subscription. -/
def Subscriptions.len (s : Subscriptions) : ℕ := s.byController.keys.length

/-! ### What one event does -/

/-- What the node reads in an event: the types it lists, if it is a subscription to this node at
all. -/
def Wanted.ofEvent (inbox : Inbox) (node : PublicKey) (e : Event) : Option Wanted :=
  if e.kind = subscriptionKind ∧ dTag e = some node.toHex ∧ pTagged node.toHex e = true then
    ((inbox.nip44Decrypt e.pubkey e.content).bind inbox.parseTypes).map fun types =>
      { types := types, createdAt := e.createdAt }
  else none

/-- When it was asked for. -/
def Wanted.stamp (w : Wanted) : ℕ := w.createdAt.toNat

/-- It asks for nothing. -/
def Wanted.clears (w : Wanted) : Bool := w.types.isEmpty

variable {inbox : Inbox} {node : PublicKey}

/-- What is read is a subscription to this node, and what was found behind its content. -/
lemma Wanted.ofEvent_eq_some_iff {e : Event} {w : Wanted} :
    Wanted.ofEvent inbox node e = some w ↔
      (e.kind = subscriptionKind ∧ dTag e = some node.toHex ∧ pTagged node.toHex e = true) ∧
      ∃ types, (inbox.nip44Decrypt e.pubkey e.content).bind inbox.parseTypes = some types ∧
        w = { types := types, createdAt := e.createdAt } := by
  rw [Wanted.ofEvent]
  split_ifs with hform
  · simp only [Option.map_eq_some_iff, hform, and_self, true_and]
    constructor
    · rintro ⟨types, htypes, rfl⟩
      exact ⟨types, htypes, rfl⟩
    · rintro ⟨types, htypes, rfl⟩
      exact ⟨types, htypes, rfl⟩
  · simp [hform]

/-- What one `apply` can do: register what the event asks for under its author, if the author
holds a grant, or refuse it and change nothing. -/
lemma Subscriptions.apply_cases (inbox : Inbox) {s : Subscriptions}
    (hnode : s.node = some node) (e : Event) (grants : Grants) :
    (∃ w, Wanted.ofEvent inbox node e = some w ∧ (grants.resolve e.pubkey).isOk = true ∧
      s.apply inbox e grants = s.put e.pubkey.toHex w) ∨
    ∃ r, s.apply inbox e grants = (.error r, s) ∧
      (Wanted.ofEvent inbox node e = none ∨ (grants.resolve e.pubkey).isOk = false) := by
  rw [Subscriptions.apply, Wanted.ofEvent]
  rw [hnode]
  simp only
  by_cases hkind : e.kind = subscriptionKind
  case neg => exact Or.inr ⟨.wrongKind, by simp [hkind], by simp [hkind]⟩
  by_cases hd : dTag e = some node.toHex
  case neg =>
    refine Or.inr ⟨.wrongTarget, ?_, by simp [hd]⟩
    cases hd' : dTag e with
    | none => simp [hkind]
    | some d =>
      have : d ≠ node.toHex := fun h => hd (by rw [hd', h])
      simp [hkind, this]
  by_cases hp : pTagged node.toHex e = true
  case neg => exact Or.inr ⟨.notAddressedToThisNode, by simp [hkind, hd, hp], by simp [hp]⟩
  by_cases hgrant : (grants.resolve e.pubkey).isOk = true
  case neg => exact Or.inr ⟨.noGrant, by simp [hkind, hd, hp, hgrant], by simp [hgrant]⟩
  cases hplain : inbox.nip44Decrypt e.pubkey e.content with
  | none => exact Or.inr ⟨.undecryptable, by simp [hkind, hd, hp, hgrant], by simp⟩
  | some plaintext =>
    cases htypes : inbox.parseTypes plaintext with
    | none => exact Or.inr ⟨.unparseable, by simp [hkind, hd, hp, hgrant, htypes], by simp [htypes]⟩
    | some types =>
      refine Or.inl ⟨{ types := types, createdAt := e.createdAt }, ?_, hgrant, ?_⟩
      · simp [hkind, hd, hp, htypes]
      · simp [hkind, hd, hp, hgrant, htypes]

/-- The register of a controller forgets: unsubscribing leaves no time stamp behind. -/
lemma Subscriptions.lookup_put (s : Subscriptions) (controller k : String) (w : Wanted) :
    (s.put controller w).2.byController.lookup k =
      if k = controller then
        Newest.forgetStep Wanted.stamp Wanted.clears (s.byController.lookup k) w
      else s.byController.lookup k := by
  have hlt : ∀ v : Wanted, w.createdAt < v.createdAt ↔ w.stamp < v.stamp :=
    fun v => UInt64.lt_iff_toNat_lt
  rw [Subscriptions.put]
  by_cases hk : k = controller
  · subst hk
    rw [if_pos rfl]
    have hclears : w.clears = decide (w.types.length = 0) := by
      cases h : w.types <;> simp [Wanted.clears, h]
    cases hslot : s.byController.lookup k with
    | none => by_cases hempty : w.types.length = 0 <;> simp [Newest.forgetStep, hclears, hempty]
    | some v =>
      by_cases hold : w.stamp < v.stamp
      · simp [Newest.forgetStep, hold, (hlt v).mpr hold, hslot]
      · have hold' : ¬ w.createdAt < v.createdAt := fun h => hold ((hlt v).mp h)
        by_cases hempty : w.types.length = 0 <;>
          simp [Newest.forgetStep, hclears, hempty, hold, hold']
  · rw [if_neg hk]
    split_ifs
    · rfl
    · exact AList.lookup_erase_ne hk
    · exact AList.lookup_insert_ne hk

/-- What is not older than what is registered is taken, and then it is what the controller asks
for. -/
lemma Subscriptions.put_of_newest {s : Subscriptions} {controller : String} {w : Wanted}
    (h : ∀ v, s.byController.lookup controller = some v → v.createdAt ≤ w.createdAt) :
    (s.put controller w).1 = .ok w.types.length ∧
    ∀ ty, (∃ v, (s.put controller w).2.byController.lookup controller = some v ∧ ty ∈ v.types) ↔
      ty ∈ w.types := by
  have hfresh : ((s.byController.lookup controller).any fun existing =>
      decide (w.createdAt < existing.createdAt)) = false := by
    cases hslot : s.byController.lookup controller with
    | none => rfl
    | some v => simpa using h v hslot
  rw [Subscriptions.put, hfresh]
  by_cases hempty : w.types.length = 0
  · simp [List.length_eq_zero_iff.mp hempty]
  · simp [hempty]

@[simp] lemma Subscriptions.node_put (s : Subscriptions) (controller : String) (w : Wanted) :
    (s.put controller w).2.node = s.node := by
  rw [Subscriptions.put]
  split_ifs <;> rfl

@[simp] lemma Subscriptions.node_apply (s : Subscriptions) (e : Event) (grants : Grants) :
    (s.apply inbox e grants).2.node = s.node := by
  cases hnode : s.node with
  | none => simp [Subscriptions.apply, hnode]
  | some node =>
    obtain ⟨w, _, _, h⟩ | ⟨r, h, _⟩ := Subscriptions.apply_cases inbox hnode e grants
    · rw [h, Subscriptions.node_put, hnode]
    · rw [h, hnode]

/-- Nobody is registered by an event but its author, and that takes a grant. -/
lemma Subscriptions.mem_apply {s : Subscriptions} {e : Event} {grants : Grants} {k : String}
    (h : k ∈ (s.apply inbox e grants).2.byController) :
    k ∈ s.byController ∨ k = e.pubkey.toHex ∧ (grants.resolve e.pubkey).isOk = true := by
  cases hnode : s.node with
  | none =>
    rw [Subscriptions.apply, hnode] at h
    exact Or.inl h
  | some node =>
    obtain ⟨w, _, hgrant, heq⟩ | ⟨r, heq, _⟩ := Subscriptions.apply_cases inbox hnode e grants
    · by_cases hk : k = e.pubkey.toHex
      · exact Or.inr ⟨hk, hgrant⟩
      · rw [heq, ← AList.lookup_isSome, Subscriptions.lookup_put, if_neg hk] at h
        exact Or.inl (AList.lookup_isSome.mp h)
    · rw [heq] at h
      exact Or.inl h

/-- After an event that asks for something, by an author with a grant, the author is registered. -/
lemma Subscriptions.mem_apply_self {s : Subscriptions} (hnode : s.node = some node) {e : Event}
    {grants : Grants} {w : Wanted} (hw : Wanted.ofEvent inbox node e = some w)
    (hwants : w.clears = false) (hgrant : (grants.resolve e.pubkey).isOk = true) :
    e.pubkey.toHex ∈ (s.apply inbox e grants).2.byController := by
  obtain ⟨w', hw', _, heq⟩ | ⟨r, _, hnone | hno⟩ := Subscriptions.apply_cases inbox hnode e grants
  · rw [hw] at hw'
    cases hw'
    rw [heq, ← AList.lookup_isSome, Subscriptions.lookup_put, if_pos rfl]
    cases hslot : s.byController.lookup e.pubkey.toHex with
    | none => simp [Newest.forgetStep, hwants]
    | some v => by_cases hold : w.stamp < v.stamp <;> simp [Newest.forgetStep, hwants, hold]
  · rw [hw] at hnone
    cases hnone
  · rw [hgrant] at hno
    cases hno

/-- An event that registers its author asks for something. -/
lemma Subscriptions.wants_of_mem_apply {s : Subscriptions} (hnode : s.node = some node) {e : Event}
    {grants : Grants} (h : e.pubkey.toHex ∈ (s.apply inbox e grants).2.byController)
    (hnew : e.pubkey.toHex ∉ s.byController) :
    ∃ w, Wanted.ofEvent inbox node e = some w ∧ w.clears = false := by
  obtain ⟨w, hw, _, heq⟩ | ⟨r, heq, _⟩ := Subscriptions.apply_cases inbox hnode e grants
  · refine ⟨w, hw, ?_⟩
    rw [heq, ← AList.lookup_isSome, Subscriptions.lookup_put, if_pos rfl,
      AList.lookup_eq_none.mpr hnew] at h
    cases hclears : w.clears with
    | false => rfl
    | true => simp [Newest.forgetStep, hclears] at h
  · rw [heq] at h
    exact absurd h hnew

/-! ### Who receives -/

/-- Delivery is the intersection of what was asked for and what the grant permits. -/
lemma Subscriptions.shouldReceive_iff {s : Subscriptions} {c : PublicKey} {ty : String}
    {grants : Grants} :
    s.shouldReceive c ty grants = true ↔
      (∃ w, s.byController.lookup c.toHex = some w ∧ ty ∈ w.types) ∧
      ∃ g, grants.resolve c = .ok g ∧ g.profile.allowsNotification ty = true := by
  rw [Subscriptions.shouldReceive]
  cases hw : s.byController.lookup c.toHex with
  | none => simp
  | some w =>
    by_cases hty : ty ∈ w.types
    · cases hg : grants.resolve c with
      | error d => simp
      | ok g => simp [hty]
    · simp [hty]

/-- A recipient is a controller that should receive. -/
lemma Subscriptions.mem_recipients_iff {s : Subscriptions} {c : PublicKey} {ty : String}
    {grants : Grants} :
    c ∈ s.recipients ty grants ↔
      (∃ k ∈ s.byController.keys, PublicKey.fromHex k = some c) ∧
        s.shouldReceive c ty grants = true := by
  simp [Subscriptions.recipients]

/-! ### The two stores together -/

/-- Who is entitled to what: the grants and the subscriptions in force. -/
structure Delivery where
  grants : Grants
  subs : Subscriptions

/-- An event that one of the two stores is given. -/
inductive Fed
  | grant (event : Event)
  | subscription (event : Event)

/-- Give an event to its store; a subscription is judged by the grants in force. -/
def Delivery.feed (parse : String → Option UsageProfile) (inbox : Inbox) (d : Delivery) :
    Fed → Delivery
  | .grant event => { d with grants := (d.grants.apply parse event).2 }
  | .subscription event => { d with subs := (d.subs.apply inbox event d.grants).2 }

/-- Give events one after another. -/
def Delivery.feedAll (parse : String → Option UsageProfile) (inbox : Inbox) (d : Delivery)
    (fed : List Fed) : Delivery :=
  fed.foldl (Delivery.feed parse inbox) d

section

variable {parse : String → Option UsageProfile}

lemma Delivery.feedAll_cons (d : Delivery) (f : Fed) (fed : List Fed) :
    d.feedAll parse inbox (f :: fed) = (d.feed parse inbox f).feedAll parse inbox fed := rfl

lemma Delivery.feedAll_append (d : Delivery) (fed fed' : List Fed) :
    d.feedAll parse inbox (fed ++ fed') =
      (d.feedAll parse inbox fed).feedAll parse inbox fed' := by
  simp [Delivery.feedAll]

@[simp] lemma Delivery.subs_node_feed (d : Delivery) (f : Fed) :
    (d.feed parse inbox f).subs.node = d.subs.node := by
  cases f with
  | grant e => rfl
  | subscription e => exact Subscriptions.node_apply _ _ _

@[simp] lemma Delivery.subs_node_feedAll (d : Delivery) (fed : List Fed) :
    (d.feedAll parse inbox fed).subs.node = d.subs.node := by
  induction fed generalizing d with
  | nil => rfl
  | cons f fed ih => rw [Delivery.feedAll_cons, ih, Delivery.subs_node_feed]

end

/-! ### Sample events -/

namespace Sample

/-- The subscription event of `key b`, to the node `key 1`. -/
def subscriptionEvent (b : UInt8) (content : String) (createdAt : UInt64) : Event :=
  { grantEvent b othersKey content createdAt with
    kind := subscriptionKind
    tags := [["d", (key 1).toHex], ["p", (key 1).toHex]] }

/-- `["channel_closed"]`. -/
def closes : String := "[\"channel_closed\"]"

/-- `[]`. -/
def nothing : String := "[]"

/-- A signer that finds the text above behind the ciphertexts `1` and `2`, and what `serde_json`
reads in it. -/
def reader : Inbox where
  nip44Decrypt _ content :=
    if content = "1" then some closes else if content = "2" then some nothing else none
  parseTypes s :=
    if s = closes then some ["channel_closed"] else if s = nothing then some [] else none

end Sample

end NostrLn
