import Mathlib.Data.Set.List
import NostrLn.Service.Notifier
import NostrLn.Service.Refresh

/-!
# To whom a notification is sent

The recipients are read off the registry: its keys, read back from hex, as far as each has asked
for the type and is granted it. Reading hex is not injective, since it takes either case, so that
nobody is listed twice rests on how the registry is written: under keys in lower case only.
-/

namespace NostrLn

variable {inbox : Inbox} {parse : String → Option UsageProfile}

/-! ### Sending -/

/-- What became of a delivery: whom it tried to send to, for what cause and with what result, and
how many it reached. -/
structure SendLog where
  attempts : List ((PublicKey × Cause) × Except String Unit)
  sent : ℕ

/-- Send to one recipient after another. `send` is `notify`, which may fail for any of them; `W` is
what it acts on. -/
def sendAll {W : Type} (send : W → PublicKey × Cause → Except String Unit × W) :
    W → List (PublicKey × Cause) → SendLog × W
  | world, [] => ({ attempts := [], sent := 0 }, world)
  | world, recipient :: rest =>
    let (result, world) := send world recipient
    let (out, world) := sendAll send world rest
    ({ attempts := (recipient, result) :: out.attempts
       -- one failed recipient must not silence the rest
       sent := match result with
         | .ok () => out.sent + 1
         | .error _ => out.sent },
      world)

/-- Deliver a notification of this type, by whichever way of sending. -/
def Delivery.deliver {W : Type} (d : Delivery)
    (send : W → PublicKey × Cause → Except String Unit × W) (world : W) (ty : String)
    (caller : Option (PublicKey × EventId)) : SendLog × W :=
  sendAll send world (d.addressees ty caller)

/-- Everybody is tried, in order. -/
lemma attempts_sendAll {W : Type} (send : W → PublicKey × Cause → Except String Unit × W)
    (world : W) (recipients : List (PublicKey × Cause)) :
    (sendAll send world recipients).1.attempts.map Prod.fst = recipients := by
  induction recipients generalizing world with
  | nil => rfl
  | cons r rest ih =>
    simp only [sendAll, List.map_cons]
    rw [ih]

/-- Those who were reached are counted. -/
lemma sent_sendAll {W : Type} (send : W → PublicKey × Cause → Except String Unit × W)
    (world : W) (recipients : List (PublicKey × Cause)) :
    (sendAll send world recipients).1.sent =
      (sendAll send world recipients).1.attempts.countP fun a => a.2.isOk := by
  induction recipients generalizing world with
  | nil => rfl
  | cons r rest ih =>
    simp only [sendAll, List.countP_cons]
    rw [ih]
    cases (send world r).1 with
    | ok => simp [Except.isOk, Except.toBool]
    | error => simp [Except.isOk, Except.toBool]

/-! ### Who is listed -/

/-- The registry is written under keys in hex as the library writes them. -/
def Subscriptions.Canonical (s : Subscriptions) : Prop :=
  ∀ k ∈ s.byController, ∃ c : PublicKey, c.toHex = k

lemma Subscriptions.Canonical.apply {s : Subscriptions} (h : s.Canonical) (e : Event)
    (grants : Grants) : (s.apply inbox e grants).2.Canonical := by
  intro k hk
  obtain hold | ⟨rfl, _⟩ := Subscriptions.mem_apply hk
  · exact h k hold
  · exact ⟨e.pubkey, rfl⟩

lemma Delivery.canonical_feed {d : Delivery} (h : d.subs.Canonical) (f : Fed) :
    (d.feed parse inbox f).subs.Canonical := by
  cases f with
  | grant e => exact h
  | subscription e => exact h.apply e d.grants

lemma Delivery.canonical_feedAll {d : Delivery} (h : d.subs.Canonical) (fed : List Fed) :
    (d.feedAll parse inbox fed).subs.Canonical := by
  induction fed generalizing d with
  | nil => exact h
  | cons f fed ih =>
    rw [Delivery.feedAll_cons]
    exact ih (Delivery.canonical_feed h f)

/-- The recipients are those registered controllers who should receive, each of them once. -/
lemma Subscriptions.Canonical.recipients {s : Subscriptions} (h : s.Canonical) (ty : String)
    (grants : Grants) :
    (s.recipients ty grants).Nodup ∧
      ∀ c, c ∈ s.recipients ty grants ↔ s.shouldReceive c ty grants = true := by
  have hrange : s.byController.keys ∈ Set.range (List.map PublicKey.toHex) := by
    rw [Set.range_list_map]
    exact fun k hk => h k (AList.mem_keys.mpr hk)
  obtain ⟨cs, hcs⟩ := hrange
  have hread : s.byController.keys.filterMap PublicKey.fromHex = cs := by
    rw [← hcs, List.filterMap_map]
    have hid : PublicKey.fromHex ∘ PublicKey.toHex = some := by
      funext c
      exact PublicKey.fromHex_toHex c
    rw [hid, List.filterMap_some]
  have hnodup : cs.Nodup := by
    have hkeys := AList.keys_nodup s.byController
    rw [← hcs] at hkeys
    exact hkeys.of_map
  refine ⟨?_, ?_⟩
  · rw [Subscriptions.recipients, hread]
    exact hnodup.filter _
  · intro c
    rw [Subscriptions.mem_recipients_iff, and_iff_right_iff_imp]
    intro hreceives
    obtain ⟨⟨w, hw, _⟩, _⟩ := Subscriptions.shouldReceive_iff.mp hreceives
    exact ⟨c.toHex, AList.mem_keys.mp (AList.lookup_isSome.mp (by simp [hw])),
      PublicKey.fromHex_toHex c⟩

/-- The controller has asked for the type, and the grant that applies to it permits the type. -/
def Delivery.Subscribed (d : Delivery) (c : PublicKey) (ty : String) : Prop :=
  (∃ w, d.subs.byController.lookup c.toHex = some w ∧ ty ∈ w.types) ∧
    ∃ g, d.grants.resolve c = .ok g ∧ g.profile.Permits g.profile.notifications ty

lemma Delivery.subscribed_iff {d : Delivery} (h : d.subs.Canonical) {c : PublicKey} {ty : String} :
    c ∈ d.subs.recipients ty d.grants ↔ d.Subscribed c ty := by
  rw [(h.recipients ty d.grants).2, Subscriptions.shouldReceive_iff, Delivery.Subscribed]
  simp only [UsageProfile.allowsNotification_iff]

/-- A list headed by the caller does not list it again. -/
lemma Delivery.nodup_addressees {d : Delivery} (h : d.subs.Canonical) (ty : String)
    (caller : Option (PublicKey × EventId)) : ((d.addressees ty caller).map Prod.fst).Nodup := by
  have hnodup := (h.recipients ty d.grants).1
  have hfst : ∀ l : List PublicKey,
      (l.map fun s => (s, Cause.subscription)).map Prod.fst = l := by
    intro l
    rw [List.map_map]
    exact List.map_id l
  match caller with
  | none => simpa [Delivery.addressees, hfst] using hnodup
  | some (who, id) =>
    simp only [Delivery.addressees, List.singleton_append, List.map_cons, hfst, List.nodup_cons]
    exact ⟨by simp, hnodup.filter _⟩

lemma Delivery.mem_addressees {d : Delivery} (h : d.subs.Canonical) {ty : String}
    {caller : Option (PublicKey × EventId)} {c : PublicKey} {cause : Cause} :
    (c, cause) ∈ d.addressees ty caller ↔
      (∃ id, caller = some (c, id) ∧ d.Subscribed c ty ∧ cause = .both id) ∨
      (∃ id, caller = some (c, id) ∧ ¬ d.Subscribed c ty ∧ cause = .command id) ∨
      ((∀ id, caller ≠ some (c, id)) ∧ d.Subscribed c ty ∧ cause = .subscription) := by
  simp only [← Delivery.subscribed_iff h]
  match caller with
  | none => simp [Delivery.addressees, eq_comm]
  | some (who, id) =>
    by_cases hc : who = c
    · subst hc
      by_cases hsub : who ∈ d.subs.recipients ty d.grants
      · simp [Delivery.addressees, hsub]
      · simp [Delivery.addressees, hsub]
    · simpa [Delivery.addressees, hc, Ne.symm hc] using fun _ => eq_comm

/-- **One notification for each recipient.** Whatever events the stores were fed, a notification
goes to nobody twice; to the caller, as the outcome of its command and, if it has also subscribed,
as that too; to every other controller that has subscribed; and to nobody else. However the sends
fail, everybody is tried, and those who were reached are counted. -/
theorem one_notification_each (parse : String → Option UsageProfile) (inbox : Inbox)
    (start : Delivery) (hstart : start.subs.byController = ∅) (fed : List Fed) (ty : String)
    (caller : Option (PublicKey × EventId)) {W : Type}
    (send : W → PublicKey × Cause → Except String Unit × W) (world : W) :
    let d := start.feedAll parse inbox fed
    let out := (d.deliver send world ty caller).1
    ((d.addressees ty caller).map Prod.fst).Nodup ∧
    (∀ c cause, (c, cause) ∈ d.addressees ty caller ↔
      (∃ id, caller = some (c, id) ∧ d.Subscribed c ty ∧ cause = .both id) ∨
      (∃ id, caller = some (c, id) ∧ ¬ d.Subscribed c ty ∧ cause = .command id) ∨
      ((∀ id, caller ≠ some (c, id)) ∧ d.Subscribed c ty ∧ cause = .subscription)) ∧
    out.attempts.map Prod.fst = d.addressees ty caller ∧
    out.sent = out.attempts.countP fun a => a.2.isOk := by
  intro d out
  have hempty : start.subs.Canonical := by
    intro k hk
    rw [hstart] at hk
    exact absurd hk (AList.notMem_empty k)
  have hcanonical : d.subs.Canonical := Delivery.canonical_feedAll hempty fed
  refine ⟨Delivery.nodup_addressees hcanonical ty caller, ?_, ?_, ?_⟩
  · intro c cause
    exact Delivery.mem_addressees hcanonical
  · exact attempts_sendAll send world _
  · exact sent_sendAll send world _

namespace Sample

/-- Everybody may hear everything; `key 3` and `key 4` have asked to. -/
def twoListeners : List Fed :=
  [.grant (grantEvent 2 othersKey everyNotification 1),
   .subscription (subscriptionEvent 3 "1" 5),
   .subscription (subscriptionEvent 4 "1" 6)]

/-- A relay that refuses what is sent to `key 3`. -/
def deafTo3 (world : Unit) (recipient : PublicKey × Cause) : Except String Unit × Unit :=
  (if recipient.1 = key 3 then .error "refused" else .ok (), world)

end Sample

open Sample in
/-- The caller is one of the two, and cannot be sent to: the other still is, and is the one
counted. -/
theorem one_notification_each_failing :
    let d := (Delivery.fresh (key 1) [key 2]).feedAll readProfile reader twoListeners
    let caller := some (key 3, (⟨List.replicate 32 8, by simp⟩ : EventId))
    let out := (d.deliver deafTo3 () "channel_closed" caller).1
    ((d.addressees "channel_closed" caller).map Prod.fst).Nodup ∧
      (key 4, .subscription) ∈ d.addressees "channel_closed" caller ∧
      out.attempts.map Prod.fst = d.addressees "channel_closed" caller ∧ out.sent = 1 := by
  intro d caller out
  obtain ⟨hnodup, _, hattempts, _⟩ := one_notification_each readProfile reader
    (Delivery.fresh (key 1) [key 2]) rfl twoListeners "channel_closed" caller deafTo3 ()
  exact ⟨hnodup, by decide +kernel, hattempts, by decide +kernel⟩

end NostrLn
