import NostrLn.Client.Response
import NostrLn.Service.Notifier

/-!
# The notifications of a wallet, one at a time

A client of a wallet asks its stream for the next notification. Events of other kinds and by others
are passed over, and so is what decrypts to something that is no notification. What does not decrypt
is not: the question mark that was meant for the end of the stream stands after the decryption too.
-/

namespace NostrLn

open Serde

/-- The deadline passed before there was a result. -/
inductive Elapsed
  | elapsed

/-- Notifications from one wallet: what its keys and `serde_json` make of a text. -/
structure Notifications where
  wallet : PublicKey
  nip44Decrypt : PublicKey → String → Except String String
  parseNotification : String → Except String WalletNotification

/-- The next notification, with what is left of the stream. A caller may have set a deadline, which
then passes in one of the polls; when there is nothing more to come it passes too. -/
def Notifications.next (s : Notifications) :
    List Poll → Except Elapsed (Option WalletNotification) × List Poll
  | [] => (.error .elapsed, [])
  | .expired :: rest => (.error .elapsed, rest)
  | .ended :: rest => (.ok none, rest)
  | .item (.event event) :: rest =>
    if event.kind ≠ walletNotificationKind ∨ event.pubkey ≠ s.wallet then s.next rest
    else
      match s.nip44Decrypt event.pubkey event.content with
      | .error _ => (.ok none, rest)
      | .ok plain =>
        match s.parseNotification plain with
        | .ok n => (.ok (some n), rest)
        | .error _ => s.next rest
  | .item _ :: rest => s.next rest

/-! ### One item -/

/-- By the wallet, and of the kind of a notification. -/
def Notifications.sent (s : Notifications) (event : Event) : Bool :=
  event.kind = walletNotificationKind && event.pubkey = s.wallet

/-- It is not one that is sent by the wallet and does not decrypt. -/
def Notifications.decrypts (s : Notifications) : ClientNotification → Bool
  | .event event => !s.sent event || (s.nip44Decrypt event.pubkey event.content).isOk
  | _ => true

/-- The notification in it, if it is sent by the wallet, decrypts and parses. -/
def Notifications.readable (s : Notifications) : ClientNotification → Option WalletNotification
  | .event event =>
    if s.sent event then
      match s.nip44Decrypt event.pubkey event.content with
      | .error _ => none
      | .ok plain => (s.parseNotification plain).toOption
    else none
  | _ => none

variable {s : Notifications}

/-- What one item does to a call: it is returned, passed over, or the end of it. -/
lemma Notifications.next_item (s : Notifications) (item : ClientNotification) (rest : List Poll) :
    s.next (.item item :: rest) =
      if s.decrypts item then
        match s.readable item with
        | some n => (.ok (some n), rest)
        | none => s.next rest
      else (.ok none, rest) := by
  match item with
  | .message => rfl
  | .shutdown => rfl
  | .event event =>
    rw [Notifications.next, Notifications.decrypts, Notifications.readable]
    by_cases hsent : s.sent event = true
    · have hboth : ¬ (event.kind ≠ walletNotificationKind ∨ event.pubkey ≠ s.wallet) := by
        simpa [Notifications.sent, not_or] using hsent
      rw [if_neg hboth, if_pos hsent, hsent]
      cases s.nip44Decrypt event.pubkey event.content with
      | error text => rfl
      | ok plain =>
        simp only
        cases s.parseNotification plain with
        | error text => rfl
        | ok n => rfl
    · have heither : event.kind ≠ walletNotificationKind ∨ event.pubkey ≠ s.wallet := by
        rw [Notifications.sent, Bool.and_eq_true, decide_eq_true_eq, decide_eq_true_eq] at hsent
        exact Decidable.not_and_iff_or_not.mp hsent
      rw [if_pos heither, if_neg hsent, Bool.eq_false_iff.mpr hsent]
      rfl

/-- A call that returns one leaves less of the stream. -/
lemma Notifications.length_next {polls rest : List Poll} {n : WalletNotification}
    (h : s.next polls = (.ok (some n), rest)) : rest.length < polls.length := by
  induction polls with
  | nil => cases h
  | cons poll polls ih =>
    match poll with
    | .expired => cases h
    | .ended => cases h
    | .item item =>
      rw [Notifications.next_item] at h
      split at h
      · split at h
        · cases h
          exact Nat.lt_succ_self _
        · exact (ih h).trans (Nat.lt_succ_self _)
      · cases h

/-! ### Many calls -/

/-- What is left of the stream after some calls. -/
def Notifications.afterNexts (s : Notifications) : ℕ → List Poll → List Poll
  | 0, polls => polls
  | k + 1, polls => s.afterNexts k (s.next polls).2

/-- What repeated calls return, until there is nothing. -/
def Notifications.received (s : Notifications) (polls : List Poll) : List WalletNotification :=
  match _hnext : s.next polls with
  | (.ok (some n), rest) => n :: s.received rest
  | _ => []
termination_by polls.length
decreasing_by exact Notifications.length_next _hnext

/-- Wait for one notification of a given type, with what is left of the stream. -/
def Notifications.waitFor (s : Notifications) (want : WalletNotificationType) (polls : List Poll) :
    Option WalletNotification × List Poll :=
  match polls.head? with
  | some .expired => (none, polls)
  | _ =>
    match _hnext : s.next polls with
    | (.ok (some n), rest) =>
      if n.notificationType = want then (some n, rest) else s.waitFor want rest
    | (_, rest) => (none, rest)
termination_by polls.length
decreasing_by exact Notifications.length_next _hnext

/-- The polls of a finite stream: its items, then nothing but its end. -/
def pollsOf (items : List ClientNotification) (m : ℕ) : List Poll :=
  items.map Poll.item ++ List.replicate m .ended

/-- A bad notification does not end the stream. -/
structure Notifications.Survives (s : Notifications) (items : List ClientNotification) : Prop where
  /-- A call returns nothing only when it has polled the end. -/
  ends : ∀ k m, (s.next (s.afterNexts k (pollsOf items m))).1 = .ok none →
    (s.next (s.afterNexts k (pollsOf items m))).2.length < m
  /-- What calls return are the readable notifications of the wallet, in order. -/
  reads : ∀ m, s.received (pollsOf items m) = items.filterMap s.readable
  /-- A wait gives the first readable one of its type, and gives up at the end or the deadline. -/
  waits : ∀ want d, ∀ stop ∈ [Poll.ended, Poll.expired],
    (s.waitFor want ((items.take d).map Poll.item ++ [stop])).1 =
      ((items.take d).filterMap s.readable).find? fun n => n.notificationType = want

/-! ### If everything the wallet sends decrypts -/

variable {items : List ClientNotification}

/-- A call returns the first readable one, or goes past all of them. -/
lemma Notifications.next_append (h : ∀ item ∈ items, s.decrypts item = true) (tail : List Poll) :
    (items.filterMap s.readable = [] ∧
      s.next (items.map Poll.item ++ tail) = s.next tail) ∨
    ∃ n later, later <:+ items ∧ later.length < items.length ∧
      items.filterMap s.readable = n :: later.filterMap s.readable ∧
      s.next (items.map Poll.item ++ tail) = (.ok (some n), later.map Poll.item ++ tail) := by
  induction items with
  | nil => exact .inl ⟨rfl, rfl⟩
  | cons item items ih =>
    rw [List.map_cons, List.cons_append, Notifications.next_item, if_pos (h item (by simp)),
      List.filterMap_cons]
    cases s.readable item with
    | some n => exact .inr ⟨n, items, List.suffix_cons .., Nat.lt_succ_self _, rfl, rfl⟩
    | none =>
      obtain hnone | ⟨n, later, hsuffix, hlen, hread, hnext⟩ := ih fun i hi => h i (by simp [hi])
      · exact .inl hnone
      · exact .inr ⟨n, later, hsuffix.trans (List.suffix_cons ..), hlen.trans (Nat.lt_succ_self _),
          hread, hnext⟩

/-- Past the items a call finds the end, or waits until the deadline. -/
lemma Notifications.next_replicate_ended (s : Notifications) (m : ℕ) :
    s.next (List.replicate m .ended) =
      if m = 0 then (.error .elapsed, []) else (.ok none, List.replicate (m - 1) .ended) := by
  cases m with
  | zero => rfl
  | succ m => rfl

lemma Notifications.received_of_some {polls rest : List Poll} {n : WalletNotification}
    (h : s.next polls = (.ok (some n), rest)) : s.received polls = n :: s.received rest := by
  rw [Notifications.received]
  split
  · rename_i n' rest' heq
    rw [h] at heq
    cases heq
    rfl
  · rename_i hother
    exact absurd h (hother n rest)

lemma Notifications.received_pollsOf {items : List ClientNotification}
    (h : ∀ item ∈ items, s.decrypts item = true) (m : ℕ) :
    s.received (pollsOf items m) = items.filterMap s.readable := by
  obtain ⟨hnone, hnext⟩ | ⟨n, later, hsuffix, hlen, hread, hnext⟩ :=
    Notifications.next_append h (List.replicate m .ended)
  · rw [hnone, Notifications.received]
    split
    · rename_i n rest heq
      rw [pollsOf, hnext, Notifications.next_replicate_ended] at heq
      split at heq <;> cases heq
    · rfl
  · rw [pollsOf, Notifications.received_of_some hnext, hread]
    congr 1
    exact Notifications.received_pollsOf (fun i hi => h i (hsuffix.subset hi)) m
termination_by items.length

lemma Notifications.waitFor_of_some (want : WalletNotificationType) {polls rest : List Poll}
    {n : WalletNotification} (h : s.next polls = (.ok (some n), rest)) :
    s.waitFor want polls =
      if n.notificationType = want then (some n, rest) else s.waitFor want rest := by
  rw [Notifications.waitFor]
  split
  · rename_i hhead
    obtain ⟨polls, rfl⟩ := List.head?_eq_some_iff.mp hhead
    cases h
  · split
    · rename_i n' rest' heq
      rw [h] at heq
      cases heq
      rfl
    · rename_i hother heq
      rw [h] at heq
      cases heq
      exact absurd rfl (hother n)

lemma Notifications.waitFor_of_not_some (want : WalletNotificationType) {polls : List Poll}
    (h : ∀ n rest, s.next polls ≠ (.ok (some n), rest)) : (s.waitFor want polls).1 = none := by
  rw [Notifications.waitFor]
  split
  · rfl
  · split
    · rename_i n rest heq
      exact absurd heq (h n rest)
    · rfl

lemma Notifications.waitFor_append (want : WalletNotificationType)
    {items : List ClientNotification} (h : ∀ item ∈ items, s.decrypts item = true) {stop : Poll}
    (hstop : stop ∈ [Poll.ended, Poll.expired]) :
    (s.waitFor want (items.map Poll.item ++ [stop])).1 =
      (items.filterMap s.readable).find? fun n => n.notificationType = want := by
  obtain ⟨hnone, hnext⟩ | ⟨n, later, hsuffix, hlen, hread, hnext⟩ :=
    Notifications.next_append h [stop]
  · rw [hnone]
    refine Notifications.waitFor_of_not_some want ?_
    intro n rest heq
    rw [hnext] at heq
    obtain rfl | rfl := List.mem_pair.mp hstop
    · cases heq
    · cases heq
  · rw [Notifications.waitFor_of_some want hnext, hread, List.find?_cons]
    by_cases htype : n.notificationType = want
    · rw [if_pos htype, decide_eq_true htype]
    · rw [if_neg htype, decide_eq_false htype]
      exact Notifications.waitFor_append want (fun i hi => h i (hsuffix.subset hi)) hstop
termination_by items.length

/-- However many calls are made, what is left is a stream of items that decrypt. -/
lemma Notifications.afterNexts_pollsOf (h : ∀ item ∈ items, s.decrypts item = true) (k m : ℕ) :
    ∃ later m', m' ≤ m ∧ (∀ item ∈ later, s.decrypts item = true) ∧
      s.afterNexts k (pollsOf items m) = pollsOf later m' := by
  induction k generalizing items m with
  | zero => exact ⟨items, m, le_refl m, h, rfl⟩
  | succ k ih =>
    rw [Notifications.afterNexts]
    obtain ⟨_, hnext⟩ | ⟨n, later, hsuffix, _, _, hnext⟩ :=
      Notifications.next_append h (List.replicate m .ended)
    · rw [pollsOf, hnext, Notifications.next_replicate_ended]
      have hempty : ∀ item ∈ ([] : List ClientNotification), s.decrypts item = true := by simp
      split
      · obtain ⟨later, m', hle, hlater, heq⟩ := ih hempty 0
        exact ⟨later, m', hle.trans (Nat.zero_le m), hlater, heq⟩
      · obtain ⟨later, m', hle, hlater, heq⟩ := ih hempty (m - 1)
        exact ⟨later, m', hle.trans (Nat.sub_le m 1), hlater, heq⟩
    · rw [pollsOf, hnext]
      exact ih (fun i hi => h i (hsuffix.subset hi)) m

lemma Notifications.next_eq_none_of_decrypts (h : ∀ item ∈ items, s.decrypts item = true) {m : ℕ}
    (hnone : (s.next (pollsOf items m)).1 = .ok none) :
    (s.next (pollsOf items m)).2.length < m := by
  obtain ⟨_, hnext⟩ | ⟨n, later, _, _, _, hnext⟩ :=
    Notifications.next_append h (List.replicate m .ended)
  · rw [pollsOf, hnext, Notifications.next_replicate_ended] at hnone ⊢
    split at hnone
    · cases hnone
    · rename_i hm
      rw [if_neg hm, List.length_replicate]
      exact Nat.sub_lt (Nat.pos_of_ne_zero hm) Nat.one_pos
  · rw [pollsOf, hnext] at hnone
    cases hnone

/-! ### If something does not -/

/-- Streams that a call finds the same are found the same by all later calls. -/
lemma Notifications.next_afterNexts_congr {polls polls' : List Poll}
    (h : s.next polls = s.next polls') (k : ℕ) :
    s.next (s.afterNexts k polls) = s.next (s.afterNexts k polls') := by
  cases k with
  | zero => exact h
  | succ k => rw [Notifications.afterNexts, Notifications.afterNexts, h]

/-- The call that comes to it returns nothing, with all of the rest of the stream still there. -/
lemma Notifications.exists_next_of_undecrypted (h : ∃ item ∈ items, s.decrypts item = false)
    (tail : List Poll) :
    ∃ k, (s.next (s.afterNexts k (items.map Poll.item ++ tail))).1 = .ok none ∧
      tail.length ≤ (s.next (s.afterNexts k (items.map Poll.item ++ tail))).2.length := by
  induction items with
  | nil =>
    obtain ⟨item, hmem, _⟩ := h
    cases hmem
  | cons item items ih =>
    have hitem := s.next_item item (items.map Poll.item ++ tail)
    cases hdecrypts : s.decrypts item with
    | false =>
      rw [hdecrypts, if_neg (by decide)] at hitem
      refine ⟨0, ?_⟩
      simp only [Notifications.afterNexts, List.map_cons, List.cons_append, hitem, true_and,
        List.length_append]
      exact Nat.le_add_left ..
    | true =>
      have hlater : ∃ item ∈ items, s.decrypts item = false := by
        obtain ⟨bad, hmem, hbad⟩ := h
        obtain rfl | hmem := List.mem_cons.mp hmem
        · rw [hdecrypts] at hbad
          cases hbad
        · exact ⟨bad, hmem, hbad⟩
      obtain ⟨k, hk⟩ := ih hlater
      rw [hdecrypts, if_pos rfl] at hitem
      cases hread : s.readable item with
      | some n =>
        rw [hread] at hitem
        refine ⟨k + 1, ?_⟩
        simpa only [Notifications.afterNexts, List.map_cons, List.cons_append, hitem] using hk
      | none =>
        rw [hread] at hitem
        refine ⟨k, ?_⟩
        rw [List.map_cons, List.cons_append, Notifications.next_afterNexts_congr hitem]
        exact hk

/-- Only what the wallet sends as notifications has to decrypt. -/
lemma Notifications.forall_decrypts_iff :
    (∀ item ∈ items, s.decrypts item = true) ↔
      ∀ event, .event event ∈ items → event.kind = walletNotificationKind →
        event.pubkey = s.wallet → (s.nip44Decrypt event.pubkey event.content).isOk = true := by
  constructor
  · intro h event hmem hkind hby
    have hdecrypts := h _ hmem
    rwa [Notifications.decrypts, Notifications.sent, decide_eq_true hkind, decide_eq_true hby,
      Bool.and_self, Bool.not_true, Bool.false_or] at hdecrypts
  · intro h item hmem
    match item with
    | .message => rfl
    | .shutdown => rfl
    | .event event =>
      cases hsent : s.sent event with
      | false => simp [Notifications.decrypts, hsent]
      | true =>
        obtain ⟨hkind, hby⟩ : event.kind = walletNotificationKind ∧ event.pubkey = s.wallet := by
          simpa [Notifications.sent] using hsent
        simp [Notifications.decrypts, h event hmem hkind hby]

/-- **A wallet's stream outlives the notifications it cannot read** exactly if it can decrypt all
that the wallet sends. -/
theorem wallet_stream_survives_iff (s : Notifications) (items : List ClientNotification) :
    s.Survives items ↔
      ∀ event, .event event ∈ items → event.kind = walletNotificationKind →
        event.pubkey = s.wallet → (s.nip44Decrypt event.pubkey event.content).isOk = true := by
  rw [← Notifications.forall_decrypts_iff]
  constructor
  · intro h
    by_contra hnot
    have hbad : ∃ item ∈ items, s.decrypts item = false := by
      simpa only [not_forall, exists_prop, Bool.not_eq_true] using hnot
    obtain ⟨k, hnone, hleft⟩ :=
      Notifications.exists_next_of_undecrypted hbad (List.replicate 1 .ended)
    exact absurd (h.ends k 1 hnone) (Nat.not_lt.mpr hleft)
  · intro h
    refine ⟨fun k m hnone => ?_, fun m => Notifications.received_pollsOf h m, ?_⟩
    · obtain ⟨later, m', hle, hlater, heq⟩ := Notifications.afterNexts_pollsOf h k m
      rw [heq] at hnone ⊢
      exact (Notifications.next_eq_none_of_decrypts hlater hnone).trans_le hle
    · intro want d stop hstop
      exact Notifications.waitFor_append want (fun i hi => h i (List.mem_of_mem_take hi)) hstop

namespace Sample

/-- A client of the wallet of `key 1`, which can read the ciphertext `1`. -/
def paidBy : Notifications where
  wallet := key 1
  nip44Decrypt _ content := if content = "1" then .ok "paid" else .error "invalid payload"
  parseNotification _ := .ok { notificationType := .paymentReceived, notification := .null }

/-- A notification of that wallet. -/
def walletSays (content : String) : ClientNotification :=
  .event { grantEvent 1 othersKey content 9 with kind := walletNotificationKind }

end Sample

open Sample in
/-- A notification of the wallet for somebody else hides the one after it. -/
theorem foreign_notification_ends_stream :
    ¬ ∀ (s : Notifications) (items : List ClientNotification), s.Survives items := by
  intro h
  have hbad : ∃ item ∈ [walletSays "2", walletSays "1"], paidBy.decrypts item = false :=
    ⟨walletSays "2", by simp, by decide +kernel⟩
  obtain ⟨k, hnone, hleft⟩ :=
    Notifications.exists_next_of_undecrypted hbad (List.replicate 1 .ended)
  exact absurd ((h paidBy _).ends k 1 hnone) (Nat.not_lt.mpr hleft)

end NostrLn
