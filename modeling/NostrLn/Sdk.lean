import NostrLn.Nostr

/-!
# The client library, as far as an event's way through it

What `nostr-sdk` does with an event that a relay sends, whatever it was sent for. The database is
the default one, which only remembers ids. An id that is already remembered gets its event handed
on without a look at the signature; it is not announced again. An id that is not remembered is put
in the verification cache *before* the signature is checked, and is checked only if it was not in
that cache already.

Every relay has a task of its own, so that between the look for the id and the rest another task
may get in with the same id. `handleEventMsg` is both without such an interruption, and
`handleUnseen` the rest alone.
-/

namespace NostrLn

/-- What the client remembers of the events it has received. -/
structure Client where
  database : List EventId
  verificationCache : List EventId

/-- A client that has received nothing. -/
def Client.new : Client := { database := [], verificationCache := [] }

/-- What becomes of an event: refused; handed to whoever asked for it; or that, and announced. -/
inductive Receipt
  | refused
  | handedOn
  | announced
deriving DecidableEq

/-- `handle_event_msg` for an id that was not found, from the look into the verification cache on.
The database takes the id whether or not it has it by now. -/
def Client.handleUnseen (crypto : Crypto) (cl : Client) (event : Event) : Receipt × Client :=
  let verified := event.id ∈ cl.verificationCache
  let cl := { cl with verificationCache := event.id :: cl.verificationCache }
  if ¬ verified ∧ event.verify crypto = false then (.refused, cl)
  else (.announced, { cl with database := event.id :: cl.database })

/-- `handle_event_msg`, from the check of the id on. -/
def Client.handleEventMsg (crypto : Crypto) (cl : Client) (event : Event) : Receipt × Client :=
  if event.id ∈ cl.database then (.handedOn, cl) else cl.handleUnseen crypto event

/-- Read a `u64`: digits, which a plus sign may precede. -/
def parseU64 (s : String) : Option UInt64 :=
  let digits := match s.toList with
    | '+' :: rest => rest
    | cs => cs
  let n := Nat.ofDigitChars 10 digits 0
  if digits ≠ [] ∧ digits.all Char.isDigit ∧ n < 2 ^ 64 then some (UInt64.ofNat n) else none

/-- When an event expires: the first tag named `expiration` says so, if it is a name and a time. -/
def Event.expiration (event : Event) : Option UInt64 :=
  match event.tags.find? fun t => t.head? = some "expiration" with
  | some [_, time] => parseU64 time
  | _ => none

/-- What is looked at before the id, with the limits a client has if none are set: an event in too
long a message, with too many tags, or that has expired is refused. Contact lists may have more
tags. -/
def Client.admits (now : UInt64) (size : ℕ) (event : Event) : Bool :=
  size ≤ 5 * 1024 * 1024 && event.tags.length ≤ 2000 && !event.expiration.any (· < now)

/-- The client has the id on record, and will not verify an event that carries it. -/
def Client.Recorded (cl : Client) (id : EventId) : Prop :=
  id ∈ cl.database ∨ id ∈ cl.verificationCache

/-- What comes of the events a relay sends, one after another: those handed on, those announced,
and the client after them. -/
def Client.receive (crypto : Crypto) : Client → List Event → List Event × List Event × Client
  | cl, [] => ([], [], cl)
  | cl, e :: es =>
    match cl.handleEventMsg crypto e with
    | (.refused, cl) => cl.receive crypto es
    | (.handedOn, cl) =>
      let (returned, announced, cl) := cl.receive crypto es
      (e :: returned, announced, cl)
    | (.announced, cl) =>
      let (returned, announced, cl) := cl.receive crypto es
      (e :: returned, e :: announced, cl)

/-- What comes of one event whose id was not found: whether it is announced, and the client after
it. -/
def Client.receiveUnseen (crypto : Crypto) (cl : Client) (event : Event) : List Event × Client :=
  match cl.handleUnseen crypto event with
  | (.announced, cl) => ([event], cl)
  | (_, cl) => ([], cl)

/-! ### What the client lets through -/

variable {crypto : Crypto} {cl : Client} {e : Event} {es : List Event}

/-- An event whose id was not found is refused, or announced; and then it has been verified, or its
id was in the verification cache. -/
lemma Client.handleUnseen_cases (crypto : Crypto) (cl : Client) (e : Event) :
    (e.verify crypto = false ∧ cl.handleUnseen crypto e =
      (.refused, { cl with verificationCache := e.id :: cl.verificationCache })) ∨
    ((e.verify crypto = true ∨ e.id ∈ cl.verificationCache) ∧
      cl.handleUnseen crypto e =
        (.announced, { database := e.id :: cl.database
                       verificationCache := e.id :: cl.verificationCache })) := by
  rw [Client.handleUnseen]
  by_cases hcache : e.id ∈ cl.verificationCache
  · exact Or.inr ⟨Or.inr hcache, by simp [hcache]⟩
  · cases hv : e.verify crypto with
    | false => exact Or.inl ⟨rfl, by simp [hcache]⟩
    | true => exact Or.inr ⟨Or.inl rfl, by simp⟩

/-- What can become of an event: its id is in the database, or it is refused, or it is announced.
What is announced has been verified, or its id was in the verification cache. -/
lemma Client.handleEventMsg_cases (crypto : Crypto) (cl : Client) (e : Event) :
    (e.id ∈ cl.database ∧ cl.handleEventMsg crypto e = (.handedOn, cl)) ∨
    (e.id ∉ cl.database ∧ e.verify crypto = false ∧ cl.handleEventMsg crypto e =
      (.refused, { cl with verificationCache := e.id :: cl.verificationCache })) ∨
    (e.id ∉ cl.database ∧ (e.verify crypto = true ∨ e.id ∈ cl.verificationCache) ∧
      cl.handleEventMsg crypto e =
        (.announced, { database := e.id :: cl.database
                       verificationCache := e.id :: cl.verificationCache })) := by
  rw [Client.handleEventMsg]
  by_cases hdb : e.id ∈ cl.database
  · exact Or.inl ⟨hdb, if_pos hdb⟩
  · rw [if_neg hdb]
    exact Or.inr ((cl.handleUnseen_cases crypto e).imp (⟨hdb, ·⟩) (⟨hdb, ·⟩))

/-- Whatever the client hands on without verifying it, because the id is on record, would have
verified, if it matters. -/
def Client.Trusts (crypto : Crypto) (matters : Event → Prop) : Client → List Event → Prop
  | _, [] => True
  | cl, e :: es =>
    (cl.Recorded e.id → matters e → e.verify crypto = true) ∧
      Trusts crypto matters (cl.handleEventMsg crypto e).2 es

/-- What is announced is also returned. -/
lemma Client.announced_subset (cl : Client) (es : List Event) :
    (cl.receive crypto es).2.1 ⊆ (cl.receive crypto es).1 := by
  induction es generalizing cl with
  | nil => exact List.Subset.refl _
  | cons e es ih =>
    rw [Client.receive]
    split
    · exact ih _
    · exact List.subset_cons_of_subset e (ih _)
    · exact List.cons_subset_cons e (ih _)

/-- Nothing is returned that was not sent. -/
lemma Client.returned_subset (cl : Client) (es : List Event) : (cl.receive crypto es).1 ⊆ es := by
  induction es generalizing cl with
  | nil => exact List.Subset.refl _
  | cons e es ih =>
    rw [Client.receive]
    split
    · exact List.subset_cons_of_subset e (ih _)
    · exact List.cons_subset_cons e (ih _)
    · exact List.cons_subset_cons e (ih _)

/-- If the client may be trusted with what it does not verify, what it returns verifies. -/
lemma Client.verify_of_returned {matters : Event → Prop} (h : cl.Trusts crypto matters es) :
    ∀ e ∈ (cl.receive crypto es).1, matters e → e.verify crypto = true := by
  induction es generalizing cl with
  | nil => simp [Client.receive]
  | cons e es ih =>
    obtain ⟨hhead, htail⟩ := h
    intro e' he' hmatters
    rw [Client.receive] at he'
    obtain ⟨hdb, heq⟩ | ⟨_, _, heq⟩ | ⟨_, hok, heq⟩ := cl.handleEventMsg_cases crypto e
    · rw [heq] at he' htail
      rcases List.mem_cons.mp he' with rfl | he'
      · exact hhead (Or.inl hdb) hmatters
      · exact ih htail e' he' hmatters
    · rw [heq] at he' htail
      exact ih htail e' he' hmatters
    · rw [heq] at he' htail
      rcases List.mem_cons.mp he' with rfl | he'
      · rcases hok with hok | hcache
        · exact hok
        · exact hhead (Or.inr hcache) hmatters
      · exact ih htail e' he' hmatters

/-- What it announces verifies as well. -/
lemma Client.verify_of_announced {matters : Event → Prop} (h : cl.Trusts crypto matters es) :
    ∀ e ∈ (cl.receive crypto es).2.1, matters e → e.verify crypto = true := by
  intro e he
  exact Client.verify_of_returned h e (cl.announced_subset es he)

/-- The same of an event whose id was not found when it was looked for. -/
lemma Client.verify_of_unseen {matters : Event → Prop} (h : cl.Trusts crypto matters [e]) :
    ∀ e' ∈ (cl.receiveUnseen crypto e).1, matters e' → e'.verify crypto = true := by
  intro e' he' hmatters
  rw [Client.receiveUnseen] at he'
  obtain ⟨_, heq⟩ | ⟨hok, heq⟩ := cl.handleUnseen_cases crypto e
  · rw [heq] at he'
    cases he'
  · rw [heq, List.mem_singleton] at he'
    subst he'
    rcases hok with hok | hcache
    · exact hok
    · exact h.1 (Or.inr hcache) hmatters

/-- Of events that verify, all are returned and their ids remembered; what is announced carries an
id that was new, and an id that was new is announced. -/
lemma Client.receive_of_verify (cl : Client) (hverify : ∀ e ∈ es, e.verify crypto = true) :
    (cl.receive crypto es).1 = es ∧
    (∀ id, id ∈ (cl.receive crypto es).2.2.database ↔ id ∈ cl.database ∨ ∃ e ∈ es, e.id = id) ∧
    (∀ e ∈ (cl.receive crypto es).2.1, e.id ∉ cl.database) ∧
    ∀ e ∈ es, e.id ∉ cl.database → ∃ e' ∈ (cl.receive crypto es).2.1, e'.id = e.id := by
  induction es generalizing cl with
  | nil => simp [Client.receive]
  | cons e es ih =>
    have hverify' : ∀ e ∈ es, e.verify crypto = true := by
      intro e he
      exact hverify e (by simp [he])
    rw [Client.receive]
    obtain ⟨hdb, heq⟩ | ⟨_, hnot, _⟩ | ⟨hnew, _, heq⟩ := cl.handleEventMsg_cases crypto e
    · obtain ⟨hall, hids, hfresh, hannounced⟩ := ih cl hverify'
      simp only [heq, hall, true_and]
      refine ⟨?_, hfresh, ?_⟩
      · intro id
        rw [hids]
        constructor
        · rintro (h | ⟨x, hx, rfl⟩)
          · exact Or.inl h
          · exact Or.inr ⟨x, by simp [hx], rfl⟩
        · rintro (h | ⟨x, hx, rfl⟩)
          · exact Or.inl h
          · rcases List.mem_cons.mp hx with rfl | hx
            · exact Or.inl hdb
            · exact Or.inr ⟨x, hx, rfl⟩
      · intro e' he' hnew
        rcases List.mem_cons.mp he' with rfl | he'
        · exact absurd hdb hnew
        · exact hannounced e' he' hnew
    · rw [hverify e (by simp)] at hnot
      cases hnot
    · obtain ⟨hall, hids, hfresh, hannounced⟩ := ih
        { database := e.id :: cl.database
          verificationCache := e.id :: cl.verificationCache } hverify'
      simp only [heq, hall, true_and]
      refine ⟨?_, ?_, ?_⟩
      · intro id
        rw [hids]
        simp only [List.mem_cons, exists_eq_or_imp]
        constructor
        · rintro ((rfl | h) | h)
          · exact Or.inr (Or.inl rfl)
          · exact Or.inl h
          · exact Or.inr (Or.inr h)
        · rintro (h | rfl | h)
          · exact Or.inl (Or.inr h)
          · exact Or.inl (Or.inl rfl)
          · exact Or.inr h
      · intro e' he'
        rcases List.mem_cons.mp he' with rfl | he'
        · exact hnew
        · intro h
          exact hfresh e' he' (by simp [h])
      · intro e' he' hnew'
        by_cases hsame : e'.id = e.id
        · exact ⟨e, by simp, hsame.symm⟩
        · rcases List.mem_cons.mp he' with rfl | he'
          · exact absurd rfl hsame
          · obtain ⟨x, hx, hid⟩ := hannounced e' he' (by simp [hsame, hnew'])
            exact ⟨x, by simp [hx], hid⟩

end NostrLn
