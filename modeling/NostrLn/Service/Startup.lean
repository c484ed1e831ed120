import NostrLn.Service.World

/-!
# What is lost at start-up

The service subscribes, fetches, and only then takes the receiver of its notifications. An event
that a relay delivers in between is announced to nobody, and its id is remembered, so it is not
announced again. It is not lost if the fetch returned it as well.
-/

namespace NostrLn

variable {crypto : Crypto} {svc : Service} {codec : Codec} {node : PublicKey}
  {events : List Event} {w w' : World}

/-- Events as they should be: signed, and each with an id of its own. -/
structure Genuine (crypto : Crypto) (events : List Event) : Prop where
  verify : ∀ e ∈ events, e.verify crypto = true
  ids : ∀ e ∈ events, ∀ e' ∈ events, e.id = e'.id → e = e'

/-- The relays publish only these events, the client forgets no id, and no two of its tasks take the
same event at once: it announces each at most once. -/
def Remembering (events : List Event) (_ : World) : Act → Prop
  | .publish event => event ∈ events
  | .deliverUnseen _ => False
  | .evict _ => False
  | _ => True

/-- Where every event that was delivered or fetched has got to. -/
structure Accounted (events : List Event) (w : World) : Prop where
  held : ∀ e ∈ w.held, e ∈ events
  known : ∀ e, e ∈ w.early ∨ e ∈ w.late ∨ e ∈ w.answered → e ∈ events
  /-- The ids remembered are those of the events received. -/
  database : ∀ id, id ∈ w.client.database ↔
    ∃ e, (e ∈ w.early ∨ e ∈ w.late ∨ e ∈ w.answered) ∧ e.id = id
  /-- Before the receiver is taken, only a fetch leads to the grants. -/
  before : w.stage ≠ .listening → w.receiver = [] ∧ w.late = [] ∧ ∀ e ∈ w.applied, e ∈ w.answered
  /-- What was fetched was applied. -/
  fetched : ∀ e ∈ w.answered, e.kind = grantKind → e ∈ w.applied
  /-- What is delivered late was applied, or waits, or had been delivered before. -/
  caught : ∀ e ∈ w.late, e.kind = grantKind → e ∈ w.applied ∨ e ∈ w.receiver ∨ e ∈ w.early
  /-- What was delivered early gets to the grants by a fetch or not at all. -/
  missed : ∀ e ∈ w.early, e ∈ w.applied ∨ e ∈ w.receiver → e ∈ w.answered

lemma Accounted.start (svc : Service) (node : PublicKey) (events : List Event) :
    Accounted events (World.start svc node) := by
  constructor <;> simp [World.start, Client.new]

/-- What the client has received joins the ids it remembers. -/
lemma Accounted.database_receive (h : Accounted events w) {es : List Event}
    (hverify : ∀ e ∈ es, e.verify crypto = true) (id : EventId) :
    id ∈ (w.client.receive crypto es).2.2.database ↔
      ∃ e, ((e ∈ w.early ∨ e ∈ w.late ∨ e ∈ w.answered) ∨ e ∈ es) ∧ e.id = id := by
  obtain ⟨_, hids, _, _⟩ := w.client.receive_of_verify hverify
  rw [hids, h.database]
  simp only [or_and_right, exists_or]

/-- Before the receiver is taken, an event that is delivered is remembered and no more. -/
lemma Accounted.deliver_early (hgenuine : Genuine crypto events) (h : Accounted events w)
    (hstage : w.stage ≠ .listening) {e : Event} (he : e ∈ w.held) :
    Accounted events (w.deliver crypto e) := by
  have hmem := h.held e he
  have hverify : ∀ x ∈ [e], x.verify crypto = true := by simpa using hgenuine.verify e hmem
  obtain ⟨hreceiver, hlate, happlied⟩ := h.before hstage
  rw [World.deliver_of_not_listening hstage]
  refine ⟨h.held, ?_, ?_, fun _ => ⟨hreceiver, hlate, happlied⟩, h.fetched, ?_, ?_⟩
  · intro x hx
    rcases hx with hx | hx
    · rcases List.mem_append.mp hx with hx | hx
      · exact h.known x (Or.inl hx)
      · rw [List.mem_singleton.mp hx]
        exact hmem
    · exact h.known x (Or.inr hx)
  · intro id
    rw [h.database_receive hverify]
    apply exists_congr
    intro x
    rw [List.mem_append]
    tauto
  · intro x hx
    rw [show w.late = [] from hlate] at hx
    cases hx
  · intro x _ hgot
    rcases hgot with hgot | hgot
    · exact happlied x hgot
    · rw [show w.receiver = [] from hreceiver] at hgot
      cases hgot

/-- Once the receiver is taken, an event that is new is announced to it; one that is not has been
received before. -/
lemma Accounted.deliver_late (hgenuine : Genuine crypto events) (h : Accounted events w)
    (hstage : w.stage = .listening) {e : Event} (he : e ∈ w.held) :
    Accounted events (w.deliver crypto e) := by
  have hmem := h.held e he
  have hverify : ∀ x ∈ [e], x.verify crypto = true := by simpa using hgenuine.verify e hmem
  obtain ⟨_, _, hfresh, hannounced⟩ := w.client.receive_of_verify hverify
  have honly : ∀ x ∈ (w.client.receive crypto [e]).2.1, x = e := by
    intro x hx
    have := Client.returned_subset w.client [e] (Client.announced_subset w.client [e] hx)
    exact List.mem_singleton.mp this
  rw [World.deliver_of_listening hstage]
  refine ⟨h.held, ?_, ?_, fun hnot => absurd hstage hnot, h.fetched, ?_, ?_⟩
  · intro x hx
    simp only [List.mem_append, List.mem_singleton] at hx
    rcases hx with hx | (hx | rfl) | hx
    · exact h.known x (Or.inl hx)
    · exact h.known x (Or.inr (Or.inl hx))
    · exact hmem
    · exact h.known x (Or.inr (Or.inr hx))
  · intro id
    rw [h.database_receive hverify]
    apply exists_congr
    intro x
    rw [List.mem_append]
    tauto
  · intro x hx hkind
    have hold : ∀ x ∈ w.late, x.kind = grantKind → x ∈ w.applied ∨
        x ∈ w.receiver ++ (w.client.receive crypto [e]).2.1 ∨ x ∈ w.early := by
      intro x hx hkind
      rcases h.caught x hx hkind with hx | hx | hx
      · exact Or.inl hx
      · exact Or.inr (Or.inl (by simp [hx]))
      · exact Or.inr (Or.inr hx)
    rcases List.mem_append.mp hx with hx | hx
    · exact hold x hx hkind
    rw [List.mem_singleton.mp hx] at hkind ⊢
    by_cases hdb : e.id ∈ w.client.database
    · obtain ⟨y, hy, hid⟩ := (h.database e.id).mp hdb
      obtain rfl : y = e := hgenuine.ids y (h.known y hy) e hmem hid
      rcases hy with hy | hy | hy
      · exact Or.inr (Or.inr hy)
      · exact hold y hy hkind
      · exact Or.inl (h.fetched y hy hkind)
    · obtain ⟨y, hy, _⟩ := hannounced e (by simp) hdb
      rw [honly y hy] at hy
      exact Or.inr (Or.inl (by simp [hy]))
  · intro x hx hgot
    rcases hgot with hgot | hgot
    · exact h.missed x hx (Or.inl hgot)
    · rcases List.mem_append.mp hgot with hgot | hgot
      · exact h.missed x hx (Or.inr hgot)
      · exact absurd ((h.database x.id).mpr ⟨x, Or.inl hx, rfl⟩) (hfresh x hgot)

/-- A fetch that is answered applies what the relays hold, and returns it. -/
lemma Accounted.refresh (hgenuine : Genuine crypto events) (h : Accounted events w) {stage : Stage}
    (hstage : stage = .listening ↔ w.stage = .listening) :
    Accounted events { w.refresh crypto codec with stage := stage } := by
  have hverify : ∀ x ∈ w.held, x.verify crypto = true := by
    intro x hx
    exact hgenuine.verify x (h.held x hx)
  obtain ⟨hall, _, _, _⟩ := w.client.receive_of_verify hverify
  have hfed : ∀ x, x ∈ grantsAmong (oldestFirst w.held) ↔ x ∈ w.held ∧ x.kind = grantKind := by
    intro x
    simp [grantsAmong, (perm_oldestFirst w.held).mem_iff]
  have hannounced : ∀ x ∈ (w.client.receive crypto w.held).2.1, x ∈ w.held := by
    intro x hx
    exact Client.returned_subset w.client w.held (Client.announced_subset w.client w.held hx)
  rw [World.refresh]
  simp only [hall]
  refine ⟨h.held, ?_, ?_, ?_, ?_, ?_, ?_⟩
  · intro x hx
    simp only [List.mem_append] at hx
    rcases hx with hx | hx | hx | hx
    · exact h.known x (Or.inl hx)
    · exact h.known x (Or.inr (Or.inl hx))
    · exact h.known x (Or.inr (Or.inr hx))
    · exact h.held x hx
  · intro id
    rw [h.database_receive hverify]
    apply exists_congr
    intro x
    rw [List.mem_append]
    tauto
  · intro hnot
    have hnot' : w.stage ≠ .listening := fun hw => hnot (hstage.mpr hw)
    obtain ⟨hreceiver, hlate, happlied⟩ := h.before hnot'
    refine ⟨?_, hlate, ?_⟩
    · rw [List.eq_nil_iff_forall_not_mem]
      intro x hx
      rcases World.mem_announce.mp hx with hx | ⟨hw, _⟩
      · simp [hreceiver] at hx
      · exact hnot' hw
    · intro x hx
      rcases List.mem_append.mp hx with hx | hx
      · exact List.mem_append.mpr (Or.inl (happlied x hx))
      · exact List.mem_append.mpr (Or.inr ((hfed x).mp hx).1)
  · intro x hx hkind
    rcases List.mem_append.mp hx with hx | hx
    · exact List.mem_append.mpr (Or.inl (h.fetched x hx hkind))
    · exact List.mem_append.mpr (Or.inr ((hfed x).mpr ⟨hx, hkind⟩))
  · intro x hx hkind
    rcases h.caught x hx hkind with hx | hx | hx
    · exact Or.inl (List.mem_append.mpr (Or.inl hx))
    · exact Or.inr (Or.inl (World.mem_announce.mpr (Or.inl hx)))
    · exact Or.inr (Or.inr hx)
  · intro x hx hgot
    rcases hgot with hgot | hgot
    · rcases List.mem_append.mp hgot with hgot | hgot
      · exact List.mem_append.mpr (Or.inl (h.missed x hx (Or.inl hgot)))
      · exact List.mem_append.mpr (Or.inr ((hfed x).mp hgot).1)
    · rcases World.mem_announce.mp hgot with hgot | ⟨_, hgot⟩
      · exact List.mem_append.mpr (Or.inl (h.missed x hx (Or.inr hgot)))
      · exact List.mem_append.mpr (Or.inr (hannounced x hgot))

/-- Polling moves an event from the receiver to the grants, if it is one. -/
lemma Accounted.poll (h : Accounted events w) (hstage : w.stage = .listening) {e : Event}
    {rest : List Event} (hreceiver : w.receiver = e :: rest) (now : UInt64) :
    Accounted events (w.poll svc codec e rest now) := by
  have hfed : ∀ x, x ∈ grantsAmong [e] ↔ x = e ∧ e.kind = grantKind := by
    intro x
    by_cases hkind : e.kind = grantKind <;> simp [grantsAmong, hkind]
  refine ⟨h.held, h.known, h.database, fun hnot => absurd hstage hnot, ?_, ?_, ?_⟩
  · intro x hx hkind
    exact List.mem_append.mpr (Or.inl (h.fetched x hx hkind))
  · intro x hx hkind
    rcases h.caught x hx hkind with hx | hx | hx
    · exact Or.inl (List.mem_append.mpr (Or.inl hx))
    · rw [hreceiver] at hx
      rcases List.mem_cons.mp hx with rfl | hx
      · exact Or.inl (List.mem_append.mpr (Or.inr ((hfed x).mpr ⟨rfl, hkind⟩)))
      · exact Or.inr (Or.inl hx)
    · exact Or.inr (Or.inr hx)
  · intro x hx hgot
    refine h.missed x hx ?_
    rcases hgot with hgot | hgot
    · rcases List.mem_append.mp hgot with hgot | hgot
      · exact Or.inl hgot
      · exact Or.inr (by simp [hreceiver, ((hfed x).mp hgot).1])
    · exact Or.inr (by simp [hreceiver, show x ∈ rest from hgot])

lemma Accounted.step (hgenuine : Genuine crypto events) (h : Accounted events w) {act : Act}
    (hact : Remembering events w act) (hstep : w.step crypto svc codec act = some w') :
    Accounted events w' := by
  cases World.stepped hstep with
  | publish e =>
    refine ⟨?_, h.known, h.database, h.before, h.fetched, h.caught, h.missed⟩
    intro x hx
    rcases List.mem_cons.mp hx with rfl | hx
    · exact hact
    · exact h.held x hx
  | drop e =>
    exact ⟨fun x hx => h.held x (List.mem_of_mem_filter hx), h.known, h.database, h.before, h.fetched,
      h.caught, h.missed⟩
  | deliver e he =>
    by_cases hstage : w.stage = .listening
    · exact h.deliver_late hgenuine hstage he
    · exact h.deliver_early hgenuine hstage he
  | deliverUnseen e he => exact hact.elim
  | fetch stage hstage => exact h.refresh hgenuine hstage
  | fetchFails stage hstage =>
    exact ⟨h.held, h.known, h.database, fun hnot => h.before fun hw => hnot (hstage.mpr hw),
      h.fetched, h.caught, h.missed⟩
  | listen hstage =>
    exact ⟨h.held, h.known, h.database, fun hnot => absurd rfl hnot, h.fetched, h.caught, h.missed⟩
  | poll now e rest hstage hreceiver => exact h.poll hstage hreceiver now
  | evict keep => exact hact.elim

/-- **What start-up catches.** Whenever nothing waits in the receiver, as when the loop has drained
it, every grant delivered since `subscribe` returned has been applied if and only if every one of
them that was delivered before the receiver was taken has been returned by a fetch. -/
theorem startup_catches_all_iff (crypto : Crypto) (svc : Service) (codec : Codec)
    (node : PublicKey) (events : List Event) (hgenuine : Genuine crypto events) (w : World)
    (hreach : Reaches crypto svc codec (Remembering events) (World.start svc node) w)
    (hdrained : w.receiver = []) :
    (∀ e, e ∈ w.early ∨ e ∈ w.late → IsGrant node svc.owners e → e ∈ w.applied) ↔
      ∀ e ∈ w.early, IsGrant node svc.owners e → e ∈ w.answered := by
  have h : Accounted events w := by
    clear hdrained
    induction hreach with
    | refl => exact Accounted.start svc node events
    | step _ hallowed hstep ih => exact ih.step hgenuine hallowed hstep
  constructor
  · intro hall e he hgrant
    exact h.missed e he (Or.inl (hall e (Or.inl he) hgrant))
  · intro hfetched e he hgrant
    have hkind : e.kind = grantKind := by
      obtain ⟨k, hk⟩ := hgrant
      exact hk.kind
    have hearly : e ∈ w.early → e ∈ w.applied := by
      intro he
      exact h.fetched e (hfetched e he hgrant) hkind
    rcases he with he | he
    · exact hearly he
    · rcases h.caught e he hkind with he | he | he
      · exact he
      · rw [hdrained] at he
        cases he
      · exact hearly he

/-! ### A revocation that arrives in between -/

namespace Sample

/-- The owner revokes. -/
def revokes : Event := grantEvent 2 (key 4).toHex revocation 5

/-- The fetch is answered before the revocation is published, and the receiver is taken after it
was delivered. -/
def missing : List Act := [.fetch, .publish revokes, .deliver revokes, .listen]

/-- The revocation is delivered, and held when the fetch is answered. -/
def catching : List Act := [.publish revokes, .deliver revokes, .fetch, .listen]

lemma genuine_revokes : Genuine toyCrypto [revokes] := by
  refine ⟨by decide +kernel, ?_⟩
  intro e he e' he' _
  rw [List.mem_singleton.mp he, List.mem_singleton.mp he']

lemma remembering_missing : ∀ act ∈ missing, ∀ w, Remembering [revokes] w act := by
  intro act hact w
  simp only [missing, List.mem_cons, List.not_mem_nil, or_false] at hact
  rcases hact with rfl | rfl | rfl | rfl
  · trivial
  · exact List.mem_singleton.mpr rfl
  · trivial
  · trivial

lemma remembering_catching : ∀ act ∈ catching, ∀ w, Remembering [revokes] w act := by
  intro act hact
  refine remembering_missing act ?_
  simp only [missing, catching, List.mem_cons, List.not_mem_nil, or_false] at hact ⊢
  tauto

end Sample

open Sample in
/-- A revocation that is delivered between the answer to the fetch and the taking of the receiver
is never applied. -/
theorem startup_misses_revocation :
    ¬ ∀ (crypto : Crypto) (svc : Service) (codec : Codec) (node : PublicKey) (events : List Event)
        (w : World), Genuine crypto events →
      Reaches crypto svc codec (Remembering events) (World.start svc node) w →
      w.stage = .listening → w.receiver = [] →
      ∀ e, e ∈ w.early ∨ e ∈ w.late → IsGrant node svc.owners e → e ∈ w.applied := by
  intro h
  have hmissed : ((World.start idle (key 1)).run toyCrypto idle plain missing).any (fun w =>
      w.stage = .listening ∧ w.receiver = [] ∧ revokes ∈ w.early ∧ revokes ∉ w.applied) = true := by
    decide +kernel
  cases hrun : (World.start idle (key 1)).run toyCrypto idle plain missing with
  | none =>
    rw [hrun] at hmissed
    cases hmissed
  | some w =>
    simp only [hrun, Option.any_some, decide_eq_true_eq] at hmissed
    obtain ⟨hstage, hdrained, hearly, hnot⟩ := hmissed
    exact hnot (h toyCrypto idle plain (key 1) [revokes] w genuine_revokes
      (World.reaches_of_run remembering_missing hrun) hstage hdrained revokes (Or.inl hearly)
      ⟨(key 4).toHex, by decide +kernel⟩)

open Sample in
/-- A revocation that the relays hold when the fetch is answered is applied. -/
theorem startup_catches_revocation :
    ((World.start idle (key 1)).run toyCrypto idle plain catching).isSome = true ∧
    ∀ w ∈ (World.start idle (key 1)).run toyCrypto idle plain catching,
      w.stage = .listening ∧ revokes ∈ w.early ∧ revokes ∈ w.applied := by
  refine ⟨by decide +kernel, ?_⟩
  intro w hrun
  have hcaught : ((World.start idle (key 1)).run toyCrypto idle plain catching).all (fun w =>
      w.stage = .listening ∧ w.receiver = [] ∧ w.early = [revokes] ∧ w.answered = [revokes]) =
        true := by
    decide +kernel
  rw [Option.mem_def] at hrun
  simp only [hrun, Option.all_some, decide_eq_true_eq] at hcaught
  obtain ⟨hstage, hdrained, hearly, hanswered⟩ := hcaught
  have hcatches := (startup_catches_all_iff toyCrypto idle plain (key 1) [revokes] genuine_revokes w
    (World.reaches_of_run remembering_catching hrun) hdrained).mpr
  have he : revokes ∈ w.early := by simp [hearly]
  refine ⟨hstage, he, hcatches ?_ revokes (Or.inl he) ⟨(key 4).toHex, by decide +kernel⟩⟩
  intro e he _
  rw [hanswered, ← hearly]
  exact he

end NostrLn
