import NostrLn.Service.Transport

/-!
# The service among its relays

The start-up of the service and its loop as a transition system: `subscribe` has returned; then
the fetch is answered, the notification receiver is taken, and the loop polls it, re-reading when
a relay comes back. Between any two of these steps the relays may publish, drop and deliver events
as they like. A relay delivers what it holds, and a fetch is answered with what is held. The
receiver is as long as it needs to be: the library's has room for 4096 notifications, and a loop
that falls behind by more than that is not spoken of here.
-/

namespace NostrLn

/-! ### What a store has taken -/

/-- Applying the event writes its grant. -/
def Grants.stores (parse : String → Option UsageProfile) (g : Grants) (e : Event) : Bool :=
  match (g.apply parse e).1 with
  | .ok _ => true
  | .error .unparseable => true
  | .error _ => false

/-- The events of a list that are stored when it is applied in order. -/
def Grants.storedFrom (parse : String → Option UsageProfile) : Grants → List Event → List Event
  | _, [] => []
  | g, e :: es =>
    let rest := storedFrom parse (g.apply parse e).2 es
    if g.stores parse e then e :: rest else rest

/-! ### The transition system -/

/-- How far the start-up has come. -/
inductive Stage
  | subscribed
  | fetched
  | listening
deriving DecidableEq

/-- The relays, the client, the loop, and a record of what has happened. -/
structure World where
  /-- What the relays hold. -/
  held : List Event
  client : Client
  stage : Stage
  /-- Announced since the receiver was taken, and not polled yet. -/
  receiver : List Event
  loop : Loop
  /-- Delivered on the subscription before the receiver was taken. -/
  early : List Event
  /-- Delivered on the subscription since. -/
  late : List Event
  /-- Returned by a fetch. -/
  answered : List Event
  /-- Given to `Grants::apply`. -/
  applied : List Event
  /-- Those of them that were stored. -/
  stored : List Event

/-- What can happen next. Each relay has a task that handles what it sends, and `deliverUnseen` is a
delivery by one that looked for the id before another task had saved it, and goes on only now. -/
inductive Act
  | publish (event : Event)
  | drop (event : Event)
  | deliver (event : Event)
  | deliverUnseen (event : Event)
  | fetch
  | fetchFails
  | listen
  | poll (now : UInt64)
  | evict (keep : EventId → Bool)

/-- `subscribe` has just returned. -/
def World.start (svc : Service) (node : PublicKey) : World where
  held := []
  client := Client.new
  stage := .subscribed
  receiver := []
  loop :=
    { own := { grants := Grants.new node svc.owners, subs := Subscriptions.new node }
      usage := Usage.new
      delivery := { grants := { node := none, owners := [], byController := ∅, others := none }
                    subs := { node := none, byController := ∅ } } }
  early := []
  late := []
  answered := []
  applied := []
  stored := []

/-- The receiver gets what is announced once it has been taken. -/
def World.announce (w : World) (events : List Event) : List Event :=
  match w.stage with
  | .listening => w.receiver ++ events
  | _ => w.receiver

/-- A relay sends an event on the subscription. -/
def World.deliver (crypto : Crypto) (w : World) (event : Event) : World :=
  let (_, announced, client) := w.client.receive crypto [event]
  let w := { w with client := client, receiver := w.announce announced }
  match w.stage with
  | .listening => { w with late := w.late ++ [event] }
  | _ => { w with early := w.early ++ [event] }

/-- A relay sends an event on the subscription, and its id was not found. -/
def World.deliverUnseen (crypto : Crypto) (w : World) (event : Event) : World :=
  let (announced, client) := w.client.receiveUnseen crypto event
  let w := { w with client := client, receiver := w.announce announced }
  match w.stage with
  | .listening => { w with late := w.late ++ [event] }
  | _ => { w with early := w.early ++ [event] }

/-- A fetch is answered, and the stores re-read from what it returned. The relays may hold more than
the filter asks for, and two events of one id; the library would leave out the second. -/
def World.refresh (crypto : Crypto) (codec : Codec) (w : World) : World :=
  let (returned, announced, client) := w.client.receive crypto w.held
  let fed := grantsAmong (oldestFirst returned)
  let own := w.loop.own.refresh codec (some returned)
  { w with
    client := client
    receiver := w.announce announced
    loop := { w.loop with own := own, delivery := own }
    answered := w.answered ++ returned
    applied := w.applied ++ fed
    stored := w.stored ++ w.loop.own.grants.storedFrom codec.parseProfile fed }

/-- The loop takes an event from the receiver. -/
def World.poll (svc : Service) (codec : Codec) (w : World) (event : Event) (rest : List Event)
    (now : UInt64) : World :=
  let fed := grantsAmong [event]
  { w with
    receiver := rest
    loop := (svc.onEvent codec w.loop event now).1
    applied := w.applied ++ fed
    stored := w.stored ++ w.loop.own.grants.storedFrom codec.parseProfile fed }

/-- One step, if it can be taken. The start-up fetches once and then takes the receiver; later
fetches are those of a relay that came back. -/
def World.step (crypto : Crypto) (svc : Service) (codec : Codec) (w : World) : Act → Option World
  | .publish event => some { w with held := event :: w.held }
  | .drop event => some { w with held := w.held.filter (· ≠ event) }
  | .deliver event => if event ∈ w.held then some (w.deliver crypto event) else none
  | .deliverUnseen event => if event ∈ w.held then some (w.deliverUnseen crypto event) else none
  | .fetch =>
    match w.stage with
    | .subscribed => some { w.refresh crypto codec with stage := .fetched }
    | .fetched => none
    | .listening => some (w.refresh crypto codec)
  | .fetchFails =>
    -- the stores stay as they were, and are mirrored all the same
    let loop := { w.loop with delivery := w.loop.own }
    match w.stage with
    | .subscribed => some { w with loop := loop, stage := .fetched }
    | .fetched => none
    | .listening => some { w with loop := loop }
  | .listen =>
    match w.stage with
    | .fetched => some { w with stage := .listening }
    | _ => none
  | .poll now =>
    match w.stage, w.receiver with
    | .listening, event :: rest => some (w.poll svc codec event rest now)
    | _, _ => none
  | .evict keep =>
    some { w with client := { database := w.client.database.filter keep
                              verificationCache := w.client.verificationCache.filter keep } }

/-- The states that can be reached by steps which all meet a condition on the state before them. -/
inductive Reaches (crypto : Crypto) (svc : Service) (codec : Codec) (allowed : World → Act → Prop)
    (w₀ : World) : World → Prop
  | refl : Reaches crypto svc codec allowed w₀ w₀
  | step {w w' : World} {act : Act} (hreach : Reaches crypto svc codec allowed w₀ w)
      (hallowed : allowed w act) (hstep : w.step crypto svc codec act = some w') :
      Reaches crypto svc codec allowed w₀ w'

/-- Take steps one after another, if they can all be taken. -/
def World.run (crypto : Crypto) (svc : Service) (codec : Codec) (w : World) (acts : List Act) :
    Option World :=
  acts.foldlM (World.step crypto svc codec) w

/-- What a run arrives at is reached. -/
lemma World.reaches_of_run {crypto : Crypto} {svc : Service} {codec : Codec} {w w' : World}
    {acts : List Act} {allowed : World → Act → Prop} (hallowed : ∀ act ∈ acts, ∀ w, allowed w act)
    (h : w.run crypto svc codec acts = some w') : Reaches crypto svc codec allowed w w' := by
  induction acts using List.reverseRecOn generalizing w' with
  | nil =>
    cases h
    exact .refl
  | append_singleton acts act ih =>
    simp only [World.run, List.foldlM_append, List.foldlM_cons, List.foldlM_nil] at h
    obtain ⟨v, hv, hlast⟩ := Option.bind_eq_some_iff.mp h
    obtain ⟨v', hstep, hpure⟩ := Option.bind_eq_some_iff.mp hlast
    cases hpure
    exact .step (ih (fun act hact => hallowed act (by simp [hact])) hv) (hallowed act (by simp) v)
      hstep

/-! ### What one step can do -/

section

variable {crypto : Crypto} {svc : Service} {codec : Codec} {w w' : World} {act : Act}

/-- The steps, by what they do. -/
inductive Stepped (crypto : Crypto) (svc : Service) (codec : Codec) (w : World) :
    Act → World → Prop
  | publish (event : Event) :
      Stepped crypto svc codec w (.publish event) { w with held := event :: w.held }
  | drop (event : Event) :
      Stepped crypto svc codec w (.drop event) { w with held := w.held.filter (· ≠ event) }
  | deliver (event : Event) (hheld : event ∈ w.held) :
      Stepped crypto svc codec w (.deliver event) (w.deliver crypto event)
  | deliverUnseen (event : Event) (hheld : event ∈ w.held) :
      Stepped crypto svc codec w (.deliverUnseen event) (w.deliverUnseen crypto event)
  | fetch (stage : Stage) (hstage : stage = .listening ↔ w.stage = .listening) :
      Stepped crypto svc codec w .fetch { w.refresh crypto codec with stage := stage }
  | fetchFails (stage : Stage) (hstage : stage = .listening ↔ w.stage = .listening) :
      Stepped crypto svc codec w .fetchFails
        { w with loop := { w.loop with delivery := w.loop.own }, stage := stage }
  | listen (hstage : w.stage = .fetched) :
      Stepped crypto svc codec w .listen { w with stage := .listening }
  | poll (now : UInt64) (event : Event) (rest : List Event) (hstage : w.stage = .listening)
      (hreceiver : w.receiver = event :: rest) :
      Stepped crypto svc codec w (.poll now) (w.poll svc codec event rest now)
  | evict (keep : EventId → Bool) :
      Stepped crypto svc codec w (.evict keep)
        { w with client := { database := w.client.database.filter keep
                             verificationCache := w.client.verificationCache.filter keep } }

lemma World.stepped (h : w.step crypto svc codec act = some w') :
    Stepped crypto svc codec w act w' := by
  cases act with
  | publish event => cases h; exact .publish event
  | drop event => cases h; exact .drop event
  | deliver event =>
    simp only [World.step] at h
    split at h
    · cases h
      exact .deliver event (by assumption)
    · cases h
  | deliverUnseen event =>
    simp only [World.step] at h
    split at h
    · cases h
      exact .deliverUnseen event (by assumption)
    · cases h
  | fetch =>
    simp only [World.step] at h
    split at h
    · rename_i hstage
      cases h
      exact .fetch .fetched (by simp [hstage])
    · cases h
    · cases h
      exact .fetch w.stage Iff.rfl
  | fetchFails =>
    simp only [World.step] at h
    split at h
    · rename_i hstage
      cases h
      exact .fetchFails .fetched (by simp [hstage])
    · cases h
    · cases h
      exact .fetchFails w.stage Iff.rfl
  | listen =>
    simp only [World.step] at h
    split at h
    · cases h
      exact .listen (by assumption)
    · cases h
  | poll now =>
    simp only [World.step] at h
    split at h
    · cases h
      exact .poll now _ _ (by assumption) (by assumption)
    · cases h
  | evict keep => cases h; exact .evict keep

end

/-- A delivery changes the client, the receiver, and the record of what was delivered. -/
lemma World.exists_deliver (crypto : Crypto) (w : World) (event : Event) :
    ∃ early late, w.deliver crypto event =
      { w with
        client := (w.client.receive crypto [event]).2.2
        receiver := w.announce (w.client.receive crypto [event]).2.1
        early := early
        late := late } := by
  simp only [World.deliver]
  split
  · exact ⟨_, _, rfl⟩
  · exact ⟨_, _, rfl⟩

lemma World.exists_deliverUnseen (crypto : Crypto) (w : World) (event : Event) :
    ∃ early late, w.deliverUnseen crypto event =
      { w with
        client := (w.client.receiveUnseen crypto event).2
        receiver := w.announce (w.client.receiveUnseen crypto event).1
        early := early
        late := late } := by
  simp only [World.deliverUnseen]
  split
  · exact ⟨_, _, rfl⟩
  · exact ⟨_, _, rfl⟩

/-- Whoever is announced joins the receiver, once it has been taken. -/
lemma World.mem_announce {w : World} {announced : List Event} {e : Event} :
    e ∈ w.announce announced ↔ e ∈ w.receiver ∨ (w.stage = .listening ∧ e ∈ announced) := by
  rw [World.announce]
  cases w.stage <;> simp

lemma World.deliver_of_listening {crypto : Crypto} {w : World} (h : w.stage = .listening)
    (e : Event) : w.deliver crypto e =
      { w with
        client := (w.client.receive crypto [e]).2.2
        receiver := w.receiver ++ (w.client.receive crypto [e]).2.1
        late := w.late ++ [e] } := by
  simp [World.deliver, World.announce, h]

lemma World.deliver_of_not_listening {crypto : Crypto} {w : World} (h : w.stage ≠ .listening)
    (e : Event) : w.deliver crypto e =
      { w with client := (w.client.receive crypto [e]).2.2, early := w.early ++ [e] } := by
  cases hstage : w.stage with
  | listening => exact absurd hstage h
  | subscribed => simp [World.deliver, World.announce, hstage]
  | fetched => simp [World.deliver, World.announce, hstage]

/-- What holds of all that waits and of all that is announced holds of all that waits then. -/
lemma World.forall_announce {p : Event → Prop} {w : World} {events : List Event}
    (hwaiting : ∀ e ∈ w.receiver, p e) (hevents : ∀ e ∈ events, p e) :
    ∀ e ∈ w.announce events, p e := by
  rw [World.announce]
  split
  · exact List.forall_mem_append.mpr ⟨hwaiting, hevents⟩
  · exact hwaiting

/-! ### What is announced -/

/-- The events the client announces in one step. -/
def World.announcedAt (crypto : Crypto) (w : World) : Act → List Event
  | .deliver event => (w.client.receive crypto [event]).2.1
  | .deliverUnseen event => (w.client.receiveUnseen crypto event).1
  | .fetch => (w.client.receive crypto w.held).2.1
  | _ => []

/-- The events the client announces in a run, up to the first step that cannot be taken. -/
def World.announcements (crypto : Crypto) (svc : Service) (codec : Codec) :
    World → List Act → List Event
  | _, [] => []
  | w, act :: acts =>
    match w.step crypto svc codec act with
    | none => []
    | some w' => w.announcedAt crypto act ++ announcements crypto svc codec w' acts

/-- How often an id is among some events. -/
def occurrences (id : EventId) (events : List Event) : ℕ := events.countP fun e => e.id = id

lemma occurrences_append (id : EventId) (es es' : List Event) :
    occurrences id (es ++ es') = occurrences id es + occurrences id es' :=
  List.countP_append

/-- What has been announced waits, as far as the receiver had been taken. -/
lemma World.exists_announce (w : World) (events : List Event) :
    ∃ announced, announced.Sublist events ∧ w.announce events = w.receiver ++ announced := by
  rw [World.announce]
  split
  · exact ⟨events, List.Sublist.refl _, rfl⟩
  · exact ⟨[], List.nil_sublist _, (List.append_nil _).symm⟩

/-- A step takes the first event from the receiver, or it may add to it what is announced. -/
lemma World.receiver_step {crypto : Crypto} {svc : Service} {codec : Codec} {w w' : World}
    {act : Act} (hstep : w.step crypto svc codec act = some w') :
    (∃ now event, act = .poll now ∧ w.stage = .listening ∧ w.receiver = event :: w'.receiver) ∨
    ((∀ now, act ≠ .poll now) ∧ ∃ announced, announced.Sublist (w.announcedAt crypto act) ∧
      w'.receiver = w.receiver ++ announced) := by
  have hsame : ∃ announced, announced.Sublist (w.announcedAt crypto act) ∧
      w.receiver = w.receiver ++ announced :=
    ⟨[], List.nil_sublist _, (List.append_nil _).symm⟩
  cases World.stepped hstep with
  | publish event => exact Or.inr ⟨by simp, hsame⟩
  | drop event => exact Or.inr ⟨by simp, hsame⟩
  | deliver event hheld =>
    obtain ⟨announced, hsublist, heq⟩ := w.exists_announce (w.client.receive crypto [event]).2.1
    obtain ⟨early, late, hdeliver⟩ := w.exists_deliver crypto event
    exact Or.inr ⟨by simp, announced, hsublist, by rw [hdeliver, ← heq]⟩
  | deliverUnseen event hheld =>
    obtain ⟨announced, hsublist, heq⟩ := w.exists_announce (w.client.receiveUnseen crypto event).1
    obtain ⟨early, late, hdeliver⟩ := w.exists_deliverUnseen crypto event
    exact Or.inr ⟨by simp, announced, hsublist, by rw [hdeliver, ← heq]⟩
  | fetch stage hstage =>
    obtain ⟨announced, hsublist, heq⟩ := w.exists_announce (w.client.receive crypto w.held).2.1
    exact Or.inr ⟨by simp, announced, hsublist, heq⟩
  | fetchFails stage hstage => exact Or.inr ⟨by simp, hsame⟩
  | listen hstage => exact Or.inr ⟨by simp, hsame⟩
  | poll now event rest hstage hreceiver => exact Or.inl ⟨now, event, rfl, hstage, hreceiver⟩
  | evict keep => exact Or.inr ⟨by simp, hsame⟩

/-! ### Sample service -/

namespace Sample

/-- A hash that tells the contents of the samples apart, and signatures that repeat the key. -/
def toyCrypto : Crypto where
  eventId _ _ _ _ content :=
    { buf := List.replicate 32 (if content = "1" then 8 else if content = revocation then 2 else 7)
      len := List.length_replicate }
  verifySchnorr pk _ sig := sig.buf == pk.buf ++ pk.buf

/-- A service of owner `key 2` that serves neither protocol. -/
def idle : Service := { owners := [key 2], wallet := none, control := none }

end Sample

end NostrLn
