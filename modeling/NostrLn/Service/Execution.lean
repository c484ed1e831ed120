import NostrLn.Service.Answer
import NostrLn.Service.Budget
import NostrLn.Service.World

/-!
# How often a request is executed

Nothing in the service remembers which requests it has served. A request is executed at most once
for each time it is delivered; that it is delivered once is up to the client, which announces an
event only if its id was not found. It forgets ids when its memory is full or it is restarted, and
two relays that bring the same event at once may both come before it is saved.
-/

namespace NostrLn

open Serde

/-- The event carries a request. -/
def Event.isRequest (event : Event) : Bool :=
  event.kind = walletRequestKind ∨ event.kind = controlRequestKind

/-- How often a method was called for a request. -/
def executions (id : EventId) (calls : List Call) : ℕ :=
  calls.countP fun call => !call.isPrepare && call.caller.requestId = some id

/-- What happens to a service: an event is delivered to it; or it is restarted, and holds what it
reads then. -/
inductive Delivered
  | event (event : Event) (now : UInt64)
  | restart (loop : Loop)

/-- The request with this id is delivered. -/
def Delivered.isRequest (id : EventId) : Delivered → Bool
  | .event e _ => e.isRequest && e.id = id
  | .restart _ => false

/-- The calls made to the handlers, in order. -/
def Service.callsOf (svc : Service) (codec : Codec) : Loop → List Delivered → List Call
  | _, [] => []
  | loop, .event event now :: rest =>
    (svc.onEvent codec loop event now).2.1 ++
      callsOf svc codec (svc.onEvent codec loop event now).1 rest
  | _, .restart loop :: rest => callsOf svc codec loop rest

/-! ### One delivery -/

variable {crypto : Crypto} {svc : Service} {codec : Codec} {id : EventId} {w w' : World}

lemma executions_append (calls calls' : List Call) :
    executions id (calls ++ calls') = executions id calls + executions id calls' :=
  List.countP_append

/-- Of the calls one request makes, one at most is an execution, and it is for that request. -/
lemma Request.executions_handle (explain : Explain) (q : Request) (u : Usage) (id : EventId) :
    executions id (q.handle explain u).calls ≤ if q.requestId = some id then 1 else 0 := by
  have hprepare : ∀ calls, executions id (q.prepareCall :: calls) = executions id calls := by
    intro calls
    simp [executions, Request.prepareCall, Call.isPrepare]
  have hexit := q.exit explain u
  generalize q.handle explain u = out at hexit
  cases hexit with
  | refused => exact Nat.zero_le _
  | limited => exact Nat.zero_le _
  | unprepared => rw [hprepare]; exact Nat.zero_le _
  | overQuota => rw [hprepare]; exact Nat.zero_le _
  | executed =>
    rw [hprepare]
    obtain hnone | ⟨call, hone, hcall, hcaller⟩ :=
      q.handler.dispatch_calls explain q.method q.params q.caller
    · rw [Request.dispatched, hnone]
      exact Nat.zero_le _
    · rw [Request.dispatched, hone]
      simp [executions, List.countP_cons, hcall, hcaller, Request.caller]

/-- An event causes one execution at most, and only of the request it carries. -/
lemma Service.executions_onEvent (svc : Service) (codec : Codec) (loop : Loop) (event : Event)
    (now : UInt64) (id : EventId) :
    executions id (svc.onEvent codec loop event now).2.1 ≤
      if event.isRequest = true ∧ event.id = id then 1 else 0 := by
  by_cases hkind : event.kind = walletRequestKind ∨ event.kind = controlRequestKind
  · rw [svc.onEvent_of_request codec loop now hkind]
    simp only [Event.isRequest, hkind, decide_true, true_and, Service.answer]
    split
    · exact Nat.zero_le _
    · split
      · exact Nat.zero_le _
      · rename_i method params _
        split
        · exact Nat.zero_le _
        · rename_i handler _
          have hle := Request.executions_handle codec.explain
            { handler := handler, grants := loop.own.grants, controller := event.pubkey
              requestId := some event.id, method := method, params := params, now := now }
            loop.usage id
          simp only [Option.some.injEq] at hle
          split <;> exact hle
  · have hcalls : (svc.onEvent codec loop event now).2.1 = [] := by
      rw [Service.onEvent]
      split_ifs <;> rfl
    rw [hcalls]
    exact Nat.zero_le _

/-- However often a service is restarted, a request is executed at most once for each time it is
delivered. -/
lemma Service.executions_callsOf (svc : Service) (codec : Codec) (id : EventId) (loop : Loop)
    (ds : List Delivered) :
    executions id (svc.callsOf codec loop ds) ≤ ds.countP (Delivered.isRequest id) := by
  induction ds generalizing loop with
  | nil => exact Nat.le_refl _
  | cons d ds ih =>
    cases d with
    | restart loop' => simpa [Service.callsOf, Delivered.isRequest] using ih loop'
    | event event now =>
      have hone := svc.executions_onEvent codec loop event now id
      have hrest := ih (svc.onEvent codec loop event now).1
      rw [Service.callsOf, executions_append, List.countP_cons]
      simp only [Delivered.isRequest, Bool.and_eq_true, decide_eq_true_eq]
      omega

/-! ### Among the relays -/

/-- The calls made to the handlers in one step. -/
def World.callsAt (svc : Service) (codec : Codec) (w : World) : Act → List Call
  | .poll now =>
    match w.stage, w.receiver with
    | .listening, event :: _ => (svc.onEvent codec w.loop event now).2.1
    | _, _ => []
  | _ => []

/-- The calls made to the handlers in a run, up to the first step that cannot be taken. -/
def World.calls (crypto : Crypto) (svc : Service) (codec : Codec) : World → List Act → List Call
  | _, [] => []
  | w, act :: acts =>
    match w.step crypto svc codec act with
    | none => []
    | some w' => w.callsAt svc codec act ++ calls crypto svc codec w' acts

/-- In one step, what is executed and what waits then was waiting, or has been announced. -/
lemma World.executions_step (id : EventId) {act : Act}
    (hstep : w.step crypto svc codec act = some w') :
    executions id (w.callsAt svc codec act) + occurrences id w'.receiver ≤
      occurrences id w.receiver + occurrences id (w.announcedAt crypto act) := by
  obtain ⟨now, event, rfl, hstage, hreceiver⟩ | ⟨hact, announced, hsublist, hreceiver⟩ :=
    World.receiver_step hstep
  · have hone := svc.executions_onEvent codec w.loop event now id
    have hle : executions id (svc.onEvent codec w.loop event now).2.1 ≤
        if event.id = id then 1 else 0 := by
      refine le_trans hone ?_
      split_ifs with h₁ h₂
      · exact Nat.le_refl _
      · exact absurd h₁.2 h₂
      · exact Nat.zero_le _
      · exact Nat.le_refl _
    simp only [World.callsAt, hstage, hreceiver, occurrences, List.countP_cons, World.announcedAt,
      List.countP_nil, decide_eq_true_eq]
    omega
  · have hcalls : w.callsAt svc codec act = [] := by
      cases act with
      | poll now => exact absurd rfl (hact now)
      | _ => rfl
    have hle : occurrences id announced ≤ occurrences id (w.announcedAt crypto act) :=
      hsublist.countP_le
    have hnone : executions id [] = 0 := rfl
    rw [hcalls, hreceiver, occurrences_append, hnone]
    omega

/-- In a run, what is executed was waiting at its start, or was announced. -/
lemma World.executions_calls (crypto : Crypto) (svc : Service) (codec : Codec) (id : EventId)
    (w : World) (acts : List Act) :
    executions id (w.calls crypto svc codec acts) ≤
      occurrences id w.receiver + occurrences id (w.announcements crypto svc codec acts) := by
  induction acts generalizing w with
  | nil => exact Nat.zero_le _
  | cons act acts ih =>
    rw [World.calls, World.announcements]
    cases hstep : w.step crypto svc codec act with
    | none => exact Nat.zero_le _
    | some w' =>
      have hone := World.executions_step id hstep
      have hrest := ih w'
      simp only [executions_append, occurrences_append]
      omega

/-- **How often a request is executed.** At most once for each time it is delivered, across
restarts; and so, whatever the client forgets and however its tasks get in each other's way, at most
once for each time it is announced. -/
theorem request_executed_once_per_delivery (crypto : Crypto) (svc : Service) (codec : Codec)
    (id : EventId) :
    (∀ (loop : Loop) (ds : List Delivered),
      executions id (svc.callsOf codec loop ds) ≤ ds.countP (Delivered.isRequest id)) ∧
    ∀ (node : PublicKey) (acts : List Act),
      executions id ((World.start svc node).calls crypto svc codec acts) ≤
        occurrences id ((World.start svc node).announcements crypto svc codec acts) := by
  refine ⟨svc.executions_callsOf codec id, ?_⟩
  intro node acts
  have hle := World.executions_calls crypto svc codec id (World.start svc node) acts
  have hempty : occurrences id (World.start svc node).receiver = 0 := rfl
  rwa [hempty, Nat.zero_add] at hle

namespace Sample

/-- A service with a wallet that pays invoices, at forty satoshis each. -/
def shop : Service where
  owners := [key 2]
  wallet := some
    { methods := ["pay_invoice"]
      prepare := fun _ _ _ => .ok { costSats := 40 }
      call := fun _ _ _ => .ok (.ok .null) }
  control := none

/-- Every request it can decrypt asks for the same payment. -/
def payCodec : Codec :=
  { clear with
    parseRequest := fun _ => .ok (.fromStr "pay_invoice", .object [("invoice", .string "lnbc1")]) }

/-- The loop with the grants above in force. -/
def trading : Loop where
  own := { grants := metered, subs := Subscriptions.new (key 1) }
  usage := Usage.new
  delivery := { grants := metered, subs := Subscriptions.new (key 1) }

/-- A request of `key 4` to pay. -/
def payEvent : Event :=
  { requestEvent walletRequestKind with
    id := eventId 8
    content := "1" }

/-- The owner lets `key 4` call every wallet method. -/
def payGrant : Event :=
  { grantEvent 2 (key 4).toHex everyMethod 5 with
    id := eventId 7 }

/-- The service starts under that grant, and the relay then delivers a payment request twice. -/
def trade : List Act :=
  [.publish payGrant, .fetch, .listen, .publish payEvent, .deliver payEvent, .deliver payEvent,
   .poll 100, .poll 101]

end Sample

open Sample in
/-- What the client has seen it does not announce again: the payment is made once. -/
theorem request_executed_once_trade :
    executions payEvent.id ((World.start shop (key 1)).calls toyCrypto shop payCodec trade) = 1 ∧
    executions payEvent.id ((World.start shop (key 1)).calls toyCrypto shop payCodec trade) ≤
      occurrences payEvent.id
        ((World.start shop (key 1)).announcements toyCrypto shop payCodec trade) :=
  ⟨by decide +kernel, (request_executed_once_per_delivery toyCrypto shop payCodec payEvent.id).2
    (key 1) trade⟩

open Sample in
/-- A second relay brings it at the same moment: it is made twice. -/
example : executions payEvent.id ((World.start shop (key 1)).calls toyCrypto shop payCodec
    [.publish payGrant, .fetch, .listen, .publish payEvent, .deliver payEvent,
      .deliverUnseen payEvent, .poll 100, .poll 101]) = 2 := by
  decide +kernel

open Sample in
/-- A payment request that is delivered twice is paid twice. -/
theorem replayed_payment_paid_twice :
    ¬ ∀ (svc : Service) (codec : Codec) (loop : Loop) (ds : List Delivered) (id : EventId),
      executions id (svc.callsOf codec loop ds) ≤ 1 := by
  intro h
  have honce := h shop payCodec trading [.event payEvent 100, .event payEvent 101] payEvent.id
  have htwice : executions payEvent.id
      (shop.callsOf payCodec trading [.event payEvent 100, .event payEvent 101]) = 2 := by
    decide +kernel
  omega

end NostrLn
