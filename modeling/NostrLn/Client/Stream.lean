import NostrLn.Nnc
import NostrLn.Nostr

/-!
# Waiting on the notification stream

Every call of a client waits on the same broadcast of what the relays send. The wait loops are
alike: look at the clock, take the next notification, pass over what is not an event or not the
one that is waited for, and stop at the first that is. `waitLoop` is that loop, with the choice of
events and what is made of them left to the caller.
-/

namespace NostrLn

/-- What the client library announces. -/
inductive ClientNotification
  | event (event : Event)
  | message
  | shutdown

/-- What one round of a wait loop comes upon: the deadline has passed; the stream has ended; or a
notification. -/
inductive Poll
  | expired
  | ended
  | item (notification : ClientNotification)

/-- Why a call failed. -/
inductive ClientError
  | refused (error : NncError)
  | timedOut (timeout : ℕ)
  | signer (text : String)
  | json (text : String)
deriving DecidableEq

variable {α : Type} {read : Event → Option (Except ClientError α)} {timeout : ℕ}

/-- Wait for an event that `read` does not pass over. When there is nothing more to come, the
deadline passes. -/
def waitLoop (read : Event → Option (Except ClientError α)) (timeout : ℕ) :
    List Poll → Except ClientError α
  | [] => .error (.timedOut timeout)
  | .expired :: _ => .error (.timedOut timeout)
  | .ended :: rest => waitLoop read timeout rest
  | .item (.event event) :: rest =>
    match read event with
    | some outcome => outcome
    | none => waitLoop read timeout rest
  | .item _ :: rest => waitLoop read timeout rest

/-- The events that arrive before the deadline. -/
def arrivals : List Poll → List Event
  | [] => []
  | .expired :: _ => []
  | .item (.event event) :: rest => event :: arrivals rest
  | _ :: rest => arrivals rest

/-! ### The first event that is not passed over -/

/-- The outcome is what is made of the first event that is not passed over. -/
lemma waitLoop_eq (read : Event → Option (Except ClientError α)) (timeout : ℕ)
    (polls : List Poll) :
    waitLoop read timeout polls =
      ((arrivals polls).findSome? read).getD (.error (.timedOut timeout)) := by
  induction polls with
  | nil => rfl
  | cons poll polls ih =>
    match poll with
    | .expired => rfl
    | .ended => exact ih
    | .item .message => exact ih
    | .item .shutdown => exact ih
    | .item (.event event) =>
      rw [waitLoop, arrivals, List.findSome?_cons]
      cases read event with
      | none => exact ih
      | some outcome => rfl

/-- The round goes on: there is time left, and no event that is not passed over. -/
def Poll.passes (read : Event → Option (Except ClientError α)) : Poll → Bool
  | .expired => false
  | .item (.event e) => (read e).isNone
  | _ => true

/-- What is passed over makes no difference. -/
lemma waitLoop_append {before : List Poll} (h : ∀ poll ∈ before, poll.passes read = true)
    (after : List Poll) : waitLoop read timeout (before ++ after) = waitLoop read timeout after := by
  induction before with
  | nil => rfl
  | cons poll before ih =>
    have hpoll := h poll (by simp)
    have hrest := ih fun poll hpoll => h poll (by simp [hpoll])
    match poll with
    | .expired => cases hpoll
    | .ended => exact hrest
    | .item .message => exact hrest
    | .item .shutdown => exact hrest
    | .item (.event e) =>
      have hnone : read e = none := Option.isNone_iff_eq_none.mp hpoll
      simp only [List.cons_append, waitLoop, hnone]
      exact hrest

/-- Where events are chosen by a test, the outcome is what is made of the first that passes it. -/
lemma waitLoop_choose (test : Event → Bool) (make : Event → Except ClientError α) (timeout : ℕ)
    (polls : List Poll) :
    waitLoop (fun e => if test e then some (make e) else none) timeout polls =
      match (arrivals polls).find? test with
      | some e => make e
      | none => .error (.timedOut timeout) := by
  rw [waitLoop_eq]
  induction arrivals polls with
  | nil => rfl
  | cons e es ih =>
    rw [List.findSome?_cons, List.find?_cons]
    cases test e with
    | true => rfl
    | false => exact ih

/-- The first event that passes a test is the first of those that do. -/
lemma find_congr_filter {test : Event → Bool} {es es' : List Event}
    (h : es.filter test = es'.filter test) : es.find? test = es'.find? test := by
  rw [← List.head?_filter, ← List.head?_filter, h]

end NostrLn
