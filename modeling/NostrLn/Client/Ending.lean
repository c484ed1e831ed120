import NostrLn.Client.Pending

/-!
# When the stream ends

A stream of notifications ends when the client shuts down, and every poll of it after that is
answered at once, with nothing. The wait loops take that answer for a notification they have no use
for and poll again. Only the clock stops them, unless they had found what they were waiting for.
-/

namespace NostrLn

variable {α : Type} {read : Event → Option (Except ClientError α)} {timeout : ℕ}

/-- One round of a wait loop: what it returns, if it does. -/
def waitRound (read : Event → Option (Except ClientError α)) (timeout : ℕ) :
    Poll → Option (Except ClientError α)
  | .expired => some (.error (.timedOut timeout))
  | .item (.event event) => read event
  | _ => none

/-- What the loop returns within these rounds, if it does. -/
def waitWithin (read : Event → Option (Except ClientError α)) (timeout : ℕ) (polls : List Poll) :
    Option (Except ClientError α) :=
  polls.findSome? (waitRound read timeout)

/-- The loop goes from round to round and returns what the first one does that returns. -/
lemma waitLoop_eq_waitWithin (read : Event → Option (Except ClientError α)) (timeout : ℕ)
    (polls : List Poll) :
    waitLoop read timeout polls =
      (waitWithin read timeout polls).getD (.error (.timedOut timeout)) := by
  rw [waitWithin]
  induction polls with
  | nil => rfl
  | cons poll polls ih =>
    rw [List.findSome?_cons]
    match poll with
    | .expired => rfl
    | .ended => exact ih
    | .item .message => exact ih
    | .item .shutdown => exact ih
    | .item (.event event) =>
      rw [waitLoop, waitRound]
      cases read event with
      | none => exact ih
      | some outcome => rfl

/-- What a round comes upon. The clock is looked at first: the deadline passes before the round
`deadline`, and stays passed. Past its last item the stream has ended. -/
def roundAt (items : List ClientNotification) (deadline i : ℕ) : Poll :=
  if deadline ≤ i then .expired
  else
    match items[i]? with
    | some notification => .item notification
    | none => .ended

/-- The first rounds. -/
def firstRounds (items : List ClientNotification) (deadline n : ℕ) : List Poll :=
  (List.range n).map (roundAt items deadline)

/-- The loop stops with the stream, whatever the clock reads: it returns after at most one poll past
the last item, and until it does each of its rounds takes an item. -/
def StopsWithStream (read : Event → Option (Except ClientError α)) (timeout : ℕ)
    (items : List ClientNotification) : Prop :=
  ∀ deadline,
    (waitWithin read timeout (firstRounds items deadline (items.length + 1))).isSome = true ∧
    ∀ i, waitWithin read timeout (firstRounds items deadline (i + 1)) = none →
      ∃ notification, roundAt items deadline i = .item notification

/-! ### What stops it -/

variable {items : List ClientNotification}

lemma waitWithin_eq_none_iff {deadline n : ℕ} :
    waitWithin read timeout (firstRounds items deadline n) = none ↔
      ∀ i < n, waitRound read timeout (roundAt items deadline i) = none := by
  simp only [waitWithin, firstRounds, List.findSome?_eq_none_iff, List.forall_mem_map,
    List.mem_range]

/-- An event that is waited for ends the wait, unless the deadline is sooner. -/
lemma exists_round_of_mem {event : Event} (h : .event event ∈ items)
    (hread : (read event).isSome = true) (timeout deadline : ℕ) :
    ∃ i < items.length, (waitRound read timeout (roundAt items deadline i)).isSome = true := by
  obtain ⟨i, hi, hitem⟩ := List.getElem_of_mem h
  refine ⟨i, hi, ?_⟩
  rw [roundAt, List.getElem?_eq_getElem hi, hitem]
  split
  · rfl
  · exact hread

/-- If it finds what it waits for, it stops with the stream. -/
lemma StopsWithStream.of_mem {event : Event} (h : .event event ∈ items)
    (hread : (read event).isSome = true) : StopsWithStream read timeout items := by
  intro deadline
  obtain ⟨k, hk, hstop⟩ := exists_round_of_mem h hread timeout deadline
  have hreturns : ∀ n, waitWithin read timeout (firstRounds items deadline n) = none → n ≤ k := by
    intro n hn
    by_contra hlt
    rw [waitWithin_eq_none_iff.mp hn k (Nat.lt_of_not_le hlt)] at hstop
    cases hstop
  refine ⟨?_, ?_⟩
  · by_contra hnone
    have hle := hreturns _ (Option.not_isSome_iff_eq_none.mp hnone)
    omega
  · intro i hi
    have hround := waitWithin_eq_none_iff.mp hi i (Nat.lt_succ_self i)
    have hlt : i < items.length := (Nat.lt_of_succ_le (hreturns _ hi)).trans hk
    rw [roundAt, List.getElem?_eq_getElem hlt] at hround ⊢
    split at hround
    · cases hround
    · rename_i hclock
      exact ⟨_, if_neg hclock⟩

/-- If it does not, it goes on polling until the deadline. -/
lemma waitWithin_eq_none_of_unread (h : ∀ event, .event event ∈ items → read event = none)
    (deadline : ℕ) : waitWithin read timeout (firstRounds items deadline deadline) = none := by
  rw [waitWithin_eq_none_iff]
  intro i hi
  rw [roundAt, if_neg (Nat.not_le.mpr hi)]
  cases hitem : items[i]? with
  | none => rfl
  | some notification =>
    match notification with
    | .message => rfl
    | .shutdown => rfl
    | .event event => exact h event (List.mem_of_getElem? hitem)

lemma stopsWithStream_iff :
    StopsWithStream read timeout items ↔
      ∃ event, .event event ∈ items ∧ (read event).isSome = true := by
  constructor
  · intro h
    by_contra hnot
    have hunread : ∀ event, .event event ∈ items → read event = none := by
      intro event hmem
      rw [← Option.not_isSome_iff_eq_none]
      exact fun hread => hnot ⟨event, hmem, hread⟩
    have hreturns := (h (items.length + 1)).1
    rw [waitWithin_eq_none_of_unread hunread] at hreturns
    cases hreturns
  · rintro ⟨event, hmem, hread⟩
    exact .of_mem hmem hread

/-! ### The three loops -/

lemma isSome_readReply (kind : UInt16) (service : PublicKey) (requestId : EventId)
    (decode : Event → Except ClientError α) (event : Event) :
    (readReply kind service requestId decode event).isSome =
      respondsTo kind service requestId event := by
  rw [readReply_eq]
  cases h : respondsTo kind service requestId event <;> simp [h]

lemma Pending.isSome_readOutcome {T : Type} (p : Pending T) (event : Event) :
    (p.readOutcome event).isSome = namesOutcome p.requestId event := by
  rw [p.readOutcome_eq]
  cases h : namesOutcome p.requestId event <;> simp [h]

/-- **The end of the stream.** Each of the wait loops goes round by round, and stops with the stream
exactly if the stream carried what it waits for. -/
theorem waits_stop_with_stream_iff {T : Type} (nnc : NostrNodeControl) (nwc : WalletConnect)
    (p : Pending T) (requestId : EventId) (items : List ClientNotification) :
    let nncRead := readReply controlResponseKind nnc.service requestId nnc.decodeResponse
    let nwcRead := readReply walletResponseKind nwc.wallet requestId nwc.decodeResponse
    ((∀ polls, nnc.awaitResponse requestId polls =
        (waitWithin nncRead nnc.timeout polls).getD (.error (.timedOut nnc.timeout))) ∧
      (StopsWithStream nncRead nnc.timeout items ↔
        ∃ event, .event event ∈ items ∧
          respondsTo controlResponseKind nnc.service requestId event = true)) ∧
    ((∀ polls, p.wait polls =
        (waitWithin p.readOutcome p.timeout polls).getD (.error (.timedOut p.timeout))) ∧
      (StopsWithStream p.readOutcome p.timeout items ↔
        ∃ event, .event event ∈ items ∧ namesOutcome p.requestId event = true)) ∧
    ((∀ polls, nwc.sendWait requestId polls =
        (waitWithin nwcRead nwc.timeout polls).getD (.error (.timedOut nwc.timeout))) ∧
      (StopsWithStream nwcRead nwc.timeout items ↔
        ∃ event, .event event ∈ items ∧
          respondsTo walletResponseKind nwc.wallet requestId event = true)) := by
  refine ⟨⟨fun polls => waitLoop_eq_waitWithin .., ?_⟩,
    ⟨fun polls => waitLoop_eq_waitWithin .., ?_⟩, fun polls => waitLoop_eq_waitWithin .., ?_⟩
  · simp only [stopsWithStream_iff, isSome_readReply]
  · simp only [stopsWithStream_iff, Pending.isSome_readOutcome]
  · simp only [stopsWithStream_iff, isSome_readReply]

/-- A client that shuts down while an outcome is pending leaves its handle polling. -/
theorem shut_down_handle_polls :
    ¬ ∀ (p : Pending String) (items : List ClientNotification),
      StopsWithStream p.readOutcome p.timeout items := by
  intro h
  obtain ⟨event, hmem, _⟩ := stopsWithStream_iff.mp (h Sample.waiting [.shutdown])
  cases List.mem_singleton.mp hmem

end NostrLn
