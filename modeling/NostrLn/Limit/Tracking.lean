import NostrLn.Lib.ExactBucket
import NostrLn.Limit

/-!
# A bucket over time

How far a bucket is from the exact one that its rule describes, after any run of withdrawals; and
what a withdrawal does to the balances to come. Both go by the order of the instants: a withdrawal
dated before the one that preceded it sets the bucket back.
-/

namespace NostrLn

open TokenBucket (Exact Tracks)

/-- A call of `withdraw`. -/
structure Withdrawal where
  cost : UInt64
  now : UInt64
deriving DecidableEq

/-- Withdraw one after another: the bucket after it, and the withdrawals that succeeded. -/
def Bucket.withdrawAll (rule : RateLimitRule) : Bucket → List Withdrawal → Bucket × List Withdrawal
  | b, [] => (b, [])
  | b, w :: ws =>
    let (ok, b) := b.withdraw w.cost w.now rule
    let (last, taken) := withdrawAll rule b ws
    (last, if ok then w :: taken else taken)

/-- The exact bucket that starts full at `start` and is debited by some withdrawals. -/
def exactAfter (rule : RateLimitRule) (start : UInt64) (taken : List Withdrawal) : Exact :=
  (Exact.full rule.toRule start.toNat).debitAll rule.toRule
    (taken.map fun w => (w.now.toNat, w.cost.toNat))

/-! ### Against the exact bucket -/

variable {rule : RateLimitRule} {b : Bucket}

/-- Where a bucket stands after a run of withdrawals: as of the last that succeeded. -/
lemma Bucket.since_withdrawAll (b : Bucket) (rule : RateLimitRule) (ws : List Withdrawal)
    {t : UInt64} (hb : b.since ≤ t) (ht : ∀ w ∈ (b.withdrawAll rule ws).2, w.now ≤ t) :
    (b.withdrawAll rule ws).1.since ≤ t := by
  induction ws generalizing b with
  | nil => exact hb
  | cons w ws ih =>
    obtain ⟨_, heq⟩ | ⟨_, heq⟩ := b.withdraw_cases w.cost w.now rule
    · simp only [Bucket.withdrawAll, heq, if_true] at ht ⊢
      exact ih _ (ht w (by simp)) fun w' hw' => ht w' (by simp [hw'])
    · simp only [Bucket.withdrawAll, heq, Bool.false_eq_true, if_false] at ht ⊢
      exact ih b hb ht

/-- A run of withdrawals in order loses at most one token for each that succeeds. -/
lemma Bucket.tracks_withdrawAll {n : ℕ} {e : Exact} {ws : List Withdrawal}
    (hvalid : rule.isValid = true) (h : Tracks n b.toLevel e)
    (hsorted : ws.Pairwise fun a b => a.now ≤ b.now) (hsince : ∀ w ∈ ws, b.since ≤ w.now) :
    Tracks (n + (b.withdrawAll rule ws).2.length) (b.withdrawAll rule ws).1.toLevel
      (e.debitAll rule.toRule
        ((b.withdrawAll rule ws).2.map fun w => (w.now.toNat, w.cost.toNat))) := by
  induction ws generalizing b n e with
  | nil => exact h
  | cons w ws ih =>
    obtain ⟨hnow, hrest⟩ := List.pairwise_cons.mp hsorted
    obtain ⟨hcan, heq⟩ | ⟨_, heq⟩ := b.withdraw_cases w.cost w.now rule
    · have hdebit : Tracks (n + 1)
          (Bucket.toLevel { balance := b.balanceAt w.now rule - w.cost, since := w.now })
          (e.debit rule.toRule w.now.toNat w.cost.toNat) := by
        rw [Bucket.toLevel_sub hvalid hcan]
        exact h.debit (UInt64.le_iff_toNat_le.mp (hsince w (by simp)))
          (Bucket.le_level_of_canWithdraw hvalid hcan)
      have hrun := ih hdebit hrest hnow
      rw [Nat.add_right_comm, Nat.add_assoc] at hrun
      simp only [Bucket.withdrawAll, heq, if_true, List.length_cons, List.map_cons]
      exact hrun
    · simp only [Bucket.withdrawAll, heq, Bool.false_eq_true, if_false]
      exact ih h hrest fun w' hw' => hsince w' (by simp [hw'])

/-- **The bucket tracks the exact one.** Over any run of withdrawals in order, at any instant from
the last that succeeded on, a bucket holds no more than the exact one debited by the same
withdrawals, and less by under one token for each of them and one more. -/
theorem bucket_tracks_exact (rule : RateLimitRule) (hvalid : 0 < rule.perSecs) (start : UInt64)
    (ws : List Withdrawal) (hsorted : ws.Pairwise fun a b => a.now ≤ b.now)
    (hstart : ∀ w ∈ ws, start ≤ w.now) (t : UInt64) (ht : start ≤ t) :
    let (b, taken) := (Bucket.full rule start).withdrawAll rule ws
    let exact := rule.toRule.exactLevel (exactAfter rule start taken) t.toNat
    (∀ w ∈ taken, w.now ≤ t) →
      0 ≤ exact - (b.balanceAt t rule).toNat ∧
        exact - (b.balanceAt t rule).toNat < taken.length + 1 := by
  intro htaken
  have hvalid' : rule.isValid = true := by simpa [RateLimitRule.isValid] using hvalid
  have hfull : Tracks 0 (Bucket.full rule start).toLevel (Exact.full rule.toRule start.toNat) := by
    rw [Bucket.toLevel_full]
    exact TokenBucket.tracks_full _ _
  have htracks := Bucket.tracks_withdrawAll hvalid' hfull hsorted hstart
  have hsince := (Bucket.full rule start).since_withdrawAll rule ws ht htaken
  have hlevel := htracks.level (r := rule.toRule) (UInt64.le_iff_toNat_le.mp hsince)
  rw [← Bucket.balanceAt_toNat _ _ hvalid', Nat.zero_add] at hlevel
  exact ⟨sub_nonneg.mpr hlevel.1, sub_lt_iff_lt_add'.mpr hlevel.2⟩

namespace Sample

/-- Two tokens in seven seconds, five at most. -/
def twoInSeven : RateLimitRule := { amount := 2, perSecs := 7, maxCapacity := 5 }

/-- Five are taken, then two too soon; then one and one, with a remainder cut off each time. -/
def sips : List Withdrawal :=
  [{ cost := 5, now := 0 }, { cost := 2, now := 4 }, { cost := 1, now := 4 },
    { cost := 1, now := 8 }]

end Sample

open Sample in
/-- Three of the four succeed, and ten seconds on the bucket has fallen behind by six sevenths. -/
theorem bucket_tracks_exact_sips :
    let (b, taken) := (Bucket.full twoInSeven 0).withdrawAll twoInSeven sips
    let exact := twoInSeven.toRule.exactLevel (exactAfter twoInSeven 0 taken) 10
    taken.length = 3 ∧ exact - (b.balanceAt 10 twoInSeven).toNat = 6 / 7 ∧
      0 ≤ exact - (b.balanceAt 10 twoInSeven).toNat ∧
      exact - (b.balanceAt 10 twoInSeven).toNat < 3 + 1 := by
  refine ⟨by decide +kernel, by decide +kernel, ?_⟩
  exact bucket_tracks_exact twoInSeven (by decide) 0 sips (by decide +kernel) (by decide +kernel) 10
    (by decide) (by decide +kernel)

/-! ### Ever after -/

/-- **A withdrawal never enlarges the future** exactly if it is not dated before the last one.
Otherwise `since` is set back, and the time between is credited again. -/
theorem withdraw_never_enlarges_iff (b : Bucket) (rule : RateLimitRule) (cost now : UInt64) :
    ((b.withdraw cost now rule).1 = true →
      b.since ≤ (b.withdraw cost now rule).2.since ∧
      ∀ t, now ≤ t → b.since ≤ t →
        (b.withdraw cost now rule).2.balanceAt t rule ≤ b.balanceAt t rule) ↔
    (b.canWithdraw cost now rule = true → b.since ≤ now) := by
  obtain ⟨hcan, heq⟩ | ⟨hcan, heq⟩ := b.withdraw_cases cost now rule
  · simp only [heq, hcan, true_implies]
    constructor
    · intro h
      exact h.1
    · intro hnow
      refine ⟨hnow, ?_⟩
      intro t ht _
      cases hvalid : rule.isValid with
      | false => simp [Bucket.balanceAt, hvalid]
      | true =>
        rw [UInt64.le_iff_toNat_le, Bucket.balanceAt_toNat _ _ hvalid,
          Bucket.balanceAt_toNat _ _ hvalid, Bucket.toLevel_sub hvalid hcan]
        exact rule.toRule.level_take_le cost.toNat (UInt64.le_iff_toNat_le.mp hnow)
          (UInt64.le_iff_toNat_le.mp ht)
  · simp [heq, hcan]

namespace Sample

/-- One token a second. -/
def aSecond : RateLimitRule := { amount := 1, perSecs := 1, maxCapacity := 1000 }

end Sample

open Sample in
/-- Ten tokens as of second 100; the clock steps back to 40 and one is taken. At second 100 there
are sixty-nine. -/
theorem regressed_withdrawal_enlarges :
    ¬ ∀ (b : Bucket) (rule : RateLimitRule) (cost now : UInt64), 0 < rule.perSecs →
      (b.withdraw cost now rule).1 = true →
        b.since ≤ (b.withdraw cost now rule).2.since ∧
        ∀ t, now ≤ t → b.since ≤ t →
          (b.withdraw cost now rule).2.balanceAt t rule ≤ b.balanceAt t rule := by
  intro h
  have hten := (h { balance := 10, since := 100 } aSecond 1 40 (by decide) (by decide)).2 100
    (by decide) (by decide)
  revert hten
  decide

end NostrLn
