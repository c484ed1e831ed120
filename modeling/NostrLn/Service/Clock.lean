import NostrLn.Service.Budget

/-!
# What a controller can spend when the clock jumps

The service reads the wall clock at every request, and a wall clock is set back now and then. A
bucket sees no time pass while the clock is behind, and sees it pass once more when the clock
catches up. What is paid out is then no longer bounded by the window, but by how far the clock
climbs from request to request of that controller; requests of others do not count.
-/

namespace NostrLn

open Serde TokenBucket

variable {explain : Explain} {qs : List Request} {own : Request → Prop} [DecidablePred own]
  {cost : Outcome → ℕ}

/-- What the clock said at some of the requests, in the order they were served. -/
def readings (own : Request → Prop) [DecidablePred own] (qs : List Request) : List ℕ :=
  (qs.filter fun q => own q).map fun q => q.now.toNat

/-- When some of the requests were served, and what each of them took. -/
def withdrawals (own : Request → Prop) [DecidablePred own] (cost : Outcome → ℕ)
    (history : List (Request × Outcome)) : List (ℕ × ℕ) :=
  (history.filter fun x => own x.1).map fun x => (x.1.now.toNat, cost x.2)

/-- What a request cost the controller: nothing unless it was answered with success. -/
def Outcome.paid (out : Outcome) : ℕ := if out.result.isOk = true then out.costSats else 0

/-- The satoshis a controller paid over a whole history. -/
def spentInAll (c : PublicKey) (history : List (Request × Outcome)) : ℕ :=
  ((history.filter fun x => x.1.controller = c).map fun x => x.2.paid).sum

/-- How often something was prepared for a controller and a method over a whole history. -/
def preparedInAll (c : PublicKey) (m : String) (history : List (Request × Outcome)) : ℕ :=
  ((history.filter fun x => x.1.controller = c ∧ x.1.name = m).map fun x => x.2.prepares).sum

lemma map_fst_withdrawals (u : Usage) :
    (withdrawals own cost (serve explain u qs)).map Prod.fst = readings own qs := by
  induction qs generalizing u with
  | nil => rfl
  | cons q qs ih =>
    have hrec := ih (q.handle explain u).usage
    by_cases hown : own q
    · simpa [withdrawals, readings, serve, hown] using hrec
    · simpa [withdrawals, readings, serve, hown] using hrec

/-- The requests that concern a bucket are a run of it, when the others leave it as it is. -/
lemma run_withdrawals {r : TokenBucket.Rule} {level : Usage → Level} (u : Usage)
    (hstep : ∀ q ∈ qs, own q → ∀ u, Step r q.now.toNat (level u) (cost (q.handle explain u))
      (level (q.handle explain u).usage))
    (hframe : ∀ q ∈ qs, ¬ own q → ∀ u, level (q.handle explain u).usage = level u) :
    Run r (level u) (withdrawals own cost (serve explain u qs)) := by
  induction qs generalizing u with
  | nil => exact .nil _
  | cons q qs ih =>
    have hrec := ih (q.handle explain u).usage (fun q hq => hstep q (by simp [hq]))
      (fun q hq => hframe q (by simp [hq]))
    by_cases hown : own q
    · have hrun := Run.cons (hstep q (by simp) hown u) hrec
      simpa [withdrawals, serve, hown] using hrun
    · rw [hframe q (by simp) hown u] at hrec
      simpa [withdrawals, serve, hown] using hrec

/-- What the requests that concern a bucket took from it, against the climbs of their clock. -/
lemma sum_withdrawals_le {r : TokenBucket.Rule} (own : Request → Prop) [DecidablePred own]
    (cost : Outcome → ℕ) (level : Usage → Level) (u : Usage)
    (hstep : ∀ q ∈ qs, own q → ∀ u, Step r q.now.toNat (level u) (cost (q.handle explain u))
      (level (q.handle explain u).usage))
    (hframe : ∀ q ∈ qs, ¬ own q → ∀ u, level (q.handle explain u).usage = level u) :
    (((serve explain u qs).filter fun x => own x.1).map fun x => cost x.2).sum ≤
      r.cap + r.refill (climb (readings own qs)) := by
  have hbound := (run_withdrawals u hstep hframe).sum_le
  rw [map_fst_withdrawals] at hbound
  simpa [withdrawals, Function.comp_def] using hbound

/-- **The quota bounds spending, whatever the clock does.** From any usage, in any run of requests
whose clock readings come in any order, what one controller pays is at most the ceiling of its
quota and the refill of all the climbs of the clock between its own requests. -/
theorem quota_bounds_spending_on_any_clock (explain : Explain) (u : Usage) (qs : List Request)
    (c : PublicKey) (rule : RateLimitRule) (hvalid : 0 < rule.perSecs)
    (hrule : ∀ q ∈ qs, q.controller = c → ∀ g, q.grants.resolve c = .ok g →
      g.profile.quota = some rule) :
    spentInAll c (serve explain u qs) ≤ rule.maxCapacity.toNat +
      rule.amount.toNat * climb (readings (fun q => q.controller = c) qs) /
        rule.perSecs.toNat := by
  have hvalid' : rule.isValid = true := by simpa [RateLimitRule.isValid] using hvalid
  refine sum_withdrawals_le (r := rule.toRule) (fun q => q.controller = c) Outcome.paid
    (fun u => u.quotaLevel c) u ?_ ?_
  · intro q hq hc u
    exact Request.quota_step hvalid' hc (hrule q hq hc)
  · intro q _ hc u
    rw [Usage.quotaLevel, q.quota_frame explain u fun h => hc (PublicKey.toHex_inj.mp h).symm]
    rfl

namespace Sample

/-- Payments of forty while the clock is set back a minute and catches up again, twice. -/
def paymentsOnASetBackClock : List Request :=
  [payment 40 160, payment 40 100, payment 40 160, payment 40 100, payment 40 160]

end Sample

open Sample in
/-- Two hundred satoshis within a minute: more than the ceiling and that minute's refill, and
covered by two climbs of a minute. -/
theorem quota_bounds_payments_on_a_set_back_clock :
    spentInAll (key 4) (serve (fun _ _ => "") Usage.new paymentsOnASetBackClock) = 200 ∧
    100 + 60 * (160 - 100) / 60 < 200 ∧
    spentInAll (key 4) (serve (fun _ _ => "") Usage.new paymentsOnASetBackClock) ≤
      100 + 60 * 120 / 60 := by
  refine ⟨by decide +kernel, by decide, ?_⟩
  refine quota_bounds_spending_on_any_clock _ _ paymentsOnASetBackClock (key 4) spendQuota
    (by decide) ?_
  intro q hq _ g hg
  have hgrants : q.grants = metered := by
    simp only [paymentsOnASetBackClock, List.mem_cons, List.not_mem_nil, or_false] at hq
    rcases hq with rfl | rfl | rfl | rfl | rfl <;> rfl
  rw [hgrants] at hg
  cases hg
  rfl

/-- **The rate bounds preparing, whatever the clock does.** From any usage, in any run of requests
whose clock readings come in any order, `prepare` is called for one controller and method at most
as often as the ceiling of the rate and the refill of all the climbs of the clock between those
requests allow. -/
theorem rate_bounds_preparing_on_any_clock (explain : Explain) (u : Usage) (qs : List Request)
    (c : PublicKey) (m : String) (rule : RateLimitRule) (hvalid : 0 < rule.perSecs)
    (hrule : ∀ q ∈ qs, q.controller = c → q.name = m → ∀ entry ∈ q.entry,
      entry.rate = some rule) :
    preparedInAll c m (serve explain u qs) ≤ rule.maxCapacity.toNat +
      rule.amount.toNat * climb (readings (fun q => q.controller = c ∧ q.name = m) qs) /
        rule.perSecs.toNat := by
  have hvalid' : rule.isValid = true := by simpa [RateLimitRule.isValid] using hvalid
  refine sum_withdrawals_le (r := rule.toRule) (fun q => q.controller = c ∧ q.name = m)
    Outcome.prepares (fun u => u.rateLevel c m) u ?_ ?_
  · intro q hq hcm u
    exact Request.rate_step hvalid' hcm.1 hcm.2 (hrule q hq hcm.1 hcm.2)
  · intro q _ hcm u
    have hkey : (c.toHex, m) ≠ (q.controller.toHex, q.name) := by
      intro h
      simp only [Prod.mk.injEq, PublicKey.toHex_inj] at h
      exact hcm ⟨h.1.symm, h.2.symm⟩
    rw [Usage.rateLevel, q.rate_frame explain u hkey]
    rfl

open Sample in
/-- The rate's ceiling is three, and every climb of a minute makes it whole again. -/
theorem rate_bounds_payments_on_a_set_back_clock :
    preparedInAll (key 4) "pay_invoice"
      (serve (fun _ _ => "") Usage.new paymentsOnASetBackClock) = 5 ∧
    preparedInAll (key 4) "pay_invoice"
      (serve (fun _ _ => "") Usage.new paymentsOnASetBackClock) ≤ 3 + 10 * 120 / 60 := by
  refine ⟨by decide +kernel, ?_⟩
  refine rate_bounds_preparing_on_any_clock _ _ paymentsOnASetBackClock (key 4) "pay_invoice"
    callRate (by decide) ?_
  intro q hq _ _ entry hentry
  have hpayment : ∃ now, q = payment 40 now := by
    simp only [paymentsOnASetBackClock, List.mem_cons, List.not_mem_nil, or_false] at hq
    rcases hq with h | h | h | h | h <;> exact ⟨_, h⟩
  obtain ⟨now, rfl⟩ := hpayment
  have hrate : (payment 40 0).entry = some { rate := some callRate } := by decide +kernel
  rw [Option.mem_def, show (payment 40 now).entry = (payment 40 0).entry from rfl, hrate] at hentry
  cases hentry
  rfl

end NostrLn
