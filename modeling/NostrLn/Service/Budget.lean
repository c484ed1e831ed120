import NostrLn.Service.Mediation

/-!
# What a controller can spend, and what it can have prepared

A run of requests, by any controllers and with any handlers, is a run of every bucket taken by
itself: each request leaves the bucket alone, creates it, or takes what was checked. The bound of
the token bucket on a window of time is then a bound on what was paid for, and on how often a
handler was asked to prepare.
-/

namespace NostrLn

open Serde

variable {explain : Explain} {q : Request} {u : Usage} {rule : RateLimitRule} {c : PublicKey}
  {m : String}

/-- Serve requests one after another, each with the outcome it had. -/
def serve (explain : Explain) : Usage → List Request → List (Request × Outcome)
  | _, [] => []
  | u, q :: qs => (q, q.handle explain u) :: serve explain (q.handle explain u).usage qs

/-- What `prepare` said the request would cost, if it was asked and said so. -/
def Outcome.costSats (out : Outcome) : ℕ :=
  (out.calls.findSome? fun call =>
    match call with
    | .prepare _ _ _ (.ok prepared) => some prepared.costSats.toNat
    | _ => none).getD 0

/-- How often `prepare` was called. -/
def Outcome.prepares (out : Outcome) : ℕ := out.calls.countP Call.isPrepare

/-- The satoshis of a controller's requests in `[s, t]` that were answered with success. -/
def spentBy (c : PublicKey) (s t : ℕ) (history : List (Request × Outcome)) : ℕ :=
  ((history.filter fun x => (x.1.controller = c ∧ x.2.result.isOk = true) ∧
    s ≤ x.1.now.toNat ∧ x.1.now.toNat ≤ t).map fun x => x.2.costSats).sum

/-- How often something was prepared for a controller and a method in `[s, t]`. -/
def preparedFor (c : PublicKey) (m : String) (s t : ℕ) (history : List (Request × Outcome)) : ℕ :=
  ((history.filter fun x => (x.1.controller = c ∧ x.1.name = m) ∧
    s ≤ x.1.now.toNat ∧ x.1.now.toNat ≤ t).map fun x => x.2.prepares).sum

/-- The quota bucket of a controller, as the token bucket's level. -/
def Usage.quotaLevel (u : Usage) (c : PublicKey) : TokenBucket.Level :=
  (u.quota.lookup c.toHex).map Bucket.toLevel

/-- The rate bucket of a controller and a method, as the token bucket's level. -/
def Usage.rateLevel (u : Usage) (c : PublicKey) (m : String) : TokenBucket.Level :=
  (u.rate.lookup (c.toHex, m)).map Bucket.toLevel

/-! ### One bucket, one step -/

/-- The level of the governing bucket: a bucket nobody has touched counts as full. -/
lemma level_getD (b : Option Bucket) (hvalid : rule.isValid = true) (now : UInt64) :
    rule.toRule.level (some (b.getD (Bucket.full rule now)).toLevel) now.toNat =
      rule.toRule.level (b.map Bucket.toLevel) now.toNat := by
  cases b with
  | none =>
    have := Bucket.balanceAt_full rule now hvalid
    rw [Bucket.balanceAt_toNat _ _ hvalid] at this
    exact this
  | some b => rfl

/-- Looking a bucket up creates it, or leaves it as it is. -/
lemma step_getD (b : Option Bucket) (now : UInt64) :
    TokenBucket.Step rule.toRule now.toNat (b.map Bucket.toLevel) 0
      (some (b.getD (Bucket.full rule now)).toLevel) := by
  cases b with
  | none => exact .create
  | some b => exact .idle _

/-- Withdrawing what can be withdrawn takes exactly that. -/
lemma step_withdraw (b : Option Bucket) (hvalid : rule.isValid = true) {cost now : UInt64}
    (hcan : (b.getD (Bucket.full rule now)).canWithdraw cost now rule = true) :
    TokenBucket.Step rule.toRule now.toNat (b.map Bucket.toLevel) cost.toNat
      (some (Bucket.toLevel
        { balance := (b.getD (Bucket.full rule now)).balanceAt now rule - cost, since := now })) := by
  have hle := Bucket.le_level_of_canWithdraw hvalid hcan
  rw [Bucket.toLevel_sub hvalid hcan, level_getD b hvalid]
  rw [level_getD b hvalid] at hle
  exact .take _ _ hle

/-! ### One request -/

lemma prepares_of_dispatched :
    (q.prepareCall :: (q.dispatched explain).2).countP Call.isPrepare = 1 := by
  have hnone : (q.dispatched explain).2.countP Call.isPrepare = 0 :=
    List.countP_eq_zero.mpr fun call hcall => by simp [Handler.isPrepare_dispatch hcall]
  simp [List.countP_cons, hnone, Request.prepareCall, Call.isPrepare]

/-- The quota step leaves the quota bucket of the caller alone, or creates it. -/
lemma Usage.step_limitQuota {u' : Usage} {cost now : UInt64} {r : Except NncError Unit}
    (h : u.limitQuota c cost (some rule) now = (r, u')) :
    TokenBucket.Step rule.toRule now.toNat (u.quotaLevel c) 0 (u'.quotaLevel c) := by
  have hasked : (u.quotaAllows c cost rule now).2.quotaLevel c =
      some (u.quotaBucket c rule now).toLevel := by
    rw [Usage.quotaLevel, Usage.lookup_quotaAllows, if_pos rfl]
    rfl
  obtain ⟨_, heq⟩ | ⟨_, hr, _, ⟨_, heq⟩ | ⟨_, heq⟩⟩ := u.limitQuota_cases c cost (some rule) now
  · rw [heq] at h
    cases h
    exact .idle _
  all_goals
    rw [heq] at h
    cases h
    cases hr
    rw [hasked]
    exact step_getD _ now

/-- Checking and then committing a cost takes it. -/
lemma Usage.step_commit {u' : Usage} {cost now : UInt64} (hvalid : rule.isValid = true)
    (h : u.limitQuota c cost (some rule) now = (.ok (), u')) (value : Value) :
    TokenBucket.Step rule.toRule now.toNat (u.quotaLevel c) cost.toNat
      ((u'.commit c cost (some rule) now (.ok value)).quotaLevel c) := by
  obtain ⟨hfree | hfree, heq⟩ | ⟨_, hr, hpos, ⟨_, heq⟩ | ⟨hcan, heq⟩⟩ :=
    u.limitQuota_cases c cost (some rule) now
  · rw [heq] at h
    cases h
    subst hfree
    exact .idle _
  · cases hfree
  · rw [heq] at h
    cases h
  · rw [heq] at h
    cases h
    cases hr
    have hcommit : ((u.quotaAllows c cost rule now).2.commit c cost (some rule) now
        (.ok value)).quotaLevel c = some (Bucket.toLevel
          { balance := (u.quotaBucket c rule now).balanceAt now rule - cost, since := now }) := by
      simp only [Usage.commit, hpos, if_true, Usage.quotaLevel, Usage.lookup_chargeQuota,
        Usage.quotaBucket_quotaAllows, Bucket.withdraw_of_canWithdraw hcan, Option.map_some]
    rw [hcommit]
    exact step_withdraw _ hvalid hcan

/-- **The quota, one request.** Whatever becomes of a request of `c`, its quota bucket takes one
step, of what was paid. -/
lemma Request.quota_step (hvalid : rule.isValid = true) (hc : q.controller = c)
    (hrule : ∀ g, q.grants.resolve c = .ok g → g.profile.quota = some rule) :
    TokenBucket.Step rule.toRule q.now.toNat (u.quotaLevel c)
      (if (q.handle explain u).result.isOk = true then (q.handle explain u).costSats else 0)
      ((q.handle explain u).usage.quotaLevel c) := by
  subst hc
  have hlevel : ∀ {r u' rule'}, u.limitRate q.controller q.name rule' q.now = (r, u') →
      u'.quotaLevel q.controller = u.quotaLevel q.controller := by
    intro r u' rule' hrate
    rw [Usage.quotaLevel, Usage.quota_of_limitRate hrate]
    rfl
  have hprofile : ∀ {profile rule'}, q.vet explain = .ok (profile, rule') →
      profile.quota = some rule := by
    intro profile rule' hvet
    obtain ⟨hok, rfl, _⟩ := Request.vet_eq_ok_iff.mp hvet
    obtain ⟨g, hg, hprofile⟩ := Request.exists_grant (Request.admission_holds hok).2.1
    rw [hprofile, hrule g hg]
  have hexit := q.exit explain u
  generalize q.handle explain u = out at hexit
  cases hexit with
  | refused => exact .idle _
  | limited _ _ _ _ _ hrate => rw [hlevel hrate]; exact .idle _
  | unprepared _ _ _ _ _ hrate => rw [hlevel hrate]; exact .idle _
  | overQuota profile _ prepared _ u' u'' hvet hrate _ hquota =>
    rw [hprofile hvet] at hquota
    rw [← hlevel hrate]
    exact Usage.step_limitQuota hquota
  | executed profile _ prepared u' u'' hvet hrate hprepare hquota =>
    rw [hprofile hvet] at hquota ⊢
    rw [← hlevel hrate]
    cases hresult : (q.dispatched explain).1 with
    | error e => exact Usage.step_limitQuota hquota
    | ok value =>
      have hcost : Outcome.costSats
          { result := .ok value
            usage := u''.commit q.controller prepared.costSats (some rule) q.now (.ok value)
            calls := q.prepareCall :: (q.dispatched explain).2 } = prepared.costSats.toNat := by
        simp [Outcome.costSats, Request.prepareCall, hprepare]
      rw [hcost]
      exact Usage.step_commit hvalid hquota value

/-- The rate step takes one token, or refuses and takes none. -/
lemma Usage.step_limitRate {u' : Usage} {now : UInt64} {r : Except NncError Unit}
    (hvalid : rule.isValid = true) (h : u.limitRate c m (some rule) now = (r, u')) :
    TokenBucket.Step rule.toRule now.toNat (u.rateLevel c m) (if r.isOk then 1 else 0)
      (u'.rateLevel c m) := by
  obtain ⟨hnone, _⟩ | ⟨_, hr, _, heq⟩ | ⟨_, v, hr, hcan, heq, _, hlookup⟩ :=
    u.limitRate_cases c m (some rule) now
  · cases hnone
  · cases hr
    rw [heq] at h
    cases h
    have hasked : (u.rateAllows c m rule now).2.rateLevel c m =
        some (u.rateBucket c m rule now).toLevel := by
      rw [Usage.rateLevel, Usage.lookup_rateAllows, if_pos rfl]
      rfl
    rw [hasked]
    exact step_getD _ now
  · cases hr
    rw [heq] at h
    cases h
    rw [Usage.rateLevel, Usage.rateLevel, hlookup, if_pos rfl]
    exact step_withdraw _ hvalid hcan

/-- **The rate, one request.** Whatever becomes of a request of `c` for `m`, its rate bucket takes
one step, of one token for each call of `prepare`. -/
lemma Request.rate_step (hvalid : rule.isValid = true) (hc : q.controller = c) (hm : q.name = m)
    (hrule : ∀ entry ∈ q.entry, entry.rate = some rule) :
    TokenBucket.Step rule.toRule q.now.toNat (u.rateLevel c m) (q.handle explain u).prepares
      ((q.handle explain u).usage.rateLevel c m) := by
  subst hc hm
  have hlimited : ∀ {profile rule' r u'}, q.vet explain = .ok (profile, rule') →
      u.limitRate q.controller q.name rule' q.now = (r, u') →
      TokenBucket.Step rule.toRule q.now.toNat (u.rateLevel q.controller q.name)
        (if r.isOk then 1 else 0) (u'.rateLevel q.controller q.name) := by
    intro profile rule' r u' hvet hrate
    obtain ⟨hok, _, rfl⟩ := Request.vet_eq_ok_iff.mp hvet
    obtain ⟨entry, hentry⟩ := Option.isSome_iff_exists.mp (Request.admission_holds hok).2.2.2.1
    rw [hentry, Option.bind_some, hrule entry hentry] at hrate
    exact Usage.step_limitRate hvalid hrate
  have hexit := q.exit explain u
  generalize q.handle explain u = out at hexit
  cases hexit with
  | refused => exact .idle _
  | limited _ _ _ _ hvet hrate => exact hlimited hvet hrate
  | unprepared _ _ _ _ hvet hrate => exact hlimited hvet hrate
  | overQuota _ _ _ _ _ _ hvet hrate _ hquota =>
    rw [Usage.rateLevel, Usage.rateLevel, Usage.rate_of_limitQuota hquota]
    exact hlimited hvet hrate
  | executed _ _ _ _ _ hvet hrate _ hquota =>
    rw [Usage.rateLevel, Usage.rateLevel, Usage.rate_commit, Usage.rate_of_limitQuota hquota,
      Outcome.prepares, prepares_of_dispatched]
    exact hlimited hvet hrate

/-! ### Whole runs -/

/-- The requests of a run come in the order they were made. -/
lemma pairwise_serve {qs : List Request} (u : Usage) (h : qs.Pairwise fun a b => a.now ≤ b.now)
    (cost : Request × Outcome → ℕ) :
    ((serve explain u qs).map fun x => (x.1.now.toNat, cost x)).Pairwise fun a b => a.1 ≤ b.1 := by
  have hfst : ∀ u, (serve explain u qs).map Prod.fst = qs := by
    clear h
    induction qs with
    | nil => intro u; rfl
    | cons q qs ih => intro u; rw [serve, List.map_cons, ih]
  rw [List.pairwise_map]
  rw [← hfst u, List.pairwise_map] at h
  exact h.imp fun hle => UInt64.le_iff_toNat_le.mp hle

/-- A run of requests is a run of a controller's quota bucket. -/
lemma run_quota (explain : Explain) {qs : List Request} (u : Usage) (hvalid : rule.isValid = true)
    (hrule : ∀ q ∈ qs, q.controller = c → ∀ g, q.grants.resolve c = .ok g →
      g.profile.quota = some rule) :
    TokenBucket.Run rule.toRule (u.quotaLevel c) ((serve explain u qs).map fun x =>
      (x.1.now.toNat,
        if x.1.controller = c ∧ x.2.result.isOk = true then x.2.costSats else 0)) := by
  induction qs generalizing u with
  | nil => exact .nil _
  | cons q qs ih =>
    refine .cons ?_ (ih (q.handle explain u).usage fun q hq => hrule q (by simp [hq]))
    by_cases hc : q.controller = c
    · simp only [hc, true_and]
      exact Request.quota_step hvalid hc (hrule q (by simp) hc)
    · have hframe : (q.handle explain u).usage.quotaLevel c = u.quotaLevel c := by
        rw [Usage.quotaLevel, q.quota_frame explain u fun h => hc (PublicKey.toHex_inj.mp h).symm]
        rfl
      simp only [hc, false_and, if_false, hframe]
      exact .idle _

/-- A run of requests is a run of the rate bucket of a controller and a method. -/
lemma run_rate (explain : Explain) {qs : List Request} (u : Usage) (hvalid : rule.isValid = true)
    (hrule : ∀ q ∈ qs, q.controller = c → q.name = m → ∀ entry ∈ q.entry,
      entry.rate = some rule) :
    TokenBucket.Run rule.toRule (u.rateLevel c m) ((serve explain u qs).map fun x =>
      (x.1.now.toNat, if x.1.controller = c ∧ x.1.name = m then x.2.prepares else 0)) := by
  induction qs generalizing u with
  | nil => exact .nil _
  | cons q qs ih =>
    refine .cons ?_ (ih (q.handle explain u).usage fun q hq => hrule q (by simp [hq]))
    by_cases hcm : q.controller = c ∧ q.name = m
    · simp only [hcm, and_self, if_true]
      exact Request.rate_step hvalid hcm.1 hcm.2 (hrule q (by simp) hcm.1 hcm.2)
    · have hframe : (q.handle explain u).usage.rateLevel c m = u.rateLevel c m := by
        rw [Usage.rateLevel, q.rate_frame explain u fun h => hcm ?_]
        · rfl
        · simp only [Prod.mk.injEq, PublicKey.toHex_inj] at h
          exact ⟨h.1.symm, h.2.symm⟩
      simp only [hcm, if_false, hframe]
      exact .idle _

/-- **The quota bounds spending.** In any run of requests, by whichever controllers, with whichever
handlers, what one controller pays within `[s, t]` is at most the ceiling of its quota and the
refill of that time. -/
theorem quota_bounds_spending (explain : Explain) (qs : List Request) (c : PublicKey)
    (rule : RateLimitRule) (hsorted : qs.Pairwise fun a b => a.now ≤ b.now)
    (hvalid : 0 < rule.perSecs)
    (hrule : ∀ q ∈ qs, q.controller = c → ∀ g, q.grants.resolve c = .ok g →
      g.profile.quota = some rule) (s t : ℕ) :
    spentBy c s t (serve explain Usage.new qs) ≤
      rule.maxCapacity.toNat + rule.amount.toNat * (t - s) / rule.perSecs.toNat := by
  have hvalid' : rule.isValid = true := by simpa [RateLimitRule.isValid] using hvalid
  have hrun := run_quota explain Usage.new hvalid' hrule
  have hbound := hrun.spent_le (pairwise_serve Usage.new hsorted _) s t
  rw [TokenBucket.spent_map] at hbound
  exact hbound

namespace Sample

/-- Ten calls a minute, three at once. -/
def callRate : RateLimitRule := { amount := 10, perSecs := 60, maxCapacity := 3 }

/-- Sixty satoshis a minute, a hundred at once. -/
def spendQuota : RateLimitRule := { amount := 60, perSecs := 60, maxCapacity := 100 }

/-- Anybody may call any wallet method, within the limits above. -/
def metered : Grants :=
  { Grants.new (key 1) [key 2] with
    others := some
      { profile :=
          { (default : UsageProfile) with
            methods := some (AList.singleton othersKey { rate := some callRate })
            quota := some spendQuota }
        createdAt := 1
        owner := key 2 } }

/-- A wallet that pays invoices at a price. -/
def payer (cost : UInt64) : Handler :=
  .wallet
    { methods := ["pay_invoice"]
      prepare := fun _ _ _ => .ok { costSats := cost }
      call := fun _ _ _ => .ok (.ok .null) }

/-- A payment that `key 4` asks for. -/
def payment (cost now : UInt64) : Request where
  handler := payer cost
  grants := metered
  controller := key 4
  requestId := none
  method := .fromStr "pay_invoice"
  params := .object [("invoice", .string "lnbc1")]
  now := now

/-- Five payments of forty: two are covered, the third is not; a token is short for the fourth; a
minute later there is enough again. -/
def payments : List Request :=
  [payment 40 100, payment 40 101, payment 40 102, payment 40 103, payment 40 160]

end Sample

open Sample in
/-- Three of the five payments go through, within the bound. -/
theorem quota_bounds_payments :
    spentBy (key 4) 100 160 (serve (fun _ _ => "") Usage.new payments) = 120 ∧
    spentBy (key 4) 100 160 (serve (fun _ _ => "") Usage.new payments) ≤ 100 + 60 * 60 / 60 := by
  refine ⟨by decide +kernel, quota_bounds_spending _ payments (key 4) spendQuota
    (by decide +kernel) (by decide) ?_ 100 160⟩
  intro q hq _ g hg
  have hgrants : q.grants = metered := by
    simp only [payments, List.mem_cons, List.not_mem_nil, or_false] at hq
    rcases hq with rfl | rfl | rfl | rfl | rfl <;> rfl
  rw [hgrants] at hg
  cases hg
  rfl

/-- **The rate bounds preparing.** In any run of requests, however each of them ends, `prepare` is
called for one controller and method within `[s, t]` at most as often as the ceiling of the rate
and the refill of that time allow. -/
theorem rate_bounds_preparing (explain : Explain) (qs : List Request) (c : PublicKey) (m : String)
    (rule : RateLimitRule) (hsorted : qs.Pairwise fun a b => a.now ≤ b.now)
    (hvalid : 0 < rule.perSecs)
    (hrule : ∀ q ∈ qs, q.controller = c → q.name = m → ∀ entry ∈ q.entry,
      entry.rate = some rule) (s t : ℕ) :
    preparedFor c m s t (serve explain Usage.new qs) ≤
      rule.maxCapacity.toNat + rule.amount.toNat * (t - s) / rule.perSecs.toNat := by
  have hvalid' : rule.isValid = true := by simpa [RateLimitRule.isValid] using hvalid
  have hrun := run_rate explain Usage.new hvalid' hrule
  have hbound := hrun.spent_le (pairwise_serve Usage.new hsorted _) s t
  rw [TokenBucket.spent_map] at hbound
  exact hbound

open Sample in
/-- Four of the five payments are prepared, one of them to be refused for its cost. -/
theorem rate_bounds_payments :
    preparedFor (key 4) "pay_invoice" 100 160 (serve (fun _ _ => "") Usage.new payments) = 4 ∧
    preparedFor (key 4) "pay_invoice" 100 160 (serve (fun _ _ => "") Usage.new payments) ≤
      3 + 10 * 60 / 60 := by
  refine ⟨by decide +kernel, rate_bounds_preparing _ payments (key 4) "pay_invoice" callRate
    (by decide +kernel) (by decide) ?_ 100 160⟩
  intro q hq _ _ entry hentry
  have hpayment : ∃ now, q = payment 40 now := by
    simp only [payments, List.mem_cons, List.not_mem_nil, or_false] at hq
    rcases hq with h | h | h | h | h <;> exact ⟨_, h⟩
  obtain ⟨now, rfl⟩ := hpayment
  have hrate : (payment 40 0).entry = some { rate := some callRate } := by decide +kernel
  rw [Option.mem_def, show (payment 40 now).entry = (payment 40 0).entry from rfl, hrate] at hentry
  cases hentry
  rfl

end NostrLn
