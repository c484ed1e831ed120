import NostrLn.Service.Budget

/-!
# What one request costs

Every exit of the pipeline, with what it leaves in the buckets: to the token, and to the satoshi.
The two checks may create a bucket; that a bucket is created full is seen by nobody. Only the two
charges change a bucket that is there, and both of them are made after the check they rely on.
-/

namespace NostrLn

open Serde

variable {explain : Explain} {q : Request} {u : Usage} {c : PublicKey}

/-- No bucket that was there has changed. -/
def Keeps {κ : Type} [DecidableEq κ] (before after : HashMap κ Bucket) : Prop :=
  ∀ k b, before.lookup k = some b → after.lookup k = some b

/-! ### The checks keep what is there -/

lemma Usage.keeps_rateAllows (u : Usage) (c : PublicKey) (m : String) (rule : RateLimitRule)
    (now : UInt64) : Keeps u.rate (u.rateAllows c m rule now).2.rate := by
  intro k b hb
  exact HashMap.lookup_orInsert_of_some hb ..

lemma Usage.keeps_quotaAllows (u : Usage) (c : PublicKey) (cost : UInt64) (rule : RateLimitRule)
    (now : UInt64) : Keeps u.quota (u.quotaAllows c cost rule now).2.quota := by
  intro k b hb
  exact HashMap.lookup_orInsert_of_some hb ..

lemma Usage.keeps_limitQuota {u' : Usage} {cost : UInt64} {quota : Option RateLimitRule}
    {now : UInt64} {r : Except NncError Unit} (h : u.limitQuota c cost quota now = (r, u')) :
    Keeps u.quota u'.quota := by
  obtain ⟨_, heq⟩ | ⟨rule, _, _, ⟨_, heq⟩ | ⟨_, heq⟩⟩ := u.limitQuota_cases c cost quota now
  · rw [heq] at h
    cases h
    exact fun _ _ hb => hb
  · rw [heq] at h
    cases h
    exact u.keeps_quotaAllows c cost rule now
  · rw [heq] at h
    cases h
    exact u.keeps_quotaAllows c cost rule now

/-! ### The charges -/

/-- A call that was allowed is charged, and the bucket is left one token short of its balance. -/
lemma Usage.chargeRate_of_allowed {m : String} {rule : RateLimitRule} {now : UInt64}
    (h : (u.rateAllows c m rule now).1 = true) :
    ((u.rateAllows c m rule now).2.chargeRate c m rule now).1 = true ∧
    1 ≤ (u.rateBucket c m rule now).balanceAt now rule ∧
    (u.limitRate c m (some rule) now).2.rate.lookup (c.toHex, m) = some
      { balance := (u.rateBucket c m rule now).balanceAt now rule - 1, since := now } := by
  have hcan : (u.rateBucket c m rule now).canWithdraw 1 now rule = true := by
    rw [← u.rateAllows_fst, h]
  have hbucket : (HashMap.orInsert (u.rateAllows c m rule now).2.rate (c.toHex, m)
      (Bucket.full rule now)).2 = u.rateBucket c m rule now := by
    rw [HashMap.orInsert_snd]
    exact u.rateBucket_rateAllows c m rule now
  refine ⟨?_, by simpa [Bucket.canWithdraw] using hcan, ?_⟩
  · simp only [Usage.chargeRate, hbucket, Bucket.withdraw_of_canWithdraw hcan]
  · obtain ⟨hnone, _⟩ | ⟨r, hr, hcannot, _⟩ | ⟨r, u', hr, _, heq, _, hlookup⟩ :=
      u.limitRate_cases c m (some rule) now
    · cases hnone
    · cases hr
      rw [hcan] at hcannot
      cases hcannot
    · cases hr
      rw [heq, hlookup, if_pos rfl]

/-- A cost that was covered is charged, and the bucket is left that much short of its balance. -/
lemma Usage.chargeQuota_of_covered {u' : Usage} {cost : UInt64} {rule : RateLimitRule}
    {now : UInt64} (hpos : 0 < cost) (h : u.limitQuota c cost (some rule) now = (.ok (), u')) :
    (u'.chargeQuota c cost rule now).1 = true ∧
    cost ≤ (u.quotaBucket c rule now).balanceAt now rule ∧
    (u'.chargeQuota c cost rule now).2.quota.lookup c.toHex = some
      { balance := (u.quotaBucket c rule now).balanceAt now rule - cost, since := now } := by
  obtain ⟨hfree | hfree, _⟩ | ⟨r, hr, _, ⟨_, heq⟩ | ⟨hcan, heq⟩⟩ :=
    u.limitQuota_cases c cost (some rule) now
  · rw [hfree] at hpos
    cases hpos
  · cases hfree
  · rw [heq] at h
    cases h
  · cases hr
    rw [heq] at h
    cases h
    have hbucket : (HashMap.orInsert (u.quotaAllows c cost rule now).2.quota c.toHex
        (Bucket.full rule now)).2 = u.quotaBucket c rule now := by
      rw [HashMap.orInsert_snd]
      exact u.quotaBucket_quotaAllows c cost rule now
    refine ⟨?_, by simpa [Bucket.canWithdraw] using hcan, ?_⟩
    · simp only [Usage.chargeQuota, hbucket, Bucket.withdraw_of_canWithdraw hcan]
    · rw [Usage.lookup_chargeQuota, if_pos rfl, Usage.quotaBucket_quotaAllows,
        Bucket.withdraw_of_canWithdraw hcan]

/-! ### One request -/

/-- A call beyond its rate is refused; a bucket may have been created for it. -/
lemma Request.handle_of_limited {profile : UsageProfile} {rule : RateLimitRule}
    (hvet : q.vet explain = .ok (profile, some rule))
    (h : (u.rateAllows q.controller q.name rule q.now).1 = false) :
    q.handle explain u =
      { result := .error (.rateLimited q.name)
        usage := (u.rateAllows q.controller q.name rule q.now).2
        calls := [] } := by
  have hname : q.name = q.method.asStr := rfl
  have hvet' : NostrLn.vet explain q.handler q.grants q.controller q.method q.params =
      .ok (profile, some rule) := hvet
  have hrate : u.limitRate q.controller q.method.asStr (some rule) q.now =
      (.error (.rateLimited q.name), (u.rateAllows q.controller q.name rule q.now).2) := by
    simp [← hname, Usage.limitRate, h]
  rw [Request.handle, NostrLn.handle]
  simp only [hvet', hrate]

/-- A request that fails, wherever it does, costs no satoshi. -/
lemma Request.keeps_quota_of_error {e : NncError} (h : (q.handle explain u).result = .error e) :
    Keeps u.quota (q.handle explain u).usage.quota := by
  have hexit := q.exit explain u
  generalize q.handle explain u = out at hexit h
  cases hexit with
  | refused => exact fun _ _ hb => hb
  | limited _ _ _ _ _ hrate => rw [Usage.quota_of_limitRate hrate]; exact fun _ _ hb => hb
  | unprepared _ _ _ _ _ hrate => rw [Usage.quota_of_limitRate hrate]; exact fun _ _ hb => hb
  | overQuota _ _ _ _ _ _ _ hrate _ hquota =>
    rw [← Usage.quota_of_limitRate hrate]
    exact Usage.keeps_limitQuota hquota
  | executed _ _ _ _ _ _ hrate _ hquota =>
    -- an execution that failed commits nothing
    simp only at h
    rw [← Usage.quota_of_limitRate hrate, h]
    exact Usage.keeps_limitQuota hquota

/-- A request that succeeds costs what was prepared, to the satoshi. -/
lemma Request.quota_of_ok {profile : UsageProfile} {rule : Option RateLimitRule}
    {prepared : Prepared} {quota : RateLimitRule} {value : Value}
    (hvet : q.vet explain = .ok (profile, rule)) (hprepared : q.prepared = .ok prepared)
    (hpos : 0 < prepared.costSats) (hquota : profile.quota = some quota)
    (h : (q.handle explain u).result = .ok value) :
    prepared.costSats ≤ (u.quotaBucket q.controller quota q.now).balanceAt q.now quota ∧
    (q.handle explain u).usage.quota.lookup q.controller.toHex = some
      { balance := (u.quotaBucket q.controller quota q.now).balanceAt q.now quota -
          prepared.costSats
        since := q.now } := by
  have hexit := q.exit explain u
  generalize q.handle explain u = out at hexit h
  cases hexit with
  | refused => cases h
  | limited => cases h
  | unprepared => cases h
  | overQuota => cases h
  | executed _ _ _ u' u'' hvet' hrate hprepared' hcovered =>
    rw [hvet] at hvet'
    cases hvet'
    rw [hprepared] at hprepared'
    cases hprepared'
    simp only at h
    rw [hquota] at hcovered ⊢
    obtain ⟨_, hle, hlookup⟩ := Usage.chargeQuota_of_covered hpos hcovered
    have hkept : u'.quota.lookup q.controller.toHex = u.quota.lookup q.controller.toHex := by
      rw [Usage.quota_of_limitRate hrate]
    rw [Usage.quotaBucket_congr hkept] at hle hlookup
    refine ⟨hle, ?_⟩
    simpa only [Usage.commit, h, hpos, if_true] using hlookup

/-- **Exact accounting.** A request refused at admission changes nothing. One refused at its rate
changes no bucket that is there; one that passes its rate leaves that bucket one token short of its
balance. One that fails later changes no quota bucket that is there; one that succeeds at a cost
leaves the quota that much short of its balance. The charges are made only where they succeed, and
nobody else's bucket changes, nor that of another method. -/
theorem request_accounting (explain : Explain) (q : Request) (u : Usage) :
    (∀ e, q.vet explain = .error e →
      (q.handle explain u).result = .error e ∧ (q.handle explain u).usage = u) ∧
    (∀ profile rule, q.vet explain = .ok (profile, some rule) →
      ((u.rateAllows q.controller q.name rule q.now).1 = false →
        (q.handle explain u).result = .error (.rateLimited q.name) ∧
        Keeps u.rate (q.handle explain u).usage.rate ∧
        Keeps u.quota (q.handle explain u).usage.quota) ∧
      ((u.rateAllows q.controller q.name rule q.now).1 = true →
        1 ≤ (u.rateBucket q.controller q.name rule q.now).balanceAt q.now rule ∧
        (q.handle explain u).usage.rate.lookup (q.controller.toHex, q.name) = some
          { balance := (u.rateBucket q.controller q.name rule q.now).balanceAt q.now rule - 1
            since := q.now } ∧
        ((u.rateAllows q.controller q.name rule q.now).2.chargeRate q.controller q.name rule
          q.now).1 = true)) ∧
    (∀ e, (q.handle explain u).result = .error e →
      Keeps u.quota (q.handle explain u).usage.quota) ∧
    (∀ profile rule prepared quota, q.vet explain = .ok (profile, rule) →
      q.prepared = .ok prepared → 0 < prepared.costSats → profile.quota = some quota →
      (∀ value, (q.handle explain u).result = .ok value →
        prepared.costSats ≤ (u.quotaBucket q.controller quota q.now).balanceAt q.now quota ∧
        (q.handle explain u).usage.quota.lookup q.controller.toHex = some
          { balance := (u.quotaBucket q.controller quota q.now).balanceAt q.now quota -
              prepared.costSats
            since := q.now }) ∧
      ∀ u' u'', u.limitRate q.controller q.name rule q.now = (.ok (), u') →
        u'.limitQuota q.controller prepared.costSats profile.quota q.now = (.ok (), u'') →
        (u''.chargeQuota q.controller prepared.costSats quota q.now).1 = true) ∧
    (∀ k, k ≠ q.controller.toHex →
      (q.handle explain u).usage.quota.lookup k = u.quota.lookup k) ∧
    ∀ k, k ≠ (q.controller.toHex, q.name) →
      (q.handle explain u).usage.rate.lookup k = u.rate.lookup k := by
  refine ⟨?_, ?_, fun e => Request.keeps_quota_of_error, ?_, fun k => q.quota_frame explain u,
    fun k => q.rate_frame explain u⟩
  · intro e hvet
    simp [Request.handle_of_not_admitted hvet]
  · intro profile rule hvet
    constructor
    · intro hlimited
      rw [Request.handle_of_limited hvet hlimited]
      exact ⟨rfl, u.keeps_rateAllows q.controller q.name rule q.now, fun _ _ hb => hb⟩
    · intro hallowed
      obtain ⟨hcharged, hle, hlookup⟩ := Usage.chargeRate_of_allowed hallowed
      exact ⟨hle, by rw [Request.rate_of_vetted hvet, hlookup], hcharged⟩
  · intro profile rule prepared quota hvet hprepared hpos hquota
    refine ⟨fun value => Request.quota_of_ok hvet hprepared hpos hquota, ?_⟩
    intro u' u'' _ hcovered
    rw [hquota] at hcovered
    exact (Usage.chargeQuota_of_covered hpos hcovered).1

open Sample in
/-- A payment of forty out of a full quota of a hundred, and the first of three calls. -/
theorem request_accounting_payment :
    ((payment 40 100).handle (fun _ _ => "") Usage.new).usage.rate.lookup
        ((key 4).toHex, "pay_invoice") = some { balance := 2, since := 100 } ∧
    ((payment 40 100).handle (fun _ _ => "") Usage.new).usage.quota.lookup (key 4).toHex =
      some { balance := 60, since := 100 } := by
  obtain ⟨_, hrate, _, hquota, _⟩ :=
    request_accounting (fun _ _ => "") (payment 40 100) Usage.new
  have hvet : ∃ profile, (payment 40 100).vet (fun _ _ => "") = .ok (profile, some callRate) ∧
      profile.quota = some spendQuota := ⟨_, rfl, rfl⟩
  obtain ⟨profile, hvet, hspend⟩ := hvet
  refine ⟨((hrate profile callRate hvet).2 (by decide +kernel)).2.1, ?_⟩
  exact ((hquota profile (some callRate) ⟨40⟩ spendQuota hvet rfl (by decide) hspend).1 .null
    rfl).2

end NostrLn
