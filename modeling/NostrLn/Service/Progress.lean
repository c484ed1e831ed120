import NostrLn.Service.Budget
import NostrLn.Service.Isolation

/-!
# Whoever waits is served

A limit defers a request, it does not lock anybody out. Whatever a controller has done, and whatever
rules it did it under, the buckets that count for it are as of its last request at the latest. By
then they may be empty; what has been refilled since is there for the next request, up to the
ceiling, even if the rule is a new one.
-/

namespace NostrLn

open Serde

variable {explain : Explain} {q : Request} {u : Usage} {c : PublicKey}

/-- No bucket of the controller is as of a time after `t`. -/
structure Usage.AsOf (u : Usage) (c : PublicKey) (t : ℕ) : Prop where
  rate : ∀ m b, u.rate.lookup (c.toHex, m) = some b → b.since.toNat ≤ t
  quota : ∀ b, u.quota.lookup c.toHex = some b → b.since.toNat ≤ t

/-! ### One request -/

/-- A bucket that governs was there, or is full as of now. -/
lemma getD_full_eq {o : Option Bucket} {rule : RateLimitRule} {now : UInt64} {b : Bucket}
    (h : o.getD (Bucket.full rule now) = b) : o = some b ∨ b.since = now := by
  cases o with
  | none => exact .inr (h ▸ rfl)
  | some b' => exact .inl (congrArg some h)

lemma Usage.since_of_limitRate {u' : Usage} {m : String} {rule : Option RateLimitRule}
    {now : UInt64} {r : Except NncError Unit} (h : u.limitRate c m rule now = (r, u'))
    {k : String × String} {b : Bucket} (hb : u'.rate.lookup k = some b) :
    u.rate.lookup k = some b ∨ b.since = now := by
  obtain ⟨_, heq⟩ | ⟨rule, _, _, heq⟩ | ⟨_, _, _, _, heq, _, hlookup⟩ :=
    u.limitRate_cases c m rule now
  · rw [heq] at h
    cases h
    exact .inl hb
  · rw [heq] at h
    cases h
    rw [Usage.lookup_rateAllows] at hb
    split_ifs at hb with hk
    · rw [hk]
      exact getD_full_eq (Option.some.inj hb)
    · exact .inl hb
  · rw [heq] at h
    cases h
    rw [hlookup] at hb
    split_ifs at hb with hk
    · cases hb
      exact .inr rfl
    · exact .inl hb

lemma Usage.since_of_limitQuota {u' : Usage} {cost now : UInt64} {quota : Option RateLimitRule}
    {r : Except NncError Unit} (h : u.limitQuota c cost quota now = (r, u')) {k : String}
    {b : Bucket} (hb : u'.quota.lookup k = some b) :
    u.quota.lookup k = some b ∨ b.since = now := by
  have hasked : ∀ {rule}, (u.quotaAllows c cost rule now).2.quota.lookup k = some b →
      u.quota.lookup k = some b ∨ b.since = now := by
    intro rule hb
    rw [Usage.lookup_quotaAllows] at hb
    split_ifs at hb with hk
    · rw [hk]
      exact getD_full_eq (Option.some.inj hb)
    · exact .inl hb
  obtain ⟨_, heq⟩ | ⟨_, _, _, ⟨_, heq⟩ | ⟨_, heq⟩⟩ := u.limitQuota_cases c cost quota now
  · rw [heq] at h
    cases h
    exact .inl hb
  · rw [heq] at h
    cases h
    exact hasked hb
  · rw [heq] at h
    cases h
    exact hasked hb

lemma Usage.since_commit {cost now : UInt64} {quota : Option RateLimitRule}
    {result : Except NncError Value} {k : String} {b : Bucket}
    (hb : (u.commit c cost quota now result).quota.lookup k = some b) :
    u.quota.lookup k = some b ∨ b.since = now := by
  have hcharged : ∀ {rule}, (u.chargeQuota c cost rule now).2.quota.lookup k = some b →
      u.quota.lookup k = some b ∨ b.since = now := by
    intro rule hb
    rw [Usage.lookup_chargeQuota] at hb
    split_ifs at hb with hk
    · obtain ⟨_, heq⟩ | ⟨_, heq⟩ := (u.quotaBucket c rule now).withdraw_cases cost now rule
      · rw [heq] at hb
        cases hb
        exact .inr rfl
      · rw [heq] at hb
        rw [hk]
        exact getD_full_eq (Option.some.inj hb)
    · exact .inl hb
  simp only [Usage.commit] at hb
  split at hb
  · split at hb
    · split at hb
      · exact .inl hb
      · exact hcharged hb
    · exact .inl hb
  · exact .inl hb

/-- A request leaves no bucket but those that were there, and some that are as of the request. -/
lemma Request.since_handle (explain : Explain) (q : Request) (u : Usage) :
    (∀ k b, (q.handle explain u).usage.rate.lookup k = some b →
      u.rate.lookup k = some b ∨ b.since = q.now) ∧
    ∀ k b, (q.handle explain u).usage.quota.lookup k = some b →
      u.quota.lookup k = some b ∨ b.since = q.now := by
  have hexit := q.exit explain u
  generalize q.handle explain u = out at hexit
  cases hexit with
  | refused => exact ⟨fun _ _ => .inl, fun _ _ => .inl⟩
  | limited _ _ _ _ _ hrate =>
    refine ⟨fun _ _ => Usage.since_of_limitRate hrate, ?_⟩
    rw [Usage.quota_of_limitRate hrate]
    exact fun _ _ => .inl
  | unprepared _ _ _ _ _ hrate =>
    refine ⟨fun _ _ => Usage.since_of_limitRate hrate, ?_⟩
    rw [Usage.quota_of_limitRate hrate]
    exact fun _ _ => .inl
  | overQuota _ _ _ _ _ _ _ hrate _ hquota =>
    rw [Usage.rate_of_limitQuota hquota, ← Usage.quota_of_limitRate hrate]
    exact ⟨fun _ _ => Usage.since_of_limitRate hrate, fun _ _ => Usage.since_of_limitQuota hquota⟩
  | executed _ _ _ _ _ _ hrate _ hquota =>
    rw [Usage.rate_commit, Usage.rate_of_limitQuota hquota, ← Usage.quota_of_limitRate hrate]
    refine ⟨fun _ _ => Usage.since_of_limitRate hrate, ?_⟩
    intro k b hb
    rcases Usage.since_commit hb with hb | hb
    · exact Usage.since_of_limitQuota hquota hb
    · exact .inr hb

/-! ### Whole runs -/

variable {t : ℕ}

lemma Usage.AsOf.handle (h : u.AsOf c t) (hown : q.controller = c → q.now.toNat ≤ t) :
    (q.handle explain u).usage.AsOf c t := by
  obtain ⟨hrate, hquota⟩ := q.since_handle explain u
  by_cases hc : q.controller = c
  · constructor
    · intro m b hb
      rcases hrate _ _ hb with hold | hnow
      · exact h.rate m b hold
      · rw [hnow]
        exact hown hc
    · intro b hb
      rcases hquota _ _ hb with hold | hnow
      · exact h.quota b hold
      · rw [hnow]
        exact hown hc
  · have hkey : c.toHex ≠ q.controller.toHex := fun hkey => hc (PublicKey.toHex_inj.mp hkey).symm
    constructor
    · intro m b hb
      rw [q.rate_frame explain u fun hk => hkey (congrArg Prod.fst hk)] at hb
      exact h.rate m b hb
    · intro b hb
      rw [q.quota_frame explain u hkey] at hb
      exact h.quota b hb

/-- After any run, the buckets of a controller are as of its last request at the latest. -/
lemma Usage.AsOf.usageAfter {qs : List Request} (h : u.AsOf c t)
    (hown : ∀ q ∈ qs, q.controller = c → q.now.toNat ≤ t) :
    (usageAfter explain u qs).AsOf c t := by
  induction qs generalizing u with
  | nil => exact h
  | cons q qs ih =>
    exact ih (h.handle (hown q (by simp))) fun q hq => hown q (by simp [hq])

lemma Usage.asOf_new (c : PublicKey) (t : ℕ) : Usage.new.AsOf c t where
  rate m b hb := by simp [Usage.new] at hb
  quota b hb := by simp [Usage.new] at hb

/-! ### What there is for the next request -/

/-- What was refilled since is there. -/
lemma canWithdraw_getD {o : Option Bucket} (ho : ∀ b, o = some b → b.since.toNat ≤ t)
    {rule : RateLimitRule} {cost now : UInt64} (hcost : cost ≠ 0) (hcap : cost ≤ rule.maxCapacity)
    (hrefill : cost.toNat ≤ rule.amount.toNat * (now.toNat - t) / rule.perSecs.toNat) :
    (o.getD (Bucket.full rule now)).canWithdraw cost now rule = true := by
  have hcap' : cost.toNat ≤ rule.toRule.cap := UInt64.le_iff_toNat_le.mp hcap
  have hvalid : rule.isValid = true := by
    -- nothing is refilled by a rule that is not valid
    rw [RateLimitRule.isValid, decide_eq_true_iff, UInt64.pos_iff_ne_zero]
    intro hper
    rw [hper, UInt64.toNat_zero, Nat.div_zero, Nat.le_zero] at hrefill
    exact hcost (UInt64.toNat_inj.mp hrefill)
  rw [Bucket.canWithdraw, decide_eq_true_iff, UInt64.le_iff_toNat_le,
    Bucket.balanceAt_toNat _ _ hvalid, level_getD o hvalid]
  cases o with
  | none => exact hcap'
  | some b =>
    have hmono := rule.toRule.refill_mono (Nat.sub_le_sub_left (ho b rfl) now.toNat)
    refine Nat.le_min.mpr ⟨?_, hcap'⟩
    calc cost.toNat
        ≤ rule.toRule.refill (now.toNat - t) := hrefill
      _ ≤ rule.toRule.refill (now.toNat - b.since.toNat) := hmono
      _ ≤ b.balance.toNat + rule.toRule.refill (now.toNat - b.since.toNat) := Nat.le_add_left _ _

/-- **Whoever waits is served.** Let any requests have been served, under any grants and at any
times, those of one controller at `t` at the latest. If it then makes a request that is permitted
and well formed, and since `t` its rate has refilled by one call and its quota by the cost, which
are within their ceilings, the request is executed. -/
theorem waiting_is_served (explain : Explain) (qs : List Request) (q : Request) (t : ℕ)
    (profile : UsageProfile) (rule : Option RateLimitRule) (prepared : Prepared)
    (hown : ∀ p ∈ qs, p.controller = q.controller → p.now.toNat ≤ t)
    (hvet : q.vet explain = .ok (profile, rule))
    (hrate : ∀ r ∈ rule, 1 ≤ r.maxCapacity ∧
      1 ≤ r.amount.toNat * (q.now.toNat - t) / r.perSecs.toNat)
    (hprepared : q.prepared = .ok prepared)
    (hquota : ∀ r ∈ profile.quota, prepared.costSats ≤ r.maxCapacity ∧
      prepared.costSats.toNat ≤ r.amount.toNat * (q.now.toNat - t) / r.perSecs.toNat) :
    (q.handle explain (usageAfter explain Usage.new qs)).result = (q.dispatched explain).1 ∧
    (q.handle explain (usageAfter explain Usage.new qs)).calls =
      q.prepareCall :: (q.dispatched explain).2 := by
  have hasOf : (usageAfter explain Usage.new qs).AsOf q.controller t :=
    (Usage.asOf_new _ t).usageAfter hown
  generalize usageAfter explain Usage.new qs = u at hasOf
  have hexit := q.exit explain u
  generalize q.handle explain u = out at hexit
  cases hexit with
  | refused _ hrefused =>
    rw [hvet] at hrefused
    cases hrefused
  | limited _ _ _ _ hvet' hlimited =>
    rw [hvet] at hvet'
    cases hvet'
    obtain ⟨_, heq⟩ | ⟨r, rfl, hcannot, _⟩ | ⟨_, _, _, _, heq, _⟩ :=
      u.limitRate_cases q.controller q.name rule q.now
    · rw [heq] at hlimited
      cases hlimited
    · obtain ⟨hcap, hrefill⟩ := hrate r rfl
      have hcan := canWithdraw_getD (hasOf.rate q.name) (by decide) hcap hrefill
      rw [Usage.rateBucket, hcan] at hcannot
      cases hcannot
    · rw [heq] at hlimited
      cases hlimited
  | unprepared _ _ _ _ _ _ hunprepared =>
    rw [hprepared] at hunprepared
    cases hunprepared
  | overQuota _ _ _ _ u' _ hvet' hlimited hprepared' hover =>
    rw [hvet] at hvet'
    cases hvet'
    rw [hprepared] at hprepared'
    cases hprepared'
    refine absurd ?_ (Usage.limitQuota_eq_error hover).1
    rw [Usage.covers_iff_of_quota_eq (Usage.quota_of_limitRate hlimited)]
    by_cases hcost : prepared.costSats = 0
    · exact .inl hcost
    · right
      intro r hr
      obtain ⟨hcap, hrefill⟩ := hquota r hr
      exact of_decide_eq_true (canWithdraw_getD hasOf.quota hcost hcap hrefill)
  | executed => exact ⟨rfl, rfl⟩

namespace Sample

/-- What anybody is permitted by `metered`. -/
def meteredProfile : UsageProfile :=
  { (default : UsageProfile) with
    methods := some (AList.singleton othersKey { rate := some callRate })
    quota := some spendQuota }

end Sample

open Sample in
/-- After all those payments, and a hundred seconds, another one goes through. -/
theorem payment_served_after_waiting :
    ((payment 40 260).handle (fun _ _ => "")
      (usageAfter (fun _ _ => "") Usage.new payments)).result = .ok .null := by
  have hvet : (payment 40 260).vet (fun _ _ => "") = .ok (meteredProfile, some callRate) := rfl
  refine (waiting_is_served (fun _ _ => "") payments (payment 40 260) 160 meteredProfile
    (some callRate) { costSats := 40 } (by decide +kernel) hvet ?_ rfl ?_).1
  · intro r hr
    cases hr
    decide
  · intro r hr
    cases hr
    decide

end NostrLn
