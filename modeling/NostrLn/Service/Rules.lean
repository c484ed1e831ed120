import NostrLn.Service.Mediation
import NostrLn.Service.Republish

/-!
# The rules buckets are asked about

The refill is exact under every rule with a period. A rule without one is answered with nothing by
the bucket; the pipeline never gets as far as asking, because the profile that carries such a rule
is refused as a whole.
-/

namespace NostrLn

open Serde

/-! ### The arithmetic -/

/-- The refill is computed without loss. -/
structure Bucket.RefillExact (b : Bucket) (rule : RateLimitRule) (now : UInt64) : Prop where
  /-- The product is not cut off. -/
  product : saturatingMul128 rule.amount.toNat (saturatingSub now b.since).toNat =
    rule.amount.toNat * (now.toNat - b.since.toNat)
  /-- Nor is the sum. -/
  sum : saturatingAdd128 b.balance.toNat
      (saturatingMul128 rule.amount.toNat (saturatingSub now b.since).toNat / rule.perSecs.toNat) =
    b.balance.toNat + rule.amount.toNat * (now.toNat - b.since.toNat) / rule.perSecs.toNat
  /-- What is cast back is a `u64`. -/
  fits : min (b.balance.toNat + rule.amount.toNat * (now.toNat - b.since.toNat) /
    rule.perSecs.toNat) rule.maxCapacity.toNat < 2 ^ 64
  /-- The balance is the formula's, over the natural numbers. -/
  value : (b.balanceAt now rule).toNat = min (b.balance.toNat +
    rule.amount.toNat * (now.toNat - b.since.toNat) / rule.perSecs.toNat) rule.maxCapacity.toNat

/-- A withdrawal is made exactly if it is covered, and what is left and what was taken then add up
to what there was. -/
structure Bucket.WithdrawExact (b : Bucket) (rule : RateLimitRule) (cost now : UInt64) : Prop where
  covered : (b.withdraw cost now rule).1 = true ↔ cost.toNat ≤ (b.balanceAt now rule).toNat
  taken : (b.withdraw cost now rule).1 = true →
    (b.withdraw cost now rule).2.balance.toNat + cost.toNat = (b.balanceAt now rule).toNat
  refused : (b.withdraw cost now rule).1 = false → (b.withdraw cost now rule).2 = b

lemma Bucket.refillExact (b : Bucket) {rule : RateLimitRule} (hper : 0 < rule.perSecs)
    (now : UInt64) : b.RefillExact rule now where
  product := by rw [saturatingMul128_toNat, toNat_saturatingSub]
  sum := by rw [saturatingMul128_toNat, saturatingAdd128_toNat, toNat_saturatingSub]
  fits := lt_of_le_of_lt (min_le_right _ _) rule.maxCapacity.toNat_lt
  value := b.balanceAt_toNat now (by simpa [RateLimitRule.isValid] using hper)

lemma Bucket.withdrawExact (b : Bucket) (rule : RateLimitRule) (cost now : UInt64) :
    b.WithdrawExact rule cost now := by
  obtain ⟨hcan, heq⟩ | ⟨hcan, heq⟩ := b.withdraw_cases cost now rule
  · have hle : cost ≤ b.balanceAt now rule := by simpa [Bucket.canWithdraw] using hcan
    have hnat := UInt64.le_iff_toNat_le.mp hle
    constructor
    · simp [heq, hnat]
    · intro _
      rw [heq]
      simp only
      rw [UInt64.toNat_sub_of_le _ _ hle, Nat.sub_add_cancel hnat]
    · intro h
      rw [heq] at h
      cases h
  · have hlt : b.balanceAt now rule < cost := by simpa [Bucket.canWithdraw] using hcan
    constructor
    · simp [heq, UInt64.lt_iff_toNat_lt.mp hlt]
    · intro h
      rw [heq] at h
      cases h
    · intro _
      rw [heq]

/-- A bucket that is left alone never holds less later. -/
lemma Bucket.balanceAt_mono (b : Bucket) {rule : RateLimitRule} (hper : 0 < rule.perSecs)
    {now later : UInt64} (h : now ≤ later) : b.balanceAt now rule ≤ b.balanceAt later rule := by
  have hvalid : rule.isValid = true := by simpa [RateLimitRule.isValid] using hper
  rw [UInt64.le_iff_toNat_le, b.balanceAt_toNat now hvalid, b.balanceAt_toNat later hvalid]
  have helapsed : now.toNat - b.since.toNat ≤ later.toNat - b.since.toNat :=
    Nat.sub_le_sub_right (UInt64.le_iff_toNat_le.mp h) _
  exact min_le_min_right _ (Nat.add_le_add_left (rule.toRule.refill_mono helapsed) _)

/-! ### The calls a request makes -/

/-- The calls of the rate step. -/
def Usage.rateCalls (u : Usage) (controller : PublicKey) (name : String)
    (rule : Option RateLimitRule) (now : UInt64) : List LimitCall :=
  match rule with
  | none => []
  | some rule =>
    if (u.rateAllows controller name rule now).1 then
      [.rateAllows controller name rule now, .chargeRate controller name rule now]
    else [.rateAllows controller name rule now]

/-- The call of the quota step. -/
def quotaCalls (controller : PublicKey) (cost : UInt64) (quota : Option RateLimitRule)
    (now : UInt64) : List LimitCall :=
  if 0 < cost then
    match quota with
    | none => []
    | some rule => [.quotaAllows controller cost rule now]
  else []

/-- The call of the commit. -/
def commitCalls (controller : PublicKey) (cost : UInt64) (quota : Option RateLimitRule)
    (now : UInt64) (result : Except NncError Value) : List LimitCall :=
  match result with
  | .ok _ =>
    if 0 < cost then
      match quota with
      | none => []
      | some rule => [.chargeQuota controller cost rule now]
    else []
  | .error _ => []

/-- The calls on the buckets a request makes, in order, step by step as far as it gets. -/
def Request.limitCalls (explain : Explain) (q : Request) (u : Usage) : List LimitCall :=
  match q.vet explain with
  | .error _ => []
  | .ok (profile, rule) =>
    let asked := u.rateCalls q.controller q.name rule q.now
    match u.limitRate q.controller q.name rule q.now with
    | (.error _, _) => asked
    | (.ok (), u) =>
      match q.prepared with
      | .error _ => asked
      | .ok prepared =>
        let asked := asked ++ quotaCalls q.controller prepared.costSats profile.quota q.now
        match u.limitQuota q.controller prepared.costSats profile.quota q.now with
        | (.error _, _) => asked
        | (.ok (), _) =>
          asked ++ commitCalls q.controller prepared.costSats profile.quota q.now
            (q.dispatched explain).1

variable {u : Usage} {q : Request} {explain : Explain} {call : LimitCall}

lemma Usage.limitRate_snd (u : Usage) (c : PublicKey) (m : String) (rule : Option RateLimitRule)
    (now : UInt64) :
    (u.limitRate c m rule now).2 = u.afterCalls (u.rateCalls c m rule now) := by
  match rule with
  | none => rfl
  | some rule =>
    simp only [Usage.limitRate, Usage.rateCalls]
    cases (u.rateAllows c m rule now).1 with
    | false => rfl
    | true => rfl

lemma Usage.limitQuota_snd (u : Usage) (c : PublicKey) (cost : UInt64)
    (quota : Option RateLimitRule) (now : UInt64) :
    (u.limitQuota c cost quota now).2 = u.afterCalls (quotaCalls c cost quota now) := by
  simp only [Usage.limitQuota, quotaCalls]
  split
  · cases quota with
    | none => rfl
    | some rule =>
      simp only
      cases (u.quotaAllows c cost rule now).1 with
      | false => rfl
      | true => rfl
  · rfl

lemma Usage.commit_eq (u : Usage) (c : PublicKey) (cost : UInt64) (quota : Option RateLimitRule)
    (now : UInt64) (result : Except NncError Value) :
    u.commit c cost quota now result = u.afterCalls (commitCalls c cost quota now result) := by
  cases result with
  | error _ => rfl
  | ok _ =>
    simp only [Usage.commit, commitCalls]
    split
    · cases quota with
      | none => rfl
      | some rule => rfl
    · rfl

lemma Usage.afterCalls_append (u : Usage) (calls later : List LimitCall) :
    u.afterCalls (calls ++ later) = (u.afterCalls calls).afterCalls later :=
  List.foldl_append ..

/-- The buckets after a request are those its calls leave. -/
lemma Request.usage_handle (explain : Explain) (q : Request) (u : Usage) :
    (q.handle explain u).usage = u.afterCalls (q.limitCalls explain u) := by
  have hexit := q.exit explain u
  generalize q.handle explain u = out at hexit
  cases hexit with
  | refused e hvet =>
    simp only [Request.limitCalls, hvet]
    rfl
  | limited profile rule e u' hvet hrate =>
    simp only [Request.limitCalls, hvet, hrate]
    rw [← Usage.limitRate_snd, hrate]
  | unprepared profile rule e u' hvet hrate hprepare =>
    simp only [Request.limitCalls, hvet, hrate, hprepare]
    rw [← Usage.limitRate_snd, hrate]
  | overQuota profile rule prepared e u' u'' hvet hrate hprepare hquota =>
    simp only [Request.limitCalls, hvet, hrate, hprepare, hquota]
    rw [Usage.afterCalls_append, ← Usage.limitRate_snd, hrate, ← Usage.limitQuota_snd, hquota]
  | executed profile rule prepared u' u'' hvet hrate hprepare hquota =>
    simp only [Request.limitCalls, hvet, hrate, hprepare, hquota]
    rw [Usage.afterCalls_append, Usage.afterCalls_append, ← Usage.limitRate_snd, hrate,
      ← Usage.limitQuota_snd, hquota, Usage.commit_eq]

/-! ### Where their rules come from -/

lemma Usage.rule_of_mem_rateCalls {c : PublicKey} {m : String} {rule : Option RateLimitRule}
    {now : UInt64} (h : call ∈ u.rateCalls c m rule now) : rule = some call.rule := by
  match rule with
  | none => cases h
  | some rule =>
    simp only [Usage.rateCalls] at h
    split at h
    · obtain rfl | rfl := List.mem_pair.mp h
      · rfl
      · rfl
    · rw [List.mem_singleton.mp h]
      rfl

lemma rule_of_mem_quotaCalls {c : PublicKey} {cost now : UInt64} {quota : Option RateLimitRule}
    (h : call ∈ quotaCalls c cost quota now) : quota = some call.rule := by
  simp only [quotaCalls] at h
  split at h
  · match quota with
    | none => cases h
    | some rule =>
      rw [List.mem_singleton.mp h]
      rfl
  · cases h

lemma rule_of_mem_commitCalls {c : PublicKey} {cost now : UInt64} {quota : Option RateLimitRule}
    {result : Except NncError Value} (h : call ∈ commitCalls c cost quota now result) :
    quota = some call.rule := by
  match result with
  | .error _ => cases h
  | .ok _ =>
    simp only [commitCalls] at h
    split at h
    · match quota with
      | none => cases h
      | some rule =>
        rw [List.mem_singleton.mp h]
        rfl
    · cases h

/-- A request asks about the rate of the entry that admitted it and the quota of its profile. -/
lemma Request.rule_of_mem_limitCalls (h : call ∈ q.limitCalls explain u) :
    ∃ profile rule, q.vet explain = .ok (profile, rule) ∧
      (rule = some call.rule ∨ profile.quota = some call.rule) := by
  rw [Request.limitCalls] at h
  split at h
  · cases h
  · rename_i profile rule hvet
    refine ⟨profile, rule, hvet, ?_⟩
    simp only at h
    split at h
    · exact .inl (Usage.rule_of_mem_rateCalls h)
    · split at h
      · exact .inl (Usage.rule_of_mem_rateCalls h)
      · split at h
        · obtain h | h := List.mem_append.mp h
          · exact .inl (Usage.rule_of_mem_rateCalls h)
          · exact .inr (rule_of_mem_quotaCalls h)
        · obtain h | h := List.mem_append.mp h
          · obtain h | h := List.mem_append.mp h
            · exact .inl (Usage.rule_of_mem_rateCalls h)
            · exact .inr (rule_of_mem_quotaCalls h)
          · exact .inr (rule_of_mem_commitCalls h)

/-- The rate rule of a request comes from a map of its profile. -/
lemma Request.perSecs_of_entry (hvalid : q.profile.isValid = true) {rule : RateLimitRule}
    (h : q.entry.bind MethodAccessRule.rate = some rule) : 0 < rule.perSecs := by
  obtain ⟨entry, hentry, hrate⟩ := Option.bind_eq_some_iff.mp h
  obtain ⟨map, hmap, hlookup⟩ := Option.bind_eq_some_iff.mp hentry
  have hmem : some map ∈ [q.profile.methods, q.profile.control, q.profile.notifications] := by
    rw [← hmap, Handler.accessMap]
    split <;> simp
  obtain ⟨hrules, _⟩ := UsageProfile.isValid_iff.mp hvalid
  obtain hname | ⟨_, hothers⟩ := Option.or_eq_some_iff.mp hlookup
  · exact hrules _ hmem map rfl q.name entry hname rule hrate
  · exact hrules _ hmem map rfl othersKey entry hothers rule hrate

/-- Every rule a request asks about stands in the valid profile it was admitted under. -/
lemma Request.rule_of_call (h : call ∈ q.limitCalls explain u) :
    q.profile.isValid = true ∧
      (q.entry.bind MethodAccessRule.rate = some call.rule ∨ q.profile.quota = some call.rule) := by
  obtain ⟨profile, rule, hvet, hrule⟩ := Request.rule_of_mem_limitCalls h
  obtain ⟨hadmitted, rfl, rfl⟩ := Request.vet_eq_ok_iff.mp hvet
  obtain ⟨_, _, hvalid, _, _⟩ := Request.admission_holds hadmitted
  exact ⟨hvalid, hrule⟩

lemma Request.perSecs_of_call (h : call ∈ q.limitCalls explain u) : 0 < call.rule.perSecs := by
  obtain ⟨hvalid, hrate | hquota⟩ := Request.rule_of_call h
  · exact Request.perSecs_of_entry hvalid hrate
  · exact (UsageProfile.isValid_iff.mp hvalid).2 call.rule hquota

/-- **The refill is exact.** Under a rule with a period nothing saturates, the balance is the
formula's and does not fall with time, and no withdrawal takes more than there is; and the rules
that a request's calls on the buckets are made under all have one. -/
theorem refill_exact (rule : RateLimitRule) (hper : 0 < rule.perSecs) (b : Bucket)
    (cost now : UInt64) :
    b.RefillExact rule now ∧
      (∀ later, now ≤ later → b.balanceAt now rule ≤ b.balanceAt later rule) ∧
      b.WithdrawExact rule cost now ∧
      ∀ (explain : Explain) (q : Request) (u : Usage),
        (q.handle explain u).usage = u.afterCalls (q.limitCalls explain u) ∧
        ∀ call ∈ q.limitCalls explain u,
          q.profile.isValid = true ∧
            (q.entry.bind MethodAccessRule.rate = some call.rule ∨
              q.profile.quota = some call.rule) ∧
            0 < call.rule.perSecs := by
  refine ⟨b.refillExact hper now, fun later h => b.balanceAt_mono hper h,
    b.withdrawExact rule cost now, fun explain q u => ⟨q.usage_handle explain u, ?_⟩⟩
  intro call hcall
  obtain ⟨hvalid, hrule⟩ := Request.rule_of_call hcall
  exact ⟨hvalid, hrule, Request.perSecs_of_call hcall⟩

/-- The largest figures there are. -/
theorem refill_exact_largest :
    (0 : UInt64) < RateLimitRule.perSecs ⟨UInt64.ofNat (2 ^ 64 - 1), 1, UInt64.ofNat (2 ^ 64 - 1)⟩ ∧
      Bucket.RefillExact ⟨UInt64.ofNat (2 ^ 64 - 1), 0⟩
        ⟨UInt64.ofNat (2 ^ 64 - 1), 1, UInt64.ofNat (2 ^ 64 - 1)⟩ (UInt64.ofNat (2 ^ 64 - 1)) :=
  ⟨by decide, (refill_exact _ (by decide) _ 0 _).1⟩

end NostrLn
