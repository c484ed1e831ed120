import NostrLn.Service.Isolation

/-!
# When the rule changes

The owner may publish a grant again, so that the rule a bucket is asked about is not always the one
it was created under, or last debited under. A bucket stores neither. What it holds is therefore
reckoned by the rule of the moment, for all of the time since the last withdrawal; and a check
that creates a bucket leaves the ceiling of the moment behind in it.
-/

namespace NostrLn

/-! ### Calls, and the bucket each is about -/

/-- A call of one of the four operations on the buckets. -/
inductive LimitCall
  | rateAllows (controller : PublicKey) (method : String) (rule : RateLimitRule) (now : UInt64)
  | quotaAllows (controller : PublicKey) (costSats : UInt64) (rule : RateLimitRule) (now : UInt64)
  | chargeRate (controller : PublicKey) (method : String) (rule : RateLimitRule) (now : UInt64)
  | chargeQuota (controller : PublicKey) (costSats : UInt64) (rule : RateLimitRule) (now : UInt64)

/-- A place for a bucket. -/
inductive Slot
  | rate (key : String × String)
  | quota (key : String)
deriving DecidableEq

/-- The bucket in a place. -/
def Usage.slot (u : Usage) : Slot → Option Bucket
  | .rate key => u.rate.lookup key
  | .quota key => u.quota.lookup key

/-- What may be spent from a place under a rule: by the bucket there, else by a full one. -/
def Usage.held (u : Usage) (s : Slot) (rule : RateLimitRule) (now : UInt64) : UInt64 :=
  ((u.slot s).getD (Bucket.full rule now)).balanceAt now rule

namespace LimitCall

/-- Make the call: what it returns, and the buckets after it. -/
def run (u : Usage) : LimitCall → Bool × Usage
  | rateAllows c m rule now => u.rateAllows c m rule now
  | quotaAllows c cost rule now => u.quotaAllows c cost rule now
  | chargeRate c m rule now => u.chargeRate c m rule now
  | chargeQuota c cost rule now => u.chargeQuota c cost rule now

/-- It only asks. -/
def isCheck : LimitCall → Bool
  | rateAllows .. => true
  | quotaAllows .. => true
  | _ => false

/-- Where the bucket it is about is kept. -/
def slot : LimitCall → Slot
  | rateAllows c m _ _ => .rate (c.toHex, m)
  | quotaAllows c _ _ _ => .quota c.toHex
  | chargeRate c m _ _ => .rate (c.toHex, m)
  | chargeQuota c _ _ _ => .quota c.toHex

/-- How many tokens it is about. -/
def cost : LimitCall → UInt64
  | quotaAllows _ cost _ _ => cost
  | chargeQuota _ cost _ _ => cost
  | _ => 1

def rule : LimitCall → RateLimitRule
  | rateAllows _ _ rule _ => rule
  | quotaAllows _ _ rule _ => rule
  | chargeRate _ _ rule _ => rule
  | chargeQuota _ _ rule _ => rule

def now : LimitCall → UInt64
  | rateAllows _ _ _ now => now
  | quotaAllows _ _ _ now => now
  | chargeRate _ _ _ now => now
  | chargeQuota _ _ _ now => now

/-- The bucket that governs it: the one there, else a full one. -/
def bucket (u : Usage) (call : LimitCall) : Bucket :=
  (u.slot call.slot).getD (Bucket.full call.rule call.now)

/-- What it leaves of that bucket. -/
def leaves (u : Usage) (call : LimitCall) : Bucket :=
  if call.isCheck then call.bucket u
  else ((call.bucket u).withdraw call.cost call.now call.rule).2

end LimitCall

/-- The buckets after some calls. -/
def Usage.afterCalls (u : Usage) (calls : List LimitCall) : Usage :=
  calls.foldl (fun u call => (call.run u).2) u

/-- What each of some calls returns. -/
def Usage.decisions : Usage → List LimitCall → List Bool
  | _, [] => []
  | u, call :: calls => (call.run u).1 :: (call.run u).2.decisions calls

/-! ### One call -/

variable {u u' : Usage} {call : LimitCall}

lemma Bucket.withdraw_fst (b : Bucket) (cost now : UInt64) (rule : RateLimitRule) :
    (b.withdraw cost now rule).1 = b.canWithdraw cost now rule := by
  obtain ⟨hcan, heq⟩ | ⟨hcan, heq⟩ := b.withdraw_cases cost now rule
  · rw [heq, hcan]
  · rw [heq, hcan]

/-- Asking and charging decide alike: by what the governing bucket holds. -/
lemma LimitCall.run_fst (u : Usage) (call : LimitCall) :
    (call.run u).1 = decide (call.cost ≤ u.held call.slot call.rule call.now) := by
  cases call with
  | rateAllows c m rule now => exact u.rateAllows_fst c m rule now
  | quotaAllows c cost rule now => exact u.quotaAllows_fst c cost rule now
  | chargeRate c m rule now =>
    simp only [LimitCall.run, Usage.chargeRate, HashMap.orInsert_snd, Bucket.withdraw_fst]
    rfl
  | chargeQuota c cost rule now =>
    simp only [LimitCall.run, Usage.chargeQuota, HashMap.orInsert_snd, Bucket.withdraw_fst]
    rfl

/-- A call writes one bucket, which is there after it. -/
lemma LimitCall.slot_run (u : Usage) (call : LimitCall) (s : Slot) :
    (call.run u).2.slot s = if s = call.slot then some (call.leaves u) else u.slot s := by
  cases call with
  | rateAllows c m rule now =>
    cases s with
    | rate k =>
      simp only [LimitCall.slot, Slot.rate.injEq]
      exact u.lookup_rateAllows c m rule now k
    | quota k => rfl
  | quotaAllows c cost rule now =>
    cases s with
    | rate k => rfl
    | quota k =>
      simp only [LimitCall.slot, Slot.quota.injEq]
      exact u.lookup_quotaAllows c cost rule now k
  | chargeRate c m rule now =>
    cases s with
    | rate k =>
      simp only [LimitCall.slot, Slot.rate.injEq]
      exact u.lookup_chargeRate c m rule now k
    | quota k => rfl
  | chargeQuota c cost rule now =>
    cases s with
    | rate k => rfl
    | quota k =>
      simp only [LimitCall.slot, Slot.quota.injEq]
      exact u.lookup_chargeQuota c cost rule now k

/-- The bucket a call that asks, or is refused, leaves is the governing one. -/
lemma LimitCall.leaves_of_not_taken (h : call.isCheck = true ∨ (call.run u).1 = false) :
    call.leaves u = call.bucket u := by
  rw [LimitCall.leaves]
  split
  · rfl
  · rename_i hcheck
    obtain hcheck' | hrefused := h
    · exact absurd hcheck' hcheck
    · obtain ⟨hcan, _⟩ | ⟨_, heq⟩ := (call.bucket u).withdraw_cases call.cost call.now call.rule
      · rw [LimitCall.run_fst] at hrefused
        rw [Bucket.canWithdraw] at hcan
        exact absurd (hcan.symm.trans hrefused) (by decide)
      · rw [heq]

/-- The bucket a charge leaves is what was held less the cost, as of now. -/
lemma LimitCall.leaves_of_taken (hcharge : call.isCheck = false) (h : (call.run u).1 = true) :
    call.leaves u =
      { balance := u.held call.slot call.rule call.now - call.cost, since := call.now } := by
  rw [LimitCall.run_fst] at h
  rw [LimitCall.leaves, hcharge, if_neg (by decide), LimitCall.bucket,
    Bucket.withdraw_of_canWithdraw h]
  rfl

/-! ### Many calls -/

lemma Usage.length_decisions (u : Usage) (calls : List LimitCall) :
    (u.decisions calls).length = calls.length := by
  induction calls generalizing u with
  | nil => rfl
  | cons call calls ih => simp [Usage.decisions, ih]

lemma Usage.decisions_append (u : Usage) (calls later : List LimitCall) :
    u.decisions (calls ++ later) = u.decisions calls ++ (u.afterCalls calls).decisions later := by
  induction calls generalizing u with
  | nil => rfl
  | cons call calls ih =>
    simp only [List.cons_append, Usage.decisions, ih]
    rfl

/-- Leaving the result of one call out. -/
lemma Usage.eraseIdx_decisions (u : Usage) (before : List LimitCall) (call : LimitCall)
    (later : List LimitCall) :
    (u.decisions (before ++ call :: later)).eraseIdx before.length =
      u.decisions before ++ (call.run (u.afterCalls before)).2.decisions later := by
  rw [Usage.decisions_append, List.eraseIdx_append_of_length_le (by rw [u.length_decisions]),
    u.length_decisions, Nat.sub_self]
  rfl

/-- Decisions depend on what is in each place. -/
lemma Usage.decisions_congr (h : ∀ s, u.slot s = u'.slot s) (calls : List LimitCall) :
    u.decisions calls = u'.decisions calls := by
  induction calls generalizing u u' with
  | nil => rfl
  | cons call calls ih =>
    have hbucket : call.bucket u = call.bucket u' := by rw [LimitCall.bucket, LimitCall.bucket, h]
    have hfst : (call.run u).1 = (call.run u').1 := by
      rw [LimitCall.run_fst, LimitCall.run_fst, Usage.held, Usage.held, h]
    rw [Usage.decisions, Usage.decisions, hfst]
    congr 1
    refine ih ?_
    intro s
    rw [LimitCall.slot_run, LimitCall.slot_run, LimitCall.leaves, LimitCall.leaves, hbucket, h]

/-! ### What a check leaves behind -/

/-- A rule without refill. -/
def fixedRule (ceiling : UInt64) : RateLimitRule :=
  { amount := 0, perSecs := 1, maxCapacity := ceiling }

lemma maxCapacity_fixedRule (ceiling : UInt64) : (fixedRule ceiling).maxCapacity = ceiling := rfl

/-- Without refill a token can be had if there is one and the ceiling does not hide it. -/
lemma Bucket.canWithdraw_fixedRule (b : Bucket) (now ceiling : UInt64) :
    b.canWithdraw 1 now (fixedRule ceiling) = decide (0 < b.balance ∧ 0 < ceiling) := by
  have hlevel := b.balanceAt_toNat now (show (fixedRule ceiling).isValid = true from rfl)
  simp only [TokenBucket.Rule.level, TokenBucket.Rule.refill, RateLimitRule.toRule, fixedRule,
    Bucket.toLevel, UInt64.toNat_zero, Nat.zero_mul, Nat.zero_div, Nat.add_zero] at hlevel
  rw [Bucket.canWithdraw, decide_eq_decide, UInt64.le_iff_toNat_le, UInt64.lt_iff_toNat_lt,
    UInt64.lt_iff_toNat_lt]
  simp only [fixedRule, hlevel, UInt64.toNat_one, UInt64.toNat_zero]
  omega

/-- Ask for one token of the same bucket, under another rule. -/
def LimitCall.probe (rule : RateLimitRule) : LimitCall → LimitCall
  | .rateAllows c m _ now => .rateAllows c m rule now
  | .quotaAllows c _ _ now => .quotaAllows c 1 rule now
  | .chargeRate c m _ now => .rateAllows c m rule now
  | .chargeQuota c _ _ now => .quotaAllows c 1 rule now

lemma LimitCall.slot_probe (rule : RateLimitRule) (call : LimitCall) :
    (call.probe rule).slot = call.slot := by
  cases call <;> rfl

lemma LimitCall.isCheck_probe (rule : RateLimitRule) (call : LimitCall) :
    (call.probe rule).isCheck = true := by
  cases call <;> rfl

lemma LimitCall.rule_probe (rule : RateLimitRule) (call : LimitCall) :
    (call.probe rule).rule = rule := by
  cases call <;> rfl

lemma LimitCall.run_probe (u : Usage) (ceiling : UInt64) (call : LimitCall) :
    ((call.probe (fixedRule ceiling)).run u).1 =
      decide (0 < ((call.probe (fixedRule ceiling)).bucket u).balance ∧ 0 < ceiling) := by
  rw [LimitCall.run_fst, ← Bucket.canWithdraw_fixedRule _ call.now]
  cases call <;> rfl

lemma LimitCall.bucket_of_some {b : Bucket} (h : u.slot call.slot = some b) :
    call.bucket u = b := by
  rw [LimitCall.bucket, h]
  rfl

lemma LimitCall.bucket_of_none (h : u.slot call.slot = none) :
    call.bucket u = Bucket.full call.rule call.now := by
  rw [LimitCall.bucket, h]
  rfl

/-- What is there after a check. -/
lemma LimitCall.slot_run_check (hcheck : call.isCheck = true) :
    (call.run u).2.slot call.slot = some (call.bucket u) := by
  rw [LimitCall.slot_run, if_pos rfl, LimitCall.leaves_of_not_taken (Or.inl hcheck)]

/-- A bucket that a check has created can be told from none. If it is empty, a ceiling of one shows
that; if not, a check under a ceiling of zero creates an empty one where there was none, and leaves
the other full. -/
lemma LimitCall.exists_seen (hcheck : call.isCheck = true) (hnone : u.slot call.slot = none) :
    ∃ later, (call.run u).2.decisions later ≠ u.decisions later := by
  have hthere : (call.run u).2.slot call.slot = some (Bucket.full call.rule call.now) := by
    rw [LimitCall.slot_run_check hcheck, LimitCall.bucket_of_none hnone]
  have hnone' : ∀ rule, u.slot (call.probe rule).slot = none := by
    intro rule
    rw [LimitCall.slot_probe, hnone]
  have hthere' : ∀ rule, (call.run u).2.slot (call.probe rule).slot =
      some (Bucket.full call.rule call.now) := by
    intro rule
    rw [LimitCall.slot_probe, hthere]
  by_cases hempty : call.rule.maxCapacity = 0
  · refine ⟨[call.probe (fixedRule 1)], ?_⟩
    simp only [Usage.decisions, LimitCall.run_probe, LimitCall.bucket_of_none (hnone' _),
      LimitCall.bucket_of_some (hthere' _), LimitCall.rule_probe, Bucket.full, hempty,
      maxCapacity_fixedRule]
    decide
  · have hpos : 0 < call.rule.maxCapacity := UInt64.pos_iff_ne_zero.mpr hempty
    have hsecond : ((call.probe (fixedRule 0)).run u).2.slot (call.probe (fixedRule 1)).slot =
        some (Bucket.full (fixedRule 0) (call.probe (fixedRule 0)).now) := by
      rw [LimitCall.slot_probe, ← LimitCall.slot_probe (fixedRule 0),
        LimitCall.slot_run_check (LimitCall.isCheck_probe _ _), LimitCall.bucket_of_none (hnone' _),
        LimitCall.rule_probe]
    have hsecond' : ((call.probe (fixedRule 0)).run (call.run u).2).2.slot
        (call.probe (fixedRule 1)).slot = some (Bucket.full call.rule call.now) := by
      rw [LimitCall.slot_probe, ← LimitCall.slot_probe (fixedRule 0),
        LimitCall.slot_run_check (LimitCall.isCheck_probe _ _),
        LimitCall.bucket_of_some (hthere' _)]
    refine ⟨[call.probe (fixedRule 0), call.probe (fixedRule 1)], ?_⟩
    simp [Usage.decisions, LimitCall.run_probe, LimitCall.bucket_of_some hsecond,
      LimitCall.bucket_of_some hsecond', Bucket.full, hpos, maxCapacity_fixedRule]

/-! ### One ceiling -/

/-- Up to one place the buckets are the same, and there they are the same, or full to the ceiling,
or not there yet. -/
structure SameCeiling (ceiling : UInt64) (s : Slot) (u u' : Usage) : Prop where
  elsewhere : ∀ s', s' ≠ s → u.slot s' = u'.slot s'
  here : u.slot s = u'.slot s ∨
    (∃ t, u.slot s = some { balance := ceiling, since := t }) ∧
      (u'.slot s = none ∨ ∃ t, u'.slot s = some { balance := ceiling, since := t })

/-- A bucket full to the ceiling is full, whenever that was. -/
lemma Bucket.balanceAt_ceiling (rule : RateLimitRule) (t now : UInt64) :
    Bucket.balanceAt { balance := rule.maxCapacity, since := t } now rule =
      (Bucket.full rule now).balanceAt now rule := by
  cases hvalid : rule.isValid with
  | false => simp [Bucket.balanceAt, hvalid]
  | true =>
    rw [← UInt64.toNat_inj, Bucket.balanceAt_full rule now hvalid,
      Bucket.balanceAt_toNat _ _ hvalid]
    exact min_eq_right (Nat.le_add_right _ _)

/-- Under the ceiling of one place, what may be spent from any is the same. -/
lemma SameCeiling.held {ceiling : UInt64} {s s' : Slot} (h : SameCeiling ceiling s u u')
    {rule : RateLimitRule} (hrule : s' = s → rule.maxCapacity = ceiling) (now : UInt64) :
    u.held s' rule now = u'.held s' rule now := by
  by_cases hs : s' = s
  · subst hs
    rw [Usage.held, Usage.held]
    obtain heq | ⟨⟨t, hu⟩, hu' | ⟨t', hu'⟩⟩ := h.here
    · rw [heq]
    · rw [hu, hu', ← hrule rfl]
      exact Bucket.balanceAt_ceiling rule t now
    · rw [hu, hu', ← hrule rfl]
      exact (Bucket.balanceAt_ceiling rule t now).trans (Bucket.balanceAt_ceiling rule t' now).symm
  · rw [Usage.held, Usage.held, h.elsewhere s' hs]

/-- What a call on that place leaves there is the same, or full to the ceiling on either side. -/
lemma SameCeiling.leaves {ceiling : UInt64} (h : SameCeiling ceiling call.slot u u')
    (hrule : call.rule.maxCapacity = ceiling) :
    call.leaves u = call.leaves u' ∨
      (∃ t, call.leaves u = { balance := ceiling, since := t }) ∧
        ∃ t, call.leaves u' = { balance := ceiling, since := t } := by
  have hheld : u.held call.slot call.rule call.now = u'.held call.slot call.rule call.now :=
    h.held (fun _ => hrule) call.now
  have hfst : (call.run u).1 = (call.run u').1 := by
    rw [LimitCall.run_fst, LimitCall.run_fst, hheld]
  by_cases htaken : call.isCheck = false ∧ (call.run u).1 = true
  · -- a charge leaves what was held less the cost, on either side
    left
    rw [LimitCall.leaves_of_taken htaken.1 htaken.2,
      LimitCall.leaves_of_taken htaken.1 (hfst ▸ htaken.2), hheld]
  · have hnot : call.isCheck = true ∨ (call.run u).1 = false := by
      rw [not_and_or, Bool.not_eq_false, Bool.not_eq_true] at htaken
      exact htaken
    rw [LimitCall.leaves_of_not_taken hnot, LimitCall.leaves_of_not_taken (hfst ▸ hnot)]
    obtain heq | ⟨⟨t, hu⟩, hu' | ⟨t', hu'⟩⟩ := h.here
    · left
      rw [LimitCall.bucket, LimitCall.bucket, heq]
    · right
      rw [LimitCall.bucket_of_some hu, LimitCall.bucket_of_none hu', ← hrule]
      exact ⟨⟨t, rfl⟩, call.now, rfl⟩
    · right
      rw [LimitCall.bucket_of_some hu, LimitCall.bucket_of_some hu']
      exact ⟨⟨t, rfl⟩, t', rfl⟩

/-- One call decides alike on either side, and leaves them so. -/
lemma SameCeiling.run {ceiling : UInt64} {s : Slot} (h : SameCeiling ceiling s u u')
    (hrule : call.slot = s → call.rule.maxCapacity = ceiling) :
    (call.run u).1 = (call.run u').1 ∧ SameCeiling ceiling s (call.run u).2 (call.run u').2 := by
  refine ⟨?_, ?_⟩
  · rw [LimitCall.run_fst, LimitCall.run_fst, h.held hrule]
  by_cases hs : call.slot = s
  · subst hs
    refine ⟨?_, ?_⟩
    · intro s' hs'
      rw [LimitCall.slot_run, LimitCall.slot_run, if_neg hs', if_neg hs', h.elsewhere s' hs']
    · rw [LimitCall.slot_run, LimitCall.slot_run, if_pos rfl, if_pos rfl]
      obtain heq | ⟨⟨t, hu⟩, t', hu'⟩ := h.leaves (hrule rfl)
      · exact Or.inl (by rw [heq])
      · rw [hu, hu']
        exact Or.inr ⟨⟨t, rfl⟩, Or.inr ⟨t', rfl⟩⟩
  · have hkept : ∀ v : Usage, (call.run v).2.slot s = v.slot s := by
      intro v
      rw [LimitCall.slot_run, if_neg (Ne.symm hs)]
    refine ⟨?_, ?_⟩
    · intro s' hs'
      rw [LimitCall.slot_run, LimitCall.slot_run, h.elsewhere s' hs', LimitCall.leaves,
        LimitCall.leaves, LimitCall.bucket, LimitCall.bucket, h.elsewhere _ hs]
    · rw [hkept, hkept]
      exact h.here

lemma SameCeiling.decisions {ceiling : UInt64} {s : Slot} (h : SameCeiling ceiling s u u')
    {calls : List LimitCall}
    (hrule : ∀ call ∈ calls, call.slot = s → call.rule.maxCapacity = ceiling) :
    u.decisions calls = u'.decisions calls := by
  induction calls generalizing u u' with
  | nil => rfl
  | cons call calls ih =>
    obtain ⟨hfst, hnext⟩ := h.run (hrule call (by simp))
    rw [Usage.decisions, Usage.decisions, hfst, ih hnext fun c hc => hrule c (by simp [hc])]

/-- **Checking changes no later decision** exactly if the bucket it asks about is already there.
Otherwise it creates the bucket full to the ceiling of the moment, which later calls can show; those
that go by that same ceiling do not. -/
theorem check_unseen_iff (u : Usage) (before : List LimitCall) (check : LimitCall)
    (hcheck : check.isCheck = true) :
    ((∀ later, (u.decisions (before ++ check :: later)).eraseIdx before.length =
        u.decisions (before ++ later)) ↔
      ((u.afterCalls before).slot check.slot).isSome = true) ∧
    ∀ later, (∀ call ∈ later, call.slot = check.slot →
        call.rule.maxCapacity = check.rule.maxCapacity) →
      (u.decisions (before ++ check :: later)).eraseIdx before.length =
        u.decisions (before ++ later) := by
  have hsame : ∀ later, (u.decisions (before ++ check :: later)).eraseIdx before.length =
        u.decisions (before ++ later) ↔
      (check.run (u.afterCalls before)).2.decisions later =
        (u.afterCalls before).decisions later := by
    intro later
    rw [Usage.eraseIdx_decisions, Usage.decisions_append, List.append_right_inj]
  simp only [hsame]
  generalize u.afterCalls before = v
  have hthere : ∀ b, v.slot check.slot = some b →
      ∀ s, (check.run v).2.slot s = v.slot s := by
    intro b hb s
    rw [LimitCall.slot_run, LimitCall.leaves_of_not_taken (Or.inl hcheck),
      LimitCall.bucket_of_some hb]
    split_ifs with hs
    · rw [hs, hb]
    · rfl
  refine ⟨⟨?_, ?_⟩, ?_⟩
  · intro hunseen
    by_contra hnone
    obtain ⟨later, hseen⟩ := LimitCall.exists_seen hcheck (Option.not_isSome_iff_eq_none.mp hnone)
    exact hseen (hunseen later)
  · intro hsome later
    obtain ⟨b, hb⟩ := Option.isSome_iff_exists.mp hsome
    exact Usage.decisions_congr (hthere b hb) later
  · intro later hrule
    cases hslot : v.slot check.slot with
    | some b => exact Usage.decisions_congr (hthere b hslot) later
    | none =>
      have hceiling : SameCeiling check.rule.maxCapacity check.slot (check.run v).2 v := by
        refine ⟨?_, Or.inr ⟨⟨check.now, ?_⟩, Or.inl hslot⟩⟩
        · intro s hs
          rw [LimitCall.slot_run, if_neg hs]
        · rw [LimitCall.slot_run_check hcheck, LimitCall.bucket_of_none hslot]
          rfl
      exact hceiling.decisions hrule

namespace Sample

/-- Whether `key 4` may spend five, when its quota is this. -/
def mayFive (ceiling now : UInt64) : LimitCall :=
  .quotaAllows (key 4) 5 (fixedRule ceiling) now

end Sample

open Sample in
/-- The quota is one, and a spend of five is asked about and refused; then it is raised to ten. The
same spend would have been allowed, had nobody asked before. -/
theorem refused_check_seen :
    ¬ ∀ (u : Usage) (before : List LimitCall) (check : LimitCall) (later : List LimitCall),
      check.isCheck = true →
        (u.decisions (before ++ check :: later)).eraseIdx before.length =
          u.decisions (before ++ later) := by
  intro h
  have hfive := h Usage.new [] (mayFive 1 0) [mayFive 10 1] rfl
  revert hfive
  decide +kernel

open Sample in
/-- Once the bucket is there, any further check goes unseen. -/
theorem check_unseen_charged :
    ((Usage.new.afterCalls [.chargeQuota (key 4) 5 (fixedRule 10) 0]).slot
        (mayFive 1 1).slot).isSome = true ∧
      ∀ later, (Usage.new.decisions ([.chargeQuota (key 4) 5 (fixedRule 10) 0] ++
          mayFive 1 1 :: later)).eraseIdx 1 =
        Usage.new.decisions ([.chargeQuota (key 4) 5 (fixedRule 10) 0] ++ later) := by
  have hthere : ((Usage.new.afterCalls [.chargeQuota (key 4) 5 (fixedRule 10) 0]).slot
      (mayFive 1 1).slot).isSome = true := by
    decide +kernel
  obtain ⟨hunseen, _⟩ :=
    check_unseen_iff Usage.new [.chargeQuota (key 4) 5 (fixedRule 10) 0] (mayFive 1 1) rfl
  exact ⟨hthere, hunseen.mpr hthere⟩

/-! ### Reckoning by another rule -/

/-- What may be spent is the level of the token bucket. -/
lemma Usage.held_toNat (u : Usage) (s : Slot) {rule : RateLimitRule} (hvalid : rule.isValid = true)
    (now : UInt64) :
    (u.held s rule now).toNat = rule.toRule.level ((u.slot s).map Bucket.toLevel) now.toNat := by
  rw [Usage.held, Bucket.balanceAt_toNat _ _ hvalid]
  exact level_getD (u.slot s) hvalid now

/-- No more may be spent than the ceiling. -/
lemma Usage.held_le (u : Usage) (s : Slot) (rule : RateLimitRule) (now : UInt64) :
    u.held s rule now ≤ rule.maxCapacity := by
  cases hvalid : rule.isValid with
  | false =>
    rw [Usage.held, Bucket.balanceAt, hvalid]
    exact UInt64.zero_le
  | true =>
    rw [UInt64.le_iff_toNat_le, u.held_toNat s hvalid]
    exact TokenBucket.Rule.level_le_cap _ _ _

/-- It takes something. -/
def LimitCall.Takes (u : Usage) (call : LimitCall) : Prop :=
  call.isCheck = false ∧ (call.run u).1 = true

/-- Nothing is taken from a place: the calls on it ask, or are refused. -/
def Usage.TakesNothing (s : Slot) : Usage → List LimitCall → Prop
  | _, [] => True
  | u, call :: calls => (call.slot = s → ¬ call.Takes u) ∧ TakesNothing s (call.run u).2 calls

lemma LimitCall.leaves_of_not_takes (h : ¬ call.Takes u) : call.leaves u = call.bucket u := by
  rw [LimitCall.Takes, not_and_or, Bool.not_eq_false, Bool.not_eq_true] at h
  exact LimitCall.leaves_of_not_taken h

/-- As long as nothing is taken from it, a bucket stays as it is, whatever is asked of it and by
whatever rule. -/
lemma Usage.TakesNothing.slot_afterCalls {s : Slot} {b : Bucket} {calls : List LimitCall}
    (h : u.TakesNothing s calls) (hb : u.slot s = some b) :
    (u.afterCalls calls).slot s = some b := by
  induction calls generalizing u with
  | nil => exact hb
  | cons call calls ih =>
    obtain ⟨hfirst, hrest⟩ := h
    refine ih hrest ?_
    rw [LimitCall.slot_run]
    split_ifs with hs
    · subst hs
      rw [LimitCall.leaves_of_not_takes (hfirst rfl), LimitCall.bucket_of_some hb]
    · exact hb

/-- Calls on other places leave a place alone. -/
lemma Usage.slot_afterCalls_of_ne {s : Slot} {calls : List LimitCall}
    (h : ∀ call ∈ calls, call.slot ≠ s) : (u.afterCalls calls).slot s = u.slot s := by
  induction calls generalizing u with
  | nil => rfl
  | cons call calls ih =>
    obtain ⟨hfirst, hrest⟩ := List.forall_mem_cons.mp h
    refine (ih (u := (call.run u).2) hrest).trans ?_
    rw [LimitCall.slot_run, if_neg (Ne.symm hfirst)]

/-- **A replaced rule reckons anew.** What may be spent under a rule is its ceiling where there is
no bucket, and else what is left in the bucket and the refill of all the time since, by this rule,
up to its ceiling. If the new rule is no faster and its ceiling no higher, no more may be spent than
under the old one. What is left is what the last withdrawal left, by the rule of that moment; or, if
there was none, the ceiling of the moment when a check or a refused charge created the bucket. Until
something is taken from it, it stays as it is. -/
theorem replaced_rule_reckons_anew (u : Usage) (s : Slot) (r₁ r₂ : RateLimitRule)
    (h₁ : 0 < r₁.perSecs) (h₂ : 0 < r₂.perSecs) (t : UInt64) :
    (∀ call : LimitCall, call.slot = s →
      (call.run u).1 = decide (call.cost ≤ u.held s call.rule call.now)) ∧
    (u.slot s = none → (u.held s r₂ t).toNat = r₂.maxCapacity.toNat) ∧
    (∀ b, u.slot s = some b → (u.held s r₂ t).toNat =
      min (b.balance.toNat + r₂.amount.toNat * (t.toNat - b.since.toNat) / r₂.perSecs.toNat)
        r₂.maxCapacity.toNat) ∧
    (r₂.amount.toNat * r₁.perSecs.toNat ≤ r₁.amount.toNat * r₂.perSecs.toNat →
      r₂.maxCapacity ≤ r₁.maxCapacity → u.held s r₂ t ≤ u.held s r₁ t) ∧
    -- what a withdrawal leaves, and how long
    (∀ (call : LimitCall) (later : List LimitCall), call.slot = s → call.Takes u →
      (call.run u).2.TakesNothing s later →
        ∃ b, ((call.run u).2.afterCalls later).slot s = some b ∧ b.since = call.now ∧
          b.balance.toNat + call.cost.toNat = (u.held s call.rule call.now).toNat ∧
          (u.held s call.rule call.now).toNat ≤ call.rule.maxCapacity.toNat) ∧
    -- what any other call leaves where there was no bucket, and how long
    (∀ (call : LimitCall) (later : List LimitCall), call.slot = s → u.slot s = none →
      ¬ call.Takes u → (call.run u).2.TakesNothing s later →
        ((call.run u).2.afterCalls later).slot s = some (Bucket.full call.rule call.now)) ∧
    -- what is left of a bucket, and of none
    (∀ (b : Bucket) (later : List LimitCall), u.slot s = some b → u.TakesNothing s later →
      (u.afterCalls later).slot s = some b) ∧
    ∀ later : List LimitCall, (∀ call ∈ later, call.slot ≠ s) →
      (u.afterCalls later).slot s = u.slot s := by
  have hvalid : ∀ {r : RateLimitRule}, 0 < r.perSecs → r.isValid = true := by
    intro r hr
    simpa [RateLimitRule.isValid] using hr
  refine ⟨?_, ?_, ?_, ?_, ?_, ?_, ?_, ?_⟩
  · rintro call rfl
    exact call.run_fst u
  · intro hnone
    rw [u.held_toNat s (hvalid h₂), hnone]
    rfl
  · intro b hb
    rw [u.held_toNat s (hvalid h₂), hb]
    rfl
  · intro hrate hcap
    have hper₁ : 0 < r₁.toRule.per := UInt64.lt_iff_toNat_lt.mp h₁
    have hper₂ : 0 < r₂.toRule.per := UInt64.lt_iff_toNat_lt.mp h₂
    rw [UInt64.le_iff_toNat_le, u.held_toNat s (hvalid h₁), u.held_toNat s (hvalid h₂)]
    exact TokenBucket.Rule.level_le_level hper₁ hper₂ hrate (UInt64.le_iff_toNat_le.mp hcap) _ _
  · rintro call later rfl ⟨hcharge, htaken⟩ hlater
    have hleft : (call.run u).2.slot call.slot = some
        { balance := u.held call.slot call.rule call.now - call.cost, since := call.now } := by
      rw [LimitCall.slot_run, if_pos rfl, LimitCall.leaves_of_taken hcharge htaken]
    rw [LimitCall.run_fst, decide_eq_true_eq] at htaken
    refine ⟨_, hlater.slot_afterCalls hleft, rfl, ?_, ?_⟩
    · have hcost := UInt64.le_iff_toNat_le.mp htaken
      simp only [UInt64.toNat_sub_of_le _ _ htaken]
      omega
    · exact UInt64.le_iff_toNat_le.mp (u.held_le call.slot call.rule call.now)
  · rintro call later rfl hnone hnot hlater
    refine hlater.slot_afterCalls ?_
    rw [LimitCall.slot_run, if_pos rfl, LimitCall.leaves_of_not_takes hnot,
      LimitCall.bucket_of_none hnone]
  · intro b later hb hlater
    exact hlater.slot_afterCalls hb
  · intro later hlater
    exact Usage.slot_afterCalls_of_ne hlater

namespace Sample

/-- Twice as fast as `spendQuota`, with the same ceiling. -/
def fasterQuota : RateLimitRule := { spendQuota with amount := 120 }

end Sample

open Sample in
/-- A hundred are paid at second 100, under sixty a minute. Half a minute later thirty may be spent
by that rule; by one of a hundred and twenty a minute, published that instant, sixty. -/
theorem replaced_rule_mints :
    ¬ ∀ (explain : Serde.Explain) (qs : List Request) (c : PublicKey) (r₁ r₂ : RateLimitRule)
      (t : UInt64), 0 < r₁.perSecs → 0 < r₂.perSecs →
        (∀ q ∈ qs, q.controller = c → ∀ g, q.grants.resolve c = .ok g →
          g.profile.quota = some r₁) → (∀ q ∈ qs, q.now ≤ t) →
        (usageAfter explain Usage.new qs).held (.quota c.toHex) r₂ t ≤
          (usageAfter explain Usage.new qs).held (.quota c.toHex) r₁ t := by
  intro h
  have hpaid := h (fun _ _ => "") [payment 100 100] (key 4) spendQuota fasterQuota 130 (by decide)
    (by decide) (by
      intro q hq _ g hg
      rw [List.mem_singleton.mp hq] at hg
      cases hg
      rfl) (by decide)
  revert hpaid
  decide +kernel

open Sample in
/-- A slower rule gives no more than the one it replaces. -/
theorem replaced_rule_slower :
    (usageAfter (fun _ _ => "") Usage.new [payment 100 100]).held (.quota (key 4).toHex) spendQuota
        130 ≤
      (usageAfter (fun _ _ => "") Usage.new [payment 100 100]).held (.quota (key 4).toHex)
        fasterQuota 130 :=
  (replaced_rule_reckons_anew _ _ fasterQuota spendQuota (by decide) (by decide) 130).2.2.2.1
    (by decide) (by decide)

end NostrLn
