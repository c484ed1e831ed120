import NostrLn.Lib.TokenBucket

/-!
# Rate limits and quotas: the rule, and the bucket it governs

Every figure is a `u64`; the refill is computed in `u128` with saturating operations and cast
back. `Bucket.balanceAt_toNat` says that none of this shows: the balance is the token bucket's
over the natural numbers. Every later result goes through it.
-/

namespace NostrLn

/-! ### Saturating machine arithmetic -/

/-- The largest `u128`. -/
def u128Max : ℕ := 2 ^ 128 - 1

/-- `u64::saturating_sub`. -/
def saturatingSub (a b : UInt64) : UInt64 := if a < b then 0 else a - b

/-- `u128::saturating_mul`, on values below `2 ^ 128`. -/
def saturatingMul128 (a b : ℕ) : ℕ := min (a * b) u128Max

/-- `u128::saturating_add`, on values below `2 ^ 128`. -/
def saturatingAdd128 (a b : ℕ) : ℕ := min (a + b) u128Max

lemma toNat_saturatingSub (a b : UInt64) : (saturatingSub a b).toNat = a.toNat - b.toNat := by
  rw [saturatingSub]
  split
  · rename_i h
    have := UInt64.lt_iff_toNat_lt.mp h
    simp; omega
  · rename_i h
    rw [UInt64.toNat_sub_of_le _ _ (UInt64.not_lt.mp h)]

/-! ### Rules -/

/-- A refill rule. One token is one call for a method's rate, and one satoshi for a quota. -/
structure RateLimitRule where
  amount : UInt64
  perSecs : UInt64
  maxCapacity : UInt64
deriving DecidableEq

/-- `per_secs` must be greater than zero. -/
def RateLimitRule.isValid (rule : RateLimitRule) : Bool := decide (0 < rule.perSecs)

/-- The rule as the token bucket's. -/
def RateLimitRule.toRule (rule : RateLimitRule) : TokenBucket.Rule where
  amount := rule.amount.toNat
  per := rule.perSecs.toNat
  cap := rule.maxCapacity.toNat

/-! ### Buckets -/

/-- A live bucket: what it held, and the instant that was true. -/
structure Bucket where
  balance : UInt64
  since : UInt64
deriving DecidableEq

/-- A full bucket, as of `now`. -/
def Bucket.full (rule : RateLimitRule) (now : UInt64) : Bucket :=
  { balance := rule.maxCapacity, since := now }

/-- What the bucket holds at `now`. -/
def Bucket.balanceAt (b : Bucket) (now : UInt64) (rule : RateLimitRule) : UInt64 :=
  if !rule.isValid then 0
  else
    let elapsed := (saturatingSub now b.since).toNat
    let added := saturatingMul128 rule.amount.toNat elapsed / rule.perSecs.toNat
    let filled := saturatingAdd128 b.balance.toNat added
    UInt64.ofNat (min filled rule.maxCapacity.toNat)

/-- Whether `cost` could be taken at `now`. -/
def Bucket.canWithdraw (b : Bucket) (cost now : UInt64) (rule : RateLimitRule) : Bool :=
  decide (cost ≤ b.balanceAt now rule)

/-- Take `cost` and advance `since` to `now`; a bucket that cannot cover it is left alone. -/
def Bucket.withdraw (b : Bucket) (cost now : UInt64) (rule : RateLimitRule) : Bool × Bucket :=
  let available := b.balanceAt now rule
  if available < cost then (false, b)
  else (true, { balance := available - cost, since := now })

/-- The bucket as the token bucket's level. -/
def Bucket.toLevel (b : Bucket) : ℕ × ℕ := (b.balance.toNat, b.since.toNat)

@[simp] lemma Bucket.toLevel_full (rule : RateLimitRule) (now : UInt64) :
    (Bucket.full rule now).toLevel = (rule.toRule.cap, now.toNat) := rfl

/-- Two `u64` multiply within `u128`, with room for one more `u64`. -/
lemma toNat_mul_toNat_le (a b : UInt64) : a.toNat * b.toNat ≤ (2 ^ 64 - 1) * (2 ^ 64 - 1) := by
  have ha := a.toNat_lt
  have hb := b.toNat_lt
  exact Nat.mul_le_mul (by omega) (by omega)

lemma saturatingMul128_toNat (a b : UInt64) :
    saturatingMul128 a.toNat b.toNat = a.toNat * b.toNat := by
  have hprod := toNat_mul_toNat_le a b
  rw [saturatingMul128, u128Max]
  omega

lemma saturatingAdd128_toNat (a b c : UInt64) (d : ℕ) :
    saturatingAdd128 c.toNat (a.toNat * b.toNat / d) = c.toNat + a.toNat * b.toNat / d := by
  have hdiv := (Nat.div_le_self (a.toNat * b.toNat) d).trans (toNat_mul_toNat_le a b)
  have hc := c.toNat_lt
  rw [saturatingAdd128, u128Max]
  omega

/-- **No saturation.** The balance is the token bucket's level, to the token. -/
theorem Bucket.balanceAt_toNat (b : Bucket) (now : UInt64) {rule : RateLimitRule}
    (hvalid : rule.isValid = true) :
    (b.balanceAt now rule).toNat = rule.toRule.level (some b.toLevel) now.toNat := by
  have hcap := rule.maxCapacity.toNat_lt
  simp only [Bucket.balanceAt, hvalid, Bool.not_true, Bool.false_eq_true, if_false,
    saturatingMul128_toNat, saturatingAdd128_toNat]
  rw [toNat_saturatingSub]
  exact UInt64.toNat_ofNat_of_lt' (lt_of_le_of_lt (min_le_right _ _) hcap)

/-- A full bucket holds the ceiling. -/
lemma Bucket.balanceAt_full (rule : RateLimitRule) (now : UInt64) (hvalid : rule.isValid = true) :
    ((Bucket.full rule now).balanceAt now rule).toNat = rule.toRule.cap := by
  simp [Bucket.balanceAt_toNat _ _ hvalid, TokenBucket.Rule.level]

/-- A withdrawal that can be made is made: the balance less the cost, as of `now`. -/
lemma Bucket.withdraw_of_canWithdraw {b : Bucket} {cost now : UInt64} {rule : RateLimitRule}
    (h : b.canWithdraw cost now rule = true) :
    b.withdraw cost now rule = (true, { balance := b.balanceAt now rule - cost, since := now }) := by
  have hle : cost ≤ b.balanceAt now rule := by simpa [Bucket.canWithdraw] using h
  simp [Bucket.withdraw, UInt64.not_lt.mpr hle]

/-- What one `withdraw` can do: take the cost, or refuse and change nothing. -/
lemma Bucket.withdraw_cases (b : Bucket) (cost now : UInt64) (rule : RateLimitRule) :
    (b.canWithdraw cost now rule = true ∧
      b.withdraw cost now rule =
        (true, { balance := b.balanceAt now rule - cost, since := now })) ∨
    (b.canWithdraw cost now rule = false ∧ b.withdraw cost now rule = (false, b)) := by
  cases h : b.canWithdraw cost now rule with
  | true => exact Or.inl ⟨rfl, Bucket.withdraw_of_canWithdraw h⟩
  | false =>
    have hlt : b.balanceAt now rule < cost := by simpa [Bucket.canWithdraw] using h
    exact Or.inr ⟨rfl, by simp [Bucket.withdraw, hlt]⟩

/-- What is left is the level less the cost. -/
lemma Bucket.toLevel_sub {b : Bucket} {cost now : UInt64} {rule : RateLimitRule}
    (hvalid : rule.isValid = true) (h : b.canWithdraw cost now rule = true) :
    Bucket.toLevel { balance := b.balanceAt now rule - cost, since := now } =
      (rule.toRule.level (some b.toLevel) now.toNat - cost.toNat, now.toNat) := by
  have hle : cost ≤ b.balanceAt now rule := by simpa [Bucket.canWithdraw] using h
  simp [Bucket.toLevel, UInt64.toNat_sub_of_le _ _ hle, b.balanceAt_toNat now hvalid]

lemma Bucket.le_level_of_canWithdraw {b : Bucket} {cost now : UInt64} {rule : RateLimitRule}
    (hvalid : rule.isValid = true) (h : b.canWithdraw cost now rule = true) :
    cost.toNat ≤ rule.toRule.level (some b.toLevel) now.toNat := by
  rw [← b.balanceAt_toNat now hvalid]
  exact UInt64.le_iff_toNat_le.mp (by simpa [Bucket.canWithdraw] using h)

end NostrLn
