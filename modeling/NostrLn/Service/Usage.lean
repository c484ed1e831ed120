import NostrLn.Lib.HashMap
import NostrLn.Limit
import NostrLn.Nostr

/-!
# Live buckets, for each controller

A bucket is created full when a controller is first seen, by whichever of the four operations
comes first. The two that ask therefore write too: what they write is a full bucket as of now.
-/

namespace NostrLn

/-- What each controller has spent. -/
structure Usage where
  rate : HashMap (String × String) Bucket
  quota : HashMap String Bucket

/-- Nobody has spent anything. -/
def Usage.new : Usage := { rate := ∅, quota := ∅ }

/-- Whether a call is within its rate limit. -/
def Usage.rateAllows (u : Usage) (controller : PublicKey) (method : String) (rule : RateLimitRule)
    (now : UInt64) : Bool × Usage :=
  let (rate, bucket) :=
    HashMap.orInsert u.rate (controller.toHex, method) (Bucket.full rule now)
  (bucket.canWithdraw 1 now rule, { u with rate := rate })

/-- Whether a spend is within the quota. -/
def Usage.quotaAllows (u : Usage) (controller : PublicKey) (costSats : UInt64)
    (rule : RateLimitRule) (now : UInt64) : Bool × Usage :=
  let (quota, bucket) := HashMap.orInsert u.quota controller.toHex (Bucket.full rule now)
  (bucket.canWithdraw costSats now rule, { u with quota := quota })

/-- Charge one call against a method's rate. -/
def Usage.chargeRate (u : Usage) (controller : PublicKey) (method : String) (rule : RateLimitRule)
    (now : UInt64) : Bool × Usage :=
  let key := (controller.toHex, method)
  let (rate, bucket) := HashMap.orInsert u.rate key (Bucket.full rule now)
  let (ok, bucket) := bucket.withdraw 1 now rule
  (ok, { u with rate := rate.insert key bucket })

/-- Charge a spend against the quota. -/
def Usage.chargeQuota (u : Usage) (controller : PublicKey) (costSats : UInt64)
    (rule : RateLimitRule) (now : UInt64) : Bool × Usage :=
  let key := controller.toHex
  let (quota, bucket) := HashMap.orInsert u.quota key (Bucket.full rule now)
  let (ok, bucket) := bucket.withdraw costSats now rule
  (ok, { u with quota := quota.insert key bucket })

/-- How many controllers have been seen. -/
def Usage.controllersSeen (u : Usage) : ℕ :=
  max u.quota.keys.length (u.rate.keys.map Prod.fst).dedup.length

/-- The bucket that governs a controller's calls of a method: the one there, else a full one. -/
def Usage.rateBucket (u : Usage) (controller : PublicKey) (method : String) (rule : RateLimitRule)
    (now : UInt64) : Bucket :=
  (u.rate.lookup (controller.toHex, method)).getD (Bucket.full rule now)

/-- The bucket that governs a controller's spending: the one there, else a full one. -/
def Usage.quotaBucket (u : Usage) (controller : PublicKey) (rule : RateLimitRule) (now : UInt64) :
    Bucket :=
  (u.quota.lookup controller.toHex).getD (Bucket.full rule now)

/-- Which bucket governs depends on the one that is there. -/
lemma Usage.rateBucket_congr {u u' : Usage} {c : PublicKey} {m : String}
    (h : u.rate.lookup (c.toHex, m) = u'.rate.lookup (c.toHex, m)) (rule : RateLimitRule)
    (now : UInt64) : u.rateBucket c m rule now = u'.rateBucket c m rule now := by
  rw [Usage.rateBucket, Usage.rateBucket, h]

lemma Usage.quotaBucket_congr {u u' : Usage} {c : PublicKey}
    (h : u.quota.lookup c.toHex = u'.quota.lookup c.toHex) (rule : RateLimitRule) (now : UInt64) :
    u.quotaBucket c rule now = u'.quotaBucket c rule now := by
  rw [Usage.quotaBucket, Usage.quotaBucket, h]

/-! ### What each operation answers and writes -/

section

variable (u : Usage) (c : PublicKey) (m : String) (cost : UInt64) (rule : RateLimitRule)
  (now : UInt64)

lemma Usage.rateAllows_fst :
    (u.rateAllows c m rule now).1 = (u.rateBucket c m rule now).canWithdraw 1 now rule := by
  simp [Usage.rateAllows, Usage.rateBucket, HashMap.orInsert_snd]

lemma Usage.quotaAllows_fst :
    (u.quotaAllows c cost rule now).1 = (u.quotaBucket c rule now).canWithdraw cost now rule := by
  simp [Usage.quotaAllows, Usage.quotaBucket, HashMap.orInsert_snd]

/-- Asking about a rate leaves the governing bucket where it was, or creates it. -/
lemma Usage.lookup_rateAllows (k : String × String) :
    (u.rateAllows c m rule now).2.rate.lookup k =
      if k = (c.toHex, m) then some (u.rateBucket c m rule now) else u.rate.lookup k :=
  HashMap.lookup_orInsert ..

lemma Usage.lookup_quotaAllows (k : String) :
    (u.quotaAllows c cost rule now).2.quota.lookup k =
      if k = c.toHex then some (u.quotaBucket c rule now) else u.quota.lookup k :=
  HashMap.lookup_orInsert ..

/-- Charging writes what the withdrawal leaves. -/
lemma Usage.lookup_chargeRate (k : String × String) :
    (u.chargeRate c m rule now).2.rate.lookup k =
      if k = (c.toHex, m) then some ((u.rateBucket c m rule now).withdraw 1 now rule).2
      else u.rate.lookup k := by
  simp only [Usage.chargeRate, HashMap.lookup_insert, HashMap.lookup_orInsert,
    HashMap.orInsert_snd, Usage.rateBucket]
  split_ifs <;> rfl

lemma Usage.lookup_chargeQuota (k : String) :
    (u.chargeQuota c cost rule now).2.quota.lookup k =
      if k = c.toHex then some ((u.quotaBucket c rule now).withdraw cost now rule).2
      else u.quota.lookup k := by
  simp only [Usage.chargeQuota, HashMap.lookup_insert, HashMap.lookup_orInsert,
    HashMap.orInsert_snd, Usage.quotaBucket]
  split_ifs <;> rfl

/-- Asking does not change which bucket governs. -/
@[simp] lemma Usage.rateBucket_rateAllows :
    (u.rateAllows c m rule now).2.rateBucket c m rule now = u.rateBucket c m rule now := by
  rw [Usage.rateBucket, Usage.lookup_rateAllows, if_pos rfl]
  rfl

@[simp] lemma Usage.quotaBucket_quotaAllows :
    (u.quotaAllows c cost rule now).2.quotaBucket c rule now = u.quotaBucket c rule now := by
  rw [Usage.quotaBucket, Usage.lookup_quotaAllows, if_pos rfl]
  rfl

end

end NostrLn
