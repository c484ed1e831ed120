import Mathlib.Algebra.Order.Floor.Semifield
import Mathlib.Data.Nat.Cast.Order.Field
import Mathlib.Data.Rat.Floor
import Mathlib.Tactic.Linarith
import NostrLn.Lib.TokenBucket

/-!
# Exact token buckets

The same bucket over the rational numbers: it refills continuously, and nothing is rounded. A lazy
bucket that is debited along with it rounds down once at each withdrawal, and once more when it is
read, so it never holds more than the exact one, and less by under one token for each of these.
-/

namespace TokenBucket

/-- What an exact bucket held, and when that was true. -/
structure Exact where
  balance : ℚ
  since : ℚ

/-- What the exact bucket holds at an instant. -/
def Rule.exactLevel (r : Rule) (e : Exact) (now : ℚ) : ℚ :=
  min (e.balance + r.amount * (now - e.since) / r.per) r.cap

/-- An exact bucket that is full at an instant. -/
def Exact.full (r : Rule) (now : ℚ) : Exact := { balance := r.cap, since := now }

/-- Take from the exact bucket. -/
def Exact.debit (r : Rule) (e : Exact) (now cost : ℚ) : Exact :=
  { balance := r.exactLevel e now - cost, since := now }

/-- Take from the exact bucket, one debit after another: when each was made, and what it took. -/
def Exact.debitAll (r : Rule) (e : Exact) (debits : List (ℕ × ℕ)) : Exact :=
  debits.foldl (fun e d => e.debit r d.1 d.2) e

/-! ### Rounding down once -/

lemma Rule.refill_le_exact (r : Rule) (elapsed : ℕ) :
    (r.refill elapsed : ℚ) ≤ r.amount * elapsed / r.per := by
  rw [Rule.refill]
  exact_mod_cast Nat.cast_div_le (α := ℚ) (m := r.amount * elapsed) (n := r.per)

lemma Rule.exact_lt_refill (r : Rule) (elapsed : ℕ) :
    (r.amount * elapsed / r.per : ℚ) < r.refill elapsed + 1 := by
  have hfloor := Nat.lt_floor_add_one ((r.amount * elapsed : ℕ) / (r.per : ℕ) : ℚ)
  rw [Nat.floor_div_eq_div] at hfloor
  exact_mod_cast hfloor

/-! ### Rounding down again and again -/

/-- A lazy bucket holds as much as an exact one, less at most `n` tokens. -/
structure Tracks (n : ℕ) (b : ℕ × ℕ) (e : Exact) : Prop where
  since : e.since = b.2
  le : (b.1 : ℚ) ≤ e.balance
  within : e.balance ≤ b.1 + n

variable {r : Rule} {n : ℕ} {b : ℕ × ℕ} {e : Exact}

lemma tracks_full (r : Rule) (now : ℕ) : Tracks 0 (r.cap, now) (Exact.full r now) where
  since := rfl
  le := le_refl _
  within := by simp [Exact.full]

/-- Reading the bucket rounds down once more. -/
lemma Tracks.level (h : Tracks n b e) {now : ℕ} (hnow : b.2 ≤ now) :
    (r.level (some b) now : ℚ) ≤ r.exactLevel e now ∧
      r.exactLevel e now < r.level (some b) now + (n + 1) := by
  obtain ⟨balance, since⟩ := b
  have helapsed : (now : ℚ) - e.since = (now - since : ℕ) := by
    rw [h.since, Nat.cast_sub hnow]
  have hlow := r.refill_le_exact (now - since)
  have hhigh := r.exact_lt_refill (now - since)
  have hle := h.le
  have hwithin := h.within
  simp only [Rule.level, Rule.exactLevel, helapsed, Nat.cast_min, Nat.cast_add]
  refine ⟨min_le_min_right _ (by linarith), ?_⟩
  -- either both are capped, or the lazy bucket is not and the exact one is no better off
  rcases le_total ((balance : ℚ) + r.refill (now - since)) r.cap with hcap | hcap
  · rw [min_eq_left hcap]
    refine lt_of_le_of_lt (min_le_left _ _) ?_
    linarith
  · rw [min_eq_right hcap]
    refine lt_of_le_of_lt (min_le_right _ _) ?_
    have hn : (0 : ℚ) ≤ n := Nat.cast_nonneg n
    linarith

/-- Taking from both leaves what reading them shows. -/
lemma Tracks.debit (h : Tracks n b e) {now cost : ℕ} (hnow : b.2 ≤ now)
    (hcost : cost ≤ r.level (some b) now) :
    Tracks (n + 1) (r.level (some b) now - cost, now) (e.debit r now cost) := by
  obtain ⟨hle, hlt⟩ := h.level (r := r) hnow
  constructor
  · rfl
  · simp only [Exact.debit, Nat.cast_sub hcost]
    linarith
  · simp only [Exact.debit, Nat.cast_sub hcost, Nat.cast_add, Nat.cast_one]
    linarith

end TokenBucket
