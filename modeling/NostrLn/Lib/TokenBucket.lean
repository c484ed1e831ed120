import Mathlib.Algebra.BigOperators.Group.List.Basic
import Mathlib.Algebra.GroupWithZero.Nat
import Mathlib.Data.Nat.Basic
import Mathlib.Order.MinMax
import Mathlib.Tactic.Common

/-!
# Token buckets

A bucket refills continuously at `amount` tokens every `per` units of time and never holds more
than `cap`. It is lazy: nothing happens between two withdrawals, and the refill is computed,
rounded down, when somebody asks. What a bucket pays out in a window of time is bounded by its
ceiling plus one window's refill, whatever was asked of it and whenever.
-/

namespace TokenBucket

/-- A refill rule over the natural numbers. -/
structure Rule where
  amount : ℕ
  per : ℕ
  cap : ℕ

/-- What a bucket held, and when that was true. `none` is a bucket nobody has touched yet. -/
abbrev Level := Option (ℕ × ℕ)

/-- The tokens added over an interval, rounded down. -/
def Rule.refill (r : Rule) (elapsed : ℕ) : ℕ := r.amount * elapsed / r.per

/-- What the bucket holds at `now`. -/
def Rule.level (r : Rule) : Level → ℕ → ℕ
  | none, _ => r.cap
  | some (balance, since), now => min (balance + r.refill (now - since)) r.cap

/-- One request at `now`: the bucket is left alone, created full, or debited. -/
inductive Step (r : Rule) (now : ℕ) : Level → ℕ → Level → Prop
  | idle (b : Level) : Step r now b 0 b
  | create : Step r now none 0 (some (r.cap, now))
  | take (b : Level) (cost : ℕ) (h : cost ≤ r.level b now) :
      Step r now b cost (some (r.level b now - cost, now))

/-- A run, as the list of its requests: when each was made and what it took. -/
inductive Run (r : Rule) : Level → List (ℕ × ℕ) → Prop
  | nil (b : Level) : Run r b []
  | cons {b b' : Level} {now cost : ℕ} {rest : List (ℕ × ℕ)} :
      Step r now b cost b' → Run r b' rest → Run r b ((now, cost) :: rest)

/-- What was taken in the window `[s, t]`. -/
def spent (s t : ℕ) (l : List (ℕ × ℕ)) : ℕ :=
  ((l.filter fun e => s ≤ e.1 ∧ e.1 ≤ t).map Prod.snd).sum

/-! ### Refilling -/

/-- Rounding down twice loses at least as much as rounding down once. -/
lemma Rule.refill_add_le (r : Rule) (a b : ℕ) : r.refill a + r.refill b ≤ r.refill (a + b) := by
  simp only [Rule.refill, Nat.mul_add]
  exact Nat.div_add_div_le_add_div

lemma Rule.refill_mono (r : Rule) {a b : ℕ} (h : a ≤ b) : r.refill a ≤ r.refill b :=
  Nat.div_le_div_right (Nat.mul_le_mul_left _ h)

/-- A rule that is no faster refills no more. -/
lemma Rule.refill_le_refill {r r' : Rule} (hper : 0 < r.per) (hper' : 0 < r'.per)
    (h : r'.amount * r.per ≤ r.amount * r'.per) (elapsed : ℕ) :
    r'.refill elapsed ≤ r.refill elapsed := by
  rw [Rule.refill, Rule.refill, Nat.le_div_iff_mul_le hper]
  refine Nat.le_of_mul_le_mul_right ?_ hper'
  calc r'.amount * elapsed / r'.per * r.per * r'.per
      = r'.amount * elapsed / r'.per * r'.per * r.per := Nat.mul_right_comm _ _ _
    _ ≤ r'.amount * elapsed * r.per := Nat.mul_le_mul_right _ (Nat.div_mul_le_self _ _)
    _ = r'.amount * r.per * elapsed := Nat.mul_right_comm _ _ _
    _ ≤ r.amount * r'.per * elapsed := Nat.mul_le_mul_right _ h
    _ = r.amount * elapsed * r'.per := Nat.mul_right_comm _ _ _

lemma Rule.level_le_cap (r : Rule) (b : Level) (now : ℕ) : r.level b now ≤ r.cap := by
  match b with
  | none => exact le_refl _
  | some (balance, since) => exact min_le_right _ _

/-- By a rule that is no faster and has no higher ceiling, a bucket holds no more. -/
lemma Rule.level_le_level {r r' : Rule} (hper : 0 < r.per) (hper' : 0 < r'.per)
    (hrate : r'.amount * r.per ≤ r.amount * r'.per) (hcap : r'.cap ≤ r.cap) (b : Level) (now : ℕ) :
    r'.level b now ≤ r.level b now := by
  match b with
  | none => exact hcap
  | some (balance, since) =>
    exact min_le_min (Nat.add_le_add_left (Rule.refill_le_refill hper hper' hrate _) _) hcap

/-- Taking from a bucket leaves it no better off than it would have been, ever after. -/
lemma Rule.level_take_le (r : Rule) {balance since now t : ℕ} (cost : ℕ) (hnow : since ≤ now)
    (ht : now ≤ t) :
    r.level (some (r.level (some (balance, since)) now - cost, now)) t
      ≤ r.level (some (balance, since)) t := by
  have hadd := r.refill_add_le (now - since) (t - now)
  rw [show now - since + (t - now) = t - since by omega] at hadd
  refine min_le_min_right r.cap ?_
  calc r.level (some (balance, since)) now - cost + r.refill (t - now)
      ≤ balance + r.refill (now - since) + r.refill (t - now) := by
        have hlevel : r.level (some (balance, since)) now ≤ balance + r.refill (now - since) :=
          min_le_left _ _
        omega
    _ ≤ balance + r.refill (t - since) := by omega

/-! ### Spending -/

@[simp] lemma spent_nil (s t : ℕ) : spent s t [] = 0 := rfl

lemma spent_cons (s t now cost : ℕ) (l : List (ℕ × ℕ)) :
    spent s t ((now, cost) :: l) =
      (if s ≤ now ∧ now ≤ t then cost else 0) + spent s t l := by
  by_cases h : s ≤ now ∧ now ≤ t
  · simp [spent, h]
  · simp [spent, h]

lemma spent_cons_zero (s t now : ℕ) (l : List (ℕ × ℕ)) :
    spent s t ((now, 0) :: l) = spent s t l := by
  simp [spent_cons]

/-- Nothing is spent in a window that closed before the run began. -/
lemma spent_eq_zero {s t : ℕ} {l : List (ℕ × ℕ)} (h : ∀ e ∈ l, t < e.1) : spent s t l = 0 := by
  induction l with
  | nil => rfl
  | cons e l ih =>
    obtain ⟨now, cost⟩ := e
    have hnow : t < now := h (now, cost) (by simp)
    rw [spent_cons, if_neg (by omega), ih fun e he => h e (by simp [he])]

/-- What was taken in a window, when only some of the requests take anything. -/
lemma spent_map {α : Type} (time cost : α → ℕ) (takes : α → Prop) [DecidablePred takes] (s t : ℕ)
    (l : List α) :
    spent s t (l.map fun x => (time x, if takes x then cost x else 0)) =
      ((l.filter fun x => takes x ∧ s ≤ time x ∧ time x ≤ t).map cost).sum := by
  induction l with
  | nil => rfl
  | cons x l ih =>
    rw [List.map_cons, spent_cons, ih]
    by_cases hx : takes x
    · by_cases hin : s ≤ time x ∧ time x ≤ t <;> simp [hx, hin]
    · simp [hx]

/-- From a bucket of known content, a run takes at most that content and the refill since. -/
lemma Run.spent_le_of_some {r : Rule} {balance since : ℕ} {l : List (ℕ × ℕ)}
    (hrun : Run r (some (balance, since)) l) (hsorted : l.Pairwise fun a b => a.1 ≤ b.1)
    (hsince : ∀ e ∈ l, since ≤ e.1) (s t : ℕ) (ht : since ≤ t) :
    spent s t l ≤ balance + r.refill (t - since) := by
  induction l generalizing balance since with
  | nil => simp
  | cons e l ih =>
    cases hrun with
    | cons hstep hrest =>
      rename_i b' now cost
      obtain ⟨hnow, hrest'⟩ := List.pairwise_cons.mp hsorted
      cases hstep with
      | idle =>
        rw [spent_cons_zero]
        exact ih hrest hrest' (fun e he => hsince e (by simp [he])) ht
      | take _ _ hcost =>
        have hle : since ≤ now := hsince (now, cost) (by simp)
        by_cases hlate : t < now
        · -- the window is over, and so it is for everything later
          rw [spent_cons, if_neg (by omega),
            spent_eq_zero fun e he => lt_of_lt_of_le hlate (hnow e he)]
          omega
        · have hrec := ih hrest hrest' hnow (by omega)
          have hlevel : r.level (some (balance, since)) now
              ≤ balance + r.refill (now - since) := min_le_left _ _
          have hadd := r.refill_add_le (now - since) (t - now)
          rw [show now - since + (t - now) = t - since by omega] at hadd
          have hhead : (if s ≤ now ∧ now ≤ t then cost else 0) ≤ cost := by split <;> omega
          rw [spent_cons]
          omega

/-- **The window bound.** Whatever state a bucket is in, what a run takes from it in `[s, t]` is
at most the ceiling plus the refill of the window. -/
theorem Run.spent_le {r : Rule} {b : Level} {l : List (ℕ × ℕ)} (hrun : Run r b l)
    (hsorted : l.Pairwise fun a b => a.1 ≤ b.1) (s t : ℕ) :
    spent s t l ≤ r.cap + r.refill (t - s) := by
  induction l generalizing b with
  | nil => simp
  | cons e l ih =>
    cases hrun with
    | cons hstep hrest =>
      rename_i b' now cost
      obtain ⟨hnow, hrest'⟩ := List.pairwise_cons.mp hsorted
      by_cases hin : s ≤ now ∧ now ≤ t
      · cases hstep with
        | idle =>
          rw [spent_cons_zero]
          exact ih hrest hrest'
        | create =>
          rw [spent_cons_zero]
          exact ih hrest hrest'
        | take _ _ hcost =>
          -- the first withdrawal of the window: the bucket cannot hold more than the ceiling
          have hrec := hrest.spent_le_of_some hrest' hnow s t hin.2
          have hcap := r.level_le_cap b now
          have hmono := r.refill_mono (show t - now ≤ t - s by omega)
          rw [spent_cons, if_pos hin]
          omega
      · rw [spent_cons, if_neg hin, Nat.zero_add]
        exact ih hrest hrest'

/-! ### Clocks that go back -/

/-- How far a clock climbs in all over its readings. What it falls back in between is not taken
off: the bucket does not see it. -/
def climb : List ℕ → ℕ
  | [] => 0
  | [_] => 0
  | a :: b :: l => (b - a) + climb (b :: l)

/-- A reading that is left out does not make the clock climb further. -/
lemma climb_cons_le (a b : ℕ) (l : List ℕ) : climb (a :: l) ≤ climb (a :: b :: l) := by
  cases l with
  | nil => exact Nat.zero_le _
  | cons c l =>
    simp only [climb]
    omega

lemma climb_le_climb_cons (a : ℕ) (l : List ℕ) : climb l ≤ climb (a :: l) := by
  cases l with
  | nil => exact Nat.le_refl _
  | cons b l => exact Nat.le_add_left _ _

/-- From a bucket of known content, a run takes at most that content and the refill of every
climb of the clock since. -/
lemma Run.sum_le_of_some {r : Rule} {balance since : ℕ} {l : List (ℕ × ℕ)}
    (hrun : Run r (some (balance, since)) l) :
    (l.map Prod.snd).sum ≤ balance + r.refill (climb (since :: l.map Prod.fst)) := by
  induction l generalizing balance since with
  | nil => simp
  | cons e l ih =>
    cases hrun with
    | cons hstep hrest =>
      rename_i b' now cost
      simp only [List.map_cons, List.sum_cons]
      cases hstep with
      | idle =>
        have hrec := ih hrest
        have hmono := r.refill_mono (climb_cons_le since now (l.map Prod.fst))
        omega
      | take _ _ hcost =>
        have hrec := ih hrest
        have hlevel : r.level (some (balance, since)) now
            ≤ balance + r.refill (now - since) := min_le_left _ _
        have hadd := r.refill_add_le (now - since) (climb (now :: l.map Prod.fst))
        rw [climb]
        omega

/-- **The bound without a clock.** Whatever state a bucket is in and wherever the clock jumps, a
run takes from it at most the ceiling plus the refill of all the clock's climbs. -/
theorem Run.sum_le {r : Rule} {b : Level} {l : List (ℕ × ℕ)} (hrun : Run r b l) :
    (l.map Prod.snd).sum ≤ r.cap + r.refill (climb (l.map Prod.fst)) := by
  induction l generalizing b with
  | nil => simp
  | cons e l ih =>
    cases hrun with
    | cons hstep hrest =>
      rename_i b' now cost
      simp only [List.map_cons, List.sum_cons]
      have hmono := r.refill_mono (climb_le_climb_cons now (l.map Prod.fst))
      cases hstep with
      | idle =>
        have hrec := ih hrest
        omega
      | create =>
        have hrec := ih hrest
        omega
      | take _ _ hcost =>
        have hrec := hrest.sum_le_of_some
        have hcap := r.level_le_cap b now
        omega

end TokenBucket
