import Mathlib.Data.List.Induction
import Mathlib.Data.List.Perm.Basic
import Mathlib.Order.Lattice
import Mathlib.Tactic.Common

/-!
# Newest wins

A register that keeps, of the values it is given one after another, the newest by a time stamp.
A value is turned away only when it is *strictly* older than the one kept, so among values that
share the greatest stamp the last one given stays.

The second half is a register that *forgets*: some values clear it, and a cleared register keeps
no stamp, so what is given next is kept however old it is.
-/

namespace Newest

variable {α τ : Type*} [LinearOrder τ] (stamp : α → τ)

/-- Keep `x` unless it is older than what is kept. -/
def step (kept : Option α) (x : α) : Option α :=
  match kept with
  | none => some x
  | some y => if stamp x < stamp y then some y else some x

/-- What is kept after the whole list was given, in order. -/
def latest (l : List α) : Option α := l.foldl (step stamp) none

/-- `x` stands in `l` with nothing after it as new as itself. -/
def IsPeak (x : α) (l : List α) : Prop :=
  ∃ pre post, l = pre ++ x :: post ∧ ∀ y ∈ post, stamp y < stamp x

/-- `x` is the last of the elements of `l` with the greatest stamp. -/
def IsLatest (x : α) (l : List α) : Prop :=
  ∃ pre post, l = pre ++ x :: post ∧ (∀ y ∈ pre, stamp y ≤ stamp x) ∧
    ∀ y ∈ post, stamp y < stamp x

variable {stamp}

lemma IsLatest.isPeak {x : α} {l : List α} (h : IsLatest stamp x l) : IsPeak stamp x l := by
  obtain ⟨pre, post, rfl, _, hpost⟩ := h
  exact ⟨pre, post, rfl, hpost⟩

lemma IsPeak.mem {x : α} {l : List α} (h : IsPeak stamp x l) : x ∈ l := by
  obtain ⟨pre, post, rfl, _⟩ := h
  simp

lemma IsLatest.mem {x : α} {l : List α} (h : IsLatest stamp x l) : x ∈ l :=
  h.isPeak.mem

lemma IsLatest.le {x y : α} {l : List α} (h : IsLatest stamp x l) (hy : y ∈ l) :
    stamp y ≤ stamp x := by
  obtain ⟨pre, post, rfl, hpre, hpost⟩ := h
  rcases List.mem_append.mp hy with hy | hy
  · exact hpre y hy
  · rcases List.mem_cons.mp hy with rfl | hy
    · exact le_refl _
    · exact le_of_lt (hpost y hy)

/-- A peak of `l ++ [z]` is `z` itself, or a peak of `l` newer than `z`. -/
lemma isPeak_concat {x z : α} {l : List α} :
    IsPeak stamp x (l ++ [z]) ↔ x = z ∨ (IsPeak stamp x l ∧ stamp z < stamp x) := by
  constructor
  · rintro ⟨pre, post, heq, hpost⟩
    rcases List.eq_nil_or_concat' post with rfl | ⟨post, w, rfl⟩
    · obtain ⟨_, hxz⟩ := List.append_inj' heq rfl
      exact Or.inl (List.singleton_inj.mp hxz).symm
    · have heq' : l ++ [z] = (pre ++ x :: post) ++ [w] := by simpa using heq
      obtain ⟨rfl, hzw⟩ := List.append_inj' heq' rfl
      obtain rfl := List.singleton_inj.mp hzw
      exact Or.inr ⟨⟨pre, post, rfl, fun y hy => hpost y (by simp [hy])⟩,
        hpost z (by simp)⟩
  · rintro (rfl | ⟨⟨pre, post, rfl, hpost⟩, hz⟩)
    · exact ⟨l, [], rfl, by simp⟩
    · refine ⟨pre, post ++ [z], by simp, ?_⟩
      intro y hy
      rcases List.mem_append.mp hy with hy | hy
      · exact hpost y hy
      · obtain rfl : y = z := by simpa using hy
        exact hz

/-- Two peaks with the same stamp are one and the same. -/
lemma IsPeak.eq_of_stamp_eq {x y : α} {l : List α} (hx : IsPeak stamp x l)
    (hy : IsPeak stamp y l) (h : stamp x = stamp y) : x = y := by
  induction l using List.reverseRecOn with
  | nil => simpa using hx.mem
  | append_singleton l z ih =>
    rcases isPeak_concat.mp hx with rfl | ⟨hx, hzx⟩
    · rcases isPeak_concat.mp hy with rfl | ⟨_, hzy⟩
      · rfl
      · exact absurd (h ▸ hzy) (lt_irrefl _)
    · rcases isPeak_concat.mp hy with rfl | ⟨hy, _⟩
      · exact absurd (h ▸ hzx) (lt_irrefl _)
      · exact ih hx hy

/-! ### The register -/

@[simp] lemma latest_nil : latest stamp ([] : List α) = none := rfl

lemma latest_concat (l : List α) (x : α) :
    latest stamp (l ++ [x]) = step stamp (latest stamp l) x := by
  simp [latest]

lemma step_isSome (kept : Option α) (x : α) : (step stamp kept x).isSome := by
  match kept with
  | none => rfl
  | some y => simp only [step]; split <;> rfl

lemma latest_eq_none_iff {l : List α} : latest stamp l = none ↔ l = [] := by
  constructor
  · intro h
    rcases List.eq_nil_or_concat' l with rfl | ⟨l, x, rfl⟩
    · rfl
    · rw [latest_concat] at h
      have : (step stamp (latest stamp l) x).isSome := step_isSome _ x
      simp [h] at this
  · rintro rfl
    rfl

lemma isLatest_concat_of_lt {x z : α} {l : List α} (h : IsLatest stamp x l)
    (hz : stamp z < stamp x) : IsLatest stamp x (l ++ [z]) := by
  obtain ⟨pre, post, rfl, hpre, hpost⟩ := h
  refine ⟨pre, post ++ [z], by simp, hpre, ?_⟩
  intro y hy
  rcases List.mem_append.mp hy with hy | hy
  · exact hpost y hy
  · obtain rfl : y = z := by simpa using hy
    exact hz

/-- What the register keeps is the last of the newest. -/
lemma isLatest_of_latest {x : α} {l : List α} (h : latest stamp l = some x) :
    IsLatest stamp x l := by
  induction l using List.reverseRecOn generalizing x with
  | nil => simp at h
  | append_singleton l z ih =>
    rw [latest_concat] at h
    cases hl : latest stamp l with
    | none =>
      rw [hl] at h
      obtain rfl : z = x := by simpa [step] using h
      obtain rfl := latest_eq_none_iff.mp hl
      exact ⟨[], [], rfl, by simp, by simp⟩
    | some y =>
      rw [hl] at h
      have hy := ih hl
      simp only [step] at h
      split at h
      · rename_i hlt
        obtain rfl : y = x := by simpa using h
        exact isLatest_concat_of_lt hy hlt
      · rename_i hge
        obtain rfl : z = x := by simpa using h
        exact ⟨l, [], rfl, fun w hw => le_trans (hy.le hw) (not_lt.mp hge), by simp⟩

theorem latest_eq_some_iff {x : α} {l : List α} :
    latest stamp l = some x ↔ IsLatest stamp x l := by
  constructor
  · exact isLatest_of_latest
  · intro h
    cases hl : latest stamp l with
    | none =>
      obtain rfl := latest_eq_none_iff.mp hl
      simpa using h.mem
    | some y =>
      have hy := isLatest_of_latest hl
      have hstamp : stamp y = stamp x := le_antisymm (h.le hy.mem) (hy.le h.mem)
      rw [hy.isPeak.eq_of_stamp_eq h.isPeak hstamp]

/-- What came before does not matter once everything in it has been said again, not older. -/
lemma latest_append_of_covered {l l' : List α} (h : ∀ x ∈ l, ∃ y ∈ l', stamp x ≤ stamp y) :
    latest stamp (l ++ l') = latest stamp l' := by
  cases hl : latest stamp l' with
  | none =>
    rw [latest_eq_none_iff] at hl ⊢
    cases l with
    | nil => simpa using hl
    | cons x l =>
      obtain ⟨y, hy, _⟩ := h x (by simp)
      simp [hl] at hy
  | some y =>
    have hlatest := isLatest_of_latest hl
    obtain ⟨pre, post, hsplit, hpre, hpost⟩ := hlatest
    refine latest_eq_some_iff.mpr ⟨l ++ pre, post, by simp [hsplit], ?_, hpost⟩
    intro x hx
    rcases List.mem_append.mp hx with hx | hx
    · obtain ⟨z, hz, hle⟩ := h x hx
      exact le_trans hle (IsLatest.le ⟨pre, post, hsplit, hpre, hpost⟩ hz)
    · exact hpre x hx

/-- The register of images, stamped alike, keeps the image. -/
lemma latest_map {β : Type*} {stamp' : β → τ} {f : α → β} (hf : ∀ x, stamp' (f x) = stamp x)
    (l : List α) : latest stamp' (l.map f) = (latest stamp l).map f := by
  induction l using List.reverseRecOn with
  | nil => rfl
  | append_singleton l x ih =>
    rw [List.map_append, List.map_singleton, latest_concat, latest_concat, ih]
    cases latest stamp l with
    | none => rfl
    | some y =>
      simp only [step, Option.map_some, hf]
      split <;> rfl

/-! ### Order of arrival -/

/-- If the newest elements all look alike, the order they were given in does not show. -/
theorem latest_map_eq_of_perm {β : Type*} {f : α → β} {l₁ l₂ : List α} (hp : l₁.Perm l₂)
    (hf : ∀ x ∈ l₁, ∀ y ∈ l₁, (∀ z ∈ l₁, stamp z ≤ stamp x) → (∀ z ∈ l₁, stamp z ≤ stamp y) →
      f x = f y) :
    (latest stamp l₁).map f = (latest stamp l₂).map f := by
  cases h₁ : latest stamp l₁ with
  | none =>
    obtain rfl := latest_eq_none_iff.mp h₁
    rw [hp.nil_eq.symm]
    rfl
  | some x =>
    cases h₂ : latest stamp l₂ with
    | none =>
      obtain rfl := latest_eq_none_iff.mp h₂
      rw [hp.eq_nil] at h₁
      simp at h₁
    | some y =>
      have hx := latest_eq_some_iff.mp h₁
      have hy := latest_eq_some_iff.mp h₂
      have := hf x hx.mem y (hp.mem_iff.mpr hy.mem) (fun z hz => hx.le hz)
        (fun z hz => hy.le (hp.mem_iff.mp hz))
      simp [this]

/-- Of the elements that pass `p`, any one with the greatest stamp can be made the one kept. -/
theorem exists_perm_latest_filter {p : α → Bool} {x : α} {l : List α} (hx : x ∈ l.filter p)
    (hmax : ∀ z ∈ l.filter p, stamp z ≤ stamp x) :
    ∃ l', l.Perm l' ∧ latest stamp (l'.filter p) = some x := by
  obtain ⟨hxl, hpx⟩ := List.mem_filter.mp hx
  obtain ⟨pre, post, rfl⟩ := List.append_of_mem hxl
  -- give it last
  refine ⟨(pre ++ post) ++ [x], ?_, ?_⟩
  · exact List.perm_middle.trans (List.perm_append_singleton x (pre ++ post)).symm
  · rw [latest_eq_some_iff]
    refine ⟨(pre ++ post).filter p, [], by simp [hpx], fun y hy => hmax y ?_, by simp⟩
    simp only [List.filter_append, List.filter_cons, List.mem_append] at hy ⊢
    rcases hy with hy | hy
    · exact Or.inl hy
    · exact Or.inr (by split <;> simp [hy])

/-! ### A register that forgets -/

section Forget

variable (stamp) (clears : α → Bool)

/-- As `step`, except that a value that clears leaves nothing behind, not even its stamp. -/
def forgetStep (kept : Option α) (x : α) : Option α :=
  match kept with
  | none => if clears x then none else some x
  | some y => if stamp x < stamp y then some y else if clears x then none else some x

def remembered (l : List α) : Option α := l.foldl (forgetStep stamp clears) none

variable {stamp clears}

@[simp] lemma remembered_nil : remembered stamp clears ([] : List α) = none := rfl

lemma eq_or_eq_of_forgetStep {kept : Option α} {x y : α}
    (h : forgetStep stamp clears kept x = some y) : x = y ∨ kept = some y := by
  cases kept with
  | none =>
    simp only [forgetStep] at h
    split at h
    · cases h
    · exact Or.inl (Option.some.inj h)
  | some z =>
    simp only [forgetStep] at h
    split at h
    · exact Or.inr h
    · split at h
      · cases h
      · exact Or.inl (Option.some.inj h)

lemma remembered_concat (l : List α) (x : α) :
    remembered stamp clears (l ++ [x]) =
      forgetStep stamp clears (remembered stamp clears l) x := by
  simp [remembered]

/-- Images that are stamped alike and clear alike are kept alike. -/
lemma forgetStep_map {β : Type*} {stamp' : β → τ} {clears' : β → Bool} {f : α → β}
    (hstamp : ∀ x, stamp' (f x) = stamp x) (hclears : ∀ x, clears' (f x) = clears x)
    (kept : Option α) (x : α) :
    forgetStep stamp' clears' (kept.map f) (f x) = (forgetStep stamp clears kept x).map f := by
  match kept with
  | none => simp only [Option.map_none, forgetStep, hclears]; split_ifs <;> rfl
  | some y => simp only [Option.map_some, forgetStep, hclears, hstamp]; split_ifs <;> rfl

/-- What is remembered did not clear, and everything given after it was older. -/
lemma isPeak_of_remembered {x : α} {l : List α} (h : remembered stamp clears l = some x) :
    IsPeak stamp x l ∧ clears x = false := by
  induction l using List.reverseRecOn generalizing x with
  | nil => simp at h
  | append_singleton l z ih =>
    rw [remembered_concat] at h
    cases hl : remembered stamp clears l with
    | none =>
      rw [hl] at h
      simp only [forgetStep] at h
      split at h
      · cases h
      · rename_i hc
        obtain rfl : z = x := by simpa using h
        exact ⟨isPeak_concat.mpr (Or.inl rfl), by simpa using hc⟩
    | some y =>
      rw [hl] at h
      obtain ⟨hpeak, hy⟩ := ih hl
      simp only [forgetStep] at h
      split at h
      · rename_i hlt
        obtain rfl : y = x := by simpa using h
        exact ⟨isPeak_concat.mpr (Or.inr ⟨hpeak, hlt⟩), hy⟩
      · split at h
        · cases h
        · rename_i hc
          obtain rfl : z = x := by simpa using h
          exact ⟨isPeak_concat.mpr (Or.inl rfl), by simpa using hc⟩

/-- A value that does not clear and is newer than all that follow it is never lost to nothing. -/
lemma remembered_of_isPeak {x : α} {l : List α} (hx : IsPeak stamp x l)
    (hc : clears x = false) : ∃ y, remembered stamp clears l = some y ∧ stamp x ≤ stamp y := by
  induction l using List.reverseRecOn with
  | nil => simpa using hx.mem
  | append_singleton l z ih =>
    rw [remembered_concat]
    rcases isPeak_concat.mp hx with rfl | ⟨hx, hz⟩
    · cases hl : remembered stamp clears l with
      | none => exact ⟨x, by simp [forgetStep, hc], le_refl _⟩
      | some y =>
        by_cases hlt : stamp x < stamp y
        · exact ⟨y, by simp [forgetStep, hlt], le_of_lt hlt⟩
        · exact ⟨x, by simp [forgetStep, hlt, hc], le_refl _⟩
    · obtain ⟨y, hy, hle⟩ := ih hx
      exact ⟨y, by simp [hy, forgetStep, lt_of_lt_of_le hz hle], hle⟩

/-- The register ends empty exactly when every peak clears. -/
theorem remembered_eq_none_iff {l : List α} :
    remembered stamp clears l = none ↔ ∀ x, IsPeak stamp x l → clears x = true := by
  constructor
  · intro h x hx
    by_contra hc
    obtain ⟨y, hy, _⟩ := remembered_of_isPeak hx (by simpa using hc)
    rw [h] at hy
    cases hy
  · intro h
    cases hl : remembered stamp clears l with
    | none => rfl
    | some x =>
      obtain ⟨hpeak, hc⟩ := isPeak_of_remembered hl
      rw [h x hpeak] at hc
      cases hc

/-- When the newest value does not clear, forgetting makes no difference. -/
theorem remembered_of_isLatest {x : α} {l : List α} (hx : IsLatest stamp x l)
    (hc : clears x = false) : remembered stamp clears l = some x := by
  obtain ⟨y, hy, hle⟩ := remembered_of_isPeak hx.isPeak hc
  have hpeak := (isPeak_of_remembered hy).1
  have hstamp : stamp y = stamp x := le_antisymm (hx.le hpeak.mem) hle
  rw [hy, hpeak.eq_of_stamp_eq hx.isPeak hstamp]

end Forget

end Newest
