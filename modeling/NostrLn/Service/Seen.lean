import Mathlib.Data.Finset.Card
import NostrLn.Service.Republish

/-!
# How many controllers have been seen

Controllers are kept in two maps: the rate buckets, whose keys are pairs of a controller and a
method, and the quota buckets, whose keys are controllers. The count that is given out is the larger
of the two numbers of controllers, whereas those that have been seen are those of either map.
-/

/-- The larger of two sets has as many elements as their union only if it is their union. -/
lemma Finset.max_card_eq_card_union_iff {α : Type*} [DecidableEq α] {s t : Finset α} :
    max s.card t.card = (s ∪ t).card ↔ s ⊆ t ∨ t ⊆ s := by
  constructor
  · intro h
    obtain hmax | hmax := max_choice s.card t.card
    · right
      have heq : s = s ∪ t := Finset.eq_of_subset_of_card_le Finset.subset_union_left (by
        rw [← h, hmax])
      exact Finset.union_eq_left.mp heq.symm
    · left
      have heq : t = s ∪ t := Finset.eq_of_subset_of_card_le Finset.subset_union_right (by
        rw [← h, hmax])
      exact Finset.union_eq_right.mp heq.symm
  · rintro (h | h)
    · rw [Finset.union_eq_right.mpr h, max_eq_right (Finset.card_le_card h)]
    · rw [Finset.union_eq_left.mpr h, max_eq_left (Finset.card_le_card h)]

namespace NostrLn

namespace LimitCall

/-- Who the call is about. -/
def controller : LimitCall → PublicKey
  | rateAllows c _ _ _ => c
  | quotaAllows c _ _ _ => c
  | chargeRate c _ _ _ => c
  | chargeQuota c _ _ _ => c

/-- It is about a method's rate. -/
def isRate : LimitCall → Bool
  | rateAllows .. => true
  | chargeRate .. => true
  | _ => false

end LimitCall

/-- The controllers that appear in some calls. -/
def controllersIn (calls : List LimitCall) : Finset PublicKey :=
  (calls.map LimitCall.controller).toFinset

/-- Those that appear in a call about a rate. -/
def rateControllers (calls : List LimitCall) : Finset PublicKey :=
  controllersIn (calls.filter LimitCall.isRate)

/-- Those that appear in a call about a quota. -/
def quotaControllers (calls : List LimitCall) : Finset PublicKey :=
  controllersIn (calls.filter fun call => !call.isRate)

variable {calls : List LimitCall} {c : PublicKey}

lemma mem_controllersIn : c ∈ controllersIn calls ↔ ∃ call ∈ calls, call.controller = c := by
  rw [controllersIn, List.mem_toFinset, List.mem_map]

lemma mem_rateControllers :
    c ∈ rateControllers calls ↔ ∃ call ∈ calls, call.isRate = true ∧ call.controller = c := by
  simp only [rateControllers, mem_controllersIn, List.mem_filter, and_assoc]

lemma mem_quotaControllers :
    c ∈ quotaControllers calls ↔ ∃ call ∈ calls, call.isRate = false ∧ call.controller = c := by
  simp only [quotaControllers, mem_controllersIn, List.mem_filter, Bool.not_eq_true', and_assoc]

/-- Every call is about a rate or about a quota. -/
lemma rateControllers_union_quotaControllers (calls : List LimitCall) :
    rateControllers calls ∪ quotaControllers calls = controllersIn calls := by
  ext c
  rw [Finset.mem_union, mem_rateControllers, mem_quotaControllers, mem_controllersIn]
  constructor
  · rintro (⟨call, hmem, _, hc⟩ | ⟨call, hmem, _, hc⟩)
    · exact ⟨call, hmem, hc⟩
    · exact ⟨call, hmem, hc⟩
  · rintro ⟨call, hmem, hc⟩
    cases hrate : call.isRate with
    | true => exact .inl ⟨call, hmem, hrate, hc⟩
    | false => exact .inr ⟨call, hmem, hrate, hc⟩

/-! ### Which buckets there are -/

lemma LimitCall.exists_slot_eq_rate_iff {call : LimitCall} {h : String} :
    (∃ m, call.slot = .rate (h, m)) ↔ call.isRate = true ∧ call.controller.toHex = h := by
  cases call <;> simp [LimitCall.slot, LimitCall.isRate, LimitCall.controller]

lemma LimitCall.slot_eq_quota_iff {call : LimitCall} {h : String} :
    call.slot = .quota h ↔ call.isRate = false ∧ call.controller.toHex = h := by
  cases call <;> simp [LimitCall.slot, LimitCall.isRate, LimitCall.controller]

/-- A bucket is there once a call has been about it, and stays. -/
lemma Usage.isSome_slot_afterCalls (u : Usage) (calls : List LimitCall) (s : Slot) :
    ((u.afterCalls calls).slot s).isSome ↔
      (u.slot s).isSome ∨ ∃ call ∈ calls, call.slot = s := by
  induction calls generalizing u with
  | nil => simp [Usage.afterCalls]
  | cons call calls ih =>
    have hcons : u.afterCalls (call :: calls) = (call.run u).2.afterCalls calls := rfl
    rw [hcons, ih, LimitCall.slot_run]
    by_cases hs : s = call.slot
    · simp [hs]
    · simp [hs, Ne.symm hs]

lemma Usage.isSome_slot_afterCalls_new {s : Slot} :
    ((Usage.new.afterCalls calls).slot s).isSome ↔ ∃ call ∈ calls, call.slot = s := by
  have hnew : Usage.new.slot s = none := by
    cases s with
    | rate k => exact AList.lookup_empty k
    | quota k => exact AList.lookup_empty k
  rw [Usage.isSome_slot_afterCalls, hnew]
  simp

/-- The keys of the quota buckets are those the calls about a quota used. -/
lemma Usage.mem_keys_quota_iff {h : String} :
    h ∈ (Usage.new.afterCalls calls).quota.keys ↔
      ∃ call ∈ calls, call.isRate = false ∧ call.controller.toHex = h := by
  simp only [← LimitCall.slot_eq_quota_iff, ← Usage.isSome_slot_afterCalls_new]
  exact AList.lookup_isSome.symm

/-- The controllers among the keys of the rate buckets are those of the calls about a rate. -/
lemma Usage.mem_keys_rate_iff {h : String} :
    h ∈ (Usage.new.afterCalls calls).rate.keys.map Prod.fst ↔
      ∃ call ∈ calls, call.isRate = true ∧ call.controller.toHex = h := by
  have hkey : ∀ m, (h, m) ∈ (Usage.new.afterCalls calls).rate.keys ↔
      ∃ call ∈ calls, call.slot = .rate (h, m) := by
    intro m
    rw [← Usage.isSome_slot_afterCalls_new]
    exact AList.lookup_isSome.symm
  simp only [List.mem_map, Prod.exists, exists_and_right, exists_eq_right, hkey,
    ← LimitCall.exists_slot_eq_rate_iff]
  constructor
  · rintro ⟨m, call, hmem, hslot⟩
    exact ⟨call, hmem, m, hslot⟩
  · rintro ⟨call, hmem, m, hslot⟩
    exact ⟨m, call, hmem, hslot⟩

/-! ### The count -/

lemma mem_image_toHex_controllersIn {h : String} :
    h ∈ (controllersIn calls).image PublicKey.toHex ↔
      ∃ call ∈ calls, call.controller.toHex = h := by
  simp only [Finset.mem_image, mem_controllersIn]
  constructor
  · rintro ⟨_, ⟨call, hmem, rfl⟩, heq⟩
    exact ⟨call, hmem, heq⟩
  · rintro ⟨call, hmem, heq⟩
    exact ⟨call.controller, ⟨call, hmem, rfl⟩, heq⟩

lemma Usage.length_keys_quota (calls : List LimitCall) :
    (Usage.new.afterCalls calls).quota.keys.length = (quotaControllers calls).card := by
  rw [← List.toFinset_card_of_nodup (AList.keys_nodup _),
    ← Finset.card_image_of_injective _ PublicKey.toHex_injective]
  congr 1
  ext h
  rw [List.mem_toFinset, Usage.mem_keys_quota_iff, quotaControllers,
    mem_image_toHex_controllersIn]
  simp only [List.mem_filter, Bool.not_eq_true', and_assoc]

lemma Usage.length_dedup_keys_rate (calls : List LimitCall) :
    ((Usage.new.afterCalls calls).rate.keys.map Prod.fst).dedup.length =
      (rateControllers calls).card := by
  rw [← List.card_toFinset, ← Finset.card_image_of_injective _ PublicKey.toHex_injective]
  congr 1
  ext h
  rw [List.mem_toFinset, Usage.mem_keys_rate_iff, rateControllers, mem_image_toHex_controllersIn]
  simp only [List.mem_filter, and_assoc]

lemma Usage.controllersSeen_afterCalls (calls : List LimitCall) :
    (Usage.new.afterCalls calls).controllersSeen =
      max (quotaControllers calls).card (rateControllers calls).card := by
  rw [Usage.controllersSeen, Usage.length_keys_quota, Usage.length_dedup_keys_rate]

/-- The controllers that have been seen are counted exactly when those with a quota bucket all have
a rate bucket, or the other way round. -/
theorem Usage.controllersSeen_eq_card_iff (calls : List LimitCall) :
    (Usage.new.afterCalls calls).controllersSeen = (controllersIn calls).card ↔
      (∀ call ∈ calls, call.isRate = false →
        ∃ other ∈ calls, other.isRate = true ∧ other.controller = call.controller) ∨
      (∀ call ∈ calls, call.isRate = true →
        ∃ other ∈ calls, other.isRate = false ∧ other.controller = call.controller) := by
  rw [Usage.controllersSeen_afterCalls, ← rateControllers_union_quotaControllers,
    Finset.union_comm, Finset.max_card_eq_card_union_iff]
  simp only [Finset.subset_iff, mem_quotaControllers, mem_rateControllers]
  constructor
  · rintro (h | h)
    · exact .inl fun call hmem hquota => h ⟨call, hmem, hquota, rfl⟩
    · exact .inr fun call hmem hrate => h ⟨call, hmem, hrate, rfl⟩
  · rintro (h | h)
    · left
      rintro _ ⟨call, hmem, hquota, rfl⟩
      exact h call hmem hquota
    · right
      rintro _ ⟨call, hmem, hrate, rfl⟩
      exact h call hmem hrate

/-- One controller that only calls and another that only spends are counted as one. -/
theorem Usage.controllersSeen_miscounts :
    ¬ ∀ calls : List LimitCall,
      (Usage.new.afterCalls calls).controllersSeen = (controllersIn calls).card := by
  intro h
  let calls : List LimitCall :=
    [.quotaAllows (Sample.key 4) 10 (fixedRule 100) 0,
      .rateAllows (Sample.key 5) "get_info" (fixedRule 5) 0]
  have hne : Sample.key 4 ≠ Sample.key 5 := by decide
  have hcount := h calls
  rw [Usage.controllersSeen_afterCalls] at hcount
  have hin : (controllersIn calls).card = 2 := Finset.card_pair hne
  have hquota : (quotaControllers calls).card = 1 := Finset.card_singleton (Sample.key 4)
  have hrate : (rateControllers calls).card = 1 := Finset.card_singleton (Sample.key 5)
  rw [hin, hquota, hrate] at hcount
  exact absurd hcount (by decide)

end NostrLn
