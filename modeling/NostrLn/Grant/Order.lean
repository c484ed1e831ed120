import NostrLn.Grant.Store

/-!
# Does the order of delivery show?

The same events reach a node in one order over the live stream and in another when it re-reads
its grants. A slot is a newest-wins register, so the two agree unless several of the newest
events for it say different things: then the last one applied is in force, and the order shows.
-/

namespace NostrLn

variable {parse : String → Option UsageProfile} {node : PublicKey} {owners : List PublicKey}

/-- The profile an event carries. -/
def Event.profile (parse : String → Option UsageProfile) (e : Event) : UsageProfile :=
  (VerifiedGrant.ofEvent parse e).profile

/-- The key of the slot that decides what `c` may do: its own if any event is for it, else that
of `OTHERS`. -/
def governingKey (node : PublicKey) (owners : List PublicKey) (c : PublicKey) (es : List Event) :
    String :=
  if eligibleFor node owners c.toHex es = [] then othersKey else c.toHex

/-- The events that decide what `c` may do. -/
def governing (node : PublicKey) (owners : List PublicKey) (c : PublicKey) (es : List Event) :
    List Event :=
  eligibleFor node owners (governingKey node owners c es) es

/-- The newest of the events that decide what `c` may do all carry the same profile. -/
def Untied (parse : String → Option UsageProfile) (node : PublicKey) (owners : List PublicKey)
    (es : List Event) (c : PublicKey) : Prop :=
  ∀ x ∈ governing node owners c es, ∀ y ∈ governing node owners c es,
    (∀ z ∈ governing node owners c es, z.stamp ≤ x.stamp) →
    (∀ z ∈ governing node owners c es, z.stamp ≤ y.stamp) → x.profile parse = y.profile parse

/-- What `c` may do after the events were applied in this order, if any grant applies to it. -/
def Grants.profileAfter (parse : String → Option UsageProfile) (node : PublicKey)
    (owners : List PublicKey) (es : List Event) (c : PublicKey) : Except Denied UsageProfile :=
  (((Grants.new node owners).applyAll parse es).resolve c).map VerifiedGrant.profile

/-- The grant in force is that of the newest deciding event. -/
lemma Grants.resolve_applyAll_new (es : List Event) (c : PublicKey) :
    ((Grants.new node owners).applyAll parse es).resolve c =
      match Newest.latest Event.stamp (governing node owners c es) with
      | some e => .ok (VerifiedGrant.ofEvent parse e)
      | none => .error .unauthorized := by
  rw [Grants.resolve_eq, Grants.getRaw_applyAll_new, Grants.getRaw_applyAll_new, governing,
    governingKey]
  split_ifs with hown
  · rw [hown, Newest.latest_nil]
    cases Newest.latest Event.stamp (eligibleFor node owners othersKey es) <;> rfl
  · cases h : Newest.latest Event.stamp (eligibleFor node owners c.toHex es) with
    | none => exact absurd (Newest.latest_eq_none_iff.mp h) hown
    | some e => rfl

lemma Grants.profileAfter_eq (es : List Event) (c : PublicKey) :
    Grants.profileAfter parse node owners es c =
      match (Newest.latest Event.stamp (governing node owners c es)).map (Event.profile parse) with
      | some p => .ok p
      | none => .error .unauthorized := by
  rw [Grants.profileAfter, Grants.resolve_applyAll_new]
  cases Newest.latest Event.stamp (governing node owners c es) <;> rfl

lemma eligibleFor_perm {es es' : List Event} (h : es.Perm es') (k : String) :
    (eligibleFor node owners k es).Perm (eligibleFor node owners k es') :=
  h.filter _

/-- Which slot decides does not depend on the order of the events. -/
lemma governingKey_perm {es es' : List Event} (h : es.Perm es') (c : PublicKey) :
    governingKey node owners c es = governingKey node owners c es' := by
  have hown : (eligibleFor node owners c.toHex es).Perm (eligibleFor node owners c.toHex es') :=
    eligibleFor_perm h c.toHex
  have hnil : eligibleFor node owners c.toHex es = [] ↔ eligibleFor node owners c.toHex es' = [] :=
    ⟨fun he => (he ▸ hown).nil_eq.symm, fun he => (he ▸ hown).eq_nil⟩
  simp only [governingKey, hnil]

lemma governing_perm {es es' : List Event} (h : es.Perm es') (c : PublicKey) :
    (governing node owners c es).Perm (governing node owners c es') := by
  rw [governing, governing, governingKey_perm h]
  exact eligibleFor_perm h _

/-- Any newest deciding event can be the one in force, given the right order. -/
lemma exists_perm_profileAfter (parse : String → Option UsageProfile) {es : List Event}
    {c : PublicKey} {x : Event} (hx : x ∈ governing node owners c es)
    (hmax : ∀ z ∈ governing node owners c es, z.stamp ≤ x.stamp) :
    ∃ es', es.Perm es' ∧
      Grants.profileAfter parse node owners es' c = .ok (x.profile parse) := by
  obtain ⟨es', hp, hlatest⟩ := Newest.exists_perm_latest_filter hx hmax
  refine ⟨es', hp, ?_⟩
  rw [Grants.profileAfter_eq, governing, ← governingKey_perm hp, eligibleFor, hlatest]
  rfl

/-- **When the order of delivery shows.** Any two orders of the same events leave every controller
with the same profile if and only if, for every controller, the newest of the events that decide
what it may do agree. -/
theorem grants_order_independent_iff (parse : String → Option UsageProfile) (node : PublicKey)
    (owners : List PublicKey) (es : List Event) :
    (∀ es₁ es₂, es.Perm es₁ → es.Perm es₂ → ∀ c,
      Grants.profileAfter parse node owners es₁ c = Grants.profileAfter parse node owners es₂ c) ↔
    ∀ c, Untied parse node owners es c := by
  constructor
  · intro h c x hx y hy hxmax hymax
    obtain ⟨es₁, hp₁, h₁⟩ := exists_perm_profileAfter parse hx hxmax
    obtain ⟨es₂, hp₂, h₂⟩ := exists_perm_profileAfter parse hy hymax
    have := h es₁ es₂ hp₁ hp₂ c
    rw [h₁, h₂] at this
    simpa using this
  · intro h es₁ es₂ hp₁ hp₂ c
    have hlatest : ∀ es', es.Perm es' →
        (Newest.latest Event.stamp (governing node owners c es)).map (Event.profile parse) =
          (Newest.latest Event.stamp (governing node owners c es')).map (Event.profile parse) :=
      fun es' hp => Newest.latest_map_eq_of_perm (governing_perm hp c) (h c)
    rw [Grants.profileAfter_eq, Grants.profileAfter_eq, ← hlatest es₁ hp₁, ← hlatest es₂ hp₂]

/-! ### Two owners in the same second -/

open Sample in
/-- Two owners write for one controller within a second: one grants, one revokes. Whichever is
applied last is in force. -/
theorem grants_depend_on_order :
    ¬ ∀ (parse : String → Option UsageProfile) (node : PublicKey) (owners : List PublicKey)
        (es es₁ es₂ : List Event), es.Perm es₁ → es.Perm es₂ → ∀ c,
      Grants.profileAfter parse node owners es₁ c = Grants.profileAfter parse node owners es₂ c := by
  intro h
  have := h readProfile (key 1) [key 2, key 3]
    [grantEvent 2 (key 4).toHex everyMethod 100, grantEvent 3 (key 4).toHex revocation 100]
    [grantEvent 2 (key 4).toHex everyMethod 100, grantEvent 3 (key 4).toHex revocation 100]
    [grantEvent 3 (key 4).toHex revocation 100, grantEvent 2 (key 4).toHex everyMethod 100]
    (List.Perm.refl _) (List.Perm.swap _ _ _) (key 4)
  have hmethods := congrArg (fun r => r.toOption.bind UsageProfile.methods |>.isSome) this
  revert hmethods
  decide +kernel

end NostrLn
