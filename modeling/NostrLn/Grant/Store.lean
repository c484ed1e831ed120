import NostrLn.Grant.Basic
import NostrLn.Lib.Newest

/-!
# The grant store as a fold

What one `apply` does to one slot of the store is one step of a newest-wins register
(`Grants.getRaw_apply`). Everything about a sequence of events follows from that: which event a
slot is built from, and when the order of delivery can be seen.
-/

namespace NostrLn

variable {parse : String → Option UsageProfile} {node : PublicKey}

/-- Apply events one after another, ignoring what each call returned. -/
def Grants.applyAll (parse : String → Option UsageProfile) (g : Grants) (es : List Event) : Grants :=
  es.foldl (fun g e => (g.apply parse e).2) g

/-- When an event was signed. -/
def Event.stamp (e : Event) : ℕ := e.createdAt.toNat

/-- When a grant was signed. -/
def VerifiedGrant.stamp (v : VerifiedGrant) : ℕ := v.createdAt.toNat

/-! ### One event -/

/-- What one `apply` can do: write the event's grant under the key it is eligible for, or refuse
it and change nothing. An eligible event is refused only as older than what is stored. -/
lemma Grants.apply_cases (parse : String → Option UsageProfile) {g : Grants}
    (hnode : g.node = some node) (e : Event) :
    (∃ k, Eligible node g.owners k e ∧ (∀ v ∈ g.getRaw k, v.stamp ≤ e.stamp) ∧
      g.apply parse e = (if (parse e.content).isSome then .ok k else .error .unparseable,
        g.store k (VerifiedGrant.ofEvent parse e))) ∨
    ∃ r, r ≠ .unparseable ∧ g.apply parse e = (.error r, g) ∧
      ∀ k, Eligible node g.owners k e → r = .superseded ∧ ∃ v ∈ g.getRaw k, e.stamp < v.stamp := by
  rw [Grants.apply, hnode]
  simp only
  split
  · rename_i h
    refine Or.inr ⟨.wrongKind, by decide, rfl, ?_⟩
    intro k hk
    exact absurd hk.kind h
  split
  · rename_i h
    refine Or.inr ⟨.noOwnersConfigured, by decide, rfl, ?_⟩
    intro k hk
    simp only [List.isEmpty_iff] at h
    have := hk.author
    simp [h] at this
  split
  · rename_i h
    refine Or.inr ⟨.notAnOwner, by decide, rfl, ?_⟩
    intro k hk
    exact absurd hk.author h
  split
  · rename_i h
    refine Or.inr ⟨.notAddressedToThisNode, by decide, rfl, ?_⟩
    intro k hk
    simp [hk.addressed] at h
  rename_i hkind _ howner hp
  split
  · rename_i h
    refine Or.inr ⟨.wrongTarget, by decide, rfl, ?_⟩
    intro k hk
    rw [target_eq_some_iff.mpr ⟨hk.target, hk.nonempty⟩] at h
    cases h
  · rename_i k htarget
    obtain ⟨hd, hne⟩ := target_eq_some_iff.mp htarget
    have hk : Eligible node g.owners k e :=
      ⟨not_not.mp hkind, not_not.mp howner, by simpa using hp, hd, hne⟩
    split
    · rename_i hold
      cases hslot : g.getRaw k with
      | none => simp [hslot] at hold
      | some v =>
        simp only [hslot, Option.any_some, decide_eq_true_eq] at hold
        refine Or.inr ⟨.superseded, by decide, rfl, ?_⟩
        intro k' hk'
        refine ⟨rfl, v, ?_, ?_⟩
        · rw [← hk.unique hk']; exact hslot
        · exact UInt64.lt_iff_toNat_lt.mp hold
    · rename_i hnew
      refine Or.inl ⟨k, hk, ?_, by split <;> simp_all⟩
      intro v hv
      rw [Option.mem_def] at hv
      simp only [hv, Option.any_some, decide_eq_true_eq] at hnew
      exact UInt64.le_iff_toNat_le.mp (UInt64.not_lt.mp hnew)

/-- An eligible event that is no older than what is stored is written. -/
lemma Grants.apply_of_eligible {g : Grants} (hnode : g.node = some node) {e : Event} {k : String}
    (h : Eligible node g.owners k e) (hnew : ∀ v ∈ g.getRaw k, v.stamp ≤ e.stamp) :
    g.apply parse e = (if (parse e.content).isSome then .ok k else .error .unparseable,
      g.store k (VerifiedGrant.ofEvent parse e)) := by
  obtain ⟨k', hk', _, heq⟩ | ⟨r, _, _, hrefused⟩ := Grants.apply_cases parse hnode e
  · rw [hk'.unique h] at heq
    exact heq
  · obtain ⟨_, v, hv, hlt⟩ := hrefused k h
    exact absurd (hnew v hv) (not_le.mpr hlt)

/-- What an `apply` leaves is the store as it was, or with one grant written. -/
lemma Grants.apply_snd (parse : String → Option UsageProfile) (g : Grants) (e : Event) :
    (g.apply parse e).2 = g ∨
      ∃ k, (g.apply parse e).2 = g.store k (VerifiedGrant.ofEvent parse e) := by
  cases hnode : g.node with
  | none =>
    left
    simp [Grants.apply, hnode]
  | some node =>
    obtain ⟨k, _, _, h⟩ | ⟨r, _, h, _⟩ := Grants.apply_cases parse hnode e
    · exact .inr ⟨k, congrArg Prod.snd h⟩
    · exact .inl (congrArg Prod.snd h)

/-- An `apply` neither changes who the node is nor who the owners are. -/
@[simp] lemma Grants.node_apply (g : Grants) (e : Event) : (g.apply parse e).2.node = g.node := by
  obtain h | ⟨k, h⟩ := Grants.apply_snd parse g e
  · rw [h]
  · rw [h, Grants.node_store]

@[simp] lemma Grants.owners_apply (g : Grants) (e : Event) :
    (g.apply parse e).2.owners = g.owners := by
  obtain h | ⟨k, h⟩ := Grants.apply_snd parse g e
  · rw [h]
  · rw [h, Grants.owners_store]

/-- **One slot, one step.** An event eligible for a slot is put to its newest-wins register; any
other event leaves the slot alone. -/
lemma Grants.getRaw_apply {g : Grants} (hnode : g.node = some node) (e : Event) (k : String) :
    (g.apply parse e).2.getRaw k =
      if Eligible node g.owners k e then
        Newest.step VerifiedGrant.stamp (g.getRaw k) (VerifiedGrant.ofEvent parse e)
      else g.getRaw k := by
  obtain ⟨k', hk', hnew, h⟩ | ⟨r, _, h, hold⟩ := Grants.apply_cases parse hnode e
  · rw [h, Grants.getRaw_store]
    by_cases hkk : k = k'
    · subst hkk
      rw [if_pos rfl, if_pos hk']
      cases hslot : g.getRaw k with
      | none => rfl
      | some v =>
        have : ¬ (VerifiedGrant.ofEvent parse e).stamp < v.stamp := not_lt.mpr (hnew v hslot)
        simp [Newest.step, this]
    · rw [if_neg hkk, if_neg fun hk => hkk (hk.unique hk')]
  · rw [h]
    split
    · rename_i hk
      obtain ⟨_, v, hv, hlt⟩ := hold k hk
      rw [Option.mem_def] at hv
      have : (VerifiedGrant.ofEvent parse e).stamp < v.stamp := hlt
      simp [hv, Newest.step, this]
    · rfl

/-- A refusal other than for unreadable content writes nothing. -/
lemma Grants.apply_of_error {g : Grants} {e : Event} {r : Grant.Rejected}
    (h : (g.apply parse e).1 = .error r) (hr : r ≠ .unparseable) : (g.apply parse e).2 = g := by
  cases hnode : g.node with
  | none => simp [Grants.apply, hnode]
  | some node =>
    obtain ⟨k, _, _, heq⟩ | ⟨r', _, heq, _⟩ := Grants.apply_cases parse hnode e
    · rw [heq] at h
      split at h
      · cases h
      · simp only [Except.error.injEq] at h
        exact absurd h.symm hr
    · rw [heq]

/-! ### Sequences of events -/

@[simp] lemma Grants.applyAll_nil (g : Grants) : g.applyAll parse [] = g := rfl

lemma Grants.applyAll_concat (g : Grants) (es : List Event) (e : Event) :
    g.applyAll parse (es ++ [e]) = ((g.applyAll parse es).apply parse e).2 := by
  simp [Grants.applyAll]

lemma Grants.applyAll_cons (g : Grants) (e : Event) (es : List Event) :
    g.applyAll parse (e :: es) = (g.apply parse e).2.applyAll parse es := rfl

@[simp] lemma Grants.node_applyAll (g : Grants) (es : List Event) :
    (g.applyAll parse es).node = g.node := by
  induction es generalizing g with
  | nil => rfl
  | cons e es ih => rw [Grants.applyAll_cons, ih, Grants.node_apply]

@[simp] lemma Grants.owners_applyAll (g : Grants) (es : List Event) :
    (g.applyAll parse es).owners = g.owners := by
  induction es generalizing g with
  | nil => rfl
  | cons e es ih => rw [Grants.applyAll_cons, ih, Grants.owners_apply]

/-- The events of a list that are eligible for a key, in order. -/
def eligibleFor (node : PublicKey) (owners : List PublicKey) (k : String) (es : List Event) :
    List Event :=
  es.filter fun e => Eligible node owners k e

/-- A slot holds the grant of the newest event eligible for it. -/
lemma Grants.getRaw_applyAll_new (owners : List PublicKey) (es : List Event) (k : String) :
    ((Grants.new node owners).applyAll parse es).getRaw k =
      (Newest.latest Event.stamp (eligibleFor node owners k es)).map (VerifiedGrant.ofEvent parse) := by
  have hmap : ∀ l, Newest.latest VerifiedGrant.stamp (l.map (VerifiedGrant.ofEvent parse)) =
      (Newest.latest Event.stamp l).map (VerifiedGrant.ofEvent parse) :=
    Newest.latest_map fun _ => rfl
  rw [← hmap]
  induction es using List.reverseRecOn with
  | nil => simp [eligibleFor]
  | append_singleton es e ih =>
    have hnode : ((Grants.new node owners).applyAll parse es).node = some node := by
      rw [Grants.node_applyAll]; rfl
    have howners : ((Grants.new node owners).applyAll parse es).owners = owners := by
      rw [Grants.owners_applyAll]; rfl
    rw [Grants.applyAll_concat, Grants.getRaw_apply hnode, ih, howners]
    by_cases hk : Eligible node owners k e
    · simp [eligibleFor, hk, Newest.latest_concat]
    · simp [eligibleFor, hk]

/-- With no owners configured every event is refused, and the store never changes. -/
lemma Grants.applyAll_no_owners (es : List Event) :
    (Grants.new node []).applyAll parse es = Grants.new node [] := by
  induction es with
  | nil => rfl
  | cons e es ih =>
    obtain ⟨k, hk, _, _⟩ | ⟨r, _, h, _⟩ :=
      Grants.apply_cases parse (show (Grants.new node []).node = some node from rfl) e
    · simpa [Grants.new] using hk.author
    · rw [Grants.applyAll_cons, h, ih]

/-- **The store is a fold.** A slot is empty until an event eligible for it has been applied, and
from then on it is built from the last applied of the newest such events. A refusal other than
`Unparseable` changes nothing, and without owners nothing is ever stored. -/
theorem grants_store_is_a_fold (parse : String → Option UsageProfile) (node : PublicKey)
    (owners : List PublicKey) (es : List Event) :
    (∀ k, (∀ e ∈ es, ¬ Eligible node owners k e) →
      ((Grants.new node owners).applyAll parse es).getRaw k = none) ∧
    (∀ k, (∃ e ∈ es, Eligible node owners k e) →
      ∃ e, Newest.IsLatest Event.stamp e (eligibleFor node owners k es) ∧
        ((Grants.new node owners).applyAll parse es).getRaw k =
          some { profile := (parse e.content).getD default
                 createdAt := e.createdAt
                 owner := e.pubkey }) ∧
    (∀ (g : Grants) (e : Event) (r : Grant.Rejected),
      (g.apply parse e).1 = .error r → r ≠ .unparseable → (g.apply parse e).2 = g) ∧
    (owners = [] → (Grants.new node owners).applyAll parse es = Grants.new node owners) := by
  refine ⟨?_, ?_, ?_, ?_⟩
  · intro k hnone
    have hnil : eligibleFor node owners k es = [] := by
      simpa [eligibleFor, List.filter_eq_nil_iff] using hnone
    rw [Grants.getRaw_applyAll_new, hnil]
    rfl
  · rintro k ⟨e, he, hk⟩
    have hmem : e ∈ eligibleFor node owners k es := by simp [eligibleFor, he, hk]
    cases hlatest : Newest.latest Event.stamp (eligibleFor node owners k es) with
    | none =>
      rw [Newest.latest_eq_none_iff.mp hlatest] at hmem
      simp at hmem
    | some w =>
      refine ⟨w, Newest.latest_eq_some_iff.mp hlatest, ?_⟩
      rw [Grants.getRaw_applyAll_new, hlatest]
      rfl
  · intro g e r h hr
    exact Grants.apply_of_error h hr
  · rintro rfl
    exact Grants.applyAll_no_owners es

/-! ### Sample store -/

namespace Sample

/-- The node `key 1`, whose owner `key 2` has written one grant. -/
def grantedBy2 (controller content : String) : Grants :=
  ((Grants.new (key 1) [key 2]).apply readProfile (grantEvent 2 controller content 1)).2

lemma node_grantedBy2 (controller content : String) :
    (grantedBy2 controller content).node = some (key 1) := by
  rw [grantedBy2, Grants.node_apply]
  rfl

lemma owners_grantedBy2 (controller content : String) :
    (grantedBy2 controller content).owners = [key 2] := by
  rw [grantedBy2, Grants.owners_apply]
  rfl

lemma grantedBy2_eq {controller : String} (hnonempty : controller ≠ "") (content : String) :
    grantedBy2 controller content = (Grants.new (key 1) [key 2]).store controller
      (VerifiedGrant.ofEvent readProfile (grantEvent 2 controller content 1)) := by
  have howner : key 2 ∈ [key 2] := List.mem_singleton.mpr rfl
  have helig := eligible_grantEvent howner hnonempty content 1
  rw [grantedBy2, Grants.apply_of_eligible rfl helig (by simp)]

end Sample

end NostrLn
