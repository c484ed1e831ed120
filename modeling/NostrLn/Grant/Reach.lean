import NostrLn.Grant.Store

/-!
# Whom a grant reaches

A grant is stored under the text that follows the node's key in the `d` tag, whatever it is; it is
looked up under a key in lower-case hex, or under `OTHERS`. Text of any other form is accepted too,
and the grant under it is one that nobody resolves to.
-/

namespace NostrLn

variable {parse : String → Option UsageProfile} {g : Grants} {e : Event} {c : String}

/-- The event names a controller as callers are looked up: by sixty-four lower-case hex digits, or
as `OTHERS`. -/
def NamesController (node : PublicKey) (e : Event) : Prop :=
  ∃ text, dTag e = some (node.toHex ++ ":" ++ text) ∧
    (text = othersKey ∨
      (text.toList.length = 64 ∧ ∀ c ∈ text.toList, Text.isLowerHex c = true))

/-- What an accepted event did: it is a grant of some owner's for this key, stored under it. -/
lemma Grants.apply_eq_ok (h : (g.apply parse e).1 = .ok c) :
    ∃ node, g.node = some node ∧ Eligible node g.owners c e ∧
      (g.apply parse e).2 = g.store c (VerifiedGrant.ofEvent parse e) := by
  cases hnode : g.node with
  | none => simp [Grants.apply, hnode] at h
  | some node =>
    obtain ⟨k, hk, _, heq⟩ | ⟨r, _, heq, _⟩ := Grants.apply_cases parse hnode e
    · rw [heq] at h ⊢
      split at h
      · cases h
        exact ⟨node, rfl, hk, rfl⟩
      · cases h
    · rw [heq] at h
      cases h

/-- The key an event is accepted for is one that callers are looked up by, if the event names it
so. -/
lemma Eligible.namesController_iff {node : PublicKey} {owners : List PublicKey}
    (h : Eligible node owners c e) :
    NamesController node e ↔ c = othersKey ∨ ∃ k : PublicKey, c = k.toHex := by
  have hkey : (∃ k : PublicKey, c = k.toHex) ↔ ∃ k : PublicKey, k.toHex = c := by
    simp only [eq_comm]
  rw [hkey, PublicKey.exists_toHex_iff]
  constructor
  · rintro ⟨text, hd, htext⟩
    have hsame : text = c := by
      rw [h.target, Option.some.injEq, String.append_right_inj] at hd
      exact hd.symm
    rwa [hsame] at htext
  · intro hc
    exact ⟨c, h.target, hc⟩

/-- A grant stored under a key in hex is what the key resolves to. -/
lemma Grants.resolve_store_toHex (g : Grants) (k : PublicKey) (v : VerifiedGrant) :
    (g.store k.toHex v).resolve k = .ok v := by
  rw [Grants.resolve_eq_ok_iff, Grants.getRaw_store, if_pos rfl]
  rfl

/-- A grant stored under anything else, and not under `OTHERS`, is resolved to by nobody. -/
lemma Grants.resolve_store_of_ne (g : Grants) {c : String} (v : VerifiedGrant)
    (hothers : c ≠ othersKey) {k : PublicKey} (hk : c ≠ k.toHex) :
    (g.store c v).resolve k = g.resolve k := by
  rw [Grants.resolve_eq, Grants.resolve_eq, Grants.getRaw_store, Grants.getRaw_store,
    if_neg hk.symm, if_neg hothers.symm]

/-- **Accepted grants reach somebody** exactly if the event names its controller as callers are
looked up. An accepted event that does not changes nothing for anybody: whatever grant was in force
stays so. -/
theorem accepted_grant_reaches_iff (parse : String → Option UsageProfile) (g : Grants) (e : Event)
    (c : String) (h : (g.apply parse e).1 = .ok c) (node : PublicKey) (hnode : g.node = some node) :
    ((c = othersKey ∧ (g.apply parse e).2.others = some (VerifiedGrant.ofEvent parse e) ∨
        ∃ k : PublicKey, c = k.toHex ∧
          (g.apply parse e).2.resolve k = .ok (VerifiedGrant.ofEvent parse e)) ↔
      NamesController node e) ∧
    (¬ NamesController node e → ∀ k : PublicKey,
      (g.apply parse e).2.resolve k = g.resolve k) := by
  obtain ⟨node', hnode', heligible, hstored⟩ := Grants.apply_eq_ok h
  obtain rfl : node' = node := by
    rw [hnode'] at hnode
    exact Option.some.inj hnode
  rw [heligible.namesController_iff, hstored]
  refine ⟨⟨?_, ?_⟩, ?_⟩
  · rintro (⟨hothers, _⟩ | ⟨k, hk, _⟩)
    · exact Or.inl hothers
    · exact Or.inr ⟨k, hk⟩
  · rintro (rfl | ⟨k, rfl⟩)
    · refine Or.inl ⟨rfl, ?_⟩
      rw [Grants.store, if_pos rfl]
    · exact Or.inr ⟨k, rfl, g.resolve_store_toHex k _⟩
  · intro hnot k
    rw [not_or, not_exists] at hnot
    exact g.resolve_store_of_ne _ hnot.1 (hnot.2 k)

namespace Sample

/-- The key of `key 170` in upper-case hex. -/
def shouted : String := String.ofList (List.replicate 64 'A')

/-- `key 170` may call every wallet method. -/
def trusting : Grants := grantedBy2 (key 170).toHex everyMethod

/-- Whomever the owner revokes then, the revocation is taken. -/
lemma trusting_takes {controller : String} (hnonempty : controller ≠ "") :
    (trusting.apply readProfile (grantEvent 2 controller revocation 2)).1 = .ok controller := by
  have howner : key 2 ∈ trusting.owners := by
    rw [trusting, owners_grantedBy2]
    exact List.mem_singleton.mpr rfl
  have hnew : ∀ v ∈ trusting.getRaw controller,
      v.stamp ≤ (grantEvent 2 controller revocation 2).stamp := by
    intro v hv
    rw [trusting, grantedBy2_eq (key 170).toHex_ne_empty, Grants.getRaw_store] at hv
    split_ifs at hv
    · rw [← Option.some.inj hv]
      show (1 : UInt64).toNat ≤ (2 : UInt64).toNat
      decide
    · simp at hv
  have hnode : trusting.node = some (key 1) := node_grantedBy2 _ _
  have hread : (readProfile (grantEvent 2 controller revocation 2).content).isSome = true := by
    rw [grantEvent, readProfile_revocation]
    rfl
  rw [Grants.apply_of_eligible hnode (eligible_grantEvent howner hnonempty revocation 2) hnew,
    if_pos hread]

end Sample

open Sample in
/-- The owner revokes, in upper case. The revocation is reported as applied, and the key goes on
resolving to the grant it had. -/
theorem shouted_revocation_reaches_nobody :
    ¬ (∀ (parse : String → Option UsageProfile) (g : Grants) (e : Event) (c : String),
      (g.apply parse e).1 = .ok c →
        c = othersKey ∧ (g.apply parse e).2.others = some (VerifiedGrant.ofEvent parse e) ∨
        ∃ k : PublicKey, c = k.toHex ∧
          (g.apply parse e).2.resolve k = .ok (VerifiedGrant.ofEvent parse e)) ∧
    (trusting.apply readProfile (grantEvent 2 shouted revocation 2)).1.isOk = true ∧
    PublicKey.fromHex shouted = some (key 170) ∧
    (trusting.apply readProfile (grantEvent 2 shouted revocation 2)).2.resolve (key 170) =
      trusting.resolve (key 170) := by
  have hok := trusting_takes (show shouted ≠ "" by decide)
  have hupper : shouted.toList = List.replicate 64 'A' := String.toList_ofList
  have hnot : ¬ ∃ k : PublicKey, k.toHex = shouted := by
    rw [PublicKey.exists_toHex_iff]
    rintro ⟨_, hdigits⟩
    have hdigit := hdigits 'A' (by rw [hupper]; simp)
    cases hdigit
  refine ⟨?_, by rw [hok]; rfl, by decide +kernel, ?_⟩
  · intro h
    obtain ⟨hothers, _⟩ | ⟨k, hk, _⟩ := h readProfile trusting _ shouted hok
    · exact absurd hothers (by decide)
    · exact hnot ⟨k, hk.symm⟩
  · obtain ⟨_, _, _, hstored⟩ := Grants.apply_eq_ok hok
    rw [hstored]
    exact trusting.resolve_store_of_ne _ (by decide) fun hk => hnot ⟨key 170, hk.symm⟩

open Sample in
/-- Revoked by its key as it is written, the controller has nothing. -/
theorem accepted_grant_reaches_revoked :
    (∃ k : PublicKey, (key 170).toHex = k.toHex ∧
      (trusting.apply readProfile (grantEvent 2 (key 170).toHex revocation 2)).2.resolve k =
        .ok (VerifiedGrant.ofEvent readProfile (grantEvent 2 (key 170).toHex revocation 2))) := by
  have hok := trusting_takes (key 170).toHex_ne_empty
  have hnode : trusting.node = some (key 1) := node_grantedBy2 _ _
  have hnames : NamesController (key 1) (grantEvent 2 (key 170).toHex revocation 2) :=
    ⟨(key 170).toHex, rfl, Or.inr (PublicKey.exists_toHex_iff.mp ⟨key 170, rfl⟩)⟩
  obtain ⟨hothers, _⟩ | hreached :=
    (accepted_grant_reaches_iff readProfile trusting _ _ hok (key 1) hnode).1.mpr hnames
  · exact absurd hothers (PublicKey.toHex_ne_othersKey _)
  · exact hreached

end NostrLn
