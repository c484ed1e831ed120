import Mathlib.Data.List.AList
import Mathlib.Tactic.Common

/-!
# Hash maps

A map from keys to values as an association list without repeated keys. The order of the entries
stands for the unspecified order in which a hash map is iterated over. Two maps are equal only if
that order is the same as well; what does not depend on it is said in terms of `lookup`.
-/

/-- A map with keys in `κ` and values in `ν`. -/
abbrev HashMap (κ ν : Type) := AList fun _ : κ => ν

namespace HashMap

variable {κ ν : Type} [DecidableEq κ]

/-- The values, in the order of iteration. -/
def values (m : HashMap κ ν) : List ν := m.entries.map Sigma.snd

lemma mem_values_iff {m : HashMap κ ν} {v : ν} :
    v ∈ values m ↔ ∃ k, m.lookup k = some v := by
  simp only [values, List.mem_map, Sigma.exists, exists_eq_right]
  constructor
  · rintro ⟨k, h⟩
    exact ⟨k, AList.mem_lookup_iff.mpr h⟩
  · rintro ⟨k, h⟩
    exact ⟨k, AList.mem_lookup_iff.mp h⟩

/-- The entry of a key, created with `v` if it is vacant: the map after, and the value there. -/
def orInsert (m : HashMap κ ν) (k : κ) (v : ν) : HashMap κ ν × ν :=
  match m.lookup k with
  | some w => (m, w)
  | none => (m.insert k v, v)

lemma orInsert_snd (m : HashMap κ ν) (k : κ) (v : ν) :
    (orInsert m k v).2 = (m.lookup k).getD v := by
  rw [orInsert]
  cases m.lookup k <;> rfl

/-- Creating an entry is seen at its key and nowhere else. -/
lemma lookup_orInsert (m : HashMap κ ν) (k k' : κ) (v : ν) :
    (orInsert m k v).1.lookup k' =
      if k' = k then some ((m.lookup k).getD v) else m.lookup k' := by
  rw [orInsert]
  split_ifs with hk
  · subst hk
    cases h : m.lookup k' with
    | none => exact AList.lookup_insert m
    | some w => exact h
  · cases m.lookup k with
    | none => exact AList.lookup_insert_ne hk
    | some w => rfl

/-- Creating an entry leaves those that are there alone. -/
lemma lookup_orInsert_of_some {m : HashMap κ ν} {k' : κ} {w : ν} (h : m.lookup k' = some w)
    (k : κ) (v : ν) : (orInsert m k v).1.lookup k' = some w := by
  rw [lookup_orInsert]
  split_ifs with hk
  · rw [← hk, h]
    rfl
  · exact h

/-- Writing an entry is seen at its key and nowhere else. -/
lemma lookup_insert (m : HashMap κ ν) (k k' : κ) (v : ν) :
    (m.insert k v).lookup k' = if k' = k then some v else m.lookup k' := by
  split_ifs with hk
  · rw [hk]
    exact AList.lookup_insert m
  · exact AList.lookup_insert_ne hk

end HashMap
