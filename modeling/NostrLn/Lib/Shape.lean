import Mathlib.Data.List.Nodup
import NostrLn.Lib.Encode

/-!
# Types with defaults, and with room for further fields

A derived type may give a missing field a value of its own, and it may flatten a map into its
object: the entries that belong to no field are kept there, and written back beside the fields. Both
meanings share one object, so the map must not hold a key that is the name of a field; what was
encoded is decoded exactly when it holds none.
-/

namespace Serde

open Json

/-- What a missing field stands for: nothing, `None`, which is not written either, or a value of the
type. -/
inductive Missing
  | fails
  | none
  | default (d : Decoded)

mutual

/-- The shape a type asks for, where structs may have defaults and further entries. -/
inductive Shape
  | ty (ty : Ty)
  | option (shape : Shape)
  | vec (shape : Shape)
  | struct (members : Members)

/-- The fields of a struct, in order. A map that is flattened comes last. -/
inductive Members
  | nil
  | flatten (name : String)
  | cons (name : String) (shape : Shape) (missing : Missing) (rest : Members)

end

/-- A field that must be there. -/
def present (name : String) (shape : Shape) : String × Shape × Missing := (name, shape, .fails)

/-- A field that is left out when it is `None`. -/
def skipped (name : String) (shape : Shape) : String × Shape × Missing :=
  (name, .option shape, .none)

/-- A field with a default. -/
def defaulted (name : String) (shape : Shape) (d : Decoded) : String × Shape × Missing :=
  (name, shape, .default d)

/-- A struct with these fields, and then the rest. -/
def shaped (fields : List (String × Shape × Missing)) (rest : Members) : Shape :=
  .struct (fields.foldr (fun f rest => .cons f.1 f.2.1 f.2.2 rest) rest)

def Missing.stands : Missing → Option Decoded
  | .fails => .none
  | .none => some .none
  | .default d => some d

/-- Whether the value is left out when the struct is written. -/
def Missing.skips : Missing → Decoded → Bool
  | .none, d => d.isNone
  | _, _ => false

/-- The names of the fields, in order. -/
def Members.names : Members → List String
  | .cons name _ _ rest => name :: rest.names
  | _ => []

mutual

/-- Decode a value against a shape. -/
def decodeShape : Shape → Value → Option Decoded
  | .ty ty, v => decode ty v
  | .option _, .null => some .none
  | .option shape, v => (decodeShape shape v).map .some
  | .vec shape, .array items => (items.mapM (decodeShape shape)).map .vec
  | .struct members, .object entries => (decodeMembers members entries).map .struct
  | .struct members, .array items => (decodeItems members items).map .struct
  | _, _ => none

/-- The fields of a struct from the entries of an object: each takes its own, and a map takes what
is left. -/
def decodeMembers : Members → List (String × Value) → Option (List (String × Decoded))
  | .nil, _ => some []
  | .flatten name, entries => some [(name, .value (.object entries))]
  | .cons name shape missing rest, entries => do
    let field ← (entry name entries).elim missing.stands (decodeShape shape)
    let fields ← decodeMembers rest (entries.filter fun e => e.1 ≠ name)
    return (name, field) :: fields

/-- The fields of a struct from the items of an array. A struct with a flattened map is read from an
object only. -/
def decodeItems : Members → List Value → Option (List (String × Decoded))
  | .nil, items => if items.isEmpty then some [] else none
  | .flatten _, _ => none
  | .cons name shape missing rest, items => do
    let field ← items.head?.elim missing.stands (decodeShape shape)
    let fields ← decodeItems rest items.tail
    return (name, field) :: fields

end

mutual

/-- Encode a value of a shape; nothing is made of what is not of the shape. -/
def encodeShape : Shape → Decoded → Option Value
  | .ty ty, d => encode ty d
  | .option _, .none => some .null
  | .option shape, .some d => encodeShape shape d
  | .vec shape, .vec items => (items.mapM (encodeShape shape)).map .array
  | .struct members, .struct ds => (encodeMembers members ds).map fun es => .object (sortEntries es)
  | _, _ => none

/-- The entries of a struct: those of its fields, and then those of its map. The last of a key is
the one that counts. -/
def encodeMembers : Members → List (String × Decoded) → Option (List (String × Value))
  | .nil, [] => some []
  | .flatten name, [(k, .value (.object es))] =>
    if k = name ∧ es.Pairwise (fun a b => a.1 < b.1) then some es else none
  | .cons name shape missing rest, (k, d) :: ds =>
    if k = name then
      if missing.skips d then encodeMembers rest ds
      else do
        let v ← encodeShape shape d
        let es ← encodeMembers rest ds
        return (name, v) :: es
    else none
  | _, _ => none

end

mutual

/-- The value that decoding gives back. -/
def rereadShape : Shape → Decoded → Decoded
  | .ty ty, d => reread ty d
  | .option shape, .some d => if d.isNull then .none else .some (rereadShape shape d)
  | .vec shape, .vec items => .vec (items.map (rereadShape shape))
  | .struct members, .struct ds => .struct (rereadMembers members ds)
  | _, d => d

def rereadMembers : Members → List (String × Decoded) → List (String × Decoded)
  | .cons name shape _ rest, (_, d) :: ds => (name, rereadShape shape d) :: rereadMembers rest ds
  | _, ds => ds

end

mutual

/-- No flattened map holds a key that is the name of a field beside it. -/
def Shape.apart : Shape → Decoded → Bool
  | .option shape, .some d => shape.apart d
  | .vec shape, .vec items => items.all shape.apart
  | .struct members, .struct ds => members.apart [] ds
  | _, _ => true

/-- The same for the fields that are left, when some names are taken. -/
def Members.apart (taken : List String) : Members → List (String × Decoded) → Bool
  | .flatten _, [(_, .value (.object es))] => es.all fun e => e.1 ∉ taken
  | .cons name shape _ rest, (_, d) :: ds => shape.apart d && rest.apart (name :: taken) ds
  | _, _ => true

end

mutual

/-- The names of the fields are distinct, at every level, and no default is at odds with them. -/
def Shape.wellFormed : Shape → Bool
  | .ty ty => ty.wellFormed
  | .option shape => shape.wellFormed
  | .vec shape => shape.wellFormed
  | .struct members => decide members.names.Nodup && members.wellFormed

def Members.wellFormed : Members → Bool
  | .cons _ shape missing rest =>
    missing.stands.all shape.apart && shape.wellFormed && rest.wellFormed
  | _ => true

end

/-! ### Entries of a sorted map -/

lemma entry_filter_ne (name : String) (entries : List (String × Value)) (k : String) :
    entry k (entries.filter fun e => e.1 ≠ name) = if k = name then none else entry k entries := by
  induction entries with
  | nil => simp [entry]
  | cons e entries ih =>
    obtain ⟨k', v⟩ := e
    by_cases hname : k' = name
    · subst hname
      rw [List.filter_cons_of_neg (by simp), ih]
      by_cases hk : k = k'
      · rw [if_pos hk, if_pos hk]
      · rw [if_neg hk, if_neg hk, entry_cons_of_ne hk]
    · rw [List.filter_cons_of_pos (by simpa using hname)]
      by_cases hk : k = k'
      · subst hk
        rw [entry_cons_self, if_neg hname, entry_cons_self]
      · rw [entry_cons_of_ne hk, ih, entry_cons_of_ne hk]

/-- Where no key comes twice, an entry is the one that is sought under its key. -/
lemma mem_iff_entry {es : List (String × Value)} (h : (es.map Prod.fst).Nodup)
    (e : String × Value) : e ∈ es ↔ entry e.1 es = some e.2 := by
  induction es with
  | nil => simp [entry]
  | cons e' es ih =>
    obtain ⟨k, v⟩ := e'
    rw [List.map_cons, List.nodup_cons] at h
    rw [List.mem_cons, ih h.2]
    by_cases hk : e.1 = k
    · subst hk
      rw [entry_cons_self, entry_eq_none h.1, Option.some.injEq]
      constructor
      · rintro (he | he)
        · rw [he]
        · cases he
      · intro hv
        exact .inl (by rw [hv])
    · rw [entry_cons_of_ne hk]
      constructor
      · rintro (rfl | he)
        · exact absurd rfl hk
        · exact he
      · exact .inr

lemma nodup_keys {es : List (String × Value)} (h : es.Pairwise fun a b => a.1 < b.1) :
    (es.map Prod.fst).Nodup := by
  rw [List.Nodup, List.pairwise_map]
  exact h.imp fun hlt => hlt.ne

/-- A sorted map is determined by what is sought in it. -/
lemma eq_of_entry_eq {es es' : List (String × Value)} (h : es.Pairwise fun a b => a.1 < b.1)
    (h' : es'.Pairwise fun a b => a.1 < b.1) (hentry : ∀ k, entry k es = entry k es') :
    es = es' := by
  have hperm : es.Perm es' := by
    refine (List.perm_ext_iff_of_nodup (.of_map _ (nodup_keys h)) (.of_map _ (nodup_keys h'))).mpr
      fun e => ?_
    rw [mem_iff_entry (nodup_keys h), mem_iff_entry (nodup_keys h'), hentry]
  exact hperm.eq_of_pairwise (fun a b _ _ hlt hgt => absurd hlt hgt.asymm) h h'

/-! ### Decoding what was encoded -/

lemma decodeMembers_cons {name : String} {shape : Shape} {missing : Missing} {rest : Members}
    {entries : List (String × Value)} {fields : List (String × Decoded)} :
    decodeMembers (.cons name shape missing rest) entries = some fields ↔
      ∃ d ds, (entry name entries).elim missing.stands (decodeShape shape) = some d ∧
        decodeMembers rest (entries.filter fun e => e.1 ≠ name) = some ds ∧
          fields = (name, d) :: ds := by
  rw [decodeMembers]
  simp only [Option.bind_eq_bind, Option.bind_eq_some_iff, Option.pure_def, Option.some.injEq]
  constructor
  · rintro ⟨d, hd, ds, hds, rfl⟩
    exact ⟨d, ds, hd, hds, rfl⟩
  · rintro ⟨d, ds, hd, hds, rfl⟩
    exact ⟨d, hd, ds, hds, rfl⟩

/-- A field was left out, or it was written. -/
lemma encodeMembers_cons {name : String} {shape : Shape} {missing : Missing} {rest : Members}
    {fields : List (String × Decoded)} {es : List (String × Value)}
    (h : encodeMembers (.cons name shape missing rest) fields = some es) :
    ∃ d ds, fields = (name, d) :: ds ∧
      ((missing = .none ∧ d = .none ∧ encodeMembers rest ds = some es) ∨
        ∃ v es', encodeShape shape d = some v ∧ encodeMembers rest ds = some es' ∧
          es = (name, v) :: es') := by
  cases fields with
  | nil => cases h
  | cons field ds =>
    obtain ⟨k, d⟩ := field
    rw [encodeMembers] at h
    split_ifs at h with hk hskip
    · subst hk
      cases missing with
      | none =>
        cases d with
        | none => exact ⟨.none, ds, rfl, .inl ⟨rfl, rfl, h⟩⟩
        | _ => cases hskip
      | _ => cases hskip
    · subst hk
      simp only [Option.bind_eq_bind, Option.bind_eq_some_iff, Option.pure_def,
        Option.some.injEq] at h
      obtain ⟨v, hv, es', hes, rfl⟩ := h
      exact ⟨d, ds, rfl, .inr ⟨v, es', hv, hes, rfl⟩⟩

/-- A map was flattened. -/
lemma encodeMembers_flatten {name : String} {fields : List (String × Decoded)}
    {es : List (String × Value)} (h : encodeMembers (.flatten name) fields = some es) :
    fields = [(name, .value (.object es))] ∧ es.Pairwise fun a b => a.1 < b.1 := by
  cases fields with
  | nil => cases h
  | cons field ds =>
    obtain ⟨k, d⟩ := field
    cases ds with
    | cons _ _ =>
      cases d with
      | value v => cases v <;> cases h
      | _ => cases h
    | nil =>
      cases d with
      | value v =>
        cases v with
        | object es' =>
          rw [encodeMembers, Option.ite_none_right_eq_some] at h
          obtain ⟨⟨rfl, hsorted⟩, hes⟩ := h
          cases hes
          exact ⟨rfl, hsorted⟩
        | _ => cases h
      | _ => cases h

lemma rereadShape_none (shape : Shape) : rereadShape shape .none = .none := by
  cases shape with
  | ty ty => exact reread_none ty
  | _ => rfl

mutual

/-- What was encoded is decoded, if maps hold no names of fields. -/
theorem decodeShape_encodeShape (shape : Shape) {d : Decoded} {v : Value}
    (h : encodeShape shape d = some v) :
    v.isNull = d.isNull ∧ (shape.wellFormed = true → shape.apart d = true →
      decodeShape shape v = some (rereadShape shape d)) := by
  cases shape with
  | ty ty =>
    obtain ⟨hnull, hread⟩ := induction_encode decode_encode_cases ty h
    exact ⟨hnull, fun hty _ => hread hty⟩
  | option shape =>
    cases d with
    | none =>
      cases h
      exact ⟨rfl, fun _ _ => rfl⟩
    | some d =>
      obtain ⟨hnull, hread⟩ := decodeShape_encodeShape shape h
      refine ⟨hnull, fun hshape hapart => ?_⟩
      rw [rereadShape, ← hnull]
      cases hv : v.isNull with
      | true =>
        cases v with
        | null => rfl
        | _ => cases hv
      | false =>
        have hsome : decodeShape (.option shape) v = (decodeShape shape v).map .some := by
          cases v with
          | null => cases hv
          | _ => rfl
        rw [hsome, hread hshape hapart]
        rfl
    | _ => cases h
  | vec shape =>
    cases d with
    | vec items =>
      obtain ⟨vs, hvs, rfl⟩ := Option.map_eq_some_iff.mp h
      refine ⟨rfl, fun hshape hapart => ?_⟩
      rw [Shape.apart, List.all_eq_true] at hapart
      exact congrArg (Option.map Decoded.vec) (mapM_of_forall₂ (forall₂_of_mapM (fun d hd _ hv =>
        (decodeShape_encodeShape shape hv).2 hshape (hapart d hd)) hvs))
    | _ => cases h
  | struct members =>
    cases d with
    | struct ds =>
      obtain ⟨es, hes, rfl⟩ := Option.map_eq_some_iff.mp h
      refine ⟨rfl, fun hshape hapart => ?_⟩
      rw [Shape.wellFormed, Bool.and_eq_true, decide_eq_true_iff] at hshape
      obtain ⟨hnodup, _, hread⟩ := decodeMembers_encodeMembers members hes hshape.2 hshape.1 []
        hapart (by simp)
      exact congrArg (Option.map Decoded.struct)
        (hread _ (pairwise_sortEntries es) (entry_sortEntries hnodup))
    | _ => cases h

/-- The entries that were written are those of the fields and of the map, each once, and the fields
are decoded from them. -/
theorem decodeMembers_encodeMembers (members : Members) {ds : List (String × Decoded)}
    {es : List (String × Value)} (h : encodeMembers members ds = some es)
    (hmembers : members.wellFormed = true) (hnames : members.names.Nodup) (taken : List String)
    (hapart : members.apart taken ds = true) (htaken : ∀ k ∈ taken, k ∉ members.names) :
    (es.map Prod.fst).Nodup ∧ (∀ k ∈ taken, k ∉ es.map Prod.fst) ∧
      ∀ entries, entries.Pairwise (fun a b => a.1 < b.1) →
        (∀ k, entry k entries = entry k es) →
          decodeMembers members entries = some (rereadMembers members ds) := by
  cases members with
  | nil =>
    cases ds with
    | nil =>
      cases h
      exact ⟨List.nodup_nil, by simp, fun _ _ _ => rfl⟩
    | cons _ _ => cases h
  | flatten name =>
    obtain ⟨rfl, hsorted⟩ := encodeMembers_flatten h
    refine ⟨nodup_keys hsorted, ?_, fun entries hentries hsame => ?_⟩
    · intro k hk hmem
      obtain ⟨e, he, rfl⟩ := List.mem_map.mp hmem
      rw [Members.apart, List.all_eq_true] at hapart
      exact of_decide_eq_true (hapart e he) hk
    · rw [eq_of_entry_eq hentries hsorted hsame]
      rfl
  | cons name shape missing rest =>
    rw [Members.wellFormed, Bool.and_eq_true, Bool.and_eq_true] at hmembers
    rw [Members.names, List.nodup_cons] at hnames
    obtain ⟨d, ds, rfl, hcases⟩ := encodeMembers_cons h
    rw [Members.apart, Bool.and_eq_true] at hapart
    have htaken' : ∀ k ∈ name :: taken, k ∉ rest.names := by
      rw [List.forall_mem_cons]
      exact ⟨hnames.1, fun k hk hmem => htaken k hk (List.mem_cons_of_mem name hmem)⟩
    -- what is left for the other fields, when this one has taken its entry
    have hleft : ∀ es' entries : List (String × Value), name ∉ es'.map Prod.fst →
        (∀ k, k ≠ name → entry k entries = entry k es') →
          ∀ k, entry k (entries.filter fun e => e.1 ≠ name) = entry k es' := by
      intro es' entries hname hsame k
      rw [entry_filter_ne]
      split_ifs with hk
      · rw [hk, entry_eq_none hname]
      · exact hsame k hk
    obtain ⟨rfl, rfl, hrest⟩ | ⟨v, es', hv, hrest, rfl⟩ := hcases
    · obtain ⟨hnodup, habsent, hread⟩ := decodeMembers_encodeMembers rest hrest hmembers.2 hnames.2
        (name :: taken) hapart.2 htaken'
      rw [List.forall_mem_cons] at habsent
      refine ⟨hnodup, habsent.2, fun entries hentries hsame => ?_⟩
      have hmissing : entry name entries = none := (hsame name).trans (entry_eq_none habsent.1)
      refine decodeMembers_cons.mpr ⟨_, _, ?_, hread _ (hentries.filter _)
        (hleft es entries habsent.1 fun k _ => hsame k), rfl⟩
      rw [hmissing, rereadShape_none]
      rfl
    · obtain ⟨hnodup, habsent, hread⟩ := decodeMembers_encodeMembers rest hrest hmembers.2 hnames.2
        (name :: taken) hapart.2 htaken'
      rw [List.forall_mem_cons] at habsent
      refine ⟨List.nodup_cons.mpr ⟨habsent.1, hnodup⟩, ?_, fun entries hentries hsame => ?_⟩
      · intro k hk hmem
        rcases List.mem_cons.mp hmem with rfl | hmem
        · exact htaken k hk List.mem_cons_self
        · exact habsent.2 k hk hmem
      · have hfield : entry name entries = some v := (hsame name).trans (entry_cons_self ..)
        refine decodeMembers_cons.mpr ⟨_, _, ?_, hread _ (hentries.filter _)
          (hleft es' entries habsent.1 fun k hk => ?_), rfl⟩
        · rw [hfield]
          exact (decodeShape_encodeShape shape hv).2 hmembers.1.2 hapart.1
        · rw [hsame, entry_cons_of_ne hk]

end

/-! ### What is decoded is apart -/

lemma apart_of_elim {shape : Shape} {missing : Missing} {found : Option Value} {d : Decoded}
    (h : found.elim missing.stands (decodeShape shape) = some d)
    (hmissing : missing.stands.all shape.apart = true)
    (hfound : ∀ v, decodeShape shape v = some d → shape.apart d = true) :
    shape.apart d = true := by
  cases found with
  | none =>
    rw [Option.elim_none] at h
    rw [h] at hmissing
    exact hmissing
  | some v => exact hfound v h

mutual

/-- A decoded map holds no name of a field: its entry was taken. -/
theorem apart_of_decodeShape (shape : Shape) (hshape : shape.wellFormed = true) {v : Value}
    {d : Decoded} (h : decodeShape shape v = some d) : shape.apart d = true := by
  cases shape with
  | ty ty => rfl
  | option shape =>
    cases v with
    | null =>
      cases h
      rfl
    | _ =>
      obtain ⟨d, hd, rfl⟩ := Option.map_eq_some_iff.mp h
      exact apart_of_decodeShape shape hshape hd
  | vec shape =>
    cases v with
    | array items =>
      obtain ⟨ds, hds, rfl⟩ := Option.map_eq_some_iff.mp h
      rw [Shape.apart, List.all_eq_true]
      exact forall_of_forall₂ (p := fun _ => True) (forall₂_of_mapM (fun _ _ _ hd _ =>
        apart_of_decodeShape shape hshape hd) hds) fun _ _ => trivial
    | _ => cases h
  | struct members =>
    rw [Shape.wellFormed, Bool.and_eq_true] at hshape
    cases v with
    | object entries =>
      obtain ⟨ds, hds, rfl⟩ := Option.map_eq_some_iff.mp h
      exact apart_of_decodeMembers members hshape.2 [] hds (by simp)
    | array items =>
      obtain ⟨ds, hds, rfl⟩ := Option.map_eq_some_iff.mp h
      exact apart_of_decodeItems members hshape.2 [] hds
    | _ => cases h

theorem apart_of_decodeMembers (members : Members) (hmembers : members.wellFormed = true)
    (taken : List String) {entries : List (String × Value)} {ds : List (String × Decoded)}
    (h : decodeMembers members entries = some ds) (htaken : ∀ e ∈ entries, e.1 ∉ taken) :
    members.apart taken ds = true := by
  cases members with
  | nil => rfl
  | flatten name =>
    cases h
    rw [Members.apart, List.all_eq_true]
    intro e he
    exact decide_eq_true (htaken e he)
  | cons name shape missing rest =>
    obtain ⟨d, ds, hd, hds, rfl⟩ := decodeMembers_cons.mp h
    rw [Members.wellFormed, Bool.and_eq_true, Bool.and_eq_true] at hmembers
    rw [Members.apart, Bool.and_eq_true]
    constructor
    · exact apart_of_elim hd hmembers.1.1 fun v hv =>
        apart_of_decodeShape shape hmembers.1.2 hv
    · refine apart_of_decodeMembers rest hmembers.2 (name :: taken) hds fun e he hmem => ?_
      rw [List.mem_filter, decide_eq_true_iff] at he
      rcases List.mem_cons.mp hmem with hname | hmem
      · exact he.2 hname
      · exact htaken e he.1 hmem

theorem apart_of_decodeItems (members : Members) (hmembers : members.wellFormed = true)
    (taken : List String) {items : List Value} {ds : List (String × Decoded)}
    (h : decodeItems members items = some ds) : members.apart taken ds = true := by
  cases members with
  | nil => rfl
  | flatten name => cases h
  | cons name shape missing rest =>
    rw [decodeItems] at h
    simp only [Option.bind_eq_bind, Option.bind_eq_some_iff, Option.pure_def,
      Option.some.injEq] at h
    obtain ⟨d, hd, ds, hds, rfl⟩ := h
    rw [Members.wellFormed, Bool.and_eq_true, Bool.and_eq_true] at hmembers
    rw [Members.apart, Bool.and_eq_true]
    constructor
    · exact apart_of_elim hd hmembers.1.1 fun v hv =>
        apart_of_decodeShape shape hmembers.1.2 hv
    · exact apart_of_decodeItems rest hmembers.2 (name :: taken) hds

end

lemma apart_of_isNull (shape : Shape) {d : Decoded} (h : d.isNull = true) :
    shape.apart d = true := by
  cases shape with
  | option shape =>
    cases d with
    | some d => exact apart_of_isNull shape h
    | _ => rfl
  | ty ty => rfl
  | _ =>
    cases d with
    | vec _ => cases h
    | struct _ => cases h
    | _ => rfl

mutual

/-- What JSON cannot tell apart makes no difference to the maps. -/
theorem apart_rereadShape (shape : Shape) (d : Decoded) :
    shape.apart (rereadShape shape d) = shape.apart d := by
  cases shape with
  | ty ty => rfl
  | option shape =>
    cases d with
    | some d =>
      rw [rereadShape]
      split_ifs with hnull
      · exact (apart_of_isNull shape hnull).symm
      · exact apart_rereadShape shape d
    | _ => rfl
  | vec shape =>
    cases d with
    | vec items =>
      rw [rereadShape, Shape.apart, Shape.apart, List.all_map]
      exact congrArg _ (funext fun d => apart_rereadShape shape d)
    | _ => rfl
  | struct members =>
    cases d with
    | struct ds => exact apart_rereadMembers members [] ds
    | _ => rfl

theorem apart_rereadMembers (members : Members) (taken : List String)
    (ds : List (String × Decoded)) :
    members.apart taken (rereadMembers members ds) = members.apart taken ds := by
  cases members with
  | nil => rfl
  | flatten name => rfl
  | cons name shape missing rest =>
    cases ds with
    | nil => rfl
    | cons d ds =>
      rw [rereadMembers, Members.apart, Members.apart, apart_rereadShape shape,
        apart_rereadMembers rest]

end

end Serde
