import Mathlib.Data.List.Forall2
import NostrLn.Lib.JsonValue

/-!
# Typed values, and the JSON they are written as

The other direction of decoding: what `to_value` makes of a value of a derived type. A field that
may be missing is left out when it is `None`. Decoding what was encoded gives the value back, but
for two things JSON cannot tell apart: `Some` of what is written as `null` is `None`, and an unknown
variant under a known name is known.
-/

namespace Serde

open Json

mutual

/-- The names of the fields are distinct, at every level. -/
def Ty.wellFormed : Ty → Bool
  | .option ty => ty.wellFormed
  | .vec ty => ty.wellFormed
  | .struct fields => decide fields.names.Nodup && fields.wellFormed
  | _ => true

def Fields.wellFormed : Fields → Bool
  | .nil => true
  | .cons _ ty _ rest => ty.wellFormed && rest.wellFormed

/-- The names of the fields, in order. -/
def Fields.names : Fields → List String
  | .nil => []
  | .cons name _ _ rest => name :: rest.names

end

def Decoded.isNone : Decoded → Bool
  | .none => true
  | _ => false

mutual

/-- Encode a value of a type; nothing is made of what is not of the type. -/
def encode : Ty → Decoded → Option Value
  | .string, .string s => some (.string s)
  | .u64, .nat n => if n < 2 ^ 64 then some (.number (.posInt (UInt64.ofNat n))) else none
  | .u32, .nat n => if n < 2 ^ 32 then some (.number (.posInt (UInt64.ofNat n))) else none
  | .bool, .bool b => some (.bool b)
  | .value, .value v => some v
  | .option _, .none => some .null
  | .option ty, .some d => encode ty d
  | .vec ty, .vec items => (items.mapM (encode ty)).map .array
  | .enum variants _, .variant name => if name ∈ variants then some (.string name) else none
  | .enum _ true, .unknown name => some (.string name)
  | .struct fields, .struct ds => (encodeFields fields ds).map fun es => .object (sortEntries es)
  | _, _ => none

/-- The entries of a struct, in the order of its fields. -/
def encodeFields : Fields → List (String × Decoded) → Option (List (String × Value))
  | .nil, [] => some []
  | .cons name ty default rest, (k, d) :: ds =>
    if k = name then
      if default && d.isNone then encodeFields rest ds
      else do
        let v ← encode ty d
        let es ← encodeFields rest ds
        return (name, v) :: es
    else none
  | _, _ => none

end

/-- It is written as `null`. -/
def Decoded.isNull : Decoded → Bool
  | .none => true
  | .some d => d.isNull
  | .value v => v.isNull
  | _ => false

mutual

/-- The value that decoding gives back. -/
def reread : Ty → Decoded → Decoded
  | .option ty, .some d => if d.isNull then .none else .some (reread ty d)
  | .vec ty, .vec items => .vec (items.map (reread ty))
  | .enum variants true, .unknown name =>
    if name ∈ variants then .variant name else .unknown name
  | .struct fields, .struct ds => .struct (rereadFields fields ds)
  | _, d => d

def rereadFields : Fields → List (String × Decoded) → List (String × Decoded)
  | .cons name ty _ rest, (_, d) :: ds => (name, reread ty d) :: rereadFields rest ds
  | _, _ => []

end

/-! ### Entries of a sorted map -/

lemma entry_cons_self (k : String) (v : Value) (es : List (String × Value)) :
    entry k ((k, v) :: es) = some v := by
  simp [entry]

lemma entry_cons_of_ne {k k' : String} (h : k ≠ k') (v : Value) (es : List (String × Value)) :
    entry k ((k', v) :: es) = entry k es := by
  simp [entry, Ne.symm h]

lemma entry_eq_none {k : String} {es : List (String × Value)} (h : k ∉ es.map Prod.fst) :
    entry k es = none := by
  rw [entry, Option.map_eq_none_iff, List.find?_eq_none]
  intro e he hk
  exact h (List.mem_map.mpr ⟨e, he, by simpa using hk⟩)

lemma entry_putEntry_self (k : String) (v : Value) (map : List (String × Value)) :
    entry k (putEntry k v map) = some v := by
  induction map with
  | nil => exact entry_cons_self k v []
  | cons e map ih =>
    rw [putEntry]
    split_ifs with hlt heq
    · exact entry_cons_self k v _
    · exact entry_cons_self k v _
    · rw [entry_cons_of_ne heq, ih]

lemma entry_putEntry_of_ne {k k' : String} (h : k ≠ k') (v : Value)
    (map : List (String × Value)) : entry k (putEntry k' v map) = entry k map := by
  induction map with
  | nil => exact entry_cons_of_ne h v []
  | cons e map ih =>
    obtain ⟨k'', v'⟩ := e
    rw [putEntry]
    split_ifs with hlt heq
    · exact entry_cons_of_ne h v _
    · subst heq
      rw [entry_cons_of_ne h, entry_cons_of_ne h]
    · by_cases hk : k = k''
      · subst hk
        rw [entry_cons_self, entry_cons_self]
      · rw [entry_cons_of_ne hk, entry_cons_of_ne hk, ih]

/-- Of entries with distinct keys, sorting loses none. -/
lemma entry_sortEntries {es : List (String × Value)} (hnodup : (es.map Prod.fst).Nodup)
    (k : String) : entry k (sortEntries es) = entry k es := by
  induction es using List.reverseRecOn with
  | nil => rfl
  | append_singleton es e ih =>
    obtain ⟨k', v⟩ := e
    have hfold : sortEntries (es ++ [(k', v)]) = putEntry k' v (sortEntries es) := by
      rw [sortEntries, List.foldl_append]
      rfl
    rw [List.map_append, List.nodup_append] at hnodup
    obtain ⟨hes, _, hnew⟩ := hnodup
    have hnone : k' ∉ es.map Prod.fst := fun hmem => hnew k' hmem k' (by simp) rfl
    rw [hfold]
    by_cases hk : k = k'
    · subst hk
      have hfirst := entry_eq_none hnone
      rw [entry, Option.map_eq_none_iff] at hfirst
      rw [entry_putEntry_self, entry, List.find?_append, hfirst]
      simp
    · rw [entry_putEntry_of_ne hk, ih hes, entry, entry, List.find?_append]
      cases es.find? (fun e => e.1 = k) with
      | none => simp [Ne.symm hk]
      | some e => rfl

/-! ### Induction on what is encoded -/

/-- A field was left out, or it was written. -/
lemma encodeFields_cons {name : String} {ty : Ty} {default : Bool} {rest : Fields}
    {fields : List (String × Decoded)} {es : List (String × Value)}
    (h : encodeFields (.cons name ty default rest) fields = some es) :
    ∃ d ds, fields = (name, d) :: ds ∧
      ((default = true ∧ d = .none ∧ encodeFields rest ds = some es) ∨
        ∃ v es', encode ty d = some v ∧ encodeFields rest ds = some es' ∧
          es = (name, v) :: es') := by
  cases fields with
  | nil => cases h
  | cons field ds =>
    obtain ⟨k, d⟩ := field
    rw [encodeFields] at h
    split_ifs at h with hk hnone
    · subst hk
      rw [Bool.and_eq_true] at hnone
      have hd : d = .none := by
        cases d with
        | none => rfl
        | _ => cases hnone.2
      exact ⟨d, ds, rfl, .inl ⟨hnone.1, hd, h⟩⟩
    · subst hk
      simp only [Option.bind_eq_bind, Option.bind_eq_some_iff, Option.pure_def,
        Option.some.injEq] at h
      obtain ⟨v, hv, es', hes, rfl⟩ := h
      exact ⟨d, ds, rfl, .inr ⟨v, es', hv, hes, rfl⟩⟩

/-- The cases of an induction over what is encoded, and over the fields inside it. -/
structure Cases (P : Ty → Decoded → Value → Prop)
    (Q : Fields → List (String × Decoded) → List (String × Value) → Prop) : Prop where
  string : ∀ s, P .string (.string s) (.string s)
  u64 : ∀ n, n < 2 ^ 64 → P .u64 (.nat n) (.number (.posInt (UInt64.ofNat n)))
  u32 : ∀ n, n < 2 ^ 32 → P .u32 (.nat n) (.number (.posInt (UInt64.ofNat n)))
  bool : ∀ b, P .bool (.bool b) (.bool b)
  value : ∀ v, P .value (.value v) v
  none : ∀ ty, P (.option ty) .none .null
  some : ∀ ty d v, P ty d v → P (.option ty) (.some d) v
  vec : ∀ ty items vs, List.Forall₂ (P ty) items vs → P (.vec ty) (.vec items) (.array vs)
  variant : ∀ variants untagged name, name ∈ variants →
    P (.enum variants untagged) (.variant name) (.string name)
  unknown : ∀ variants name, P (.enum variants true) (.unknown name) (.string name)
  struct : ∀ fields ds es, Q fields ds es →
    P (.struct fields) (.struct ds) (.object (sortEntries es))
  nil : Q .nil [] []
  omitted : ∀ name ty rest ds es, Q rest ds es →
    Q (.cons name ty true rest) ((name, .none) :: ds) es
  written : ∀ name ty default rest d v ds es, P ty d v → Q rest ds es →
    Q (.cons name ty default rest) ((name, d) :: ds) ((name, v) :: es)

lemma forall₂_of_mapM {α β : Type} {f : α → Option β} {r : α → β → Prop} {l : List α}
    (hf : ∀ a ∈ l, ∀ b, f a = some b → r a b) {l' : List β} (h : l.mapM f = some l') :
    List.Forall₂ r l l' := by
  induction l generalizing l' with
  | nil =>
    cases h
    exact .nil
  | cons a l ih =>
    rw [List.mapM_cons] at h
    simp only [Option.bind_eq_bind, Option.bind_eq_some_iff, Option.pure_def,
      Option.some.injEq] at h
    obtain ⟨b, hb, l'', hl, rfl⟩ := h
    rw [List.forall_mem_cons] at hf
    exact .cons (hf.1 b hb) (ih hf.2 hl)

section Induction

variable {P : Ty → Decoded → Value → Prop}
  {Q : Fields → List (String × Decoded) → List (String × Value) → Prop}

mutual

/-- Induction over what is encoded. -/
theorem induction_encode (c : Cases P Q) (ty : Ty) {d : Decoded} {v : Value}
    (h : encode ty d = some v) : P ty d v := by
  cases ty with
  | string =>
    cases d with
    | string s =>
      cases h
      exact c.string s
    | _ => cases h
  | u64 =>
    cases d with
    | nat n =>
      rw [encode, Option.ite_none_right_eq_some] at h
      obtain ⟨hn, hv⟩ := h
      cases hv
      exact c.u64 n hn
    | _ => cases h
  | u32 =>
    cases d with
    | nat n =>
      rw [encode, Option.ite_none_right_eq_some] at h
      obtain ⟨hn, hv⟩ := h
      cases hv
      exact c.u32 n hn
    | _ => cases h
  | bool =>
    cases d with
    | bool b =>
      cases h
      exact c.bool b
    | _ => cases h
  | value =>
    cases d with
    | value w =>
      cases h
      exact c.value v
    | _ => cases h
  | option ty =>
    cases d with
    | none =>
      cases h
      exact c.none ty
    | some d => exact c.some ty d v (induction_encode c ty h)
    | _ => cases h
  | vec ty =>
    cases d with
    | vec items =>
      obtain ⟨vs, hvs, rfl⟩ := Option.map_eq_some_iff.mp h
      exact c.vec ty items vs (forall₂_of_mapM (r := P ty)
        (fun _ _ _ hd => induction_encode c ty hd) hvs)
    | _ => cases h
  | enum variants untagged =>
    cases d with
    | variant name =>
      have hname : name ∈ variants ∧ v = .string name := by
        cases untagged <;>
        · rw [encode, Option.ite_none_right_eq_some] at h
          exact ⟨h.1, (Option.some.inj h.2).symm⟩
      obtain ⟨hmem, rfl⟩ := hname
      exact c.variant variants untagged name hmem
    | unknown name =>
      cases untagged with
      | false => cases h
      | true =>
        cases h
        exact c.unknown variants name
    | _ => cases untagged <;> cases h
  | struct fields =>
    cases d with
    | struct ds =>
      obtain ⟨es, hes, rfl⟩ := Option.map_eq_some_iff.mp h
      exact c.struct fields ds es (induction_encodeFields c fields hes)
    | _ => cases h

/-- Induction over the fields that are encoded. -/
theorem induction_encodeFields (c : Cases P Q) (fields : Fields) {ds : List (String × Decoded)}
    {es : List (String × Value)} (h : encodeFields fields ds = some es) : Q fields ds es := by
  cases fields with
  | nil =>
    cases ds with
    | nil =>
      cases h
      exact c.nil
    | cons d ds => cases h
  | cons name ty default rest =>
    obtain ⟨d, ds, rfl, ⟨rfl, rfl, hrest⟩ | ⟨v, es', hv, hrest, rfl⟩⟩ := encodeFields_cons h
    · exact c.omitted name ty rest ds es (induction_encodeFields c rest hrest)
    · exact c.written name ty default rest d v ds es' (induction_encode c ty hv)
        (induction_encodeFields c rest hrest)

end

end Induction

/-! ### Decoding what was encoded -/

lemma reread_none (ty : Ty) : reread ty .none = .none := by
  cases ty with
  | enum variants untagged => cases untagged <;> rfl
  | _ => rfl

lemma decodeEnum_string (variants : List String) (untagged : Bool) (name : String) :
    decodeEnum variants untagged (.string name) =
      if name ∈ variants then some (.variant name)
      else if untagged then some (.unknown name) else none := by
  cases untagged <;> rfl

lemma mapM_of_forall₂ {α β γ : Type} {f : β → Option γ} {g : α → γ} {l : List α} {l' : List β}
    (h : List.Forall₂ (fun a b => f b = some (g a)) l l') : l'.mapM f = some (l.map g) := by
  induction h with
  | nil => rfl
  | cons hv _ ih =>
    rw [List.mapM_cons, hv, ih]
    rfl

lemma decode_encode_cases : Cases
    (fun ty d v => v.isNull = d.isNull ∧
      (ty.wellFormed = true → decode ty v = some (reread ty d)))
    (fun fields ds es => (es.map Prod.fst).Sublist fields.names ∧
      (fields.wellFormed = true → fields.names.Nodup →
        ∀ entries, (∀ k ∈ fields.names, entry k entries = entry k es) →
          decodeMap fields entries = some (rereadFields fields ds))) where
  string _ := ⟨rfl, fun _ => rfl⟩
  u64 n hn := by
    refine ⟨rfl, fun _ => ?_⟩
    have hread : decode .u64 (.number (.posInt (UInt64.ofNat n))) =
      some (.nat (UInt64.ofNat n).toNat) := rfl
    rw [hread, UInt64.toNat_ofNat_of_lt' hn]
    rfl
  u32 n hn := by
    refine ⟨rfl, fun _ => ?_⟩
    have hread : decode .u32 (.number (.posInt (UInt64.ofNat n))) =
      if (UInt64.ofNat n).toNat < 2 ^ 32 then some (.nat (UInt64.ofNat n).toNat) else none := rfl
    have hnat : (UInt64.ofNat n).toNat = n :=
      UInt64.toNat_ofNat_of_lt' (hn.trans (by decide))
    rw [hread, hnat, if_pos hn]
    rfl
  bool _ := ⟨rfl, fun _ => rfl⟩
  value v := ⟨rfl, fun _ => decode_value v⟩
  none _ := ⟨rfl, fun _ => rfl⟩
  some ty d v h := by
    obtain ⟨hnull, hread⟩ := h
    refine ⟨hnull, fun hty => ?_⟩
    rw [reread, ← hnull]
    cases hv : v.isNull with
    | true =>
      cases v with
      | null => rfl
      | _ => cases hv
    | false =>
      rw [decode_option ty hv, hread hty]
      rfl
  vec ty items vs h := by
    refine ⟨rfl, fun hty => ?_⟩
    rw [decode_vec, mapM_of_forall₂ (h.imp fun _ _ hd => hd.2 hty)]
    rfl
  variant variants untagged name hmem := by
    refine ⟨rfl, fun _ => ?_⟩
    rw [decode_enum, decodeEnum_string, if_pos hmem]
    cases untagged <;> rfl
  unknown variants name := by
    refine ⟨rfl, fun _ => ?_⟩
    rw [decode_enum, decodeEnum_string, reread]
    by_cases hmem : name ∈ variants
    · rw [if_pos hmem, if_pos hmem]
    · rw [if_neg hmem, if_neg hmem]
      rfl
  struct fields ds es h := by
    obtain ⟨hkeys, hread⟩ := h
    refine ⟨rfl, fun hty => ?_⟩
    rw [Ty.wellFormed, Bool.and_eq_true, decide_eq_true_iff] at hty
    have hsort := fun k => entry_sortEntries (hty.1.sublist hkeys) k
    rw [decode_object, hread hty.2 hty.1 _ fun k _ => hsort k]
    rfl
  nil := ⟨.refl _, fun _ _ _ _ => rfl⟩
  omitted name ty rest ds es h := by
    obtain ⟨hkeys, hread⟩ := h
    refine ⟨hkeys.cons name, fun hfields hnames entries hentries => ?_⟩
    rw [Fields.wellFormed, Bool.and_eq_true] at hfields
    rw [Fields.names, List.nodup_cons] at hnames
    have hmissing : entry name entries = none := by
      rw [hentries name List.mem_cons_self]
      exact entry_eq_none fun hmem => hnames.1 (hkeys.subset hmem)
    have hothers := fun k hk => hentries k (List.mem_cons_of_mem name hk)
    rw [decodeMap_of_missing hmissing, hread hfields.2 hnames.2 entries hothers, rereadFields,
      reread_none]
    rfl
  written name ty default rest d v ds es h hs := by
    obtain ⟨hkeys, hread⟩ := hs
    refine ⟨hkeys.cons_cons name, fun hfields hnames entries hentries => ?_⟩
    rw [Fields.wellFormed, Bool.and_eq_true] at hfields
    rw [Fields.names, List.nodup_cons] at hnames
    have hfield := hentries name List.mem_cons_self
    rw [entry_cons_self] at hfield
    have hothers : ∀ k ∈ rest.names, entry k entries = entry k es := by
      intro k hk
      have hne : k ≠ name := by
        rintro rfl
        exact hnames.1 hk
      rw [hentries k (List.mem_cons_of_mem name hk), entry_cons_of_ne hne]
    rw [decodeMap_of_entry hfield, h.2 hfields.1, hread hfields.2 hnames.2 entries hothers,
      rereadFields]
    rfl

/-- **What was encoded is decoded**, to the value that is read back. -/
theorem decode_encode {ty : Ty} (hty : ty.wellFormed = true) {d : Decoded} {v : Value}
    (h : encode ty d = some v) : decode ty v = some (reread ty d) :=
  (induction_encode decode_encode_cases ty h).2 hty

/-! ### Types that are read back as they are -/

/-- Every JSON value inside is of a kind. -/
inductive Decoded.Within (p : Value → Prop) : Decoded → Prop
  | string (s : String) : Within p (.string s)
  | nat (n : ℕ) : Within p (.nat n)
  | bool (b : Bool) : Within p (.bool b)
  | value {v : Value} (hv : p v) : Within p (.value v)
  | none : Within p .none
  | some {d : Decoded} (hd : Within p d) : Within p (.some d)
  | vec {items : List Decoded} (hitems : ∀ d ∈ items, Within p d) : Within p (.vec items)
  | variant (name : String) : Within p (.variant name)
  | unknown (name : String) : Within p (.unknown name)
  | struct {ds : List (String × Decoded)} (hds : ∀ d ∈ ds, Within p d.2) : Within p (.struct ds)

/-- Whether a value of the type may be written as `null`. -/
def Ty.nullable : Ty → Bool
  | .value | .option _ => true
  | _ => false

mutual

/-- The type holds no JSON values, no option of an option, and no unknown variants: nothing of it
is lost in JSON. -/
def Ty.plain : Ty → Bool
  | .value => false
  | .option ty => !ty.nullable && ty.plain
  | .vec ty => ty.plain
  | .enum _ untagged => !untagged
  | .struct fields => fields.plain
  | _ => true

def Fields.plain : Fields → Bool
  | .nil => true
  | .cons _ ty _ rest => ty.plain && rest.plain

end

lemma plain_cases (p : Value → Prop) : Cases
    (fun ty d _ => (ty.nullable = false → d.isNull = false) ∧
      (ty.plain = true → reread ty d = d ∧ d.Within p))
    (fun fields ds _ => fields.plain = true →
      rereadFields fields ds = ds ∧ ∀ d ∈ ds, d.2.Within p) where
  string s := ⟨fun _ => rfl, fun _ => ⟨rfl, .string s⟩⟩
  u64 n _ := ⟨fun _ => rfl, fun _ => ⟨rfl, .nat n⟩⟩
  u32 n _ := ⟨fun _ => rfl, fun _ => ⟨rfl, .nat n⟩⟩
  bool b := ⟨fun _ => rfl, fun _ => ⟨rfl, .bool b⟩⟩
  value _ := ⟨nofun, nofun⟩
  none _ := ⟨nofun, fun _ => ⟨rfl, .none⟩⟩
  some ty d v h := by
    refine ⟨nofun, fun hty => ?_⟩
    rw [Ty.plain, Bool.and_eq_true, Bool.not_eq_true'] at hty
    obtain ⟨hread, hwithin⟩ := h.2 hty.2
    rw [reread, h.1 hty.1, hread]
    exact ⟨rfl, .some hwithin⟩
  vec ty items vs h := by
    refine ⟨fun _ => rfl, fun hty => ?_⟩
    have hitems : items.map (reread ty) = items ∧ ∀ d ∈ items, d.Within p := by
      induction h with
      | nil => simp
      | cons hd _ ih =>
        obtain ⟨hread, hwithin⟩ := hd.2 hty
        rw [List.map_cons, hread, ih.1, List.forall_mem_cons]
        exact ⟨rfl, hwithin, ih.2⟩
    rw [reread, hitems.1]
    exact ⟨rfl, .vec hitems.2⟩
  variant variants untagged name _ := by
    refine ⟨fun _ => rfl, fun _ => ⟨?_, .variant name⟩⟩
    cases untagged <;> rfl
  unknown _ _ := ⟨fun _ => rfl, nofun⟩
  struct fields ds es h := by
    refine ⟨fun _ => rfl, fun hty => ?_⟩
    obtain ⟨hread, hwithin⟩ := h hty
    rw [reread, hread]
    exact ⟨rfl, .struct hwithin⟩
  nil _ := ⟨rfl, by simp⟩
  omitted name ty rest ds es h := by
    intro hfields
    rw [Fields.plain, Bool.and_eq_true] at hfields
    obtain ⟨hread, hwithin⟩ := h hfields.2
    rw [rereadFields, reread_none, hread, List.forall_mem_cons]
    exact ⟨rfl, .none, hwithin⟩
  written name ty default rest d v ds es h hs := by
    intro hfields
    rw [Fields.plain, Bool.and_eq_true] at hfields
    obtain ⟨hread, hwithin⟩ := h.2 hfields.1
    obtain ⟨hreads, hwithins⟩ := hs hfields.2
    rw [rereadFields, hread, hreads, List.forall_mem_cons]
    exact ⟨rfl, hwithin, hwithins⟩

lemma reread_eq_self {ty : Ty} (hty : ty.plain = true) {d : Decoded} {v : Value}
    (h : encode ty d = some v) : reread ty d = d :=
  ((induction_encode (plain_cases fun _ => True) ty h).2 hty).1

lemma within_of_plain {ty : Ty} (hty : ty.plain = true) {d : Decoded} {v : Value}
    (h : encode ty d = some v) (p : Value → Prop) : d.Within p :=
  ((induction_encode (plain_cases p) ty h).2 hty).2

/-! ### What encoded values are like -/

lemma mem_putEntry {k : String} {v : Value} {map : List (String × Value)} {e : String × Value}
    (he : e ∈ putEntry k v map) : e = (k, v) ∨ e ∈ map := by
  induction map with
  | nil => exact .inl (List.mem_singleton.mp he)
  | cons e' map ih =>
    rw [putEntry] at he
    split_ifs at he with hlt heq
    · exact List.mem_cons.mp he
    · rcases List.mem_cons.mp he with rfl | hmem
      · exact .inl rfl
      · exact .inr (List.mem_cons_of_mem _ hmem)
    · rcases List.mem_cons.mp he with rfl | hmem
      · exact .inr List.mem_cons_self
      · exact (ih hmem).imp_right (List.mem_cons_of_mem _)

/-- Sorting makes up no entry. -/
lemma mem_of_mem_sortEntries {es : List (String × Value)} {e : String × Value}
    (he : e ∈ sortEntries es) : e ∈ es := by
  induction es using List.reverseRecOn with
  | nil => exact he
  | append_singleton es e' ih =>
    rw [sortEntries, List.foldl_append] at he
    rcases mem_putEntry he with rfl | hmem
    · simp
    · exact List.mem_append_left _ (ih hmem)

lemma pairwise_putEntry {map : List (String × Value)} (h : map.Pairwise fun a b => a.1 < b.1)
    (k : String) (v : Value) : (putEntry k v map).Pairwise fun a b => a.1 < b.1 := by
  induction map with
  | nil => exact List.pairwise_singleton _ _
  | cons e map ih =>
    rw [List.pairwise_cons] at h
    rw [putEntry]
    split_ifs with hlt heq
    · refine List.pairwise_cons.mpr ⟨?_, List.pairwise_cons.mpr h⟩
      intro e' he'
      rcases List.mem_cons.mp he' with rfl | hmem
      · exact hlt
      · exact hlt.trans (h.1 e' hmem)
    · subst heq
      exact List.pairwise_cons.mpr h
    · refine List.pairwise_cons.mpr ⟨?_, ih h.2⟩
      intro e' he'
      rcases mem_putEntry he' with rfl | hmem
      · exact lt_of_le_of_ne (not_lt.mp hlt) (Ne.symm heq)
      · exact h.1 e' hmem

lemma pairwise_sortEntries (es : List (String × Value)) :
    (sortEntries es).Pairwise fun a b => a.1 < b.1 := by
  induction es using List.reverseRecOn with
  | nil => exact List.Pairwise.nil
  | append_singleton es e ih =>
    rw [sortEntries, List.foldl_append]
    exact pairwise_putEntry ih e.1 e.2

/-- A kind of values that every value is of, if those inside are. -/
structure Closed (p : Value → Prop) : Prop where
  null : p .null
  bool : ∀ b, p (.bool b)
  posInt : ∀ n, p (.number (.posInt n))
  string : ∀ s, p (.string s)
  array : ∀ items, (∀ v ∈ items, p v) → p (.array items)
  object : ∀ entries, (∀ e ∈ entries, p e.2) → (entries.Pairwise fun a b => a.1 < b.1) →
    p (.object entries)

lemma kept_closed (floats : Floats) : Closed (Kept floats) where
  null := .null
  bool := .bool
  posInt _ := .number trivial
  string := .string
  array _ := .array
  object _ h _ := .object h

lemma tidy_closed : Closed Tidy where
  null := .null
  bool := .bool
  posInt n := .number (.posInt n)
  string := .string
  array _ := .array
  object _ h hsorted := .object h hsorted

lemma forall_of_forall₂ {α β : Type} {p : α → Prop} {q : β → Prop} {l : List α} {l' : List β}
    (h : List.Forall₂ (fun a b => p a → q b) l l') (hl : ∀ a ∈ l, p a) : ∀ b ∈ l', q b := by
  induction h with
  | nil => simp
  | cons hb _ ih =>
    rw [List.forall_mem_cons] at hl ⊢
    exact ⟨hb hl.1, ih hl.2⟩

lemma closed_cases {p : Value → Prop} (hp : Closed p) : Cases
    (fun _ d v => d.Within p → p v)
    (fun _ ds es => (∀ d ∈ ds, d.2.Within p) → ∀ e ∈ es, p e.2) where
  string s _ := hp.string s
  u64 _ _ _ := hp.posInt _
  u32 _ _ _ := hp.posInt _
  bool b _ := hp.bool b
  value v hd := by
    cases hd with
    | value hv => exact hv
  none _ _ := hp.null
  some ty d v h hd := by
    cases hd with
    | some hd => exact h hd
  vec ty items vs h hd := by
    cases hd with
    | vec hitems => exact hp.array vs (forall_of_forall₂ h hitems)
  variant _ _ name _ _ := hp.string name
  unknown _ name _ := hp.string name
  struct fields ds es h hd := by
    cases hd with
    | struct hds =>
      exact hp.object _ (fun e he => h hds e (mem_of_mem_sortEntries he)) (pairwise_sortEntries es)
  nil _ := by simp
  omitted name ty rest ds es h hds := h (List.forall_mem_cons.mp hds).2
  written name ty default rest d v ds es h hs hds := by
    rw [List.forall_mem_cons] at hds ⊢
    exact ⟨h hds.1, hs hds.2⟩

/-- What is encoded is of a kind, if the values inside are. -/
lemma closed_encode {p : Value → Prop} (hp : Closed p) {ty : Ty} {d : Decoded} {v : Value}
    (hd : d.Within p) (h : encode ty d = some v) : p v :=
  induction_encode (closed_cases hp) ty h hd

/-! ### How deep it is nested -/

mutual

/-- How deep values of the type are nested, if the values inside are nested `m` deep. -/
def Ty.depth (m : ℕ) : Ty → ℕ
  | .value => m
  | .option ty => ty.depth m
  | .vec ty => ty.depth m + 1
  | .struct fields => fields.depth m + 1
  | _ => 0

def Fields.depth (m : ℕ) : Fields → ℕ
  | .nil => 0
  | .cons _ ty _ rest => max (ty.depth m) (rest.depth m)

end

lemma nestingItems_le {n : ℕ} {vs : List Value} (h : ∀ v ∈ vs, nesting v ≤ n) :
    nestingItems vs ≤ n := by
  induction vs with
  | nil => exact Nat.zero_le n
  | cons v vs ih =>
    rw [List.forall_mem_cons] at h
    exact max_le h.1 (ih h.2)

lemma nestingEntries_le {n : ℕ} {es : List (String × Value)} (h : ∀ e ∈ es, nesting e.2 ≤ n) :
    nestingEntries es ≤ n := by
  induction es with
  | nil => exact Nat.zero_le n
  | cons e es ih =>
    rw [List.forall_mem_cons] at h
    exact max_le h.1 (ih h.2)

lemma nesting_cases (m : ℕ) : Cases
    (fun ty d v => d.Within (nesting · ≤ m) → nesting v ≤ ty.depth m)
    (fun fields ds es => (∀ d ∈ ds, d.2.Within (nesting · ≤ m)) →
      ∀ e ∈ es, nesting e.2 ≤ fields.depth m) where
  string _ _ := le_rfl
  u64 _ _ _ := le_rfl
  u32 _ _ _ := le_rfl
  bool _ _ := le_rfl
  value v hd := by
    cases hd with
    | value hv => exact hv
  none _ _ := Nat.zero_le _
  some ty d v h hd := by
    cases hd with
    | some hd => exact h hd
  vec ty items vs h hd := by
    cases hd with
    | vec hitems => exact Nat.succ_le_succ (nestingItems_le (forall_of_forall₂ h hitems))
  variant _ _ _ _ _ := le_rfl
  unknown _ _ _ := le_rfl
  struct fields ds es h hd := by
    cases hd with
    | struct hds =>
      refine Nat.succ_le_succ (nestingEntries_le fun e he => ?_)
      exact h hds e (mem_of_mem_sortEntries he)
  nil _ := by simp
  omitted name ty rest ds es h hds := by
    intro e he
    exact (h (List.forall_mem_cons.mp hds).2 e he).trans (le_max_right _ _)
  written name ty default rest d v ds es h hs hds := by
    rw [List.forall_mem_cons] at hds ⊢
    exact ⟨(h hds.1).trans (le_max_left _ _),
      fun e he => (hs hds.2 e he).trans (le_max_right _ _)⟩

lemma nesting_encode_le {m : ℕ} {ty : Ty} {d : Decoded} {v : Value}
    (hd : d.Within (nesting · ≤ m)) (h : encode ty d = some v) : nesting v ≤ ty.depth m :=
  induction_encode (nesting_cases m) ty h hd

end Serde
