import Mathlib.Data.List.Basic
import Mathlib.Tactic.Common

/-!
# JSON values, and what they decode to

A JSON value as `serde_json` holds it, the shape a type derived with `serde` asks of it, and the
decoding of one against the other. A `struct` is read from an object, where keys nobody asked for
are ignored, or from an array, where the fields stand in order. The text of a decoding error is
left to `Explain`.
-/

namespace Serde

/-- A JSON number: the two integer forms, and the bits of a float. -/
inductive Number
  | posInt (n : UInt64)
  | negInt (n : Int64)
  | float (bits : UInt64)
deriving DecidableEq

/-- A JSON value. -/
inductive Value
  | null
  | bool (b : Bool)
  | number (n : Number)
  | string (s : String)
  | array (items : List Value)
  | object (entries : List (String × Value))

mutual

/-- The shape a type asks for. An `enum` has unit variants only; an untagged one takes any other
string as well. -/
inductive Ty
  | string
  | u64
  | u32
  | bool
  | value
  | option (ty : Ty)
  | vec (ty : Ty)
  | enum (variants : List String) (untagged : Bool)
  | struct (fields : Fields)

/-- The fields of a struct, in order: a name, a shape, and whether it may be missing. A field that
may be missing is an `Option`, and its default is `None`. -/
inductive Fields
  | nil
  | cons (name : String) (ty : Ty) (default : Bool) (rest : Fields)

end

/-- A field that must be there. -/
def required (name : String) (ty : Ty) : String × Ty × Bool := (name, ty, false)

/-- A field that may be missing. -/
def optional (name : String) (ty : Ty) : String × Ty × Bool := (name, .option ty, true)

/-- A struct with these fields. -/
def record (fields : List (String × Ty × Bool)) : Ty :=
  .struct (fields.foldr (fun f rest => .cons f.1 f.2.1 f.2.2 rest) .nil)

/-- A decoded value. -/
inductive Decoded
  | string (s : String)
  | nat (n : ℕ)
  | bool (b : Bool)
  | value (v : Value)
  | none
  | some (d : Decoded)
  | vec (items : List Decoded)
  | variant (name : String)
  | unknown (name : String)
  | struct (fields : List (String × Decoded))

/-- The text `serde_json` explains a failure with. -/
abbrev Explain := Ty → Value → String

/-- What is sought among the entries of an object. -/
def entry (name : String) (entries : List (String × Value)) : Option Value :=
  (entries.find? fun e => e.1 = name).map Prod.snd

/-- The entry of an object. -/
def Value.get (v : Value) (name : String) : Option Value :=
  match v with
  | .object entries => entry name entries
  | _ => none

def Value.isNull : Value → Bool
  | .null => true
  | _ => false

/-- A unit variant is written as its name, or as an object from its name to `null`. -/
def variantOf (v : Value) : Option String :=
  match v with
  | .string s => some s
  | .object [(name, .null)] => some name
  | _ => none

/-- Read an `enum` of unit variants. -/
def decodeEnum (variants : List String) (untagged : Bool) (v : Value) : Option Decoded :=
  match variantOf v, v with
  | some name, v =>
    if name ∈ variants then some (.variant name)
    else
      match untagged, v with
      | true, .string s => some (.unknown s)
      | _, _ => none
  | none, _ => none

mutual

/-- Decode a value against a shape. -/
def decode : Ty → Value → Option Decoded
  | .string, .string s => some (.string s)
  | .u64, .number (.posInt n) => some (.nat n.toNat)
  | .u32, .number (.posInt n) => if n.toNat < 2 ^ 32 then some (.nat n.toNat) else none
  | .bool, .bool b => some (.bool b)
  | .value, v => some (.value v)
  | .option _, .null => some .none
  | .option ty, v => (decode ty v).map .some
  | .vec ty, .array items => (items.mapM (decode ty)).map .vec
  | .enum variants untagged, v => decodeEnum variants untagged v
  | .struct fields, .object entries => (decodeMap fields entries).map .struct
  | .struct fields, .array items => (decodeSeq fields items).map .struct
  | _, _ => none

/-- The fields of a struct from the entries of an object. -/
def decodeMap : Fields → List (String × Value) → Option (List (String × Decoded))
  | .nil, _ => some []
  | .cons name ty default rest, entries => do
    let field ← match entry name entries with
      | some v => decode ty v
      | none => if default then some .none else none
    let fields ← decodeMap rest entries
    return (name, field) :: fields

/-- The fields of a struct from the items of an array, which must not be more. -/
def decodeSeq : Fields → List Value → Option (List (String × Decoded))
  | .nil, items => if items.isEmpty then some [] else none
  | .cons name ty default rest, items => do
    let field ← match items.head? with
      | some v => decode ty v
      | none => if default then some .none else none
    let fields ← decodeSeq rest items.tail
    return (name, field) :: fields

end

/-! ### What is decoded from what -/

variable {v : Value} {d : Decoded}

lemma decode_string (s : String) : decode .string (.string s) = some (.string s) := rfl

lemma decode_value (v : Value) : decode .value v = some (.value v) := by
  cases v <;> rfl

lemma decode_option (ty : Ty) (h : v.isNull = false) :
    decode (.option ty) v = (decode ty v).map .some := by
  cases v with
  | null => cases h
  | _ => rfl

lemma decode_vec (ty : Ty) (items : List Value) :
    decode (.vec ty) (.array items) = (items.mapM (decode ty)).map .vec := rfl

lemma decode_enum (variants : List String) (untagged : Bool) (v : Value) :
    decode (.enum variants untagged) v = decodeEnum variants untagged v := by
  cases v <;> rfl

lemma decode_object (fields : Fields) (entries : List (String × Value)) :
    decode (.struct fields) (.object entries) = (decodeMap fields entries).map .struct := rfl

/-- A text is decoded from a text. -/
lemma decode_string_eq_some_iff :
    decode .string v = some d ↔ ∃ s, v = .string s ∧ d = .string s := by
  constructor
  · intro h
    cases v with
    | string s =>
      cases h
      exact ⟨s, rfl, rfl⟩
    | _ => cases h
  · rintro ⟨s, rfl, rfl⟩
    exact decode_string s

/-- A struct is decoded from an object or from an array. -/
lemma decode_struct_eq_some_iff {fields : Fields} :
    decode (.struct fields) v = some d ↔
      ∃ decoded, d = .struct decoded ∧
        ((∃ entries, v = .object entries ∧ decodeMap fields entries = some decoded) ∨
          ∃ items, v = .array items ∧ decodeSeq fields items = some decoded) := by
  constructor
  · intro h
    cases v with
    | object entries =>
      obtain ⟨decoded, hdecoded, rfl⟩ := Option.map_eq_some_iff.mp h
      exact ⟨decoded, rfl, .inl ⟨entries, rfl, hdecoded⟩⟩
    | array items =>
      obtain ⟨decoded, hdecoded, rfl⟩ := Option.map_eq_some_iff.mp h
      exact ⟨decoded, rfl, .inr ⟨items, rfl, hdecoded⟩⟩
    | _ => cases h
  · rintro ⟨decoded, rfl, ⟨entries, rfl, hdecoded⟩ | ⟨items, rfl, hdecoded⟩⟩
    · exact Option.map_eq_some_iff.mpr ⟨decoded, hdecoded, rfl⟩
    · exact Option.map_eq_some_iff.mpr ⟨decoded, hdecoded, rfl⟩

/-- A field that is there. -/
lemma decodeMap_of_entry {name : String} {ty : Ty} {default : Bool} {rest : Fields}
    {entries : List (String × Value)} (h : entry name entries = some v) :
    decodeMap (.cons name ty default rest) entries =
      (decode ty v).bind fun d => (decodeMap rest entries).map fun ds => (name, d) :: ds := by
  rw [decodeMap, h]
  simp only [Option.bind_eq_bind, Option.pure_def, Option.map_eq_bind]
  rfl

/-- A field that may be missing, and is. -/
lemma decodeMap_of_missing {name : String} {ty : Ty} {rest : Fields}
    {entries : List (String × Value)} (h : entry name entries = none) :
    decodeMap (.cons name ty true rest) entries =
      (decodeMap rest entries).map fun ds => (name, .none) :: ds := by
  rw [decodeMap, h]
  simp only [if_true, Option.bind_eq_bind, Option.bind_some, Option.pure_def, Option.map_eq_bind]
  rfl

/-- A text that must be there, among the entries of an object. -/
lemma decodeMap_text_eq_some_iff {name : String} {rest : Fields} {entries : List (String × Value)}
    {fields : List (String × Decoded)} :
    decodeMap (.cons name .string false rest) entries = some fields ↔
      ∃ s fields', entry name entries = some (.string s) ∧
        decodeMap rest entries = some fields' ∧ fields = (name, .string s) :: fields' := by
  rw [decodeMap]
  cases entry name entries with
  | none => simp
  | some v =>
    simp only [Option.bind_eq_bind, Option.bind_eq_some_iff, decode_string_eq_some_iff,
      Option.pure_def, Option.some.injEq]
    constructor
    · rintro ⟨_, ⟨s, rfl, rfl⟩, fields', hrest, rfl⟩
      exact ⟨s, fields', rfl, hrest, rfl⟩
    · rintro ⟨s, fields', rfl, hrest, rfl⟩
      exact ⟨_, ⟨s, rfl, rfl⟩, fields', hrest, rfl⟩

/-- A text that must be there, first among the items of an array. -/
lemma decodeSeq_text_eq_some_iff {name : String} {rest : Fields} {items : List Value}
    {fields : List (String × Decoded)} :
    decodeSeq (.cons name .string false rest) items = some fields ↔
      ∃ s items' fields', items = .string s :: items' ∧
        decodeSeq rest items' = some fields' ∧ fields = (name, .string s) :: fields' := by
  rw [decodeSeq]
  cases items with
  | nil => simp
  | cons v items =>
    simp only [List.head?_cons, List.tail_cons, Option.bind_eq_bind, Option.bind_eq_some_iff,
      decode_string_eq_some_iff, Option.pure_def, Option.some.injEq, List.cons.injEq]
    constructor
    · rintro ⟨_, ⟨s, rfl, rfl⟩, fields', hrest, rfl⟩
      exact ⟨s, items, fields', ⟨rfl, rfl⟩, hrest, rfl⟩
    · rintro ⟨s, _, fields', ⟨rfl, rfl⟩, hrest, rfl⟩
      exact ⟨_, ⟨s, rfl, rfl⟩, fields', hrest, rfl⟩

end Serde
