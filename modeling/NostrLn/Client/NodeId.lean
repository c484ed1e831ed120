import NostrLn.Lib.Utf8
import NostrLn.Service.Transport

/-!
# Node ids, parsed and decoded

A node id is a text in a type of its own, so that the key of a service cannot stand in its place.
There are two ways to make one. The constructor looks at the text. The decoder is derived, and what
it is derived for is a text: it takes any. Every node id that comes over the wire comes through the
decoder.
-/

namespace NostrLn

open Serde

/-- A Lightning node identity key. -/
structure NodeId where
  text : String
deriving DecidableEq

/-- `u8::is_ascii_hexdigit`. -/
def isAsciiHexdigit (b : UInt8) : Bool :=
  decide ((48 ≤ b.toNat ∧ b.toNat ≤ 57) ∨ (65 ≤ b.toNat ∧ b.toNat ≤ 70) ∨
    (97 ≤ b.toNat ∧ b.toNat ≤ 102))

/-- Parse a `node_id`: 66 hex characters beginning `02` or `03`. -/
def NodeId.parse (s : String) : Option NodeId :=
  let bytes := Utf8.bytes s.toList
  let ok := bytes.length == 66 && (['0', '2'].isPrefixOf s.toList || ['0', '3'].isPrefixOf s.toList)
    && bytes.all isAsciiHexdigit
  if ok then some { text := s } else none

/-- Its hex form. -/
def NodeId.asStr (id : NodeId) : String := id.text

/-- The derived decoder: that of the text inside. -/
def NodeId.fromValue (v : Value) : Option NodeId :=
  match decode .string v with
  | some (.string s) => some { text := s }
  | _ => none

/-- The derived encoder: that of the text inside. -/
def NodeId.toValue (id : NodeId) : Value := .string id.text

/-- The signature. -/
structure SignMessageResponse where
  message : String
  signature : String
  pubkey : NodeId
deriving DecidableEq

/-- Its shape. -/
def SignMessageResponse.shape : Ty :=
  record [required "message" .string, required "signature" .string, required "pubkey" .string]

/-- The derived decoder. -/
def SignMessageResponse.fromValue (v : Value) : Option SignMessageResponse :=
  match decode SignMessageResponse.shape v with
  | some (.struct [(_, .string message), (_, .string signature), (_, .string pubkey)]) =>
    some { message, signature, pubkey := { text := pubkey } }
  | _ => none

/-- Why a response has no result of the type asked for. -/
inductive ResultError
  | failed (e : NncError)
  | empty
  | malformed (text : String)

/-- Read the result as a method's response type, given how that type is decoded. -/
def Response.resultAs {R : Type} (explain : Explain) (shape : Ty) (fromValue : Value → Option R)
    (r : Response) : Except ResultError R :=
  match r.result, r.error with
  | _, some e => .error (.failed e)
  | some v, none =>
    match fromValue v with
    | some result => .ok result
    | none => .error (.malformed (explain shape v))
  | none, none => .error .empty

/-- What the client's `sign_message` makes of the response to it. -/
def Response.signed (explain : Explain) (r : Response) : Except ResultError SignMessageResponse :=
  r.resultAs explain SignMessageResponse.shape SignMessageResponse.fromValue

/-! ### What each accepts -/

/-- A text that is a node id: sixty-six hex digits beginning `02` or `03`. -/
def IsNodeId (s : String) : Prop :=
  s.toList.length = 66 ∧ (∀ c ∈ s.toList, (Text.hexValue c).isSome = true) ∧
    (['0', '2'] <+: s.toList ∨ ['0', '3'] <+: s.toList)

/-- The three texts of a signature, in an object or in an array. -/
def Signs (v : Value) (message signature pubkey : String) : Prop :=
  (∃ entries, v = .object entries ∧ entry "message" entries = some (.string message) ∧
    entry "signature" entries = some (.string signature) ∧
    entry "pubkey" entries = some (.string pubkey)) ∨
  v = .array [.string message, .string signature, .string pubkey]

lemma isAscii_of_hexValue {c : Char} (h : (Text.hexValue c).isSome = true) :
    Utf8.isAscii c = true := by
  have hdigit := Text.isSome_hexValue_iff.mp h
  rw [Utf8.isAscii, decide_eq_true_eq]
  omega

/-- Bytes that are all digits are those of characters that are. -/
lemma all_isAsciiHexdigit_bytes {l : List Char} :
    (Utf8.bytes l).all isAsciiHexdigit = true ↔ ∀ c ∈ l, (Text.hexValue c).isSome = true := by
  constructor
  · intro h
    rw [List.all_eq_true] at h
    have hascii : ∀ c ∈ l, Utf8.isAscii c = true := by
      refine Utf8.isAscii_of_bytes ?_
      intro b hb
      have hdigit := of_decide_eq_true (h b hb)
      omega
    rw [Utf8.bytes_of_isAscii hascii] at h
    intro c hc
    have hdigit := of_decide_eq_true (h _ (List.mem_map_of_mem hc))
    rw [Utf8.toNat_byte_of_isAscii (hascii c hc)] at hdigit
    exact Text.isSome_hexValue_iff.mpr hdigit
  · intro h
    have hascii : ∀ c ∈ l, Utf8.isAscii c = true := fun c hc => isAscii_of_hexValue (h c hc)
    rw [Utf8.bytes_of_isAscii hascii, List.all_map, List.all_eq_true]
    intro c hc
    simp only [Function.comp_apply, isAsciiHexdigit, Utf8.toNat_byte_of_isAscii (hascii c hc)]
    exact decide_eq_true (Text.isSome_hexValue_iff.mp (h c hc))

variable {s : String} {v : Value}

/-- The constructor takes the node ids. -/
lemma NodeId.parse_eq_some_iff {id : NodeId} :
    NodeId.parse s = some id ↔ IsNodeId s ∧ id = { text := s } := by
  simp only [NodeId.parse, Option.ite_none_right_eq_some, Option.some.injEq, Bool.and_eq_true,
    beq_iff_eq, Bool.or_eq_true, List.isPrefixOf_iff_prefix, all_isAsciiHexdigit_bytes, IsNodeId,
    eq_comm (a := id)]
  refine and_congr_left fun _ => ?_
  constructor
  · rintro ⟨⟨hlen, hstart⟩, hdigits⟩
    rw [Utf8.bytes_of_isAscii fun c hc => isAscii_of_hexValue (hdigits c hc),
      List.length_map] at hlen
    exact ⟨hlen, hdigits, hstart⟩
  · rintro ⟨hlen, hdigits, hstart⟩
    refine ⟨⟨?_, hstart⟩, hdigits⟩
    rw [Utf8.bytes_of_isAscii fun c hc => isAscii_of_hexValue (hdigits c hc), List.length_map, hlen]

lemma NodeId.isSome_parse_iff : (NodeId.parse s).isSome = true ↔ IsNodeId s := by
  simp only [Option.isSome_iff_exists, NodeId.parse_eq_some_iff, exists_and_left, exists_eq,
    and_true]

/-- The decoder takes the texts. -/
lemma NodeId.fromValue_eq_some_iff {id : NodeId} :
    NodeId.fromValue v = some id ↔ v = .string id.text := by
  rw [NodeId.fromValue]
  constructor
  · intro h
    split at h
    · rename_i hdecoded
      obtain ⟨_, rfl, heq⟩ := decode_string_eq_some_iff.mp hdecoded
      cases heq
      cases h
      rfl
    · cases h
  · rintro rfl
    rw [decode_string]

/-- The key of a service is no node id: it is two digits short. -/
lemma not_isNodeId_toHex (k : PublicKey) : ¬ IsNodeId k.toHex := by
  rintro ⟨hlen, _⟩
  rw [PublicKey.toList_toHex, Text.hexEncode_length, k.len] at hlen
  cases hlen

/-- The decoder of a signature takes any three texts. -/
lemma decode_shape_eq_some_iff {d : Decoded} :
    decode SignMessageResponse.shape v = some d ↔
      ∃ message signature pubkey, Signs v message signature pubkey ∧
        d = .struct [("message", .string message), ("signature", .string signature),
          ("pubkey", .string pubkey)] := by
  have hshape : SignMessageResponse.shape = .struct (.cons "message" .string false
    (.cons "signature" .string false (.cons "pubkey" .string false .nil))) := rfl
  rw [hshape, decode_struct_eq_some_iff]
  simp only [decodeMap_text_eq_some_iff, decodeSeq_text_eq_some_iff]
  constructor
  · rintro ⟨_, rfl, ⟨entries, rfl, h⟩ | ⟨_, rfl, h⟩⟩
    · obtain ⟨message, _, hm, ⟨signature, _, hs, ⟨pubkey, _, hp, hnil, rfl⟩, rfl⟩, rfl⟩ := h
      cases hnil
      exact ⟨message, signature, pubkey, .inl ⟨entries, rfl, hm, hs, hp⟩, rfl⟩
    · obtain ⟨message, _, _, rfl, ⟨signature, _, _, rfl, ⟨pubkey, items, _, rfl, hnil, rfl⟩, rfl⟩,
        rfl⟩ := h
      cases items with
      | nil =>
        cases hnil
        exact ⟨message, signature, pubkey, .inr rfl, rfl⟩
      | cons v items => cases hnil
  · rintro ⟨message, signature, pubkey, ⟨entries, rfl, hm, hs, hp⟩ | rfl, rfl⟩
    · exact ⟨_, rfl, .inl ⟨entries, rfl, message, _, hm, ⟨signature, _, hs, ⟨pubkey, _, hp, rfl, rfl⟩,
        rfl⟩, rfl⟩⟩
    · exact ⟨_, rfl, .inr ⟨_, rfl, message, _, _, rfl, ⟨signature, _, _, rfl,
        ⟨pubkey, [], _, rfl, rfl, rfl⟩, rfl⟩, rfl⟩⟩

lemma SignMessageResponse.fromValue_eq_some_iff {r : SignMessageResponse} :
    SignMessageResponse.fromValue v = some r ↔ Signs v r.message r.signature r.pubkey.text := by
  rw [SignMessageResponse.fromValue]
  constructor
  · intro h
    split at h
    · rename_i message signature pubkey hdecoded
      obtain ⟨m, s, p, hsigns, heq⟩ := decode_shape_eq_some_iff.mp hdecoded
      cases heq
      cases h
      exact hsigns
    · cases h
  · intro h
    rw [decode_shape_eq_some_iff.mpr ⟨_, _, _, h, rfl⟩]

/-- What `sign_message` gives is what the response carries, unless it carries an error. -/
lemma Response.signed_eq_ok_iff {explain : Explain} {r : Response} {signed : SignMessageResponse} :
    r.signed explain = .ok signed ↔
      r.error = none ∧ ∃ v, r.result = some v ∧
        Signs v signed.message signed.signature signed.pubkey.text := by
  simp only [← SignMessageResponse.fromValue_eq_some_iff]
  rw [Response.signed, Response.resultAs]
  cases r.error with
  | some e => simp
  | none =>
    cases r.result with
    | none => simp
    | some v =>
      cases h : SignMessageResponse.fromValue v with
      | none => simp [h]
      | some result => simp [h]

/-! ### Where the two agree -/

/-- What the decoder lets through is a node id exactly when the text on the wire was one. -/
theorem decoded_node_ids (explain : Explain) :
    (∀ r : Response,
      (∀ signed, r.signed explain = .ok signed →
        (NodeId.parse signed.pubkey.asStr).isSome = true) ↔
      ∀ v message signature pubkey, r.error = none → r.result = some v →
        Signs v message signature pubkey → IsNodeId pubkey) ∧
    (∀ s : String,
      ((NodeId.fromValue (.string s)).isSome = true ↔ (NodeId.parse s).isSome = true) ↔
        IsNodeId s) ∧
    (∀ (v : Value) (id : NodeId), NodeId.fromValue v = some id → id.toValue = v) ∧
    ∀ k : PublicKey, NodeId.fromValue (.string k.toHex) = some { text := k.toHex } ∧
      NodeId.parse k.toHex = none := by
  refine ⟨fun r => ?_, fun s => ?_, fun v id h => ?_, fun k => ⟨?_, ?_⟩⟩
  · simp only [Response.signed_eq_ok_iff, NodeId.isSome_parse_iff, NodeId.asStr]
    constructor
    · intro h v message signature pubkey herror hresult hsigns
      exact h { message, signature, pubkey := { text := pubkey } } ⟨herror, v, hresult, hsigns⟩
    · rintro h signed ⟨herror, v, hresult, hsigns⟩
      exact h v _ _ _ herror hresult hsigns
  · have hdecodes : (NodeId.fromValue (.string s)).isSome = true := by
      rw [Option.isSome_iff_exists]
      exact ⟨{ text := s }, NodeId.fromValue_eq_some_iff.mpr rfl⟩
    rw [NodeId.isSome_parse_iff, iff_true_left hdecodes]
  · exact (NodeId.fromValue_eq_some_iff.mp h).symm
  · exact NodeId.fromValue_eq_some_iff.mpr rfl
  · rw [← Option.not_isSome_iff_eq_none, NodeId.isSome_parse_iff]
    exact not_isNodeId_toHex k

/-- A response whose `pubkey` is the key of the service itself. -/
def mistaken : Response where
  resultType := .signMessage
  result := some (.object [("message", .string "hello"), ("signature", .string "d9tibmnic9t5"),
    ("pubkey", .string (Sample.key 1).toHex)])
  error := none

/-- It is taken for a signature, and its key for a node id. -/
theorem mistaken_key_decodes :
    ¬ ∀ (explain : Explain) (r : Response) (signed : SignMessageResponse),
      r.signed explain = .ok signed → (NodeId.parse signed.pubkey.asStr).isSome = true := by
  intro h
  have hsigned : mistaken.signed (fun _ _ => "") =
      .ok ⟨"hello", "d9tibmnic9t5", { text := (Sample.key 1).toHex }⟩ :=
    Response.signed_eq_ok_iff.mpr ⟨rfl, _, rfl, .inl ⟨_, rfl, rfl, rfl, rfl⟩⟩
  have hparsed := h _ _ _ hsigned
  rw [NodeId.isSome_parse_iff, NodeId.asStr] at hparsed
  exact not_isNodeId_toHex (Sample.key 1) hparsed

end NostrLn
