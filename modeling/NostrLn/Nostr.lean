import NostrLn.Lib.Text

/-!
# Keys, tags and events

What this crate uses of the `nostr` library. A key is thirty-two bytes; nothing checks that they
are a point on the curve until a signature is verified, so none of that appears here. Hashing
and signature verification are parameters (`Crypto`), as are NIP-44 and the reading of JSON text
where they are used.
-/

namespace NostrLn

/-- A public key: thirty-two bytes. -/
structure PublicKey where
  buf : List UInt8
  len : buf.length = 32
deriving DecidableEq

/-- An event id: the thirty-two bytes of a hash. -/
structure EventId where
  buf : List UInt8
  len : buf.length = 32
deriving DecidableEq

/-- A Schnorr signature: sixty-four bytes. -/
structure Signature where
  buf : List UInt8
  len : buf.length = 64
deriving DecidableEq

/-- A tag: its name, then its values. -/
abbrev Tag := List String

/-- A nostr event, as it arrives: nothing about it has been checked. -/
structure Event where
  id : EventId
  pubkey : PublicKey
  createdAt : UInt64
  kind : UInt16
  tags : List Tag
  content : String
  sig : Signature
deriving DecidableEq

/-! ### Hex -/

/-- The key in lower-case hex. -/
def PublicKey.toHex (k : PublicKey) : String := String.ofList (Text.hexEncode k.buf)

/-- The id in lower-case hex. -/
def EventId.toHex (id : EventId) : String := String.ofList (Text.hexEncode id.buf)

/-- Read a key from hex of either case; the length must be exactly that of a key. -/
def PublicKey.fromHex (s : String) : Option PublicKey :=
  match Text.hexDecode s.toList with
  | none => none
  | some buf => if h : buf.length = 32 then some ⟨buf, h⟩ else none

@[simp] lemma PublicKey.toList_toHex (k : PublicKey) : k.toHex.toList = Text.hexEncode k.buf := by
  simp [PublicKey.toHex]

@[simp] lemma PublicKey.fromHex_toHex (k : PublicKey) : PublicKey.fromHex k.toHex = some k := by
  simp [PublicKey.fromHex, Text.hexDecode_hexEncode, k.len]

lemma PublicKey.toHex_injective : Function.Injective PublicKey.toHex := by
  intro a b h
  have := congrArg PublicKey.fromHex h
  simpa using this

@[simp] lemma PublicKey.toHex_inj {a b : PublicKey} : a.toHex = b.toHex ↔ a = b :=
  PublicKey.toHex_injective.eq_iff

lemma PublicKey.colon_notMem_toHex (k : PublicKey) : ':' ∉ k.toHex.toList := by
  simpa using Text.colon_notMem_hexEncode k.buf

/-- A text is a key in hex, as it is written, exactly if it is sixty-four lower-case digits. -/
lemma PublicKey.exists_toHex_iff {s : String} :
    (∃ k : PublicKey, k.toHex = s) ↔
      s.toList.length = 64 ∧ ∀ c ∈ s.toList, Text.isLowerHex c = true := by
  rw [show 64 = 2 * 32 from rfl, ← Text.exists_hexEncode_iff]
  constructor
  · rintro ⟨k, rfl⟩
    exact ⟨k.buf, k.len, k.toList_toHex.symm⟩
  · rintro ⟨buf, hlen, heq⟩
    exact ⟨⟨buf, hlen⟩, by rw [PublicKey.toHex, heq, String.ofList_toList]⟩

lemma EventId.toHex_injective : Function.Injective EventId.toHex := by
  intro a b h
  have hlist := congrArg String.toList h
  have hdecoded := congrArg Text.hexDecode (by simpa [EventId.toHex] using hlist)
  rw [Text.hexDecode_hexEncode, Text.hexDecode_hexEncode, Option.some.injEq] at hdecoded
  cases a
  cases b
  cases hdecoded
  rfl

@[simp] lemma EventId.toHex_inj {a b : EventId} : a.toHex = b.toHex ↔ a = b :=
  EventId.toHex_injective.eq_iff

/-! ### Tags -/

/-- The tag has this name and this first value. -/
def tagIs (tag : Tag) (name value : String) : Bool :=
  tag.head? == some name && tag[1]? == some value

/-- Some `p` tag carries this key. -/
def pTagged (nodeHex : String) (event : Event) : Bool := event.tags.any fun t => tagIs t "p" nodeHex

/-- Some `e` tag carries this id. -/
def eTagged (idHex : String) (event : Event) : Bool := event.tags.any fun t => tagIs t "e" idHex

/-- The value of the first `d` tag that has one. -/
def dTag (event : Event) : Option String :=
  event.tags.findSome? fun t => if t.head? = some "d" then t[1]? else none

/-! ### Verification -/

/-- The hash that names an event, and signature verification. -/
structure Crypto where
  eventId : PublicKey → UInt64 → UInt16 → List Tag → String → EventId
  verifySchnorr : PublicKey → EventId → Signature → Bool

/-- The id is the hash of the fields, and the signature is the author's signature of the id. -/
def Event.verify (crypto : Crypto) (e : Event) : Bool :=
  decide (crypto.eventId e.pubkey e.createdAt e.kind e.tags e.content = e.id) &&
    crypto.verifySchnorr e.pubkey e.id e.sig

end NostrLn
