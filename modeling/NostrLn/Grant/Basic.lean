import NostrLn.Nostr
import NostrLn.Profile.Text

/-!
# Access grants: kind `30198`, authored by an owner

The store of grants and the one function that writes to it. Reading a `UsageProfile` from the
content of an event is a parameter, `parse`: it is `serde_json`'s.
-/

namespace NostrLn

/-- Kind of an access grant. -/
def grantKind : UInt16 := 30198

/-- A grant that has passed the checks of `Grants.apply`. -/
structure VerifiedGrant where
  profile : UsageProfile
  createdAt : UInt64
  owner : PublicKey

namespace Grant

/-- Why a grant event was not applied. -/
inductive Rejected
  | noOwnersConfigured
  | notAnOwner
  | notAddressedToThisNode
  | wrongTarget
  | superseded
  | unparseable
  | wrongKind
deriving DecidableEq

end Grant

/-- The grants a node service has applied, by controller. -/
structure Grants where
  node : Option PublicKey
  owners : List PublicKey
  byController : HashMap String VerifiedGrant
  others : Option VerifiedGrant

/-- No grants yet, for a node and the owners whose grants it will accept. -/
def Grants.new (node : PublicKey) (owners : List PublicKey) : Grants :=
  { node := some node, owners := owners, byController := ∅, others := none }

/-- The grant stored under a key, which is a controller or `OTHERS`. -/
def Grants.getRaw (g : Grants) (controller : String) : Option VerifiedGrant :=
  if controller = othersKey then g.others else g.byController.lookup controller

/-- `d = <node_pubkey>:<controller_pubkey>`, and only if the first half is us. -/
def target (nodeHex : String) (event : Event) : Option String :=
  match dTag event with
  | none => none
  | some d =>
    match Text.splitOnce ':' d with
    | none => none
    | some (node, controller) =>
      if node ≠ nodeHex ∨ controller.isEmpty then none else some controller

/-- The grant an event carries: what its content says, or nothing if it cannot be read. -/
def VerifiedGrant.ofEvent (parse : String → Option UsageProfile) (event : Event) : VerifiedGrant where
  profile := (parse event.content).getD default
  createdAt := event.createdAt
  owner := event.pubkey

/-- Write a grant under its key. -/
def Grants.store (g : Grants) (controller : String) (verified : VerifiedGrant) : Grants :=
  if controller = othersKey then { g with others := some verified }
  else { g with byController := g.byController.insert controller verified }

/-- Apply a kind-`30198` event: every check that makes a grant trustworthy, then the write. -/
def Grants.apply (parse : String → Option UsageProfile) (g : Grants) (event : Event) :
    Except Grant.Rejected String × Grants :=
  match g.node with
  | none => (.error .noOwnersConfigured, g)
  | some node =>
    if event.kind ≠ grantKind then (.error .wrongKind, g)
    else if g.owners.isEmpty then (.error .noOwnersConfigured, g)
    else if event.pubkey ∉ g.owners then (.error .notAnOwner, g)
    else if !pTagged node.toHex event then (.error .notAddressedToThisNode, g)
    else
      match target node.toHex event with
      | none => (.error .wrongTarget, g)
      | some controller =>
        if (g.getRaw controller).any fun existing => event.createdAt < existing.createdAt then
          (.error .superseded, g)
        else
          -- a grant that does not parse denies; it does not leave an older one standing
          let stored := g.store controller (VerifiedGrant.ofEvent parse event)
          if (parse event.content).isSome then (.ok controller, stored)
          else (.error .unparseable, stored)

/-- The grant that applies to a caller: its own, else that of `OTHERS`. -/
def Grants.resolve (g : Grants) (controller : PublicKey) : Except Denied VerifiedGrant :=
  match (g.byController.lookup controller.toHex).or g.others with
  | some grant => .ok grant
  | none => .error .unauthorized

/-- How many controllers have a grant of their own. -/
def Grants.len (g : Grants) : ℕ := g.byController.keys.length

/-! ### The slots of the store -/

/-- No key in hex spells `OTHERS`. -/
lemma PublicKey.toHex_ne_othersKey (k : PublicKey) : k.toHex ≠ othersKey := by
  intro h
  have hlen := congrArg (fun s : String => s.toList.length) h
  simp [Text.hexEncode_length, k.len, othersKey] at hlen

lemma PublicKey.toHex_ne_empty (k : PublicKey) : k.toHex ≠ "" := by
  intro h
  have hlen := congrArg (fun s : String => s.toList.length) h
  simp [Text.hexEncode_length, k.len] at hlen

lemma Grants.getRaw_toHex (g : Grants) (c : PublicKey) :
    g.getRaw c.toHex = g.byController.lookup c.toHex := by
  simp [Grants.getRaw, c.toHex_ne_othersKey]

@[simp] lemma Grants.getRaw_others (g : Grants) : g.getRaw othersKey = g.others := by
  simp [Grants.getRaw]

@[simp] lemma Grants.getRaw_new (node : PublicKey) (owners : List PublicKey) (k : String) :
    (Grants.new node owners).getRaw k = none := by
  simp [Grants.getRaw, Grants.new]

/-- Writing a key is seen at that key and nowhere else. -/
lemma Grants.getRaw_store (g : Grants) (k k' : String) (v : VerifiedGrant) :
    (g.store k v).getRaw k' = if k' = k then some v else g.getRaw k' := by
  simp only [Grants.store, Grants.getRaw]
  by_cases hk : k = othersKey
  · subst hk
    by_cases hk' : k' = othersKey <;> simp [hk']
  · by_cases hk' : k' = othersKey
    · have : othersKey ≠ k := fun h => hk h.symm
      simp [hk, hk', this]
    · by_cases heq : k' = k
      · subst heq; simp [hk]
      · simp [hk, hk', heq, AList.lookup_insert_ne heq]

@[simp] lemma Grants.node_store (g : Grants) (k : String) (v : VerifiedGrant) :
    (g.store k v).node = g.node := by
  rw [Grants.store]; split <;> rfl

@[simp] lemma Grants.owners_store (g : Grants) (k : String) (v : VerifiedGrant) :
    (g.store k v).owners = g.owners := by
  rw [Grants.store]; split <;> rfl

/-- `resolve` reads two slots: the caller's own and that of `OTHERS`. -/
lemma Grants.resolve_eq (g : Grants) (c : PublicKey) :
    g.resolve c =
      match (g.getRaw c.toHex).or (g.getRaw othersKey) with
      | some grant => .ok grant
      | none => .error .unauthorized := by
  rw [Grants.getRaw_toHex, Grants.getRaw_others]
  rfl

lemma Grants.resolve_eq_ok_iff {g : Grants} {c : PublicKey} {grant : VerifiedGrant} :
    g.resolve c = .ok grant ↔ (g.getRaw c.toHex).or (g.getRaw othersKey) = some grant := by
  rw [Grants.resolve_eq]
  cases (g.getRaw c.toHex).or (g.getRaw othersKey) <;> simp

/-- Resolving fails in one way only. -/
lemma Grants.resolve_eq_error {g : Grants} {c : PublicKey} {d : Denied}
    (h : g.resolve c = .error d) : d = .unauthorized := by
  rw [Grants.resolve] at h
  split at h
  · cases h
  · simpa using h.symm

/-! ### Eligible events -/

/-- The event passes every check of `apply` that does not look at the store, for the key `k`. -/
structure Eligible (node : PublicKey) (owners : List PublicKey) (k : String) (e : Event) : Prop where
  kind : e.kind = grantKind
  author : e.pubkey ∈ owners
  addressed : pTagged node.toHex e = true
  target : dTag e = some (node.toHex ++ ":" ++ k)
  nonempty : k ≠ ""

instance (node : PublicKey) (owners : List PublicKey) (k : String) (e : Event) :
    Decidable (Eligible node owners k e) :=
  decidable_of_iff (e.kind = grantKind ∧ e.pubkey ∈ owners ∧ pTagged node.toHex e = true ∧
      dTag e = some (node.toHex ++ ":" ++ k) ∧ k ≠ "")
    ⟨fun ⟨a, b, c, d, f⟩ => ⟨a, b, c, d, f⟩, fun ⟨a, b, c, d, f⟩ => ⟨a, b, c, d, f⟩⟩

/-- The target of an event is what follows the node's own key and a colon. -/
lemma target_eq_some_iff {node : PublicKey} {e : Event} {k : String} :
    target node.toHex e = some k ↔ dTag e = some (node.toHex ++ ":" ++ k) ∧ k ≠ "" := by
  have hcut : target node.toHex e = some k ↔
      ∃ d, dTag e = some d ∧ Text.splitOnce ':' d = some (node.toHex, k) ∧ k ≠ "" := by
    rw [target]
    cases dTag e with
    | none => simp
    | some d =>
      cases hs : Text.splitOnce ':' d with
      | none => simp [hs]
      | some p =>
        obtain ⟨a, b⟩ := p
        simp only [hs, Option.some.injEq, exists_eq_left', Prod.mk.injEq]
        by_cases ha : a = node.toHex
        · by_cases hb : b = ""
          · simp only [ha, hb, ne_eq, not_true, String.isEmpty_iff, or_true, if_true, true_and]
            exact ⟨fun h => (by cases h), fun h => absurd h.1.symm h.2⟩
          · simp only [ha, ne_eq, not_true, String.isEmpty_iff, hb, or_self, if_false,
              Option.some.injEq, true_and]
            exact ⟨fun h => ⟨h, h ▸ hb⟩, fun h => h.1⟩
        · simp [ha]
  rw [hcut]
  constructor
  · rintro ⟨d, hd, hs, hk⟩
    obtain ⟨rfl, -⟩ := Text.splitOnce_eq_some_iff.mp hs
    exact ⟨hd, hk⟩
  · rintro ⟨hd, hk⟩
    exact ⟨_, hd, Text.splitOnce_eq_some_iff.mpr ⟨rfl, node.colon_notMem_toHex⟩, hk⟩

/-- An event is eligible for one key only. -/
lemma Eligible.unique {node : PublicKey} {owners : List PublicKey} {k k' : String} {e : Event}
    (h : Eligible node owners k e) (h' : Eligible node owners k' e) : k = k' := by
  have hk := target_eq_some_iff.mpr ⟨h.target, h.nonempty⟩
  have hk' := target_eq_some_iff.mpr ⟨h'.target, h'.nonempty⟩
  simpa [hk] using hk'

/-- The event is a grant this node would accept, by all that `apply` checks of it. -/
def IsGrant (node : PublicKey) (owners : List PublicKey) (e : Event) : Prop :=
  ∃ k, Eligible node owners k e

/-! ### Sample events -/

namespace Sample

/-- The key whose bytes are all `b`. -/
def key (b : UInt8) : PublicKey := ⟨List.replicate 32 b, by simp⟩

/-- The event id whose bytes are all `b`. -/
def eventId (b : UInt8) : EventId := ⟨List.replicate 32 b, by simp⟩

/-- The grant event of owner `key b` for `controller`, to the node `key 1`. -/
def grantEvent (b : UInt8) (controller content : String) (createdAt : UInt64) : Event where
  id := eventId b
  pubkey := key b
  createdAt := createdAt
  kind := grantKind
  tags := [["d", (key 1).toHex ++ ":" ++ controller], ["p", (key 1).toHex]]
  content := content
  sig := ⟨List.replicate 64 b, by simp⟩

lemma eligible_grantEvent {owners : List PublicKey} {b : UInt8} {controller : String}
    (howner : key b ∈ owners) (hnonempty : controller ≠ "") (content : String)
    (createdAt : UInt64) :
    Eligible (key 1) owners controller (grantEvent b controller content createdAt) where
  kind := rfl
  author := howner
  addressed := by simp [pTagged, grantEvent, tagIs]
  target := by simp [dTag, grantEvent]
  nonempty := hnonempty

/-- `{}`, the revocation. -/
def revocation : String := "\x7b\x7d"

/-- `{"methods":{"OTHERS":{}}}`: every wallet method. -/
def everyMethod : String := "\x7b\"methods\":\x7b\"OTHERS\":\x7b\x7d\x7d\x7d"

/-- `{"notifications":{"OTHERS":{}}}`: every notification. -/
def everyNotification : String := "\x7b\"notifications\":\x7b\"OTHERS\":\x7b\x7d\x7d\x7d"

/-- What the node reads in a content. -/
def readProfile (s : String) : Option UsageProfile := Json.parseText (readUsageProfile noFloats) s

lemma readProfile_revocation : readProfile revocation = some default := by
  have hwritten : (default : UsageProfile).render = revocation := by decide
  rw [readProfile, ← hwritten, parseProfile_render]
  rfl

end Sample

end NostrLn
