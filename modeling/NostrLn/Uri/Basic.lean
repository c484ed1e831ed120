import NostrLn.Nostr
import NostrLn.Uri.Percent

/-!
# Connection URIs

The URI of a node names its service and its relays and nothing else. That of a wallet carries the
secret of the client as well, and every value in it is percent-decoded before its name is looked at.
The parsers are `none` where the program panics.
-/

namespace NostrLn

/-! ### Texts -/

/-- `str::strip_prefix`. -/
def stripPrefix (start s : String) : Option String :=
  (start.toList.isPrefixOf? s.toList).map String.ofList

/-- What stands before the first `sep`, or all of it. -/
def beforeFirst (sep : List Char) : List Char → List Char
  | [] => []
  | c :: cs => if sep.isPrefixOf (c :: cs) then [] else c :: beforeFirst sep cs

/-- The key and the query of what follows the scheme. -/
def keyAndQuery (rest : String) : String × String := (Text.splitOnce '?' rest).getD (rest, "")

/-- The parameters of a query, as they stand between ampersands. -/
def queryPairs (query : String) : List String :=
  ((query.toList.splitOn '&').filter fun p => !p.isEmpty).map String.ofList

/-- The name and the value of a parameter. -/
def keyValue (pair : String) : String × String := (Text.splitOnce '=' pair).getD (pair, "")

/-! ### Node control -/

/-- Why a URI is not a `nostr+nodecontrol://` URI. -/
inductive Nnc.UriError
  | wrongScheme (scheme : String)
  | badServiceKey
  | noRelay
  | carriesSecret
deriving DecidableEq

/-- A parsed connection URI. -/
structure NodeControlUri where
  service : PublicKey
  relays : List String
deriving DecidableEq

namespace NodeControlUri

/-- The scheme NIP-XX defines. -/
def scheme : String := "nostr+nodecontrol"

/-- The loop over the parameters, with the relays so far. -/
def readPairs (relays : List String) : List String → Option (Except Nnc.UriError (List String))
  | [] => some (.ok relays)
  | pair :: rest =>
    let (k, v) := keyValue pair
    if k = "relay" then
      match percentDecode v with
      | none => none
      | some relay => readPairs (relays ++ [relay]) rest
    else if k = "secret" then some (.error .carriesSecret)
    else readPairs relays rest

/-- Read a URI. -/
def fromStr (s : String) : Option (Except Nnc.UriError NodeControlUri) :=
  match stripPrefix (scheme ++ "://") s with
  | none => some (.error (.wrongScheme (String.ofList (beforeFirst "://".toList s.toList))))
  | some rest =>
    let (key, query) := keyAndQuery rest
    match PublicKey.fromHex key with
    | none => some (.error .badServiceKey)
    | some service =>
      match readPairs [] (queryPairs query) with
      | none => none
      | some (.error e) => some (.error e)
      | some (.ok relays) =>
        if relays.isEmpty then some (.error .noRelay) else some (.ok { service, relays })

/-- Write a URI. -/
def display (u : NodeControlUri) : String :=
  scheme ++ "://" ++ u.service.toHex ++ String.ofList
    (u.relays.mapIdx fun i r =>
      (if i = 0 then '?' else '&') :: ("relay=".toList ++ (percentEncode r).toList)).flatten

/-- The values that are decoded on the way: those of the relays before the first secret. -/
def relayValues (pairs : List String) : List String :=
  ((pairs.map keyValue).takeWhile fun p => p.1 ≠ "secret").filterMap fun p =>
    if p.1 = "relay" then some p.2 else none

/-- Those of a URI, which has its parameters read only if its scheme and key are right. -/
def decodedValues (s : String) : List String :=
  match stripPrefix (scheme ++ "://") s with
  | none => []
  | some rest =>
    let (key, query) := keyAndQuery rest
    match PublicKey.fromHex key with
    | none => []
    | some _ => relayValues (queryPairs query)

end NodeControlUri

/-! ### Wallet connect -/

/-- A secret key: thirty-two bytes. -/
structure SecretKey where
  buf : List UInt8
  len : buf.length = 32

/-- What the library reads keys from, beside hex: bech32, and the URIs of NIP-21. -/
structure KeyText where
  fromBech32 : String → Option PublicKey
  fromNostrUri : String → Option PublicKey
  parseSecret : String → Option SecretKey

/-- Parse from hex, bech32 or a NIP-21 URI. -/
def PublicKey.parse (keys : KeyText) (s : String) : Option PublicKey :=
  (PublicKey.fromHex s).or ((keys.fromBech32 s).or (keys.fromNostrUri s))

/-- Why a text is not a `nostr+walletconnect://` URI. -/
inductive Nwc.UriError
  | scheme
  | wallet
  | noRelay
  | secret
deriving DecidableEq

/-- Where a wallet is, and the key to reach it with. -/
structure WalletUri where
  wallet : PublicKey
  relays : List String
  secret : SecretKey

namespace WalletUri

/-- The loop over the parameters, with the relays and the secret so far. -/
def readPairs (keys : KeyText) (relays : List String) (secret : Option SecretKey) :
    List String → Option (List String × Option SecretKey)
  | [] => some (relays, secret)
  | pair :: rest =>
    match Text.splitOnce '=' pair with
    | none => readPairs keys relays secret rest
    | some (k, v) =>
      match percentDecode v with
      | none => none
      | some v =>
        if k = "relay" then readPairs keys (relays ++ [v]) secret rest
        else if k = "secret" then readPairs keys relays (keys.parseSecret v) rest
        else readPairs keys relays secret rest

/-- Read a URI. -/
def fromStr (keys : KeyText) (s : String) : Option (Except Nwc.UriError WalletUri) :=
  match stripPrefix "nostr+walletconnect://" s with
  | none => some (.error .scheme)
  | some rest =>
    let (pubkey, query) := keyAndQuery rest
    match PublicKey.parse keys pubkey with
    | none => some (.error .wallet)
    | some wallet =>
      match readPairs keys [] none (queryPairs query) with
      | none => none
      | some (relays, secret) =>
        if relays.isEmpty then some (.error .noRelay)
        else
          match secret with
          | none => some (.error .secret)
          | some secret => some (.ok { wallet, relays, secret })

/-- The values that are decoded on the way: all of them. -/
def values (pairs : List String) : List String :=
  pairs.filterMap fun pair => (Text.splitOnce '=' pair).map Prod.snd

/-- Those of a URI, which has its parameters read only if its scheme and key are right. -/
def decodedValues (keys : KeyText) (s : String) : List String :=
  match stripPrefix "nostr+walletconnect://" s with
  | none => []
  | some rest =>
    let (pubkey, query) := keyAndQuery rest
    match PublicKey.parse keys pubkey with
    | none => []
    | some _ => values (queryPairs query)

end WalletUri

/-! ### A URI of a node, part by part -/

lemma stripPrefix_append (start rest : String) : stripPrefix start (start ++ rest) = some rest := by
  have hprefix : start.toList.isPrefixOf? (start.toList ++ rest.toList) = some rest.toList :=
    List.isPrefixOf?_eq_some_iff_append_eq.mpr rfl
  rw [stripPrefix, String.toList_append, hprefix, Option.map_some, String.ofList_toList]

lemma PublicKey.notMem_toHex (k : PublicKey) {c : Char} (h : Text.isLowerHex c = false) :
    c ∉ k.toHex.toList := by
  intro hmem
  obtain ⟨_, hdigits⟩ := PublicKey.exists_toHex_iff.mp ⟨k, rfl⟩
  rw [hdigits c hmem] at h
  cases h

lemma keyAndQuery_toHex (k : PublicKey) (query : String) :
    keyAndQuery (k.toHex ++ "?" ++ query) = (k.toHex, query) := by
  have hcut : Text.splitOnce '?' (k.toHex ++ "?" ++ query) = some (k.toHex, query) :=
    Text.splitOnce_eq_some_iff.mpr ⟨rfl, k.notMem_toHex (by decide)⟩
  rw [keyAndQuery, hcut]
  rfl

/-- With the scheme and the key right, the parameters decide. -/
lemma NodeControlUri.fromStr_append (k : PublicKey) (query : String) :
    NodeControlUri.fromStr (NodeControlUri.scheme ++ "://" ++ (k.toHex ++ "?" ++ query)) =
      match NodeControlUri.readPairs [] (queryPairs query) with
      | none => none
      | some (.error e) => some (.error e)
      | some (.ok relays) =>
        if relays.isEmpty then some (.error .noRelay)
        else some (.ok { service := k, relays }) := by
  rw [NodeControlUri.fromStr, stripPrefix_append]
  simp only [keyAndQuery_toHex, PublicKey.fromHex_toHex]

/-! ### Panics -/

lemma NodeControlUri.relayValues_of_relay {pair : String} (h : (keyValue pair).1 = "relay")
    (pairs : List String) :
    NodeControlUri.relayValues (pair :: pairs) =
      (keyValue pair).2 :: NodeControlUri.relayValues pairs := by
  simp [NodeControlUri.relayValues, h]

lemma NodeControlUri.relayValues_of_other {pair : String} (hrelay : (keyValue pair).1 ≠ "relay")
    (hsecret : (keyValue pair).1 ≠ "secret") (pairs : List String) :
    NodeControlUri.relayValues (pair :: pairs) = NodeControlUri.relayValues pairs := by
  simp [NodeControlUri.relayValues, hrelay, hsecret]

lemma NodeControlUri.isSome_readPairs (relays pairs : List String) :
    (NodeControlUri.readPairs relays pairs).isSome = true ↔
      ∀ v ∈ NodeControlUri.relayValues pairs, Decodable v := by
  induction pairs generalizing relays with
  | nil => simp [NodeControlUri.readPairs, NodeControlUri.relayValues]
  | cons pair pairs ih =>
    rw [NodeControlUri.readPairs]
    simp only
    split
    · rename_i hrelay
      rw [NodeControlUri.relayValues_of_relay hrelay, List.forall_mem_cons,
        ← isSome_percentDecode_iff]
      cases percentDecode (keyValue pair).2 with
      | none => simp
      | some relay => simpa using ih (relays ++ [relay])
    · rename_i hrelay
      split
      · rename_i hsecret
        simp [NodeControlUri.relayValues, hsecret]
      · rename_i hsecret
        rw [NodeControlUri.relayValues_of_other hrelay hsecret, ih]

lemma NodeControlUri.isSome_fromStr_iff (s : String) :
    (NodeControlUri.fromStr s).isSome = true ↔
      ∀ v ∈ NodeControlUri.decodedValues s, Decodable v := by
  rw [NodeControlUri.fromStr, NodeControlUri.decodedValues]
  cases stripPrefix (NodeControlUri.scheme ++ "://") s with
  | none => simp
  | some rest =>
    simp only
    cases PublicKey.fromHex (keyAndQuery rest).1 with
    | none => simp
    | some service =>
      simp only
      rw [← NodeControlUri.isSome_readPairs []]
      cases NodeControlUri.readPairs [] (queryPairs (keyAndQuery rest).2) with
      | none => simp
      | some outcome =>
        cases outcome with
        | error e => simp
        | ok relays =>
          simp only
          split <;> simp

lemma WalletUri.isSome_readPairs (keys : KeyText) (relays : List String) (secret : Option SecretKey)
    (pairs : List String) :
    (WalletUri.readPairs keys relays secret pairs).isSome = true ↔
      ∀ v ∈ WalletUri.values pairs, Decodable v := by
  induction pairs generalizing relays secret with
  | nil => simp [WalletUri.readPairs, WalletUri.values]
  | cons pair pairs ih =>
    rw [WalletUri.readPairs, WalletUri.values, List.filterMap_cons]
    cases Text.splitOnce '=' pair with
    | none => exact ih relays secret
    | some p =>
      simp only [Option.map_some, List.forall_mem_cons]
      rw [← isSome_percentDecode_iff]
      cases percentDecode p.2 with
      | none => simp
      | some v =>
        simp only [Option.isSome_some, true_and]
        split
        · exact ih (relays ++ [v]) secret
        · split
          · exact ih relays (keys.parseSecret v)
          · exact ih relays secret

lemma WalletUri.isSome_fromStr_iff (keys : KeyText) (s : String) :
    (WalletUri.fromStr keys s).isSome = true ↔
      ∀ v ∈ WalletUri.decodedValues keys s, Decodable v := by
  rw [WalletUri.fromStr, WalletUri.decodedValues]
  cases stripPrefix "nostr+walletconnect://" s with
  | none => simp
  | some rest =>
    simp only
    cases PublicKey.parse keys (keyAndQuery rest).1 with
    | none => simp
    | some wallet =>
      simp only
      rw [← WalletUri.isSome_readPairs keys [] none]
      cases WalletUri.readPairs keys [] none (queryPairs (keyAndQuery rest).2) with
      | none => simp
      | some p =>
        simp only
        split
        · simp
        · cases p.2 <;> simp

/-- **When parsing a URI does not panic.** Exactly when each value that is decoded on the way is
cut at character boundaries. -/
theorem uri_parsing_returns_iff (keys : KeyText) (s : String) :
    ((NodeControlUri.fromStr s).isSome = true ↔
      ∀ v ∈ NodeControlUri.decodedValues s, Decodable v) ∧
    ((WalletUri.fromStr keys s).isSome = true ↔
      ∀ v ∈ WalletUri.decodedValues keys s, Decodable v) :=
  ⟨NodeControlUri.isSome_fromStr_iff s, WalletUri.isSome_fromStr_iff keys s⟩

/-- A service. -/
def Sample.uriKey : PublicKey := ⟨List.replicate 32 1, rfl⟩

/-- A percent sign before a character of three bytes stops the program. -/
theorem percent_before_euro_panics :
    ¬ ∀ (keys : KeyText) (s : String), (NodeControlUri.fromStr s).isSome = true ∧
      (WalletUri.fromStr keys s).isSome = true := by
  intro h
  have hreturns := (h ⟨fun _ => none, fun _ => none, fun _ => none⟩
    (NodeControlUri.scheme ++ "://" ++ (Sample.uriKey.toHex ++ "?" ++ "relay=%€"))).1
  rw [NodeControlUri.fromStr_append] at hreturns
  have hpanics : NodeControlUri.readPairs [] (queryPairs "relay=%€") = none := by decide +kernel
  rw [hpanics] at hreturns
  cases hreturns

/-! ### A URI that was written -/

/-- A parameter as it is written. -/
def relayPair (r : String) : List Char := "relay=".toList ++ (percentEncode r).toList

lemma mem_relayPair {c : Char} {r : String} :
    c ∈ relayPair r ↔ c ∈ "relay=".toList ∨ c ∈ (percentEncode r).toList :=
  List.mem_append

lemma ofList_relayPair (r : String) :
    String.ofList (relayPair r) = "relay" ++ '='.toString ++ percentEncode r := by
  have hname : "relay" ++ '='.toString = "relay=" := by decide
  have hpair : relayPair r = ("relay=" ++ percentEncode r).toList := String.toList_append.symm
  rw [hpair, String.ofList_toList, hname]

lemma intercalate_relayPair (r : String) (rs : List String) :
    ['&'].intercalate ((r :: rs).map relayPair) =
      relayPair r ++ (rs.map fun r => '&' :: relayPair r).flatten := by
  induction rs generalizing r with
  | nil => simp
  | cons r' rs ih =>
    rw [List.map_cons, List.map_cons, List.intercalate_cons_cons, ← List.map_cons, ih]
    simp

/-- The relays are written one after the other, with ampersands between them. -/
lemma NodeControlUri.display_eq (u : NodeControlUri) (h : u.relays ≠ []) :
    u.display = NodeControlUri.scheme ++ "://" ++
      (u.service.toHex ++ "?" ++ String.ofList (['&'].intercalate (u.relays.map relayPair))) := by
  obtain ⟨r, rs, hrelays⟩ := List.exists_cons_of_ne_nil h
  have hrest : ∀ l : List String,
      l.mapIdx (fun i r => (if i + 1 = 0 then '?' else '&') :: relayPair r) =
        l.map fun r => '&' :: relayPair r := by
    intro l
    refine List.ext_getElem (by simp) ?_
    intro i h₁ h₂
    simp
  have hwritten : (u.relays.mapIdx fun i r => (if i = 0 then '?' else '&') :: relayPair r).flatten =
      '?' :: ['&'].intercalate (u.relays.map relayPair) := by
    rw [hrelays, intercalate_relayPair, List.mapIdx_cons, hrest]
    rfl
  rw [NodeControlUri.display, ← String.toList_inj]
  simp only [String.toList_append, String.toList_ofList, List.append_assoc]
  congr 3

/-- What is written between ampersands has none in it. -/
lemma ampersand_notMem_percentEncode (r : String) : '&' ∉ (percentEncode r).toList := by
  rw [percentEncode, String.toList_ofList]
  intro hmem
  obtain ⟨b, _, hb⟩ := List.mem_flatMap.mp hmem
  have hlt := b.toNat_lt
  have hdigit : ∀ n < 16, '&' ≠ upperHexDigit n := by
    intro n hn heq
    obtain ⟨_, hvalue, _⟩ := upperHexDigit_spec hn
    rw [← heq] at hvalue
    cases hvalue
  rw [percentEncodeByte] at hb
  split at hb
  · rename_i hplain
    have hnat := congrArg Char.toNat (List.mem_singleton.mp hb)
    rw [Utf8.toNat_byteChar] at hnat
    have hranges := of_decide_eq_true hplain
    have : '&'.toNat = 38 := rfl
    omega
  · simp only [List.mem_cons, List.not_mem_nil, or_false] at hb
    obtain hb | hb | hb := hb
    · exact absurd hb (by decide)
    · exact hdigit _ (by omega) hb
    · exact hdigit _ (by omega) hb

lemma queryPairs_relayPair {rs : List String} (h : rs ≠ []) :
    queryPairs (String.ofList (['&'].intercalate (rs.map relayPair))) =
      rs.map fun r => String.ofList (relayPair r) := by
  have hamp : ∀ p ∈ rs.map relayPair, '&' ∉ p := by
    rintro p hp
    obtain ⟨r, _, rfl⟩ := List.mem_map.mp hp
    rw [mem_relayPair, not_or]
    exact ⟨by decide, ampersand_notMem_percentEncode r⟩
  have hfull : ∀ p ∈ rs.map relayPair, (!p.isEmpty) = true := by
    rintro p hp
    obtain ⟨r, _, rfl⟩ := List.mem_map.mp hp
    rfl
  rw [queryPairs, String.toList_ofList, List.splitOn_intercalate '&' hamp (by simpa using h),
    List.filter_eq_self.mpr hfull, List.map_map]
  rfl

lemma keyValue_relayPair (r : String) :
    keyValue (String.ofList (relayPair r)) = ("relay", percentEncode r) := by
  have hcut : Text.splitOnce '=' (String.ofList (relayPair r)) = some ("relay", percentEncode r) :=
    Text.splitOnce_eq_some_iff.mpr ⟨ofList_relayPair r, by decide⟩
  rw [keyValue, hcut]
  rfl

/-- Relays that were written are read back byte by byte. -/
lemma NodeControlUri.readPairs_relayPair (relays rs : List String) :
    NodeControlUri.readPairs relays (rs.map fun r => String.ofList (relayPair r)) =
      some (.ok (relays ++ rs.map byteChars)) := by
  induction rs generalizing relays with
  | nil => simp [NodeControlUri.readPairs]
  | cons r rs ih =>
    rw [List.map_cons, NodeControlUri.readPairs, keyValue_relayPair]
    simp only [if_true, percentDecode_percentEncode, ih]
    simp

lemma NodeControlUri.fromStr_display (u : NodeControlUri) (h : u.relays ≠ []) :
    NodeControlUri.fromStr u.display =
      some (.ok { service := u.service, relays := u.relays.map byteChars }) := by
  rw [u.display_eq h, NodeControlUri.fromStr_append, queryPairs_relayPair h,
    NodeControlUri.readPairs_relayPair]
  simp [h]

/-- A URI that was written is read back exactly if its relays are of one-byte characters. -/
lemma NodeControlUri.fromStr_display_eq_iff (u : NodeControlUri) (h : u.relays ≠ []) :
    NodeControlUri.fromStr u.display = some (.ok u) ↔ ∀ r ∈ u.relays, IsAscii r := by
  rw [u.fromStr_display h]
  obtain ⟨service, relays⟩ := u
  simp only [Option.some.injEq, Except.ok.injEq, NodeControlUri.mk.injEq, true_and,
    ← byteChars_eq_self_iff]
  conv_lhs => rhs; rw [← List.map_id relays]
  exact List.map_inj_left

/-! ### A URI that was read -/

/-- The relays of a URI are its relay values, decoded. -/
lemma NodeControlUri.relays_of_readPairs {pairs acc relays : List String}
    (h : NodeControlUri.readPairs acc pairs = some (.ok relays)) :
    ∃ later, relays = acc ++ later ∧
      List.Forall₂ (fun v r => percentDecode v = some r) (NodeControlUri.relayValues pairs)
        later := by
  induction pairs generalizing acc with
  | nil =>
    cases h
    exact ⟨[], by simp, .nil⟩
  | cons pair pairs ih =>
    rw [NodeControlUri.readPairs] at h
    simp only at h
    split at h
    · rename_i hrelay
      rw [NodeControlUri.relayValues_of_relay hrelay]
      split at h
      · cases h
      · rename_i relay hdecoded
        obtain ⟨later, rfl, hlater⟩ := ih h
        exact ⟨relay :: later, by simp, .cons hdecoded hlater⟩
    · rename_i hrelay
      split at h
      · cases h
      · rename_i hsecret
        rw [NodeControlUri.relayValues_of_other hrelay hsecret]
        exact ih h

lemma NodeControlUri.relays_of_fromStr {s : String} {u : NodeControlUri}
    (h : NodeControlUri.fromStr s = some (.ok u)) :
    u.relays ≠ [] ∧
      List.Forall₂ (fun v r => percentDecode v = some r) (NodeControlUri.decodedValues s)
        u.relays := by
  rw [NodeControlUri.fromStr] at h
  rw [NodeControlUri.decodedValues]
  cases hrest : stripPrefix (NodeControlUri.scheme ++ "://") s with
  | none =>
    rw [hrest] at h
    cases h
  | some rest =>
    simp only [hrest] at h ⊢
    cases hkey : PublicKey.fromHex (keyAndQuery rest).1 with
    | none =>
      rw [hkey] at h
      cases h
    | some service =>
      simp only [hkey] at h ⊢
      split at h
      · cases h
      · cases h
      · rename_i relays hrelays
        split at h
        · cases h
        · rename_i hsome
          cases h
          obtain ⟨later, heq, hlater⟩ := NodeControlUri.relays_of_readPairs hrelays
          rw [List.nil_append] at heq
          subst heq
          exact ⟨by simpa using hsome, hlater⟩

/-- The decoded values are of one-byte characters exactly if the values are plain. -/
lemma forall_isAscii_iff {values relays : List String}
    (h : List.Forall₂ (fun v r => percentDecode v = some r) values relays) :
    (∀ r ∈ relays, IsAscii r) ↔ ∀ v ∈ values, Plain v := by
  induction h with
  | nil => simp
  | cons hdecoded _ ih =>
    rw [List.forall_mem_cons, List.forall_mem_cons, ih, isAscii_percentDecode_iff hdecoded]

/-- **When URIs round-trip.** A URI that is written is read back exactly if its relays are ASCII.
One that was read is read back, after it is written again, exactly if its relay parameters were
ASCII and had no escapes of anything else. -/
theorem uri_round_trip_iff (u : NodeControlUri) :
    (u.relays ≠ [] →
      (NodeControlUri.fromStr u.display = some (.ok u) ↔ ∀ r ∈ u.relays, IsAscii r)) ∧
    ∀ s : String, NodeControlUri.fromStr s = some (.ok u) →
      (NodeControlUri.fromStr u.display = some (.ok u) ↔
        ∀ v ∈ NodeControlUri.decodedValues s, Plain v) := by
  refine ⟨u.fromStr_display_eq_iff, ?_⟩
  intro s h
  obtain ⟨hne, hdecoded⟩ := NodeControlUri.relays_of_fromStr h
  rw [u.fromStr_display_eq_iff hne, forall_isAscii_iff hdecoded]

/-- A URI with a relay that is not in ASCII. -/
def Sample.accented : NodeControlUri := { service := Sample.uriKey, relays := ["wss://é"] }

/-- It is not read back. -/
theorem accented_relay_changes :
    ¬ ((∀ u : NodeControlUri, u.relays ≠ [] →
        NodeControlUri.fromStr u.display = some (.ok u)) ∧
      ∀ (s : String) (u : NodeControlUri), NodeControlUri.fromStr s = some (.ok u) →
        NodeControlUri.fromStr u.display = some (.ok u)) := by
  rintro ⟨h, _⟩
  have hne : Sample.accented.relays ≠ [] := List.cons_ne_nil _ _
  have hascii := (Sample.accented.fromStr_display_eq_iff hne).mp (h _ hne) "wss://é" (by
    rw [Sample.accented]; simp)
  exact absurd (hascii 'é' (by decide)) (by decide)

end NostrLn
