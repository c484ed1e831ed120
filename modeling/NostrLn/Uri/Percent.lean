import NostrLn.Lib.Text
import NostrLn.Lib.Utf8

/-!
# Percent coding

The encoder writes a text byte by byte. The decoder walks the bytes, and makes a character of each
of them; at a percent sign it looks at the two bytes after it, and takes them out of the text as a
slice, which has to begin and end at character boundaries or the program stops.
-/

namespace NostrLn

/-! ### The decoder -/

/-- The byte of a percent sign. -/
def percentSign : UInt8 := 37

/-- The byte of a plus sign. -/
def plusSign : UInt8 := 43

/-- The value of a byte that is a digit, of either case. -/
def byteValue (b : UInt8) : Option ℕ := Text.hexValue (Utf8.byteChar b)

/-- `u8::from_str_radix` in base sixteen, on a text of two bytes: two digits, or a sign and one. -/
def fromStrRadix16 (a b : UInt8) : Option UInt8 :=
  if a = plusSign then (byteValue b).map UInt8.ofNat
  else
    match byteValue a, byteValue b with
    | some hi, some lo => some (UInt8.ofNat (16 * hi + lo))
    | _, _ => none

/-- The loop over the bytes. It is `none` where the slice after a percent sign does not begin and
end at character boundaries. -/
def percentDecodeBytes : List UInt8 → Option (List Char)
  | [] => some []
  | c :: a :: b :: rest =>
    if c = percentSign then
      if Utf8.isBoundary (a :: b :: rest) && Utf8.isBoundary rest then
        match fromStrRadix16 a b with
        | some v => (percentDecodeBytes rest).map (Utf8.byteChar v :: ·)
        | none => (percentDecodeBytes (a :: b :: rest)).map (Utf8.byteChar c :: ·)
      else none
    else (percentDecodeBytes (a :: b :: rest)).map (Utf8.byteChar c :: ·)
  | c :: rest => (percentDecodeBytes rest).map (Utf8.byteChar c :: ·)

/-- Decode a text; `none` is a panic. -/
def percentDecode (s : String) : Option String :=
  (percentDecodeBytes (Utf8.bytes s.toList)).map String.ofList

/-! ### The encoder -/

/-- A byte that is written as it is. -/
def unreserved (c : UInt8) : Bool :=
  decide ((65 ≤ c.toNat ∧ c.toNat ≤ 90) ∨ (97 ≤ c.toNat ∧ c.toNat ≤ 122) ∨
    (48 ≤ c.toNat ∧ c.toNat ≤ 57) ∨ c.toNat = 45 ∨ c.toNat = 95 ∨ c.toNat = 46 ∨ c.toNat = 126)

/-- The upper-case digit of a value below sixteen. -/
def upperHexDigit (n : ℕ) : Char := Char.ofNat (if n < 10 then 48 + n else 55 + n)

/-- One byte, written. -/
def percentEncodeByte (c : UInt8) : List Char :=
  if unreserved c then [Utf8.byteChar c]
  else ['%', upperHexDigit (c.toNat / 16), upperHexDigit (c.toNat % 16)]

/-- Encode a text. -/
def percentEncode (s : String) : String :=
  String.ofList ((Utf8.bytes s.toList).flatMap percentEncodeByte)

/-! ### The steps of the loop -/

variable {a b c : UInt8} {rest : List UInt8} {l : List Char}

/-- What is not a percent sign is read by itself. -/
lemma percentDecodeBytes_cons (h : c ≠ percentSign) (rest : List UInt8) :
    percentDecodeBytes (c :: rest) = (percentDecodeBytes rest).map (Utf8.byteChar c :: ·) := by
  match rest with
  | [] => rfl
  | [_] => rfl
  | _ :: _ :: _ => rw [percentDecodeBytes, if_neg h]

/-- The slice after a percent sign is fine, or there is none for want of bytes. -/
def sliceOk : List UInt8 → Bool
  | a :: b :: rest => Utf8.isBoundary (a :: b :: rest) && Utf8.isBoundary rest
  | _ => true

/-- The byte after a percent sign, with its two digits. -/
def escaped : List UInt8 → Option (UInt8 × List UInt8)
  | a :: b :: rest => (fromStrRadix16 a b).map fun v => (v, rest)
  | _ => none

/-- A percent sign is read with its two digits, or by itself. -/
lemma percentDecodeBytes_percentSign (rest : List UInt8) :
    percentDecodeBytes (percentSign :: rest) =
      if sliceOk rest then
        match escaped rest with
        | some (v, later) => (percentDecodeBytes later).map (Utf8.byteChar v :: ·)
        | none => (percentDecodeBytes rest).map ('%' :: ·)
      else none := by
  match rest with
  | [] => rfl
  | [_] => rfl
  | a :: b :: rest =>
    rw [percentDecodeBytes, if_pos rfl, sliceOk, escaped]
    split
    · cases fromStrRadix16 a b with
      | none => rfl
      | some v => rfl
    · rfl

/-- A digit is neither a percent sign nor beyond ASCII. -/
lemma byteValue_bounds {n : ℕ} (h : byteValue b = some n) :
    b ≠ percentSign ∧ b.toNat < 128 ∧ n < 16 := by
  have hdigit := Text.isSome_hexValue_iff.mp (Option.isSome_iff_exists.mpr ⟨n, h⟩)
  rw [Utf8.toNat_byteChar] at hdigit
  refine ⟨?_, by omega, Text.hexValue_lt h⟩
  rintro rfl
  have : percentSign.toNat = 37 := rfl
  omega

/-- What is read with a percent sign is two bytes, neither of which is one. -/
lemma escaped_eq_some {v : UInt8} {later : List UInt8} (h : escaped rest = some (v, later)) :
    ∃ a b, rest = a :: b :: later ∧ fromStrRadix16 a b = some v ∧
      (a ≠ percentSign ∧ a.toNat < 128) ∧ b ≠ percentSign ∧ b.toNat < 128 := by
  match rest with
  | [] => cases h
  | [_] => cases h
  | a :: b :: rest =>
    obtain ⟨w, hradix, heq⟩ := Option.map_eq_some_iff.mp h
    cases heq
    refine ⟨a, b, rfl, hradix, ?_⟩
    rw [fromStrRadix16] at hradix
    split at hradix
    · rename_i hplus
      obtain ⟨n, hn, _⟩ := Option.map_eq_some_iff.mp hradix
      obtain ⟨hb, hlt, _⟩ := byteValue_bounds hn
      subst hplus
      exact ⟨by decide, hb, hlt⟩
    · split at hradix
      · rename_i hi lo hhi hlo
        obtain ⟨ha, halt, _⟩ := byteValue_bounds hhi
        obtain ⟨hb, hblt, _⟩ := byteValue_bounds hlo
        exact ⟨⟨ha, halt⟩, hb, hblt⟩
      · cases hradix

/-! ### Where it stops -/

/-- Whether the text is read to its end depends on the slices alone. -/
lemma isSome_percentDecodeBytes_percentSign (rest : List UInt8) :
    (percentDecodeBytes (percentSign :: rest)).isSome =
      (sliceOk rest && (percentDecodeBytes rest).isSome) := by
  rw [percentDecodeBytes_percentSign]
  cases sliceOk rest with
  | false => rfl
  | true =>
    cases hescaped : escaped rest with
    | none => simp
    | some p =>
      obtain ⟨v, later⟩ := p
      obtain ⟨a, b, rfl, _, ⟨ha, _⟩, hb, _⟩ := escaped_eq_some hescaped
      simp [percentDecodeBytes_cons ha, percentDecodeBytes_cons hb]

lemma isSome_percentDecodeBytes_append {bs : List UInt8} (h : ∀ b ∈ bs, b ≠ percentSign)
    (rest : List UInt8) :
    (percentDecodeBytes (bs ++ rest)).isSome = (percentDecodeBytes rest).isSome := by
  induction bs with
  | nil => rfl
  | cons b bs ih =>
    rw [List.cons_append, percentDecodeBytes_cons (h b (by simp)), Option.isSome_map,
      ih fun b' hb' => h b' (by simp [hb'])]

/-- The two bytes after a percent sign, in a text: a slice of them is fine if they are two
characters of one byte, or one of two, or if there are not two of them. -/
def sliceable : List Char → Bool
  | [] => true
  | c :: rest =>
    if c.utf8Size = 1 then rest.head?.all fun d => d.utf8Size = 1 else c.utf8Size = 2

lemma utf8Size_eq_one_iff {c : Char} : c.utf8Size = 1 ↔ Utf8.isAscii c = true := by
  rw [Char.utf8Size_eq_one_iff, UInt32.le_iff_toNat_le, Utf8.isAscii, decide_eq_true_eq]
  exact Nat.lt_succ_iff.symm

lemma sliceOk_bytes (l : List Char) : sliceOk (Utf8.bytes l) = sliceable l := by
  cases l with
  | nil => rfl
  | cons c l =>
    have hbegins := Utf8.isBoundary_bytes (c :: l)
    cases hc : Utf8.isAscii c with
    | true =>
      rw [sliceable, if_pos (utf8Size_eq_one_iff.mpr hc)]
      rw [Utf8.bytes_cons, Utf8.encode_of_isAscii hc] at hbegins ⊢
      cases l with
      | nil => rfl
      | cons d l =>
        cases hd : Utf8.isAscii d with
        | true =>
          rw [Utf8.bytes_cons, Utf8.encode_of_isAscii hd] at hbegins ⊢
          simp only [List.cons_append, List.nil_append, sliceOk] at hbegins ⊢
          simp [hbegins, Utf8.isBoundary_bytes, utf8Size_eq_one_iff.mpr hd]
        | false =>
          obtain ⟨lead, next, rest, heq, _, hnext, _⟩ := Utf8.encode_of_not_isAscii hd
          have hsize : ¬ d.utf8Size = 1 := by simp [utf8Size_eq_one_iff, hd]
          simp [Utf8.bytes_cons, heq, sliceOk, Utf8.isBoundary, hnext, hsize]
    | false =>
      obtain ⟨lead, next, rest, heq, _, _, hrest⟩ := Utf8.encode_of_not_isAscii hc
      have hsize := congrArg List.length heq
      rw [String.length_utf8EncodeChar] at hsize
      rw [Utf8.bytes_cons, heq] at hbegins ⊢
      simp only [List.cons_append, sliceOk] at hbegins ⊢
      cases rest with
      | nil =>
        rw [List.length_cons, List.length_singleton] at hsize
        rw [hbegins, sliceable, hsize]
        exact Utf8.isBoundary_bytes l
      | cons b rest =>
        have hlong : ¬ c.utf8Size = 1 ∧ ¬ c.utf8Size = 2 := by
          simp only [hsize, List.length_cons]
          omega
        simp [sliceable, hlong.1, hlong.2, Utf8.isBoundary, hrest b (by simp)]

lemma utf8EncodeChar_percent : String.utf8EncodeChar '%' = [percentSign] := rfl

lemma ne_percentSign_of_mem_encode {c : Char} (hc : c ≠ '%') {b : UInt8}
    (hb : b ∈ String.utf8EncodeChar c) : b ≠ percentSign := by
  rintro rfl
  cases hascii : Utf8.isAscii c with
  | true =>
    rw [Utf8.encode_of_isAscii hascii, List.mem_singleton] at hb
    have hbyte := congrArg Utf8.byteChar hb
    rw [Utf8.byteChar_of_isAscii hascii] at hbyte
    exact hc hbyte.symm
  | false =>
    have hle := Utf8.le_of_mem_encode hascii hb
    exact absurd hle (by decide)

/-- The slices are taken at the percent signs, and at all of them. -/
lemma isSome_percentDecodeBytes_bytes (l : List Char) :
    (percentDecodeBytes (Utf8.bytes l)).isSome = true ↔
      ∀ t, '%' :: t <:+ l → sliceable t = true := by
  induction l with
  | nil => simp [percentDecodeBytes]
  | cons c l ih =>
    simp only [List.suffix_cons_iff, List.cons.injEq]
    by_cases hc : c = '%'
    · subst hc
      rw [Utf8.bytes_cons, utf8EncodeChar_percent, List.singleton_append,
        isSome_percentDecodeBytes_percentSign, Bool.and_eq_true, ih, sliceOk_bytes]
      constructor
      · rintro ⟨hslice, hlater⟩ t (⟨-, rfl⟩ | ht)
        · exact hslice
        · exact hlater t ht
      · intro h
        exact ⟨h l (.inl ⟨rfl, rfl⟩), fun t ht => h t (.inr ht)⟩
    · rw [Utf8.bytes_cons, isSome_percentDecodeBytes_append
        fun b hb => ne_percentSign_of_mem_encode hc hb, ih]
      constructor
      · rintro h t (⟨heq, -⟩ | ht)
        · exact absurd heq.symm hc
        · exact h t ht
      · exact fun h t ht => h t (.inr ht)

/-- Decoding a text does not panic: no percent sign in it is followed by a character of three or
four bytes, or by one of one byte and then one of more. -/
def Decodable (s : String) : Prop := ∀ t, '%' :: t <:+ s.toList → sliceable t = true

lemma isSome_percentDecode_iff {s : String} : (percentDecode s).isSome = true ↔ Decodable s := by
  rw [percentDecode, Option.isSome_map, isSome_percentDecodeBytes_bytes, Decodable]

/-! ### Reading back what was written -/

/-- Every byte of a text by itself, as a character. -/
def byteChars (s : String) : String := String.ofList ((Utf8.bytes s.toList).map Utf8.byteChar)

lemma upperHexDigit_spec {n : ℕ} (h : n < 16) :
    Utf8.isAscii (upperHexDigit n) = true ∧ Text.hexValue (upperHexDigit n) = some n ∧
      upperHexDigit n ≠ '+' := by
  interval_cases n <;> decide

lemma unreserved_bounds (h : unreserved c = true) : c ≠ percentSign ∧ c.toNat < 128 := by
  have hranges := of_decide_eq_true h
  refine ⟨?_, by omega⟩
  rintro rfl
  have : percentSign.toNat = 37 := rfl
  omega

lemma isAscii_byteChar {b : UInt8} : Utf8.isAscii (Utf8.byteChar b) = true ↔ b.toNat < 128 := by
  rw [Utf8.isAscii, decide_eq_true_eq, Utf8.toNat_byteChar]

lemma encode_byteChar {b : UInt8} (h : b.toNat < 128) :
    String.utf8EncodeChar (Utf8.byteChar b) = [b] := by
  rw [Utf8.encode_of_isAscii (isAscii_byteChar.mpr h), Utf8.toNat_byteChar, UInt8.ofNat_toNat]

/-- Two digits of one byte each, read as the byte they were written for. -/
lemma fromStrRadix16_upperHexDigit (c : UInt8) :
    fromStrRadix16 (UInt8.ofNat (upperHexDigit (c.toNat / 16)).toNat)
      (UInt8.ofNat (upperHexDigit (c.toNat % 16)).toNat) = some c := by
  have hc := c.toNat_lt
  obtain ⟨hhi, hhival, hplus⟩ := upperHexDigit_spec (show c.toNat / 16 < 16 by omega)
  obtain ⟨hlo, hloval, _⟩ := upperHexDigit_spec (show c.toNat % 16 < 16 by omega)
  have hsign : UInt8.ofNat (upperHexDigit (c.toNat / 16)).toNat ≠ plusSign := by
    intro h
    have hbyte := congrArg Utf8.byteChar h
    rw [Utf8.byteChar_of_isAscii hhi] at hbyte
    exact hplus hbyte
  rw [fromStrRadix16, if_neg hsign, byteValue, byteValue, Utf8.byteChar_of_isAscii hhi,
    Utf8.byteChar_of_isAscii hlo, hhival, hloval]
  simp only [Option.some.injEq]
  rw [show 16 * (c.toNat / 16) + c.toNat % 16 = c.toNat by omega, UInt8.ofNat_toNat]

lemma percentDecodeBytes_encodeByte (c : UInt8) (l : List Char) :
    percentDecodeBytes (Utf8.bytes (percentEncodeByte c ++ l)) =
      (percentDecodeBytes (Utf8.bytes l)).map (Utf8.byteChar c :: ·) := by
  have hc := c.toNat_lt
  rw [percentEncodeByte]
  split
  · rename_i hplain
    obtain ⟨hne, hlt⟩ := unreserved_bounds hplain
    rw [List.singleton_append, Utf8.bytes_cons, encode_byteChar hlt, List.singleton_append,
      percentDecodeBytes_cons hne]
  · obtain ⟨hhi, -, -⟩ := upperHexDigit_spec (show c.toNat / 16 < 16 by omega)
    obtain ⟨hlo, -, -⟩ := upperHexDigit_spec (show c.toNat % 16 < 16 by omega)
    have hslice := sliceOk_bytes
      (upperHexDigit (c.toNat / 16) :: upperHexDigit (c.toNat % 16) :: l)
    simp only [List.cons_append, List.nil_append, Utf8.bytes_cons, utf8EncodeChar_percent,
      Utf8.encode_of_isAscii hhi, Utf8.encode_of_isAscii hlo] at hslice ⊢
    rw [percentDecodeBytes_percentSign, hslice, escaped, fromStrRadix16_upperHexDigit]
    simp [sliceable, utf8Size_eq_one_iff, hhi, hlo]

lemma percentDecodeBytes_encode (bs : List UInt8) :
    percentDecodeBytes (Utf8.bytes (bs.flatMap percentEncodeByte)) =
      some (bs.map Utf8.byteChar) := by
  induction bs with
  | nil => rfl
  | cons b bs ih =>
    rw [List.flatMap_cons, percentDecodeBytes_encodeByte, ih]
    rfl

/-- What was written is read back byte by byte. -/
lemma percentDecode_percentEncode (s : String) :
    percentDecode (percentEncode s) = some (byteChars s) := by
  rw [percentDecode, percentEncode, String.toList_ofList, percentDecodeBytes_encode]
  rfl

/-- A text of one-byte characters. -/
def IsAscii (s : String) : Prop := ∀ c ∈ s.toList, Utf8.isAscii c = true

/-- Bytes by themselves make up the text only if its characters are of one byte. -/
lemma byteChars_eq_self_iff {s : String} : byteChars s = s ↔ IsAscii s := by
  rw [byteChars, ← String.toList_inj, String.toList_ofList]
  constructor
  · intro h
    have hlen := congrArg List.length h
    rw [List.length_map] at hlen
    exact Utf8.isAscii_of_length_bytes hlen
  · intro h
    rw [Utf8.bytes_of_isAscii h, List.map_map]
    conv_rhs => rw [← List.map_id s.toList]
    refine List.map_congr_left ?_
    intro c hc
    exact Utf8.byteChar_of_isAscii (h c hc)

/-! ### What is read as one-byte characters -/

/-- It was read, as characters of one byte. -/
def ReadAscii (o : Option (List Char)) : Prop :=
  ∃ out, o = some out ∧ ∀ c ∈ out, Utf8.isAscii c = true

lemma readAscii_map_cons {o : Option (List Char)} {c : Char} :
    ReadAscii (o.map (c :: ·)) ↔ Utf8.isAscii c = true ∧ ReadAscii o := by
  cases o with
  | none => simp [ReadAscii]
  | some out => simp [ReadAscii]

lemma readAscii_cons (h : c ≠ percentSign) (rest : List UInt8) :
    ReadAscii (percentDecodeBytes (c :: rest)) ↔
      c.toNat < 128 ∧ ReadAscii (percentDecodeBytes rest) := by
  rw [percentDecodeBytes_cons h, readAscii_map_cons, isAscii_byteChar]

lemma readAscii_percentSign (rest : List UInt8) :
    ReadAscii (percentDecodeBytes (percentSign :: rest)) ↔
      sliceOk rest = true ∧ (∀ v later, escaped rest = some (v, later) → v.toNat < 128) ∧
        ReadAscii (percentDecodeBytes rest) := by
  rw [percentDecodeBytes_percentSign]
  cases sliceOk rest with
  | false => simp [ReadAscii]
  | true =>
    cases hescaped : escaped rest with
    | none =>
      have hsign : Utf8.isAscii '%' = true := rfl
      simp [readAscii_map_cons, hsign]
    | some p =>
      obtain ⟨v, later⟩ := p
      obtain ⟨a, b, rfl, _, ⟨ha, halt⟩, hb, hblt⟩ := escaped_eq_some hescaped
      simp [readAscii_map_cons, isAscii_byteChar, readAscii_cons ha, readAscii_cons hb, halt, hblt]

/-- Two digits after a percent sign, if these are any, stand for a byte below 128. -/
def lowEscape (t : List Char) : Prop :=
  ∀ a b later hi lo, t = a :: b :: later → Text.hexValue a = some hi → Text.hexValue b = some lo →
    hi < 8

lemma fromStrRadix16_of_isAscii {a b : Char} (ha : Utf8.isAscii a = true)
    (hb : Utf8.isAscii b = true) :
    (∀ v, fromStrRadix16 (UInt8.ofNat a.toNat) (UInt8.ofNat b.toNat) = some v → v.toNat < 128) ↔
      ∀ hi lo, Text.hexValue a = some hi → Text.hexValue b = some lo → hi < 8 := by
  rw [fromStrRadix16, byteValue, byteValue, Utf8.byteChar_of_isAscii ha,
    Utf8.byteChar_of_isAscii hb]
  split
  · -- a sign and one digit: the value is below sixteen, and a sign is no digit
    rename_i hplus
    have hsign : a = '+' := by
      rw [← Utf8.byteChar_of_isAscii ha, hplus]
      rfl
    subst hsign
    constructor
    · intro _ hi lo hhi
      cases hhi
    · intro _ v hv
      obtain ⟨n, hn, rfl⟩ := Option.map_eq_some_iff.mp hv
      have hlt := Text.hexValue_lt hn
      rw [UInt8.toNat_ofNat_of_lt' (by rw [UInt8.size]; omega)]
      omega
  · cases hhi : Text.hexValue a with
    | none => simp
    | some hi =>
      cases hlo : Text.hexValue b with
      | none => simp
      | some lo =>
        have hhilt := Text.hexValue_lt hhi
        have hlolt := Text.hexValue_lt hlo
        have hvalue : (UInt8.ofNat (16 * hi + lo)).toNat = 16 * hi + lo :=
          UInt8.toNat_ofNat_of_lt' (by rw [UInt8.size]; omega)
        constructor
        · intro h hi' lo' heq _
          cases heq
          have hlt := h _ rfl
          omega
        · intro h v hv
          cases hv
          have hlt := h hi lo rfl rfl
          omega

lemma escaped_bytes {l : List Char} (h : ∀ c ∈ l, Utf8.isAscii c = true) :
    (∀ v later, escaped (Utf8.bytes l) = some (v, later) → v.toNat < 128) ↔ lowEscape l := by
  rw [Utf8.bytes_of_isAscii h]
  match l with
  | [] => simp [escaped, lowEscape]
  | [_] => simp [escaped, lowEscape]
  | a :: b :: l =>
    have hradix := fromStrRadix16_of_isAscii (h a (by simp)) (h b (by simp))
    simp only [List.map_cons, escaped, Option.map_eq_some_iff, Prod.mk.injEq]
    constructor
    · intro hlow a' b' later hi lo heq hhi hlo
      cases heq
      exact hradix.mp (fun v hv => hlow v _ ⟨v, hv, rfl, rfl⟩) hi lo hhi hlo
    · rintro hlow v later ⟨_, hv, rfl, _⟩
      exact hradix.mpr (fun hi lo => hlow a b l hi lo rfl) _ hv

/-- A text that is read as one-byte characters: it is of such, and no escape in it stands for a byte
beyond them. -/
def Plain (s : String) : Prop := IsAscii s ∧ ∀ t, '%' :: t <:+ s.toList → lowEscape t

lemma sliceable_of_isAscii {l : List Char} (h : ∀ c ∈ l, Utf8.isAscii c = true) :
    sliceable l = true := by
  match l with
  | [] => rfl
  | [c] => simp [sliceable, utf8Size_eq_one_iff, h c (by simp)]
  | c :: d :: l =>
    simp [sliceable, utf8Size_eq_one_iff, h c (by simp), h d (by simp)]

lemma readAscii_bytes (l : List Char) :
    ReadAscii (percentDecodeBytes (Utf8.bytes l)) ↔
      (∀ c ∈ l, Utf8.isAscii c = true) ∧ ∀ t, '%' :: t <:+ l → lowEscape t := by
  induction l with
  | nil => simp [percentDecodeBytes, ReadAscii]
  | cons c l ih =>
    simp only [List.suffix_cons_iff, List.cons.injEq, List.forall_mem_cons]
    cases hascii : Utf8.isAscii c with
    | false =>
      -- its first byte is read as a character beyond ASCII
      obtain ⟨lead, next, rest, heq, hlead, _, _⟩ := Utf8.encode_of_not_isAscii hascii
      have hne : lead ≠ percentSign := by
        rintro rfl
        exact absurd hlead (by decide)
      rw [Utf8.bytes_cons, heq, List.cons_append, readAscii_cons hne]
      simp only [Bool.false_eq_true, false_and, iff_false, not_and]
      intro hlt
      omega
    | true =>
      by_cases hc : c = '%'
      · subst hc
        rw [Utf8.bytes_cons, utf8EncodeChar_percent, List.singleton_append, readAscii_percentSign,
          ih, sliceOk_bytes]
        constructor
        · rintro ⟨_, hlow, hall, hlater⟩
          refine ⟨⟨rfl, hall⟩, ?_⟩
          rintro t (⟨-, rfl⟩ | ht)
          · exact (escaped_bytes hall).mp hlow
          · exact hlater t ht
        · rintro ⟨⟨-, hall⟩, h⟩
          exact ⟨sliceable_of_isAscii hall, (escaped_bytes hall).mpr (h l (.inl ⟨rfl, rfl⟩)), hall,
            fun t ht => h t (.inr ht)⟩
      · have hne : UInt8.ofNat c.toNat ≠ percentSign :=
          ne_percentSign_of_mem_encode hc (by simp [Utf8.encode_of_isAscii hascii])
        have hlt : c.toNat < 128 := of_decide_eq_true hascii
        rw [Utf8.bytes_cons, Utf8.encode_of_isAscii hascii, List.singleton_append,
          readAscii_cons hne, Utf8.toNat_byte_of_isAscii hascii, ih]
        constructor
        · rintro ⟨_, hall, hlater⟩
          refine ⟨⟨rfl, hall⟩, ?_⟩
          rintro t (⟨heq, -⟩ | ht)
          · exact absurd heq.symm hc
          · exact hlater t ht
        · rintro ⟨⟨-, hall⟩, h⟩
          exact ⟨hlt, hall, fun t ht => h t (.inr ht)⟩

/-- What a text is decoded to is of one-byte characters exactly if the text is plain. -/
lemma isAscii_percentDecode_iff {s out : String} (h : percentDecode s = some out) :
    IsAscii out ↔ Plain s := by
  obtain ⟨chars, hchars, rfl⟩ := Option.map_eq_some_iff.mp h
  rw [Plain, IsAscii, IsAscii, ← readAscii_bytes, hchars, String.toList_ofList]
  simp [ReadAscii]

end NostrLn
