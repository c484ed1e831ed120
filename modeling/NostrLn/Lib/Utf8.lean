import Mathlib.Data.List.Basic
import Mathlib.Tactic.Common

/-!
# Text as bytes

A text is kept as the bytes of its UTF-8 encoding, and is measured, walked and cut by them. A place
between two bytes is a character boundary unless the byte after it goes on with a character. A byte
read as a character by itself is the character of that number, which is the one that was encoded
only where the encoding takes one byte.
-/

namespace Utf8

/-- The bytes of a text. -/
def bytes (l : List Char) : List UInt8 := l.flatMap String.utf8EncodeChar

/-- A byte that goes on with a character. -/
def isContinuation (b : UInt8) : Bool := decide (128 ≤ b.toNat ∧ b.toNat < 192)

/-- The place before these bytes is a character boundary. -/
def isBoundary : List UInt8 → Bool
  | [] => true
  | b :: _ => !isContinuation b

/-- The character of a byte's number. -/
def byteChar (b : UInt8) : Char := Char.ofNat b.toNat

/-- A character of one byte. -/
def isAscii (c : Char) : Bool := decide (c.toNat < 128)

@[simp] lemma bytes_nil : bytes [] = [] := rfl

@[simp] lemma bytes_cons (c : Char) (l : List Char) :
    bytes (c :: l) = String.utf8EncodeChar c ++ bytes l := rfl

/-! ### One character -/

variable {c : Char} {l : List Char}

lemma encode_of_isAscii (h : isAscii c = true) :
    String.utf8EncodeChar c = [UInt8.ofNat c.toNat] := by
  have hval : c.val.toNat ≤ 127 := Nat.lt_succ_iff.mp (by simpa [isAscii] using h)
  simp only [String.utf8EncodeChar, if_pos hval]
  rfl

/-- A character of more than one byte: one that begins it, and at least one that goes on. -/
lemma encode_of_not_isAscii (h : isAscii c = false) :
    ∃ lead next rest, String.utf8EncodeChar c = lead :: next :: rest ∧
      192 ≤ lead.toNat ∧ isContinuation next = true ∧ ∀ b ∈ rest, isContinuation b = true := by
  have hval : ¬ c.val.toNat ≤ 127 := by
    rw [isAscii, decide_eq_false_iff_not, Nat.not_lt] at h
    exact Nat.not_le.mpr h
  -- each width, with its bytes as the encoding has them
  have hlead : ∀ n, 192 ≤ n → n < 256 → 192 ≤ (UInt8.ofNat n).toNat := by
    intro n hle hlt
    rwa [UInt8.toNat_ofNat_of_lt' hlt]
  have hnext : ∀ n, isContinuation (UInt8.ofNat (n % 64 + 128)) = true := by
    intro n
    rw [isContinuation, UInt8.toNat_ofNat_of_lt' (by rw [UInt8.size]; omega), decide_eq_true_eq]
    omega
  simp only [String.utf8EncodeChar, if_neg hval]
  split_ifs
  · exact ⟨_, _, [], rfl, hlead _ (by omega) (by omega), hnext _, by simp⟩
  · refine ⟨_, _, [_], rfl, hlead _ (by omega) (by omega), hnext _, ?_⟩
    simp only [List.forall_mem_singleton]
    exact hnext _
  · refine ⟨_, _, [_, _], rfl, hlead _ (by omega) (by omega), hnext _, ?_⟩
    simp only [List.forall_mem_cons, List.not_mem_nil, false_implies, implies_true, and_true]
    exact ⟨hnext _, hnext _⟩

/-- Only a character of one byte has a byte below 128. -/
lemma le_of_mem_encode {b : UInt8} (h : isAscii c = false)
    (hb : b ∈ String.utf8EncodeChar c) : 128 ≤ b.toNat := by
  obtain ⟨lead, next, rest, heq, hlead, hnext, hrest⟩ := encode_of_not_isAscii h
  rw [heq] at hb
  obtain rfl | hb := List.mem_cons.mp hb
  · omega
  · obtain rfl | hb := List.mem_cons.mp hb
    · exact (of_decide_eq_true hnext).1
    · exact (of_decide_eq_true (hrest b hb)).1

lemma toNat_byte_of_isAscii (h : isAscii c = true) : (UInt8.ofNat c.toNat).toNat = c.toNat := by
  have hlt : c.toNat < 128 := by simpa [isAscii] using h
  exact UInt8.toNat_ofNat_of_lt' (by rw [UInt8.size]; omega)

@[simp] lemma byteChar_of_isAscii (h : isAscii c = true) : byteChar (UInt8.ofNat c.toNat) = c := by
  rw [byteChar, toNat_byte_of_isAscii h, Char.ofNat_toNat]

lemma toNat_byteChar (b : UInt8) : (byteChar b).toNat = b.toNat := by
  have hb := b.toNat_lt
  have hvalid : b.toNat.isValidChar := Or.inl (by omega)
  rw [byteChar, Char.ofNat, dif_pos hvalid]
  rfl

/-! ### Texts -/

lemma isBoundary_bytes (l : List Char) : isBoundary (bytes l) = true := by
  match l with
  | [] => rfl
  | c :: l =>
    rw [bytes_cons]
    cases h : isAscii c with
    | true =>
      have hlt : c.toNat < 128 := by simpa [isAscii] using h
      rw [encode_of_isAscii h]
      simp only [List.cons_append, isBoundary, isContinuation, toNat_byte_of_isAscii h,
        Bool.not_eq_true', decide_eq_false_iff_not]
      omega
    | false =>
      obtain ⟨lead, next, rest, heq, hlead, _, _⟩ := encode_of_not_isAscii h
      rw [heq]
      simp only [List.cons_append, isBoundary, isContinuation, Bool.not_eq_true',
        decide_eq_false_iff_not]
      omega

lemma bytes_of_isAscii (h : ∀ c ∈ l, isAscii c = true) :
    bytes l = l.map fun c => UInt8.ofNat c.toNat := by
  induction l with
  | nil => rfl
  | cons c l ih =>
    rw [bytes_cons, encode_of_isAscii (h c (by simp)), ih fun c' hc' => h c' (by simp [hc'])]
    rfl

/-- No text has more characters than bytes, and only one of one-byte characters has as many. -/
lemma length_le_length_bytes (l : List Char) : l.length ≤ (bytes l).length := by
  induction l with
  | nil => exact Nat.le_refl 0
  | cons c l ih =>
    have hpos := c.utf8Size_pos
    simp only [bytes_cons, List.length_cons, List.length_append, String.length_utf8EncodeChar]
    omega

lemma isAscii_of_length_bytes (h : (bytes l).length = l.length) : ∀ c ∈ l, isAscii c = true := by
  induction l with
  | nil => simp
  | cons c l ih =>
    have hpos := c.utf8Size_pos
    have hle := length_le_length_bytes l
    simp only [bytes_cons, List.length_cons, List.length_append,
      String.length_utf8EncodeChar] at h
    rw [List.forall_mem_cons]
    refine ⟨?_, ih (by omega)⟩
    have hone : c.val ≤ 127 := Char.utf8Size_eq_one_iff.mp (by omega)
    exact decide_eq_true (Nat.lt_succ_of_le (UInt32.le_iff_toNat_le.mp hone))

/-- A text whose bytes are all below 128 is of one-byte characters. -/
lemma isAscii_of_bytes (h : ∀ b ∈ bytes l, b.toNat < 128) : ∀ c ∈ l, isAscii c = true := by
  intro c hc
  cases hascii : isAscii c with
  | true => rfl
  | false =>
    obtain ⟨lead, next, rest, heq, hlead, _, _⟩ := encode_of_not_isAscii hascii
    have hmem : lead ∈ bytes l := List.mem_flatMap.mpr ⟨c, hc, by rw [heq]; simp⟩
    have := h lead hmem
    omega

end Utf8
