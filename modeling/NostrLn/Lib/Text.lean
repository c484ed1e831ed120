import Mathlib.Data.List.Basic
import Mathlib.Tactic.Common
import Mathlib.Tactic.IntervalCases

/-!
# Text: lower-case hex, and cutting a string at a separator

Hex is written in lower case and read in either case, so writing and reading back is the
identity while reading and writing back is not.
-/

namespace Text

/-! ### Hex -/

/-- The lower-case digit of a value below sixteen. -/
def hexDigit (n : ℕ) : Char := Char.ofNat (if n < 10 then 48 + n else 87 + n)

/-- Two digits for each byte, high half first. -/
def hexEncode (bytes : List UInt8) : List Char :=
  bytes.flatMap fun b => [hexDigit (b.toNat / 16), hexDigit (b.toNat % 16)]

/-- The value of a digit of either case. -/
def hexValue (c : Char) : Option ℕ :=
  if 'A' ≤ c ∧ c ≤ 'F' then some (c.toNat - 'A'.toNat + 10)
  else if 'a' ≤ c ∧ c ≤ 'f' then some (c.toNat - 'a'.toNat + 10)
  else if '0' ≤ c ∧ c ≤ '9' then some (c.toNat - '0'.toNat)
  else none

/-- Read pairs of digits; an odd one out, or anything that is not a digit, is refused. -/
def hexDecode : List Char → Option (List UInt8)
  | [] => some []
  | [_] => none
  | hi :: lo :: rest => do
    let hi ← hexValue hi
    let lo ← hexValue lo
    let rest ← hexDecode rest
    return UInt8.ofNat (16 * hi + lo) :: rest

lemma hexValue_hexDigit {n : ℕ} (h : n < 16) : hexValue (hexDigit n) = some n := by
  interval_cases n <;> rfl

lemma hexValue_lt {c : Char} {n : ℕ} (h : hexValue c = some n) : n < 16 := by
  have hle : ∀ a b : Char, a ≤ b ↔ a.toNat ≤ b.toNat := fun a b => UInt32.le_iff_toNat_le
  simp only [hexValue, hle] at h
  split_ifs at h with hupper hlower hdigit
  · cases h
    have : c.toNat ≤ 70 := hupper.2
    have : 'A'.toNat = 65 := rfl
    omega
  · cases h
    have : c.toNat ≤ 102 := hlower.2
    have : 'a'.toNat = 97 := rfl
    omega
  · cases h
    have : c.toNat ≤ 57 := hdigit.2
    have : '0'.toNat = 48 := rfl
    omega

/-- The digits, by their numbers. -/
lemma isSome_hexValue_iff {c : Char} :
    (hexValue c).isSome = true ↔
      (48 ≤ c.toNat ∧ c.toNat ≤ 57) ∨ (65 ≤ c.toNat ∧ c.toNat ≤ 70) ∨
        (97 ≤ c.toNat ∧ c.toNat ≤ 102) := by
  have hle : ∀ a b : Char, a ≤ b ↔ a.toNat ≤ b.toNat := fun a b => UInt32.le_iff_toNat_le
  simp only [hexValue, hle]
  split_ifs with hupper hlower hdigit
  · simp only [Option.isSome_some, true_iff]
    exact .inr (.inl hupper)
  · simp only [Option.isSome_some, true_iff]
    exact .inr (.inr hlower)
  · simp only [Option.isSome_some, true_iff]
    exact .inl hdigit
  · simp only [Option.isSome_none, Bool.false_eq_true, false_iff, not_or]
    exact ⟨hdigit, hupper, hlower⟩

lemma hexDigit_ne_colon {n : ℕ} (h : n < 16) : hexDigit n ≠ ':' := by
  interval_cases n <;> decide

@[simp] lemma hexEncode_nil : hexEncode [] = [] := rfl

@[simp] lemma hexEncode_cons (b : UInt8) (bs : List UInt8) :
    hexEncode (b :: bs) = hexDigit (b.toNat / 16) :: hexDigit (b.toNat % 16) :: hexEncode bs :=
  rfl

lemma hexEncode_length (bs : List UInt8) : (hexEncode bs).length = 2 * bs.length := by
  induction bs with
  | nil => rfl
  | cons b bs ih => simp [ih]; omega

/-- Reading back what was written gives the bytes. -/
theorem hexDecode_hexEncode (bs : List UInt8) : hexDecode (hexEncode bs) = some bs := by
  induction bs with
  | nil => rfl
  | cons b bs ih =>
    have hb : b.toNat < 256 := b.toNat_lt
    rw [hexEncode_cons, hexDecode, hexValue_hexDigit (by omega), hexValue_hexDigit (by omega), ih]
    have hhalves : 16 * (b.toNat / 16) + b.toNat % 16 = b.toNat := by omega
    simp only [Option.bind_eq_bind, Option.bind_some, hhalves, UInt8.ofNat_toNat]
    rfl

lemma colon_notMem_hexEncode (bs : List UInt8) : ':' ∉ hexEncode bs := by
  induction bs with
  | nil => simp
  | cons b bs ih =>
    have hb : b.toNat < 256 := b.toNat_lt
    have hhi := hexDigit_ne_colon (n := b.toNat / 16) (by omega)
    have hlo := hexDigit_ne_colon (n := b.toNat % 16) (by omega)
    simp [ih, hhi.symm, hlo.symm]

/-- A digit in lower case. -/
def isLowerHex (c : Char) : Bool := ('0' ≤ c ∧ c ≤ '9') ∨ ('a' ≤ c ∧ c ≤ 'f')

lemma isLowerHex_hexDigit {n : ℕ} (h : n < 16) : isLowerHex (hexDigit n) = true := by
  interval_cases n <;> decide

/-- Every digit in lower case is that of a value. -/
lemma exists_hexDigit {c : Char} (h : isLowerHex c = true) : ∃ n < 16, hexDigit n = c := by
  have hrange : (48 ≤ c.toNat ∧ c.toNat ≤ 57) ∨ (97 ≤ c.toNat ∧ c.toNat ≤ 102) := by
    simpa [isLowerHex, Char.le_def, UInt32.le_iff_toNat_le] using h
  obtain hdigit | hletter := hrange
  · refine ⟨c.toNat - 48, by omega, ?_⟩
    rw [hexDigit, if_pos (by omega), show 48 + (c.toNat - 48) = c.toNat by omega, Char.ofNat_toNat]
  · refine ⟨c.toNat - 87, by omega, ?_⟩
    rw [hexDigit, if_neg (by omega), show 87 + (c.toNat - 87) = c.toNat by omega, Char.ofNat_toNat]

/-- What is written is lower-case digits, two for each byte, and any such text is written. -/
theorem exists_hexEncode_iff {l : List Char} {n : ℕ} :
    (∃ bs : List UInt8, bs.length = n ∧ hexEncode bs = l) ↔
      l.length = 2 * n ∧ ∀ c ∈ l, isLowerHex c = true := by
  constructor
  · rintro ⟨bs, rfl, rfl⟩
    refine ⟨hexEncode_length bs, ?_⟩
    intro c hc
    obtain ⟨b, _, hb⟩ := List.mem_flatMap.mp hc
    have hbyte : b.toNat < 256 := b.toNat_lt
    simp only [List.mem_cons, List.not_mem_nil, or_false] at hb
    obtain rfl | rfl := hb
    · exact isLowerHex_hexDigit (by omega)
    · exact isLowerHex_hexDigit (by omega)
  · rintro ⟨hlen, hdigits⟩
    induction n generalizing l with
    | zero => exact ⟨[], rfl, (List.length_eq_zero_iff.mp hlen).symm⟩
    | succ n ih =>
      match l with
      | hi :: lo :: rest =>
        obtain ⟨a, ha, rfl⟩ := exists_hexDigit (hdigits hi (by simp))
        obtain ⟨b, hb, rfl⟩ := exists_hexDigit (hdigits lo (by simp))
        obtain ⟨bs, hbs, rfl⟩ := ih (l := rest) (by simp at hlen; omega)
          fun c hc => hdigits c (by simp [hc])
        have hbyte : (UInt8.ofNat (16 * a + b)).toNat = 16 * a + b :=
          UInt8.toNat_ofNat_of_lt' (by rw [UInt8.size]; omega)
        refine ⟨UInt8.ofNat (16 * a + b) :: bs, by simp [hbs], ?_⟩
        rw [hexEncode_cons, hbyte, show (16 * a + b) / 16 = a by omega,
          show (16 * a + b) % 16 = b by omega]

/-! ### Cutting at the first separator -/

/-- What stands before and after the first `sep`. -/
def cut (sep : Char) : List Char → Option (List Char × List Char)
  | [] => none
  | c :: cs => if c = sep then some ([], cs) else (cut sep cs).map fun p => (c :: p.1, p.2)

/-- A string cut at the first `sep`, without it. -/
def splitOnce (sep : Char) (s : String) : Option (String × String) :=
  (cut sep s.toList).map fun p => (String.ofList p.1, String.ofList p.2)

lemma cut_eq_some_iff {sep : Char} {l a b : List Char} :
    cut sep l = some (a, b) ↔ l = a ++ sep :: b ∧ sep ∉ a := by
  induction l generalizing a with
  | nil => simp [cut]
  | cons c cs ih =>
    by_cases hc : c = sep
    · subst hc
      match a with
      | [] => simp [cut]
      | d :: a =>
        simp only [cut, if_true, Option.some.injEq, Prod.mk.injEq, List.cons_append,
          List.cons.injEq, List.mem_cons, not_or]
        constructor
        · rintro ⟨h, -⟩; cases h
        · rintro ⟨⟨rfl, -⟩, h, -⟩; exact absurd rfl h
    · simp only [cut, if_neg hc, Option.map_eq_some_iff, Prod.exists, Prod.mk.injEq]
      constructor
      · rintro ⟨x, y, hxy, rfl, rfl⟩
        obtain ⟨rfl, hx⟩ := ih.mp hxy
        simp [hx, Ne.symm hc]
      · rintro ⟨h, ha⟩
        match a with
        | [] => simp [hc] at h
        | d :: a =>
          obtain ⟨rfl, rfl⟩ : c = d ∧ cs = a ++ sep :: b := by simpa using h
          exact ⟨a, b, ih.mpr ⟨rfl, fun hm => ha (by simp [hm])⟩, rfl, rfl⟩

/-- Cutting finds the first separator: the left part has none. -/
theorem splitOnce_eq_some_iff {sep : Char} {s a b : String} :
    splitOnce sep s = some (a, b) ↔ s = a ++ sep.toString ++ b ∧ sep ∉ a.toList := by
  have hs : s = a ++ sep.toString ++ b ↔ s.toList = a.toList ++ sep :: b.toList := by
    rw [← String.toList_inj]
    simp
  rw [hs, ← cut_eq_some_iff, splitOnce, Option.map_eq_some_iff]
  constructor
  · rintro ⟨⟨x, y⟩, h, heq⟩
    obtain ⟨rfl, rfl⟩ : String.ofList x = a ∧ String.ofList y = b := by simpa using heq
    simpa using h
  · intro h
    exact ⟨(a.toList, b.toList), h, by simp⟩

end Text
