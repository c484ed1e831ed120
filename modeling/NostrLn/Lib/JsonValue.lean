import Mathlib.Data.List.Induction
import Mathlib.Data.String.Basic
import NostrLn.Lib.Json
import NostrLn.Lib.Serde

/-!
# JSON text: values

The compact writer and the reader of `serde_json`, for any value. An integer is written in decimal
and read as an integer if it fits; every other number is a float, and the text of floats is left to
`Floats`. The reader counts the containers it is in and gives up at the limit, so what it reads back
of a value is decided by how deep the value is nested.

An object is held sorted by its keys. The reader takes the entries as they come (`readRaw`), and the
map that is made of them (`normalize`) keeps, of entries that share a key, the last.
-/

namespace Json

open Text Serde

/-! ### Numbers -/

/-- The text of floats. Reading fails where the number is out of range. -/
structure Floats where
  write : UInt64 → List Char
  read : List Char → Option UInt64

/-- The text of a number. -/
def writeNumber (floats : Floats) : Number → List Char
  | .posInt n => Nat.toDigits 10 n.toNat
  | .negInt n => if n < 0 then '-' :: Nat.toDigits 10 n.toInt.natAbs
                 else Nat.toDigits 10 n.toInt.natAbs
  | .float bits => floats.write bits

/-- Digits without a leading zero. -/
def scanInteger : List Char → Option (List Char × List Char)
  | [] => none
  | c :: rest =>
    if c = '0' then
      if (rest.head?.any Char.isDigit) then none else some (['0'], rest)
    else if c.isDigit then
      some (c :: rest.takeWhile Char.isDigit, rest.dropWhile Char.isDigit)
    else none

/-- A point, with digits behind it, if there is one. -/
def scanFraction : List Char → Option (List Char × List Char)
  | [] => some ([], [])
  | c :: rest =>
    if c = '.' then
      if rest.head?.any Char.isDigit then
        some (c :: rest.takeWhile Char.isDigit, rest.dropWhile Char.isDigit)
      else none
    else some ([], c :: rest)

/-- The sign of an exponent, if there is one. -/
def scanSign : List Char → List Char × List Char
  | [] => ([], [])
  | c :: rest => if c = '+' ∨ c = '-' then ([c], rest) else ([], c :: rest)

/-- An exponent, if there is one. -/
def scanExponent : List Char → Option (List Char × List Char)
  | [] => some ([], [])
  | c :: rest =>
    if c = 'e' ∨ c = 'E' then
      let (sign, rest) := scanSign rest
      if rest.head?.any Char.isDigit then
        some (c :: sign ++ rest.takeWhile Char.isDigit, rest.dropWhile Char.isDigit)
      else none
    else some ([], c :: rest)

/-- What a number is, by its sign, its digits and what stands behind these. -/
def numberOf (floats : Floats) (negative : Bool) (digits tail : List Char) : Option Number :=
  let n := Nat.ofDigitChars 10 digits 0
  let float := (floats.read ((if negative then ['-'] else []) ++ digits ++ tail)).map Number.float
  if tail ≠ [] then float
  else if negative then
    -- `-0`, and what is below every `i64`, are floats
    if 0 < n ∧ n ≤ 2 ^ 63 then some (.negInt (Int64.ofInt (-n))) else float
  else if n < 2 ^ 64 then some (.posInt (UInt64.ofNat n)) else float

/-- A number, and what stands behind it. -/
def readNumber (floats : Floats) (cs : List Char) : Option (Number × List Char) := do
  let (negative, cs) := if cs.head? = some '-' then (true, cs.tail) else (false, cs)
  let (digits, cs) ← scanInteger cs
  let (fraction, cs) ← scanFraction cs
  let (exponent, cs) ← scanExponent cs
  let n ← numberOf floats negative digits (fraction ++ exponent)
  return (n, cs)

/-! ### Writing values -/

mutual

/-- The text of a value, without space. -/
def write (floats : Floats) : Value → List Char
  | .null => ['n', 'u', 'l', 'l']
  | .bool true => ['t', 'r', 'u', 'e']
  | .bool false => ['f', 'a', 'l', 's', 'e']
  | .number n => writeNumber floats n
  | .string s => writeString s.toList
  | .array items => '[' :: writeItems floats true items
  | .object entries => '{' :: writeEntries floats true entries

/-- The items of an array and its closing bracket. -/
def writeItems (floats : Floats) (first : Bool) : List Value → List Char
  | [] => [']']
  | v :: vs => (if first then [] else [',']) ++ write floats v ++ writeItems floats false vs

/-- The entries of an object and its closing brace. -/
def writeEntries (floats : Floats) (first : Bool) : List (String × Value) → List Char
  | [] => ['}']
  | (k, v) :: es =>
    (if first then [] else [',']) ++ writeString k.toList ++ ':' :: write floats v ++
      writeEntries floats false es

end

/-! ### Reading values -/

/-- These characters, and what stands behind them. -/
def readIdent : List Char → List Char → Option (List Char)
  | [], cs => some cs
  | _ :: _, [] => none
  | c :: ident, c' :: cs => if c = c' then readIdent ident cs else none

/-- The key of an entry and the colon, and what stands behind them. -/
def readKey (cs : List Char) : Option (String × List Char) := do
  let (k, cs) ← readString cs
  match skipSpace cs with
  | c :: cs => if c = ':' then return (String.ofList k, cs) else none
  | [] => none

mutual

/-- A value, with the entries of every object as they come, and what stands behind it. Each round
takes a character at least. -/
def readRaw (floats : Floats) : ℕ → ℕ → List Char → Option (Value × List Char)
  | 0, _, _ => none
  | fuel + 1, depth, cs =>
    match skipSpace cs with
    | [] => none
    | c :: rest =>
      if c = 'n' then (readIdent ['u', 'l', 'l'] rest).map fun rest => (.null, rest)
      else if c = 't' then (readIdent ['r', 'u', 'e'] rest).map fun rest => (.bool true, rest)
      else if c = 'f' then
        (readIdent ['a', 'l', 's', 'e'] rest).map fun rest => (.bool false, rest)
      else if c = '-' ∨ c.isDigit then
        (readNumber floats (c :: rest)).map fun p => (.number p.1, p.2)
      else if c = '"' then
        (readString (c :: rest)).map fun p => (.string (String.ofList p.1), p.2)
      else if c = '[' then
        -- the container after the last that is allowed
        if depth ≤ 1 then none
        else if (skipSpace rest).head? = some ']' then
          some (.array [], (skipSpace rest).tail)
        else do
          let (v, rest) ← readRaw floats fuel (depth - 1) rest
          let (vs, rest) ← readItems floats fuel (depth - 1) rest
          return (.array (v :: vs), rest)
      else if c = '{' then
        if depth ≤ 1 then none
        else if (skipSpace rest).head? = some '}' then
          some (.object [], (skipSpace rest).tail)
        else do
          let (k, rest) ← readKey rest
          let (v, rest) ← readRaw floats fuel (depth - 1) rest
          let (es, rest) ← readEntries floats fuel (depth - 1) rest
          return (.object ((k, v) :: es), rest)
      else none

/-- The rest of an array behind an item. -/
def readItems (floats : Floats) : ℕ → ℕ → List Char → Option (List Value × List Char)
  | 0, _, _ => none
  | fuel + 1, depth, cs =>
    match skipSpace cs with
    | [] => none
    | c :: rest =>
      if c = ']' then some ([], rest)
      else if c = ',' then do
        let (v, rest) ← readRaw floats fuel depth rest
        let (vs, rest) ← readItems floats fuel depth rest
        return (v :: vs, rest)
      else none

/-- The rest of an object behind an entry. -/
def readEntries (floats : Floats) : ℕ → ℕ → List Char → Option (List (String × Value) × List Char)
  | 0, _, _ => none
  | fuel + 1, depth, cs =>
    match skipSpace cs with
    | [] => none
    | c :: rest =>
      if c = '}' then some ([], rest)
      else if c = ',' then do
        let (k, rest) ← readKey rest
        let (v, rest) ← readRaw floats fuel depth rest
        let (es, rest) ← readEntries floats fuel depth rest
        return ((k, v) :: es, rest)
      else none

end

/-! ### Maps -/

/-- Put an entry into a map that is sorted by its keys, in the place of one with its key. -/
def putEntry {α : Type} (k : String) (v : α) : List (String × α) → List (String × α)
  | [] => [(k, v)]
  | (k', v') :: es =>
    if k < k' then (k, v) :: (k', v') :: es
    else if k = k' then (k, v) :: es
    else (k', v') :: putEntry k v es

/-- The map that is made of entries as they come. -/
def sortEntries {α : Type} (es : List (String × α)) : List (String × α) :=
  es.foldl (fun map e => putEntry e.1 e.2 map) []

mutual

/-- The value that is made of one with entries as they came. -/
def normalize : Value → Value
  | .array items => .array (normalizeItems items)
  | .object entries => .object (sortEntries (normalizeEntries entries))
  | v => v

def normalizeItems : List Value → List Value
  | [] => []
  | v :: vs => normalize v :: normalizeItems vs

def normalizeEntries : List (String × Value) → List (String × Value)
  | [] => []
  | (k, v) :: es => (k, normalize v) :: normalizeEntries es

end

/-- A value as it stands there, and what stands behind it. -/
def readContent (floats : Floats) (depth : ℕ) (cs : List Char) : Option (Value × List Char) :=
  readRaw floats (cs.length + 1) depth cs

/-- A value, and what stands behind it. -/
def readValue (floats : Floats) (depth : ℕ) (cs : List Char) : Option (Value × List Char) :=
  (readContent floats depth cs).map fun p => (normalize p.1, p.2)

/-! ### How deep a value is nested -/

mutual

/-- How many containers stand in one another. -/
def nesting : Value → ℕ
  | .array items => nestingItems items + 1
  | .object entries => nestingEntries entries + 1
  | _ => 0

def nestingItems : List Value → ℕ
  | [] => 0
  | v :: vs => max (nesting v) (nestingItems vs)

def nestingEntries : List (String × Value) → ℕ
  | [] => 0
  | (_, v) :: es => max (nesting v) (nestingEntries es)

end

/-! ### Numbers are read back -/

/-- What may stand behind a value: nothing, a comma, or the end of its container. -/
def Ends (rest : List Char) : Prop := ∀ c ∈ rest.head?, c = ',' ∨ c = ']' ∨ c = '}'

lemma Ends.not_isDigit {rest : List Char} (h : Ends rest) :
    rest.head?.any Char.isDigit = false := by
  cases hrest : rest.head? with
  | none => rfl
  | some c =>
    obtain rfl | rfl | rfl := h c hrest <;> rfl

lemma head_toDigits_ne_zero {n : ℕ} (h : 0 < n) : (Nat.toDigits 10 n).head? ≠ some '0' := by
  induction n using Nat.strongRecOn with
  | _ n ih =>
    rw [Nat.toDigits_eq_if (by decide)]
    by_cases hlt : n < 10
    · rw [if_pos hlt]
      interval_cases n <;> decide
    · rw [if_neg hlt]
      have hrec := ih (n / 10) (by omega) (by omega)
      cases hdigits : Nat.toDigits 10 (n / 10) with
      | nil => exact absurd hdigits Nat.toDigits_ne_nil
      | cons c cs =>
        rw [hdigits] at hrec
        simpa using hrec

/-- Digits that were written are scanned to their end. -/
lemma scanInteger_toDigits (n : ℕ) {rest : List Char} (h : rest.head?.any Char.isDigit = false) :
    scanInteger (Nat.toDigits 10 n ++ rest) = some (Nat.toDigits 10 n, rest) := by
  have hnone : rest.takeWhile Char.isDigit = [] ∧ rest.dropWhile Char.isDigit = rest := by
    cases rest with
    | nil => exact ⟨rfl, rfl⟩
    | cons c rest =>
      have hc : c.isDigit = false := by simpa using h
      simp [hc]
  by_cases hzero : n = 0
  · subst hzero
    simp [Nat.toDigits_zero, scanInteger, h]
  · have hhead := head_toDigits_ne_zero (Nat.pos_of_ne_zero hzero)
    have hall : ∀ c ∈ Nat.toDigits 10 n, c.isDigit = true := fun c hc =>
      Nat.isDigit_of_mem_toDigits (by decide) (by decide) hc
    cases hdigits : Nat.toDigits 10 n with
    | nil => exact absurd hdigits Nat.toDigits_ne_nil
    | cons c cs =>
      rw [hdigits] at hhead hall
      have hc : c ≠ '0' := by simpa using hhead
      have hcs : ∀ c ∈ cs, c.isDigit = true := fun c hc => hall c (by simp [hc])
      simp [scanInteger, hc, hall c (by simp), List.takeWhile_append_of_pos hcs,
        List.dropWhile_append_of_pos hcs, hnone]

lemma scanFraction_ends {rest : List Char} (h : Ends rest) :
    scanFraction rest = some ([], rest) := by
  cases rest with
  | nil => rfl
  | cons c rest => obtain rfl | rfl | rfl := h c rfl <;> rfl

lemma scanExponent_ends {rest : List Char} (h : Ends rest) :
    scanExponent rest = some ([], rest) := by
  cases rest with
  | nil => rfl
  | cons c rest => obtain rfl | rfl | rfl := h c rfl <;> rfl

lemma head_toDigits_ne_minus (n : ℕ) (rest : List Char) :
    (Nat.toDigits 10 n ++ rest).head? ≠ some '-' := by
  cases hdigits : Nat.toDigits 10 n with
  | nil => exact absurd hdigits Nat.toDigits_ne_nil
  | cons c cs =>
    have hc : c.isDigit = true := Nat.isDigit_of_mem_toDigits (b := 10) (n := n) (by decide)
      (by decide) (by simp [hdigits])
    intro h
    obtain rfl : c = '-' := by simpa using h
    exact absurd hc (by decide)

/-- A number that is read back as it was written. An integer is; of a float, its text must begin
as a number does and be read as the float. -/
def Floats.Keeps (floats : Floats) : Number → Prop
  | .posInt _ => True
  | .negInt n => n < 0
  | .float bits => (∃ c cs, floats.write bits = c :: cs ∧ (c = '-' ∨ c.isDigit)) ∧
      ∀ rest, Ends rest → readNumber floats (floats.write bits ++ rest) = some (.float bits, rest)

lemma numberOf_posInt (floats : Floats) (n : UInt64) :
    numberOf floats false (Nat.toDigits 10 n.toNat) [] = some (.posInt n) := by
  have hlt : n.toNat < 2 ^ 64 := n.toNat_lt
  rw [numberOf]
  simp only [Nat.ofDigitChars_ten_toDigits]
  rw [if_neg (by simp), if_neg (by simp), if_pos hlt, UInt64.ofNat_toNat]

lemma numberOf_negInt (floats : Floats) {n : Int64} (hneg : n < 0) :
    numberOf floats true (Nat.toDigits 10 n.toInt.natAbs) [] = some (.negInt n) := by
  have hlow : -2 ^ 63 ≤ n.toInt := n.le_toInt
  have hint : n.toInt < 0 := by simpa using Int64.lt_iff_toInt_lt.mp hneg
  have habs : -(n.toInt.natAbs : ℤ) = n.toInt := by omega
  rw [numberOf]
  simp only [Nat.ofDigitChars_ten_toDigits]
  rw [if_neg (by simp), if_pos trivial, if_pos (by omega), habs, Int64.ofInt_toInt]

/-- A number is read back, whatever stands behind it. -/
lemma readNumber_writeNumber {floats : Floats} {n : Number} (hn : floats.Keeps n)
    {rest : List Char} (h : Ends rest) :
    readNumber floats (writeNumber floats n ++ rest) = some (n, rest) := by
  cases n with
  | posInt n =>
    rw [writeNumber, readNumber, if_neg (head_toDigits_ne_minus _ _)]
    simp [scanInteger_toDigits _ h.not_isDigit, scanFraction_ends h, scanExponent_ends h,
      numberOf_posInt]
  | negInt n =>
    have hneg : n < 0 := hn
    rw [writeNumber, if_pos hneg, readNumber]
    simp [scanInteger_toDigits _ h.not_isDigit, scanFraction_ends h, scanExponent_ends h,
      numberOf_negInt floats hneg]
  | float bits => exact hn.2 rest h

/-! ### Values are read back -/

/-- A value whose numbers are read back. -/
inductive Kept (floats : Floats) : Value → Prop
  | null : Kept floats .null
  | bool (b : Bool) : Kept floats (.bool b)
  | number {n : Number} (hn : floats.Keeps n) : Kept floats (.number n)
  | string (s : String) : Kept floats (.string s)
  | array {items : List Value} (hitems : ∀ v ∈ items, Kept floats v) : Kept floats (.array items)
  | object {entries : List (String × Value)} (hentries : ∀ e ∈ entries, Kept floats e.2) :
      Kept floats (.object entries)

/-- A text begins with a character that opens a value. -/
def Opens (text : List Char) : Prop :=
  ∃ c cs, text = c :: cs ∧ isSpace c = false ∧ c ≠ ']' ∧ c ≠ '}'

lemma isSpace_of_isDigit {c : Char} (h : c = '-' ∨ c.isDigit = true) :
    isSpace c = false ∧ c ≠ ']' ∧ c ≠ '}' := by
  rcases h with rfl | h
  · decide
  · refine ⟨?_, ?_, ?_⟩
    · cases hc : isSpace c with
      | false => rfl
      | true =>
        simp only [isSpace, Bool.decide_or, Bool.or_eq_true, decide_eq_true_eq] at hc
        rcases hc with rfl | rfl | rfl | rfl <;> exact absurd h (by decide)
    · rintro rfl
      exact absurd h (by decide)
    · rintro rfl
      exact absurd h (by decide)

/-- The text of a number begins with a sign or a digit. -/
lemma exists_writeNumber {floats : Floats} {n : Number} (hn : floats.Keeps n) :
    ∃ c cs, writeNumber floats n = c :: cs ∧ (c = '-' ∨ c.isDigit = true) := by
  have hdigits : ∀ n, ∃ c cs, Nat.toDigits 10 n = c :: cs ∧ (c = '-' ∨ c.isDigit = true) := by
    intro n
    cases h : Nat.toDigits 10 n with
    | nil => exact absurd h Nat.toDigits_ne_nil
    | cons c cs =>
      exact ⟨c, cs, rfl, Or.inr (Nat.isDigit_of_mem_toDigits (b := 10) (n := n) (by decide)
        (by decide) (by simp [h]))⟩
  cases n with
  | posInt n => exact hdigits n.toNat
  | negInt n => exact ⟨'-', _, if_pos hn, Or.inl rfl⟩
  | float bits => exact hn.1

lemma Kept.opens {floats : Floats} {v : Value} (hv : Kept floats v) : Opens (write floats v) := by
  cases hv with
  | null => exact ⟨_, _, rfl, by decide⟩
  | bool b => cases b <;> exact ⟨_, _, rfl, by decide⟩
  | number hn =>
    obtain ⟨c, cs, htext, hc⟩ := exists_writeNumber hn
    exact ⟨c, cs, htext, isSpace_of_isDigit hc⟩
  | string s => exact ⟨_, _, rfl, by decide⟩
  | array _ => exact ⟨_, _, rfl, by decide⟩
  | object _ => exact ⟨_, _, rfl, by decide⟩

/-- No space is skipped before a value. -/
lemma Opens.skipSpace {text : List Char} (h : Opens text) (rest : List Char) :
    skipSpace (text ++ rest) = text ++ rest := by
  obtain ⟨c, cs, rfl, hc, _⟩ := h
  simp [Json.skipSpace, hc]

lemma Opens.head_ne {text : List Char} (h : Opens text) (rest : List Char) :
    (text ++ rest).head? ≠ some ']' ∧ (text ++ rest).head? ≠ some '}' := by
  obtain ⟨c, cs, rfl, _, hitem, hentry⟩ := h
  simp [hitem, hentry]

/-- A key is read back. -/
lemma readKey_writeString (k : String) (rest : List Char) :
    readKey (writeString k.toList ++ ':' :: rest) = some (k, rest) := by
  have hcolon : skipSpace (':' :: rest) = ':' :: rest := by simp [skipSpace, isSpace]
  simp [readKey, readString_writeString, hcolon]

lemma skipSpace_writeString (s rest : List Char) :
    skipSpace (writeString s ++ rest) = writeString s ++ rest := by
  simp [writeString, skipSpace, isSpace]

lemma ends_writeItems (floats : Floats) (vs : List Value) (rest : List Char) :
    Ends (writeItems floats false vs ++ rest) := by
  cases vs <;> simp [writeItems, Ends]

lemma ends_writeEntries (floats : Floats) (es : List (String × Value)) (rest : List Char) :
    Ends (writeEntries floats false es ++ rest) := by
  cases es <;> simp [writeEntries, Ends]

/-- Two readers one behind the other, each with its own bound. -/
lemma bind_ite_lt {α β : Type} {n m depth : ℕ} {a : α} {b : β} {g : α → Option β}
    (hg : g a = if m < depth then some b else none) :
    (if n < depth then some a else none).bind g = if max n m < depth then some b else none := by
  by_cases hn : n < depth
  · rw [if_pos hn, Option.bind_some, hg]
    by_cases hm : m < depth
    · rw [if_pos hm, if_pos (max_lt hn hm)]
    · rw [if_neg hm, if_neg fun h => hm (lt_of_le_of_lt (le_max_right n m) h)]
  · rw [if_neg hn, if_neg fun h => hn (lt_of_le_of_lt (le_max_left n m) h), Option.bind_none]

/-- What is made of what a reader reads has the reader's bound. -/
lemma bind_some_ite {α β : Type} {n depth : ℕ} (a : α) (f : α → β) :
    ((if n < depth then some a else none).bind fun a => some (f a)) =
      if n < depth then some (f a) else none := by
  by_cases hn : n < depth
  · rw [if_pos hn, if_pos hn, Option.bind_some]
  · rw [if_neg hn, if_neg hn, Option.bind_none]

/-- The level inside a container. -/
lemma ite_lt_pred {α : Type} {n depth : ℕ} (a : α) :
    (if n < depth - 1 then some a else none) = if n + 1 < depth then some a else none :=
  if_congr (by omega) rfl rfl

lemma readItems_comma (floats : Floats) (fuel depth : ℕ) (cs : List Char) :
    readItems floats (fuel + 1) depth (',' :: cs) =
      (readRaw floats fuel depth cs).bind fun p =>
        (readItems floats fuel depth p.2).bind fun q => some (p.1 :: q.1, q.2) := by
  simp [readItems, skipSpace, isSpace]

lemma readEntries_comma (floats : Floats) (fuel depth : ℕ) (k : String) (cs : List Char) :
    readEntries floats (fuel + 1) depth (',' :: (writeString k.toList ++ ':' :: cs)) =
      (readRaw floats fuel depth cs).bind fun p =>
        (readEntries floats fuel depth p.2).bind fun q => some ((k, p.1) :: q.1, q.2) := by
  simp [readEntries, skipSpace, isSpace, readKey_writeString]

lemma readRaw_bracket (floats : Floats) (fuel : ℕ) {depth : ℕ} (hdepth : ¬ depth ≤ 1)
    {text : List Char} (h : Opens text) (cs : List Char) :
    readRaw floats (fuel + 1) depth ('[' :: (text ++ cs)) =
      (readRaw floats fuel (depth - 1) (text ++ cs)).bind fun p =>
        (readItems floats fuel (depth - 1) p.2).bind fun q =>
          some (.array (p.1 :: q.1), q.2) := by
  have hskip := h.skipSpace cs
  have hhead := (h.head_ne cs).1
  have hbracket : skipSpace ('[' :: (text ++ cs)) = '[' :: (text ++ cs) := by
    simp [skipSpace, isSpace]
  rw [readRaw, hbracket]
  generalize text ++ cs = inner at hskip hhead
  simp [hskip, hhead, hdepth]

lemma readRaw_brace (floats : Floats) (fuel : ℕ) {depth : ℕ} (hdepth : ¬ depth ≤ 1) (k : String)
    (cs : List Char) :
    readRaw floats (fuel + 1) depth ('{' :: (writeString k.toList ++ ':' :: cs)) =
      (readRaw floats fuel (depth - 1) cs).bind fun p =>
        (readEntries floats fuel (depth - 1) p.2).bind fun q =>
          some (.object ((k, p.1) :: q.1), q.2) := by
  have hbrace : skipSpace ('{' :: (writeString k.toList ++ ':' :: cs)) =
      '{' :: (writeString k.toList ++ ':' :: cs) := by
    simp [skipSpace, isSpace]
  have hhead : (writeString k.toList ++ ':' :: cs).head? ≠ some '}' := by simp [writeString]
  have hskip := skipSpace_writeString k.toList (':' :: cs)
  have hkey := readKey_writeString k cs
  rw [readRaw, hbrace]
  generalize writeString k.toList ++ ':' :: cs = inner at hhead hskip hkey
  simp [hskip, hhead, hdepth, hkey]

/-- A container where none is allowed any more. -/
lemma readRaw_too_deep (floats : Floats) (fuel : ℕ) {depth : ℕ} (hdepth : depth ≤ 1) {c : Char}
    (hc : c = '[' ∨ c = '{') (cs : List Char) :
    readRaw floats (fuel + 1) depth (c :: cs) = none := by
  rcases hc with rfl | rfl <;> simp [readRaw, skipSpace, isSpace, hdepth]

mutual

/-- Reading back the text of a value gives the value if it is not nested too deep, and nothing
otherwise. -/
lemma readRaw_write {floats : Floats} (v : Value) (hv : Kept floats v) {fuel depth : ℕ}
    (hfuel : (write floats v).length ≤ fuel) (hdepth : 0 < depth) {rest : List Char}
    (hrest : Ends rest) :
    readRaw floats fuel depth (write floats v ++ rest) =
      if nesting v < depth then some (v, rest) else none := by
  have hopens := hv.opens
  match fuel with
  | 0 =>
    obtain ⟨c, cs, htext, _⟩ := hopens
    simp [htext] at hfuel
  | fuel + 1 =>
    match v with
    | .null => simp [write, readRaw, skipSpace, isSpace, readIdent, nesting, hdepth]
    | .bool true => simp [write, readRaw, skipSpace, isSpace, readIdent, nesting, hdepth]
    | .bool false => simp [write, readRaw, skipSpace, isSpace, readIdent, nesting, hdepth]
    | .number n =>
      cases hv with
      | number hn =>
        obtain ⟨c, cs, htext, hc⟩ := exists_writeNumber hn
        have hread := readNumber_writeNumber hn hrest
        have hother : c ≠ 'n' ∧ c ≠ 't' ∧ c ≠ 'f' := by
          rcases hc with rfl | hc
          · decide
          · refine ⟨?_, ?_, ?_⟩ <;> rintro rfl <;> exact absurd hc (by decide)
        rw [write] at hopens ⊢
        rw [readRaw, hopens.skipSpace, htext]
        rw [htext, List.cons_append] at hread
        simp only [List.cons_append, hother, if_false, hc, if_true]
        simp [hread, nesting, hdepth]
    | .string s =>
      have hread := readString_writeString s.toList rest
      rw [write, readRaw, skipSpace_writeString]
      simp only [writeString, List.cons_append, List.append_assoc, List.nil_append] at hread ⊢
      simp [hread, nesting, hdepth]
    | .array [] =>
      by_cases hdeep : depth ≤ 1
      · rw [write, List.cons_append, readRaw_too_deep floats fuel hdeep (Or.inl rfl), nesting,
          if_neg (by omega)]
      · have hin : 1 < depth := by omega
        simp [write, writeItems, readRaw, skipSpace, isSpace, nesting, nestingItems, hdeep, hin]
    | .array (v :: vs) =>
      by_cases hdeep : depth ≤ 1
      · rw [write, List.cons_append, readRaw_too_deep floats fuel hdeep (Or.inl rfl), nesting,
          if_neg (by omega)]
      · cases hv with
        | array hitems =>
          have htext : write floats (.array (v :: vs)) ++ rest =
              '[' :: (write floats v ++ (writeItems floats false vs ++ rest)) := by
            simp [write, writeItems]
          have hlen : (write floats v).length ≤ fuel ∧
              (writeItems floats false vs).length ≤ fuel := by
            simp [write, writeItems] at hfuel
            omega
          have hkept := hitems v (by simp)
          have hread := readRaw_write v hkept hlen.1 (show 0 < depth - 1 by omega)
            (ends_writeItems floats vs rest)
          have hmore := readItems_writeItems vs (fun v hv => hitems v (by simp [hv])) hlen.2
            (show 0 < depth - 1 by omega) rest
          rw [htext, readRaw_bracket floats fuel hdeep hkept.opens, hread, nesting, nestingItems,
            ← ite_lt_pred]
          refine bind_ite_lt ?_
          rw [hmore]
          exact bind_some_ite (vs, rest) fun q => (Value.array (v :: q.1), q.2)
    | .object [] =>
      by_cases hdeep : depth ≤ 1
      · rw [write, List.cons_append, readRaw_too_deep floats fuel hdeep (Or.inr rfl), nesting,
          if_neg (by omega)]
      · have hin : 1 < depth := by omega
        simp [write, writeEntries, readRaw, skipSpace, isSpace, nesting, nestingEntries, hdeep, hin]
    | .object ((k, v) :: es) =>
      by_cases hdeep : depth ≤ 1
      · rw [write, List.cons_append, readRaw_too_deep floats fuel hdeep (Or.inr rfl), nesting,
          if_neg (by omega)]
      · cases hv with
        | object hentries =>
          have htext : write floats (.object ((k, v) :: es)) ++ rest =
              '{' :: (writeString k.toList ++
                ':' :: (write floats v ++ (writeEntries floats false es ++ rest))) := by
            simp [write, writeEntries]
          have hlen : (write floats v).length ≤ fuel ∧
              (writeEntries floats false es).length ≤ fuel := by
            simp [write, writeEntries] at hfuel
            omega
          have hread := readRaw_write v (hentries (k, v) (by simp)) hlen.1
            (show 0 < depth - 1 by omega) (ends_writeEntries floats es rest)
          have hmore := readEntries_writeEntries es (fun e he => hentries e (by simp [he])) hlen.2
            (show 0 < depth - 1 by omega) rest
          rw [htext, readRaw_brace floats fuel hdeep, hread, nesting, nestingEntries,
            ← ite_lt_pred]
          refine bind_ite_lt ?_
          rw [hmore]
          exact bind_some_ite (es, rest) fun q => (Value.object ((k, v) :: q.1), q.2)

/-- The rest of an array is read back. -/
lemma readItems_writeItems {floats : Floats} (vs : List Value) (hvs : ∀ v ∈ vs, Kept floats v)
    {fuel depth : ℕ} (hfuel : (writeItems floats false vs).length ≤ fuel) (hdepth : 0 < depth)
    (rest : List Char) :
    readItems floats fuel depth (writeItems floats false vs ++ rest) =
      if nestingItems vs < depth then some (vs, rest) else none := by
  match fuel with
  | 0 => cases vs <;> simp [writeItems] at hfuel
  | fuel + 1 =>
    match vs with
    | [] => simp [writeItems, readItems, skipSpace, isSpace, nestingItems, hdepth]
    | v :: vs =>
      have htext : writeItems floats false (v :: vs) ++ rest =
          ',' :: (write floats v ++ (writeItems floats false vs ++ rest)) := by
        simp [writeItems]
      have hlen : (write floats v).length ≤ fuel ∧
          (writeItems floats false vs).length ≤ fuel := by
        simp [writeItems] at hfuel
        omega
      have hread := readRaw_write v (hvs v (by simp)) hlen.1 hdepth (ends_writeItems floats vs rest)
      have hmore := readItems_writeItems vs (fun v hv => hvs v (by simp [hv])) hlen.2 hdepth rest
      rw [htext, readItems_comma, hread, nestingItems]
      refine bind_ite_lt ?_
      rw [hmore]
      exact bind_some_ite (vs, rest) fun q => (v :: q.1, q.2)

/-- The rest of an object is read back. -/
lemma readEntries_writeEntries {floats : Floats} (es : List (String × Value))
    (hes : ∀ e ∈ es, Kept floats e.2) {fuel depth : ℕ}
    (hfuel : (writeEntries floats false es).length ≤ fuel) (hdepth : 0 < depth)
    (rest : List Char) :
    readEntries floats fuel depth (writeEntries floats false es ++ rest) =
      if nestingEntries es < depth then some (es, rest) else none := by
  match fuel with
  | 0 => cases es <;> simp [writeEntries] at hfuel
  | fuel + 1 =>
    match es with
    | [] => simp [writeEntries, readEntries, skipSpace, isSpace, nestingEntries, hdepth]
    | (k, v) :: es =>
      have htext : writeEntries floats false ((k, v) :: es) ++ rest =
          ',' :: (writeString k.toList ++
            ':' :: (write floats v ++ (writeEntries floats false es ++ rest))) := by
        simp [writeEntries]
      have hlen : (write floats v).length ≤ fuel ∧
          (writeEntries floats false es).length ≤ fuel := by
        simp [writeEntries] at hfuel
        omega
      have hread := readRaw_write v (hes (k, v) (by simp)) hlen.1 hdepth
        (ends_writeEntries floats es rest)
      have hmore := readEntries_writeEntries es (fun e he => hes e (by simp [he])) hlen.2 hdepth
        rest
      rw [htext, readEntries_comma, hread, nestingEntries]
      refine bind_ite_lt ?_
      rw [hmore]
      exact bind_some_ite (es, rest) fun q => ((k, v) :: q.1, q.2)

end

/-! ### Maps that are sorted already -/

/-- A value as it is held: every map in it is sorted by its keys. -/
inductive Tidy : Value → Prop
  | null : Tidy .null
  | bool (b : Bool) : Tidy (.bool b)
  | number (n : Number) : Tidy (.number n)
  | string (s : String) : Tidy (.string s)
  | array {items : List Value} (hitems : ∀ v ∈ items, Tidy v) : Tidy (.array items)
  | object {entries : List (String × Value)} (hentries : ∀ e ∈ entries, Tidy e.2)
      (hsorted : entries.Pairwise fun a b => a.1 < b.1) : Tidy (.object entries)

lemma putEntry_of_last {α : Type} {k : String} {v : α} {map : List (String × α)}
    (h : ∀ e ∈ map, e.1 < k) : putEntry k v map = map ++ [(k, v)] := by
  induction map with
  | nil => rfl
  | cons e map ih =>
    have he : e.1 < k := h e (by simp)
    rw [putEntry, if_neg (lt_asymm he), if_neg (ne_of_gt he), ih fun e he => h e (by simp [he])]
    rfl

/-- Entries that come in order make the map they are. -/
lemma sortEntries_of_pairwise {α : Type} {es : List (String × α)}
    (h : es.Pairwise fun a b => a.1 < b.1) : sortEntries es = es := by
  rw [sortEntries]
  induction es using List.reverseRecOn with
  | nil => rfl
  | append_singleton es e ih =>
    obtain ⟨hes, _, hlast⟩ := List.pairwise_append.mp h
    rw [List.foldl_append, ih hes]
    exact putEntry_of_last fun e' he' => hlast e' he' e (by simp)

mutual

lemma Tidy.normalize (v : Value) (hv : Tidy v) : normalize v = v := by
  match v with
  | .null | .bool _ | .number _ | .string _ => rfl
  | .array items =>
    cases hv with
    | array hitems => rw [Json.normalize, Tidy.normalizeItems items hitems]
  | .object entries =>
    cases hv with
    | object hentries hsorted =>
      rw [Json.normalize, Tidy.normalizeEntries entries hentries, sortEntries_of_pairwise hsorted]

lemma Tidy.normalizeItems (vs : List Value) (hvs : ∀ v ∈ vs, Tidy v) :
    normalizeItems vs = vs := by
  match vs with
  | [] => rfl
  | v :: vs =>
    rw [Json.normalizeItems, Tidy.normalize v (hvs v (by simp)),
      Tidy.normalizeItems vs fun v hv => hvs v (by simp [hv])]

lemma Tidy.normalizeEntries (es : List (String × Value)) (hes : ∀ e ∈ es, Tidy e.2) :
    normalizeEntries es = es := by
  match es with
  | [] => rfl
  | (k, v) :: es =>
    rw [Json.normalizeEntries, Tidy.normalize v (hes (k, v) (by simp)),
      Tidy.normalizeEntries es fun e he => hes e (by simp [he])]

end

lemma readContent_write {floats : Floats} {v : Value} (hv : Kept floats v) {depth : ℕ}
    (hdepth : 0 < depth) {rest : List Char} (hrest : Ends rest) :
    readContent floats depth (write floats v ++ rest) =
      if nesting v < depth then some (v, rest) else none := by
  refine readRaw_write v hv ?_ hdepth hrest
  rw [List.length_append]
  omega

/-- **Values are read back.** Reading the text of a value gives the value that is held, whatever
stands behind it, if it is not nested too deep for the reader, and nothing otherwise. -/
theorem readValue_write {floats : Floats} {v : Value} (hv : Kept floats v) {depth : ℕ}
    (hdepth : 0 < depth) {rest : List Char} (hrest : Ends rest) :
    readValue floats depth (write floats v ++ rest) =
      if nesting v < depth then some (normalize v, rest) else none := by
  rw [readValue, readContent_write hv hdepth hrest]
  by_cases hnesting : nesting v < depth
  · rw [if_pos hnesting, if_pos hnesting, Option.map_some]
  · rw [if_neg hnesting, if_neg hnesting, Option.map_none]

end Json
