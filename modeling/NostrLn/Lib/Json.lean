import Mathlib.Data.List.Basic
import Mathlib.Tactic.Common
import NostrLn.Lib.Text

/-!
# JSON text: an array of strings

The compact writer and the reader of `serde_json`, for the one shape `Vec<String>`. The writer
escapes what it must; the reader takes space between tokens and every escape JSON has, surrogate
pairs included. Each round of a reader's loop takes a character at least, so the length of the text
is fuel enough.
-/

namespace Json

open Text

/-! ### Writing -/

/-- A character between quotes. -/
def escape (c : Char) : List Char :=
  if c = '"' then ['\\', '"']
  else if c = '\\' then ['\\', '\\']
  else if c = '\x08' then ['\\', 'b']
  else if c = '\t' then ['\\', 't']
  else if c = '\n' then ['\\', 'n']
  else if c = '\x0c' then ['\\', 'f']
  else if c = '\r' then ['\\', 'r']
  else if c.toNat < 32 then
    ['\\', 'u', '0', '0', hexDigit (c.toNat / 16), hexDigit (c.toNat % 16)]
  else [c]

/-- A string: quotes and what stands between. -/
def writeString (s : List Char) : List Char := '"' :: (s.flatMap escape ++ ['"'])

/-- The elements of an array and its closing bracket. -/
def writeElements (first : Bool) : List (List Char) → List Char
  | [] => [']']
  | s :: ss => (if first then [] else [',']) ++ writeString s ++ writeElements false ss

/-- An array of strings, without space. -/
def renderStrings (l : List String) : String :=
  String.ofList ('[' :: writeElements true (l.map String.toList))

/-! ### Reading -/

/-- Space between tokens. -/
def isSpace (c : Char) : Bool := c = ' ' ∨ c = '\n' ∨ c = '\t' ∨ c = '\r'

/-- Pass over space. -/
def skipSpace (cs : List Char) : List Char := cs.dropWhile isSpace

/-- Four hex digits. -/
def readHex : List Char → Option (ℕ × List Char)
  | a :: b :: c :: d :: rest => do
    let a ← hexValue a
    let b ← hexValue b
    let c ← hexValue c
    let d ← hexValue d
    return (4096 * a + 256 * b + 16 * c + d, rest)
  | _ => none

/-- What stands behind `\u`: a character, or the first half of a surrogate pair, which must be
followed by the other. -/
def readUnicode (cs : List Char) : Option (Char × List Char) := do
  let (n, rest) ← readHex cs
  if 0xDC00 ≤ n ∧ n ≤ 0xDFFF then none
  else if n < 0xD800 ∨ 0xDBFF < n then return (Char.ofNat n, rest)
  else
    match rest with
    | '\\' :: 'u' :: rest =>
      let (m, rest) ← readHex rest
      if m < 0xDC00 ∨ 0xDFFF < m then none
      else return (Char.ofNat (1024 * (n - 0xD800) + (m - 0xDC00) + 0x10000), rest)
    | _ => none

/-- What stands behind a backslash. -/
def readEscape : List Char → Option (Char × List Char)
  | [] => none
  | c :: rest =>
    if c = '"' then some ('"', rest)
    else if c = '\\' then some ('\\', rest)
    else if c = '/' then some ('/', rest)
    else if c = 'b' then some ('\x08', rest)
    else if c = 'f' then some ('\x0c', rest)
    else if c = 'n' then some ('\n', rest)
    else if c = 'r' then some ('\r', rest)
    else if c = 't' then some ('\t', rest)
    else if c = 'u' then readUnicode rest
    else none

/-- The rest of a string whose opening quote has been read, and what stands behind it. -/
def readChars : ℕ → List Char → Option (List Char × List Char)
  | 0, _ => none
  | _ + 1, [] => none
  | fuel + 1, c :: rest =>
    if c = '"' then some ([], rest)
    else if c = '\\' then do
      let (c, rest) ← readEscape rest
      let (s, rest) ← readChars fuel rest
      return (c :: s, rest)
    -- a control character must be escaped
    else if c.toNat < 32 then none
    else do
      let (s, rest) ← readChars fuel rest
      return (c :: s, rest)

/-- A string, and what stands behind it. -/
def readString (cs : List Char) : Option (List Char × List Char) :=
  match skipSpace cs with
  | c :: rest => if c = '"' then readChars rest.length rest else none
  | [] => none

/-- The elements of an array whose bracket, and first elements, have been read, and what stands
behind it. -/
def readElements : ℕ → Bool → List Char → Option (List (List Char) × List Char)
  | 0, _, _ => none
  | fuel + 1, first, cs =>
    match skipSpace cs with
    | [] => none
    | c :: rest =>
      if c = ']' then some ([], rest)
      else if first = false ∧ c ≠ ',' then none
      else do
        let (s, rest) ← readString (if first then c :: rest else rest)
        let (ss, rest) ← readElements fuel false rest
        return (s :: ss, rest)

/-- An array of strings, and nothing else. -/
def parseStrings (text : String) : Option (List String) :=
  match skipSpace text.toList with
  | c :: rest =>
    if c = '[' then do
      let (ss, rest) ← readElements rest.length true rest
      if (skipSpace rest).isEmpty then return ss.map String.ofList else none
    else none
  | [] => none

/-! ### Reading back -/

lemma readHex_writeHex {n : ℕ} (h : n < 256) (rest : List Char) :
    readHex ('0' :: '0' :: hexDigit (n / 16) :: hexDigit (n % 16) :: rest) = some (n, rest) := by
  have hzero : hexValue '0' = some 0 := rfl
  have hhalves : 4096 * 0 + 256 * 0 + 16 * (n / 16) + n % 16 = n := by omega
  simp only [readHex, hzero, hexValue_hexDigit (show n / 16 < 16 by omega),
    hexValue_hexDigit (show n % 16 < 16 by omega), Option.bind_eq_bind, Option.bind_some, hhalves]
  rfl

/-- One character is read back, whether it was escaped or not. -/
lemma readChars_escape (c : Char) (fuel : ℕ) (rest : List Char) :
    readChars (fuel + 1) (escape c ++ rest) =
      (readChars fuel rest).map fun p => (c :: p.1, p.2) := by
  have hbind : ∀ (c : Char) (o : Option (List Char × List Char)),
      (o.bind fun p => some (c :: p.1, p.2)) = o.map fun p => (c :: p.1, p.2) := by
    intro c o
    cases o <;> rfl
  rw [escape]
  split_ifs with h1 h2 h3 h4 h5 h6 h7 hcontrol
  rotate_left 7
  · -- the long form: two zeros and the character's two digits
    have hread := readHex_writeHex (show c.toNat < 256 by omega) rest
    have htrail : ¬ 0xDC00 ≤ c.toNat := by omega
    have hlead : c.toNat < 0xD800 := by omega
    simp [readChars, readEscape, readUnicode, hread, htrail, hlead, hbind]
  · simp [readChars, h1, h2, hcontrol, hbind]
  all_goals
    subst c
    simp [readChars, readEscape, hbind]

lemma readChars_flatMap {s : List Char} {fuel : ℕ} (h : s.length < fuel) (rest : List Char) :
    readChars fuel (s.flatMap escape ++ '"' :: rest) = some (s, rest) := by
  induction s generalizing fuel with
  | nil =>
    match fuel, h with
    | fuel + 1, _ => simp [readChars]
  | cons c s ih =>
    match fuel, h with
    | fuel + 1, h =>
      rw [List.flatMap_cons, List.append_assoc, readChars_escape, ih (by simpa using h)]
      rfl

lemma length_le_flatMap_escape (s : List Char) : s.length ≤ (s.flatMap escape).length := by
  induction s with
  | nil => simp
  | cons c s ih =>
    have hc : 1 ≤ (escape c).length := by
      rw [escape]
      split_ifs <;> simp
    rw [List.flatMap_cons, List.length_append, List.length_cons]
    omega

/-- A string is read back, whatever stands behind it. -/
lemma readString_writeString (s rest : List Char) :
    readString (writeString s ++ rest) = some (s, rest) := by
  have hlen := length_le_flatMap_escape s
  rw [readString, writeString, List.cons_append, List.append_assoc, List.singleton_append,
    skipSpace, List.dropWhile_cons_of_neg (by decide)]
  simp only [if_true]
  refine readChars_flatMap ?_ rest
  rw [List.length_append, List.length_cons]
  omega

/-- The elements are read back, whatever stands behind the array. -/
lemma readElements_writeElements {l : List (List Char)} {fuel : ℕ} (h : l.length < fuel)
    (first : Bool) (rest : List Char) :
    readElements fuel first (writeElements first l ++ rest) = some (l, rest) := by
  induction l generalizing fuel first with
  | nil =>
    match fuel, h with
    | fuel + 1, _ => simp [writeElements, readElements, skipSpace, isSpace]
  | cons s l ih =>
    match fuel, h with
    | fuel + 1, h =>
      have hrest := ih (by simpa using h) false
      have hstring := readString_writeString s (writeElements false l ++ rest)
      cases first with
      | true =>
        -- the opening quote is looked at twice: as no bracket, and as a quote
        rw [writeString, List.cons_append] at hstring
        simp [writeElements, writeString, readElements, skipSpace, isSpace] at hstring ⊢
        simp [hstring, hrest]
      | false => simp [writeElements, readElements, skipSpace, isSpace, hstring, hrest]

lemma length_lt_writeElements (l : List (List Char)) (first : Bool) :
    l.length < (writeElements first l).length := by
  induction l generalizing first with
  | nil => simp [writeElements]
  | cons s l ih =>
    have hstring : 1 ≤ (writeString s).length := by simp [writeString]
    have hrest := ih false
    rw [writeElements, List.length_append, List.length_append, List.length_cons]
    omega

/-- Reading back the text that was written gives the strings. -/
theorem parseStrings_renderStrings (l : List String) : parseStrings (renderStrings l) = some l := by
  have hlen := length_lt_writeElements (l.map String.toList) true
  have hread := readElements_writeElements hlen true []
  have hback : (l.map String.toList).map String.ofList = l := by
    rw [List.map_map]
    exact List.map_id'' (fun s => String.ofList_toList) l
  rw [List.append_nil] at hread
  rw [parseStrings, renderStrings, String.toList_ofList, skipSpace,
    List.dropWhile_cons_of_neg (by decide)]
  simp only [if_true, hread, Option.bind_eq_bind, Option.bind_some, hback]
  rfl

end Json
