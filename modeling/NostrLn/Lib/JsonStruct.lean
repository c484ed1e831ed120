import NostrLn.Lib.JsonValue

/-!
# JSON text: structs

A struct is read from text field by field: a field nobody asked for is passed over, one that comes
twice is an error, and from an array the fields are read in order. What is passed over is checked
for its form only, so it may be nested as deep as it likes, and the halves of a surrogate pair are
not put together.
-/

namespace Json

open Text Serde

/-! ### Passing over a value -/

/-- What stands behind a backslash, unread. -/
def skipEscape : List Char → Option (List Char)
  | [] => none
  | c :: rest =>
    if c ∈ ['"', '\\', '/', 'b', 'f', 'n', 'r', 't'] then some rest
    else if c = 'u' then (readHex rest).map Prod.snd
    else none

/-- The rest of a string whose opening quote has been read. -/
def skipChars : ℕ → List Char → Option (List Char)
  | 0, _ => none
  | _ + 1, [] => none
  | fuel + 1, c :: rest =>
    if c = '"' then some rest
    else if c = '\\' then (skipEscape rest).bind (skipChars fuel)
    else if c.toNat < 32 then none
    else skipChars fuel rest

/-- A number, by its form. -/
def skipNumber (cs : List Char) : Option (List Char) := do
  let (_, cs) ← scanInteger (if cs.head? = some '-' then cs.tail else cs)
  let (_, cs) ← scanFraction cs
  let (_, cs) ← scanExponent cs
  return cs

/-- A key and its colon. -/
def skipKey (cs : List Char) : Option (List Char) :=
  match skipSpace cs with
  | c :: cs =>
    if c = '"' then do
      let cs ← skipChars cs.length cs
      match skipSpace cs with
      | c :: cs => if c = ':' then return cs else none
      | [] => none
    else none
  | [] => none

mutual

/-- What stands behind a value. -/
def skipValue : ℕ → List Char → Option (List Char)
  | 0, _ => none
  | fuel + 1, cs =>
    match skipSpace cs with
    | [] => none
    | c :: rest =>
      if c = 'n' then readIdent ['u', 'l', 'l'] rest
      else if c = 't' then readIdent ['r', 'u', 'e'] rest
      else if c = 'f' then readIdent ['a', 'l', 's', 'e'] rest
      else if c = '-' ∨ c.isDigit then skipNumber (c :: rest)
      else if c = '"' then skipChars rest.length rest
      else if c = '[' then
        if (skipSpace rest).head? = some ']' then some (skipSpace rest).tail
        else (skipValue fuel rest).bind (skipItems fuel)
      else if c = '{' then
        if (skipSpace rest).head? = some '}' then some (skipSpace rest).tail
        else ((skipKey rest).bind (skipValue fuel)).bind (skipEntries fuel)
      else none

/-- What stands behind the rest of an array. -/
def skipItems : ℕ → List Char → Option (List Char)
  | 0, _ => none
  | fuel + 1, cs =>
    match skipSpace cs with
    | [] => none
    | c :: rest =>
      if c = ']' then some rest
      else if c = ',' then (skipValue fuel rest).bind (skipItems fuel)
      else none

/-- What stands behind the rest of an object. -/
def skipEntries : ℕ → List Char → Option (List Char)
  | 0, _ => none
  | fuel + 1, cs =>
    match skipSpace cs with
    | [] => none
    | c :: rest =>
      if c = '}' then some rest
      else if c = ',' then ((skipKey rest).bind (skipValue fuel)).bind (skipEntries fuel)
      else none

end

/-! ### Reading a struct -/

/-- What reads a value from text. The number is one more than the containers it may still enter. -/
abbrev Reader (α : Type) := ℕ → List Char → Option (α × List Char)

/-- The limit a reader starts with. -/
def maxDepth : ℕ := 128

/-- What is read from a whole text: nothing but space may stand behind it. -/
def parseText {α : Type} (read : Reader α) (text : String) : Option α := do
  let (a, rest) ← read maxDepth text.toList
  if (skipSpace rest).isEmpty then return a else none

/-- A string. -/
def readText : Reader String := fun _ cs =>
  (readString cs).map fun p => (String.ofList p.1, p.2)

/-- `null`, or what another reader reads. -/
def readOption {α : Type} (read : Reader α) : Reader (Option α) := fun depth cs =>
  if (skipSpace cs).head? = some 'n' then
    (readIdent ['u', 'l', 'l'] (skipSpace cs).tail).map fun rest => (none, rest)
  else (read depth cs).map fun p => (some p.1, p.2)

/-- One entry of a struct, added to the fields that were found. -/
def readField {α : Type} (names : List String) (field : String → Reader α) (depth : ℕ)
    (found : List (String × α)) (cs : List Char) : Option (List (String × α) × List Char) := do
  let (k, cs) ← readKey cs
  if k ∈ names then
    if k ∈ found.map Prod.fst then none
    else do
      let (a, cs) ← field k depth cs
      return (found ++ [(k, a)], cs)
  else do
    let cs ← skipValue (cs.length + 1) cs
    return (found, cs)

/-- The entries of a struct behind the first. -/
def readFields {α : Type} (names : List String) (field : String → Reader α) :
    ℕ → ℕ → List (String × α) → List Char → Option (List (String × α) × List Char)
  | 0, _, _, _ => none
  | fuel + 1, depth, found, cs =>
    match skipSpace cs with
    | [] => none
    | c :: rest =>
      if c = '}' then some (found, rest)
      else if c = ',' then do
        let (found, rest) ← readField names field depth found rest
        readFields names field fuel depth found rest
      else none

/-- The fields of a struct behind the first, in order. -/
def readTuple {α : Type} (field : String → Reader α) (depth : ℕ) :
    List String → List Char → Option (List (String × α) × List Char)
  | names, cs =>
    match skipSpace cs with
    | [] => none
    | c :: rest =>
      if c = ']' then some ([], rest)
      else
        match names with
        | [] => none
        | name :: names =>
          if c = ',' then do
            let (a, rest) ← field name depth rest
            let (fields, rest) ← readTuple field depth names rest
            return ((name, a) :: fields, rest)
          else none

/-- The fields of a struct that are there, in the order they come. -/
def readStruct {α : Type} (names : List String) (field : String → Reader α) :
    Reader (List (String × α)) := fun depth cs =>
  match skipSpace cs with
  | [] => none
  | c :: rest =>
    if c = '[' then
      if depth ≤ 1 then none
      else if (skipSpace rest).head? = some ']' then some ([], (skipSpace rest).tail)
      else
        match names with
        | [] => none
        | name :: names => do
          let (a, rest) ← field name (depth - 1) rest
          let (fields, rest) ← readTuple field (depth - 1) names rest
          return ((name, a) :: fields, rest)
    else if c = '{' then
      if depth ≤ 1 then none
      else if (skipSpace rest).head? = some '}' then some ([], (skipSpace rest).tail)
      else do
        let (found, rest) ← readField names field (depth - 1) [] rest
        readFields names field rest.length (depth - 1) found rest
    else none

/-! ### What was written is passed over -/

lemma skipChars_escape (c : Char) (fuel : ℕ) (rest : List Char) :
    skipChars (fuel + 1) (escape c ++ rest) = skipChars fuel rest := by
  rw [escape]
  split_ifs with h1 h2 h3 h4 h5 h6 h7 hcontrol
  rotate_left 7
  · have hread := readHex_writeHex (show c.toNat < 256 by omega) rest
    simp [skipChars, skipEscape, hread]
  · simp [skipChars, h1, h2, hcontrol]
  all_goals
    subst c
    simp [skipChars, skipEscape]

lemma skipChars_flatMap {s : List Char} {fuel : ℕ} (h : s.length < fuel) (rest : List Char) :
    skipChars fuel (s.flatMap escape ++ '"' :: rest) = some rest := by
  induction s generalizing fuel with
  | nil =>
    match fuel, h with
    | fuel + 1, _ => simp [skipChars]
  | cons c s ih =>
    match fuel, h with
    | fuel + 1, h =>
      rw [List.flatMap_cons, List.append_assoc, skipChars_escape, ih (by simpa using h)]

/-- The text of a string behind its opening quote. -/
lemma skipChars_writeString (s rest : List Char) :
    skipChars (s.flatMap escape ++ '"' :: rest).length (s.flatMap escape ++ '"' :: rest) =
      some rest := by
  have hlen := length_le_flatMap_escape s
  refine skipChars_flatMap ?_ rest
  rw [List.length_append, List.length_cons]
  omega

lemma skipKey_writeString (k rest : List Char) :
    skipKey (writeString k ++ ':' :: rest) = some rest := by
  have hcolon : skipSpace (':' :: rest) = ':' :: rest := by simp [skipSpace, isSpace]
  have hskip := skipChars_writeString k (':' :: rest)
  rw [skipKey, skipSpace_writeString]
  simp only [writeString, List.cons_append, List.append_assoc, List.nil_append, if_true, hskip,
    Option.bind_eq_bind, Option.bind_some, hcolon]
  rfl

/-- A number that can be read can be passed over. -/
lemma skipNumber_of_readNumber {floats : Floats} {cs rest : List Char} {n : Number}
    (h : readNumber floats cs = some (n, rest)) : skipNumber cs = some rest := by
  have hsign : (if cs.head? = some '-' then (true, cs.tail) else (false, cs)).2 =
      if cs.head? = some '-' then cs.tail else cs := by
    split <;> rfl
  simp only [readNumber, Option.bind_eq_bind, Option.bind_eq_some_iff, Prod.exists, hsign] at h
  obtain ⟨digits, cs₁, hdigits, fraction, cs₂, hfraction, exponent, cs₃, hexponent, n', _, hn⟩ := h
  have hrest : cs₃ = rest := (Prod.mk.inj (Option.some.inj hn)).2
  simp [skipNumber, hdigits, hfraction, hexponent, hrest]

mutual

/-- The text of a value is passed over, however deep the value is nested. -/
lemma skipValue_write {floats : Floats} (v : Value) (hv : Kept floats v) {fuel : ℕ}
    (hfuel : (write floats v).length ≤ fuel) {rest : List Char} (hrest : Ends rest) :
    skipValue fuel (write floats v ++ rest) = some rest := by
  have hopens := hv.opens
  match fuel with
  | 0 =>
    obtain ⟨c, cs, htext, _⟩ := hopens
    simp [htext] at hfuel
  | fuel + 1 =>
    match v with
    | .null => simp [write, skipValue, skipSpace, isSpace, readIdent]
    | .bool true => simp [write, skipValue, skipSpace, isSpace, readIdent]
    | .bool false => simp [write, skipValue, skipSpace, isSpace, readIdent]
    | .number n =>
      cases hv with
      | number hn =>
        obtain ⟨c, cs, htext, hc⟩ := exists_writeNumber hn
        have hskip := skipNumber_of_readNumber (readNumber_writeNumber hn hrest)
        have hother : c ≠ 'n' ∧ c ≠ 't' ∧ c ≠ 'f' := by
          rcases hc with rfl | hc
          · decide
          · refine ⟨?_, ?_, ?_⟩ <;> rintro rfl <;> exact absurd hc (by decide)
        rw [write] at hopens ⊢
        rw [skipValue, hopens.skipSpace, htext]
        rw [htext, List.cons_append] at hskip
        simp only [List.cons_append, hother, if_false, hc, if_true, hskip]
    | .string s =>
      have hskip := skipChars_writeString s.toList rest
      rw [write, skipValue, skipSpace_writeString]
      simp only [writeString, List.cons_append, List.append_assoc, List.nil_append]
      simpa using hskip
    | .array [] => simp [write, writeItems, skipValue, skipSpace, isSpace]
    | .array (v :: vs) =>
      cases hv with
      | array hitems =>
        have hkept := hitems v (by simp)
        have hlen : (write floats v).length ≤ fuel ∧
            (writeItems floats false vs).length ≤ fuel := by
          simp [write, writeItems] at hfuel
          omega
        have hskip := skipValue_write v hkept hlen.1 (ends_writeItems floats vs rest)
        have hmore := skipItems_writeItems vs (fun v hv => hitems v (by simp [hv])) hlen.2 rest
        have htext : write floats (.array (v :: vs)) ++ rest =
            '[' :: (write floats v ++ (writeItems floats false vs ++ rest)) := by
          simp [write, writeItems]
        have hspace := hkept.opens.skipSpace (writeItems floats false vs ++ rest)
        have hhead := (hkept.opens.head_ne (writeItems floats false vs ++ rest)).1
        rw [htext]
        generalize write floats v ++ (writeItems floats false vs ++ rest) = inner
          at hskip hspace hhead
        rw [skipValue, show skipSpace ('[' :: inner) = '[' :: inner by simp [skipSpace, isSpace]]
        simp [hspace, hhead, hskip, hmore]
    | .object [] => simp [write, writeEntries, skipValue, skipSpace, isSpace]
    | .object ((k, v) :: es) =>
      cases hv with
      | object hentries =>
        have hlen : (write floats v).length ≤ fuel ∧
            (writeEntries floats false es).length ≤ fuel := by
          simp [write, writeEntries] at hfuel
          omega
        have hskip := skipValue_write v (hentries (k, v) (by simp)) hlen.1
          (ends_writeEntries floats es rest)
        have hmore := skipEntries_writeEntries es (fun e he => hentries e (by simp [he])) hlen.2
          rest
        have htext : write floats (.object ((k, v) :: es)) ++ rest =
            '{' :: (writeString k.toList ++
              ':' :: (write floats v ++ (writeEntries floats false es ++ rest))) := by
          simp [write, writeEntries]
        have hkey := skipKey_writeString k.toList
          (write floats v ++ (writeEntries floats false es ++ rest))
        have hspace := skipSpace_writeString k.toList
          (':' :: (write floats v ++ (writeEntries floats false es ++ rest)))
        have hhead : (writeString k.toList ++ ':' :: (write floats v ++
            (writeEntries floats false es ++ rest))).head? ≠ some '}' := by
          simp [writeString]
        rw [htext]
        generalize writeString k.toList ++
          ':' :: (write floats v ++ (writeEntries floats false es ++ rest)) = inner
          at hkey hspace hhead
        rw [skipValue, show skipSpace ('{' :: inner) = '{' :: inner by simp [skipSpace, isSpace]]
        simp [hspace, hhead, hkey, hskip, hmore]

/-- The rest of an array is passed over. -/
lemma skipItems_writeItems {floats : Floats} (vs : List Value) (hvs : ∀ v ∈ vs, Kept floats v)
    {fuel : ℕ} (hfuel : (writeItems floats false vs).length ≤ fuel) (rest : List Char) :
    skipItems fuel (writeItems floats false vs ++ rest) = some rest := by
  match fuel with
  | 0 => cases vs <;> simp [writeItems] at hfuel
  | fuel + 1 =>
    match vs with
    | [] => simp [writeItems, skipItems, skipSpace, isSpace]
    | v :: vs =>
      have hlen : (write floats v).length ≤ fuel ∧
          (writeItems floats false vs).length ≤ fuel := by
        simp [writeItems] at hfuel
        omega
      have hskip := skipValue_write v (hvs v (by simp)) hlen.1 (ends_writeItems floats vs rest)
      have hmore := skipItems_writeItems vs (fun v hv => hvs v (by simp [hv])) hlen.2 rest
      simp [writeItems, skipItems, skipSpace, isSpace, hskip, hmore]

/-- The rest of an object is passed over. -/
lemma skipEntries_writeEntries {floats : Floats} (es : List (String × Value))
    (hes : ∀ e ∈ es, Kept floats e.2) {fuel : ℕ}
    (hfuel : (writeEntries floats false es).length ≤ fuel) (rest : List Char) :
    skipEntries fuel (writeEntries floats false es ++ rest) = some rest := by
  match fuel with
  | 0 => cases es <;> simp [writeEntries] at hfuel
  | fuel + 1 =>
    match es with
    | [] => simp [writeEntries, skipEntries, skipSpace, isSpace]
    | (k, v) :: es =>
      have hlen : (write floats v).length ≤ fuel ∧
          (writeEntries floats false es).length ≤ fuel := by
        simp [writeEntries] at hfuel
        omega
      have hskip := skipValue_write v (hes (k, v) (by simp)) hlen.1
        (ends_writeEntries floats es rest)
      have hmore := skipEntries_writeEntries es (fun e he => hes e (by simp [he])) hlen.2 rest
      have hkey := skipKey_writeString k.toList
        (write floats v ++ (writeEntries floats false es ++ rest))
      simp [writeEntries, skipEntries, skipSpace, isSpace, hkey, hskip, hmore]

end

/-! ### A struct that was written is read back -/

/-- The entries of a struct and its closing brace. -/
def writeFields (first : Bool) : List (String × List Char) → List Char
  | [] => ['}']
  | (name, text) :: fields =>
    (if first then [] else [',']) ++ writeString name.toList ++ ':' :: text ++
      writeFields false fields

/-- A struct: the names of its fields, and the text of each. -/
def writeStruct (fields : List (String × List Char)) : List Char := '{' :: writeFields true fields

/-- An entry of a struct as it was written: its name, the text of its value, and what the field's
own reader makes of that. -/
structure Member (α : Type) where
  name : String
  text : List Char
  read : Option α

/-- The entry as it is written. -/
def Member.written {α : Type} (m : Member α) : String × List Char := (m.name, m.text)

variable {α : Type} {names : List String} {field : String → Reader α} {depth : ℕ}

/-- An entry is what it says: its field reads it so, or it is some value nobody asked for. -/
def Member.Faithful (floats : Floats) (names : List String) (field : String → Reader α)
    (depth : ℕ) (m : Member α) : Prop :=
  if m.name ∈ names then
    ∀ rest, Ends rest → field m.name depth (m.text ++ rest) = m.read.map fun a => (a, rest)
  else ∃ v, Kept floats v ∧ m.text = write floats v

/-- The fields that are found in entries: none may fail, and none may come twice. -/
def collect (names : List String) : List (String × α) → List (Member α) →
    Option (List (String × α))
  | found, [] => some found
  | found, m :: ms =>
    if m.name ∈ names then
      if m.name ∈ found.map Prod.fst then none
      else m.read.bind fun a => collect names (found ++ [(m.name, a)]) ms
    else collect names found ms

/-- Entries that nobody asked for make no difference. -/
lemma collect_filter (found : List (String × α)) (ms : List (Member α)) :
    collect names found (ms.filter fun m => m.name ∈ names) = collect names found ms := by
  induction ms generalizing found with
  | nil => rfl
  | cons m ms ih =>
    by_cases hm : m.name ∈ names
    · simp [collect, hm, ih]
    · simp [collect, hm, ih]

lemma ends_writeFields (fields : List (String × List Char)) (rest : List Char) :
    Ends (writeFields false fields ++ rest) := by
  cases fields <;> simp [writeFields, Ends]

/-- One entry is read for what it is. -/
lemma readField_write {floats : Floats} {m : Member α} (hm : m.Faithful floats names field depth)
    (found : List (String × α)) {rest : List Char} (hrest : Ends rest) :
    readField names field depth found
        (writeString m.name.toList ++ ':' :: (m.text ++ rest)) =
      if m.name ∈ names then
        if m.name ∈ found.map Prod.fst then none
        else m.read.map fun a => (found ++ [(m.name, a)], rest)
      else some (found, rest) := by
  rw [readField, readKey_writeString]
  simp only [Option.bind_eq_bind, Option.bind_some]
  by_cases hname : m.name ∈ names
  · rw [if_pos hname, if_pos hname]
    rw [Member.Faithful, if_pos hname] at hm
    by_cases htwice : m.name ∈ found.map Prod.fst
    · rw [if_pos htwice, if_pos htwice]
    · rw [if_neg htwice, if_neg htwice, hm rest hrest]
      cases m.read <;> rfl
  · rw [if_neg hname, if_neg hname]
    rw [Member.Faithful, if_neg hname] at hm
    obtain ⟨v, hv, htext⟩ := hm
    have hfuel : (write floats v).length ≤ (write floats v ++ rest).length + 1 := by
      rw [List.length_append]
      omega
    rw [htext, skipValue_write v hv hfuel hrest]
    rfl

/-- One entry, and then those behind it. -/
lemma bind_collect {m : Member α} {ms : List (Member α)} {found : List (String × α)}
    {behind rest : List Char}
    {more : List (String × α) × List Char → Option (List (String × α) × List Char)}
    (hmore : ∀ found, more (found, behind) =
      (collect names found ms).map fun fields => (fields, rest)) :
    (if m.name ∈ names then
        if m.name ∈ found.map Prod.fst then none
        else m.read.map fun a => (found ++ [(m.name, a)], behind)
      else some (found, behind)).bind more =
      (collect names found (m :: ms)).map fun fields => (fields, rest) := by
  rw [collect]
  by_cases hname : m.name ∈ names
  · rw [if_pos hname, if_pos hname]
    by_cases htwice : m.name ∈ found.map Prod.fst
    · rw [if_pos htwice, if_pos htwice]
      rfl
    · rw [if_neg htwice, if_neg htwice]
      cases m.read with
      | none => rfl
      | some a => exact hmore (found ++ [(m.name, a)])
  · rw [if_neg hname, if_neg hname, Option.bind_some]
    exact hmore found

/-- The entries behind the first are read for what they are. -/
lemma readFields_writeFields {floats : Floats} {ms : List (Member α)}
    (hms : ∀ m ∈ ms, m.Faithful floats names field depth) {fuel : ℕ}
    (hfuel : (writeFields false (ms.map Member.written)).length ≤ fuel) (found : List (String × α))
    (rest : List Char) :
    readFields names field fuel depth found (writeFields false (ms.map Member.written) ++ rest) =
      (collect names found ms).map fun fields => (fields, rest) := by
  induction ms generalizing fuel found with
  | nil =>
    match fuel, hfuel with
    | fuel + 1, _ => simp [writeFields, readFields, skipSpace, isSpace, collect]
  | cons m ms ih =>
    match fuel, hfuel with
    | fuel + 1, hfuel =>
      have hlen : (writeFields false (ms.map Member.written)).length ≤ fuel := by
        simp [writeFields, Member.written] at hfuel
        omega
      have hread := readField_write (hms m (by simp)) found
        (ends_writeFields (ms.map Member.written) rest)
      have htext : writeFields false ((m :: ms).map Member.written) ++ rest =
          ',' :: (writeString m.name.toList ++
            ':' :: (m.text ++ (writeFields false (ms.map Member.written) ++ rest))) := by
        simp [writeFields, Member.written]
      rw [htext]
      generalize writeString m.name.toList ++
        ':' :: (m.text ++ (writeFields false (ms.map Member.written) ++ rest)) = inner at hread
      have hstep : readFields names field (fuel + 1) depth found (',' :: inner) =
          (readField names field depth found inner).bind fun p =>
            readFields names field fuel depth p.1 p.2 := by
        simp [readFields, skipSpace, isSpace]
      rw [hstep, hread]
      exact bind_collect fun found => ih (fun m hm => hms m (by simp [hm])) hlen found

/-- **Structs are read back.** The reader of a struct finds in the text of its entries the fields
they give, unless one fails or comes twice, or a container is one too many. -/
theorem readStruct_writeStruct {floats : Floats} {ms : List (Member α)}
    (hms : ∀ m ∈ ms, m.Faithful floats names field (depth - 1)) (rest : List Char) :
    readStruct names field depth (writeStruct (ms.map Member.written) ++ rest) =
      if depth ≤ 1 then none else (collect names [] ms).map fun fields => (fields, rest) := by
  have hbrace : ∀ inner, skipSpace ('{' :: inner) = '{' :: inner := fun inner => by
    simp [skipSpace, isSpace]
  rw [readStruct, writeStruct, List.cons_append, hbrace]
  by_cases hdeep : depth ≤ 1
  · simp [hdeep]
  cases ms with
  | nil => simp [hdeep, writeFields, skipSpace, isSpace, collect]
  | cons m ms =>
    have hmore : ∀ found, readFields names field
        (writeFields false (ms.map Member.written) ++ rest).length (depth - 1) found
        (writeFields false (ms.map Member.written) ++ rest) =
          (collect names found ms).map fun fields => (fields, rest) := by
      intro found
      refine readFields_writeFields (fun m hm => hms m (by simp [hm])) ?_ found rest
      rw [List.length_append]
      omega
    have hends := ends_writeFields (ms.map Member.written) rest
    have htext : writeFields true ((m :: ms).map Member.written) ++ rest =
        writeString m.name.toList ++
          ':' :: (m.text ++ (writeFields false (ms.map Member.written) ++ rest)) := by
      simp [writeFields, Member.written]
    rw [htext]
    generalize writeFields false (ms.map Member.written) ++ rest = behind at hends hmore
    have hread := readField_write (hms m (by simp)) [] hends
    have hskip := skipSpace_writeString m.name.toList (':' :: (m.text ++ behind))
    have hhead : (writeString m.name.toList ++ ':' :: (m.text ++ behind)).head? ≠ some '}' := by
      simp [writeString]
    generalize writeString m.name.toList ++ ':' :: (m.text ++ behind) = inner
      at hread hskip hhead
    simp only [hskip, hhead, hdeep, if_false, if_true, Char.reduceEq, Option.bind_eq_bind, hread]
    exact bind_collect hmore

/-! ### Whole texts -/

/-- A text is read for what its reader makes of it, if that takes it whole. -/
lemma parseText_ofList {read : Reader α} {text : List Char} {r : Option α}
    (h : read maxDepth text = r.map fun a => (a, [])) :
    parseText read (String.ofList text) = r := by
  rw [parseText, String.toList_ofList, h]
  cases r <;> rfl

/-- A string is read back. -/
lemma readText_writeString (s : String) (depth : ℕ) (rest : List Char) :
    readText depth (writeString s.toList ++ rest) = some (s, rest) := by
  rw [readText, readString_writeString, Option.map_some, String.ofList_toList]

/-- What is no string is not read as one. -/
lemma readText_write {floats : Floats} {v : Value} (hv : Kept floats v) (depth : ℕ)
    (rest : List Char) :
    readText depth (write floats v ++ rest) =
      match v with
      | .string s => some (s, rest)
      | _ => none := by
  cases hv with
  | null => simp [write, readText, readString, skipSpace, isSpace]
  | bool b => cases b <;> simp [write, readText, readString, skipSpace, isSpace]
  | number hn =>
    obtain ⟨c, cs, htext, hc⟩ := exists_writeNumber hn
    have hquote : c ≠ '"' := by
      rcases hc with rfl | hc
      · decide
      · rintro rfl
        exact absurd hc (by decide)
    simp [write, htext, readText, readString, skipSpace, (isSpace_of_isDigit hc).1, hquote]
  | string s => exact readText_writeString s depth rest
  | array _ => simp [write, readText, readString, skipSpace, isSpace]
  | object _ => simp [write, readText, readString, skipSpace, isSpace]

/-- An object is written as a struct is. -/
lemma write_object (floats : Floats) (es : List (String × Value)) :
    write floats (.object es) = writeStruct (es.map fun e => (e.1, write floats e.2)) := by
  have hentries : ∀ first, writeEntries floats first es =
      writeFields first (es.map fun e => (e.1, write floats e.2)) := by
    induction es with
    | nil => intro first; rfl
    | cons e es ih =>
      intro first
      rw [writeEntries, List.map_cons, writeFields, ih]
  rw [write, writeStruct, hentries]

end Json
