import NostrLn.Lib.JsonStruct

/-!
# Maps read from text

A map takes whatever keys there are, and reads all values alike. Of a key that comes twice, the last
value is the one that stays.
-/

namespace Json

open Text Serde

/-- One entry of a map. -/
def readEntry {α : Type} (read : Reader α) (depth : ℕ) (cs : List Char) :
    Option ((String × α) × List Char) := do
  let (k, cs) ← readKey cs
  let (a, cs) ← read depth cs
  return ((k, a), cs)

/-- The entries of a map behind the first. -/
def readMore {α : Type} (read : Reader α) :
    ℕ → ℕ → List Char → Option (List (String × α) × List Char)
  | 0, _, _ => none
  | fuel + 1, depth, cs =>
    match skipSpace cs with
    | [] => none
    | c :: rest =>
      if c = '}' then some ([], rest)
      else if c = ',' then do
        let (e, rest) ← readEntry read depth rest
        let (es, rest) ← readMore read fuel depth rest
        return (e :: es, rest)
      else none

/-- The entries of a map, in the order they come. -/
def readMap {α : Type} (read : Reader α) : Reader (List (String × α)) := fun depth cs =>
  match skipSpace cs with
  | [] => none
  | c :: rest =>
    if c = '{' then
      if depth ≤ 1 then none
      else if (skipSpace rest).head? = some '}' then some ([], (skipSpace rest).tail)
      else do
        let (e, rest) ← readEntry read (depth - 1) rest
        let (es, rest) ← readMore read rest.length (depth - 1) rest
        return (e :: es, rest)
    else none

/-! ### Maps are read back -/

section

variable {α : Type} {read : Reader α} {depth : ℕ} {text : α → List Char}

lemma readEntry_write {e : String × α}
    (he : ∀ rest, Ends rest → read depth (text e.2 ++ rest) = some (e.2, rest)) {rest : List Char}
    (hrest : Ends rest) :
    readEntry read depth (writeString e.1.toList ++ ':' :: (text e.2 ++ rest)) =
      some (e, rest) := by
  rw [readEntry, readKey_writeString]
  simp only [Option.bind_eq_bind, Option.bind_some, he rest hrest]
  rfl

lemma readMore_writeFields {es : List (String × α)}
    (hes : ∀ e ∈ es, ∀ rest, Ends rest → read depth (text e.2 ++ rest) = some (e.2, rest))
    {fuel : ℕ} (hfuel : (writeFields false (es.map fun e => (e.1, text e.2))).length ≤ fuel)
    (rest : List Char) :
    readMore read fuel depth (writeFields false (es.map fun e => (e.1, text e.2)) ++ rest) =
      some (es, rest) := by
  induction es generalizing fuel with
  | nil =>
    obtain ⟨fuel, rfl⟩ := Nat.exists_eq_add_one.mpr (lt_of_lt_of_le (by simp [writeFields]) hfuel)
    simp [writeFields, readMore, skipSpace, isSpace]
  | cons e es ih =>
    obtain ⟨fuel, rfl⟩ := Nat.exists_eq_add_one.mpr (lt_of_lt_of_le (by simp [writeFields]) hfuel)
    have hlen : (writeFields false (es.map fun e => (e.1, text e.2))).length ≤ fuel := by
      simp [writeFields] at hfuel
      omega
    have hread := readEntry_write (hes e (by simp))
      (ends_writeFields (es.map fun e => (e.1, text e.2)) rest)
    have hmore := ih (fun e he => hes e (by simp [he])) hlen
    have htext : writeFields false ((e :: es).map fun e => (e.1, text e.2)) ++ rest =
        ',' :: (writeString e.1.toList ++ ':' ::
          (text e.2 ++ (writeFields false (es.map fun e => (e.1, text e.2)) ++ rest))) := by
      simp [writeFields]
    rw [htext]
    generalize writeString e.1.toList ++
      ':' :: (text e.2 ++ (writeFields false (es.map fun e => (e.1, text e.2)) ++ rest)) = inner
      at hread
    simp [readMore, skipSpace, isSpace, hread, hmore]

/-- **Maps are read back.** The reader of a map finds in the text of its entries these entries, if
their values are read back, unless a container is one too many. -/
theorem readMap_writeStruct {es : List (String × α)}
    (hes : ∀ e ∈ es, ∀ rest, Ends rest →
      read (depth - 1) (text e.2 ++ rest) = some (e.2, rest)) (rest : List Char) :
    readMap read depth (writeStruct (es.map fun e => (e.1, text e.2)) ++ rest) =
      if depth ≤ 1 then none else some (es, rest) := by
  have hbrace : ∀ inner, skipSpace ('{' :: inner) = '{' :: inner := fun inner => by
    simp [skipSpace, isSpace]
  rw [readMap, writeStruct, List.cons_append, hbrace]
  by_cases hdeep : depth ≤ 1
  · simp [hdeep]
  cases es with
  | nil => simp [hdeep, writeFields, skipSpace, isSpace]
  | cons e es =>
    have hmore : readMore read
        (writeFields false (es.map fun e => (e.1, text e.2)) ++ rest).length (depth - 1)
        (writeFields false (es.map fun e => (e.1, text e.2)) ++ rest) = some (es, rest) := by
      refine readMore_writeFields (fun e he => hes e (by simp [he])) ?_ rest
      rw [List.length_append]
      omega
    have hends := ends_writeFields (es.map fun e => (e.1, text e.2)) rest
    have htext : writeFields true ((e :: es).map fun e => (e.1, text e.2)) ++ rest =
        writeString e.1.toList ++
          ':' :: (text e.2 ++ (writeFields false (es.map fun e => (e.1, text e.2)) ++ rest)) := by
      simp [writeFields]
    rw [htext]
    generalize writeFields false (es.map fun e => (e.1, text e.2)) ++ rest = behind at hends hmore
    have hread := readEntry_write (hes e (by simp)) hends
    have hskip := skipSpace_writeString e.1.toList (':' :: (text e.2 ++ behind))
    have hhead : (writeString e.1.toList ++ ':' :: (text e.2 ++ behind)).head? ≠ some '}' := by
      simp [writeString]
    generalize writeString e.1.toList ++ ':' :: (text e.2 ++ behind) = inner at hread hskip hhead
    simp [hskip, hhead, hdeep, hread, hmore]

end

end Json
