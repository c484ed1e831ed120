import NostrLn.Lib.JsonMap
import NostrLn.Profile

/-!
# The text of a profile

A grant carries a profile as JSON, and the node reads it as it stands. What is missing in a rule has
its default; what is missing in a profile is not granted; and what nobody knows is passed over.
-/

namespace NostrLn

open Serde Json

/-! ### Reading -/

/-- A `u64`: no sign, no fraction and no exponent. -/
def readU64 (floats : Floats) : Reader UInt64 := fun _ cs =>
  match readNumber floats (skipSpace cs) with
  | some (.posInt n, rest) => some (n, rest)
  | _ => none

/-- A rule, from the fields that are there. -/
def RateLimitRule.ofFields (fields : List (String × UInt64)) : RateLimitRule where
  amount := (fields.lookup "amount").getD 0
  perSecs := (fields.lookup "per_secs").getD 1
  maxCapacity := (fields.lookup "max_capacity").getD (UInt64.ofNat (2 ^ 64 - 1))

/-- A rule. -/
def readRule (floats : Floats) : Reader RateLimitRule := fun depth cs =>
  (readStruct ["amount", "per_secs", "max_capacity"] (fun _ => readU64 floats) depth cs).map
    fun p => (.ofFields p.1, p.2)

/-- What is said about one method. -/
def readAccess (floats : Floats) : Reader MethodAccessRule := fun depth cs =>
  (readStruct ["rate"] (fun _ => readOption (readRule floats)) depth cs).map
    fun p => ({ rate := (p.1.lookup "rate").join }, p.2)

/-- The map that is made of entries as they come. -/
def AccessMap.ofEntries (es : List (String × MethodAccessRule)) : AccessMap :=
  es.foldl (fun m e => m.insert e.1 e.2) ∅

/-- A permission map. -/
def readAccessMap (floats : Floats) : Reader AccessMap := fun depth cs =>
  (readMap (readAccess floats) depth cs).map fun p => (.ofEntries p.1, p.2)

/-- What stands in a field of a profile. -/
inductive ProfilePart
  | map (m : Option AccessMap)
  | rule (r : Option RateLimitRule)

/-- The fields of a profile. -/
def profileField (floats : Floats) (name : String) : Reader ProfilePart := fun depth cs =>
  if name = "quota" then
    (readOption (readRule floats) depth cs).map fun p => (.rule p.1, p.2)
  else (readOption (readAccessMap floats) depth cs).map fun p => (.map p.1, p.2)

/-- The map in a field. -/
def mapIn (name : String) (fields : List (String × ProfilePart)) : Option AccessMap :=
  match fields.lookup name with
  | some (.map m) => m
  | _ => none

/-- A profile, from the fields that are there. -/
def UsageProfile.ofFields (fields : List (String × ProfilePart)) : UsageProfile where
  methods := mapIn "methods" fields
  control := mapIn "control" fields
  notifications := mapIn "notifications" fields
  quota :=
    match fields.lookup "quota" with
    | some (.rule r) => r
    | _ => none

/-- A profile. -/
def readUsageProfile (floats : Floats) : Reader UsageProfile := fun depth cs =>
  (readStruct ["methods", "control", "notifications", "quota"] (profileField floats) depth cs).map
    fun p => (.ofFields p.1, p.2)

/-! ### Writing -/

/-- The text of a rule: every field is written. -/
def RateLimitRule.write (rule : RateLimitRule) : List Char :=
  writeStruct [("amount", Nat.toDigits 10 rule.amount.toNat),
    ("per_secs", Nat.toDigits 10 rule.perSecs.toNat),
    ("max_capacity", Nat.toDigits 10 rule.maxCapacity.toNat)]

/-- The text of what is said about one method. -/
def MethodAccessRule.write (access : MethodAccessRule) : List Char :=
  writeStruct (access.rate.map fun rule => ("rate", rule.write)).toList

/-- The entries of a map, in the order of its iteration. -/
def AccessMap.toEntries (m : AccessMap) : List (String × MethodAccessRule) :=
  m.entries.map fun e => (e.1, e.2)

/-- The text of a permission map. -/
def AccessMap.write (m : AccessMap) : List Char :=
  writeStruct (m.toEntries.map fun e => (e.1, e.2.write))

/-- The text of a profile: what is absent is not written. -/
def UsageProfile.render (p : UsageProfile) : String :=
  String.ofList (writeStruct (
    (p.methods.map fun m => ("methods", m.write)).toList ++
    (p.control.map fun m => ("control", m.write)).toList ++
    (p.notifications.map fun m => ("notifications", m.write)).toList ++
    (p.quota.map fun r => ("quota", r.write)).toList))

/-! ### Profiles are read back -/

section

variable (floats : Floats) {depth : ℕ} {rest : List Char}

lemma readU64_write (n : UInt64) (hrest : Ends rest) :
    readU64 floats depth (Nat.toDigits 10 n.toNat ++ rest) = some (n, rest) := by
  have hkept : Kept floats (.number (.posInt n)) := .number trivial
  have hopens := hkept.opens.skipSpace rest
  have hread : readNumber floats (Nat.toDigits 10 n.toNat ++ rest) = some (.posInt n, rest) :=
    readNumber_writeNumber (n := .posInt n) trivial hrest
  have htext : Json.write floats (.number (.posInt n)) = Nat.toDigits 10 n.toNat := rfl
  rw [htext] at hopens
  rw [readU64, hopens, hread]

/-- What is written in braces is not `null`. -/
lemma readOption_brace {α : Type} (read : Reader α) (fields : List (String × List Char)) :
    readOption read depth (writeStruct fields ++ rest) =
      (read depth (writeStruct fields ++ rest)).map fun p => (some p.1, p.2) := by
  have hhead : (skipSpace (writeStruct fields ++ rest)).head? ≠ some 'n' := by
    simp [writeStruct, skipSpace, isSpace]
  rw [readOption, if_neg hhead]

/-- What the reader of a rule makes of its entries. -/
def RateLimitRule.members (rule : RateLimitRule) : List (Member UInt64) :=
  [{ name := "amount", text := Nat.toDigits 10 rule.amount.toNat, read := some rule.amount },
   { name := "per_secs", text := Nat.toDigits 10 rule.perSecs.toNat, read := some rule.perSecs },
   { name := "max_capacity", text := Nat.toDigits 10 rule.maxCapacity.toNat
     read := some rule.maxCapacity }]

lemma readRule_write (rule : RateLimitRule) (hdepth : 2 ≤ depth) (rest : List Char) :
    readRule floats depth (rule.write ++ rest) = some (rule, rest) := by
  have hfaithful : ∀ m ∈ rule.members, m.Faithful floats ["amount", "per_secs", "max_capacity"]
      (fun _ => readU64 floats) (depth - 1) := by
    intro m hm
    simp only [RateLimitRule.members, List.mem_cons, List.not_mem_nil, or_false] at hm
    rcases hm with rfl | rfl | rfl <;>
    · rw [Member.Faithful, if_pos (by simp)]
      intro rest hrest
      exact readU64_write floats _ hrest
  have hread := readStruct_writeStruct hfaithful rest
  have hwrite : rule.write = writeStruct (rule.members.map Member.written) := rfl
  have hfound : collect ["amount", "per_secs", "max_capacity"] [] rule.members =
      some [("amount", rule.amount), ("per_secs", rule.perSecs),
        ("max_capacity", rule.maxCapacity)] := by
    simp [collect, RateLimitRule.members]
  rw [if_neg (by omega), hfound] at hread
  rw [readRule, hwrite, hread]
  rfl

/-- What the reader of an access rule makes of its entry. -/
def MethodAccessRule.members (access : MethodAccessRule) : List (Member (Option RateLimitRule)) :=
  (access.rate.map fun rule =>
    { name := "rate", text := rule.write, read := some (some rule) }).toList

lemma readAccess_write (access : MethodAccessRule) (hdepth : 3 ≤ depth) (rest : List Char) :
    readAccess floats depth (access.write ++ rest) = some (access, rest) := by
  have hfaithful : ∀ m ∈ access.members, m.Faithful floats ["rate"]
      (fun _ => readOption (readRule floats)) (depth - 1) := by
    intro m hm
    simp only [MethodAccessRule.members, Option.mem_toList, Option.map_eq_some_iff] at hm
    obtain ⟨rule, _, rfl⟩ := hm
    rw [Member.Faithful, if_pos (by simp)]
    intro rest _
    have hrule := readRule_write floats rule (show 2 ≤ depth - 1 by omega) rest
    rw [RateLimitRule.write] at hrule
    rw [RateLimitRule.write, readOption_brace, hrule]
    rfl
  have hread := readStruct_writeStruct hfaithful rest
  have hwrite : access.write = writeStruct (access.members.map Member.written) := by
    rw [MethodAccessRule.write, MethodAccessRule.members]
    cases access.rate <;> rfl
  rw [if_neg (by omega)] at hread
  rw [readAccess, hwrite, hread]
  obtain ⟨rate⟩ := access
  cases rate <;> rfl

lemma readAccessMap_write (m : AccessMap) (hdepth : 4 ≤ depth) (rest : List Char) :
    readAccessMap floats depth (m.write ++ rest) = some (.ofEntries m.toEntries, rest) := by
  have hread := @readMap_writeStruct _ (readAccess floats) depth MethodAccessRule.write m.toEntries
    (fun e _ rest _ => readAccess_write floats e.2 (by omega) rest) rest
  rw [if_neg (by omega)] at hread
  rw [readAccessMap, AccessMap.write, hread]
  rfl

/-- What the reader of a profile makes of a map under a name. -/
def AccessMap.member (name : String) (m : AccessMap) : Member ProfilePart where
  name := name
  text := m.write
  read := some (.map (some (.ofEntries m.toEntries)))

/-- What it makes of a quota. -/
def RateLimitRule.member (rule : RateLimitRule) : Member ProfilePart where
  name := "quota"
  text := rule.write
  read := some (.rule (some rule))

def UsageProfile.members (p : UsageProfile) : List (Member ProfilePart) :=
  (p.methods.map (AccessMap.member "methods")).toList ++
    (p.control.map (AccessMap.member "control")).toList ++
    (p.notifications.map (AccessMap.member "notifications")).toList ++
    (p.quota.map RateLimitRule.member).toList

lemma AccessMap.member_faithful (m : AccessMap) {name : String}
    (hname : name ∈ ["methods", "control", "notifications"]) :
    (AccessMap.member name m).Faithful floats ["methods", "control", "notifications", "quota"]
      (profileField floats) 127 := by
  have hquota : name ≠ "quota" := by
    rintro rfl
    exact absurd hname (by decide)
  have hmem : name ∈ ["methods", "control", "notifications", "quota"] := by
    simp only [List.mem_cons, List.not_mem_nil, or_false] at hname ⊢
    tauto
  rw [Member.Faithful, AccessMap.member, if_pos hmem]
  intro rest _
  have hread := readAccessMap_write floats m (show 4 ≤ 127 by decide) rest
  rw [AccessMap.write] at hread ⊢
  rw [profileField, if_neg hquota, readOption_brace, hread]
  rfl

lemma RateLimitRule.member_faithful (rule : RateLimitRule) :
    rule.member.Faithful floats ["methods", "control", "notifications", "quota"]
      (profileField floats) 127 := by
  rw [Member.Faithful, RateLimitRule.member, if_pos (by simp)]
  intro rest _
  have hread := readRule_write floats rule (show 2 ≤ 127 by decide) rest
  rw [RateLimitRule.write] at hread ⊢
  rw [profileField, if_pos rfl, readOption_brace, hread]
  rfl

lemma UsageProfile.members_faithful (p : UsageProfile) :
    ∀ m ∈ p.members, m.Faithful floats ["methods", "control", "notifications", "quota"]
      (profileField floats) (maxDepth - 1) := by
  intro m hm
  simp only [UsageProfile.members, List.mem_append, Option.mem_toList,
    Option.map_eq_some_iff] at hm
  rcases hm with ((⟨map, _, rfl⟩ | ⟨map, _, rfl⟩) | ⟨map, _, rfl⟩) | ⟨rule, _, rfl⟩
  · exact map.member_faithful floats (by simp)
  · exact map.member_faithful floats (by simp)
  · exact map.member_faithful floats (by simp)
  · exact rule.member_faithful floats

/-- The profile as it is read back: each map is made anew. -/
def UsageProfile.reread (p : UsageProfile) : UsageProfile where
  methods := p.methods.map fun m => .ofEntries m.toEntries
  control := p.control.map fun m => .ofEntries m.toEntries
  notifications := p.notifications.map fun m => .ofEntries m.toEntries
  quota := p.quota

lemma UsageProfile.collect_members (p : UsageProfile) :
    (collect ["methods", "control", "notifications", "quota"] [] p.members).map
      UsageProfile.ofFields = some p.reread := by
  obtain ⟨methods, control, notifications, quota⟩ := p
  cases methods <;> cases control <;> cases notifications <;> cases quota <;> rfl

lemma parseProfile_render (p : UsageProfile) :
    parseText (readUsageProfile floats) p.render = some p.reread := by
  have hread := readStruct_writeStruct (p.members_faithful floats) []
  rw [if_neg (by decide), List.append_nil] at hread
  have hwrite : p.render = String.ofList (writeStruct (p.members.map Member.written)) := by
    rw [UsageProfile.render, UsageProfile.members]
    cases p.methods <;> cases p.control <;> cases p.notifications <;> cases p.quota <;> rfl
  rw [hwrite, ← p.collect_members]
  refine parseText_ofList ?_
  rw [readUsageProfile, hread]
  cases collect ["methods", "control", "notifications", "quota"] [] p.members <;> rfl

end

/-! ### Sample reader -/

namespace Sample

/-- No number in these samples is a float. -/
def noFloats : Floats where
  write _ := []
  read _ := none

end Sample

end NostrLn
