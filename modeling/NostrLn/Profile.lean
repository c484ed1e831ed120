import NostrLn.Lib.HashMap
import NostrLn.Limit

/-!
# `UsageProfile`: what a grant says a controller may do

Three permission maps and a quota, denying by default. The maps are alike and are read by one
`lookup`; which of them a question is put to is decided by the caller.
-/

namespace NostrLn

/-- The key meaning "everything not named": as a method, and as a controller. -/
def othersKey : String := "OTHERS"

/-- What a grant says about one method. -/
structure MethodAccessRule where
  rate : Option RateLimitRule
deriving DecidableEq

/-- Why a call is not allowed. -/
inductive Denied
  | unauthorized
  | restricted
deriving DecidableEq

/-- One of the permission maps. -/
abbrev AccessMap := HashMap String MethodAccessRule

/-- The permissions a grant carries. -/
structure UsageProfile where
  methods : Option AccessMap
  control : Option AccessMap
  notifications : Option AccessMap
  quota : Option RateLimitRule

/-- The empty profile: nothing is permitted. -/
instance : Inhabited UsageProfile where
  default := { methods := none, control := none, notifications := none, quota := none }

/-- The entry that governs a name: its own before that of `OTHERS`. -/
def matched (map : AccessMap) (name : String) : Option MethodAccessRule :=
  (map.lookup name).or (map.lookup othersKey)

/-- The rate of the entry that governs a name, if the name is permitted at all. -/
def lookup (map : Option AccessMap) (name : String) : Except Denied (Option RateLimitRule) :=
  match map with
  | none => .error .restricted
  | some map =>
    match matched map name with
    | none => .error .restricted
    | some rule => .ok rule.rate

/-- Every rate in the map is usable. -/
def rulesOk (map : Option AccessMap) : Bool :=
  map.all fun m => (HashMap.values m).all fun r => r.rate.all RateLimitRule.isValid

/-- Every rate in the profile, and its quota, is usable. -/
def UsageProfile.isValid (p : UsageProfile) : Bool :=
  rulesOk p.methods && rulesOk p.control && rulesOk p.notifications &&
    p.quota.all RateLimitRule.isValid

/-- A profile that is not valid does not apply at all. -/
def UsageProfile.guard (p : UsageProfile) : Except Denied Unit :=
  if p.isValid then .ok () else .error .unauthorized

/-- The rate rule for an NWC method, if it is permitted; `ok none` is permitted without limit. -/
def UsageProfile.allowsWallet (p : UsageProfile) (method : String) :
    Except Denied (Option RateLimitRule) := do
  p.guard
  lookup p.methods method

/-- The same, for an NNC control method. -/
def UsageProfile.allowsControl (p : UsageProfile) (method : String) :
    Except Denied (Option RateLimitRule) := do
  p.guard
  lookup p.control method

/-- Whether this controller may receive a notification type. -/
def UsageProfile.allowsNotification (p : UsageProfile) (notificationType : String) : Bool :=
  p.guard.isOk && (lookup p.notifications notificationType).isOk

/-- No permissions of any kind. -/
def UsageProfile.isEmpty (p : UsageProfile) : Bool :=
  let none := fun m : Option AccessMap => m.all fun m => m.entries.isEmpty
  none p.methods && none p.control && none p.notifications

/-! ### What the checks say -/

lemma matched_isSome_iff {m : AccessMap} {name : String} :
    (matched m name).isSome ↔ name ∈ m ∨ othersKey ∈ m := by
  simp [matched, AList.lookup_isSome]

lemma rulesOk_iff {map : Option AccessMap} :
    rulesOk map = true ↔
      ∀ m ∈ map, ∀ name entry, m.lookup name = some entry → ∀ rule ∈ entry.rate, 0 < rule.perSecs := by
  match map with
  | none => simp [rulesOk]
  | some m =>
    simp only [rulesOk, Option.all_some, List.all_eq_true, HashMap.mem_values_iff, Option.all_eq_true,
      RateLimitRule.isValid, decide_eq_true_eq, Option.mem_def, Option.some.injEq, forall_eq']
    constructor
    · intro h name entry hentry rule hrule
      exact h entry ⟨name, hentry⟩ rule hrule
    · rintro h entry ⟨name, hentry⟩ rule hrule
      exact h name entry hentry rule hrule

/-- A valid profile has no rule with a period of zero, in any of its maps or its quota. -/
lemma UsageProfile.isValid_iff {p : UsageProfile} :
    p.isValid = true ↔
      (∀ map ∈ [p.methods, p.control, p.notifications], ∀ m ∈ map, ∀ name entry,
        m.lookup name = some entry → ∀ rule ∈ entry.rate, 0 < rule.perSecs) ∧
      ∀ rule ∈ p.quota, 0 < rule.perSecs := by
  simp only [UsageProfile.isValid, Bool.and_eq_true, rulesOk_iff, Option.all_eq_true,
    RateLimitRule.isValid, decide_eq_true_eq, List.forall_mem_cons, List.not_mem_nil,
    false_implies, implies_true, and_true, and_assoc, Option.mem_def]

/-- An invalid profile denies everything, as `UNAUTHORIZED`. -/
lemma UsageProfile.allowsWallet_eq (p : UsageProfile) (method : String) :
    p.allowsWallet method =
      if p.isValid then lookup p.methods method else .error .unauthorized := by
  rw [UsageProfile.allowsWallet, UsageProfile.guard]
  split <;> rfl

lemma UsageProfile.allowsControl_eq (p : UsageProfile) (method : String) :
    p.allowsControl method =
      if p.isValid then lookup p.control method else .error .unauthorized := by
  rw [UsageProfile.allowsControl, UsageProfile.guard]
  split <;> rfl

/-- What a profile permits: it is valid, and the map names this, or `OTHERS`. -/
def UsageProfile.Permits (p : UsageProfile) (map : Option AccessMap) (name : String) : Prop :=
  p.isValid = true ∧ ∃ m, map = some m ∧ (name ∈ m ∨ othersKey ∈ m)

lemma lookup_isOk_iff {map : Option AccessMap} {name : String} :
    (lookup map name).isOk = true ↔ ∃ m, map = some m ∧ (name ∈ m ∨ othersKey ∈ m) := by
  match map with
  | none => simp [lookup, Except.isOk, Except.toBool]
  | some m =>
    simp only [Option.some.injEq, exists_eq_left', ← matched_isSome_iff]
    cases h : matched m name <;> simp [lookup, h, Except.isOk, Except.toBool]

lemma UsageProfile.allowsNotification_iff {p : UsageProfile} {ty : String} :
    p.allowsNotification ty = true ↔ p.Permits p.notifications ty := by
  rw [UsageProfile.allowsNotification, Bool.and_eq_true, lookup_isOk_iff, UsageProfile.Permits]
  cases h : p.isValid <;> simp [UsageProfile.guard, h, Except.isOk, Except.toBool]

end NostrLn
