import NostrLn.Service.Pipeline

/-!
# Complete mediation

Nothing is prepared for a caller, and nothing is executed, unless every check before it has passed.
The checks are written out as a list of conditions in the order of the steps; the first that fails
is the one the caller hears about.
-/

namespace NostrLn

open Serde

variable {explain : Explain} {q : Request} {u : Usage}

/-- What has been established when a handler is asked to prepare: `u` are the buckets before the
request and `u'` those after it. -/
structure Admitted (q : Request) (u u' : Usage) (g : VerifiedGrant) : Prop where
  implemented : q.name ∈ q.handler.methods
  resolved : q.grants.resolve q.controller = .ok g
  own_or_others : q.grants.getRaw q.controller.toHex = some g ∨
    (q.grants.getRaw q.controller.toHex = none ∧ q.grants.getRaw othersKey = some g)
  rates_valid : ∀ map ∈ [g.profile.methods, g.profile.control, g.profile.notifications],
    ∀ m ∈ map, ∀ name entry, m.lookup name = some entry → ∀ rule ∈ entry.rate, 0 < rule.perSecs
  quota_valid : ∀ rule ∈ g.profile.quota, 0 < rule.perSecs
  permitted : ∃ m entry, q.handler.accessMap g.profile = some m ∧ (q.name ∈ m ∨ othersKey ∈ m) ∧
    (m.lookup q.name).or (m.lookup othersKey) = some entry ∧
    ∀ rule ∈ entry.rate, 1 ≤ (u.rateBucket q.controller q.name rule q.now).balanceAt q.now rule ∧
      u'.rate.lookup (q.controller.toHex, q.name) = some
        { balance := (u.rateBucket q.controller q.name rule q.now).balanceAt q.now rule - 1
          since := q.now }
  decodes : ∃ request, q.handler.requestType q.method = .ok request ∧
    (decode request q.params).isSome

/-! ### The conditions, in order -/

/-- A check, and what the caller is told if it fails. -/
structure Condition where
  holds : Bool
  error : NncError

/-- What the caller is told: the error of the first check that fails. -/
def firstFailure (conditions : List Condition) : Option NncError :=
  (conditions.find? fun c => !c.holds).map Condition.error

@[simp] lemma firstFailure_nil : firstFailure [] = none := rfl

@[simp] lemma firstFailure_cons_true (e : NncError) (cs : List Condition) :
    firstFailure ({ holds := true, error := e } :: cs) = firstFailure cs := rfl

@[simp] lemma firstFailure_cons_false (e : NncError) (cs : List Condition) :
    firstFailure ({ holds := false, error := e } :: cs) = some e := rfl

/-- The profile in force for the caller; the empty one if no grant applies. -/
def Request.profile (q : Request) : UsageProfile :=
  match q.grants.resolve q.controller with
  | .ok g => g.profile
  | .error _ => default

/-- The entry that governs the request, in the map of its own protocol. -/
def Request.entry (q : Request) : Option MethodAccessRule :=
  (q.handler.accessMap q.profile).bind fun m => (m.lookup q.name).or (m.lookup othersKey)

/-- The parameters decode as the method's request type. -/
def Request.decodes (q : Request) : Bool :=
  match q.handler.requestType q.method with
  | .ok request => (decode request q.params).isSome
  | .error _ => false

/-- What is said about parameters that do not. -/
def Request.malformed (explain : Explain) (q : Request) : NncError :=
  match q.handler.requestType q.method with
  | .ok request => .badParams (explain request q.params)
  | .error name => .notImplemented name

/-- The conditions that depend on the request alone, in the order they are checked. -/
def Request.admission (explain : Explain) (q : Request) : List Condition :=
  [{ holds := q.name ∈ q.handler.methods, error := .notImplemented q.name },
   { holds := (q.grants.resolve q.controller).isOk, error := deny .unauthorized },
   { holds := q.profile.isValid, error := deny .unauthorized },
   { holds := q.entry.isSome, error := deny .restricted },
   { holds := q.decodes, error := q.malformed explain }]

/-- The last condition before anything is prepared: a token for the call, if it is limited. -/
def Request.rateCondition (q : Request) (u : Usage) : Condition where
  holds := q.entry.all fun entry => entry.rate.all fun rule =>
    1 ≤ (u.rateBucket q.controller q.name rule q.now).balanceAt q.now rule
  error := .rateLimited q.name

/-- The conditions for a request to be prepared, in the order they are checked. -/
def Request.conditions (explain : Explain) (q : Request) (u : Usage) : List Condition :=
  q.admission explain ++ [q.rateCondition u]

lemma validate_eq (explain : Explain) (q : Request) :
    validate explain q.handler q.method q.params =
      if q.decodes then .ok () else .error (q.malformed explain) := by
  rw [validate, Request.decodes, Request.malformed]
  cases q.handler.requestType q.method with
  | error name => rfl
  | ok request =>
    simp only [check]
    cases decode request q.params <;> rfl

lemma lookup_eq (q : Request) :
    lookup (q.handler.accessMap q.profile) q.name =
      match q.entry with
      | some entry => .ok entry.rate
      | none => .error .restricted := by
  simp only [lookup, matched, Request.entry]
  cases q.handler.accessMap q.profile with
  | none => rfl
  | some m => cases h : (m.lookup q.name).or (m.lookup othersKey) <;> simp [h]

/-- Admission answers with the first condition that fails. -/
lemma Request.vet_eq (explain : Explain) (q : Request) :
    q.vet explain =
      match firstFailure (q.admission explain) with
      | some e => .error e
      | none => .ok (q.profile, q.entry.bind MethodAccessRule.rate) := by
  have hname : q.name = q.method.asStr := rfl
  have hlookup := lookup_eq q
  rw [Request.vet, NostrLn.vet, Request.admission]
  simp only [← hname, validate_eq, Handler.allows_eq, Handler.implements, List.contains_eq_mem]
  by_cases himpl : q.name ∈ q.handler.methods
  case neg => simp [himpl]
  simp only [himpl, decide_true, Bool.not_true, Bool.false_eq_true, if_false,
    firstFailure_cons_true]
  cases hgrant : q.grants.resolve q.controller with
  | error d =>
    have : d = .unauthorized := Grants.resolve_eq_error hgrant
    rw [this]
    rfl
  | ok g =>
    have hprofile : q.profile = g.profile := by simp [Request.profile, hgrant]
    rw [hprofile] at hlookup ⊢
    simp only [Except.isOk, Except.toBool, firstFailure_cons_true]
    cases hvalid : g.profile.isValid with
    | false => simp
    | true =>
      simp only [if_true, hlookup, firstFailure_cons_true]
      cases hentry : q.entry with
      | none => simp
      | some entry =>
        cases hdec : q.decodes with
        | false => simp
        | true => simp

lemma firstFailure_append (cs cs' : List Condition) :
    firstFailure (cs ++ cs') = (firstFailure cs).or (firstFailure cs') := by
  simp [firstFailure, List.find?_append, Option.map_or]

lemma firstFailure_eq_none_iff {cs : List Condition} :
    firstFailure cs = none ↔ ∀ c ∈ cs, c.holds = true := by
  simp [firstFailure]

lemma Request.vet_eq_ok_iff {profile : UsageProfile} {rule : Option RateLimitRule} :
    q.vet explain = .ok (profile, rule) ↔
      firstFailure (q.admission explain) = none ∧ q.profile = profile ∧
        q.entry.bind MethodAccessRule.rate = rule := by
  rw [q.vet_eq]
  cases firstFailure (q.admission explain) <;> simp

/-- What an admitted request has shown. -/
lemma Request.admission_holds (h : firstFailure (q.admission explain) = none) :
    q.name ∈ q.handler.methods ∧ (q.grants.resolve q.controller).isOk = true ∧
      q.profile.isValid = true ∧ q.entry.isSome = true ∧ q.decodes = true := by
  simpa [Request.admission, firstFailure_eq_none_iff] using h

/-- The grant whose profile an admitted request was judged by. -/
lemma Request.exists_grant (h : (q.grants.resolve q.controller).isOk = true) :
    ∃ g, q.grants.resolve q.controller = .ok g ∧ q.profile = g.profile := by
  cases hg : q.grants.resolve q.controller with
  | error d => rw [hg] at h; cases h
  | ok g => exact ⟨g, rfl, by simp [Request.profile, hg]⟩

/-- The rate step passes when there is a token to be had, and then takes exactly one. -/
lemma Request.limitRate_eq (q : Request) (u : Usage) :
    ((q.rateCondition u).holds = false ∧ ∃ u', u.limitRate q.controller q.name
        (q.entry.bind MethodAccessRule.rate) q.now = (.error (.rateLimited q.name), u')) ∨
    ((q.rateCondition u).holds = true ∧ ∃ u', u.limitRate q.controller q.name
        (q.entry.bind MethodAccessRule.rate) q.now = (.ok (), u') ∧ u'.quota = u.quota ∧
      ∀ entry ∈ q.entry, ∀ rule ∈ entry.rate,
        1 ≤ (u.rateBucket q.controller q.name rule q.now).balanceAt q.now rule ∧
        u'.rate.lookup (q.controller.toHex, q.name) = some
          { balance := (u.rateBucket q.controller q.name rule q.now).balanceAt q.now rule - 1
            since := q.now }) := by
  have hholds : (q.rateCondition u).holds =
      (q.entry.bind MethodAccessRule.rate).all fun rule =>
        decide (1 ≤ (u.rateBucket q.controller q.name rule q.now).balanceAt q.now rule) := by
    rw [Request.rateCondition]
    cases q.entry <;> simp
  rw [hholds]
  obtain ⟨hrule, heq⟩ | ⟨r, hrule, hcan, heq⟩ | ⟨r, u', hrule, hcan, heq, hquota, hlookup⟩ :=
    u.limitRate_cases q.controller q.name (q.entry.bind MethodAccessRule.rate) q.now
  · refine Or.inr ⟨by simp [hrule], u, heq, rfl, ?_⟩
    intro entry hentry rule hr
    rw [Option.mem_def] at hentry hr
    simp [hentry, hr] at hrule
  · refine Or.inl ⟨?_, _, heq⟩
    simpa [hrule, Bucket.canWithdraw] using hcan
  · have hle : 1 ≤ (u.rateBucket q.controller q.name r q.now).balanceAt q.now r := by
      simpa [Bucket.canWithdraw] using hcan
    refine Or.inr ⟨by simp [hrule, hle], u', heq, hquota, ?_⟩
    intro entry hentry rule hr
    rw [Option.mem_def] at hentry hr
    obtain rfl : rule = r := by simpa [hentry, hr] using hrule
    exact ⟨hle, by rw [hlookup, if_pos rfl]⟩

/-! ### Mediation -/

/-- A request that was refused at admission failed one of its conditions first. -/
lemma Request.conditions_of_refused {e : NncError} (h : q.vet explain = .error e) :
    firstFailure (q.conditions explain u) = some e := by
  rw [q.vet_eq] at h
  rw [Request.conditions, firstFailure_append]
  cases hf : firstFailure (q.admission explain) with
  | none => simp [hf] at h
  | some e' =>
    simp only [hf, Except.error.injEq] at h
    simp [h]

/-- A request refused at the rate failed that condition and none before it. -/
lemma Request.conditions_of_limited {profile : UsageProfile} {rule : Option RateLimitRule}
    {e : NncError} {u' : Usage} (h : q.vet explain = .ok (profile, rule))
    (hrate : u.limitRate q.controller q.name rule q.now = (.error e, u')) :
    firstFailure (q.conditions explain u) = some e := by
  obtain ⟨hvet, _, rfl⟩ := Request.vet_eq_ok_iff.mp h
  rw [Request.conditions, firstFailure_append, hvet]
  obtain ⟨hholds, v, herr⟩ | ⟨_, v, hok, _⟩ := q.limitRate_eq u
  · rw [hrate] at herr
    cases herr
    have herror : (q.rateCondition u).error = .rateLimited q.name := rfl
    simp [firstFailure, hholds, herror]
  · rw [hrate] at hok
    cases hok

/-- A request past its rate failed no condition. -/
lemma Request.conditions_of_passed {profile : UsageProfile} {rule : Option RateLimitRule}
    {u' : Usage} (h : q.vet explain = .ok (profile, rule))
    (hrate : u.limitRate q.controller q.name rule q.now = (.ok (), u')) :
    firstFailure (q.conditions explain u) = none := by
  obtain ⟨hvet, _, rfl⟩ := Request.vet_eq_ok_iff.mp h
  rw [Request.conditions, firstFailure_append, hvet]
  obtain ⟨_, v, herr⟩ | ⟨hholds, _⟩ := q.limitRate_eq u
  · rw [hrate] at herr
    cases herr
  · simp [firstFailure, hholds]

/-- Past admission and the rate, everything has been established that preparing asks for. -/
lemma Request.admitted {profile : UsageProfile} {rule : Option RateLimitRule} {u' u'' : Usage}
    (h : q.vet explain = .ok (profile, rule))
    (hrate : u.limitRate q.controller q.name rule q.now = (.ok (), u'))
    (hkept : u''.rate = u'.rate) : ∃ g, Admitted q u u'' g ∧ g.profile = profile := by
  obtain ⟨hvet, rfl, rfl⟩ := Request.vet_eq_ok_iff.mp h
  obtain ⟨himpl, hgrant, hvalid, hentry, hdecodes⟩ := Request.admission_holds hvet
  obtain ⟨g, hg, hprofile⟩ := Request.exists_grant hgrant
  obtain ⟨_, v, herr⟩ | ⟨_, v, hok, _, htoken⟩ := q.limitRate_eq u
  · rw [hrate] at herr
    cases herr
  rw [hrate] at hok
  cases hok
  refine ⟨g, ?_, hprofile.symm⟩
  rw [hprofile] at hvalid
  obtain ⟨hrates, hquota⟩ := UsageProfile.isValid_iff.mp hvalid
  obtain ⟨entry, hentry'⟩ := Option.isSome_iff_exists.mp hentry
  obtain ⟨m, hm, hmatched⟩ := Option.bind_eq_some_iff.mp hentry'
  rw [hprofile] at hm
  refine ⟨himpl, hg, ?_, hrates, hquota, ⟨m, entry, hm, ?_, hmatched, ?_⟩, ?_⟩
  · exact Option.or_eq_some_iff.mp (Grants.resolve_eq_ok_iff.mp hg)
  · exact matched_isSome_iff.mp (by simp [matched, hmatched])
  · intro rule hr
    obtain ⟨hle, hlookup⟩ := htoken entry hentry' rule hr
    exact ⟨hle, by rw [hkept, hlookup]⟩
  · rw [Request.decodes] at hdecodes
    split at hdecodes
    · exact ⟨_, by assumption, hdecodes⟩
    · cases hdecodes

/-- **Complete mediation.** If `prepare` is called, the request was admitted and its token taken.
If a method is called, `prepare` has said what this same request costs, and the quota covers it.
If a condition fails, the caller is told of the first that does, and nothing after it happens. -/
theorem complete_mediation (explain : Explain) (q : Request) (u : Usage) :
    ((∃ call ∈ (q.handle explain u).calls, call.isPrepare = true) →
      ∃ g, Admitted q u (q.handle explain u).usage g) ∧
    ((∃ call ∈ (q.handle explain u).calls, call.isPrepare = false) →
      ∃ g prepared, Admitted q u (q.handle explain u).usage g ∧
        .prepare q.name q.params q.caller (.ok prepared) ∈ (q.handle explain u).calls ∧
        (prepared.costSats = 0 ∨ g.profile.quota = none ∨ ∃ rule, g.profile.quota = some rule ∧
          prepared.costSats ≤ (u.quotaBucket q.controller rule q.now).balanceAt q.now rule)) ∧
    (∀ e, firstFailure (q.conditions explain u) = some e →
      (q.handle explain u).result = .error e ∧ (q.handle explain u).calls = []) ∧
    (firstFailure (q.admission explain) ≠ none → (q.handle explain u).usage = u) ∧
    (firstFailure (q.conditions explain u) = none → ∀ e, q.prepared = .error e →
      (q.handle explain u).result = .error e ∧ (q.handle explain u).calls = [q.prepareCall]) ∧
    (firstFailure (q.conditions explain u) = none → ∀ prepared, q.prepared = .ok prepared →
      ¬ u.Covers q.controller prepared.costSats q.profile.quota q.now →
      (q.handle explain u).result = .error (.quotaExceeded prepared.costSats) ∧
        (q.handle explain u).calls = [q.prepareCall]) := by
  have hexit := q.exit explain u
  generalize q.handle explain u = out at hexit
  cases hexit with
  | refused e hvet =>
    have hconds := Request.conditions_of_refused (u := u) hvet
    simp [hconds]
  | limited profile rule e u' hvet hrate =>
    have hconds := Request.conditions_of_limited hvet hrate
    simp [hconds, (Request.vet_eq_ok_iff.mp hvet).1]
  | unprepared profile rule e u' hvet hrate hprepare =>
    have hconds := Request.conditions_of_passed hvet hrate
    obtain ⟨g, hg, _⟩ := Request.admitted hvet hrate (Eq.refl u'.rate)
    refine ⟨fun _ => ⟨g, hg⟩, ?_, ?_, ?_, ?_, ?_⟩
    · simp [Request.prepareCall, Call.isPrepare]
    · simp [hconds]
    · simp [(Request.vet_eq_ok_iff.mp hvet).1]
    · intro _ e' he'
      rw [hprepare] at he'
      cases he'
      exact ⟨rfl, rfl⟩
    · simp [hprepare]
  | overQuota profile rule prepared e u' u'' hvet hrate hprepare hquota =>
    have hconds := Request.conditions_of_passed hvet hrate
    obtain ⟨g, hg, _⟩ := Request.admitted hvet hrate (Usage.rate_of_limitQuota hquota)
    refine ⟨fun _ => ⟨g, hg⟩, ?_, ?_, ?_, ?_, ?_⟩
    · simp [Request.prepareCall, Call.isPrepare]
    · simp [hconds]
    · simp [(Request.vet_eq_ok_iff.mp hvet).1]
    · simp [hprepare]
    · intro _ p hp _
      rw [hprepare] at hp
      cases hp
      rw [(Usage.limitQuota_eq_error hquota).2]
      exact ⟨rfl, rfl⟩
  | executed profile rule prepared u' u'' hvet hrate hprepare hquota =>
    have hconds := Request.conditions_of_passed hvet hrate
    have hcovers := (Usage.covers_iff_of_quota_eq (Usage.quota_of_limitRate hrate) ..).mp
      (Usage.limitQuota_eq_ok hquota)
    obtain ⟨g, hg, hprofile⟩ := Request.admitted hvet hrate
      ((Usage.rate_commit ..).trans (Usage.rate_of_limitQuota hquota))
    refine ⟨fun _ => ⟨g, hg⟩, fun _ => ⟨g, prepared, hg, ?_, ?_⟩, ?_, ?_, ?_, ?_⟩
    · simp [Request.prepareCall, hprepare]
    · rw [hprofile]
      rcases hcovers with hfree | hle
      · exact Or.inl hfree
      · cases hq : profile.quota with
        | none => exact Or.inr (Or.inl rfl)
        | some rule => exact Or.inr (Or.inr ⟨rule, rfl, hle rule hq⟩)
    · simp [hconds]
    · simp [(Request.vet_eq_ok_iff.mp hvet).1]
    · simp [hprepare]
    · intro _ p hp hnot
      rw [hprepare] at hp
      cases hp
      rw [(Request.vet_eq_ok_iff.mp hvet).2.1] at hnot
      exact absurd hcovers hnot

end NostrLn
