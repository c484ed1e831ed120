import NostrLn.Lib.Purge
import NostrLn.Service.Budget

/-!
# Controllers apart, and protocols apart

What a request comes to depends on two buckets: the rate of its controller and method, and the
quota of its controller. Hence what one controller sees of a run is the run without the others,
and what one protocol sees of the rates is the run without the other protocol.
-/

namespace NostrLn

open Serde

variable {explain : Explain} {q : Request} {u u' : Usage} {c : PublicKey} {m : String}

/-- The two buckets a request of this controller for this method depends on are the same. -/
def Usage.AgreesAt (c : PublicKey) (m : String) (u u' : Usage) : Prop :=
  u.rate.lookup (c.toHex, m) = u'.rate.lookup (c.toHex, m) ∧
    u.quota.lookup c.toHex = u'.quota.lookup c.toHex

/-! ### What the steps depend on -/

lemma Usage.limitRate_congr (h : u.rate.lookup (c.toHex, m) = u'.rate.lookup (c.toHex, m))
    (rule : Option RateLimitRule) (now : UInt64) :
    (u.limitRate c m rule now).1 = (u'.limitRate c m rule now).1 ∧
      (u.limitRate c m rule now).2.rate.lookup (c.toHex, m) =
        (u'.limitRate c m rule now).2.rate.lookup (c.toHex, m) := by
  match rule with
  | none => exact ⟨rfl, h⟩
  | some r =>
    have hbucket := Usage.rateBucket_congr h r now
    simp only [Usage.limitRate, Usage.rateAllows_fst, hbucket]
    split_ifs
    · exact ⟨rfl, by rw [Usage.lookup_rateAllows, Usage.lookup_rateAllows, hbucket]; simp⟩
    · refine ⟨rfl, ?_⟩
      rw [Usage.lookup_chargeRate, Usage.lookup_chargeRate, Usage.rateBucket_rateAllows,
        Usage.rateBucket_rateAllows, hbucket]
      simp

lemma Usage.limitQuota_congr (h : u.quota.lookup c.toHex = u'.quota.lookup c.toHex) (cost : UInt64)
    (quota : Option RateLimitRule) (now : UInt64) :
    (u.limitQuota c cost quota now).1 = (u'.limitQuota c cost quota now).1 ∧
      (u.limitQuota c cost quota now).2.quota.lookup c.toHex =
        (u'.limitQuota c cost quota now).2.quota.lookup c.toHex := by
  by_cases hpos : 0 < cost
  · match quota with
    | none => simpa [Usage.limitQuota] using h
    | some r =>
      have hbucket := Usage.quotaBucket_congr h r now
      simp only [Usage.limitQuota, hpos, if_true, Usage.quotaAllows_fst, hbucket]
      split_ifs
      · exact ⟨rfl, by rw [Usage.lookup_quotaAllows, Usage.lookup_quotaAllows, hbucket]; simp⟩
      · exact ⟨rfl, by rw [Usage.lookup_quotaAllows, Usage.lookup_quotaAllows, hbucket]; simp⟩
  · simpa [Usage.limitQuota, hpos] using h

lemma Usage.commit_congr (h : u.quota.lookup c.toHex = u'.quota.lookup c.toHex) (cost : UInt64)
    (quota : Option RateLimitRule) (now : UInt64) (result : Except NncError Value) :
    (u.commit c cost quota now result).quota.lookup c.toHex =
      (u'.commit c cost quota now result).quota.lookup c.toHex := by
  match result, quota with
  | .error _, _ => exact h
  | .ok _, none => simpa [Usage.commit] using h
  | .ok _, some r =>
    have hbucket := Usage.quotaBucket_congr h r now
    simp only [Usage.commit]
    split_ifs
    · rw [Usage.lookup_chargeQuota, Usage.lookup_chargeQuota, hbucket]
      simp
    · exact h

/-- **Two buckets.** Where they agree a request has the same result and makes the same calls, and
they agree after it. -/
lemma Request.handle_congr (explain : Explain) (h : Usage.AgreesAt q.controller q.name u u') :
    (q.handle explain u).result = (q.handle explain u').result ∧
    (q.handle explain u).calls = (q.handle explain u').calls ∧
    Usage.AgreesAt q.controller q.name (q.handle explain u).usage (q.handle explain u').usage := by
  have hname : q.name = q.method.asStr := rfl
  simp only [Request.handle, NostrLn.handle, ← hname]
  split
  · exact ⟨rfl, rfl, h⟩
  rename_i profile rule _
  obtain ⟨hsame, hrate⟩ := Usage.limitRate_congr h.1 rule q.now
  cases h₁ : u.limitRate q.controller q.name rule q.now with
  | mk r v =>
  cases h₂ : u'.limitRate q.controller q.name rule q.now with
  | mk r' v' =>
  rw [h₁, h₂] at hsame hrate
  obtain rfl : r = r' := hsame
  have hv : Usage.AgreesAt q.controller q.name v v' :=
    ⟨hrate, by rw [Usage.quota_of_limitRate h₁, Usage.quota_of_limitRate h₂]; exact h.2⟩
  cases r with
  | error e => exact ⟨rfl, rfl, hv⟩
  | ok =>
    cases q.handler.prepare q.name q.params
        { controller := q.controller, requestId := q.requestId } with
    | error e => exact ⟨rfl, rfl, hv⟩
    | ok prepared =>
      obtain ⟨hsame, hquota⟩ := Usage.limitQuota_congr hv.2 prepared.costSats profile.quota q.now
      cases h₃ : v.limitQuota q.controller prepared.costSats profile.quota q.now with
      | mk r w =>
      cases h₄ : v'.limitQuota q.controller prepared.costSats profile.quota q.now with
      | mk r' w' =>
      rw [h₃, h₄] at hsame hquota
      obtain rfl : r = r' := hsame
      have hw : Usage.AgreesAt q.controller q.name w w' :=
        ⟨by rw [Usage.rate_of_limitQuota h₃, Usage.rate_of_limitQuota h₄]; exact hv.1, hquota⟩
      simp only [h₃, h₄]
      cases r with
      | error e => exact ⟨rfl, rfl, hw⟩
      | ok =>
        refine ⟨rfl, rfl, ?_, Usage.commit_congr hw.2 ..⟩
        simp only [Usage.rate_commit]
        exact hw.1

/-! ### One controller among others -/

/-- The buckets of a controller are the same. -/
def Usage.AgreesFor (c : PublicKey) (u u' : Usage) : Prop :=
  ∀ m, Usage.AgreesAt c m u u'

/-- What a controller sees of a request: its result, and the calls made for it. -/
def Outcome.seen (out : Outcome) : Except NncError Value × List Call := (out.result, out.calls)

/-- The buckets after a run. -/
def usageAfter (explain : Explain) (u : Usage) (qs : List Request) : Usage :=
  qs.foldl (fun u q => (q.handle explain u).usage) u

/-- A request, as a step of a machine whose state is the buckets. -/
def handleStep (explain : Explain) (u : Usage) (q : Request) :
    (Except NncError Value × List Call) × Usage :=
  ((q.handle explain u).seen, (q.handle explain u).usage)

lemma outputs_handleStep (u : Usage) (qs : List Request) :
    Machine.outputs (handleStep explain) u qs =
      (serve explain u qs).map fun x => (x.1, x.2.seen) := by
  induction qs generalizing u with
  | nil => rfl
  | cons q qs ih =>
    rw [Machine.outputs, serve, List.map_cons, ← ih]
    rfl

/-- A controller cannot tell apart states in which its buckets agree. -/
lemma unwinds_controller (explain : Explain) (c : PublicKey) :
    Machine.Unwinds (handleStep explain) (fun q => q.controller = c) (Usage.AgreesFor c) where
  output {u u' q} hq h := by
    have hq : q.controller = c := by simpa using hq
    obtain ⟨hresult, hcalls, _⟩ := q.handle_congr explain (hq ▸ h q.name)
    simp [handleStep, Outcome.seen, hresult, hcalls]
  keep {u u' q} hq h := by
    have hq : q.controller = c := by simpa using hq
    subst hq
    obtain ⟨_, _, hat⟩ := q.handle_congr explain (h q.name)
    intro m
    by_cases hm : m = q.name
    · subst hm
      exact hat
    · have hkey : (q.controller.toHex, m) ≠ (q.controller.toHex, q.name) := by simp [hm]
      refine ⟨?_, hat.2⟩
      simp only [handleStep]
      rw [q.rate_frame explain u hkey, q.rate_frame explain u' hkey]
      exact (h m).1
  skip {u u' q} hq h := by
    have hq : q.controller ≠ c := by simpa using hq
    intro m
    simp only [handleStep]
    refine ⟨?_, ?_⟩
    · rw [q.rate_frame explain u (by simp [Ne.symm hq])]
      exact (h m).1
    · rw [q.quota_frame explain u (by simp [Ne.symm hq])]
      exact (h m).2

/-- **Controllers do not affect one another.** In any run of requests, what becomes of those of one
controller, and what is left in its buckets, is as in the run without all the others. -/
theorem controllers_isolated (explain : Explain) (u : Usage) (qs : List Request) (c : PublicKey) :
    ((serve explain u qs).filter fun x => x.1.controller = c).map
        (fun x => (x.1, x.2.result, x.2.calls)) =
      (serve explain u (qs.filter fun q => q.controller = c)).map
        (fun x => (x.1, x.2.result, x.2.calls)) ∧
    (∀ m, (usageAfter explain u qs).rate.lookup (c.toHex, m) =
      (usageAfter explain u (qs.filter fun q => q.controller = c)).rate.lookup (c.toHex, m)) ∧
    (usageAfter explain u qs).quota.lookup c.toHex =
      (usageAfter explain u (qs.filter fun q => q.controller = c)).quota.lookup c.toHex := by
  have hrefl : Usage.AgreesFor c u u := fun _ => ⟨rfl, rfl⟩
  obtain ⟨houtputs, hfinal⟩ := (unwinds_controller explain c).purge hrefl qs
  rw [outputs_handleStep, outputs_handleStep, List.filter_map] at houtputs
  exact ⟨houtputs, fun m => (hfinal m).1, (hfinal "").2⟩

/-! ### One protocol beside the other -/

/-- The names a protocol defines. -/
def Protocol.names : Protocol → List String
  | .wallet => WalletMethod.all.map WalletMethod.asStr
  | .control => Method.all.map Method.asStr

/-- No name is defined by both protocols. -/
lemma Protocol.eq_of_mem_names {p p' : Protocol} {name : String} (h : name ∈ p.names)
    (h' : name ∈ p'.names) : p = p' := by
  have hdisjoint : ∀ name ∈ Protocol.wallet.names, name ∉ Protocol.control.names := by
    decide +kernel
  cases p <;> cases p'
  · rfl
  · exact absurd h' (hdisjoint name h)
  · exact absurd h (hdisjoint name h')
  · rfl

lemma Method.mem_all_of_validated {method : Method} {ty : Ty} (h : method.validated = .ok ty) :
    method ∈ Method.all := by
  cases method <;> first | cases h; done | decide

lemma WalletMethod.mem_all_of_validated {method : WalletMethod} {ty : Ty}
    (h : method.validated = .ok ty) : method ∈ WalletMethod.all := by
  cases method <;> first | cases h; done | decide

/-- A name that is charged is one that the protocol it came by defines. -/
lemma Request.name_mem_names {x : UsageProfile × Option RateLimitRule}
    (h : q.vet explain = .ok x) : q.name ∈ q.handler.protocol.names := by
  obtain ⟨hok, _⟩ := Request.vet_eq_ok_iff.mp h
  have hdecodes := (Request.admission_holds hok).2.2.2.2
  rw [Request.decodes] at hdecodes
  split at hdecodes
  · rename_i ty hty
    rw [Handler.requestType] at hty
    cases hp : q.handler.protocol with
    | wallet =>
      rw [hp] at hty
      have hmem := List.mem_map_of_mem (f := WalletMethod.asStr)
        (WalletMethod.mem_all_of_validated hty)
      rwa [WalletMethod.asStr_fromStr] at hmem
    | control =>
      rw [hp] at hty
      exact List.mem_map_of_mem (Method.mem_all_of_validated hty)
  · cases hdecodes

/-- The decision of the rate step, for a request that gets that far. -/
def Request.rateDecision (explain : Explain) (q : Request) (u : Usage) :
    Option (Except NncError Unit) :=
  match q.vet explain with
  | .error _ => none
  | .ok (_, rule) => some (u.limitRate q.controller q.name rule q.now).1

/-- A request, as a step of a machine that gives rate decisions. -/
def rateStep (explain : Explain) (u : Usage) (q : Request) :
    Option (Except NncError Unit) × Usage :=
  (q.rateDecision explain u, (q.handle explain u).usage)

/-- The rate decisions of a run, each beside its request. -/
def rateDecisions (explain : Explain) (u : Usage) (qs : List Request) :
    List (Request × Option (Except NncError Unit)) :=
  Machine.outputs (rateStep explain) u qs

/-- The rate buckets under the names of a protocol are the same. -/
def Usage.AgreesOn (p : Protocol) (u u' : Usage) : Prop :=
  ∀ (c : PublicKey) (m : String), m ∈ p.names →
    u.rate.lookup (c.toHex, m) = u'.rate.lookup (c.toHex, m)

/-- A request keeps rate buckets that agree on its own protocol in agreement. -/
lemma Usage.AgreesOn.handle (h : Usage.AgreesOn q.handler.protocol u u') :
    Usage.AgreesOn q.handler.protocol (q.handle explain u).usage (q.handle explain u').usage := by
  intro c m hm
  cases hvet : q.vet explain with
  | error e =>
    rw [Request.handle_of_not_admitted hvet, Request.handle_of_not_admitted hvet]
    exact h c m hm
  | ok x =>
    obtain ⟨profile, rule⟩ := x
    by_cases hkey : (c.toHex, m) = (q.controller.toHex, q.name)
    · rw [Request.rate_of_vetted hvet, Request.rate_of_vetted hvet, hkey]
      exact (Usage.limitRate_congr (h _ _ (Request.name_mem_names hvet)) rule q.now).2
    · rw [q.rate_frame explain u hkey, q.rate_frame explain u' hkey]
      exact h c m hm

/-- A request of the other protocol touches none of these buckets. -/
lemma Usage.AgreesOn.skip {p : Protocol} (hp : q.handler.protocol ≠ p)
    (h : Usage.AgreesOn p u u') : Usage.AgreesOn p (q.handle explain u).usage u' := by
  intro c m hm
  cases hvet : q.vet explain with
  | error e =>
    rw [Request.handle_of_not_admitted hvet]
    exact h c m hm
  | ok x =>
    have hkey : (c.toHex, m) ≠ (q.controller.toHex, q.name) := by
      intro heq
      rw [(Prod.mk.inj heq).2] at hm
      exact hp (Protocol.eq_of_mem_names (Request.name_mem_names hvet) hm)
    rw [q.rate_frame explain u hkey]
    exact h c m hm

/-- A protocol cannot tell apart states in which its rate buckets agree, by its rate decisions. -/
lemma unwinds_protocol (explain : Explain) (p : Protocol) :
    Machine.Unwinds (rateStep explain) (fun q => q.handler.protocol = p) (Usage.AgreesOn p) where
  output {u u' q} hq h := by
    obtain rfl : q.handler.protocol = p := by simpa using hq
    simp only [rateStep, Request.rateDecision]
    split
    · rfl
    · rename_i hvet
      rw [(Usage.limitRate_congr (h _ _ (Request.name_mem_names hvet)) _ q.now).1]
  keep {u u' q} hq h := by
    obtain rfl : q.handler.protocol = p := by simpa using hq
    exact h.handle
  skip {u u' q} hq h := h.skip (by simpa using hq)

/-- Requests of the other protocol leave the rate buckets of this one alone. -/
lemma agreesOn_usageAfter {p : Protocol} {qs : List Request}
    (hqs : ∀ q ∈ qs, q.handler.protocol ≠ p) (h : Usage.AgreesOn p u u') :
    Usage.AgreesOn p (usageAfter explain u qs) u' := by
  induction qs generalizing u with
  | nil => exact h
  | cons q qs ih => exact ih (fun q hq => hqs q (by simp [hq])) (h.skip (hqs q (by simp)))

/-- Where the rate buckets of its protocol and the quota agree, a request comes to the same. -/
lemma Request.seen_congr (hrate : Usage.AgreesOn q.handler.protocol u u')
    (hquota : u.quota = u'.quota) :
    (q.handle explain u).seen = (q.handle explain u').seen := by
  cases hvet : q.vet explain with
  | error e =>
    rw [Request.handle_of_not_admitted hvet, Request.handle_of_not_admitted hvet]
    rfl
  | ok x =>
    obtain ⟨hresult, hcalls, _⟩ := q.handle_congr explain
      ⟨hrate q.controller q.name (Request.name_mem_names hvet), by rw [hquota]⟩
    rw [Outcome.seen, Outcome.seen, hresult, hcalls]

/-- Of a valid profile, a request reads the map of its own protocol and the quota. -/
lemma Request.handle_of_grants (explain : Explain) (u : Usage) {grants' : Grants}
    {g g' : VerifiedGrant} (hg : q.grants.resolve q.controller = .ok g)
    (hg' : grants'.resolve q.controller = .ok g') (hvalid : g.profile.isValid = true)
    (hvalid' : g'.profile.isValid = true)
    (hmap : q.handler.accessMap g.profile = q.handler.accessMap g'.profile)
    (hquota : g.profile.quota = g'.profile.quota) :
    { q with grants := grants' }.handle explain u = q.handle explain u := by
  have hallows : ∀ name, q.handler.allows g.profile name = q.handler.allows g'.profile name := by
    intro name
    rw [Handler.allows_eq, Handler.allows_eq, hmap, hvalid, hvalid']
  by_cases himpl : q.handler.implements q.method.asStr = true
  case neg => simp [Request.handle, NostrLn.handle, NostrLn.vet, himpl]
  simp only [Request.handle, NostrLn.handle, NostrLn.vet, himpl, Bool.not_true,
    Bool.false_eq_true, if_false, hg, hg', hallows]
  cases q.handler.allows g'.profile q.method.asStr with
  | error d => rfl
  | ok rule =>
    cases validate explain q.handler q.method q.params with
    | error e => rfl
    | ok => simp only [hquota]

/-- **The protocols' permissions are separate.** What a request comes to depends on the map of its
own protocol and on the quota, and whether a notification is allowed on its map alone. The rate
decisions of one protocol are those of the run without the other; all that the other can change
about a request, it changes through the quota. -/
theorem protocols_separate (explain : Explain) :
    (∀ (s : ControlService) (q : Request) (grants' : Grants) (g g' : VerifiedGrant) (u : Usage),
      q.handler = .control s → q.grants.resolve q.controller = .ok g →
      grants'.resolve q.controller = .ok g' → g.profile.isValid = true →
      g'.profile.isValid = true → g.profile.control = g'.profile.control →
      g.profile.quota = g'.profile.quota →
      { q with grants := grants' }.handle explain u = q.handle explain u) ∧
    (∀ (s : WalletService) (q : Request) (grants' : Grants) (g g' : VerifiedGrant) (u : Usage),
      q.handler = .wallet s → q.grants.resolve q.controller = .ok g →
      grants'.resolve q.controller = .ok g' → g.profile.isValid = true →
      g'.profile.isValid = true → g.profile.methods = g'.profile.methods →
      g.profile.quota = g'.profile.quota →
      { q with grants := grants' }.handle explain u = q.handle explain u) ∧
    (∀ profile profile' : UsageProfile, profile.isValid = true → profile'.isValid = true →
      profile.notifications = profile'.notifications →
      ∀ ty, profile.allowsNotification ty = profile'.allowsNotification ty) ∧
    (∀ (p : Protocol) (u : Usage) (qs : List Request),
      (rateDecisions explain u qs).filter (fun x => x.1.handler.protocol = p) =
        rateDecisions explain u (qs.filter fun q => q.handler.protocol = p)) ∧
    (∀ (u : Usage) (qs : List Request) (q : Request),
      (∀ q' ∈ qs, q'.handler.protocol ≠ q.handler.protocol) →
      q.rateDecision explain (usageAfter explain u qs) = q.rateDecision explain u ∧
      (q.handle explain (usageAfter explain u qs)).seen =
        (q.handle explain { u with quota := (usageAfter explain u qs).quota }).seen) := by
  refine ⟨?_, ?_, ?_, ?_, ?_⟩
  · intro s q grants' g g' u hs hg hg' hvalid hvalid' hmap hquota
    exact Request.handle_of_grants explain u hg hg' hvalid hvalid'
      (by rw [hs]; exact hmap) hquota
  · intro s q grants' g g' u hs hg hg' hvalid hvalid' hmap hquota
    exact Request.handle_of_grants explain u hg hg' hvalid hvalid'
      (by rw [hs]; exact hmap) hquota
  · intro profile profile' hvalid hvalid' hmap ty
    simp only [UsageProfile.allowsNotification, UsageProfile.guard, hvalid, hvalid', hmap]
  · intro p u qs
    exact ((unwinds_protocol explain p).purge (fun _ _ _ => rfl) qs).1
  · intro u qs q hqs
    refine ⟨?_, ?_⟩
    · exact (unwinds_protocol explain q.handler.protocol).output (by simp)
        (agreesOn_usageAfter hqs fun _ _ _ => rfl)
    · exact Request.seen_congr (agreesOn_usageAfter hqs fun _ _ _ => rfl) rfl

namespace Sample

/-- As `metered`, with every control method and every notification besides. -/
def generous : Grants :=
  { metered with
    others := metered.others.map fun g =>
      { g with profile :=
        { g.profile with
          control := some (AList.singleton othersKey { rate := none })
          notifications := some (AList.singleton othersKey { rate := none }) } } }

end Sample

open Sample in
/-- A payment goes through, and is charged, as it would without those permissions. -/
theorem protocols_separate_payment :
    { payment 40 100 with grants := generous }.handle (fun _ _ => "") Usage.new =
      (payment 40 100).handle (fun _ _ => "") Usage.new ∧
    ((payment 40 100).handle (fun _ _ => "") Usage.new).result.isOk = true := by
  refine ⟨?_, by decide +kernel⟩
  exact (protocols_separate fun _ _ => "").2.1 _ (payment 40 100) generous _ _ Usage.new rfl rfl rfl
    (by decide +kernel) (by decide +kernel) rfl rfl

end NostrLn
