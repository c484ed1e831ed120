import NostrLn.Service.Isolation

/-!
# Authorize, validate, dispatch

Parameters are decoded twice: to validate them, against a type that a table gives for the method,
and to dispatch the call, as what the function behind the method takes. The two tables are written
apart from each other. They agree, so that nothing is charged or prepared that would then be refused
as malformed; and before either of them is consulted, the caller has been authorized.
-/

namespace NostrLn

open Serde

variable {explain : Explain} {h : Handler} {method : Method} {params : Value} {caller : Caller}
  {q : Request} {u : Usage}

/-! ### The two tables -/

/-- The type the arm of the dispatch for a method decodes its parameters as: what the function it
calls takes. -/
def Handler.armType (h : Handler) (method : Method) : Except String Ty :=
  match h with
  | .wallet _ => (WalletMethod.fromStr method.asStr).walletFn.map WalletFn.request
  | .control _ => method.controlFn.map ControlFn.request

lemma Method.validated_eq (method : Method) :
    method.validated = method.controlFn.map ControlFn.request := by
  cases method <;> rfl

lemma WalletMethod.validated_eq (method : WalletMethod) :
    method.validated = method.walletFn.map WalletFn.request := by
  cases method <;> rfl

/-- What is validated is what is decoded. -/
lemma Handler.requestType_eq (h : Handler) (method : Method) :
    h.requestType method = h.armType method := by
  cases h with
  | wallet s => exact WalletMethod.validated_eq _
  | control s => exact Method.validated_eq method

lemma Method.name_controlFn {fn : ControlFn} (h : method.controlFn = .ok fn) :
    fn.name = method.asStr := by
  cases method <;> cases h <;> rfl

lemma WalletMethod.name_walletFn {method : WalletMethod} {fn : WalletFn}
    (h : method.walletFn = .ok fn) : fn.name = method.asStr := by
  cases method <;> cases h <;> rfl

/-! ### One arm -/

/-- An arm makes its one call if the parameters decode, and else refuses them as the check does. -/
lemma dispatchArm_of_check (explain : Explain) (request : Ty) (params : Value) {name : String}
    {call : Decoded → Call} (answer : Decoded → Answer)
    (hcall : ∀ r, (call r).name = name ∧ (call r).caller = caller ∧ (call r).isPrepare = false) :
    (check explain request params = .ok () ∧ ∃ result made,
      dispatchArm explain request params call answer = (result, [made]) ∧
        made.name = name ∧ made.caller = caller ∧ made.isPrepare = false) ∨
    ∃ e, check explain request params = .error e ∧
      dispatchArm explain request params call answer = (.error e, []) := by
  cases h : decode request params with
  | none => exact Or.inr ⟨.badParams (explain request params), by simp [check, h],
      by simp [dispatchArm, h]⟩
  | some r =>
    refine Or.inl ⟨by simp [check, h], (answer r).toResult, call r, ?_, hcall r⟩
    simp [dispatchArm, h]

/-- What validation lets through, the dispatch calls one function for, under the name that was
asked for; what validation refuses, the dispatch would refuse in the same words. -/
lemma Handler.dispatch_of_validate (explain : Explain) (h : Handler) (method : Method)
    (params : Value) (caller : Caller) :
    (validate explain h method params = .ok () ∧ ∃ answer call,
      h.dispatch explain method params caller = (answer, [call]) ∧
        call.name = method.asStr ∧ call.caller = caller ∧ call.isPrepare = false) ∨
    ∃ e, validate explain h method params = .error e ∧
      h.dispatch explain method params caller = (.error e, []) := by
  rw [validate, Handler.requestType_eq]
  cases h with
  | wallet s =>
    simp only [Handler.armType, Handler.dispatch, dispatchWallet]
    cases hfn : (WalletMethod.fromStr method.asStr).walletFn with
    | error name => exact Or.inr ⟨.notImplemented name, rfl, rfl⟩
    | ok fn =>
      have hname : fn.name = method.asStr := by
        rw [WalletMethod.name_walletFn hfn, WalletMethod.asStr_fromStr]
      exact dispatchArm_of_check explain fn.request params _ fun r => ⟨hname, rfl, rfl⟩
  | control s =>
    simp only [Handler.armType, Handler.dispatch, dispatchControl]
    cases hfn : method.controlFn with
    | error name => exact Or.inr ⟨.notImplemented name, rfl, rfl⟩
    | ok fn =>
      have hname : fn.name = method.asStr := Method.name_controlFn hfn
      exact dispatchArm_of_check explain fn.request params _ fun r => ⟨hname, rfl, rfl⟩

/-- Validation lets through what decodes as the type of the arm. -/
lemma validate_eq_ok_iff :
    validate explain h method params = .ok () ↔
      ∃ request, h.armType method = .ok request ∧ (decode request params).isSome := by
  rw [validate, Handler.requestType_eq]
  cases h.armType method with
  | error name => simp
  | ok request =>
    simp only [check, Except.ok.injEq, exists_eq_left']
    cases decode request params with
    | none => simp
    | some r => simp

/-- A name the protocol does not define has no arm. -/
lemma Handler.armType_of_undefined (hname : method.asStr ∉ h.protocol.names) :
    h.armType method = .error method.asStr := by
  cases h with
  | wallet s =>
    have hmethod : WalletMethod.fromStr method.asStr ∉ WalletMethod.all := by
      intro hmem
      have := List.mem_map_of_mem (f := WalletMethod.asStr) hmem
      rw [WalletMethod.asStr_fromStr] at this
      exact hname this
    rw [Handler.armType]
    generalize hm : WalletMethod.fromStr method.asStr = wallet at hmethod
    have hwire : wallet.asStr = method.asStr := by rw [← hm, WalletMethod.asStr_fromStr]
    cases wallet
    case unknown name => rw [← hwire]; rfl
    all_goals exact absurd (by decide) hmethod
  | control s =>
    have hmethod : method ∉ Method.all := fun hmem => hname (List.mem_map_of_mem hmem)
    cases method
    case unknown name => rfl
    all_goals exact absurd (by decide) hmethod

/-! ### A whole request -/

lemma Request.validated_of_vet {x : UsageProfile × Option RateLimitRule}
    (hvet : q.vet explain = .ok x) : validate explain q.handler q.method q.params = .ok () := by
  obtain ⟨hok, _⟩ := Request.vet_eq_ok_iff.mp hvet
  rw [validate_eq, (Request.admission_holds hok).2.2.2.2]
  rfl

/-- Whatever is called for a request is called under its name, which is implemented and
permitted. -/
lemma Request.name_of_call {call : Call} (hcall : call ∈ (q.handle explain u).calls) :
    call.name = q.name ∧ q.name ∈ q.handler.methods ∧ q.entry.isSome = true := by
  have hadmitted : ∀ {x}, q.vet explain = .ok x →
      q.name ∈ q.handler.methods ∧ q.entry.isSome = true := by
    intro x hvet
    obtain ⟨himpl, _, _, hentry, _⟩ := Request.admission_holds (Request.vet_eq_ok_iff.mp hvet).1
    exact ⟨himpl, hentry⟩
  have hexit := q.exit explain u
  generalize q.handle explain u = out at hexit hcall
  cases hexit with
  | refused => cases hcall
  | limited => cases hcall
  | unprepared _ _ _ _ hvet =>
    rw [List.mem_singleton.mp hcall]
    exact ⟨rfl, hadmitted hvet⟩
  | overQuota _ _ _ _ _ _ hvet =>
    rw [List.mem_singleton.mp hcall]
    exact ⟨rfl, hadmitted hvet⟩
  | executed _ _ _ _ _ hvet =>
    rcases List.mem_cons.mp hcall with rfl | hcall
    · exact ⟨rfl, hadmitted hvet⟩
    · obtain ⟨_, answer, made, heq, hname, _⟩ | ⟨e, herror, _⟩ :=
        q.handler.dispatch_of_validate explain q.method q.params q.caller
      · rw [Request.dispatched, heq] at hcall
        rw [List.mem_singleton.mp hcall]
        exact ⟨hname, hadmitted hvet⟩
      · rw [Request.validated_of_vet hvet] at herror
        cases herror

/-- **Validation and dispatch agree.** For every method of either protocol and all parameters,
validation accepts exactly what the arm of the dispatch decodes, and refuses the rest, and every
name the protocol does not define, as the dispatch would. So once a rate token is spent or `prepare`
called, the dispatch of the request makes a call; and whatever is called has the name that was
implemented, permitted and charged. -/
theorem validation_agrees_with_dispatch (explain : Explain) :
    (∀ (h : Handler) (method : Method) (params : Value) (caller : Caller),
      (validate explain h method params = .ok () ↔
        ∃ request, h.armType method = .ok request ∧ (decode request params).isSome) ∧
      (validate explain h method params = .ok () ↔
        ∃ call, (h.dispatch explain method params caller).2 = [call]) ∧
      (∀ e, validate explain h method params = .error e →
        h.dispatch explain method params caller = (.error e, [])) ∧
      (method.asStr ∉ h.protocol.names →
        validate explain h method params = .error (.notImplemented method.asStr) ∧
        h.dispatch explain method params caller = (.error (.notImplemented method.asStr), []))) ∧
    ∀ (q : Request) (u : Usage),
      ((q.handle explain u).usage.rate ≠ u.rate ∨
          (∃ call ∈ (q.handle explain u).calls, call.isPrepare = true) →
        ∃ answer call, q.dispatched explain = (answer, [call])) ∧
      (∀ call ∈ (q.handle explain u).calls,
        call.name = q.name ∧ q.name ∈ q.handler.methods ∧ q.entry.isSome = true) ∧
      ∀ k, (q.handle explain u).usage.rate.lookup k ≠ u.rate.lookup k →
        k = (q.controller.toHex, q.name) := by
  refine ⟨?_, ?_⟩
  · intro h method params caller
    have hboth := h.dispatch_of_validate explain method params caller
    refine ⟨validate_eq_ok_iff, ?_, ?_, ?_⟩
    · obtain ⟨hok, answer, call, heq, _⟩ | ⟨e, herror, heq⟩ := hboth
      · simp [hok, heq]
      · simp [herror, heq]
    · intro e herror
      obtain ⟨hok, _⟩ | ⟨e', herror', heq⟩ := hboth
      · rw [hok] at herror
        cases herror
      · rw [herror'] at herror
        cases herror
        exact heq
    · intro hname
      have hrefused : validate explain h method params = .error (.notImplemented method.asStr) := by
        rw [validate, Handler.requestType_eq, Handler.armType_of_undefined hname]
      obtain ⟨hok, _⟩ | ⟨e, herror, heq⟩ := hboth
      · rw [hok] at hrefused
        cases hrefused
      · rw [hrefused] at herror
        cases herror
        exact ⟨hrefused, heq⟩
  · intro q u
    refine ⟨?_, fun call hcall => Request.name_of_call hcall, ?_⟩
    · intro hspent
      cases hvet : q.vet explain with
      | error e =>
        rw [Request.handle_of_not_admitted hvet] at hspent
        simp at hspent
      | ok x =>
        obtain ⟨_, answer, call, heq, _⟩ | ⟨e, herror, _⟩ :=
          q.handler.dispatch_of_validate explain q.method q.params q.caller
        · exact ⟨answer, call, heq⟩
        · rw [Request.validated_of_vet hvet] at herror
          cases herror
    · intro k hk
      by_contra hne
      exact hk (q.rate_frame explain u hne)

/-! ### Before validation -/

/-- What is refused at authorization is refused without a look at the parameters. -/
lemma vet_of_denied (explain : Explain) {grants : Grants} {c : PublicKey}
    (hdenied : ∀ g, grants.resolve c = .ok g →
      ¬ g.profile.Permits (h.accessMap g.profile) method.asStr) :
    ∃ e, ∀ params, vet explain h grants c method params = .error e := by
  by_cases himpl : h.implements method.asStr = true
  case neg => exact ⟨.notImplemented method.asStr, fun params => by simp [vet, himpl]⟩
  cases hg : grants.resolve c with
  | error d => exact ⟨deny d, fun params => by simp [vet, himpl, hg]⟩
  | ok g =>
    have hnot := hdenied g hg
    cases hallows : h.allows g.profile method.asStr with
    | error d => exact ⟨deny d, fun params => by simp [vet, himpl, hg, hallows]⟩
    | ok rule =>
      rw [Handler.allows_eq] at hallows
      split at hallows
      · rename_i hvalid
        refine absurd ⟨hvalid, lookup_isOk_iff.mp ?_⟩ hnot
        rw [hallows]
        rfl
      · cases hallows

/-- **An unauthorized caller learns nothing.** If no grant applies to the caller, or the map of the
request's own protocol does not permit the method, there is one refusal for all parameters, nothing
is called, and no bucket is touched. -/
theorem unauthorized_learns_nothing (explain : Explain) (h : Handler) (grants : Grants) (u : Usage)
    (c : PublicKey) (method : Method) (now : UInt64)
    (hdenied : ∀ g, grants.resolve c = .ok g →
      ¬ g.profile.Permits (h.accessMap g.profile) method.asStr) :
    ∃ e, ∀ requestId params, handle explain h grants u c requestId method params now =
      { result := .error e, usage := u, calls := [] } := by
  obtain ⟨e, hvet⟩ := vet_of_denied explain hdenied
  refine ⟨e, ?_⟩
  intro requestId params
  exact Request.handle_of_not_admitted
    (q := { handler := h, grants, controller := c, requestId, method, params, now }) (hvet params) u

namespace Sample

/-- A node that lists its channels. -/
def inspected : Handler :=
  .control
    { methods := ["list_channels"]
      prepare := fun _ _ _ => .ok { costSats := 0 }
      call := fun _ _ _ => .ok (.ok .null) }

end Sample

open Sample in
/-- A grant for every wallet method says nothing about control: whether the parameters are well
formed is not said either. -/
theorem unauthorized_learns_nothing_spender :
    (validate (fun _ _ => "") inspected .listChannels (.object []) = .ok ()) ∧
    (validate (fun _ _ => "") inspected .listChannels .null ≠ .ok ()) ∧
    ∃ e, ∀ requestId params, handle (fun _ _ => "") inspected metered Usage.new (key 4) requestId
      .listChannels params 100 = { result := .error e, usage := Usage.new, calls := [] } := by
  refine ⟨rfl, nofun, unauthorized_learns_nothing _ inspected metered Usage.new (key 4)
    .listChannels 100 ?_⟩
  intro g hg hpermits
  cases hg
  obtain ⟨_, m, hm, _⟩ := hpermits
  cases hm

end NostrLn
