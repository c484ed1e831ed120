import NostrLn.Service.Transport
import NostrLn.Service.Validation

/-!
# The name of a method, from the request to the response

The name in a request is read as a control method whichever protocol it came by, and kept as it came
if it is none. It is written out again for every place that goes by names, and for a wallet it is
read once more, as a wallet method, to validate and to dispatch. `handleNamed` is the pipeline
without any of this: it has the name as it came, and goes by that.
-/

namespace NostrLn

open Serde

/-! ### The functions, by name -/

/-- Every function of a control service. -/
def ControlFn.all : List ControlFn :=
  [.listChannels, .openChannel, .closeChannel, .listPeers, .connectPeer, .disconnectPeer,
   .getChannelFees, .setChannelFees, .getForwardingHistory, .getPendingHtlcs, .queryRoutes,
   .listNetworkNodes, .getNetworkStats, .getNetworkNode, .getNetworkChannel, .signMessage]

/-- The one with this name. -/
def ControlFn.ofName (s : String) : Option ControlFn := ControlFn.all.find? fun fn => fn.name = s

/-- Every function of a wallet service. -/
def WalletFn.all : List WalletFn :=
  [.payInvoice, .makeInvoice, .lookupInvoice, .getBalance, .getInfo, .payOnchain, .makeHoldInvoice,
   .settleHoldInvoice, .cancelHoldInvoice, .quotePayment, .payKeysend, .listTransactions,
   .makeNewAddress, .lookupAddress, .listAddresses, .estimateOnchainFees, .listInvoices, .pay,
   .receive, .makeOffer, .lookupPayment, .payOffer, .listOffers, .disableOffer]

/-- The one with this name. -/
def WalletFn.ofName (s : String) : Option WalletFn := WalletFn.all.find? fun fn => fn.name = s

lemma ControlFn.mem_all (fn : ControlFn) : fn ∈ ControlFn.all := by
  cases fn <;> decide

lemma WalletFn.mem_all (fn : WalletFn) : fn ∈ WalletFn.all := by
  cases fn <;> decide

/-- A name is read as the method whose function has it. -/
lemma ControlFn.controlFn_fromStr_name (fn : ControlFn) :
    (Method.fromStr fn.name).controlFn = .ok fn := by
  cases fn <;> rfl

lemma WalletFn.walletFn_fromStr_name (fn : WalletFn) :
    (WalletMethod.fromStr fn.name).walletFn = .ok fn := by
  cases fn <;> rfl

lemma Method.controlFn_eq_error {method : Method} {name : String}
    (h : method.controlFn = .error name) : name = method.asStr := by
  cases method <;> cases h
  rfl

lemma WalletMethod.walletFn_eq_error {method : WalletMethod} {name : String}
    (h : method.walletFn = .error name) : name = method.asStr := by
  cases method <;> cases h
  rfl

/-- A reader of names that reads every name in a table, and reports any other as it came, is the
lookup in that table. -/
lemma eq_find_of_table {Fn : Type} {all : List Fn} (name : Fn → String)
    (read : String → Except String Fn) (hall : ∀ fn, fn ∈ all)
    (hname : ∀ fn, read (name fn) = .ok fn) (hok : ∀ {s fn}, read s = .ok fn → name fn = s)
    (herror : ∀ {s t}, read s = .error t → t = s) (s : String) :
    read s = (all.find? fun fn => name fn = s).elim (.error s) .ok := by
  cases hfn : all.find? fun fn => name fn = s with
  | some fn =>
    have heq : name fn = s := by simpa using List.find?_some hfn
    rw [← heq, hname fn, Option.elim_some]
  | none =>
    have hother : ∀ fn, name fn ≠ s := by
      intro fn
      simpa using List.find?_eq_none.mp hfn fn (hall fn)
    cases hread : read s with
    | ok fn => exact absurd (hok hread) (hother fn)
    | error t => rw [herror hread, Option.elim_none]

/-- The function behind what a name is read as is the one with that name. -/
lemma Method.controlFn_fromStr (s : String) :
    (Method.fromStr s).controlFn = (ControlFn.ofName s).elim (.error s) .ok := by
  refine eq_find_of_table ControlFn.name (fun s => (Method.fromStr s).controlFn)
    ControlFn.mem_all ControlFn.controlFn_fromStr_name ?_ ?_ s
  · intro s fn hmethod
    rw [Method.name_controlFn hmethod, Method.asStr_fromStr]
  · intro s t hmethod
    rw [Method.controlFn_eq_error hmethod, Method.asStr_fromStr]

lemma WalletMethod.walletFn_fromStr (s : String) :
    (WalletMethod.fromStr s).walletFn = (WalletFn.ofName s).elim (.error s) .ok := by
  refine eq_find_of_table WalletFn.name (fun s => (WalletMethod.fromStr s).walletFn)
    WalletFn.mem_all WalletFn.walletFn_fromStr_name ?_ ?_ s
  · intro s fn hmethod
    rw [WalletMethod.name_walletFn hmethod, WalletMethod.asStr_fromStr]
  · intro s t hmethod
    rw [WalletMethod.walletFn_eq_error hmethod, WalletMethod.asStr_fromStr]

/-! ### The pipeline, by name -/

/-- The type the function of this name takes. -/
def Handler.requestNamed (h : Handler) (s : String) : Option Ty :=
  match h with
  | .wallet _ => (WalletFn.ofName s).map WalletFn.request
  | .control _ => (ControlFn.ofName s).map ControlFn.request

/-- Step 4, by name. -/
def validateNamed (explain : Explain) (h : Handler) (s : String) (params : Value) :
    Except NncError Unit :=
  match h.requestNamed s with
  | some request => check explain request params
  | none => .error (.notImplemented s)

/-- Steps 2 to 4, by name. -/
def vetNamed (explain : Explain) (h : Handler) (grants : Grants) (controller : PublicKey)
    (s : String) (params : Value) : Except NncError (UsageProfile × Option RateLimitRule) :=
  if !h.implements s then .error (.notImplemented s)
  else
    match grants.resolve controller with
    | .error d => .error (deny d)
    | .ok grant =>
      match h.allows grant.profile s with
      | .error d => .error (deny d)
      | .ok rule =>
        match validateNamed explain h s params with
        | .error e => .error e
        | .ok () => .ok (grant.profile, rule)

/-- Step 6, by name: the arm is that of the function of this name. -/
def Handler.dispatchNamed (explain : Explain) (h : Handler) (s : String) (params : Value)
    (caller : Caller) : Except NncError Value × List Call :=
  match h with
  | .wallet service =>
    match WalletFn.ofName s with
    | some fn =>
      dispatchArm explain fn.request params (.wallet fn · caller) (service.call fn · caller)
    | none => (.error (.notImplemented s), [])
  | .control service =>
    match ControlFn.ofName s with
    | some fn =>
      dispatchArm explain fn.request params (.control fn · caller) (service.call fn · caller)
    | none => (.error (.notImplemented s), [])

/-- Run one request through the pipeline, by the name that came with it. -/
def handleNamed (explain : Explain) (h : Handler) (grants : Grants) (usage : Usage)
    (controller : PublicKey) (requestId : Option EventId) (s : String) (params : Value)
    (now : UInt64) : Outcome :=
  let caller : Caller := { controller, requestId }
  match vetNamed explain h grants controller s params with
  | .error e => { result := .error e, usage := usage, calls := [] }
  | .ok (profile, rule) =>
    match usage.limitRate controller s rule now with
    | (.error e, usage) => { result := .error e, usage := usage, calls := [] }
    | (.ok (), usage) =>
      let prepare := Call.prepare s params caller (h.prepare s params caller)
      match h.prepare s params caller with
      | .error e => { result := .error e, usage := usage, calls := [prepare] }
      | .ok prepared =>
        match usage.limitQuota controller prepared.costSats profile.quota now with
        | (.error e, usage) => { result := .error e, usage := usage, calls := [prepare] }
        | (.ok (), usage) =>
          let (result, calls) := h.dispatchNamed explain s params caller
          { result := result
            usage := usage.commit controller prepared.costSats profile.quota now result
            calls := prepare :: calls }

/-! ### The two pipelines agree -/

lemma validate_fromStr (explain : Explain) (h : Handler) (s : String) (params : Value) :
    validate explain h (Method.fromStr s) params = validateNamed explain h s params := by
  rw [validate, validateNamed, Handler.requestType_eq]
  cases h with
  | wallet service =>
    simp only [Handler.armType, Handler.requestNamed, Method.asStr_fromStr,
      WalletMethod.walletFn_fromStr]
    cases WalletFn.ofName s with
    | none => rfl
    | some fn => rfl
  | control service =>
    simp only [Handler.armType, Handler.requestNamed, Method.controlFn_fromStr]
    cases ControlFn.ofName s with
    | none => rfl
    | some fn => rfl

lemma Handler.dispatch_fromStr (explain : Explain) (h : Handler) (s : String) (params : Value)
    (caller : Caller) :
    h.dispatch explain (Method.fromStr s) params caller =
      h.dispatchNamed explain s params caller := by
  cases h with
  | wallet service =>
    simp only [Handler.dispatch, Handler.dispatchNamed, dispatchWallet, Method.asStr_fromStr,
      WalletMethod.walletFn_fromStr]
    cases WalletFn.ofName s with
    | none => rfl
    | some fn => rfl
  | control service =>
    simp only [Handler.dispatch, Handler.dispatchNamed, dispatchControl, Method.controlFn_fromStr]
    cases ControlFn.ofName s with
    | none => rfl
    | some fn => rfl

lemma handle_fromStr (explain : Explain) (h : Handler) (grants : Grants) (usage : Usage)
    (controller : PublicKey) (requestId : Option EventId) (s : String) (params : Value)
    (now : UInt64) :
    handle explain h grants usage controller requestId (Method.fromStr s) params now =
      handleNamed explain h grants usage controller requestId s params now := by
  have hvet : vet explain h grants controller (Method.fromStr s) params =
      vetNamed explain h grants controller s params := by
    simp only [vet, Method.asStr_fromStr, validate_fromStr]
    rfl
  simp only [handle, hvet, Method.asStr_fromStr, Handler.dispatch_fromStr]
  rfl

/-! ### The response -/

/-- A method as it is written. -/
def Method.toValue (method : Method) : Value := .string method.asStr

/-- A method as it is read. -/
def Method.fromValue (v : Value) : Option Method :=
  match decode .string v with
  | some (.string s) => some (Method.fromStr s)
  | _ => none

/-- A response to a request that was read names its method. -/
lemma Service.resultType_answer (svc : Service) {codec : Codec} {event : Event} (kind : UInt16)
    (grants : Grants) (usage : Usage) (now : UInt64) {plaintext : String} {method : Method}
    {params : Value} (hplain : codec.inbox.nip44Decrypt event.pubkey event.content = some plaintext)
    (hrequest : codec.parseRequest plaintext = .ok (method, params)) :
    (svc.answer codec event kind grants usage now).1.resultType = method := by
  simp only [Service.answer, hplain, hrequest]
  split
  · rfl
  · split
    · rfl
    · rfl

/-- **A name survives every hop.** Whatever text comes as the method of a request, it is what is
written back, what is read again as a wallet method, what every step of the pipeline goes by, and
what the response names. -/
theorem method_name_survives (s : String) :
    Method.fromValue (.string s) = some (Method.fromStr s) ∧
    (Method.fromStr s).asStr = s ∧
    WalletMethod.fromStr (Method.fromStr s).asStr = WalletMethod.fromStr s ∧
    (∀ explain h grants usage controller requestId params now,
      handle explain h grants usage controller requestId (Method.fromStr s) params now =
        handleNamed explain h grants usage controller requestId s params now) ∧
    ∀ (svc : Service) (codec : Codec) (event : Event) (kind : UInt16) (grants : Grants)
      (usage : Usage) (now : UInt64) (plaintext : String) (params : Value),
      codec.inbox.nip44Decrypt event.pubkey event.content = some plaintext →
      codec.parseRequest plaintext = .ok (Method.fromStr s, params) →
      (svc.answer codec event kind grants usage now).1.resultType.toValue = .string s := by
  refine ⟨rfl, Method.asStr_fromStr s, by rw [Method.asStr_fromStr], ?_, ?_⟩
  · intro explain h grants usage controller requestId params now
    exact handle_fromStr explain h grants usage controller requestId s params now
  · intro svc codec event kind grants usage now plaintext params hplain hrequest
    rw [svc.resultType_answer kind grants usage now hplain hrequest, Method.toValue,
      Method.asStr_fromStr]

end NostrLn
