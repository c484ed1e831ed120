import NostrLn.Grant.Basic
import NostrLn.Service.Handler
import NostrLn.Service.Usage

/-!
# The pipeline: the seven steps of a request, for both protocols

Resolve, authorize and validate neither touch the buckets nor call the handler; they are `vet`.
The rate is charged before anything is prepared, the quota is checked against the prepared cost,
and that cost is committed if the method succeeds.
-/

namespace NostrLn

open Serde

/-- The refusal a denial is answered with. -/
def deny : Denied → NncError
  | .unauthorized => { code := .unauthorized, message := "no grant applies to this controller" }
  | .restricted => { code := .restricted, message := "this controller may not call that method" }

/-- The parameters must decode as this type. -/
def check (explain : Explain) (request : Ty) (params : Value) : Except NncError Unit :=
  match decode request params with
  | some _ => .ok ()
  | none => .error (.badParams (explain request params))

/-- The type a control method's parameters are validated against. -/
def Method.validated : Method → Except String Ty
  | .listChannels => .ok Nnc.listChannelsRequest
  | .openChannel => .ok Nnc.openChannelRequest
  | .closeChannel => .ok Nnc.closeChannelRequest
  | .listPeers => .ok Nnc.listPeersRequest
  | .connectPeer => .ok Nnc.connectPeerRequest
  | .disconnectPeer => .ok Nnc.disconnectPeerRequest
  | .getChannelFees => .ok Nnc.getChannelFeesRequest
  | .setChannelFees => .ok Nnc.setChannelFeesRequest
  | .getForwardingHistory => .ok Nnc.getForwardingHistoryRequest
  | .getPendingHtlcs => .ok Nnc.getPendingHtlcsRequest
  | .queryRoutes => .ok Nnc.queryRoutesRequest
  | .listNetworkNodes => .ok Nnc.listNetworkNodesRequest
  | .getNetworkStats => .ok Nnc.getNetworkStatsRequest
  | .getNetworkNode => .ok Nnc.getNetworkNodeRequest
  | .getNetworkChannel => .ok Nnc.getNetworkChannelRequest
  | .signMessage => .ok Nnc.signMessageRequest
  | .unknown name => .error name

/-- The type a wallet method's parameters are validated against. -/
def WalletMethod.validated : WalletMethod → Except String Ty
  | .payInvoice => .ok Nwc.payInvoiceRequest
  | .makeInvoice => .ok Nwc.makeInvoiceRequest
  | .lookupInvoice => .ok Nwc.lookupInvoiceRequest
  | .getBalance => .ok Nwc.getBalanceRequest
  | .getInfo => .ok Nwc.getInfoRequest
  | .payOnchain => .ok Nwc.payOnchainRequest
  | .makeHoldInvoice => .ok Nwc.makeHoldInvoiceRequest
  | .settleHoldInvoice => .ok Nwc.settleHoldInvoiceRequest
  | .cancelHoldInvoice => .ok Nwc.cancelHoldInvoiceRequest
  | .quotePayment => .ok Nwc.quotePaymentRequest
  | .payKeysend => .ok Nwc.payKeysendRequest
  | .listTransactions => .ok Nwc.listTransactionsRequest
  | .makeNewAddress => .ok Nwc.makeNewAddressRequest
  | .lookupAddress => .ok Nwc.lookupAddressRequest
  | .listAddresses => .ok Nwc.listAddressesRequest
  | .estimateOnchainFees => .ok Nwc.estimateOnchainFeesRequest
  | .listInvoices => .ok Nwc.listInvoicesRequest
  | .pay => .ok Nwc.payRequest
  | .receive => .ok Nwc.receiveRequest
  | .makeOffer => .ok Nwc.makeOfferRequest
  | .lookupPayment => .ok Nwc.lookupPaymentRequest
  | .payOffer => .ok Nwc.payOfferRequest
  | .listOffers => .ok Nwc.listOffersRequest
  | .disableOffer => .ok Nwc.disableOfferRequest
  | .unknown name => .error name

/-- The type the parameters of a request are validated against, on the protocol it came by. -/
def Handler.requestType (h : Handler) (method : Method) : Except String Ty :=
  match h.protocol with
  | .wallet => (WalletMethod.fromStr method.asStr).validated
  | .control => method.validated

/-- Step 4: the parameters must decode as the method's own type. -/
def validate (explain : Explain) (h : Handler) (method : Method) (params : Value) :
    Except NncError Unit :=
  match h.requestType method with
  | .ok request => check explain request params
  | .error name => .error (.notImplemented name)

/-- The permission map of the request's own protocol. -/
def Handler.accessMap (h : Handler) (profile : UsageProfile) : Option AccessMap :=
  match h.protocol with
  | .wallet => profile.methods
  | .control => profile.control

/-- The rate rule for a name, by the map of the request's own protocol. -/
def Handler.allows (h : Handler) (profile : UsageProfile) (name : String) :
    Except Denied (Option RateLimitRule) :=
  match h.protocol with
  | .wallet => profile.allowsWallet name
  | .control => profile.allowsControl name

/-- Steps 2 to 4: resolve, authorize, validate. -/
def vet (explain : Explain) (h : Handler) (grants : Grants) (controller : PublicKey)
    (method : Method) (params : Value) : Except NncError (UsageProfile × Option RateLimitRule) :=
  let name := method.asStr
  if !h.implements name then .error (.notImplemented name)
  else
    match grants.resolve controller with
    | .error d => .error (deny d)
    | .ok grant =>
      match h.allows grant.profile name with
      | .error d => .error (deny d)
      | .ok rule =>
        match validate explain h method params with
        | .error e => .error e
        | .ok () => .ok (grant.profile, rule)

/-- The refusal of a call beyond its rate. -/
def NncError.rateLimited (name : String) : NncError :=
  { code := .rateLimited, message := name ++ " is rate limited for this controller" }

/-- The refusal of a spend beyond the quota. -/
def NncError.quotaExceeded (cost : UInt64) : NncError :=
  { code := .quotaExceeded
    message := toString cost ++ " sats exceeds this controller's remaining quota" }

/-- Step 5a: the rate, charged at once. -/
def Usage.limitRate (u : Usage) (controller : PublicKey) (name : String)
    (rule : Option RateLimitRule) (now : UInt64) : Except NncError Unit × Usage :=
  match rule with
  | none => (.ok (), u)
  | some rule =>
    let (allowed, u) := u.rateAllows controller name rule now
    if !allowed then (.error (.rateLimited name), u)
    else (.ok (), (u.chargeRate controller name rule now).2)

/-- Step 5c: the quota, against the prepared cost. -/
def Usage.limitQuota (u : Usage) (controller : PublicKey) (cost : UInt64)
    (quota : Option RateLimitRule) (now : UInt64) : Except NncError Unit × Usage :=
  if 0 < cost then
    match quota with
    | none => (.ok (), u)
    | some rule =>
      let (allowed, u) := u.quotaAllows controller cost rule now
      if !allowed then (.error (.quotaExceeded cost), u)
      else (.ok (), u)
  else (.ok (), u)

/-- Step 7: the quoted cost, and only on success. -/
def Usage.commit (u : Usage) (controller : PublicKey) (cost : UInt64)
    (quota : Option RateLimitRule) (now : UInt64) (result : Except NncError Value) : Usage :=
  match result with
  | .ok _ =>
    if 0 < cost then
      match quota with
      | none => u
      | some rule => (u.chargeQuota controller cost rule now).2
    else u
  | .error _ => u

/-- What a request comes to: the response, the buckets after it, and the calls made to the
handler, in order. -/
structure Outcome where
  result : Except NncError Value
  usage : Usage
  calls : List Call

/-- Run one request through the pipeline. -/
def handle (explain : Explain) (h : Handler) (grants : Grants) (usage : Usage)
    (controller : PublicKey) (requestId : Option EventId) (method : Method) (params : Value)
    (now : UInt64) : Outcome :=
  let caller : Caller := { controller, requestId }
  let name := method.asStr
  match vet explain h grants controller method params with
  | .error e => { result := .error e, usage := usage, calls := [] }
  | .ok (profile, rule) =>
    match usage.limitRate controller name rule now with
    | (.error e, usage) => { result := .error e, usage := usage, calls := [] }
    | (.ok (), usage) =>
      let prepare := Call.prepare name params caller (h.prepare name params caller)
      match h.prepare name params caller with
      | .error e => { result := .error e, usage := usage, calls := [prepare] }
      | .ok prepared =>
        match usage.limitQuota controller prepared.costSats profile.quota now with
        | (.error e, usage) => { result := .error e, usage := usage, calls := [prepare] }
        | (.ok (), usage) =>
          let (result, calls) := h.dispatch explain method params caller
          { result := result
            usage := usage.commit controller prepared.costSats profile.quota now result
            calls := prepare :: calls }

/-- One call of `handle`: all of its arguments but the state. -/
structure Request where
  handler : Handler
  grants : Grants
  controller : PublicKey
  requestId : Option EventId
  method : Method
  params : Value
  now : UInt64

namespace Request

def name (q : Request) : String := q.method.asStr

def caller (q : Request) : Caller := { controller := q.controller, requestId := q.requestId }

def vet (explain : Explain) (q : Request) : Except NncError (UsageProfile × Option RateLimitRule) :=
  NostrLn.vet explain q.handler q.grants q.controller q.method q.params

def handle (explain : Explain) (q : Request) (u : Usage) : Outcome :=
  NostrLn.handle explain q.handler q.grants u q.controller q.requestId q.method q.params q.now

/-- What the handler's `prepare` returns for this request. -/
def prepared (q : Request) : Except NncError Prepared := q.handler.prepare q.name q.params q.caller

/-- The call of `prepare` this request makes, if it gets that far. -/
def prepareCall (q : Request) : Call := .prepare q.name q.params q.caller q.prepared

/-- The dispatch of this request, if it gets that far. -/
def dispatched (explain : Explain) (q : Request) : Except NncError Value × List Call :=
  q.handler.dispatch explain q.method q.params q.caller

end Request

/-! ### The steps that read and write buckets -/

/-- What the rate step can do: nothing, without a rule; else refuse, or take one token. -/
lemma Usage.limitRate_cases (u : Usage) (c : PublicKey) (m : String) (rule : Option RateLimitRule)
    (now : UInt64) :
    (rule = none ∧ u.limitRate c m rule now = (.ok (), u)) ∨
    (∃ r, rule = some r ∧ (u.rateBucket c m r now).canWithdraw 1 now r = false ∧
      u.limitRate c m rule now = (.error (.rateLimited m), (u.rateAllows c m r now).2)) ∨
    ∃ r u', rule = some r ∧ (u.rateBucket c m r now).canWithdraw 1 now r = true ∧
      u.limitRate c m rule now = (.ok (), u') ∧ u'.quota = u.quota ∧
      ∀ k, u'.rate.lookup k =
        if k = (c.toHex, m) then
          some { balance := (u.rateBucket c m r now).balanceAt now r - 1, since := now }
        else u.rate.lookup k := by
  match rule with
  | none => exact Or.inl ⟨rfl, rfl⟩
  | some r =>
    have hfst := u.rateAllows_fst c m r now
    cases hcan : (u.rateBucket c m r now).canWithdraw 1 now r with
    | false =>
      refine Or.inr (Or.inl ⟨r, rfl, hcan, ?_⟩)
      simp [Usage.limitRate, hfst, hcan]
    | true =>
      refine Or.inr (Or.inr ⟨r, ((u.rateAllows c m r now).2.chargeRate c m r now).2, rfl, hcan,
        ?_, rfl, ?_⟩)
      · simp [Usage.limitRate, hfst, hcan]
      · intro k
        rw [Usage.lookup_chargeRate, Usage.rateBucket_rateAllows, Usage.lookup_rateAllows,
          Bucket.withdraw_of_canWithdraw hcan]
        split_ifs <;> rfl

/-- The quota covers a cost: there is nothing to pay, no quota, or enough left. -/
def Usage.Covers (u : Usage) (c : PublicKey) (cost : UInt64) (quota : Option RateLimitRule)
    (now : UInt64) : Prop :=
  cost = 0 ∨ ∀ rule ∈ quota, cost ≤ (u.quotaBucket c rule now).balanceAt now rule

instance (u : Usage) (c : PublicKey) (cost : UInt64) (quota : Option RateLimitRule)
    (now : UInt64) : Decidable (u.Covers c cost quota now) :=
  inferInstanceAs (Decidable (_ ∨ _))

/-- What the quota step can do: pass without a look at the buckets, or ask. -/
lemma Usage.limitQuota_cases (u : Usage) (c : PublicKey) (cost : UInt64)
    (quota : Option RateLimitRule) (now : UInt64) :
    ((cost = 0 ∨ quota = none) ∧ u.limitQuota c cost quota now = (.ok (), u)) ∨
    ∃ r, quota = some r ∧ 0 < cost ∧
      (((u.quotaBucket c r now).canWithdraw cost now r = false ∧
        u.limitQuota c cost quota now =
          (.error (.quotaExceeded cost), (u.quotaAllows c cost r now).2)) ∨
      ((u.quotaBucket c r now).canWithdraw cost now r = true ∧
        u.limitQuota c cost quota now = (.ok (), (u.quotaAllows c cost r now).2))) := by
  by_cases hcost : 0 < cost
  · match quota with
    | none => exact Or.inl ⟨Or.inr rfl, by simp [Usage.limitQuota, hcost]⟩
    | some r =>
      have hfst := u.quotaAllows_fst c cost r now
      refine Or.inr ⟨r, rfl, hcost, ?_⟩
      cases hcan : (u.quotaBucket c r now).canWithdraw cost now r with
      | false => exact Or.inl ⟨rfl, by simp [Usage.limitQuota, hcost, hfst, hcan]⟩
      | true => exact Or.inr ⟨rfl, by simp [Usage.limitQuota, hcost, hfst, hcan]⟩
  · have hzero : cost = 0 := UInt64.le_zero_iff.mp (UInt64.not_lt.mp hcost)
    exact Or.inl ⟨Or.inl hzero, by simp [Usage.limitQuota, hcost]⟩

/-- The quota step passes exactly when the quota covers the cost. -/
lemma Usage.limitQuota_eq_ok {u u' : Usage} {c : PublicKey} {cost : UInt64}
    {quota : Option RateLimitRule} {now : UInt64}
    (h : u.limitQuota c cost quota now = (.ok (), u')) : u.Covers c cost quota now := by
  obtain ⟨hfree | hfree, _⟩ | ⟨r, rfl, _, ⟨_, heq⟩ | ⟨hcan, _⟩⟩ := u.limitQuota_cases c cost quota now
  · exact Or.inl hfree
  · exact Or.inr (by simp [hfree])
  · rw [heq] at h
    cases h
  · exact Or.inr (by simpa [Bucket.canWithdraw] using hcan)

lemma Usage.limitQuota_eq_error {u u' : Usage} {c : PublicKey} {cost : UInt64}
    {quota : Option RateLimitRule} {now : UInt64} {e : NncError}
    (h : u.limitQuota c cost quota now = (.error e, u')) :
    ¬ u.Covers c cost quota now ∧ e = .quotaExceeded cost := by
  obtain ⟨_, heq⟩ | ⟨r, rfl, hpos, ⟨hcan, heq⟩ | ⟨_, heq⟩⟩ := u.limitQuota_cases c cost quota now
  · rw [heq] at h
    cases h
  · rw [heq] at h
    cases h
    refine ⟨?_, rfl⟩
    rintro (rfl | hle)
    · simp at hpos
    · simp [Bucket.canWithdraw, hle r rfl] at hcan
  · rw [heq] at h
    cases h

/-- The rate step touches no quota bucket. -/
lemma Usage.quota_of_limitRate {u u' : Usage} {c : PublicKey} {m : String}
    {rule : Option RateLimitRule} {now : UInt64} {r : Except NncError Unit}
    (h : u.limitRate c m rule now = (r, u')) : u'.quota = u.quota := by
  obtain ⟨_, heq⟩ | ⟨_, _, _, heq⟩ | ⟨_, _, _, _, heq, hquota, _⟩ := u.limitRate_cases c m rule now
  · rw [heq] at h
    cases h
    rfl
  · rw [heq] at h
    cases h
    rfl
  · rw [heq] at h
    cases h
    exact hquota

/-- Whether the quota covers a cost depends on the quota buckets alone. -/
lemma Usage.covers_iff_of_quota_eq {u u' : Usage} (h : u'.quota = u.quota) (c : PublicKey)
    (cost : UInt64) (quota : Option RateLimitRule) (now : UInt64) :
    u'.Covers c cost quota now ↔ u.Covers c cost quota now := by
  simp [Usage.Covers, Usage.quotaBucket, h]

/-- The quota step touches no rate bucket. -/
lemma Usage.rate_of_limitQuota {u u' : Usage} {c : PublicKey} {cost : UInt64}
    {quota : Option RateLimitRule} {now : UInt64} {r : Except NncError Unit}
    (h : u.limitQuota c cost quota now = (r, u')) : u'.rate = u.rate := by
  obtain ⟨_, heq⟩ | ⟨_, _, _, ⟨_, heq⟩ | ⟨_, heq⟩⟩ := u.limitQuota_cases c cost quota now <;>
    (rw [heq] at h; cases h; rfl)

@[simp] lemma Usage.rate_commit (u : Usage) (c : PublicKey) (cost : UInt64)
    (quota : Option RateLimitRule) (now : UInt64) (result : Except NncError Value) :
    (u.commit c cost quota now result).rate = u.rate := by
  simp only [Usage.commit]
  split
  · split
    · split <;> rfl
    · rfl
  · rfl

lemma Usage.lookup_of_limitRate {u u' : Usage} {c : PublicKey} {m : String}
    {rule : Option RateLimitRule} {now : UInt64} {r : Except NncError Unit}
    (h : u.limitRate c m rule now = (r, u')) {k : String × String} (hk : k ≠ (c.toHex, m)) :
    u'.rate.lookup k = u.rate.lookup k := by
  obtain ⟨_, heq⟩ | ⟨_, _, _, heq⟩ | ⟨_, _, _, _, heq, _, hlookup⟩ := u.limitRate_cases c m rule now
  · rw [heq] at h
    cases h
    rfl
  · rw [heq] at h
    cases h
    rw [Usage.lookup_rateAllows, if_neg hk]
  · rw [heq] at h
    cases h
    rw [hlookup, if_neg hk]

lemma Usage.lookup_of_limitQuota {u u' : Usage} {c : PublicKey} {cost : UInt64}
    {quota : Option RateLimitRule} {now : UInt64} {r : Except NncError Unit}
    (h : u.limitQuota c cost quota now = (r, u')) {k : String} (hk : k ≠ c.toHex) :
    u'.quota.lookup k = u.quota.lookup k := by
  obtain ⟨_, heq⟩ | ⟨_, _, _, ⟨_, heq⟩ | ⟨_, heq⟩⟩ := u.limitQuota_cases c cost quota now
  · rw [heq] at h
    cases h
    rfl
  · rw [heq] at h
    cases h
    rw [Usage.lookup_quotaAllows, if_neg hk]
  · rw [heq] at h
    cases h
    rw [Usage.lookup_quotaAllows, if_neg hk]

lemma Usage.lookup_commit_of_ne (u : Usage) {c : PublicKey} (cost : UInt64)
    (quota : Option RateLimitRule) (now : UInt64) (result : Except NncError Value) {k : String}
    (hk : k ≠ c.toHex) : (u.commit c cost quota now result).quota.lookup k = u.quota.lookup k := by
  simp only [Usage.commit]
  split
  · split
    · split
      · rfl
      · rw [Usage.lookup_chargeQuota, if_neg hk]
    · rfl
  · rfl

/-! ### The exits of the pipeline -/

/-- Every way a request can end, in the order of the steps. -/
inductive Exit (explain : Explain) (q : Request) (u : Usage) : Outcome → Prop
  | refused (e : NncError) (hvet : q.vet explain = .error e) :
      Exit explain q u { result := .error e, usage := u, calls := [] }
  | limited (profile : UsageProfile) (rule : Option RateLimitRule) (e : NncError) (u' : Usage)
      (hvet : q.vet explain = .ok (profile, rule))
      (hrate : u.limitRate q.controller q.name rule q.now = (.error e, u')) :
      Exit explain q u { result := .error e, usage := u', calls := [] }
  | unprepared (profile : UsageProfile) (rule : Option RateLimitRule) (e : NncError) (u' : Usage)
      (hvet : q.vet explain = .ok (profile, rule))
      (hrate : u.limitRate q.controller q.name rule q.now = (.ok (), u'))
      (hprepare : q.prepared = .error e) :
      Exit explain q u { result := .error e, usage := u', calls := [q.prepareCall] }
  | overQuota (profile : UsageProfile) (rule : Option RateLimitRule) (prepared : Prepared)
      (e : NncError) (u' u'' : Usage)
      (hvet : q.vet explain = .ok (profile, rule))
      (hrate : u.limitRate q.controller q.name rule q.now = (.ok (), u'))
      (hprepare : q.prepared = .ok prepared)
      (hquota : u'.limitQuota q.controller prepared.costSats profile.quota q.now = (.error e, u'')) :
      Exit explain q u { result := .error e, usage := u'', calls := [q.prepareCall] }
  | executed (profile : UsageProfile) (rule : Option RateLimitRule) (prepared : Prepared)
      (u' u'' : Usage)
      (hvet : q.vet explain = .ok (profile, rule))
      (hrate : u.limitRate q.controller q.name rule q.now = (.ok (), u'))
      (hprepare : q.prepared = .ok prepared)
      (hquota : u'.limitQuota q.controller prepared.costSats profile.quota q.now = (.ok (), u'')) :
      Exit explain q u
        { result := (q.dispatched explain).1
          usage := u''.commit q.controller prepared.costSats profile.quota q.now
            (q.dispatched explain).1
          calls := q.prepareCall :: (q.dispatched explain).2 }

lemma Request.exit (explain : Explain) (q : Request) (u : Usage) :
    Exit explain q u (q.handle explain u) := by
  have hname : q.name = q.method.asStr := rfl
  have hcaller : q.caller = { controller := q.controller, requestId := q.requestId } := rfl
  rw [Request.handle, NostrLn.handle]
  simp only [← hname, ← hcaller]
  split
  · rename_i e h
    exact .refused e h
  · rename_i profile rule h
    split
    · rename_i e u' hrate
      exact .limited profile rule e u' h hrate
    · rename_i u' hrate
      split
      · rename_i e hprepare
        exact .unprepared profile rule e u' h hrate hprepare
      · rename_i prepared hprepare
        split
        · rename_i e u'' hquota
          exact .overQuota profile rule prepared e u' u'' h hrate hprepare hquota
        · rename_i u'' hquota
          exact .executed profile rule prepared u' u'' h hrate hprepare hquota

/-- A request touches no quota bucket but its controller's. -/
lemma Request.quota_frame (explain : Explain) (q : Request) (u : Usage) {k : String}
    (hk : k ≠ q.controller.toHex) :
    (q.handle explain u).usage.quota.lookup k = u.quota.lookup k := by
  have hexit := q.exit explain u
  generalize q.handle explain u = out at hexit
  cases hexit with
  | refused => rfl
  | limited _ _ _ _ _ hrate => rw [Usage.quota_of_limitRate hrate]
  | unprepared _ _ _ _ _ hrate => rw [Usage.quota_of_limitRate hrate]
  | overQuota _ _ _ _ _ _ _ hrate _ hquota =>
    rw [Usage.lookup_of_limitQuota hquota hk, Usage.quota_of_limitRate hrate]
  | executed _ _ _ _ _ _ hrate _ hquota =>
    rw [Usage.lookup_commit_of_ne _ _ _ _ _ hk, Usage.lookup_of_limitQuota hquota hk,
      Usage.quota_of_limitRate hrate]

/-- A request touches no rate bucket but the one of its controller and method. -/
lemma Request.rate_frame (explain : Explain) (q : Request) (u : Usage) {k : String × String}
    (hk : k ≠ (q.controller.toHex, q.name)) :
    (q.handle explain u).usage.rate.lookup k = u.rate.lookup k := by
  have hexit := q.exit explain u
  generalize q.handle explain u = out at hexit
  cases hexit with
  | refused => rfl
  | limited _ _ _ _ _ hrate => exact Usage.lookup_of_limitRate hrate hk
  | unprepared _ _ _ _ _ hrate => exact Usage.lookup_of_limitRate hrate hk
  | overQuota _ _ _ _ _ _ _ hrate _ hquota =>
    rw [Usage.rate_of_limitQuota hquota, Usage.lookup_of_limitRate hrate hk]
  | executed _ _ _ _ _ _ hrate _ hquota =>
    rw [Usage.rate_commit, Usage.rate_of_limitQuota hquota, Usage.lookup_of_limitRate hrate hk]

/-- The rate buckets after an admitted request are those the rate step left. -/
lemma Request.rate_of_vetted {explain : Explain} {q : Request} {profile : UsageProfile}
    {rule : Option RateLimitRule} (h : q.vet explain = .ok (profile, rule)) (u : Usage) :
    (q.handle explain u).usage.rate = (u.limitRate q.controller q.name rule q.now).2.rate := by
  have hexit := q.exit explain u
  generalize q.handle explain u = out at hexit
  cases hexit with
  | refused _ hvet => rw [h] at hvet; cases hvet
  | limited _ _ _ _ hvet hrate => rw [h] at hvet; cases hvet; rw [hrate]
  | unprepared _ _ _ _ hvet hrate => rw [h] at hvet; cases hvet; rw [hrate]
  | overQuota _ _ _ _ _ _ hvet hrate _ hquota =>
    rw [h] at hvet
    cases hvet
    rw [hrate, Usage.rate_of_limitQuota hquota]
  | executed _ _ _ _ _ hvet hrate _ hquota =>
    rw [h] at hvet
    cases hvet
    rw [hrate, Usage.rate_commit, Usage.rate_of_limitQuota hquota]

/-- A request that is not admitted changes nothing and calls nothing. -/
lemma Request.handle_of_not_admitted {explain : Explain} {q : Request} {e : NncError}
    (h : q.vet explain = .error e) (u : Usage) :
    q.handle explain u = { result := .error e, usage := u, calls := [] } := by
  have hvet : NostrLn.vet explain q.handler q.grants q.controller q.method q.params = .error e := h
  rw [Request.handle, NostrLn.handle]
  simp only [hvet]

/-! ### Admission -/

lemma Handler.allows_eq (h : Handler) (profile : UsageProfile) (name : String) :
    h.allows profile name =
      if profile.isValid then lookup (h.accessMap profile) name else .error .unauthorized := by
  cases h with
  | wallet s => exact UsageProfile.allowsWallet_eq profile name
  | control s => exact UsageProfile.allowsControl_eq profile name

end NostrLn
