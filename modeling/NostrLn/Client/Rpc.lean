import NostrLn.Client.Link
import NostrLn.Service.Answer
import NostrLn.Wire.Typed

/-!
# A call from afar is a call

A client writes a request as text, encrypts it and sends it. The service decrypts and reads it, runs
it through the pipeline, and sends what comes of it back the same way. What the caller is told is
what the pipeline said, with two exceptions, both of `serde_json`'s making: parameters nested to its
limit are a malformed request, and a result nested to it cannot be read.
-/

namespace NostrLn

open Serde Json

/-! ### From one end to the other -/

/-- A request and its response: the client has sent the request, the service has replied, and the
reply is the one response by the service that arrives before the deadline. -/
structure Exchange (link : Link) (svc : Service) (loop : Loop) (now : UInt64) (kind : UInt16)
    (payload : String) where
  sent : Outgoing
  request_eq : link.request kind payload = .ok sent
  id : EventId
  createdAt : UInt64
  sig : Signature
  replied : Outgoing
  reply_eq : (svc.onEvent link.codec loop (sent.sign link.controller id createdAt sig) now).2.2 =
    some replied
  replyId : EventId
  repliedAt : UInt64
  replySig : Signature
  polls : List Poll
  arrives : replied.sign link.service replyId repliedAt replySig ∈ arrivals polls
  only : ∀ e ∈ arrivals polls,
    respondsTo (if kind = walletRequestKind then walletResponseKind else controlResponseKind)
      link.service id e = true → e = replied.sign link.service replyId repliedAt replySig

namespace Exchange

variable {link : Link} {svc : Service} {loop : Loop} {now : UInt64} {kind : UInt16}
  {payload : String}

/-- The event of the request. -/
def request (x : Exchange link svc loop now kind payload) : Event :=
  x.sent.sign link.controller x.id x.createdAt x.sig

/-- The event of the reply. -/
def answer (x : Exchange link svc loop now kind payload) : Event :=
  x.replied.sign link.service x.replyId x.repliedAt x.replySig

/-- What the service answers with. -/
def response (x : Exchange link svc loop now kind payload) : Response × Usage × List Call :=
  svc.answer link.codec x.request kind loop.own.grants loop.usage now

variable (x : Exchange link svc loop now kind payload)

lemma kind_request : x.request.kind = kind := (Link.request_eq_ok x.request_eq).1

lemma onEvent_request (hkind : kind = walletRequestKind ∨ kind = controlRequestKind) :
    svc.onEvent link.codec loop x.request now =
      ({ loop with usage := x.response.2.1 }, x.response.2.2,
        reply link.codec x.request kind x.response.1) := by
  have hevent := svc.onEvent_of_request link.codec loop now (x.kind_request.symm ▸ hkind)
  rw [x.kind_request] at hevent
  exact hevent

lemma reply_response (hkind : kind = walletRequestKind ∨ kind = controlRequestKind) :
    reply link.codec x.request kind x.response.1 = some x.replied := by
  have hreply := x.reply_eq
  rw [← Exchange.request, x.onEvent_request hkind] at hreply
  exact hreply

/-- The reply carries the response, encrypted to the client, and is a response to the request. -/
lemma answer_spec (hkind : kind = walletRequestKind ∨ kind = controlRequestKind) :
    link.nip44.encrypt link.service link.controller
        (renderResponse link.floats x.response.1) = .ok x.answer.content ∧
      respondsTo (if kind = walletRequestKind then walletResponseKind else controlResponseKind)
        link.service x.id x.answer = true := by
  have hreply := x.reply_response hkind
  have htag : eTagged x.id.toHex x.answer = true := by
    have hreply' : reply link.codec x.request x.request.kind x.response.1 = some x.replied := by
      rw [x.kind_request]
      exact hreply
    exact eTagged_sign_reply hreply'
  obtain ⟨ciphertext, hcipher, hout⟩ := Option.map_eq_some_iff.mp hreply
  have hkinds : x.answer.kind =
      if kind = walletRequestKind then walletResponseKind else controlResponseKind := by
    rw [Exchange.answer, ← hout]
    rfl
  have hcontent : x.answer.content = ciphertext := by
    rw [Exchange.answer, ← hout]
    rfl
  constructor
  · rw [hcontent]
    have hencrypt : (link.nip44.encrypt link.service link.controller
        (renderResponse link.floats x.response.1)).toOption = some ciphertext := hcipher
    cases henc : link.nip44.encrypt link.service link.controller
        (renderResponse link.floats x.response.1) with
    | error text =>
      rw [henc] at hencrypt
      cases hencrypt
    | ok c =>
      rw [henc] at hencrypt
      rw [Option.some.inj hencrypt]
  · have hby : x.answer.pubkey = link.service := rfl
    simp [respondsTo, hkinds, hby, htag]

/-- The wait comes upon the reply. -/
lemma find_answer (hkind : kind = walletRequestKind ∨ kind = controlRequestKind) :
    (arrivals x.polls).find? (respondsTo (if kind = walletRequestKind then walletResponseKind
      else controlResponseKind) link.service x.id) = some x.answer := by
  have hfound := List.find?_isSome.mpr ⟨x.answer, x.arrives, (x.answer_spec hkind).2⟩
  obtain ⟨e, he⟩ := Option.isSome_iff_exists.mp hfound
  rw [he, x.only e (List.mem_of_find?_eq_some he) (List.find?_some he)]
  rfl

end Exchange

/-! ### What the service returns -/

/-- Whatever a service returns is JSON as it is held, and its numbers are read back. -/
def Handler.Keeps (floats : Floats) : Handler → Prop
  | .control cs => ∀ fn d caller v, cs.call fn d caller = .ok (.ok v) → Kept floats v ∧ Tidy v
  | .wallet ws => ∀ fn d caller v, ws.call fn d caller = .ok (.ok v) → Kept floats v ∧ Tidy v

lemma Answer.toResult_eq_ok {answer : Answer} {v : Value} (h : answer.toResult = .ok v) :
    answer = .ok (.ok v) := by
  match answer with
  | .error e => cases h
  | .ok (.error text) => cases h
  | .ok (.ok w) =>
    cases h
    rfl

lemma dispatchArm_eq_ok {explain : Explain} {ty : Ty} {params v : Value} {call : Decoded → Call}
    {answer : Decoded → Answer} (h : (dispatchArm explain ty params call answer).1 = .ok v) :
    ∃ d, answer d = .ok (.ok v) := by
  rw [dispatchArm] at h
  cases hd : decode ty params with
  | none =>
    rw [hd] at h
    cases h
  | some d =>
    rw [hd] at h
    exact ⟨d, Answer.toResult_eq_ok h⟩

/-- A value that comes of a request was dispatched for, once the node had been asked to prepare. -/
lemma Request.dispatched_of_ok {q : Request} {explain : Explain} {u : Usage} {v : Value}
    (hv : (q.handle explain u).result = .ok v) :
    (q.dispatched explain).1 = .ok v ∧
      (q.handle explain u).calls = q.prepareCall :: (q.dispatched explain).2 := by
  have hexit := q.exit explain u
  generalize q.handle explain u = out at hexit hv ⊢
  cases hexit with
  | refused => cases hv
  | limited => cases hv
  | unprepared => cases hv
  | overQuota => cases hv
  | executed => exact ⟨hv, rfl⟩

/-- What comes of a request is what a function returned. -/
lemma Handler.Keeps.handle {floats : Floats} {q : Request} (h : q.handler.Keeps floats)
    {explain : Explain} {u : Usage} {v : Value} (hv : (q.handle explain u).result = .ok v) :
    Kept floats v ∧ Tidy v := by
  have hdispatched := (Request.dispatched_of_ok hv).1
  obtain ⟨handler, grants, controller, requestId, method, params, now⟩ := q
  simp only [Request.dispatched, Handler.dispatch] at hdispatched
  cases handler with
  | control cs =>
    simp only [dispatchControl] at hdispatched
    cases hfn : method.controlFn with
    | error name =>
      simp only [hfn] at hdispatched
      cases hdispatched
    | ok fn =>
      simp only [hfn] at hdispatched
      obtain ⟨d, hd⟩ := dispatchArm_eq_ok hdispatched
      exact h fn d _ v hd
  | wallet ws =>
    simp only [dispatchWallet] at hdispatched
    cases hfn : (WalletMethod.fromStr method.asStr).walletFn with
    | error name =>
      simp only [hfn] at hdispatched
      cases hdispatched
    | ok fn =>
      simp only [hfn] at hdispatched
      obtain ⟨d, hd⟩ := dispatchArm_eq_ok hdispatched
      exact h fn d _ v hd

/-! ### A call from afar -/

section

variable {link : Link} {svc : Service} {loop : Loop} {now : UInt64} {kind : UInt16}
  {payload : String}

/-- The request, as the pipeline is given it. -/
def Exchange.asked (x : Exchange link svc loop now kind payload) (handler : Handler)
    (name : String) (params : Value) : Request where
  handler := handler
  grants := loop.own.grants
  controller := link.controller
  requestId := some x.id
  method := .fromStr name
  params := params
  now := now

variable {handler : Handler} {name : String} {params : Value}

/-- What the service answers with, and what it comes to. -/
lemma Exchange.response_eq (x : Exchange link svc loop now kind payload)
    (hhandler : svc.handler kind = some handler)
    (hpayload : payload = renderRequest link.floats (.fromStr name) params)
    (hkept : Kept link.floats params) (htidy : Tidy params) :
    x.response =
      if nesting params < 127 then
        let out := (x.asked handler name params).handle link.explain loop.usage
        (out.response (.fromStr name), out.usage, out.calls)
      else (.err (.unknown "") (.malformed (link.requestError payload)), loop.usage, []) := by
  have hanswer := Link.answer_request x.request_eq hhandler hpayload hkept htidy x.id x.createdAt
    x.sig loop.own.grants loop.usage now
  rw [Method.asStr_fromStr] at hanswer
  exact hanswer

/-- The values of the response can be written and read. -/
lemma Exchange.keeps_response (x : Exchange link svc loop now kind payload)
    (hhandler : svc.handler kind = some handler) (hkeeps : handler.Keeps link.floats)
    (hpayload : payload = renderRequest link.floats (.fromStr name) params)
    (hkept : Kept link.floats params) (htidy : Tidy params) :
    ∀ v ∈ x.response.1.result, Kept link.floats v ∧ Tidy v := by
  intro v hv
  rw [x.response_eq hhandler hpayload hkept htidy] at hv
  split_ifs at hv
  · cases hresult : ((x.asked handler name params).handle link.explain loop.usage).result with
    | error e =>
      simp only [Outcome.response, hresult] at hv
      cases hv
    | ok w =>
      simp only [Outcome.response, hresult] at hv
      cases hv
      exact Handler.Keeps.handle hkeeps hresult
  · cases hv

/-- What the service is left with, and what it called. -/
lemma Exchange.onEvent_eq (x : Exchange link svc loop now kind payload)
    (hkind : kind = walletRequestKind ∨ kind = controlRequestKind)
    (hhandler : svc.handler kind = some handler)
    (hpayload : payload = renderRequest link.floats (.fromStr name) params)
    (hkept : Kept link.floats params) (htidy : Tidy params) :
    svc.onEvent link.codec loop x.request now =
      if nesting params < 127 then
        let out := (x.asked handler name params).handle link.explain loop.usage
        ({ loop with usage := out.usage }, out.calls, some x.replied)
      else (loop, [], some x.replied) := by
  rw [x.onEvent_request hkind, x.reply_response hkind,
    x.response_eq hhandler hpayload hkept htidy]
  split_ifs <;> rfl

/-- What the client of node control reads the response as. -/
lemma Exchange.awaitResponse_eq
    (x : Exchange link svc loop now controlRequestKind (link.controlPayload name params))
    (hhandler : svc.handler controlRequestKind = some handler)
    (hkeeps : handler.Keeps link.floats) (hkept : Kept link.floats params) (htidy : Tidy params) :
    link.control.awaitResponse x.id x.polls =
      if (x.response.1.result.map nesting).getD 0 < 127 then .ok x.response.1.reread
      else .error (.json (link.responseError (renderResponse link.floats x.response.1))) := by
  have hresult := x.keeps_response hhandler hkeeps rfl hkept htidy
  have hfind := x.find_answer (.inr rfl)
  rw [if_neg (by decide)] at hfind
  have hservice : link.control.service = link.service := rfl
  rw [NostrNodeControl.awaitResponse, waitLoop_readReply, hservice, hfind]
  exact Link.control_decodeResponse (x.answer_spec (.inr rfl)).1
    (fun v hv => (hresult v hv).1) (fun v hv => (hresult v hv).2)

lemma Link.walletPayload_eq (link : Link) (name : String) (params : Value) :
    link.walletPayload name params = renderRequest link.floats (.fromStr name) params := by
  rw [Link.walletPayload, renderWalletRequest_eq, WalletMethod.asStr_fromStr]

/-- What the client of a wallet is told. -/
lemma Exchange.walletCallRaw_eq
    (x : Exchange link svc loop now walletRequestKind (link.walletPayload name params))
    (hhandler : svc.handler walletRequestKind = some handler) (hkeeps : handler.Keeps link.floats)
    (hkept : Kept link.floats params) (htidy : Tidy params) :
    link.walletCallRaw name params x.id x.polls =
      if nesting params < 127 then
        link.told ((x.asked handler name params).handle link.explain loop.usage) (.fromStr name)
      else .error (.refused
        (.malformed (link.requestError (link.walletPayload name params)))) := by
  have hpayload := link.walletPayload_eq name params
  have hresult := x.keeps_response hhandler hkeeps hpayload hkept htidy
  have hwait : link.wallet.sendWait x.id x.polls = link.wallet.decodeResponse x.answer := by
    have hfind := x.find_answer (.inl rfl)
    rw [if_pos rfl] at hfind
    have hservice : link.wallet.wallet = link.service := rfl
    rw [WalletConnect.sendWait, waitLoop_readReply, hservice, hfind]
  have hdecode := Link.wallet_decodeResponse rfl (x.answer_spec (.inl rfl)).1
    (fun v hv => (hresult v hv).1) (fun v hv => (hresult v hv).2)
  have hcall : link.walletCallRaw name params x.id x.polls =
      link.wallet.decodeResponse x.answer := by
    rw [Link.walletCallRaw, x.request_eq, hwait]
    rfl
  rw [hcall, hdecode, x.response_eq hhandler hpayload hkept htidy]
  by_cases hn : nesting params < 127
  · simp only [if_pos hn]
    exact link.found_response _ (.fromStr name)
  · simp only [if_neg hn]
    rfl

end

namespace Sample

/-- A node with a wallet that can be administered. -/
def both : Service where
  owners := [key 2]
  wallet := some paying
  control := some sociable

/-- The loop when `key 3` may call every method of the wallet. -/
def trusted : Loop where
  own := { grants := grantedBy2 (key 3).toHex everyMethod, subs := Subscriptions.new (key 1) }
  usage := Usage.new
  delivery := { grants := grantedBy2 (key 3).toHex everyMethod, subs := Subscriptions.new (key 1) }

/-- The request of `key 3` with this text. -/
def outward (kind : UInt16) (payload : String) : Outgoing where
  kind := kind
  content := String.ofList ((key 3).toHex.toList ++ (key 1).toHex.toList ++ payload.toList)
  tags := [["p", (key 1).toHex]]

/-- The signature whose bytes are all `b`. -/
def signature (b : UInt8) : Signature := (grantEvent b othersKey "" 0).sig

/-- The request, signed. -/
def outwardEvent (kind : UInt16) (payload : String) : Event :=
  (outward kind payload).sign (key 3) (eventId 7) 7 (signature 7)

/-- The reply to it. -/
def homeward (svc : Service) (loop : Loop) (kind : UInt16) (payload : String) : Outgoing where
  kind := if kind = walletRequestKind then walletResponseKind else controlResponseKind
  content := String.ofList ((key 1).toHex.toList ++ (key 3).toHex.toList ++
    (renderResponse noFloats (svc.answer near.codec (outwardEvent kind payload) kind
      loop.own.grants loop.usage 8).1).toList)
  tags := [["p", (key 3).toHex], ["e", (outwardEvent kind payload).id.toHex]]

lemma isRequestKind_control : controlRequestKind = walletRequestKind ∨
    controlRequestKind = controlRequestKind := .inr rfl

lemma isRequestKind_wallet : walletRequestKind = walletRequestKind ∨
    walletRequestKind = controlRequestKind := .inl rfl

/-- The request is answered, and the answer is all that arrives. -/
def answeredAtOnce (svc : Service) (loop : Loop) {kind : UInt16}
    (hkind : kind = walletRequestKind ∨ kind = controlRequestKind) (payload : String) :
    Exchange near svc loop 8 kind payload where
  sent := outward kind payload
  request_eq := rfl
  id := eventId 7
  createdAt := 7
  sig := signature 7
  replied := homeward svc loop kind payload
  reply_eq := by
    change (svc.onEvent near.codec loop (outwardEvent kind payload) 8).2.2 = _
    rw [svc.onEvent_of_request near.codec loop 8 hkind]
    rfl
  replyId := eventId 8
  repliedAt := 8
  replySig := signature 8
  polls := [.item (.event ((homeward svc loop kind payload).sign (key 1) (eventId 8) 8
    (signature 8)))]
  arrives := List.mem_singleton.mpr rfl
  only e he _ := List.mem_singleton.mp he

end Sample

/-- **A call of node control from afar is a call.** Whatever the method and its parameters, and
whatever state the service is in, the caller is told what the pipeline says of the request, and the
service is left as the pipeline leaves it and has called what the pipeline calls; if the parameters
are nested to the reader's limit, the request is refused as malformed and nothing happens. -/
theorem control_call_is_handled (link : Link) (svc : Service) (cs : ControlService)
    (hserves : svc.control = some cs) (hkeeps : (Handler.control cs).Keeps link.floats)
    (loop : Loop) (now : UInt64) (name : String) (params : Value)
    (hkept : Kept link.floats params) (htidy : Tidy params)
    (x : Exchange link svc loop now controlRequestKind (link.controlPayload name params)) :
    let out := (x.asked (.control cs) name params).handle link.explain loop.usage
    link.controlCallRaw name params x.id x.polls =
      (if nesting params < 127 then link.told out (.fromStr name)
       else .error (.refused
        (.malformed (link.requestError (link.controlPayload name params))))) ∧
    svc.onEvent link.codec loop x.request now =
      if nesting params < 127 then ({ loop with usage := out.usage }, out.calls, some x.replied)
      else (loop, [], some x.replied) := by
  intro out
  have hhandler : svc.handler controlRequestKind = some (.control cs) := by
    rw [Service.handler, if_neg (by decide), hserves]
    rfl
  refine ⟨?_, x.onEvent_eq (.inr rfl) hhandler rfl hkept htidy⟩
  have hcall : link.controlCallRaw name params x.id x.polls =
      (link.control.awaitResponse x.id x.polls).bind Response.raw := by
    rw [Link.controlCallRaw, x.request_eq]
    rfl
  rw [hcall, x.awaitResponse_eq hhandler hkeeps hkept htidy, x.response_eq hhandler rfl hkept htidy]
  by_cases hn : nesting params < 127
  · simp only [if_pos hn]
    exact link.raw_response out (.fromStr name)
  · simp only [if_neg hn]
    rfl

namespace Sample

lemma kept_object {floats : Floats} {v : Value} (h : v = .object []) : Kept floats v ∧ Tidy v := by
  subst h
  exact ⟨.object (by simp), .object (by simp) .nil⟩

lemma sociable_keeps : (Handler.control sociable).Keeps noFloats := by
  intro fn d caller v h
  cases h
  exact kept_object rfl

lemma paying_keeps : (Handler.wallet paying).Keeps noFloats := by
  intro fn d caller v h
  cases h
  exact kept_object rfl

/-- `key 3` asks the node to connect to a peer. -/
def connecting : Exchange near both trusted 8 controlRequestKind
    (near.controlPayload "connect_peer" connectParams) :=
  answeredAtOnce both trusted isRequestKind_control _

/-- `key 3` asks the wallet to pay. -/
def buying : Exchange near both trusted 8 walletRequestKind
    (near.walletPayload "pay_invoice" payParams) :=
  answeredAtOnce both trusted isRequestKind_wallet _

end Sample

open Sample in
/-- The answer to a request to connect to a peer. -/
theorem connect_peer_is_handled :
    near.controlCallRaw "connect_peer" connectParams connecting.id connecting.polls =
      near.told ((connecting.asked (.control sociable) "connect_peer" connectParams).handle
        near.explain trusted.usage) (.fromStr "connect_peer") := by
  have hparams : encode ControlFn.connectPeer.request connectPeer = some connectParams := rfl
  have hplain := within_of_plain ControlFn.connectPeer.plain_request hparams
  have hcall := (control_call_is_handled near both sociable rfl sociable_keeps trusted 8
    "connect_peer" connectParams (closed_encode (kept_closed _) (hplain _) hparams)
    (closed_encode tidy_closed (hplain _) hparams) connecting).1
  rw [if_pos (by decide)] at hcall
  exact hcall

/-- **A call of a wallet from afar is a call**, in the same way. -/
theorem wallet_call_is_handled (link : Link) (svc : Service) (ws : WalletService)
    (hserves : svc.wallet = some ws) (hkeeps : (Handler.wallet ws).Keeps link.floats)
    (loop : Loop) (now : UInt64) (name : String) (params : Value)
    (hkept : Kept link.floats params) (htidy : Tidy params)
    (x : Exchange link svc loop now walletRequestKind (link.walletPayload name params)) :
    let out := (x.asked (.wallet ws) name params).handle link.explain loop.usage
    link.walletCallRaw name params x.id x.polls =
      (if nesting params < 127 then link.told out (.fromStr name)
       else .error (.refused
        (.malformed (link.requestError (link.walletPayload name params))))) ∧
    svc.onEvent link.codec loop x.request now =
      if nesting params < 127 then ({ loop with usage := out.usage }, out.calls, some x.replied)
      else (loop, [], some x.replied) := by
  intro out
  have hhandler : svc.handler walletRequestKind = some (.wallet ws) := by
    rw [Service.handler, if_pos rfl, hserves]
    rfl
  exact ⟨x.walletCallRaw_eq hhandler hkeeps hkept htidy,
    x.onEvent_eq (.inl rfl) hhandler (link.walletPayload_eq name params) hkept htidy⟩

open Sample in
/-- The answer to a request to pay. -/
theorem pay_invoice_is_handled :
    near.walletCallRaw "pay_invoice" payParams buying.id buying.polls =
      near.told ((buying.asked (.wallet paying) "pay_invoice" payParams).handle near.explain
        trusted.usage) (.fromStr "pay_invoice") := by
  have hparams : encode WalletFn.payInvoice.request payInvoice = some payParams := rfl
  have hkept : payInvoice.Within (Kept noFloats) :=
    payInvoice_within (.array (by simpa using Kept.string "thanks"))
  have htidy : payInvoice.Within Tidy :=
    payInvoice_within (.array (by simpa using Tidy.string "thanks"))
  have hcall := (wallet_call_is_handled near both paying rfl paying_keeps trusted 8 "pay_invoice"
    payParams (closed_encode (kept_closed _) hkept hparams)
    (closed_encode tidy_closed htidy hparams) buying).1
  rw [if_pos (by decide)] at hcall
  exact hcall

end NostrLn
