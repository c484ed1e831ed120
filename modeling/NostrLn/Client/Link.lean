import NostrLn.Client.Subscribe
import NostrLn.Service.Answer
import NostrLn.Wire.Envelope

/-!
# Both ends of a connection

A client and a service over the same NIP-44 and the same JSON: what each makes of what the other
has written. The texts with which a failure is explained are left open.
-/

namespace NostrLn

open Serde Json

/-! ### Both ends -/

/-- A client and a service: NIP-44 and `serde_json` as both use them, and the texts their failures
are explained with. -/
structure Link where
  floats : Floats
  nip44 : Nip44
  explain : Explain
  requestError : String → String
  responseError : String → String
  signerError : String → String
  parseProfile : String → Option UsageProfile
  service : PublicKey
  controller : PublicKey
  timeout : ℕ

namespace Link

/-- What the service reads and writes. -/
def codec (link : Link) : Codec where
  parseProfile := link.parseProfile
  inbox := link.nip44.inbox link.service
  parseRequest text :=
    match parseText (readRequest link.floats) text with
    | some request => .ok request
    | none => .error (link.requestError text)
  renderResponse := renderResponse link.floats
  nip44Encrypt peer text := (link.nip44.encrypt link.service peer text).toOption
  explain := link.explain

/-- What the client's signer makes of a ciphertext. -/
def decrypt (link : Link) (peer : PublicKey) (ciphertext : String) : Except String String :=
  match link.nip44.decrypt link.controller peer ciphertext with
  | some text => .ok text
  | none => .error (link.signerError ciphertext)

/-- The client of node control. -/
def control (link : Link) : NostrNodeControl where
  service := link.service
  timeout := link.timeout
  nip44Decrypt := link.decrypt
  parseResponse text :=
    match parseText (readResponse link.floats) text with
    | some response => .ok response
    | none => .error (link.responseError text)

/-- The client of a wallet. -/
def wallet (link : Link) : WalletConnect where
  wallet := link.service
  timeout := link.timeout
  nip44Decrypt := link.decrypt
  parseValue text :=
    match parseText (readValue link.floats) text with
    | some v => .ok v
    | none => .error (link.responseError text)
  explain := link.explain

/-- The event that carries a request. -/
def request (link : Link) (kind : UInt16) (payload : String) : Except ClientError Outgoing :=
  match link.nip44.encrypt link.controller link.service payload with
  | .error text => .error (.signer text)
  | .ok ciphertext => .ok
    { kind := kind
      content := ciphertext
      tags := [["p", link.service.toHex]] }

end Link

/-! ### Calls by name -/

/-- What `call_raw` of node control makes of a response. -/
def Response.raw (r : Response) : Except ClientError Value :=
  match r.error with
  | some e => .error (.refused e)
  | none => .ok (r.result.getD .null)

/-- The text of a request by name, for node control. -/
def Link.controlPayload (link : Link) (name : String) (params : Value) : String :=
  renderRequest link.floats (.fromStr name) params

/-- Call a method of node control by name: `id` is that of the event sent, and `polls` what the
wait for the response comes upon. -/
def Link.controlCallRaw (link : Link) (name : String) (params : Value) (id : EventId)
    (polls : List Poll) : Except ClientError Value := do
  let _ ← link.request controlRequestKind (link.controlPayload name params)
  let response ← link.control.awaitResponse id polls
  response.raw

/-- The text of a request by name, for a wallet. -/
def Link.walletPayload (link : Link) (name : String) (params : Value) : String :=
  renderWalletRequest link.floats (.fromStr name) params

/-- Call a method of a wallet by name. -/
def Link.walletCallRaw (link : Link) (name : String) (params : Value) (id : EventId)
    (polls : List Poll) : Except ClientError Value := do
  let _ ← link.request walletRequestKind (link.walletPayload name params)
  link.wallet.sendWait id polls

/-! ### What the caller is to be told -/

/-- The response to a request that came to an outcome. -/
def Outcome.response (out : Outcome) (method : Method) : Response :=
  match out.result with
  | .ok value => { resultType := method, result := some value, error := none }
  | .error e => .err method e

/-- What can be read of the response to an outcome: its value if that is not nested to the limit,
or its error. -/
def Link.told (link : Link) (out : Outcome) (method : Method) : Except ClientError Value :=
  match out.result with
  | .ok v =>
    if nesting v < 127 then .ok v
    else .error (.json (link.responseError (renderResponse link.floats (out.response method))))
  | .error e => .error (.refused e.reread)

/-- The refusal of a request that cannot be read. -/
def NncError.malformed (text : String) : NncError :=
  { code := .other, message := "malformed request: " ++ text }

/-! ### At the service -/

section

variable {link : Link} {kind : UInt16} {payload : String} {sent : Outgoing}

lemma Link.request_eq_ok (h : link.request kind payload = .ok sent) :
    sent.kind = kind ∧ sent.tags = [["p", link.service.toHex]] ∧
      link.nip44.encrypt link.controller link.service payload = .ok sent.content := by
  rw [Link.request] at h
  cases hcipher : link.nip44.encrypt link.controller link.service payload with
  | error text =>
    rw [hcipher] at h
    cases h
  | ok ciphertext =>
    rw [hcipher] at h
    cases h
    exact ⟨rfl, rfl, rfl⟩

variable {svc : Service} {handler : Handler} {method : Method} {params : Value}

/-- A request that was sent is run through the pipeline, if its parameters can be read. -/
lemma Link.answer_request (hsent : link.request kind payload = .ok sent)
    (hhandler : svc.handler kind = some handler)
    (hpayload : payload = renderRequest link.floats method params)
    (hkept : Kept link.floats params) (htidy : Tidy params) (id : EventId) (createdAt : UInt64)
    (sig : Signature) (grants : Grants) (usage : Usage) (now : UInt64) :
    svc.answer link.codec (sent.sign link.controller id createdAt sig) kind grants usage now =
      if nesting params < 127 then
        let out := handle link.explain handler grants usage link.controller (some id)
          (.fromStr method.asStr) params now
        (out.response (.fromStr method.asStr), out.usage, out.calls)
      else (.err (.unknown "") (.malformed (link.requestError payload)), usage, []) := by
  obtain ⟨_, _, hcipher⟩ := Link.request_eq_ok hsent
  have hplain : link.codec.inbox.nip44Decrypt (sent.sign link.controller id createdAt sig).pubkey
      (sent.sign link.controller id createdAt sig).content = some payload :=
    link.nip44.decrypt_encrypt hcipher
  have hparse : link.codec.parseRequest payload =
      if nesting params < 127 then .ok (.fromStr method.asStr, params)
      else .error (link.requestError payload) := by
    simp only [Link.codec, hpayload, parseRequest_render method hkept htidy]
    split_ifs <;> rfl
  rw [Service.handler] at hhandler
  simp only [Service.answer, hplain, hparse, hhandler]
  by_cases hn : nesting params < 127
  · simp only [if_pos hn, Outcome.response, Link.codec, Outgoing.sign]
    cases (handle link.explain handler grants usage link.controller (some id)
      (.fromStr method.asStr) params now).result <;> rfl
  · simp only [if_neg hn]
    rfl

end

/-! ### At the client -/

section

variable {link : Link} {r : Response} {e : Event}

/-- The client decrypts what the service has encrypted for it. -/
lemma Link.decrypt_of_encrypt {text : String}
    (h : link.nip44.encrypt link.service link.controller text = .ok e.content) :
    link.decrypt link.service e.content = .ok text := by
  rw [Link.decrypt, link.nip44.decrypt_encrypt h]

/-- The client of node control reads the response. -/
lemma Link.control_decodeResponse
    (hcipher : link.nip44.encrypt link.service link.controller (renderResponse link.floats r) =
      .ok e.content)
    (hkept : ∀ v ∈ r.result, Kept link.floats v) (htidy : ∀ v ∈ r.result, Tidy v) :
    link.control.decodeResponse e =
      if (r.result.map nesting).getD 0 < 127 then .ok r.reread
      else .error (.json (link.responseError (renderResponse link.floats r))) := by
  simp only [NostrNodeControl.decodeResponse, Link.control, Link.decrypt_of_encrypt hcipher,
    parseResponse_render hkept htidy]
  by_cases hn : (r.result.map nesting).getD 0 < 127
  · simp only [if_pos hn]
  · simp only [if_neg hn]

/-- What `call_raw` makes of the response to an outcome. -/
lemma Link.raw_response (link : Link) (out : Outcome) (method : Method) :
    (if ((out.response method).result.map nesting).getD 0 < 127 then
      .ok (out.response method).reread
     else .error (.json (link.responseError (renderResponse link.floats (out.response method)))) :
        Except ClientError Response).bind Response.raw = link.told out method := by
  obtain ⟨result, usage, calls⟩ := out
  cases result with
  | error e => rfl
  | ok v =>
    have hnesting : ((Outcome.response ⟨.ok v, usage, calls⟩ method).result.map nesting).getD 0 =
      nesting v := rfl
    rw [hnesting, Link.told]
    by_cases hn : nesting v < 127
    · simp only [if_pos hn]
      cases hnull : v.isNull with
      | true =>
        cases v with
        | null => rfl
        | _ => cases hnull
      | false =>
        simp [Except.bind, Outcome.response, Response.reread, Response.raw, Option.filter, hnull]
    · simp only [if_neg hn]
      rfl

/-- What a wallet's client makes of the response to an outcome. -/
lemma Link.found_response (link : Link) (out : Outcome) (method : Method) :
    (if ((out.response method).result.map nesting).getD 0 < 127 then
      match (out.response method).error with
      | some e => .error (.refused e.reread)
      | none => .ok ((out.response method).result.getD .null)
     else .error (.json (link.responseError (renderResponse link.floats (out.response method)))) :
        Except ClientError Value) = link.told out method := by
  obtain ⟨result, usage, calls⟩ := out
  cases result with
  | error e => rfl
  | ok v => rfl

/-- The client of a wallet reads the response. -/
lemma Link.wallet_decodeResponse (hby : e.pubkey = link.service)
    (hcipher : link.nip44.encrypt link.service link.controller (renderResponse link.floats r) =
      .ok e.content)
    (hkept : ∀ v ∈ r.result, Kept link.floats v) (htidy : ∀ v ∈ r.result, Tidy v) :
    link.wallet.decodeResponse e =
      if (r.result.map nesting).getD 0 < 127 then
        match r.error with
        | some e => .error (.refused e.reread)
        | none => .ok (r.result.getD .null)
      else .error (.json (link.responseError (renderResponse link.floats r))) := by
  have hget : ∀ name, (Value.object (sortEntries r.entries)).get name = entry name r.entries :=
    fun name => entry_sortEntries r.nodup_entries name
  have hplain : link.wallet.nip44Decrypt e.pubkey e.content =
      .ok (renderResponse link.floats r) := by
    rw [hby]
    exact Link.decrypt_of_encrypt hcipher
  by_cases hn : (r.result.map nesting).getD 0 < 127
  · have hparse : link.wallet.parseValue (renderResponse link.floats r) =
        .ok (.object (sortEntries r.entries)) := by
      simp only [Link.wallet, parseValue_render hkept htidy, if_pos hn]
    simp only [WalletConnect.decodeResponse, hplain, hparse, hget, if_pos hn]
    cases herror : r.error with
    | some e =>
      have hentry : (entry "error" r.entries).filter (fun v => !v.isNull) = some e.toValue := by
        rw [Response.entries, herror]
        cases r.result <;> rfl
      simp only [hentry, NncError.fromValue_toValue]
    | none =>
      have hentry : entry "error" r.entries = none := by
        rw [Response.entries, herror]
        cases r.result <;> rfl
      have hresult : entry "result" r.entries = r.result := by
        rw [Response.entries, herror]
        cases r.result <;> rfl
      simp only [hentry, Option.filter_none, hresult]
  · have hparse : link.wallet.parseValue (renderResponse link.floats r) =
        .error (link.responseError (renderResponse link.floats r)) := by
      simp only [Link.wallet, parseValue_render hkept htidy, if_neg hn]
    simp only [WalletConnect.decodeResponse, hplain, hparse, if_neg hn]

end

namespace Sample

/-- The client `key 3` of the node `key 1`. -/
def near : Link where
  floats := noFloats
  nip44 := sealedTexts
  explain _ _ := "invalid type"
  requestError _ := "expected value"
  responseError _ := "recursion limit exceeded"
  signerError _ := "invalid HMAC"
  parseProfile := readProfile
  service := key 1
  controller := key 3
  timeout := 30

end Sample

end NostrLn
