import NostrLn.Client.Stream
import NostrLn.Service.Transport

/-!
# Responses, matched to their requests

The client of node control and that of a wallet each wait for the response to a request they have
sent: an event of the response kind, by the service, with an `e` tag that names the request.
-/

namespace NostrLn

open Serde

/-- An event of the stream: passed over, or the response to a request. -/
def readReply {α : Type} (kind : UInt16) (service : PublicKey) (requestId : EventId)
    (decode : Event → Except ClientError α) (event : Event) : Option (Except ClientError α) :=
  if event.kind ≠ kind ∨ event.pubkey ≠ service then none
  else if !eTagged requestId.toHex event then none
  else some (decode event)

/-! ### Node control -/

/-- A client of node control, as far as it waits: the service it talks to, and what its signer and
`serde_json` make of a text. -/
structure NostrNodeControl where
  service : PublicKey
  timeout : ℕ
  nip44Decrypt : PublicKey → String → Except String String
  parseResponse : String → Except String Response

/-- What is made of a response. -/
def NostrNodeControl.decodeResponse (client : NostrNodeControl) (event : Event) :
    Except ClientError Response :=
  match client.nip44Decrypt client.service event.content with
  | .error text => .error (.signer text)
  | .ok plaintext =>
    match client.parseResponse plaintext with
    | .error text => .error (.json text)
    | .ok response => .ok response

/-- Wait for the response to a request. -/
def NostrNodeControl.awaitResponse (client : NostrNodeControl) (requestId : EventId)
    (polls : List Poll) : Except ClientError Response :=
  waitLoop (readReply controlResponseKind client.service requestId client.decodeResponse)
    client.timeout polls

/-! ### Wallet connect -/

/-- The wire names of the error codes. -/
def ErrorCode.named : List (String × ErrorCode) :=
  [("RATE_LIMITED", .rateLimited), ("NOT_IMPLEMENTED", .notImplemented),
   ("RESTRICTED", .restricted), ("UNAUTHORIZED", .unauthorized),
   ("QUOTA_EXCEEDED", .quotaExceeded), ("NOT_FOUND", .notFound),
   ("MULTIPLE_MATCHES", .multipleMatches), ("UNSUPPORTED_PAYMENT_TYPE", .unsupportedPaymentType),
   ("UNSUPPORTED_PAYMENT_INSTRUCTION", .unsupportedPaymentInstruction),
   ("FEE_LIMIT_EXCEEDED", .feeLimitExceeded), ("CHANNEL_FAILED", .channelFailed),
   ("CONNECTION_FAILED", .connectionFailed), ("INSUFFICIENT_BALANCE", .insufficientBalance),
   ("PAYMENT_FAILED", .paymentFailed), ("UNSUPPORTED_ENCRYPTION", .unsupportedEncryption),
   ("BAD_REQUEST", .badRequest), ("UNSUPPORTED_NETWORK", .unsupportedNetwork),
   ("INTERNAL", .internal), ("OTHER", .other)]

/-- The shape of an error. -/
def NncError.shape : Ty :=
  record [required "code" (.enum (ErrorCode.named.map Prod.fst) true), required "message" .string]

/-- An error code as it was decoded. -/
def ErrorCode.ofDecoded : Decoded → Option ErrorCode
  | .variant name => ErrorCode.named.lookup name
  | .unknown name => some (.unknown name)
  | _ => none

/-- Read an error. -/
def NncError.fromValue (explain : Explain) (v : Value) : Except String NncError :=
  match decode NncError.shape v with
  | some (.struct [(_, code), (_, .string message)]) =>
    match ErrorCode.ofDecoded code with
    | some code => .ok { code, message }
    | none => .error (explain NncError.shape v)
  | _ => .error (explain NncError.shape v)

/-- A client of a wallet, as far as it waits. -/
structure WalletConnect where
  wallet : PublicKey
  timeout : ℕ
  nip44Decrypt : PublicKey → String → Except String String
  parseValue : String → Except String Value
  explain : Explain

/-- What is made of a response: the error it carries unless that is null, else its result. -/
def WalletConnect.decodeResponse (client : WalletConnect) (event : Event) :
    Except ClientError Value :=
  match client.nip44Decrypt event.pubkey event.content with
  | .error text => .error (.signer text)
  | .ok plain =>
    match client.parseValue plain with
    | .error text => .error (.json text)
    | .ok v =>
      match (v.get "error").filter fun e => !e.isNull with
      | some err =>
        match NncError.fromValue client.explain err with
        | .error text => .error (.json text)
        | .ok e => .error (.refused e)
      | none => .ok ((v.get "result").getD .null)

/-- The wait of `send`, once the request has been sent. -/
def WalletConnect.sendWait (client : WalletConnect) (requestId : EventId) (polls : List Poll) :
    Except ClientError Value :=
  waitLoop (readReply walletResponseKind client.wallet requestId client.decodeResponse)
    client.timeout polls

/-! ### Correlation -/

/-- The event is a response by the service to the request. -/
def respondsTo (kind : UInt16) (service : PublicKey) (requestId : EventId) (event : Event) : Bool :=
  event.kind = kind && event.pubkey = service && eTagged requestId.toHex event

/-- The events that are not passed over are the responses to the request. -/
lemma readReply_eq {α : Type} (kind : UInt16) (service : PublicKey) (requestId : EventId)
    (decode : Event → Except ClientError α) :
    readReply kind service requestId decode = fun e =>
      if respondsTo kind service requestId e then some (decode e) else none := by
  funext e
  rw [readReply, respondsTo]
  by_cases hkind : e.kind = kind <;> by_cases hby : e.pubkey = service <;>
    cases htag : eTagged requestId.toHex e <;> simp [hkind, hby]

/-- A wait for a response acts on the first response to the request. -/
lemma waitLoop_readReply {α : Type} (kind : UInt16) (service : PublicKey) (requestId : EventId)
    (decode : Event → Except ClientError α) (timeout : ℕ) (polls : List Poll) :
    waitLoop (readReply kind service requestId decode) timeout polls =
      match (arrivals polls).find? (respondsTo kind service requestId) with
      | some e => decode e
      | none => .error (.timedOut timeout) := by
  rw [readReply_eq]
  exact waitLoop_choose ..

/-- What is no response to the request makes no difference. -/
lemma waitLoop_readReply_congr {α : Type} {kind : UInt16} {service : PublicKey}
    {requestId : EventId} (decode : Event → Except ClientError α) (timeout : ℕ)
    {polls polls' : List Poll}
    (h : (arrivals polls).filter (respondsTo kind service requestId) =
      (arrivals polls').filter (respondsTo kind service requestId)) :
    waitLoop (readReply kind service requestId decode) timeout polls =
      waitLoop (readReply kind service requestId decode) timeout polls' := by
  rw [waitLoop_readReply, waitLoop_readReply, find_congr_filter h]

/-- **Responses are matched to their requests.** Each client acts on the first event that is of its
response kind, by its service, and tagged with the request; its outcome is what that event decodes
to. Streams that have the same such events have the same outcome, whatever else they carry. -/
theorem responses_matched (nnc : NostrNodeControl) (nwc : WalletConnect) (requestId : EventId)
    (polls : List Poll) :
    (nnc.awaitResponse requestId polls =
      match (arrivals polls).find? (respondsTo controlResponseKind nnc.service requestId) with
      | some e => nnc.decodeResponse e
      | none => .error (.timedOut nnc.timeout)) ∧
    (nwc.sendWait requestId polls =
      match (arrivals polls).find? (respondsTo walletResponseKind nwc.wallet requestId) with
      | some e => nwc.decodeResponse e
      | none => .error (.timedOut nwc.timeout)) ∧
    (∀ polls',
      (arrivals polls).filter (respondsTo controlResponseKind nnc.service requestId) =
        (arrivals polls').filter (respondsTo controlResponseKind nnc.service requestId) →
      nnc.awaitResponse requestId polls = nnc.awaitResponse requestId polls') ∧
    ∀ polls',
      (arrivals polls).filter (respondsTo walletResponseKind nwc.wallet requestId) =
        (arrivals polls').filter (respondsTo walletResponseKind nwc.wallet requestId) →
      nwc.sendWait requestId polls = nwc.sendWait requestId polls' := by
  refine ⟨waitLoop_readReply .., waitLoop_readReply .., ?_, ?_⟩
  · intro polls' hsame
    exact waitLoop_readReply_congr _ _ hsame
  · intro polls' hsame
    exact waitLoop_readReply_congr _ _ hsame

end NostrLn
