import NostrLn.Nnc
import NostrLn.Nostr
import NostrLn.Nwc

/-!
# What a node implements, and where a name becomes a typed call

One service for each protocol. A service says which names it serves, what a call would cost
(`prepare`), and what each of its typed functions returns. A function takes the decoded request
and gives its response, which is then written as JSON.
-/

namespace NostrLn

open Serde

/-- Who is asking, and in which event. -/
structure Caller where
  controller : PublicKey
  requestId : Option EventId
deriving DecidableEq

/-- The result of preparing: what the operation will cost, in satoshis. The selection carried with
it is the node's own and is not read here. -/
structure Prepared where
  costSats : UInt64
deriving DecidableEq

/-- The typed functions of a control service. -/
inductive ControlFn
  | listChannels
  | openChannel
  | closeChannel
  | listPeers
  | connectPeer
  | disconnectPeer
  | getChannelFees
  | setChannelFees
  | getForwardingHistory
  | getPendingHtlcs
  | queryRoutes
  | listNetworkNodes
  | getNetworkStats
  | getNetworkNode
  | getNetworkChannel
  | signMessage
deriving DecidableEq

/-- The request type each function takes. -/
def ControlFn.request : ControlFn → Ty
  | .listChannels => Nnc.listChannelsRequest
  | .openChannel => Nnc.openChannelRequest
  | .closeChannel => Nnc.closeChannelRequest
  | .listPeers => Nnc.listPeersRequest
  | .connectPeer => Nnc.connectPeerRequest
  | .disconnectPeer => Nnc.disconnectPeerRequest
  | .getChannelFees => Nnc.getChannelFeesRequest
  | .setChannelFees => Nnc.setChannelFeesRequest
  | .getForwardingHistory => Nnc.getForwardingHistoryRequest
  | .getPendingHtlcs => Nnc.getPendingHtlcsRequest
  | .queryRoutes => Nnc.queryRoutesRequest
  | .listNetworkNodes => Nnc.listNetworkNodesRequest
  | .getNetworkStats => Nnc.getNetworkStatsRequest
  | .getNetworkNode => Nnc.getNetworkNodeRequest
  | .getNetworkChannel => Nnc.getNetworkChannelRequest
  | .signMessage => Nnc.signMessageRequest

/-- The name each function is declared under. -/
def ControlFn.name : ControlFn → String
  | .listChannels => "list_channels"
  | .openChannel => "open_channel"
  | .closeChannel => "close_channel"
  | .listPeers => "list_peers"
  | .connectPeer => "connect_peer"
  | .disconnectPeer => "disconnect_peer"
  | .getChannelFees => "get_channel_fees"
  | .setChannelFees => "set_channel_fees"
  | .getForwardingHistory => "get_forwarding_history"
  | .getPendingHtlcs => "get_pending_htlcs"
  | .queryRoutes => "query_routes"
  | .listNetworkNodes => "list_network_nodes"
  | .getNetworkStats => "get_network_stats"
  | .getNetworkNode => "get_network_node"
  | .getNetworkChannel => "get_network_channel"
  | .signMessage => "sign_message"

/-- The typed functions of a wallet service. -/
inductive WalletFn
  | payInvoice
  | makeInvoice
  | lookupInvoice
  | getBalance
  | getInfo
  | payOnchain
  | makeHoldInvoice
  | settleHoldInvoice
  | cancelHoldInvoice
  | quotePayment
  | payKeysend
  | listTransactions
  | makeNewAddress
  | lookupAddress
  | listAddresses
  | estimateOnchainFees
  | listInvoices
  | pay
  | receive
  | makeOffer
  | lookupPayment
  | payOffer
  | listOffers
  | disableOffer
deriving DecidableEq

/-- The request type each function takes. -/
def WalletFn.request : WalletFn → Ty
  | .payInvoice => Nwc.payInvoiceRequest
  | .makeInvoice => Nwc.makeInvoiceRequest
  | .lookupInvoice => Nwc.lookupInvoiceRequest
  | .getBalance => Nwc.getBalanceRequest
  | .getInfo => Nwc.getInfoRequest
  | .payOnchain => Nwc.payOnchainRequest
  | .makeHoldInvoice => Nwc.makeHoldInvoiceRequest
  | .settleHoldInvoice => Nwc.settleHoldInvoiceRequest
  | .cancelHoldInvoice => Nwc.cancelHoldInvoiceRequest
  | .quotePayment => Nwc.quotePaymentRequest
  | .payKeysend => Nwc.payKeysendRequest
  | .listTransactions => Nwc.listTransactionsRequest
  | .makeNewAddress => Nwc.makeNewAddressRequest
  | .lookupAddress => Nwc.lookupAddressRequest
  | .listAddresses => Nwc.listAddressesRequest
  | .estimateOnchainFees => Nwc.estimateOnchainFeesRequest
  | .listInvoices => Nwc.listInvoicesRequest
  | .pay => Nwc.payRequest
  | .receive => Nwc.receiveRequest
  | .makeOffer => Nwc.makeOfferRequest
  | .lookupPayment => Nwc.lookupPaymentRequest
  | .payOffer => Nwc.payOfferRequest
  | .listOffers => Nwc.listOffersRequest
  | .disableOffer => Nwc.disableOfferRequest

/-- The name each function is declared under. -/
def WalletFn.name : WalletFn → String
  | .payInvoice => "pay_invoice"
  | .makeInvoice => "make_invoice"
  | .lookupInvoice => "lookup_invoice"
  | .getBalance => "get_balance"
  | .getInfo => "get_info"
  | .payOnchain => "pay_onchain"
  | .makeHoldInvoice => "make_hold_invoice"
  | .settleHoldInvoice => "settle_hold_invoice"
  | .cancelHoldInvoice => "cancel_hold_invoice"
  | .quotePayment => "quote_payment"
  | .payKeysend => "pay_keysend"
  | .listTransactions => "list_transactions"
  | .makeNewAddress => "make_new_address"
  | .lookupAddress => "lookup_address"
  | .listAddresses => "list_addresses"
  | .estimateOnchainFees => "estimate_onchain_fees"
  | .listInvoices => "list_invoices"
  | .pay => "pay"
  | .receive => "receive"
  | .makeOffer => "make_offer"
  | .lookupPayment => "lookup_payment"
  | .payOffer => "pay_offer"
  | .listOffers => "list_offers"
  | .disableOffer => "disable_offer"

/-- What a typed function gives: an error of its own, or a response, as far as JSON can be made
of it. -/
abbrev Answer := Except NncError (Except String Value)

/-- A node that can be administered. -/
structure ControlService where
  methods : List String
  prepare : String → Value → Caller → Except NncError Prepared
  call : ControlFn → Decoded → Caller → Answer

/-- A node with a wallet. -/
structure WalletService where
  methods : List String
  prepare : String → Value → Caller → Except NncError Prepared
  call : WalletFn → Decoded → Caller → Answer

/-- Which protocol a request arrived on. -/
inductive Protocol
  | wallet
  | control
deriving DecidableEq

/-- What a node implements, for one request. -/
inductive Handler
  | wallet (service : WalletService)
  | control (service : ControlService)

def Handler.protocol : Handler → Protocol
  | .wallet _ => .wallet
  | .control _ => .control

def Handler.methods : Handler → List String
  | .wallet s => s.methods
  | .control s => s.methods

def Handler.implements (h : Handler) (method : String) : Bool := h.methods.contains method

/-- Select a route or a feerate and say what it will cost. -/
def Handler.prepare : Handler → String → Value → Caller → Except NncError Prepared
  | .wallet s => s.prepare
  | .control s => s.prepare

/-! ### Calls -/

/-- A call the pipeline makes to a handler, with what it was given; for `prepare`, also with what
it returned. -/
inductive Call
  | prepare (name : String) (params : Value) (caller : Caller) (result : Except NncError Prepared)
  | wallet (fn : WalletFn) (request : Decoded) (caller : Caller)
  | control (fn : ControlFn) (request : Decoded) (caller : Caller)

/-- It is a call of `prepare`. -/
def Call.isPrepare : Call → Bool
  | .prepare .. => true
  | _ => false

/-- Who it was made for. -/
def Call.caller : Call → Caller
  | .prepare _ _ caller _ => caller
  | .wallet _ _ caller => caller
  | .control _ _ caller => caller

/-- The method it was made for: what `prepare` was told, or the name of the function called. -/
def Call.name : Call → String
  | .prepare name _ _ _ => name
  | .wallet fn _ _ => fn.name
  | .control fn _ _ => fn.name

/-! ### Dispatch -/

/-- What is put in the response for what a function gave. -/
def Answer.toResult : Answer → Except NncError Value
  | .error e => .error e
  | .ok (.error text) => .error { code := .internal, message := text }
  | .ok (.ok value) => .ok value

/-- One arm of the dispatch: decode the parameters, make the call. -/
def dispatchArm (explain : Explain) (request : Ty) (params : Value) (call : Decoded → Call)
    (answer : Decoded → Answer) : Except NncError Value × List Call :=
  match decode request params with
  | none => (.error (.badParams (explain request params)), [])
  | some r => ((answer r).toResult, [call r])

/-- The function behind a control method. -/
def Method.controlFn : Method → Except String ControlFn
  | .listChannels => .ok .listChannels
  | .openChannel => .ok .openChannel
  | .closeChannel => .ok .closeChannel
  | .listPeers => .ok .listPeers
  | .connectPeer => .ok .connectPeer
  | .disconnectPeer => .ok .disconnectPeer
  | .getChannelFees => .ok .getChannelFees
  | .setChannelFees => .ok .setChannelFees
  | .getForwardingHistory => .ok .getForwardingHistory
  | .getPendingHtlcs => .ok .getPendingHtlcs
  | .queryRoutes => .ok .queryRoutes
  | .listNetworkNodes => .ok .listNetworkNodes
  | .getNetworkStats => .ok .getNetworkStats
  | .getNetworkNode => .ok .getNetworkNode
  | .getNetworkChannel => .ok .getNetworkChannel
  | .signMessage => .ok .signMessage
  | .unknown name => .error name

/-- Dispatch a control request. -/
def dispatchControl (explain : Explain) (service : ControlService) (method : Method)
    (params : Value) (caller : Caller) : Except NncError Value × List Call :=
  match method.controlFn with
  | .ok fn =>
    dispatchArm explain fn.request params (.control fn · caller) (service.call fn · caller)
  | .error name => (.error (.notImplemented name), [])

/-- The function behind a wallet method. -/
def WalletMethod.walletFn : WalletMethod → Except String WalletFn
  | .payInvoice => .ok .payInvoice
  | .makeInvoice => .ok .makeInvoice
  | .lookupInvoice => .ok .lookupInvoice
  | .getBalance => .ok .getBalance
  | .getInfo => .ok .getInfo
  | .payOnchain => .ok .payOnchain
  | .makeHoldInvoice => .ok .makeHoldInvoice
  | .settleHoldInvoice => .ok .settleHoldInvoice
  | .cancelHoldInvoice => .ok .cancelHoldInvoice
  | .quotePayment => .ok .quotePayment
  | .payKeysend => .ok .payKeysend
  | .listTransactions => .ok .listTransactions
  | .makeNewAddress => .ok .makeNewAddress
  | .lookupAddress => .ok .lookupAddress
  | .listAddresses => .ok .listAddresses
  | .estimateOnchainFees => .ok .estimateOnchainFees
  | .listInvoices => .ok .listInvoices
  | .pay => .ok .pay
  | .receive => .ok .receive
  | .makeOffer => .ok .makeOffer
  | .lookupPayment => .ok .lookupPayment
  | .payOffer => .ok .payOffer
  | .listOffers => .ok .listOffers
  | .disableOffer => .ok .disableOffer
  | .unknown name => .error name

/-- Dispatch a wallet request. -/
def dispatchWallet (explain : Explain) (service : WalletService) (method : WalletMethod)
    (params : Value) (caller : Caller) : Except NncError Value × List Call :=
  match method.walletFn with
  | .ok fn =>
    dispatchArm explain fn.request params (.wallet fn · caller) (service.call fn · caller)
  | .error name => (.error (.notImplemented name), [])

/-- Execute a request: a wallet's name is read again as a wallet method. -/
def Handler.dispatch (explain : Explain) (h : Handler) (method : Method) (params : Value)
    (caller : Caller) : Except NncError Value × List Call :=
  match h with
  | .wallet s => dispatchWallet explain s (WalletMethod.fromStr method.asStr) params caller
  | .control s => dispatchControl explain s method params caller

/-- An arm of the dispatch makes the call, or none if the parameters do not decode. -/
lemma dispatchArm_calls (explain : Explain) (request : Ty) (params : Value) (call : Decoded → Call)
    (answer : Decoded → Answer) :
    (dispatchArm explain request params call answer).2 = [] ∨
      ∃ r, (dispatchArm explain request params call answer).2 = [call r] := by
  rw [dispatchArm]
  split
  · exact Or.inl rfl
  · exact Or.inr ⟨_, rfl⟩

/-- Dispatching calls one function, for the caller, or none; it calls no `prepare`. -/
lemma Handler.dispatch_calls (explain : Explain) (h : Handler) (method : Method) (params : Value)
    (caller : Caller) :
    (h.dispatch explain method params caller).2 = [] ∨
      ∃ call, (h.dispatch explain method params caller).2 = [call] ∧ call.isPrepare = false ∧
        call.caller = caller := by
  cases h with
  | wallet s =>
    simp only [Handler.dispatch, dispatchWallet]
    split
    · rename_i fn _
      obtain hnone | ⟨r, hone⟩ := dispatchArm_calls explain fn.request params (.wallet fn · caller)
        (s.call fn · caller)
      · exact Or.inl hnone
      · exact Or.inr ⟨_, hone, rfl, rfl⟩
    · exact Or.inl rfl
  | control s =>
    simp only [Handler.dispatch, dispatchControl]
    split
    · rename_i fn _
      obtain hnone | ⟨r, hone⟩ := dispatchArm_calls explain fn.request params (.control fn · caller)
        (s.call fn · caller)
      · exact Or.inl hnone
      · exact Or.inr ⟨_, hone, rfl, rfl⟩
    · exact Or.inl rfl

lemma Handler.isPrepare_dispatch {explain : Explain} {h : Handler} {method : Method}
    {params : Value} {caller : Caller} {call : Call}
    (hcall : call ∈ (h.dispatch explain method params caller).2) : call.isPrepare = false := by
  obtain hnone | ⟨_, hone, hprepare, _⟩ := h.dispatch_calls explain method params caller
  · rw [hnone] at hcall
    cases hcall
  · rw [hone] at hcall
    rw [List.mem_singleton.mp hcall, hprepare]

end NostrLn
