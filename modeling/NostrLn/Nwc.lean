import NostrLn.Lib.Serde

/-!
# Wallet connect: methods and what each asks for

The five methods of NIP-47 and the extensions, under their wire names, and the shape of the
parameters of each.
-/

namespace NostrLn

open Serde

/-! ### Methods -/

/-- A wallet method. A name from an extension that was not adopted is kept as it came. -/
inductive WalletMethod
  | payInvoice
  | makeInvoice
  | lookupInvoice
  | getBalance
  | getInfo
  | payOnchain
  | makeHoldInvoice
  | settleHoldInvoice
  | cancelHoldInvoice
  | quotePayment
  | payKeysend
  | listTransactions
  | makeNewAddress
  | lookupAddress
  | listAddresses
  | estimateOnchainFees
  | listInvoices
  | pay
  | receive
  | makeOffer
  | lookupPayment
  | payOffer
  | listOffers
  | disableOffer
  | unknown (name : String)
deriving DecidableEq

/-- Every method this crate knows. -/
def WalletMethod.all : List WalletMethod :=
  [.payInvoice, .makeInvoice, .lookupInvoice, .getBalance, .getInfo, .payOnchain, .makeHoldInvoice,
   .settleHoldInvoice, .cancelHoldInvoice, .quotePayment, .payKeysend, .listTransactions,
   .makeNewAddress, .lookupAddress, .listAddresses, .estimateOnchainFees, .listInvoices, .pay,
   .receive, .makeOffer, .lookupPayment, .payOffer, .listOffers, .disableOffer]

/-- The wire name. -/
def WalletMethod.asStr : WalletMethod → String
  | .payInvoice => "pay_invoice"
  | .makeInvoice => "make_invoice"
  | .lookupInvoice => "lookup_invoice"
  | .getBalance => "get_balance"
  | .getInfo => "get_info"
  | .payOnchain => "pay_onchain"
  | .makeHoldInvoice => "make_hold_invoice"
  | .settleHoldInvoice => "settle_hold_invoice"
  | .cancelHoldInvoice => "cancel_hold_invoice"
  | .quotePayment => "quote_payment"
  | .payKeysend => "pay_keysend"
  | .listTransactions => "list_transactions"
  | .makeNewAddress => "make_new_address"
  | .lookupAddress => "lookup_address"
  | .listAddresses => "list_addresses"
  | .estimateOnchainFees => "estimate_onchain_fees"
  | .listInvoices => "list_invoices"
  | .pay => "pay"
  | .receive => "receive"
  | .makeOffer => "make_offer"
  | .lookupPayment => "lookup_payment"
  | .payOffer => "pay_offer"
  | .listOffers => "list_offers"
  | .disableOffer => "disable_offer"
  | .unknown name => name

/-- Read a wire name; this cannot fail. -/
def WalletMethod.fromStr (s : String) : WalletMethod :=
  match s with
  | "pay_invoice" => .payInvoice
  | "make_invoice" => .makeInvoice
  | "lookup_invoice" => .lookupInvoice
  | "get_balance" => .getBalance
  | "get_info" => .getInfo
  | "pay_onchain" => .payOnchain
  | "make_hold_invoice" => .makeHoldInvoice
  | "settle_hold_invoice" => .settleHoldInvoice
  | "cancel_hold_invoice" => .cancelHoldInvoice
  | "quote_payment" => .quotePayment
  | "pay_keysend" => .payKeysend
  | "list_transactions" => .listTransactions
  | "make_new_address" => .makeNewAddress
  | "lookup_address" => .lookupAddress
  | "list_addresses" => .listAddresses
  | "estimate_onchain_fees" => .estimateOnchainFees
  | "list_invoices" => .listInvoices
  | "pay" => .pay
  | "receive" => .receive
  | "make_offer" => .makeOffer
  | "lookup_payment" => .lookupPayment
  | "pay_offer" => .payOffer
  | "list_offers" => .listOffers
  | "disable_offer" => .disableOffer
  | other => .unknown other

/-- A name that is read is written back unchanged. -/
@[simp] lemma WalletMethod.asStr_fromStr (s : String) : (WalletMethod.fromStr s).asStr = s := by
  unfold WalletMethod.fromStr
  split <;> rfl

/-! ### Notifications -/

/-- A notification type. A name nobody knows is kept as it came. -/
inductive WalletNotificationType
  | holdInvoiceAccepted
  | paymentReceived
  | paymentSent
  | unknown (name : String)
deriving DecidableEq

/-- Its wire spelling. -/
def WalletNotificationType.asStr : WalletNotificationType → String
  | .holdInvoiceAccepted => "hold_invoice_accepted"
  | .paymentReceived => "payment_received"
  | .paymentSent => "payment_sent"
  | .unknown name => name

/-- Read a wire name; this cannot fail. -/
def WalletNotificationType.fromStr (s : String) : WalletNotificationType :=
  match s with
  | "hold_invoice_accepted" => .holdInvoiceAccepted
  | "payment_received" => .paymentReceived
  | "payment_sent" => .paymentSent
  | other => .unknown other

/-- A notification of the wallet: which, and its payload. -/
structure WalletNotification where
  notificationType : WalletNotificationType
  notification : Value

/-- The notification as it is read back: a type that was made up under a known name is known. -/
def WalletNotification.reread (n : WalletNotification) : WalletNotification :=
  { n with notificationType := .fromStr n.notificationType.asStr }

/-! ### Parameters -/

namespace Nwc

def tlvRecord : Ty := record [required "type" .u64, required "value" .string]

def transactionType : Ty := .enum ["incoming", "outgoing"] false

def invoiceState : Ty := .enum ["pending", "settled", "expired"] true

def bip321Method : Ty :=
  record [required "method" .string, optional "expiry" .u64, optional "address_type" .string]

def payInvoiceRequest : Ty :=
  record [required "invoice" .string, optional "amount" .u64, optional "metadata" .value]

def makeInvoiceRequest : Ty :=
  record [required "amount" .u64, optional "description" .string,
    optional "description_hash" .string, optional "expiry" .u64, optional "metadata" .value]

def lookupInvoiceRequest : Ty :=
  record [optional "payment_hash" .string, optional "invoice" .string]

def getBalanceRequest : Ty := record []

def getInfoRequest : Ty := record []

def payOnchainRequest : Ty :=
  record [required "address" .string, required "amount_sats" .u64, optional "feerate" .u64]

def makeHoldInvoiceRequest : Ty :=
  record [required "amount" .u64, required "payment_hash" .string, optional "description" .string,
    optional "description_hash" .string, optional "expiry" .u64,
    optional "min_cltv_expiry_delta" .u32]

def settleHoldInvoiceRequest : Ty := record [required "preimage" .string]

def cancelHoldInvoiceRequest : Ty := record [required "payment_hash" .string]

def quotePaymentRequest : Ty := record [required "invoice" .string, optional "amount" .u64]

def payKeysendRequest : Ty :=
  record [required "amount" .u64, required "pubkey" .string, optional "preimage" .string,
    optional "tlv_records" (.vec tlvRecord)]

def listTransactionsRequest : Ty :=
  record [optional "from" .u64, optional "until" .u64, optional "limit" .u64,
    optional "offset" .u64, optional "unpaid" .bool, optional "type" transactionType]

def makeNewAddressRequest : Ty := record [optional "type" .string]

def lookupAddressRequest : Ty := record [required "address" .string]

def listAddressesRequest : Ty := record [optional "limit" .u64, optional "offset" .u64]

def estimateOnchainFeesRequest : Ty := record []

def listInvoicesRequest : Ty :=
  record [optional "from" .u64, optional "until" .u64, optional "limit" .u64,
    optional "offset" .u64, optional "state" invoiceState]

def payRequest : Ty :=
  record [required "payment" .string, optional "amount" .u64, optional "max_fee" .u64,
    optional "payer_note" .string, optional "metadata" .value]

def receiveRequest : Ty :=
  record [optional "amount" .u64, optional "description" .string, optional "metadata" .value,
    optional "methods" (.vec bip321Method), optional "label" .string]

def makeOfferRequest : Ty :=
  record [optional "amount" .u64, optional "description" .string, optional "issuer" .string,
    optional "single_use" .bool, optional "expires_at" .u64, optional "metadata" .value]

def lookupPaymentRequest : Ty :=
  record [optional "transaction_id" .string, optional "payment_hash" .string,
    optional "invoice" .string, optional "payment_type" .string, optional "lookup" .value]

def payOfferRequest : Ty :=
  record [required "offer" .string, optional "amount" .u64, optional "payer_note" .string]

def listOffersRequest : Ty :=
  record [optional "active_only" .bool, optional "limit" .u64, optional "offset" .u64]

def disableOfferRequest : Ty := record [required "offer_id" .string]

end Nwc

end NostrLn
