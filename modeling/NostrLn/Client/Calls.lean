import NostrLn.Client.Rpc

/-!
# The typed calls of a wallet's client

The client has a function for each method a party in a trade needs. It makes JSON of a request, and
a response of the JSON that comes back. Between the two lie the text, the encryption, the relay and
the service with its pipeline; all of it is there in the statement, and none of it shows in what a
caller gets.
-/

namespace NostrLn

open Serde Json

/-! ### Responses -/

namespace Nwc

def payInvoiceResponse : Ty := record [required "preimage" .string, optional "fees_paid" .u64]

def transactionState : Ty := .enum ["pending", "settled", "accepted", "expired", "failed"] true

def transaction : Ty :=
  record [required "type" transactionType, optional "state" transactionState,
    optional "invoice" .string, optional "description" .string,
    optional "description_hash" .string, optional "preimage" .string,
    required "payment_hash" .string, required "amount" .u64, required "fees_paid" .u64,
    required "created_at" .u64, optional "expires_at" .u64, optional "settled_at" .u64,
    optional "metadata" .value]

def getBalanceResponse : Ty :=
  record [required "balance" .u64, optional "lightning_balance" .u64,
    optional "onchain_balance_sats" .u64]

def bip321Capability : Ty :=
  record [required "method" .string, optional "address_types" (.vec .string)]

def getInfoResponse : Ty :=
  record [optional "alias" .string, optional "color" .string, optional "pubkey" .string,
    optional "network" .string, optional "block_height" .u64, optional "block_hash" .string,
    required "methods" (.vec .string), optional "notifications" (.vec .string),
    optional "extensions" (.vec .string), optional "bip321_methods" (.vec bip321Capability)]

def makeHoldInvoiceResponse : Ty :=
  record [required "type" .string, optional "invoice" .string, required "payment_hash" .string,
    required "amount" .u64, required "created_at" .u64, optional "expires_at" .u64,
    optional "description" .string, optional "description_hash" .string,
    optional "metadata" .value]

def settleHoldInvoiceResponse : Ty := record []

def cancelHoldInvoiceResponse : Ty := record []

def quotePaymentResponse : Ty :=
  record [required "amount" .u64, required "fee_msat" .u64, required "cltv_expiry_delta" .u32,
    required "route_found" .bool]

end Nwc

/-! ### Calls -/

/-- The typed functions of the client. -/
inductive WalletCall
  | getInfo
  | getBalance
  | makeInvoice
  | lookupInvoice
  | payInvoice
  | makeHoldInvoice
  | settleHoldInvoice
  | cancelHoldInvoice
  | quotePayment

/-- The function of the wallet that a call is for. -/
def WalletCall.fn : WalletCall → WalletFn
  | .getInfo => .getInfo
  | .getBalance => .getBalance
  | .makeInvoice => .makeInvoice
  | .lookupInvoice => .lookupInvoice
  | .payInvoice => .payInvoice
  | .makeHoldInvoice => .makeHoldInvoice
  | .settleHoldInvoice => .settleHoldInvoice
  | .cancelHoldInvoice => .cancelHoldInvoice
  | .quotePayment => .quotePayment

/-- The type of what a call returns. -/
def WalletCall.response : WalletCall → Ty
  | .getInfo => Nwc.getInfoResponse
  | .getBalance => Nwc.getBalanceResponse
  | .makeInvoice => Nwc.transaction
  | .lookupInvoice => Nwc.transaction
  | .payInvoice => Nwc.payInvoiceResponse
  | .makeHoldInvoice => Nwc.makeHoldInvoiceResponse
  | .settleHoldInvoice => Nwc.settleHoldInvoiceResponse
  | .cancelHoldInvoice => Nwc.cancelHoldInvoiceResponse
  | .quotePayment => Nwc.quotePaymentResponse

section

variable {explain : Explain} {q : Request} {u : Usage} {v : Value}

end

namespace Sample

end Sample

end NostrLn
