import NostrLn.Lib.Serde

/-!
# Node control: methods, errors and what each method asks for

The sixteen methods of the control protocol, under their wire names, and the shape of the
parameters of each. Errors are shared by both protocols.
-/

namespace NostrLn

open Serde

/-! ### Errors -/

/-- Error codes, shared by both protocols. -/
inductive ErrorCode
  | rateLimited
  | notImplemented
  | restricted
  | unauthorized
  | quotaExceeded
  | notFound
  | multipleMatches
  | unsupportedPaymentType
  | unsupportedPaymentInstruction
  | feeLimitExceeded
  | channelFailed
  | connectionFailed
  | insufficientBalance
  | paymentFailed
  | unsupportedEncryption
  | badRequest
  | unsupportedNetwork
  | internal
  | other
  | unknown (name : String)
deriving DecidableEq

/-- An error response. -/
structure NncError where
  code : ErrorCode
  message : String
deriving DecidableEq

/-- The response to a method nothing implements. -/
def NncError.notImplemented (method : String) : NncError :=
  { code := .notImplemented, message := method ++ " is not implemented" }

/-- The response to parameters that do not decode. -/
def NncError.badParams (explained : String) : NncError :=
  { code := .other, message := "bad params: " ++ explained }

/-! ### Methods -/

/-- A control method. A name nobody knows is kept as it came. -/
inductive Method
  | listChannels
  | openChannel
  | closeChannel
  | listPeers
  | connectPeer
  | disconnectPeer
  | getChannelFees
  | setChannelFees
  | getForwardingHistory
  | getPendingHtlcs
  | queryRoutes
  | listNetworkNodes
  | getNetworkStats
  | getNetworkNode
  | getNetworkChannel
  | signMessage
  | unknown (name : String)
deriving DecidableEq

/-- Every method the specification defines. -/
def Method.all : List Method :=
  [.listChannels, .openChannel, .closeChannel, .listPeers, .connectPeer, .disconnectPeer,
   .getChannelFees, .setChannelFees, .getForwardingHistory, .getPendingHtlcs, .queryRoutes,
   .listNetworkNodes, .getNetworkStats, .getNetworkNode, .getNetworkChannel, .signMessage]

/-- The wire name. -/
def Method.asStr : Method → String
  | .listChannels => "list_channels"
  | .openChannel => "open_channel"
  | .closeChannel => "close_channel"
  | .listPeers => "list_peers"
  | .connectPeer => "connect_peer"
  | .disconnectPeer => "disconnect_peer"
  | .getChannelFees => "get_channel_fees"
  | .setChannelFees => "set_channel_fees"
  | .getForwardingHistory => "get_forwarding_history"
  | .getPendingHtlcs => "get_pending_htlcs"
  | .queryRoutes => "query_routes"
  | .listNetworkNodes => "list_network_nodes"
  | .getNetworkStats => "get_network_stats"
  | .getNetworkNode => "get_network_node"
  | .getNetworkChannel => "get_network_channel"
  | .signMessage => "sign_message"
  | .unknown name => name

/-- Read a wire name; this cannot fail. -/
def Method.fromStr (s : String) : Method :=
  match s with
  | "list_channels" => .listChannels
  | "open_channel" => .openChannel
  | "close_channel" => .closeChannel
  | "list_peers" => .listPeers
  | "connect_peer" => .connectPeer
  | "disconnect_peer" => .disconnectPeer
  | "get_channel_fees" => .getChannelFees
  | "set_channel_fees" => .setChannelFees
  | "get_forwarding_history" => .getForwardingHistory
  | "get_pending_htlcs" => .getPendingHtlcs
  | "query_routes" => .queryRoutes
  | "list_network_nodes" => .listNetworkNodes
  | "get_network_stats" => .getNetworkStats
  | "get_network_node" => .getNetworkNode
  | "get_network_channel" => .getNetworkChannel
  | "sign_message" => .signMessage
  | other => .unknown other

/-- A name that is read is written back unchanged. -/
@[simp] lemma Method.asStr_fromStr (s : String) : (Method.fromStr s).asStr = s := by
  unfold Method.fromStr
  split <;> rfl

/-! ### Notifications -/

/-- A notification type. A name nobody knows is kept as it came. -/
inductive NotificationType
  | channelOpened
  | channelClosed
  | unknown (name : String)
deriving DecidableEq

/-- Its wire spelling. -/
def NotificationType.asStr : NotificationType → String
  | .channelOpened => "channel_opened"
  | .channelClosed => "channel_closed"
  | .unknown name => name

/-- Read a wire name; this cannot fail. -/
def NotificationType.fromStr (s : String) : NotificationType :=
  match s with
  | "channel_opened" => .channelOpened
  | "channel_closed" => .channelClosed
  | other => .unknown other

@[simp] lemma NotificationType.asStr_fromStr (s : String) :
    (NotificationType.fromStr s).asStr = s := by
  unfold NotificationType.fromStr
  split <;> rfl

/-- A notification of the node: which, and its payload. -/
structure Notification where
  notificationType : NotificationType
  notification : Value

/-- The notification as it is read back: a type that was made up under a known name is known. -/
def Notification.reread (n : Notification) : Notification :=
  { n with notificationType := .fromStr n.notificationType.asStr }

/-! ### Parameters -/

namespace Nnc

def listChannelsRequest : Ty := record []

def openChannelRequest : Ty :=
  record [required "pubkey" .string, required "amount_sats" .u64, optional "push_amount" .u64,
    optional "private" .bool, optional "host" .string, optional "close_address" .string,
    optional "notify" .bool]

def closeChannelRequest : Ty :=
  record [required "id" .string, optional "force" .bool, optional "close_address" .string,
    optional "notify" .bool]

def listPeersRequest : Ty := record []

def connectPeerRequest : Ty := record [required "pubkey" .string, optional "host" .string]

def disconnectPeerRequest : Ty := record [required "pubkey" .string]

def getChannelFeesRequest : Ty := record [optional "id" .string]

def setChannelFeesRequest : Ty :=
  record [optional "id" .string, optional "base_fee" .u64, optional "fee_rate" .u64,
    optional "min_htlc" .u64, optional "max_htlc" .u64]

def getForwardingHistoryRequest : Ty :=
  record [optional "from" .u64, optional "until" .u64, optional "limit" .u64,
    optional "offset" .u64]

def getPendingHtlcsRequest : Ty := record []

def queryRoutesRequest : Ty :=
  record [required "destination" .string, required "amount" .u64, optional "max_routes" .u64]

def listNetworkNodesRequest : Ty := record [optional "limit" .u64, optional "offset" .u64]

def getNetworkStatsRequest : Ty := record []

def getNetworkNodeRequest : Ty := record [required "pubkey" .string]

def getNetworkChannelRequest : Ty := record [required "short_channel_id" .string]

def signMessageRequest : Ty := record [required "message" .string]

end Nnc

end NostrLn
