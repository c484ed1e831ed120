import NostrLn.Client.Arrival
import NostrLn.Client.NodeId
import NostrLn.Client.Rpc
import NostrLn.Lib.Shape

/-!
# The typed calls of node control

Fourteen of the methods are a request and its response. The two that wait on the chain return a
handle, and the handle resolves when the node says how it went. What comes back may hold fields that
this implementation does not know; they travel in a map beside the fields it does know, and a map
that uses the name of such a field takes its place.
-/

namespace NostrLn

open Serde Json

/-! ### Responses -/

namespace Nnc

def channelState : Shape :=
  .ty (.enum ["active", "inactive", "pending_open", "pending_close", "force_closing"] true)

def closeType : Shape :=
  .ty (.enum ["cooperative", "force_local", "force_remote", "breach"] true)

def channel : Shape :=
  shaped [present "id" (.ty .string), skipped "short_channel_id" (.ty .string),
    present "peer_pubkey" (.ty .string), skipped "state" channelState,
    defaulted "is_private" (.ty .bool) (.bool false), skipped "capacity" (.ty .u64),
    skipped "local_balance" (.ty .u64), skipped "remote_balance" (.ty .u64),
    skipped "funding_txid" (.ty .string)] (.flatten "extra")

def peer : Shape :=
  shaped [present "pubkey" (.ty .string), skipped "address" (.ty .string),
    defaulted "connected" (.ty .bool) (.bool false), skipped "alias" (.ty .string),
    skipped "num_channels" (.ty .u64)] .nil

def channelFees : Shape :=
  shaped [present "id" (.ty .string), skipped "short_channel_id" (.ty .string),
    skipped "peer_pubkey" (.ty .string), present "base_fee" (.ty .u64),
    present "fee_rate" (.ty .u64), skipped "min_htlc" (.ty .u64),
    skipped "max_htlc" (.ty .u64)] (.flatten "extra")

def forwardingEvent : Shape :=
  .ty (record [required "incoming_channel_id" .string, required "outgoing_channel_id" .string,
    required "incoming_amount" .u64, required "outgoing_amount" .u64, required "fee_earned" .u64,
    required "settled_at" .u64])

def pendingHtlc : Shape :=
  .ty (record [required "channel_id" .string, required "direction" .string, required "amount" .u64,
    required "hash_lock" .string, required "expiry_height" .u64])

def hop : Shape :=
  shaped [present "pubkey" (.ty .string), skipped "short_channel_id" (.ty .string),
    defaulted "fee" (.ty .u64) (.nat 0)] (.flatten "extra")

def route : Shape :=
  shaped [present "total_fee" (.ty .u64), present "total_time_lock" (.ty .u64),
    present "hops" (.vec hop)] .nil

def networkNode : Shape :=
  shaped [present "pubkey" (.ty .string), skipped "alias" (.ty .string),
    skipped "color" (.ty .string), skipped "num_channels" (.ty .u64),
    skipped "total_capacity" (.ty .u64), skipped "addresses" (.ty (.vec .string)),
    skipped "last_update" (.ty .u64)] (.flatten "extra")

def channelPolicy : Shape :=
  shaped [skipped "base_fee" (.ty .u64), skipped "fee_rate" (.ty .u64),
    skipped "min_htlc" (.ty .u64), skipped "max_htlc" (.ty .u64),
    skipped "time_lock_delta" (.ty .u64), defaulted "disabled" (.ty .bool) (.bool false),
    skipped "last_update" (.ty .u64)] .nil

/-- The response of the methods that acknowledge with `{}`. -/
def emptyResponse : Shape := .ty (record [])

def listChannelsResponse : Shape := shaped [present "channels" (.vec channel)] .nil

def listPeersResponse : Shape := shaped [present "peers" (.vec peer)] .nil

def getChannelFeesResponse : Shape := shaped [present "fees" (.vec channelFees)] .nil

def getForwardingHistoryResponse : Shape := shaped [present "forwards" (.vec forwardingEvent)] .nil

def getPendingHtlcsResponse : Shape := shaped [present "htlcs" (.vec pendingHtlc)] .nil

def queryRoutesResponse : Shape := shaped [present "routes" (.vec route)] .nil

def listNetworkNodesResponse : Shape := shaped [present "nodes" (.vec networkNode)] .nil

def getNetworkStatsResponse : Shape :=
  .ty (record [required "num_nodes" .u64, required "num_channels" .u64,
    required "total_capacity" .u64, optional "avg_channel_size" .u64,
    optional "max_channel_size" .u64])

def getNetworkNodeResponse : Shape := networkNode

def getNetworkChannelResponse : Shape :=
  shaped [present "short_channel_id" (.ty .string), skipped "capacity" (.ty .u64),
    present "node1_pubkey" (.ty .string), present "node2_pubkey" (.ty .string),
    skipped "node1_policy" channelPolicy, skipped "node2_policy" channelPolicy] .nil

def signMessageResponse : Shape := .ty SignMessageResponse.shape

/-- `channel_opened`: a channel, whose fields stand beside one another with nothing around them. -/
def channelOpened : Shape := channel

def channelClosed : Shape :=
  shaped [present "id" (.ty .string), skipped "short_channel_id" (.ty .string),
    skipped "peer_pubkey" (.ty .string), skipped "capacity" (.ty .u64),
    skipped "closing_txid" (.ty .string), present "close_type" closeType] .nil

end Nnc

/-- The type of what a method returns. -/
def ControlFn.response : ControlFn → Shape
  | .listChannels => Nnc.listChannelsResponse
  | .openChannel => Nnc.emptyResponse
  | .closeChannel => Nnc.emptyResponse
  | .listPeers => Nnc.listPeersResponse
  | .connectPeer => Nnc.emptyResponse
  | .disconnectPeer => Nnc.emptyResponse
  | .getChannelFees => Nnc.getChannelFeesResponse
  | .setChannelFees => Nnc.emptyResponse
  | .getForwardingHistory => Nnc.getForwardingHistoryResponse
  | .getPendingHtlcs => Nnc.getPendingHtlcsResponse
  | .queryRoutes => Nnc.queryRoutesResponse
  | .listNetworkNodes => Nnc.listNetworkNodesResponse
  | .getNetworkStats => Nnc.getNetworkStatsResponse
  | .getNetworkNode => Nnc.getNetworkNodeResponse
  | .getNetworkChannel => Nnc.getNetworkChannelResponse
  | .signMessage => Nnc.signMessageResponse

section

variable {link : Link} {svc : Service} {cs : ControlService} {loop : Loop} {now : UInt64}
  {fn : ControlFn} {d : Decoded} {params : Value}

end

namespace Sample

end Sample

/-- The commands whose outcome comes later. -/
inductive Command
  | openChannel
  | closeChannel

def Command.fn : Command → ControlFn
  | .openChannel => .openChannel
  | .closeChannel => .closeChannel

/-- The type of the outcome. -/
def Command.outcome : Command → Shape
  | .openChannel => Nnc.channelOpened
  | .closeChannel => Nnc.channelClosed

/-- The payload of a notification, read as a type. -/
def asTyped (explain : Shape → Value → String) (shape : Shape) (v : Value) :
    Except String Decoded :=
  match decodeShape shape v with
  | some d => .ok d
  | none => .error (explain shape v)

/-- A run of the node in which the request is taken up. -/
def Exchange.within {N : Type} {link : Link} {svc : Service} {loop : Loop} {now : UInt64}
    {kind : UInt16} {payload : String} (x : Exchange link svc loop now kind payload)
    (before after : List (Occurrence N)) : List (Occurrence N) :=
  before ++ .turn (.event x.request now) :: after

namespace Sample

end Sample

end NostrLn
