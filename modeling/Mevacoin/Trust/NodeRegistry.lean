import Mevacoin.Crypto
import Mevacoin.Lib.FloatArith

/-!
# The node registry

`src/cryptonote_core/mevatrust/node_registry.cpp`: the in-memory maps; the same records in LMDB are
left out.  The hexadecimal keys of `nodes_` have the order of the octets.
-/

namespace Mevacoin.Trust

open Lib Std

/-- `std::max(0.0f, std::min(1.0f, x))`. -/
def clamp01 {F : Type} [FloatArith F] (x : F) : F :=
  fmax (FloatArith.ofRat 0) (fmin (FloatArith.ofRat 1) x)

/-- `NodeStatus`. -/
inductive NodeStatus where
  | active | offline | suspended | banned
deriving DecidableEq, Repr

/-- The octet `NodeStatus` is stored as. -/
def NodeStatus.toUInt8 : NodeStatus → UInt8
  | active => 0
  | offline => 1
  | suspended => 2
  | banned => 3

/-- `NodeRegistryEntry`, with the member initialisers of `NodeRegistryEntry e{}`. -/
structure NodeRegistryEntry (F : Type) where
  nodeId : Hash
  walletAddress : Bytes
  walletPubkey : PublicKey
  nodePubkey : PublicKey
  registeredHeight : UInt64
  registeredTimestamp : UInt64
  registrationSignature : Signature
  ipAddress : Bytes := []
  port : UInt16
  lastSeenTimestamp : UInt64
  peerCount : UInt32 := 0
  status : NodeStatus
  lastSyncHeight : UInt64
  isSynchronized : Bool := false
  reputationScore : F
  createdAt : UInt64
  updatedAt : UInt64
  lastChallengeTime : UInt64 := 0
  nextChallengeTime : UInt64 := 0
  totalChallenges : UInt32 := 0
  successfulChallenges : UInt32 := 0
  totalUptimeSeconds : UInt64 := 0
  disconnections : UInt32 := 0
  registeredOnchain : Bool := false
  isValidator : Bool := false
  validatorSinceHeight : UInt64 := 0
  validatorTxAmount : UInt64 := 0
  metadata : Bytes := []
deriving DecidableEq

/-- `NodeRegistry`: its three in-memory maps. -/
structure NodeRegistry (F : Type) where
  /-- `nodes_`. -/
  nodes : ExtTreeMap Hash (NodeRegistryEntry F) := ∅
  /-- `wallet_to_nodes_`. -/
  walletToNodes : ExtTreeMap Bytes (List Hash) := ∅
  /-- `ip_to_node_`. -/
  ipToNode : ExtTreeMap Bytes Hash := ∅

/-- `tx_extra_mevatrust_registration`, tag 0xA0. -/
structure Registration where
  nodeId : Hash
  walletPubkey : PublicKey
  nodePubkey : PublicKey
  walletAddress : Bytes
  port : UInt32
  signature : Signature
deriving DecidableEq

/-- `tx_extra_mevatrust_deregister`, tag 0xA1. -/
structure Deregister where
  nodeId : Hash
  walletPubkey : PublicKey
  signature : Signature
deriving DecidableEq

/-- `MAX_NODES_PER_WALLET`. -/
def maxNodesPerWallet : ℕ := 3

/-- `HF_VERSION_MEVATRUST_ANTISYBIL`. -/
def hfVersionMevatrustAntisybil : UInt8 := 18

section

variable {F : Type}

/-- A node that counts against the anti-Sybil limits: neither banned nor offline. -/
def NodeRegistryEntry.isLive (e : NodeRegistryEntry F) : Bool :=
  e.status ≠ .banned && e.status ≠ .offline

namespace NodeRegistry

/-- Rewrite the entry of a node; `none`, the source's `false`, when there is no such node. -/
def modify (r : NodeRegistry F) (n : Hash) (f : NodeRegistryEntry F → NodeRegistryEntry F) :
    Option (NodeRegistry F) :=
  (r.nodes[n]?).map fun e => { r with nodes := r.nodes.insert n (f e) }

/-- The live nodes of a wallet, counted as `register_node_onchain` counts them. -/
def liveOfWallet (r : NodeRegistry F) (wallet : Bytes) : ℕ :=
  ((r.walletToNodes.getD wallet []).filterMap fun k => r.nodes[k]?).countP
    NodeRegistryEntry.isLive

/-- Whether a live node already uses the node key. -/
def nodePubkeyLive (r : NodeRegistry F) (pk : PublicKey) : Bool :=
  r.nodes.toList.any fun kv => kv.2.isLive && kv.2.nodePubkey = pk

/-- The entry `register_node_onchain` installs. -/
def onchainEntry [FloatArith F] (reg : Registration) (height now : UInt64) :
    NodeRegistryEntry F where
  nodeId := reg.nodeId
  walletPubkey := reg.walletPubkey
  nodePubkey := reg.nodePubkey
  walletAddress := reg.walletAddress
  registeredHeight := height
  registeredTimestamp := now
  registrationSignature := reg.signature
  port := reg.port.toUInt16
  lastSeenTimestamp := now
  status := .active
  isSynchronized := true
  lastSyncHeight := height
  reputationScore := FloatArith.ofRat 1
  registeredOnchain := true
  createdAt := now
  updatedAt := now

/-- `register_node_onchain`; `none` is its `false`. -/
def registerNodeOnchain [FloatArith F] (r : NodeRegistry F) (reg : Registration)
    (height : UInt64) (hfVersion : UInt8) (now : UInt64) : Option (NodeRegistry F) :=
  if maxNodesPerWallet ≤ r.liveOfWallet reg.walletAddress then none
  else if hfVersionMevatrustAntisybil ≤ hfVersion ∧ r.nodePubkeyLive reg.nodePubkey then none
  else if r.nodes.contains reg.nodeId then none
  else some { r with
    nodes := r.nodes.insert reg.nodeId (onchainEntry reg height now)
    walletToNodes := r.walletToNodes.insert reg.walletAddress
      (r.walletToNodes.getD reg.walletAddress [] ++ [reg.nodeId]) }

/-- `unregister_node`. -/
def unregisterNode (r : NodeRegistry F) (n : Hash) : Option (NodeRegistry F) :=
  (r.nodes[n]?).map fun e =>
    { nodes := r.nodes.erase n
      walletToNodes := r.walletToNodes.insert e.walletAddress
        ((r.walletToNodes.getD e.walletAddress []).filter (· ≠ n))
      ipToNode := if e.ipAddress = [] then r.ipToNode else r.ipToNode.erase e.ipAddress }

/-- `deregister_node_onchain`: the wallet key must be the stored one. -/
def deregisterNodeOnchain (r : NodeRegistry F) (dereg : Deregister) : Option (NodeRegistry F) :=
  match r.nodes[dereg.nodeId]? with
  | none => none
  | some e => if e.walletPubkey = dereg.walletPubkey then r.unregisterNode dereg.nodeId else none

/-- `update_node_status`. -/
def updateNodeStatus (r : NodeRegistry F) (n : Hash) (s : NodeStatus) (reason : Bytes)
    (now : UInt64) : Option (NodeRegistry F) :=
  r.modify n fun e => { e with
    status := s, updatedAt := now, metadata := if reason = [] then e.metadata else reason }

/-- `update_node_validator`. -/
def updateNodeValidator (r : NodeRegistry F) (n : Hash) (isVal : Bool) (sinceH txAmt : UInt64)
    (now : UInt64) : Option (NodeRegistry F) :=
  r.modify n fun e => { e with
    isValidator := isVal, validatorSinceHeight := sinceH, validatorTxAmount := txAmt,
    updatedAt := now }

/-- `update_reputation`. -/
def updateReputation [FloatArith F] (r : NodeRegistry F) (n : Hash) (d : F) (now : UInt64) :
    Option (NodeRegistry F) :=
  r.modify n fun e => { e with
    reputationScore := clamp01 (FloatArith.add e.reputationScore d), updatedAt := now }

/-- `update_node_sync`. -/
def updateNodeSync (r : NodeRegistry F) (n : Hash) (syncHeight : UInt64) (synced : Bool)
    (now : UInt64) : Option (NodeRegistry F) :=
  r.modify n fun e => { e with
    lastSyncHeight := syncHeight, isSynchronized := synced, updatedAt := now }

/-- `update_node_challenge_result`. -/
def updateNodeChallengeResult (r : NodeRegistry F) (n : Hash) (ok : Bool) (now : UInt64) :
    Option (NodeRegistry F) :=
  r.modify n fun e => { e with
    totalChallenges := e.totalChallenges + 1
    successfulChallenges := if ok then e.successfulChallenges + 1 else e.successfulChallenges
    updatedAt := now }

/-- `update_node_challenge_time`. -/
def updateNodeChallengeTime (r : NodeRegistry F) (n : Hash) (nextMs now : UInt64) :
    Option (NodeRegistry F) :=
  r.modify n fun e => { e with lastChallengeTime := now * 1000, nextChallengeTime := nextMs }

/-- `record_uptime_event`. -/
def recordUptimeEvent (r : NodeRegistry F) (n : Hash) (online : Bool) (ts : UInt64)
    (peers : UInt32) : Option (NodeRegistry F) :=
  r.modify n fun e =>
    let prev := e.lastSeenTimestamp
    let e := { e with lastSeenTimestamp := ts, peerCount := peers, updatedAt := ts }
    if online then
      { e with
        status := .active
        totalUptimeSeconds :=
          if 0 < prev ∧ prev < ts then e.totalUptimeSeconds + (ts - prev)
          else e.totalUptimeSeconds }
    else { e with status := .offline, disconnections := e.disconnections + 1 }

/-- `ban_node`. -/
def banNode (r : NodeRegistry F) (n : Hash) (reason : Bytes) (now : UInt64) :
    Option (NodeRegistry F) :=
  r.updateNodeStatus n .banned reason now

/-- `unban_node`. -/
def unbanNode (r : NodeRegistry F) (n : Hash) (now : UInt64) : Option (NodeRegistry F) :=
  r.updateNodeStatus n .active (asciiBytes "unbanned") now

/-- `get_node_by_id`. -/
def getNodeById (r : NodeRegistry F) (n : Hash) : Option (NodeRegistryEntry F) := r.nodes[n]?

/-- `get_node_by_pubkey`: the first entry, in key order, with the node key. -/
def getNodeByPubkey (r : NodeRegistry F) (pk : PublicKey) : Option (NodeRegistryEntry F) :=
  (r.nodes.toList.find? fun kv => kv.2.nodePubkey = pk).map (·.2)

/-- `is_wallet_pubkey_registered`. -/
def isWalletPubkeyRegistered (r : NodeRegistry F) (pk : PublicKey) : Bool :=
  r.nodes.toList.any fun kv => kv.2.walletPubkey = pk

/-- `get_all_nodes`. -/
def getAllNodes (r : NodeRegistry F) : List (NodeRegistryEntry F) := r.nodes.toList.map (·.2)

/-- `get_nodes_by_status`, and `get_active_nodes` without a limit. -/
def getNodesByStatus (r : NodeRegistry F) (s : NodeStatus) : List (NodeRegistryEntry F) :=
  r.getAllNodes.filter fun e => e.status = s

/-- `get_eligible_nodes`: active and registered by a block. -/
def getEligibleNodes (r : NodeRegistry F) : List (NodeRegistryEntry F) :=
  r.getAllNodes.filter fun e => e.status = .active && e.registeredOnchain

/-- The default of `max_offline_blocks`. -/
def defaultMaxOfflineBlocks : UInt64 := 720

/-- The seconds after which `expire_inactive_nodes` gives a node up, as the product it computes. -/
def maxOfflineSeconds (maxOfflineBlocks : UInt64) : UInt64 := maxOfflineBlocks * 120

/-- Whether the sweep at `now` marks the node offline: an unsigned age. -/
def expires (e : NodeRegistryEntry F) (now maxOfflineBlocks : UInt64) : Bool :=
  e.status = .active && e.lastSeenTimestamp ≠ 0 &&
    maxOfflineSeconds maxOfflineBlocks ≤ now - e.lastSeenTimestamp

/-- `expire_inactive_nodes`. -/
def expireInactiveNodes (r : NodeRegistry F) (maxOfflineBlocks now : UInt64) : NodeRegistry F :=
  { r with nodes := r.nodes.map fun _ e =>
      if expires e now maxOfflineBlocks then
        { e with status := .offline, updatedAt := now }
      else e }

end NodeRegistry

end

end Mevacoin.Trust
