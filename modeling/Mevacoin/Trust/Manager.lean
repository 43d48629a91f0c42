import Mevacoin.Trust.Badges
import Mevacoin.Trust.Circles
import Mevacoin.Trust.Payouts
import Mevacoin.Trust.Store

/-!
# The MevaTrust manager

`src/cryptonote_core/mevatrust/mevatrust_manager.cpp`.  `time()` is read once for the period
boundary, once for each transaction and once for the sweep.  Left out is what only serves this
node's own miner and its peers.
-/

namespace Mevacoin.Trust

open Lib Std

/-- A transaction as the processing reads it: what the rest of the daemon computes from its
RingCT part is given. -/
structure LoadedTx where
  tx : Transaction
  /-- `get_transaction_hash`. -/
  hash : Hash := Pod32.null
  /-- `governance_deposit_amount`: the sum of the outputs that belong to the treasury. -/
  governanceDeposit : UInt64 := 0

/-- `block`, with its hash. -/
structure Block where
  /-- `get_block_hash`. -/
  hash : Hash := Pod32.null
  timestamp : UInt64 := 0
  minerTx : LoadedTx
  txHashes : List Hash := []

/-- What the manager reads of the database. -/
structure ChainAccess where
  /-- `m_get_block_func`: the main chain by height. -/
  blocks : List Block := []
  /-- `m_get_tx_func`. -/
  getTx : Hash → Option LoadedTx := fun _ => none

/-- One block as it is handed to the manager. -/
structure BlockCtx where
  env : Env
  chain : ChainAccess := {}
  block : Block
  height : UInt64
  hfVersion : UInt8

/-- The transactions `process_mevatrust_txs` goes through: the miner transaction, then those
the database has. -/
def BlockCtx.txs (ctx : BlockCtx) : List LoadedTx :=
  ctx.block.minerTx :: ctx.block.txHashes.filterMap ctx.chain.getTx

/-- `PoppedOp`: what is remembered of an operation for a rollback. -/
inductive PoppedOp where
  | register (n : Hash)
  | deregister (n : Hash)
  | badgeAward (n : Hash) (t : BadgeType)
  | validatorPromotion (n : Hash)
  | penalty (n : Hash)
  | uptime (n : Hash)
  | challenge (n : Hash)
  | chainProof (n : Hash)
  | circleCreate (cid : Hash) (pubkey : PublicKey)
  | circleJoin (cid : Hash) (pubkey : PublicKey)
  | circleLeave (cid : Hash) (pubkey : PublicKey) (admin : Option PublicKey)
  | circleChangeAdmin (cid : Hash) (pubkey : PublicKey) (admin : Option PublicKey)
  | circleDisband (cid : Hash) (pubkey : PublicKey) (entry : Option CircleEntry)
  | circlePropose (cid : Hash) (pubkey : PublicKey) (pid : Hash)
  | circleVote (cid : Hash) (pubkey : PublicKey)
  | circleFinalize (cid : Hash) (pubkey : PublicKey)
  /-- An octet that names no operation: `op` stays unset. -/
  | unset (cid : Hash) (pubkey : PublicKey)
  | store (sid : Hash) (name : Bytes)
  | poolDistribution (amount : UInt64)

/-- `MevaTrustManager`. -/
structure Manager (F : Type) extends RewardState F where
  circles : CircleRegistry := {}
  badges : BadgeSystem := {}
  store : StoreRegistry := {}
  /-- `m_reorg_log`. -/
  reorgLog : ExtTreeMap UInt64 (List PoppedOp) := ∅

/-- `HF_VERSION_MEVATRUST_ANTISYBIL_BOND`. -/
def hfVersionMevatrustAntisybilBond : UInt8 := 19

/-- `NODE_REGISTRATION_BOND_ATOMIC`. -/
def nodeRegistrationBondAtomic : UInt64 := 100 * 1000000000000

/-- `VALIDATOR_MIN_STAKE`. -/
def validatorMinStake : UInt64 := 1000000000000000

/-- `VALIDATOR_AUTO_UPTIME_SECS`. -/
def validatorAutoUptimeSecs : UInt64 := 30 * 86400

/-- `m_period_length`. -/
def periodLength : UInt64 := 240

/-- A block at the end of a period. -/
def isPeriodBoundary (height : UInt64) : Bool := 0 < height && height % periodLength = 0

section

variable {F : Type} [FloatArith F]

/-- The key is the one registered on chain for the node, as some sections demand from fork 18. -/
def NodeRegistry.bound (r : NodeRegistry F) (n : Hash) (pk : PublicKey) : Bool :=
  (r.getNodeById n).any fun e => e.registeredOnchain && e.nodePubkey = pk

namespace Manager

/-- Append to the reorganisation log of a height. -/
def log (s : Manager F) (height : UInt64) (op : PoppedOp) : Manager F :=
  { s with reorgLog := s.reorgLog.insert height (s.reorgLog.getD height [] ++ [op]) }

/-- `apply_penalty` on the manager's registry and badges. -/
def penalize (s : Manager F) (n : Hash) (offense : OffenseType) (now : UInt64) : Manager F :=
  let out := applyPenalty s.registry s.badges n offense now
  { s with registry := out.1, badges := out.2 }

/-- `promote_to_validator`. -/
def promoteToValidator (s : Manager F) (n : Hash) (height stake now : UInt64) : Manager F :=
  match s.registry.getNodeById n with
  | none => s
  | some e =>
    if e.isValidator then s
    else
      let badges := s.badges.awardBadge n .networkValidator height
        (asciiBytes "validator-promotion") now
      let registry := (s.registry.updateNodeValidator n true height stake now).getD s.registry
      { s with registry, badges }.log height (.validatorPromotion n)

end Manager

/-! ### The sections of `process_mevatrust_txs` -/

/-- Tag `0xA0`. -/
def registrationSection (ctx : BlockCtx) (t : LoadedTx) (now : UInt64) (s : Manager F) :
    Flow (Manager F) :=
  match parseRegistration t.tx with
  | none => .next s
  | some reg =>
    if !verifyRegistrationSignature ctx.env.crypto reg then .skip s
    else if hfVersionMevatrustAntisybilBond ≤ ctx.hfVersion ∧
        t.governanceDeposit < nodeRegistrationBondAtomic then .skip s
    else
      match s.registry.registerNodeOnchain reg ctx.height ctx.hfVersion now with
      | some registry =>
        let badges := s.badges.awardBadge reg.nodeId .welcome ctx.height
          (asciiBytes "new-registration") now
        .next ({ s with registry, badges }.log ctx.height (.register reg.nodeId))
      | none =>
        if s.registry.isWalletPubkeyRegistered reg.walletPubkey then
          -- the wallet key is looked up among the node keys
          match s.registry.getNodeByPubkey reg.walletPubkey with
          | none => .next s
          | some existing =>
            .next ((s.penalize existing.nodeId .doubleRegistration now).log ctx.height
              (.penalty existing.nodeId))
        else .next s

/-- Tag `0xA1`. -/
def deregisterSection (ctx : BlockCtx) (t : LoadedTx) (s : Manager F) : Flow (Manager F) :=
  match parseDeregister t.tx with
  | none => .next s
  | some dereg =>
    if !verifyDeregisterSignature ctx.env.crypto dereg then .skip s
    else
      match s.registry.deregisterNodeOnchain dereg with
      | none => .next s
      | some registry =>
        .next ({ s with registry }.log ctx.height (.deregister dereg.nodeId))

/-- The largest output to the pool key, as the loop finds it. -/
def poolStake (pool : AccountAddress) (tx : Transaction) : UInt64 :=
  tx.vout.foldl (fun stake o =>
    if o.amount < stake then stake
    else if o.target = .toKey pool.spendPublicKey then o.amount
    else stake) 0

/-- Tag `0xAB`.  The node the payload names need not belong to the key that signed it. -/
def validatorSection (ctx : BlockCtx) (t : LoadedTx) (now : UInt64) (s : Manager F) :
    Flow (Manager F) :=
  match parseValidator t.tx with
  | none => .next s
  | some val =>
    if !verifyValidatorSignature ctx.env.crypto val then .skip s
    else if poolStake ctx.env.poolAddress t.tx < validatorMinStake then .skip s
    else
      .next ((s.promoteToValidator val.nodeId ctx.height (poolStake ctx.env.poolAddress t.tx)
        now).log ctx.height (.badgeAward val.nodeId .networkValidator))

/-- One award of a snapshot. -/
def applyAward (ctx : BlockCtx) (now : UInt64) (s : Manager F) (a : BadgeAward) : Manager F :=
  let t := BadgeType.ofUInt8 a.badgeType
  if !verifyBadgeAward ctx.env.crypto a || s.badges.hasBadge a.nodeId t then s
  else
    let badges := s.badges.awardBadge a.nodeId t a.awardedHeight (asciiBytes "on-chain-replay") now
    { s with badges }.log ctx.height (.badgeAward a.nodeId t)

/-- Tag `0xA2`. -/
def snapshotSection (ctx : BlockCtx) (t : LoadedTx) (now : UInt64) (s : Manager F) :
    Flow (Manager F) :=
  match parseSnapshot t.tx with
  | none => .next s
  | some snap => .next (snap.badgeAwards.foldl (applyAward ctx now) s)

/-- The `switch` over a circle operation; `none` for `continue`. -/
def applyCircleOp (cr : Crypto) (c : CircleRegistry) (op : CircleOp) (txHash : Hash)
    (height now : UInt64) : Option (CircleRegistry × PoppedOp) :=
  let target := op.targetPubkey
  let admin := (c.getCircle op.circleId).map (·.adminPubkey)
  let mark (c : CircleRegistry) := c.markTxProcessed op.circleId txHash
  match CircleOpType.ofUInt8 op.opType with
  | some .create =>
    let out := c.createCircle cr op.circleName op.signerPubkey height now
    some (out.1, .circleCreate (if out.2 = Pod32.null then op.circleId else out.2) target)
  | some .join =>
    (c.addMember op.circleId target op.signerPubkey now).map fun c =>
      (mark c, .circleJoin op.circleId target)
  | some .leave =>
    (c.removeMember op.circleId target op.signerPubkey now).map fun c =>
      (mark c, .circleLeave op.circleId target admin)
  | some .changeAdmin =>
    (c.changeAdmin op.circleId target op.signerPubkey now).map fun c =>
      (mark c, .circleChangeAdmin op.circleId target admin)
  | some .disband =>
    (c.disbandCircle op.circleId op.signerPubkey).map fun c' =>
      (c', .circleDisband op.circleId target (c.getCircle op.circleId))
  | none => some (c, .unset op.circleId target)

/-- Tag `0xA3`. -/
def circleSection (ctx : BlockCtx) (t : LoadedTx) (now : UInt64) (s : Manager F) :
    Flow (Manager F) :=
  match parseCircle t.tx with
  | none => .next s
  | some op =>
    if !verifyCircleSignature ctx.env.crypto op then .skip s
    else if CircleOpType.ofUInt8 op.opType ≠ some .create ∧
        s.circles.isTxProcessed op.circleId t.hash then .skip s
    else
      match applyCircleOp ctx.env.crypto s.circles op t.hash ctx.height now with
      | none => .skip s
      | some (circles, po) => .next ({ s with circles }.log ctx.height po)

/-- The `switch` over a vote; `none` for `continue`. -/
def applyCircleVote (D : Type) [FloatArith D] (cr : Crypto) (c : CircleRegistry) (v : CircleVote)
    (height now : UInt64) : Option (CircleRegistry × PoppedOp) :=
  match VoteOpType.ofUInt8 v.opType with
  | some .proposeChangeAdmin =>
    let out := c.createProposal cr v.circleId v.signerPubkey v.targetPubkey height
    some (out.1, .circlePropose v.circleId v.targetPubkey out.2)
  | some .castVote =>
    (c.castVote v.proposalId v.signerPubkey v.voteYes height).map fun c =>
      (c, .circleVote v.circleId v.targetPubkey)
  | some .finalizeVote =>
    some ((c.finalizeVote D v.proposalId height now).1, .circleFinalize v.circleId v.targetPubkey)
  | none => some (c, .unset v.circleId v.targetPubkey)

/-- Tag `0xA9`. -/
def circleVoteSection (D : Type) [FloatArith D] (ctx : BlockCtx) (t : LoadedTx) (now : UInt64)
    (s : Manager F) : Flow (Manager F) :=
  match parseCircleVote t.tx with
  | none => .next s
  | some v =>
    if !verifyCircleVoteSignature ctx.env.crypto v then .skip s
    else
      match applyCircleVote D ctx.env.crypto s.circles v ctx.height now with
      | none => .skip s
      | some (circles, po) => .next ({ s with circles }.log ctx.height po)

/-- What a `0xA4` payload does once its signature holds. -/
def applyPenaltyOp (s : Manager F) (pen : Penalty) (now : UInt64) : Manager F :=
  match PenOpType.ofUInt8 pen.opType with
  | .ban => { s with registry := (s.registry.banNode pen.nodeId pen.reason now).getD s.registry }
  | .unban => { s with registry := (s.registry.unbanNode pen.nodeId now).getD s.registry }
  | .penalty => s.penalize pen.nodeId (OffenseType.ofName pen.offenseType) now

/-- Tag `0xA4`.  The signature is checked against the key the payload carries, and that key
against nothing. -/
def penaltySection (ctx : BlockCtx) (t : LoadedTx) (now : UInt64) (s : Manager F) :
    Flow (Manager F) :=
  match parsePenalty t.tx with
  | none => .next s
  | some pen =>
    if !verifyPenaltySignature ctx.env.crypto pen then .skip s
    else .next ((applyPenaltyOp s pen now).log ctx.height (.penalty pen.nodeId))

/-- Tag `0xA5`. -/
def uptimeSection (ctx : BlockCtx) (t : LoadedTx) (now : UInt64) (s : Manager F) :
    Flow (Manager F) :=
  match parseUptime t.tx with
  | none => .next s
  | some upt =>
    if !verifyUptimeSignature ctx.env.crypto upt then .skip s
    else if hfVersionMevatrustAntisybil ≤ ctx.hfVersion ∧
        s.registry.bound upt.nodeId upt.nodePubkey = false then .skip s
    else
      let ev : UptimeEvent := ⟨upt.timestamp, true, ctx.height, upt.peerCount, 0⟩
      let out := s.engine.recordUptimeEvent s.registry upt.nodeId ev
      let registry := (out.2.updateNodeSync upt.nodeId upt.syncHeight upt.isSynced now).getD out.2
      let engine := out.1.recordChainUptimeSample upt.nodeId ctx.height ctx.block.timestamp
      .next ({ s with registry, engine }.log ctx.height (.uptime upt.nodeId))

/-- The registry after a challenge between two nodes. -/
def recordChallenge (r : NodeRegistry F) (ch : Challenge) (now : UInt64) : NodeRegistry F :=
  let r := (r.updateNodeChallengeResult ch.challengerNodeId ch.success now).getD r
  let r := (r.updateNodeChallengeResult ch.challengedNodeId ch.success now).getD r
  if ch.success then
    let r := (r.updateReputation ch.challengerNodeId (FloatArith.ofRat (2 / 100)) now).getD r
    (r.updateReputation ch.challengedNodeId (FloatArith.ofRat (2 / 100)) now).getD r
  else r

/-- Tag `0xA6`. -/
def challengeSection (ctx : BlockCtx) (t : LoadedTx) (now : UInt64) (s : Manager F) :
    Flow (Manager F) :=
  match parseChallenge t.tx with
  | none => .next s
  | some ch =>
    if !verifyChallengeSignatures ctx.env.crypto ch then .skip s
    else if hfVersionMevatrustAntisybil ≤ ctx.hfVersion ∧
        (s.registry.bound ch.challengerNodeId ch.challengerPubkey &&
          s.registry.bound ch.challengedNodeId ch.challengedPubkey) = false then .skip s
    else
      .next ({ s with registry := recordChallenge s.registry ch now }.log ctx.height
        (.challenge ch.challengerNodeId))

/-- The checks on a chain proof after its signature, in order. -/
def chainProofHolds (ctx : BlockCtx) (r : NodeRegistry F) (cp : ChainProof) : Bool :=
  r.bound cp.nodeId cp.nodePubkey &&
    cp.anchorHeight ≤ ctx.height && ctx.height - cp.anchorHeight ≤ chainProofMaxAnchorLag &&
    chainProofTarget ctx.env.crypto cp.nodeId cp.anchorHeight = some cp.proofHeight &&
    ctx.chain.blocks[cp.proofHeight.toNat]?.any fun b => b.hash = cp.blockHash

/-- Tag `0xAC`. -/
def chainProofSection (ctx : BlockCtx) (t : LoadedTx) (s : Manager F) : Flow (Manager F) :=
  match parseChainProof t.tx with
  | none => .next s
  | some cp =>
    if ctx.hfVersion < hfVersionMevatrustAntisybil then .next s
    else if !verifyChainProofSignature ctx.env.crypto cp then .skip s
    else if chainProofHolds ctx s.registry cp = false then .skip s
    else
      let engine := s.engine.recordChainProofSample cp.nodeId ctx.height cp.proofHeight
      .next ({ s with engine }.log ctx.height (.chainProof cp.nodeId))

/-- Tag `0xA8`. -/
def storeSection (ctx : BlockCtx) (t : LoadedTx) (now : UInt64) (s : Manager F) :
    Flow (Manager F) :=
  match parseStore t.tx with
  | none => .next s
  | some op =>
    if !verifyStoreOp ctx.env.crypto op then .skip s
    else
      let store := s.store.apply ctx.env.crypto ctx.env.poolAddress t.tx t.hash op ctx.height now
      .next ({ s with store }.log ctx.height (.store op.storeId op.name))

/-- Tag `0xAA`. -/
def poolDistributionSection (ctx : BlockCtx) (t : LoadedTx) (s : Manager F) : Flow (Manager F) :=
  match parseTagged PoolDistribution.codec poolDistributionTag t.tx with
  | none => .next s
  | some pd => .next (s.log ctx.height (.poolDistribution pd.totalDistributed))

/-- The sections in their order.  `0xA7`, between `0xAC` and `0xA8`, only logs. -/
def sections (D : Type) [FloatArith D] (ctx : BlockCtx) (t : LoadedTx) (now : UInt64) :
    List (Manager F → Flow (Manager F)) :=
  [registrationSection ctx t now, deregisterSection ctx t, validatorSection ctx t now,
    snapshotSection ctx t now, circleSection ctx t now, circleVoteSection D ctx t now,
    penaltySection ctx t now, uptimeSection ctx t now, challengeSection ctx t now,
    chainProofSection ctx t, storeSection ctx t now, poolDistributionSection ctx t]

/-- The body of the loop over the transactions. -/
def processTx (D : Type) [FloatArith D] (ctx : BlockCtx) (t : LoadedTx) (now : UInt64)
    (s : Manager F) : Manager F :=
  (Flow.stages (sections D ctx t now) s).state

/-- The loop, reading the clock once per transaction. -/
def processTxs (D : Type) [FloatArith D] (ctx : BlockCtx) :
    List LoadedTx → (ℕ → UInt64) → Manager F → Manager F
  | [], _, s => s
  | t :: ts, time, s => processTxs D ctx ts (fun i => time (i + 1)) (processTx D ctx t (time 0) s)

/-- The expiry sweep that ends `process_mevatrust_txs`; the height is ignored. -/
def expirySweep (height now : UInt64) (s : Manager F) : Manager F :=
  if isPeriodBoundary height then
    { s with registry := s.registry.expireInactiveNodes NodeRegistry.defaultMaxOfflineBlocks now }
  else s

/-- The values `time()` returns while one block is applied. -/
structure BlockClock where
  newBlock : UInt64
  tx : ℕ → UInt64
  sweep : UInt64

/-- A clock that stands still while a block is applied. -/
def stillClock (now : UInt64) : BlockClock := ⟨now, fun _ => now, now⟩

/-- `process_mevatrust_txs`. -/
def processMevatrustTxs (D : Type) [FloatArith D] (ctx : BlockCtx) (clock : BlockClock)
    (s : Manager F) : Manager F :=
  if s.initialized = false then s
  else expirySweep ctx.height clock.sweep (processTxs D ctx ctx.txs clock.tx s)

/-! ### The period boundary -/

/-- `compute_pool_balance_from_chain`: 3% of every block above height 13, less what manifests
declare; `upTo` is zero for the whole chain. -/
def computePoolBalanceFromChain (chain : ChainAccess) (upTo : UInt64) : UInt64 :=
  let upTo := if upTo = 0 then chain.blocks.length else upTo.toNat
  let blocks := (chain.blocks.take upTo).drop 14
  let contribution (b : Block) : UInt64 :=
    (b.minerTx.tx.vout.map (·.amount)).sum * nodeRewardPercent / 100
  let distribution (b : Block) : UInt64 :=
    ((parseTagged PoolDistribution.codec poolDistributionTag b.minerTx.tx).map
      (·.totalDistributed)).getD 0
  let contributions := (blocks.map contribution).sum
  let distributions := (blocks.map distribution).sum
  if distributions ≤ contributions then contributions - distributions else 0

/-- Whether `check_auto_validator_promotion` promotes a node. -/
def autoPromotes (eng : Engine) (e : NodeRegistryEntry F) (now : UInt64) : Bool :=
  !e.isValidator && validatorAutoUptimeSecs ≤ eng.getTotalUptimeSeconds e.nodeId now &&
    FloatArith.le (FloatArith.ofRat (95 / 100)) (eng.getUptimePercentage e.nodeId : F)

/-- `check_auto_validator_promotion`. -/
def checkAutoValidatorPromotion (height now : UInt64) (s : Manager F) : Manager F :=
  (s.registry.getNodesByStatus .active).foldl (fun s' e =>
    if autoPromotes s.engine e now then s'.promoteToValidator e.nodeId height 0 now else s') s

/-- `trigger_distribution`: its effect on the distributor. -/
def triggerDistribution (D : Type) [FloatArith D] [FloatWiden F D] (ctx : BlockCtx)
    (s : Manager F) : Manager F :=
  let poolBalance := computePoolBalanceFromChain ctx.chain 0
  if poolBalance = 0 then s
  else
    let out := { s.distributor with poolBalance }.processWelcomeBonuses ctx.height
    if Distributor.isDistributionDue ctx.height = false ∧ out.1 = [] then
      { s with distributor := out.2 }
    else
      let d := out.2.distributeRewards D s.engine s.registry
      { s with distributor := { d with pendingOutputs := [] } }

/-- Whether the boundary at `height` turns a suspension into a ban: an unsigned difference of
a height and a time. -/
def NodeRegistryEntry.escalates (e : NodeRegistryEntry F) (height : UInt64) : Bool :=
  periodLength * 2 ≤ height - e.updatedAt

/-- The escalation of suspended nodes. -/
def escalateSuspended (height now : UInt64) (s : Manager F) : Manager F :=
  (s.registry.getNodesByStatus .suspended).foldl (fun s' e =>
    if e.escalates height then s'.penalize e.nodeId .maliciousActivity now else s') s

/-- `on_new_block`. -/
def onNewBlock (D : Type) [FloatArith D] [FloatWiden F D] (ctx : BlockCtx) (now : UInt64)
    (s : Manager F) : Manager F :=
  if s.initialized = false ∨ isPeriodBoundary ctx.height = false then s
  else
    let s := { s with engine := s.engine.processRewardPeriod ctx.height }
    let badges := s.badges.evaluateAllBadges s.engine s.registry ctx.height now
    let s := checkAutoValidatorPromotion ctx.height now { s with badges }
    escalateSuspended ctx.height now (triggerDistribution D ctx s)

/-- A block as the daemon applies it: `on_new_block`, then `process_mevatrust_txs`. -/
def applyBlock (D : Type) [FloatArith D] [FloatWiden F D] (ctx : BlockCtx) (clock : BlockClock)
    (s : Manager F) : Manager F :=
  processMevatrustTxs D ctx clock (onNewBlock D ctx clock.newBlock s)

/-! ### The state root -/

/-- The octets a node contributes to the state root. -/
def NodeRegistryEntry.rootOctets (e : NodeRegistryEntry F) : Bytes :=
  e.nodeId.data ++ [e.status.toUInt8] ++ FloatArith.octets e.reputationScore

/-- The octets a circle contributes to the state root. -/
def CircleEntry.rootOctets (c : CircleEntry) : Bytes :=
  c.circleId.data ++ c.adminPubkey.data ++
    (c.members.insertionSort fun a b => (compare a b).isLE = true).flatMap (·.data)

/-- `compute_mevatrust_state_root`. -/
def computeMevatrustStateRoot (cr : Crypto) (chain : ChainAccess) (s : Manager F)
    (upTo : UInt64) : Hash :=
  let nodes := s.registry.getAllNodes.insertionSort fun a b =>
    (compare a.nodeId b.nodeId).isLE = true
  let circles := s.circles.listCircles.insertionSort fun a b =>
    (compare a.circleId b.circleId).isLE = true
  cr.cnFastHash (nodes.flatMap NodeRegistryEntry.rootOctets ++
    circles.flatMap CircleEntry.rootOctets ++
    leBytes 8 (computePoolBalanceFromChain chain upTo).toNat)

end

end Mevacoin.Trust
