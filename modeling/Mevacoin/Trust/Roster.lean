import Mevacoin.Lib.TwoRuns
import Mevacoin.Trust.NodeMoves

/-!
# What the blocks to come read of the nodes

A roster is what `process_mevatrust_txs` reads of the node registry.  What an action or a log entry
does to it depends on the roster alone.
-/

namespace Mevacoin.Trust

open Lib Std

/-- What is read of an entry. -/
structure RosterEntry (F : Type) where
  identity : Identity
  status : NodeStatus
  reputation : F
  lastSeen : UInt64

/-- What is read of the node registry. -/
structure Roster (F : Type) where
  nodes : ExtTreeMap Hash (RosterEntry F)
  wallets : Bytes → List Hash

section

variable {F : Type}

/-- What the roster keeps of an entry. -/
def NodeRegistryEntry.rosterEntry (e : NodeRegistryEntry F) : RosterEntry F :=
  ⟨e.identity, e.status, e.reputationScore, e.lastSeenTimestamp⟩

/-- The roster of a registry. -/
def NodeRegistry.roster (r : NodeRegistry F) : Roster F where
  nodes := r.nodes.map fun _ => NodeRegistryEntry.rosterEntry
  wallets := fun w => r.walletToNodes.getD w []

/-! ### Queries -/

namespace RosterEntry

/-- Neither banned nor offline. -/
def isLive (x : RosterEntry F) : Bool := x.status ≠ .banned && x.status ≠ .offline

/-- The sweep at `now` marks the node offline. -/
def expires (x : RosterEntry F) (now maxOfflineBlocks : UInt64) : Bool :=
  x.status = .active && x.lastSeen ≠ 0 &&
    NodeRegistry.maxOfflineSeconds maxOfflineBlocks ≤ now - x.lastSeen

end RosterEntry

namespace Roster

variable (G : Roster F)

/-- The live nodes of a wallet. -/
def liveOfWallet (wallet : Bytes) : ℕ :=
  ((G.wallets wallet).filterMap fun k => G.nodes[k]?).countP RosterEntry.isLive

/-- A live node uses the node key. -/
def nodePubkeyLive (pk : PublicKey) : Bool :=
  G.nodes.toList.any fun kv => kv.2.isLive && kv.2.identity.nodePubkey = pk

/-- Some node has the wallet key. -/
def isWalletPubkeyRegistered (pk : PublicKey) : Bool :=
  G.nodes.toList.any fun kv => kv.2.identity.walletPubkey = pk

/-- The first node with the node key. -/
def getNodeByPubkey (pk : PublicKey) : Option (RosterEntry F) :=
  (G.nodes.toList.find? fun kv => kv.2.identity.nodePubkey = pk).map (·.2)

/-- The key is the node's, registered on chain. -/
def bound (n : Hash) (pk : PublicKey) : Bool :=
  (G.nodes[n]?).any fun x => x.identity.registeredOnchain && x.identity.nodePubkey = pk

/-- A registration is taken. -/
def Accepts (reg : Registration) (hfVersion : UInt8) : Prop :=
  G.liveOfWallet reg.walletAddress < maxNodesPerWallet ∧
    ¬ (hfVersionMevatrustAntisybil ≤ hfVersion ∧ G.nodePubkeyLive reg.nodePubkey = true) ∧
    (G.nodes[reg.nodeId]?).isNone = true
deriving Decidable

end Roster

namespace NodeRegistry

variable (r : NodeRegistry F)

variable (n : Hash) (pk : PublicKey)

/-- A node in the roster. -/
theorem roster_nodes : r.roster.nodes[n]? = (r.nodes[n]?).map NodeRegistryEntry.rosterEntry :=
  ExtTreeMap.getElem?_map

/-- All nodes of the roster. -/
theorem roster_toList :
    r.roster.nodes.toList = r.nodes.toList.map fun kv => (kv.1, kv.2.rosterEntry) :=
  ExtTreeMap.toList_map

/-- The roster tells the live nodes of a wallet. -/
theorem roster_liveOfWallet (wallet : Bytes) :
    r.roster.liveOfWallet wallet = r.liveOfWallet wallet := by
  unfold Roster.liveOfWallet liveOfWallet
  simp only [roster_nodes]
  rw [← List.map_filterMap, List.countP_map]
  rfl

/-- The roster tells the node keys in use. -/
theorem roster_nodePubkeyLive : r.roster.nodePubkeyLive pk = r.nodePubkeyLive pk := by
  unfold Roster.nodePubkeyLive nodePubkeyLive
  rw [roster_toList, List.any_map]
  rfl

/-- The roster tells the registered wallet keys. -/
theorem roster_isWalletPubkeyRegistered :
    r.roster.isWalletPubkeyRegistered pk = r.isWalletPubkeyRegistered pk := by
  unfold Roster.isWalletPubkeyRegistered isWalletPubkeyRegistered
  rw [roster_toList, List.any_map]
  rfl

/-- The roster tells the node of a wallet key. -/
theorem roster_getNodeByPubkey :
    r.roster.getNodeByPubkey pk = (r.getNodeByPubkey pk).map NodeRegistryEntry.rosterEntry := by
  unfold Roster.getNodeByPubkey getNodeByPubkey
  rw [roster_toList, List.find?_map, Option.map_map, Option.map_map]
  rfl

/-- The roster tells the key of a node. -/
theorem roster_bound : r.roster.bound n pk = r.bound n pk := by
  unfold Roster.bound bound getNodeById
  rw [roster_nodes, Option.any_map]
  rfl

/-- The roster tells which registrations are accepted. -/
theorem roster_accepts [FloatArith F] (reg : Registration) (hfVersion : UInt8) :
    r.roster.Accepts reg hfVersion ↔ r.Accepts reg hfVersion := by
  unfold Roster.Accepts Accepts
  rw [roster_liveOfWallet, roster_nodePubkeyLive, roster_nodes, Option.isNone_map,
    Option.isNone_iff_eq_none]

end NodeRegistry

/-! ### Changes -/

namespace Roster

variable {G : Roster F} {n : Hash} {g g' : RosterEntry F → RosterEntry F}

/-- Change the entry of a node, if it is registered. -/
def change (G : Roster F) (n : Hash) (g : RosterEntry F → RosterEntry F) : Roster F :=
  match G.nodes[n]? with
  | none => G
  | some x => { G with nodes := G.nodes.insert n (g x) }

/-- A node enters. -/
def enter [FloatArith F] (G : Roster F) (reg : Registration) (height now : UInt64) : Roster F where
  nodes := G.nodes.insert reg.nodeId (NodeRegistry.onchainEntry reg height now).rosterEntry
  wallets := Function.update G.wallets reg.walletAddress
    (G.wallets reg.walletAddress ++ [reg.nodeId])

/-- A node leaves. -/
def leave (G : Roster F) (n : Hash) : Roster F :=
  match G.nodes[n]? with
  | none => G
  | some x =>
    { nodes := G.nodes.erase n
      wallets := Function.update G.wallets x.identity.walletAddress
        ((G.wallets x.identity.walletAddress).filter (· ≠ n)) }

/-- The expiry sweep. -/
def expire (G : Roster F) (maxOfflineBlocks now : UInt64) : Roster F :=
  { G with nodes := G.nodes.map fun _ x =>
      if x.expires now maxOfflineBlocks then { x with status := .offline } else x }

/-- A change that changes nothing. -/
theorem change_of_fixed (h : ∀ x ∈ G.nodes[n]?, g x = x) : G.change n g = G := by
  unfold change
  cases hn : G.nodes[n]? with
  | none => rfl
  | some x =>
    dsimp only
    rw [h x hn, insert_of_present hn]

/-- Two changes of one entry. -/
theorem change_change : (G.change n g).change n g' = G.change n (g' ∘ g) := by
  unfold change
  cases hn : G.nodes[n]? with
  | none => simp only [hn]
  | some x =>
    rw [ExtTreeMap.getElem?_insert_self]
    dsimp only
    rw [insert_insert_self]
    rfl

/-- Who enters and leaves has not been there, if the index did not list it before. -/
theorem leave_enter [FloatArith F] {reg : Registration} {height now : UInt64}
    (hnew : G.nodes[reg.nodeId]? = none) (hlist : reg.nodeId ∉ G.wallets reg.walletAddress) :
    (G.enter reg height now).leave reg.nodeId = G := by
  have hentry : (G.enter reg height now).nodes[reg.nodeId]? =
      some (NodeRegistry.onchainEntry reg height now).rosterEntry := ExtTreeMap.getElem?_insert_self
  have hfilter : (G.wallets reg.walletAddress ++ [reg.nodeId]).filter (· ≠ reg.nodeId) =
      G.wallets reg.walletAddress := by
    rw [List.filter_append, List.filter_eq_self.2 fun k hk => ?_]
    · simp
    · exact decide_eq_true fun heq => hlist (heq ▸ hk)
  unfold leave
  rw [hentry]
  have hupdated : Function.update (Function.update G.wallets reg.walletAddress
      (G.wallets reg.walletAddress ++ [reg.nodeId])) reg.walletAddress
      ((Function.update G.wallets reg.walletAddress
        (G.wallets reg.walletAddress ++ [reg.nodeId]) reg.walletAddress).filter
          (· ≠ reg.nodeId)) = G.wallets := by
    rw [Function.update_self, hfilter, Function.update_idem, Function.update_eq_self]
  exact congrArg₂ Roster.mk (erase_insert_of_absent hnew _) hupdated

end Roster

namespace NodeRegistry

variable {r : NodeRegistry F} {n : Hash}

/-- A rewritten entry is a change of the roster. -/
theorem roster_modify {f : NodeRegistryEntry F → NodeRegistryEntry F}
    {g : RosterEntry F → RosterEntry F} (hf : ∀ e, (f e).rosterEntry = g e.rosterEntry) :
    ((r.modify n f).getD r).roster = r.roster.change n g := by
  unfold modify Roster.change
  rw [roster_nodes]
  cases r.nodes[n]? with
  | none => rfl
  | some e =>
    show Roster.mk ((r.nodes.insert n (f e)).map _) _ = Roster.mk _ _
    rw [map_insert_eq, hf]
    rfl

/-- A change that the roster does not show. -/
theorem roster_modify_of_eq {f : NodeRegistryEntry F → NodeRegistryEntry F}
    (hf : ∀ e, (f e).rosterEntry = e.rosterEntry) : ((r.modify n f).getD r).roster = r.roster := by
  rw [roster_modify (g := id) hf]
  exact Roster.change_of_fixed fun _ _ => rfl

/-- A new status is a change of the roster. -/
theorem roster_updateNodeStatus (st : NodeStatus) (reason : Bytes) (now : UInt64) :
    ((r.updateNodeStatus n st reason now).getD r).roster =
      r.roster.change n fun x => { x with status := st } :=
  roster_modify fun _ => rfl

/-- A removal is a leave. -/
theorem roster_unregisterNode : ((r.unregisterNode n).getD r).roster = r.roster.leave n := by
  unfold unregisterNode Roster.leave
  rw [roster_nodes]
  cases r.nodes[n]? with
  | none => rfl
  | some e =>
    show Roster.mk ((r.nodes.erase n).map _) _ = Roster.mk _ _
    rw [map_erase_eq]
    refine congrArg (Roster.mk _) (funext fun w => ?_)
    rw [Function.update_apply]
    show (r.walletToNodes.insert e.walletAddress _).getD w [] = if w = e.walletAddress then _ else _
    rw [ExtTreeMap.getD_insert]
    by_cases hw : e.walletAddress = w
    · rw [if_pos (LawfulEqOrd.compare_eq_iff_eq.2 hw), if_pos hw.symm]
      rfl
    · rw [if_neg (by simpa using hw), if_neg (Ne.symm hw)]
      rfl

/-- The sweep, on the roster. -/
theorem roster_expireInactiveNodes (maxOfflineBlocks now : UInt64) :
    (r.expireInactiveNodes maxOfflineBlocks now).roster =
      r.roster.expire maxOfflineBlocks now := by
  refine congrArg (Roster.mk · _) (ExtTreeMap.ext_getElem? fun k => ?_)
  show (((r.nodes.map _).map _)[k]?) = ((r.nodes.map _).map _)[k]?
  simp only [ExtTreeMap.getElem?_map]
  cases r.nodes[k]? with
  | none => rfl
  | some e =>
    show some (NodeRegistryEntry.rosterEntry (if NodeRegistry.expires e now _ then _ else _)) =
      some (if NodeRegistry.expires e now _ then _ else _)
    split
    · rfl
    · rfl

end NodeRegistry

end

section

variable {F : Type} [FloatArith F]

/-- A registration is an entry. -/
theorem NodeRegistry.roster_registerNodeOnchain {r r' : NodeRegistry F} {reg : Registration}
    {height now : UInt64} {hf : UInt8} (h : r.registerNodeOnchain reg height hf now = some r') :
    r'.roster = r.roster.enter reg height now := by
  unfold registerNodeOnchain at h
  split_ifs at h
  obtain rfl := Option.some_inj.1 h
  unfold roster Roster.enter
  rw [map_insert_eq]
  refine congrArg (Roster.mk _) (funext fun w => ?_)
  rw [ExtTreeMap.getD_insert, Function.update_apply]
  by_cases hw : reg.walletAddress = w
  · rw [if_pos (LawfulEqOrd.compare_eq_iff_eq.2 hw), if_pos hw.symm]
  · rw [if_neg (by simpa using hw), if_neg (Ne.symm hw)]

/-- What a penalty makes of an entry. -/
def RosterEntry.penalized (offense : OffenseType) (x : RosterEntry F) : RosterEntry F :=
  let reputation := shiftReputation offense.delta x.reputation
  let status := penaltyStatus offense reputation
  { x with reputation, status := if status = .active then x.status else status }

/-- A penalty is a change of the roster. -/
theorem roster_applyPenalty (r : NodeRegistry F) (b : BadgeSystem) (n : Hash)
    (offense : OffenseType) (now : UInt64) :
    (applyPenalty r b n offense now).1.roster =
      r.roster.change n (RosterEntry.penalized offense) := by
  rw [applyPenalty_registry]
  refine NodeRegistry.roster_modify fun e => ?_
  rw [NodeRegistryEntry.penalized_eq]
  rfl

/-- The bonus of a passed challenge. -/
def RosterEntry.rewarded (x : RosterEntry F) : RosterEntry F :=
  { x with reputation := shiftReputation (2 / 100) x.reputation }

/-- What a challenge does. -/
def Roster.challenged (G : Roster F) (ch : Challenge) : Roster F :=
  if ch.success then
    (G.change ch.challengerNodeId RosterEntry.rewarded).change ch.challengedNodeId
      RosterEntry.rewarded
  else G

/-- A challenge, on the roster. -/
theorem roster_recordChallenge (r : NodeRegistry F) (ch : Challenge) (now : UInt64) :
    (recordChallenge r ch now).roster = r.roster.challenged ch := by
  have hcount (r : NodeRegistry F) (n : Hash) :
      ((r.updateNodeChallengeResult n ch.success now).getD r).roster = r.roster :=
    NodeRegistry.roster_modify_of_eq fun _ => rfl
  have hbonus (r : NodeRegistry F) (n : Hash) :
      ((r.updateReputation n (FloatArith.ofRat (2 / 100)) now).getD r).roster =
        r.roster.change n RosterEntry.rewarded :=
    NodeRegistry.roster_modify fun _ => rfl
  unfold recordChallenge Roster.challenged
  split
  · rw [hbonus, hbonus, hcount, hcount]
  · rw [hcount, hcount]

/-! ### The actions of a block -/

/-- The roster after an action, and the entries of the log that will change it back. -/
def NodeAct.rosterStep (ctx : BlockCtx) (now : UInt64) (G : Roster F) :
    NodeAct → Roster F × List PoppedOp
  | register reg =>
    if G.Accepts reg ctx.hfVersion then (G.enter reg ctx.height now, [.register reg.nodeId])
    else if G.isWalletPubkeyRegistered reg.walletPubkey then
      match G.getNodeByPubkey reg.walletPubkey with
      | none => (G, [])
      | some x => (G.change x.identity.nodeId (RosterEntry.penalized .doubleRegistration),
          [.penalty x.identity.nodeId])
    else (G, [])
  | deregister dereg =>
    match G.nodes[dereg.nodeId]? with
    | none => (G, [])
    | some x =>
      if x.identity.walletPubkey = dereg.walletPubkey then (G.leave dereg.nodeId, []) else (G, [])
  | penalty pen =>
    (match PenOpType.ofUInt8 pen.opType with
      | .ban => G.change pen.nodeId fun x => { x with status := .banned }
      | .unban => G.change pen.nodeId fun x => { x with status := .active }
      | .penalty => G.change pen.nodeId
          (RosterEntry.penalized (OffenseType.ofName pen.offenseType)),
      [.penalty pen.nodeId])
  | uptime upt =>
    (G.change upt.nodeId fun x => { x with status := .active, lastSeen := upt.timestamp }, [])
  | challenge ch => (G.challenged ch, [])
  | promote _ _ | award _ => (G, [])

/-- The actions on nodes, as the roster shows them. -/
def rosterMachine (F : Type) [FloatArith F] (ctx : BlockCtx) :
    Machine (Roster F) (NodeAct × UInt64) PoppedOp where
  step G a := a.1.rosterStep ctx a.2 G

/-- An entry of the log that changes the roster. -/
def PoppedOp.onRoster : PoppedOp → Bool
  | register _ | penalty _ => true
  | _ => false

omit [FloatArith F] in
/-- What undoing an entry does to the roster. -/
def Roster.undo (G : Roster F) : PoppedOp → Roster F
  | .register n => G.leave n
  | .penalty n => G.change n fun x => { x with status := .active }
  | _ => G

variable {ctx : BlockCtx} {now : UInt64}

/-- A registration does to the roster what the roster says. -/
theorem NodeAct.rosterStep_register (reg : Registration) (r : NodeRegistry F) (b : BadgeSystem) :
    NodeAct.rosterStep ctx now r.roster (.register reg) =
      ((NodeAct.step ctx now r b (.register reg)).1.1.roster,
        (NodeAct.step ctx now r b (.register reg)).2.filter PoppedOp.onRoster) := by
  have hsome := registerNodeOnchain_isSome_iff r reg ctx.height ctx.hfVersion now
  rw [← NodeRegistry.roster_accepts] at hsome
  dsimp only [NodeAct.rosterStep, NodeAct.step]
  cases hreg : r.registerNodeOnchain reg ctx.height ctx.hfVersion now with
  | some r' =>
    rw [hreg] at hsome
    rw [if_pos (hsome.1 rfl), ← NodeRegistry.roster_registerNodeOnchain hreg]
    rfl
  | none =>
    rw [hreg] at hsome
    rw [if_neg fun hacc => absurd (hsome.2 hacc) Bool.false_ne_true,
      NodeRegistry.roster_isWalletPubkeyRegistered, NodeRegistry.roster_getNodeByPubkey]
    split
    · cases r.getNodeByPubkey reg.walletPubkey with
      | none => rfl
      | some e =>
        rw [roster_applyPenalty]
        rfl
    · rfl

/-- **What an action does to the roster.** -/
theorem NodeAct.rosterStep_eq (a : NodeAct) (r : NodeRegistry F) (b : BadgeSystem) :
    a.rosterStep ctx now r.roster = ((a.step ctx now r b).1.1.roster,
      (a.step ctx now r b).2.filter PoppedOp.onRoster) := by
  cases a with
  | register reg => exact NodeAct.rosterStep_register reg r b
  | deregister dereg =>
    dsimp only [NodeAct.rosterStep, NodeAct.step]
    rw [NodeRegistry.roster_nodes]
    unfold NodeRegistry.deregisterNodeOnchain
    cases hn : r.nodes[dereg.nodeId]? with
    | none => rfl
    | some e =>
      show (if e.walletPubkey = dereg.walletPubkey then _ else _) = _
      dsimp only
      split_ifs with hw
      · have hleave := NodeRegistry.roster_unregisterNode (r := r) (n := dereg.nodeId)
        unfold NodeRegistry.unregisterNode at hleave ⊢
        rw [hn] at hleave ⊢
        rw [← hleave]
        rfl
      · rfl
  | promote n stake =>
    dsimp only [NodeAct.step]
    split
    · rfl
    · split
      · rfl
      · refine Prod.ext (Eq.symm ?_) rfl
        exact NodeRegistry.roster_modify_of_eq fun _ => rfl
  | award a =>
    dsimp only [NodeAct.step]
    split
    · rfl
    · rfl
  | penalty pen =>
    dsimp only [NodeAct.rosterStep, NodeAct.step]
    refine Prod.ext (Eq.symm ?_) rfl
    cases PenOpType.ofUInt8 pen.opType with
    | ban | unban => exact NodeRegistry.roster_updateNodeStatus _ _ _
    | penalty => exact roster_applyPenalty _ _ _ _ _
  | uptime upt =>
    refine Prod.ext (Eq.symm ?_) rfl
    have hsync : ((NodeRegistry.updateNodeSync _ upt.nodeId upt.syncHeight upt.isSynced now).getD
        ((r.recordUptimeEvent upt.nodeId true upt.timestamp upt.peerCount).getD r)).roster = _ :=
      NodeRegistry.roster_modify_of_eq fun _ => rfl
    refine hsync.trans ?_
    exact NodeRegistry.roster_modify fun _ => rfl
  | challenge ch => exact Prod.ext (roster_recordChallenge r ch now).symm rfl

/-- **The roster is a part of the manager.** -/
theorem rosterPart (D : Type) [FloatArith D] (ctx : BlockCtx) (now : UInt64) :
    Part D ctx now (fun s : Manager F => s.registry.roster) (rosterMachine F ctx) Action.onNode
      PoppedOp.onRoster Roster.undo where
  step := by
    rintro s ⟨a, time⟩
    cases a with
    | node a =>
      show ((a.rosterStep ctx time s.registry.roster).1,
        (a.rosterStep ctx time s.registry.roster).2 ++ []) = _
      rw [List.append_nil]
      refine (a.rosterStep_eq s.registry s.badges).trans (Prod.ext ?_ rfl)
      show _ = (Manager.logAll _ _ _).registry.roster
      rw [Manager.logAll_toRewardState]
    | circle a =>
      refine Prod.ext ?_ ?_
      · show s.registry.roster = (Manager.logAll _ _ _).registry.roster
        rw [Manager.logAll_toRewardState]
      · refine (List.filter_eq_nil_iff.2 fun op hop => ?_).symm
        have hcircles := List.filter_eq_self.1 (a.step_onCircles s.circles) op hop
        cases op <;> first | exact Bool.false_ne_true | cases hcircles
    | chainProof | store | poolDistribution => rfl
  undo := by
    intro s op
    cases op with
    | register n => exact NodeRegistry.roster_unregisterNode
    | penalty n => exact NodeRegistry.roster_updateNodeStatus _ _ _
    | validatorPromotion n => exact NodeRegistry.roster_modify_of_eq fun _ => rfl
    | circleLeave cid pk admin | circleChangeAdmin cid pk admin => cases admin <;> rfl
    | circleDisband cid pk entry => cases entry <;> rfl
    | _ => rfl
  idle := by
    intro G op hop
    cases op <;> first | rfl | cases hop
  blind := fun _ _ => rfl

/-! ### Actions that leave no trace in the roster -/

/-- A penalty that changes nothing of an active node but, for a while, its status. -/
def RosterEntry.Unhurt (offense : OffenseType) (x : RosterEntry F) : Prop :=
  x.status = .active ∧ shiftReputation offense.delta x.reputation = x.reputation

/-- **The log brings the roster back** after the action.

* A registration is undone by removing the node, which must not have been in the list of the
  wallet; one that is refused may penalize a node.
* A penalty is undone by making the node active, whatever it was before; the reputation is not
  given back.
* A deregistration, uptime and the bonus of a challenge are not undone. -/
def NodeAct.Erased (ctx : BlockCtx) (G : Roster F) : NodeAct → Prop
  | register reg =>
    if G.Accepts reg ctx.hfVersion then reg.nodeId ∉ G.wallets reg.walletAddress
    else G.isWalletPubkeyRegistered reg.walletPubkey = true →
      ∀ y ∈ G.getNodeByPubkey reg.walletPubkey, ∀ x ∈ G.nodes[y.identity.nodeId]?,
        x.Unhurt .doubleRegistration
  | deregister dereg =>
    ∀ x ∈ G.nodes[dereg.nodeId]?, x.identity.walletPubkey ≠ dereg.walletPubkey
  | penalty pen =>
    match PenOpType.ofUInt8 pen.opType with
    | .ban | .unban => ∀ x ∈ G.nodes[pen.nodeId]?, x.status = .active
    | .penalty => ∀ x ∈ G.nodes[pen.nodeId]?, x.Unhurt (OffenseType.ofName pen.offenseType)
  | uptime upt => ∀ x ∈ G.nodes[upt.nodeId]?, x.status = .active ∧ x.lastSeen = upt.timestamp
  | challenge ch => ch.success = true →
      (∀ x ∈ G.nodes[ch.challengerNodeId]?,
          shiftReputation (2 / 100) x.reputation = x.reputation) ∧
        ∀ x ∈ G.nodes[ch.challengedNodeId]?, shiftReputation (2 / 100) x.reputation = x.reputation
  | promote _ _ | award _ => True

instance [DecidableEq F] (offense : OffenseType) (x : RosterEntry F) :
    Decidable (x.Unhurt offense) :=
  inferInstanceAs (Decidable (_ ∧ _))

instance [DecidableEq F] (ctx : BlockCtx) (G : Roster F) : ∀ a : NodeAct, Decidable (a.Erased ctx G)
  | .register _ | .deregister _ | .uptime _ | .challenge _ => by
    unfold NodeAct.Erased
    infer_instance
  | .penalty pen => by
    unfold NodeAct.Erased
    dsimp only
    exact match PenOpType.ofUInt8 pen.opType with
      | .ban | .unban | .penalty => inferInstance
  | .promote _ _ | .award _ => .isTrue trivial

/-- A penalty that hurts nothing is undone. -/
theorem RosterEntry.Unhurt.undone {offense : OffenseType} {x : RosterEntry F}
    (h : x.Unhurt offense) : { x.penalized offense with status := .active } = x := by
  obtain ⟨identity, status, reputation, lastSeen⟩ := x
  obtain ⟨rfl, hreputation⟩ := h
  exact congrArg (fun q => RosterEntry.mk identity _ q lastSeen) hreputation

/-- A penalty and its undoing. -/
theorem Roster.undo_penalized {G : Roster F} {n : Hash} {offense : OffenseType}
    (h : ∀ x ∈ G.nodes[n]?, x.Unhurt offense) :
    (G.change n (RosterEntry.penalized offense)).undo (.penalty n) = G := by
  show (G.change n _).change n _ = G
  rw [Roster.change_change]
  exact Roster.change_of_fixed fun x hx => (h x hx).undone

omit [FloatArith F] in
/-- A status and its undoing. -/
theorem Roster.undo_status {G : Roster F} {n : Hash} {st : NodeStatus}
    (h : ∀ x ∈ G.nodes[n]?, x.status = .active) :
    (G.change n fun x => { x with status := st }).undo (.penalty n) = G := by
  show (G.change n _).change n _ = G
  rw [Roster.change_change]
  refine Roster.change_of_fixed fun x hx => ?_
  obtain ⟨identity, status, reputation, lastSeen⟩ := x
  exact congrArg (fun q => RosterEntry.mk identity q reputation lastSeen) (h _ hx).symm

/-- **An action and its undoing.** -/
theorem NodeAct.Erased.undone {G : Roster F} {a : NodeAct} (h : a.Erased ctx G) :
    undoAll Roster.undo (a.rosterStep ctx now G).2 (a.rosterStep ctx now G).1 = G := by
  cases a with
  | register reg =>
    dsimp only [NodeAct.Erased] at h
    dsimp only [NodeAct.rosterStep]
    by_cases hacc : G.Accepts reg ctx.hfVersion
    · rw [if_pos hacc] at h
      rw [if_pos hacc]
      exact Roster.leave_enter (Option.isNone_iff_eq_none.1 hacc.2.2) h
    · rw [if_neg hacc] at h
      rw [if_neg hacc]
      split
      · rename_i hw
        cases hex : G.getNodeByPubkey reg.walletPubkey with
        | none => rfl
        | some y => exact Roster.undo_penalized (h hw y hex)
      · rfl
  | deregister dereg =>
    dsimp only [NodeAct.rosterStep]
    cases hn : G.nodes[dereg.nodeId]? with
    | none => rfl
    | some x =>
      dsimp only
      rw [if_neg (h x hn)]
      rfl
  | penalty pen =>
    dsimp only [NodeAct.Erased] at h
    dsimp only [NodeAct.rosterStep]
    cases hop : PenOpType.ofUInt8 pen.opType with
    | ban | unban =>
      rw [hop] at h
      exact Roster.undo_status h
    | penalty =>
      rw [hop] at h
      exact Roster.undo_penalized h
  | uptime upt =>
    refine Roster.change_of_fixed fun x hx => ?_
    obtain ⟨identity, status, reputation, lastSeen⟩ := x
    obtain ⟨hstatus, hseen⟩ := h _ hx
    exact congrArg₂ (fun q t => RosterEntry.mk identity q reputation t) hstatus.symm hseen.symm
  | challenge ch =>
    show G.challenged ch = G
    unfold Roster.challenged
    split
    · rename_i hsuccess
      have hfixed (n : Hash) (h : ∀ x ∈ G.nodes[n]?,
          shiftReputation (2 / 100) x.reputation = x.reputation) :
          G.change n RosterEntry.rewarded = G := by
        refine Roster.change_of_fixed fun x hx => ?_
        obtain ⟨identity, status, reputation, lastSeen⟩ := x
        exact congrArg (fun q => RosterEntry.mk identity status q lastSeen) (h _ hx)
      rw [hfixed _ (h hsuccess).1, hfixed _ (h hsuccess).2]
    · rfl
  | promote | award => rfl

end

end Mevacoin.Trust
