import Mevacoin.Lib.TwoRuns
import Mevacoin.Trust.Manager

/-!
# State without its times

`timeless` sets the times in the entries of nodes and circles to zero.  No function of the two
registries looks at them but the expiry sweep, the escalation and the creation of a circle.
-/

namespace Mevacoin.Trust

open Lib Std

section

variable {F : Type}

/-- An entry without the times of the local clock, and the uptime computed from them. -/
def NodeRegistryEntry.timeless (e : NodeRegistryEntry F) : NodeRegistryEntry F :=
  { e with
    registeredTimestamp := 0
    lastSeenTimestamp := 0
    createdAt := 0
    updatedAt := 0
    totalUptimeSeconds := 0 }

/-- A registry without the times in its entries. -/
def NodeRegistry.timeless (r : NodeRegistry F) : NodeRegistry F :=
  { r with nodes := r.nodes.map fun _ => NodeRegistryEntry.timeless }

/-- What entries that agree up to times have in common. -/
theorem NodeRegistryEntry.timeless_eq {e e' : NodeRegistryEntry F} (h : e.timeless = e'.timeless) :
    e.nodeId = e'.nodeId ∧ e.status = e'.status ∧ e.isValidator = e'.isValidator ∧
      e.walletAddress = e'.walletAddress ∧ e.walletPubkey = e'.walletPubkey ∧
      e.ipAddress = e'.ipAddress ∧ e.reputationScore = e'.reputationScore := by
  simp only [NodeRegistryEntry.timeless, NodeRegistryEntry.mk.injEq] at h
  simp [h]

/-! ### Queries of the node registry -/

namespace NodeRegistry

variable (r : NodeRegistry F)

/-- An entry without its times. -/
theorem timeless_nodes (n : Hash) :
    r.timeless.nodes[n]? = (r.nodes[n]?).map NodeRegistryEntry.timeless :=
  ExtTreeMap.getElem?_map

/-- A node found by its id, without times. -/
theorem timeless_getNodeById (n : Hash) :
    r.timeless.getNodeById n = (r.getNodeById n).map NodeRegistryEntry.timeless :=
  r.timeless_nodes n

/-- All entries, without times. -/
theorem timeless_toList :
    r.timeless.nodes.toList = r.nodes.toList.map fun kv => (kv.1, kv.2.timeless) :=
  ExtTreeMap.toList_map

/-- The same ids are registered. -/
theorem timeless_contains (n : Hash) : r.timeless.nodes.contains n = r.nodes.contains n :=
  ExtTreeMap.contains_map

/-- All nodes, without times. -/
theorem timeless_getAllNodes :
    r.timeless.getAllNodes = r.getAllNodes.map NodeRegistryEntry.timeless := by
  unfold getAllNodes
  rw [timeless_toList, List.map_map, List.map_map]
  rfl

/-- A status does not depend on times. -/
theorem timeless_getNodesByStatus (s : NodeStatus) :
    r.timeless.getNodesByStatus s =
      (r.getNodesByStatus s).map NodeRegistryEntry.timeless := by
  unfold getNodesByStatus
  rw [timeless_getAllNodes, List.filter_map]
  rfl

/-- Eligibility does not depend on times. -/
theorem timeless_getEligibleNodes :
    r.timeless.getEligibleNodes = r.getEligibleNodes.map NodeRegistryEntry.timeless := by
  unfold getEligibleNodes
  rw [timeless_getAllNodes, List.filter_map]
  rfl

/-- Live nodes are counted without times. -/
theorem timeless_liveOfWallet (wallet : Bytes) :
    r.timeless.liveOfWallet wallet = r.liveOfWallet wallet := by
  unfold liveOfWallet
  simp only [timeless_nodes]
  rw [← List.map_filterMap, List.countP_map]
  rfl

/-- Keys in use are found without times. -/
theorem timeless_nodePubkeyLive (pk : PublicKey) :
    r.timeless.nodePubkeyLive pk = r.nodePubkeyLive pk := by
  unfold nodePubkeyLive
  rw [timeless_toList, List.any_map]
  rfl

/-- Wallet keys are found without times. -/
theorem timeless_isWalletPubkeyRegistered (pk : PublicKey) :
    r.timeless.isWalletPubkeyRegistered pk = r.isWalletPubkeyRegistered pk := by
  unfold isWalletPubkeyRegistered
  rw [timeless_toList, List.any_map]
  rfl

/-- Nodes are found by key without times. -/
theorem timeless_getNodeByPubkey (pk : PublicKey) :
    r.timeless.getNodeByPubkey pk =
      (r.getNodeByPubkey pk).map NodeRegistryEntry.timeless := by
  unfold getNodeByPubkey
  rw [timeless_toList, List.find?_map, Option.map_map, Option.map_map]
  rfl

/-- Bindings are checked without times. -/
theorem timeless_bound (n : Hash) (pk : PublicKey) : r.timeless.bound n pk = r.bound n pk := by
  unfold bound
  rw [timeless_getNodeById, Option.any_map]
  rfl

/-! ### Operations on the node registry -/

variable {r} {r' : NodeRegistry F}

/-- A node is in neither of two registries that agree up to times, or in both with entries
that do. -/
theorem getNodeById_cases (h : r.timeless = r'.timeless) (n : Hash) :
    r.getNodeById n = none ∧ r'.getNodeById n = none ∨
      ∃ e e', r.getNodeById n = some e ∧ r'.getNodeById n = some e' ∧
        e.timeless = e'.timeless :=
  option_map_eq_cases (by rw [← timeless_getNodeById, h, timeless_getNodeById])

/-- The same node is found by its key. -/
theorem getNodeByPubkey_congr (h : r.timeless = r'.timeless) (pk : PublicKey) :
    (r.getNodeByPubkey pk).map NodeRegistryEntry.timeless =
      (r'.getNodeByPubkey pk).map NodeRegistryEntry.timeless := by
  rw [← timeless_getNodeByPubkey, h, timeless_getNodeByPubkey]

/-- Registries that agree up to times, with new entries that do. -/
theorem timeless_insert (h : r.timeless = r'.timeless) (n : Hash) {e e' : NodeRegistryEntry F}
    (he : e.timeless = e'.timeless) :
    ({ r with nodes := r.nodes.insert n e } : NodeRegistry F).timeless =
      ({ r' with nodes := r'.nodes.insert n e' } : NodeRegistry F).timeless := by
  have hins (r : NodeRegistry F) (e : NodeRegistryEntry F) :
      ({ r with nodes := r.nodes.insert n e } : NodeRegistry F).timeless =
        { r.timeless with nodes := r.timeless.nodes.insert n e.timeless } := by
    unfold timeless
    rw [map_insert_eq]
  rw [hins, hins, h, he]

/-- **One update of one entry.**  Only the rest of the entry may decide what it does to the rest. -/
theorem timeless_modify (h : r.timeless = r'.timeless) (n : Hash)
    {f g : NodeRegistryEntry F → NodeRegistryEntry F}
    (hf : ∀ e, (f e).timeless = (f e.timeless).timeless)
    (hg : ∀ e, (g e).timeless = (f e.timeless).timeless) :
    ((r.modify n f).getD r).timeless = ((r'.modify n g).getD r').timeless := by
  unfold modify
  rcases getNodeById_cases h n with ⟨he, he'⟩ | ⟨e, e', he, he', hee⟩
  · unfold getNodeById at he he'
    rw [he, he']
    exact h
  · unfold getNodeById at he he'
    rw [he, he']
    exact timeless_insert h n ((hf e).trans (by rw [hee, hg e']))

variable (n : Hash) (now now' : UInt64)

/-- The last time a node was seen decides only the uptime that is added. -/
theorem timeless_recordUptimeEvent (h : r.timeless = r'.timeless) (online : Bool) (ts : UInt64)
    (peers : UInt32) :
    ((r.recordUptimeEvent n online ts peers).getD r).timeless =
      ((r'.recordUptimeEvent n online ts peers).getD r').timeless :=
  timeless_modify h n (fun _ => by cases online <;> rfl) (fun _ => by cases online <;> rfl)

/-- Registration, up to times. -/
theorem timeless_registerNodeOnchain [FloatArith F] (h : r.timeless = r'.timeless)
    (reg : Registration) (height : UInt64) (hf : UInt8) :
    (r.registerNodeOnchain reg height hf now).map timeless =
      (r'.registerNodeOnchain reg height hf now').map timeless := by
  have hwallets : r.walletToNodes = r'.walletToNodes := congrArg (·.walletToNodes) h
  unfold registerNodeOnchain
  rw [← timeless_liveOfWallet r, ← timeless_nodePubkeyLive r, ← timeless_contains r, h,
    timeless_liveOfWallet, timeless_nodePubkeyLive, timeless_contains, hwallets]
  split_ifs
  · rfl
  · rfl
  · rfl
  · have hentry : (onchainEntry reg height now : NodeRegistryEntry F).timeless =
        (onchainEntry reg height now').timeless := rfl
    have hins := timeless_insert h reg.nodeId hentry
    refine congrArg some ?_
    exact congrArg (fun q : NodeRegistry F => { q with
      walletToNodes := r'.walletToNodes.insert reg.walletAddress
        (r'.walletToNodes.getD reg.walletAddress [] ++ [reg.nodeId]) }) hins

/-- Removal, without times. -/
theorem timeless_unregisterNode :
    (r.unregisterNode n).map timeless = r.timeless.unregisterNode n := by
  unfold unregisterNode
  rw [timeless_nodes, Option.map_map, Option.map_map]
  refine congrArg (fun g => Option.map g r.nodes[n]?) (funext fun e => ?_)
  simp only [Function.comp_apply, timeless, map_erase_eq]
  rfl

/-- Deregistration, without times. -/
theorem timeless_deregisterNodeOnchain (d : Deregister) :
    (r.deregisterNodeOnchain d).map timeless = r.timeless.deregisterNodeOnchain d := by
  unfold deregisterNodeOnchain
  rw [timeless_nodes]
  cases r.nodes[d.nodeId]? with
  | none => rfl
  | some e =>
    show Option.map timeless (if e.walletPubkey = d.walletPubkey then _ else none) =
      if e.walletPubkey = d.walletPubkey then _ else none
    rw [← timeless_unregisterNode]
    split_ifs <;> rfl

/-- Deregistration, up to times. -/
theorem deregisterNodeOnchain_congr (h : r.timeless = r'.timeless) (d : Deregister) :
    (r.deregisterNodeOnchain d).map timeless = (r'.deregisterNodeOnchain d).map timeless := by
  rw [timeless_deregisterNodeOnchain, h, timeless_deregisterNodeOnchain]

/-- `apply_penalty` decides by the reputation alone. -/
theorem timeless_applyPenalty [FloatArith F] (h : r.timeless = r'.timeless) (b b' : BadgeSystem)
    (offense : OffenseType) :
    (applyPenalty r b n offense now).1.timeless =
      (applyPenalty r' b' n offense now').1.timeless := by
  rw [applyPenalty_registry, applyPenalty_registry]
  refine timeless_modify h n (fun e => ?_) fun e => ?_
  all_goals
    rw [NodeRegistryEntry.penalized_eq, NodeRegistryEntry.penalized_eq]
    rfl

/-! ### The comparisons with the clock -/

/-- In two registries a condition on the entry of a node has the same outcome. -/
def AgreeOn (r r' : NodeRegistry F) (p q : NodeRegistryEntry F → Bool) : Prop :=
  ∀ e ∈ r.getAllNodes, ∀ e' ∈ r'.getAllNodes, e.nodeId = e'.nodeId → p e = q e'
deriving Decidable

/-- A registered node is among all nodes. -/
theorem mem_getAllNodes {k : Hash} {e : NodeRegistryEntry F} (h : r.nodes[k]? = some e) :
    e ∈ r.getAllNodes :=
  List.mem_map.2 ⟨(k, e), ExtTreeMap.mem_toList_iff_getElem?_eq_some.2 h, rfl⟩

/-- The sweep, when it finds the same nodes expired. -/
theorem timeless_expireInactiveNodes (h : r.timeless = r'.timeless) (blocks : UInt64)
    (hagree : r.AgreeOn r' (expires · now blocks)
      (expires · now' blocks)) :
    (r.expireInactiveNodes blocks now).timeless =
      (r'.expireInactiveNodes blocks now').timeless := by
  have hnodes : ((r.expireInactiveNodes blocks now).nodes.map fun _ =>
        NodeRegistryEntry.timeless) =
      (r'.expireInactiveNodes blocks now').nodes.map fun _ => NodeRegistryEntry.timeless := by
    refine ExtTreeMap.ext_getElem? fun k => ?_
    unfold expireInactiveNodes
    simp only [ExtTreeMap.getElem?_map]
    rcases getNodeById_cases h k with ⟨he, he'⟩ | ⟨e, e', he, he', hee⟩
    · unfold getNodeById at he he'
      rw [he, he']
      rfl
    · unfold getNodeById at he he'
      have hexp : expires e now blocks =
          expires e' now' blocks :=
        hagree e (mem_getAllNodes he) e' (mem_getAllNodes he')
          (NodeRegistryEntry.timeless_eq hee).1
      simp only [he, he', Option.map_some, hexp]
      split_ifs
      · exact congrArg (fun q : NodeRegistryEntry F => some { q with status := .offline }) hee
      · exact congrArg some hee
  have hwallets : r.walletToNodes = r'.walletToNodes := congrArg (·.walletToNodes) h
  have hips : r.ipToNode = r'.ipToNode := congrArg (·.ipToNode) h
  unfold timeless
  rw [hnodes]
  exact congrArg₂ (NodeRegistry.mk _) hwallets hips

end NodeRegistry

end

/-! ### Scores and payouts -/

section

variable {F : Type} [FloatArith F] (eng : Engine) (r : NodeRegistry F)

/-- The sync score reads no times. -/
theorem timeless_calculateSyncScore (n : Hash) :
    Engine.calculateSyncScore r.timeless n = Engine.calculateSyncScore r n := by
  unfold Engine.calculateSyncScore
  rw [NodeRegistry.timeless_getNodeById]
  cases r.getNodeById n <;> rfl

/-- The score reads no times. -/
theorem timeless_calculateNodeScore (n : Hash) :
    eng.calculateNodeScore r.timeless n = eng.calculateNodeScore r n := by
  unfold Engine.calculateNodeScore
  rw [timeless_calculateSyncScore, NodeRegistry.timeless_getNodeById]
  cases r.getNodeById n <;> rfl

/-- No score reads times. -/
theorem timeless_calculateAllScores :
    eng.calculateAllScores r.timeless = eng.calculateAllScores r := by
  unfold Engine.calculateAllScores
  simp only [timeless_calculateNodeScore]
  rw [NodeRegistry.timeless_getEligibleNodes, List.foldl_map]
  rfl

/-- The distribution reads no times. -/
theorem timeless_distributeRewards (D : Type) [FloatArith D] [FloatWiden F D] (d : Distributor) :
    d.distributeRewards D eng r.timeless = d.distributeRewards D eng r := by
  unfold Distributor.distributeRewards
  rw [timeless_calculateAllScores]

omit [FloatArith F] in
/-- Addresses are looked up without times. -/
theorem timeless_withRegistryAddress : withRegistryAddress r.timeless = withRegistryAddress r := by
  funext pco
  unfold withRegistryAddress
  rw [NodeRegistry.timeless_getNodeById]
  cases r.getNodeById pco.nodeId <;> rfl

/-- The state the payouts are computed from, without the times. -/
def RewardState.timeless (st : RewardState F) : RewardState F :=
  { st with registry := st.registry.timeless }

omit [FloatArith F] in
/-- The weights read no times. -/
theorem timeless_uptimeWeights (D : Type) [FloatArith D] (st : RewardState F) (height : UInt64)
    (hf : UInt8) : uptimeWeights D st.timeless height hf = uptimeWeights D st height hf := by
  unfold uptimeWeights RewardState.timeless
  rw [NodeRegistry.timeless_getEligibleNodes, List.filterMap_map]
  rfl

/-- **The payouts do not see the times.** -/
theorem timeless_computeExpectedPayouts (D : Type) [FloatArith D] [FloatWiden F D] (env : Env)
    (st : RewardState F) (height reward : UInt64) (hf : UInt8) :
    computeExpectedPayouts D env st.timeless height reward hf =
      computeExpectedPayouts D env st height reward hf := by
  unfold computeExpectedPayouts computeUptimePayoutsV3 computeScorePayouts
  rw [timeless_uptimeWeights]
  unfold RewardState.timeless
  simp only [timeless_calculateAllScores, timeless_withRegistryAddress]

end

/-! ### Circles -/

/-- A circle without its times. -/
def CircleEntry.timeless (e : CircleEntry) : CircleEntry :=
  { e with createdTimestamp := 0, updatedAt := 0 }

/-- The circle registry without the times in its entries. -/
def CircleRegistry.timeless (c : CircleRegistry) : CircleRegistry :=
  { c with circles := c.circles.map fun _ => CircleEntry.timeless }

/-- What circles that agree up to times have in common. -/
theorem CircleEntry.timeless_eq {e e' : CircleEntry} (h : e.timeless = e'.timeless) :
    e.name = e'.name ∧ e.adminPubkey = e'.adminPubkey ∧ e.members = e'.members := by
  simp only [CircleEntry.timeless, CircleEntry.mk.injEq] at h
  simp [h]

/-- Changes of the administrator and the members keep entries equal up to times. -/
theorem CircleEntry.timeless_update {e e' : CircleEntry} (h : e.timeless = e'.timeless)
    (admin : PublicKey) (ms : List PublicKey) (now now' : UInt64) :
    ({ e with adminPubkey := admin, members := ms, updatedAt := now } : CircleEntry).timeless =
      ({ e' with adminPubkey := admin, members := ms, updatedAt := now' } : CircleEntry).timeless :=
  congrArg (fun q : CircleEntry => { q with adminPubkey := admin, members := ms }) h

namespace CircleRegistry

variable (c : CircleRegistry)

/-- A circle without its times. -/
theorem timeless_circles (cid : Hash) :
    c.timeless.circles[cid]? = (c.circles[cid]?).map CircleEntry.timeless :=
  ExtTreeMap.getElem?_map

/-- All circles, without times. -/
theorem timeless_listCircles : c.timeless.listCircles = c.listCircles.map CircleEntry.timeless := by
  unfold listCircles timeless
  rw [ExtTreeMap.toList_map, List.map_map, List.map_map]
  rfl

variable {c} {c' : CircleRegistry}

/-- A circle is in neither of two registries that agree up to times, or in both with entries
that do. -/
theorem circles_cases (h : c.timeless = c'.timeless) (cid : Hash) :
    c.circles[cid]? = none ∧ c'.circles[cid]? = none ∨
      ∃ e e', c.circles[cid]? = some e ∧ c'.circles[cid]? = some e' ∧
        e.timeless = e'.timeless :=
  option_map_eq_cases (by rw [← timeless_circles, h, timeless_circles])

/-- Registries that agree up to times, with new entries that do. -/
theorem timeless_insert (h : c.timeless = c'.timeless) (cid : Hash) {e e' : CircleEntry}
    (he : e.timeless = e'.timeless) :
    ({ c with circles := c.circles.insert cid e } : CircleRegistry).timeless =
      ({ c' with circles := c'.circles.insert cid e' } : CircleRegistry).timeless := by
  have hins (c : CircleRegistry) (e : CircleEntry) :
      ({ c with circles := c.circles.insert cid e } : CircleRegistry).timeless =
        { c.timeless with circles := c.timeless.circles.insert cid e.timeless } := by
    unfold timeless
    rw [map_insert_eq]
  rw [hins, hins, h, he]

/-- **One change of one circle.**  Only the rest of the entry may decide what it does to the
rest. -/
theorem timeless_modify (h : c.timeless = c'.timeless) (cid : Hash)
    {f g : CircleEntry → Option CircleEntry}
    (hf : ∀ e, (f e).map CircleEntry.timeless = (f e.timeless).map CircleEntry.timeless)
    (hg : ∀ e, (g e).map CircleEntry.timeless = (f e.timeless).map CircleEntry.timeless) :
    (c.modify cid f).map timeless = (c'.modify cid g).map timeless := by
  unfold modify
  rcases circles_cases h cid with ⟨he, he'⟩ | ⟨e, e', he, he', hee⟩
  · rw [he, he']
    rfl
  · rw [he, he']
    rcases option_map_eq_cases ((hf e).trans (hee ▸ (hg e').symm)) with
      ⟨hfe, hge⟩ | ⟨x, y, hfe, hge, hxy⟩
    · simp [hfe, hge]
    · simp only [Option.bind_eq_bind, Option.bind_some, hfe, hge]
      exact congrArg some (timeless_insert h cid hxy)

variable (cid : Hash) (member caller : PublicKey) (now now' : UInt64)

/-- `add_member`, up to times. -/
theorem timeless_addMember (h : c.timeless = c'.timeless) :
    (c.addMember cid member caller now).map timeless =
      (c'.addMember cid member caller now').map timeless := by
  refine timeless_modify h cid (fun e => ?_) fun e => ?_
  all_goals
    dsimp only [CircleEntry.timeless]
    split_ifs <;> rfl

/-- `remove_member`, up to times. -/
theorem timeless_removeMember (h : c.timeless = c'.timeless) :
    (c.removeMember cid member caller now).map timeless =
      (c'.removeMember cid member caller now').map timeless := by
  refine timeless_modify h cid (fun e => ?_) fun e => ?_
  all_goals
    dsimp only [CircleEntry.timeless]
    split_ifs <;> rfl

/-- `change_admin`, up to times. -/
theorem timeless_changeAdmin (h : c.timeless = c'.timeless) :
    (c.changeAdmin cid member caller now).map timeless =
      (c'.changeAdmin cid member caller now').map timeless := by
  refine timeless_modify h cid (fun e => ?_) fun e => ?_
  all_goals
    dsimp only [CircleEntry.timeless]
    split_ifs <;> rfl

/-- `disband_circle`, up to times. -/
theorem timeless_disbandCircle (h : c.timeless = c'.timeless) :
    (c.disbandCircle cid caller).map timeless = (c'.disbandCircle cid caller).map timeless := by
  have herase (c : CircleRegistry) (names : ExtTreeMap Bytes Hash) :
      ({ c with circles := c.circles.erase cid, nameToId := names } : CircleRegistry).timeless =
        { c.timeless with circles := c.timeless.circles.erase cid, nameToId := names } := by
    unfold timeless
    rw [map_erase_eq]
  have hnames : c.nameToId = c'.nameToId := congrArg (·.nameToId) h
  unfold disbandCircle
  rcases circles_cases h cid with ⟨he, he'⟩ | ⟨e, e', he, he', hee⟩
  · rw [he, he']
  · obtain ⟨hname, hadmin, -⟩ := CircleEntry.timeless_eq hee
    rw [he, he']
    dsimp only
    rw [hadmin, hname, hnames]
    split_ifs
    · rfl
    · rw [Option.map_some, Option.map_some, herase, herase, h]

/-- Two creations with one clock reading: the identity of a circle is a hash of it. -/
theorem timeless_createCircle (h : c.timeless = c'.timeless) (cr : Crypto) (name : Bytes)
    (height : UInt64) :
    (c.createCircle cr name caller height now).1.timeless =
      (c'.createCircle cr name caller height now).1.timeless := by
  have hnames : c.nameToId = c'.nameToId := congrArg (·.nameToId) h
  unfold createCircle
  rw [hnames]
  split_ifs
  · exact h
  · exact h
  · exact congrArg (fun q : CircleRegistry => { q with
      nameToId := c'.nameToId.insert name (computeCircleId cr name caller now) })
      (timeless_insert h _ rfl)

/-- `create_proposal`, up to times. -/
theorem timeless_createProposal (h : c.timeless = c'.timeless) (cr : Crypto) (height : UInt64) :
    (c.createProposal cr cid caller member height).1.timeless =
      (c'.createProposal cr cid caller member height).1.timeless := by
  have hprops : c.proposals = c'.proposals := congrArg (·.proposals) h
  unfold createProposal
  rcases circles_cases h cid with ⟨he, he'⟩ | ⟨e, e', he, he', hee⟩
  · rw [he, he']
    exact h
  · obtain ⟨-, hadmin, hmembers⟩ := CircleEntry.timeless_eq hee
    rw [he, he']
    dsimp only
    rw [hadmin, hmembers, hprops]
    split_ifs
    · exact h
    · generalize c'.proposals.insert _ _ = ps
      exact congrArg (fun q : CircleRegistry => { q with proposals := ps }) h

/-- `cast_vote`, up to times. -/
theorem timeless_castVote (h : c.timeless = c'.timeless) (pid : Hash) (yes : Bool)
    (height : UInt64) :
    (c.castVote pid caller yes height).map timeless =
      (c'.castVote pid caller yes height).map timeless := by
  have hprops : c.proposals = c'.proposals := congrArg (·.proposals) h
  have hvotes : c.votes = c'.votes := congrArg (·.votes) h
  unfold castVote
  rw [hprops, hvotes]
  cases c'.proposals[pid]? with
  | none => rfl
  | some p =>
    simp only [Option.bind_eq_bind, Option.bind_some]
    split_ifs
    · rfl
    · rcases circles_cases h p.circleId with ⟨he, he'⟩ | ⟨e, e', he, he', hee⟩
      · rw [he, he']
        rfl
      · obtain ⟨-, -, hmembers⟩ := CircleEntry.timeless_eq hee
        rw [he, he', Option.bind_some, Option.bind_some, hmembers]
        split_ifs
        · rfl
        · generalize c'.votes.insert _ _ = vs
          exact congrArg (fun q : CircleRegistry =>
            some { q with proposals := c'.proposals, votes := vs }) h

/-- Writing a proposal back. -/
theorem timeless_setProposal (h : c.timeless = c'.timeless) (pid : Hash) (p : ProposalEntry) :
    (c.setProposal pid p).timeless = (c'.setProposal pid p).timeless := by
  have hprops : c.proposals = c'.proposals := congrArg (·.proposals) h
  unfold setProposal
  rw [hprops]
  exact congrArg (fun q : CircleRegistry => { q with proposals := c'.proposals.insert pid p }) h

/-- A decision, up to times. -/
theorem timeless_closeVote (D : Type) [FloatArith D] (h : c.timeless = c'.timeless) (pid : Hash)
    (p : ProposalEntry) {e e' : CircleEntry} (hee : e.timeless = e'.timeless) (height : UInt64) :
    (c.closeVote D pid p e height now).1.timeless =
      (c'.closeVote D pid p e' height now').1.timeless := by
  obtain ⟨-, -, hmembers⟩ := CircleEntry.timeless_eq hee
  have hcast : c.votesOn pid = c'.votesOn pid := by
    unfold votesOn
    rw [show c.votes = c'.votes from congrArg (·.votes) h]
  unfold closeVote
  rw [hcast, hmembers]
  dsimp only
  generalize quorumThreshold D _ _ = threshold
  split_ifs
  · exact timeless_setProposal h pid _
  · refine timeless_setProposal (timeless_insert h p.circleId ?_) pid _
    exact CircleEntry.timeless_update hee _ _ now now'
  · exact timeless_setProposal h pid _
  · exact timeless_setProposal h pid _
  · exact timeless_setProposal h pid _

/-- `finalize_vote`, up to times. -/
theorem timeless_finalizeVote (D : Type) [FloatArith D] (h : c.timeless = c'.timeless)
    (pid : Hash) (height : UInt64) :
    (c.finalizeVote D pid height now).1.timeless =
      (c'.finalizeVote D pid height now').1.timeless := by
  have hprops : c.proposals = c'.proposals := congrArg (·.proposals) h
  unfold finalizeVote
  rw [hprops]
  cases c'.proposals[pid]? with
  | none => exact h
  | some p =>
    dsimp only
    split_ifs
    · exact h
    · exact h
    · exact h
    · rcases circles_cases h p.circleId with ⟨he, he'⟩ | ⟨e, e', he, he', hee⟩
      · rw [he, he']
        exact h
      · rw [he, he']
        exact timeless_closeVote now now' D h pid p hee height

end CircleRegistry

end Mevacoin.Trust
