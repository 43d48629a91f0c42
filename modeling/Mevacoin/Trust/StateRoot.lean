import Mathlib.Data.Multiset.Basic
import Mevacoin.Lib.Records
import Mevacoin.Trust.CoinbaseSafety
import Mevacoin.Trust.Watched

/-!
# What the state root binds

`compute_mevatrust_state_root` hashes the nodes, the circles and the pool balance, without counts
and separators; the badges that its comment lists it never adds.
-/

namespace Mevacoin.Trust

open Lib Std

section

variable {F : Type} {s t : Manager F}

/-- Nodes and circles are kept under their own identities. -/
structure Manager.Keyed (s : Manager F) : Prop where
  nodes : KeyedBy s.registry.nodes NodeRegistryEntry.nodeId
  circles : KeyedBy s.circles.circles CircleEntry.circleId

/-! ### What is hashed -/

section Octets

variable [FloatArith F]

/-- `state_data` of `compute_mevatrust_state_root`. -/
def stateData (chain : ChainAccess) (s : Manager F) (upTo : UInt64) : Bytes :=
  (s.registry.getAllNodes.insertionSort fun a b =>
      (compare a.nodeId b.nodeId).isLE = true).flatMap NodeRegistryEntry.rootOctets ++
    (s.circles.listCircles.insertionSort fun a b =>
      (compare a.circleId b.circleId).isLE = true).flatMap CircleEntry.rootOctets ++
    leBytes 8 (computePoolBalanceFromChain chain upTo).toNat

/-- The root is the hash of the data. -/
theorem computeMevatrustStateRoot_eq (cr : Crypto) (chain : ChainAccess) (s : Manager F)
    (upTo : UInt64) :
    computeMevatrustStateRoot cr chain s upTo = cr.cnFastHash (stateData chain s upTo) :=
  rfl

/-- With every record under its identity there is nothing to sort. -/
theorem stateData_eq (hs : s.Keyed) (chain : ChainAccess) (upTo : UInt64) :
    stateData chain s upTo = s.registry.getAllNodes.flatMap NodeRegistryEntry.rootOctets ++
      s.circles.listCircles.flatMap CircleEntry.rootOctets ++
      leBytes 8 (computePoolBalanceFromChain chain upTo).toNat := by
  have hnodes := List.Pairwise.insertionSort_eq hs.nodes.pairwise
  have hcircles := List.Pairwise.insertionSort_eq hs.circles.pairwise
  exact congrArg₂ (fun ns cs => List.flatMap NodeRegistryEntry.rootOctets ns ++
    List.flatMap CircleEntry.rootOctets cs ++ _) hnodes hcircles

/-- The octet tells a status. -/
theorem NodeStatus.toUInt8_inj : Function.Injective NodeStatus.toUInt8 := by
  intro a b h
  cases a <;> cases b <;> first | rfl | exact absurd h (by decide)

/-- A node takes 37 octets. -/
theorem NodeRegistryEntry.length_rootOctets (hF : FloatArith.Stored F 4)
    (e : NodeRegistryEntry F) : e.rootOctets.length = 37 := by
  simp [rootOctets, e.nodeId.size_eq, hF.length_octets]

/-- The octets of a node tell its identity, status and reputation. -/
theorem NodeRegistryEntry.eq_of_rootOctets (hF : FloatArith.Stored F 4)
    (e e' : NodeRegistryEntry F) (h : e.rootOctets = e'.rootOctets) :
    (e.nodeId, e.status, e.reputationScore) = (e'.nodeId, e'.status, e'.reputationScore) := by
  obtain ⟨hleft, hrep⟩ := List.append_inj' h (by rw [hF.length_octets, hF.length_octets])
  obtain ⟨hid, hstatus⟩ := List.append_inj' hleft rfl
  rw [Pod32.ext hid, NodeStatus.toUInt8_inj (List.singleton_inj.1 hstatus), hF.octets_inj hrep]

end Octets

/-- The members of a circle in the order in which they are hashed. -/
def CircleEntry.sortedMembers (c : CircleEntry) : List PublicKey :=
  c.members.insertionSort fun a b => (compare a b).isLE = true

/-- Sorting keeps the members. -/
theorem CircleEntry.sortedMembers_perm (c : CircleEntry) : c.sortedMembers.Perm c.members :=
  List.perm_insertionSort _ _

/-- The octets of a circle. -/
theorem CircleEntry.rootOctets_eq (c : CircleEntry) :
    c.rootOctets = c.circleId.data ++ c.adminPubkey.data ++
      (c.sortedMembers.map Pod32.data).flatten := by
  rfl

/-- A key takes 32 octets. -/
theorem length_flatten_data (l : List Pod32) :
    (l.map Pod32.data).flatten.length = 32 * l.length := by
  rw [List.length_flatten, List.map_map]
  have hall : l.map (List.length ∘ Pod32.data) = l.map fun _ => 32 :=
    List.map_congr_left fun k _ => k.size_eq
  rw [hall, List.map_const', List.sum_replicate, smul_eq_mul, mul_comm]

/-- The octets tell a list of keys. -/
theorem flatten_map_data_inj {l l' : List Pod32}
    (h : (l.map Pod32.data).flatten = (l'.map Pod32.data).flatten) : l = l' := by
  refine List.map_injective_iff.2 (fun a b => Pod32.ext) (flatten_inj (n := 32) (by decide) ?_ ?_ h)
  · simp [Pod32.size_eq]
  · simp [Pod32.size_eq]

/-- The octets of a circle tell how many members it has. -/
theorem CircleEntry.length_rootOctets (c : CircleEntry) :
    c.rootOctets.length = 64 + 32 * c.members.length := by
  rw [rootOctets_eq, ← c.sortedMembers_perm.length_eq, List.length_append, List.length_append,
    c.circleId.size_eq, c.adminPubkey.size_eq, length_flatten_data]

/-- What a circle shows besides its identity: the administrator, and the members without their
order. -/
def CircleEntry.shown (c : CircleEntry) : PublicKey × Multiset PublicKey :=
  (c.adminPubkey, c.members)

/-- The octets of a circle tell its identity and what it shows. -/
theorem CircleEntry.eq_of_rootOctets (c c' : CircleEntry) (h : c.rootOctets = c'.rootOctets) :
    (c.circleId, c.shown) = (c'.circleId, c'.shown) := by
  rw [rootOctets_eq] at h
  obtain ⟨hleft, hmembers⟩ := List.append_inj h (by simp [Pod32.size_eq])
  obtain ⟨hid, hadmin⟩ := List.append_inj hleft (by simp [Pod32.size_eq])
  have hperm : c.members.Perm c'.members :=
    c.sortedMembers_perm.symm.trans (flatten_map_data_inj hmembers ▸ c'.sortedMembers_perm)
  rw [shown, shown, Pod32.ext hid, Pod32.ext hadmin, Multiset.coe_eq_coe.2 hperm]

/-! ### What two states agree on -/

/-- The same nodes with the same status and reputation. -/
def SameNodes (s t : Manager F) : Prop :=
  ∀ n : Hash, (s.registry.getNodeById n).map (fun e => (e.status, e.reputationScore)) =
    (t.registry.getNodeById n).map fun e => (e.status, e.reputationScore)

/-- The same circles with the same administrators and members. -/
def SameCircles (s t : Manager F) : Prop :=
  ∀ cid : Hash, (s.circles.getCircle cid).map CircleEntry.shown =
    (t.circles.getCircle cid).map CircleEntry.shown

/-- The same active badges. -/
def SameBadges (s t : Manager F) : Prop :=
  ∀ (n : Hash) (b : BadgeType), s.badges.hasBadge n b = t.badges.hasBadge n b

/-- The same payouts at every height and for every reward from fork 17, once the two sample
stores are equal. -/
def SamePayouts (D : Type) [FloatArith F] [FloatArith D] [FloatWiden F D] (env : Env)
    (s t : Manager F) : Prop :=
  s.engine.chainUptimeSamples = t.engine.chainUptimeSamples →
    s.engine.chainProofSamples = t.engine.chainProofSamples →
    ∀ (height reward : UInt64) (hf : UInt8), 17 ≤ hf →
      computeExpectedPayouts D env s.toRewardState height reward hf =
        computeExpectedPayouts D env t.toRewardState height reward hf

/-- What one root is meant to stand for. -/
structure StatesAgree (D : Type) [FloatArith F] [FloatArith D] [FloatWiden F D] (env : Env)
    (s t : Manager F) : Prop where
  nodes : SameNodes s t
  circles : SameCircles s t
  badges : SameBadges s t
  payouts : SamePayouts D env s t

/-- As many nodes, and circles with as many members each. -/
structure SameShape (s t : Manager F) : Prop where
  nodes : s.registry.nodes.size = t.registry.nodes.size
  members : s.circles.listCircles.map (·.members.length) =
    t.circles.listCircles.map (·.members.length)

/-- The states agree on what the payouts read and the root does not cover: wallet addresses,
registration on chain, and the waiting bonuses. -/
structure SamePayoutData (s t : Manager F) : Prop where
  initialized : s.initialized = t.initialized
  welcome : s.distributor.welcome = t.distributor.welcome
  nodes : ∀ (n : Hash) e e', s.registry.getNodeById n = some e →
    t.registry.getNodeById n = some e' → e.status = .active → e'.status = .active →
    e.walletAddress = e'.walletAddress ∧ e.registeredOnchain = e'.registeredOnchain

/-! ### From the octets to the states -/

/-- All nodes are counted once. -/
theorem length_getAllNodes (s : Manager F) :
    s.registry.getAllNodes.length = s.registry.nodes.size := by
  rw [NodeRegistry.getAllNodes, List.length_map, ExtTreeMap.length_toList]

/-- The octets of the nodes tell how many there are. -/
theorem length_nodeOctets [FloatArith F] (hF : FloatArith.Stored F 4) (s : Manager F) :
    (s.registry.getAllNodes.flatMap NodeRegistryEntry.rootOctets).length =
      37 * s.registry.nodes.size := by
  rw [List.length_flatMap,
    List.map_congr_left fun e _ => NodeRegistryEntry.length_rootOctets hF e, List.map_const',
    List.sum_replicate, length_getAllNodes, smul_eq_mul, mul_comm]

/-- Equal octets and equally many nodes: the octets of the nodes are equal, and so are those of
the circles. -/
theorem stateData_split [FloatArith F] (hF : FloatArith.Stored F 4) (hs : s.Keyed) (ht : t.Keyed)
    {chain : ChainAccess} {upTo : UInt64} (hdata : stateData chain s upTo = stateData chain t upTo)
    (hsize : s.registry.nodes.size = t.registry.nodes.size) :
    s.registry.getAllNodes.flatMap NodeRegistryEntry.rootOctets =
        t.registry.getAllNodes.flatMap NodeRegistryEntry.rootOctets ∧
      s.circles.listCircles.flatMap CircleEntry.rootOctets =
        t.circles.listCircles.flatMap CircleEntry.rootOctets := by
  rw [stateData_eq hs, stateData_eq ht] at hdata
  obtain ⟨hleft, -⟩ := List.append_inj' hdata rfl
  exact List.append_inj hleft (by rw [length_nodeOctets hF, length_nodeOctets hF, hsize])

/-- The octets of the nodes tell the nodes. -/
theorem sameNodes_of_octets [FloatArith F] (hF : FloatArith.Stored F 4) (hs : s.Keyed)
    (ht : t.Keyed) (h : s.registry.getAllNodes.flatMap NodeRegistryEntry.rootOctets =
      t.registry.getAllNodes.flatMap NodeRegistryEntry.rootOctets) : SameNodes s t := by
  have hsizes : ∀ l : List (NodeRegistryEntry F),
      ∀ r ∈ l.map NodeRegistryEntry.rootOctets, r.length = 37 := by
    simp [NodeRegistryEntry.length_rootOctets hF]
  have hmap := flatten_inj (by decide) (hsizes _) (hsizes _) h
  exact (hs.nodes.lookups_eq_iff ht.nodes _).2
    (map_eq_of_map_eq (NodeRegistryEntry.eq_of_rootOctets hF) hmap)

/-- Circles of the same sizes are told by their octets. -/
theorem sameCircles_of_octets (hs : s.Keyed) (ht : t.Keyed)
    (h : s.circles.listCircles.flatMap CircleEntry.rootOctets =
      t.circles.listCircles.flatMap CircleEntry.rootOctets)
    (hmembers : s.circles.listCircles.map (·.members.length) =
      t.circles.listCircles.map (·.members.length)) : SameCircles s t := by
  have hsizes : ∀ l : List CircleEntry, (l.map CircleEntry.rootOctets).map List.length =
      (l.map (·.members.length)).map fun n => 64 + 32 * n := by
    intro l
    rw [List.map_map, List.map_map]
    exact List.map_congr_left fun c _ => c.length_rootOctets
  have hmap := List.eq_iff_flatten_eq.2 ⟨h, by rw [hsizes, hsizes, hmembers]⟩
  exact (hs.circles.lookups_eq_iff ht.circles _).2
    (map_eq_of_map_eq CircleEntry.eq_of_rootOctets hmap)

/-- States that agree have the same shape. -/
theorem sameShape_of_agree (hs : s.Keyed) (ht : t.Keyed) (hnodes : SameNodes s t)
    (hcircles : SameCircles s t) : SameShape s t where
  nodes := by
    have hlist := congrArg List.length ((hs.nodes.lookups_eq_iff ht.nodes _).1 hnodes)
    rw [List.length_map, List.length_map] at hlist
    rw [← length_getAllNodes, ← length_getAllNodes]
    exact hlist
  members := by
    have hlist := congrArg (List.map fun p => Multiset.card p.2.2)
      ((hs.circles.lookups_eq_iff ht.circles _).1 hcircles)
    rw [List.map_map, List.map_map] at hlist
    exact hlist

/-! ### The payouts -/

/-- The address to which a node can be paid: it is active and registered on chain. -/
def NodeRegistryEntry.payee (e : NodeRegistryEntry F) : Option Bytes :=
  if e.status = .active ∧ e.registeredOnchain = true then some e.walletAddress else none

/-- Who is paid, read off all nodes. -/
theorem getEligibleNodes_map (r : NodeRegistry F) :
    r.getEligibleNodes.map (fun e => (e.nodeId, e.walletAddress)) =
      (r.getAllNodes.map fun e => (e.nodeId, e.payee)).filterMap
        fun p => p.2.map fun a => (p.1, a) := by
  rw [NodeRegistry.getEligibleNodes, List.filterMap_map]
  induction r.getAllNodes with
  | nil => rfl
  | cons e l ih =>
    by_cases he : e.status = .active ∧ e.registeredOnchain = true
    · rw [List.filter_cons_of_pos (by simpa using he), List.map_cons, ih]
      simp [NodeRegistryEntry.payee, he]
    · rw [List.filter_cons_of_neg (by simpa using he), ih]
      simp [NodeRegistryEntry.payee, he]

/-- Who can be paid, and where, is the same. -/
theorem eligible_eq (hs : s.Keyed) (ht : t.Keyed) (hnodes : SameNodes s t)
    (hpay : SamePayoutData s t) :
    s.registry.getEligibleNodes.map (fun e => (e.nodeId, e.walletAddress)) =
      t.registry.getEligibleNodes.map fun e => (e.nodeId, e.walletAddress) := by
  have hpayee : ∀ n : Hash, (s.registry.nodes[n]?).map NodeRegistryEntry.payee =
      (t.registry.nodes[n]?).map NodeRegistryEntry.payee := by
    intro n
    have hn := hnodes n
    cases he : s.registry.getNodeById n with
    | none =>
      rw [he, Option.map_none, eq_comm, Option.map_eq_none_iff] at hn
      change Option.map _ (s.registry.getNodeById n) = Option.map _ (t.registry.getNodeById n)
      rw [he, hn]
    | some e =>
      rw [he, Option.map_some, eq_comm, Option.map_eq_some_iff] at hn
      obtain ⟨e', he', heq⟩ := hn
      have hstatus : e'.status = e.status := congrArg Prod.fst heq
      change Option.map _ (s.registry.getNodeById n) = Option.map _ (t.registry.getNodeById n)
      rw [he, he', Option.map_some, Option.map_some, NodeRegistryEntry.payee,
        NodeRegistryEntry.payee, hstatus]
      by_cases hactive : e.status = .active
      · obtain ⟨hwallet, hchain⟩ := hpay.nodes n e e' he he' hactive (hstatus.trans hactive)
        rw [hwallet, hchain]
      · simp [hactive]
  rw [getEligibleNodes_map, getEligibleNodes_map]
  exact congrArg _ ((hs.nodes.lookups_eq_iff ht.nodes _).1 hpayee)

variable (D : Type) [FloatArith D]

/-- The weights depend on the eligible nodes with their addresses and on the sample stores. -/
theorem uptimeWeights_congr {st st' : RewardState F}
    (heligible : st.registry.getEligibleNodes.map (fun e => (e.nodeId, e.walletAddress)) =
      st'.registry.getEligibleNodes.map fun e => (e.nodeId, e.walletAddress))
    (huptime : st.engine.chainUptimeSamples = st'.engine.chainUptimeSamples)
    (hproof : st.engine.chainProofSamples = st'.engine.chainProofSamples) (height : UInt64)
    (hf : UInt8) : uptimeWeights D st height hf = uptimeWeights D st' height hf := by
  let weigh (eng : Engine) (p : Hash × Bytes) : Option (Hash × Bytes × D) :=
    let standing := eng.computeUptimeStanding D p.1 height
    if !standing.eligible || FloatArith.le standing.weight (FloatArith.ofRat 0) then none
    else if hfVersionMevatrustAntisybil ≤ hf ∧ eng.hasRecentChainProof p.1 height = false then none
    else some (p.1, p.2, standing.weight)
  have hform : ∀ st : RewardState F, uptimeWeights D st height hf =
      (st.registry.getEligibleNodes.map fun e => (e.nodeId, e.walletAddress)).filterMap
        (weigh st.engine) := by
    intro st
    rw [List.filterMap_map]
    rfl
  have hweigh : weigh st.engine = weigh st'.engine := by
    simp only [weigh, Engine.computeUptimeStanding, Engine.hasRecentChainProof, huptime, hproof]
  rw [hform, hform, heligible, hweigh]

variable [FloatArith F] [FloatWiden F D]

/-- The same nodes and payout data give the same payouts. -/
theorem samePayouts (env : Env) (hs : s.Keyed) (ht : t.Keyed) (hnodes : SameNodes s t)
    (hpay : SamePayoutData s t) : SamePayouts D env s t := by
  intro huptime hproof height reward hf h17
  have hv3 : hfVersionMevatrustUptimeV3 ≤ hf := h17
  have hweights := uptimeWeights_congr D (eligible_eq hs ht hnodes hpay) huptime hproof height hf
  unfold computeExpectedPayouts
  simp only [if_pos hv3, computeUptimePayoutsV3, Distributor.peekWelcomeBonuses, hweights,
    hpay.initialized, hpay.welcome]

/-- **What the root binds.**  Two states over one chain with one root and no collision, which agree
on what the payouts read besides, agree exactly when they have the same shape and the same
badges. -/
theorem stateRoot_binds_iff (hF : FloatArith.Stored F 4) (cr : Crypto) (env : Env)
    (chain : ChainAccess) (upTo : UInt64) (hs : s.Keyed) (ht : t.Keyed)
    (hfree : cr.cnFastHash (stateData chain s upTo) = cr.cnFastHash (stateData chain t upTo) →
      stateData chain s upTo = stateData chain t upTo)
    (hroot : computeMevatrustStateRoot cr chain s upTo = computeMevatrustStateRoot cr chain t upTo)
    (hpay : SamePayoutData s t) : StatesAgree D env s t ↔ SameShape s t ∧ SameBadges s t := by
  constructor
  · intro h
    exact ⟨sameShape_of_agree hs ht h.nodes h.circles, h.badges⟩
  · rintro ⟨hshape, hbadges⟩
    obtain ⟨hnodeOctets, hcircleOctets⟩ := stateData_split hF hs ht (hfree hroot) hshape.nodes
    have hnodes := sameNodes_of_octets hF hs ht hnodeOctets
    exact ⟨hnodes, sameCircles_of_octets hs ht hcircleOctets hshape.members, hbadges,
      samePayouts D env hs ht hnodes hpay⟩

end

/-! ### A wallet and a badge that the root does not see -/

/-- Fixed-point numbers in thousandths, four octets each. -/
structure Milli where
  count : UInt32
deriving DecidableEq

instance : FloatArith Milli where
  ofRat q := ⟨UInt32.ofNat (q * 1000).floor.toNat⟩
  ofNat n := ⟨UInt32.ofNat (n * 1000)⟩
  add a b := ⟨a.count + b.count⟩
  sub a b := ⟨a.count - b.count⟩
  mul a b := ⟨a.count * b.count / 1000⟩
  div a b := ⟨a.count * 1000 / b.count⟩
  lt a b := decide (a.count < b.count)
  le a b := decide (a.count ≤ b.count)
  trunc a := (a.count / 1000).toUInt64
  octets a := leBytes 4 a.count.toNat

instance : FloatWiden Milli ℚ where
  widen a := a.count.toNat / 1000

/-- Thousandths are stored in four octets. -/
theorem milli_stored : FloatArith.Stored Milli 4 where
  length_octets a := leBytes_length 4 a.count.toNat
  octets_inj := by
    rintro ⟨a⟩ ⟨b⟩ h
    have hnat : a.toNat = b.toNat := leBytes_inj (w := 4) a.toNat_lt b.toNat_lt h
    rw [UInt32.toNat_inj.1 hnat]

/-- An environment in which the first octet of an address is its key. -/
def firstOctetEnv : Env :=
  { sampleEnv with
    parseWalletAddress := fun a => some ⟨Pod32.single (a.headD 0), Pod32.single 12⟩ }

/-- The state after one node registered with this wallet and showed two days of uptime. -/
def walletState (wallet : Bytes) (now : UInt64) : Manager Milli :=
  let reg := { sampleRegistration 1 with walletAddress := wallet }
  { registry := (({} : NodeRegistry Milli).registerNodeOnchain reg 50 17 now).getD {}
    engine := withUptime {} 1 }

/-- The sample state keeps records under their ids. -/
theorem walletState_keyed (wallet : Bytes) (now : UInt64) : (walletState wallet now).Keyed where
  nodes := by
    change NodeRegistry.Keyed (Option.getD _ _)
    cases hr : ({} : NodeRegistry Milli).registerNodeOnchain
        { sampleRegistration 1 with walletAddress := wallet } 50 17 now with
    | none => exact NodeRegistry.keyed_empty
    | some r => exact NodeRegistry.keyed_empty.registerNodeOnchain hr
  circles := fun _ _ h => by simp [walletState] at h

/-- The same node with another wallet and a badge. -/
def otherWalletState : Manager Milli :=
  { walletState (asciiBytes "purse") 1000 with
    badges := ({} : BadgeSystem).awardBadge (Pod32.single 1) .welcome 50 [] 1000 }

/-- With the other wallet it does as well. -/
theorem otherWalletState_keyed : otherWalletState.Keyed :=
  have hkeyed := walletState_keyed (asciiBytes "purse") 1000
  ⟨hkeyed.nodes, hkeyed.circles⟩

/-- **Equal roots over different badges and payouts**: an active badge and a paid address differ. -/
theorem stateRoot_omits_badge_and_wallet :
    ∃ s t : Manager Milli, s.Keyed ∧ t.Keyed ∧ stateData {} s 15 = stateData {} t 15 ∧
      computeMevatrustStateRoot sevenCurve.crypto {} s 15 =
        computeMevatrustStateRoot sevenCurve.crypto {} t 15 ∧
      SameNodes s t ∧ SameCircles s t ∧ ¬ SameBadges s t ∧
      ¬ SamePayouts ℚ firstOctetEnv s t := by
  have hs := walletState_keyed (asciiBytes "wallet") 1000
  have hdata : stateData {} (walletState (asciiBytes "wallet") 1000) 15 =
      stateData {} otherWalletState 15 := by decide +kernel
  refine ⟨walletState (asciiBytes "wallet") 1000, otherWalletState, hs, otherWalletState_keyed,
    hdata, congrArg sevenCurve.crypto.cnFastHash hdata,
    (hs.nodes.lookups_eq_iff otherWalletState_keyed.nodes _).2 (by decide +kernel),
    fun _ => rfl, ?_, ?_⟩
  · intro h
    have hbadge := h (Pod32.single 1) .welcome
    revert hbadge
    decide +kernel
  · intro h
    have hpayout := h rfl rfl 43200 10000 17 (by decide)
    revert hpayout
    decide +kernel

/-- One registration, seen at two times. -/
def earlyState : Manager Milli := walletState (asciiBytes "wallet") 1000

@[inherit_doc earlyState]
def lateState : Manager Milli := walletState (asciiBytes "wallet") 2000

/-- The time of the registration is not hashed either, and nothing depends on it. -/
theorem laterRegistration_agrees :
    computeMevatrustStateRoot sevenCurve.crypto {} earlyState 15 =
        computeMevatrustStateRoot sevenCurve.crypto {} lateState 15 ∧
      earlyState.registry.getAllNodes ≠ lateState.registry.getAllNodes ∧
      StatesAgree ℚ firstOctetEnv earlyState lateState := by
  have hs : earlyState.Keyed := walletState_keyed _ _
  have ht : lateState.Keyed := walletState_keyed _ _
  have hdata : stateData {} earlyState 15 = stateData {} lateState 15 := by decide +kernel
  have hroot : computeMevatrustStateRoot sevenCurve.crypto {} earlyState 15 =
      computeMevatrustStateRoot sevenCurve.crypto {} lateState 15 :=
    congrArg sevenCurve.crypto.cnFastHash hdata
  have hwallets := (hs.nodes.lookups_eq_iff ht.nodes
    fun e => (e.walletAddress, e.registeredOnchain)).2 (by decide +kernel)
  have hpay : SamePayoutData earlyState lateState := by
    refine ⟨rfl, rfl, fun n e e' he he' _ _ => ?_⟩
    have hn := hwallets n
    rw [show earlyState.registry.nodes[n]? = some e from he,
      show lateState.registry.nodes[n]? = some e' from he'] at hn
    exact Prod.ext_iff.1 (Option.some.inj hn)
  refine ⟨hroot, by decide +kernel, ?_⟩
  exact (stateRoot_binds_iff ℚ milli_stored sevenCurve.crypto firstOctetEnv {} 15 hs ht
    (fun _ => hdata) hroot hpay).2 ⟨⟨by decide +kernel, by decide +kernel⟩, fun _ _ => rfl⟩

end Mevacoin.Trust
