import Mevacoin.Lib.Holders
import Mevacoin.Trust.NodeMoves
import Mevacoin.Trust.UptimeFreshness

/-!
# The anti-Sybil caps

`register_node_onchain` counts live nodes only, and a banned or offline node comes back to life
without another look.
-/

namespace Mevacoin.Trust

open Lib Std

section

variable {F : Type}

/-- The caps: at most `MAX_NODES_PER_WALLET` live nodes have one wallet address, and no two live
nodes have one node key. -/
structure SybilCaps (r : NodeRegistry F) : Prop where
  wallet : ∀ w, r.getAllNodes.countP (fun e => e.isLive && e.walletAddress = w) ≤ maxNodesPerWallet
  key : ∀ (k k' : Hash) (e e' : NodeRegistryEntry F), r.nodes[k]? = some e →
    r.nodes[k']? = some e' → e.isLive = true → e'.isLive = true →
    e.nodePubkey = e'.nodePubkey → k = k'

/-- The node may come to life: the checks of a registration, made for a node that is not live. -/
def NodeRegistry.RoomFor (r : NodeRegistry F) (n : Hash) : Prop :=
  ∀ e ∈ r.nodes[n]?, e.isLive = false →
    r.liveOfWallet e.walletAddress < maxNodesPerWallet ∧ r.nodePubkeyLive e.nodePubkey = false
deriving Decidable

/-- A node comes to life only where there is room for it. -/
def roomRules (F : Type) : Rules F where
  status r n st := st = .active ∨ st = .suspended → r.RoomFor n

instance (r : NodeRegistry F) (n : Hash) (st : NodeStatus) :
    Decidable ((roomRules F).status r n st) :=
  inferInstanceAs (Decidable (_ → r.RoomFor n))

instance (r : NodeRegistry F) (reg : Registration) : Decidable ((roomRules F).enter r reg) :=
  .isTrue trivial

instance (r : NodeRegistry F) (n : Hash) : Decidable ((roomRules F).leave r n) := .isTrue trivial

/-! ### The index by wallet -/

/-- Every node is in the list of its wallet. -/
def NodeRegistry.Indexed (r : NodeRegistry F) : Prop :=
  ∀ (k : Hash) (e : NodeRegistryEntry F), r.nodes[k]? = some e →
    k ∈ r.walletToNodes.getD e.walletAddress []

variable {r : NodeRegistry F} {e : NodeRegistryEntry F}
  {f : NodeRegistryEntry F → NodeRegistryEntry F}

/-- **The count that a registration makes misses no live node of the wallet.** -/
theorem NodeRegistry.Indexed.countP_le (h : r.Indexed) (w : Bytes) :
    r.getAllNodes.countP (fun e => e.isLive && e.walletAddress = w) ≤ r.liveOfWallet w := by
  have hcount : r.liveOfWallet w = ((r.walletToNodes.getD w []).filter fun k =>
      ((r.nodes[k]?).map NodeRegistryEntry.isLive).getD false).length := by
    unfold liveOfWallet
    rw [List.countP_filterMap, List.countP_eq_length_filter]
  rw [hcount]
  refine countP_values_le ?_
  intro k e he hlive
  simp only [Bool.and_eq_true, decide_eq_true_eq] at hlive
  rw [List.mem_filter, he, Option.map_some, ← hlive.2]
  exact ⟨h k e he, hlive.1⟩

/-- No live node has the key. -/
theorem NodeRegistry.nodePubkeyLive_eq_false {pk : PublicKey} (h : r.nodePubkeyLive pk = false)
    {k : Hash} (he : r.nodes[k]? = some e) (hlive : e.isLive = true) : e.nodePubkey ≠ pk := by
  rintro rfl
  unfold nodePubkeyLive at h
  rw [List.any_eq_false] at h
  have hmem := ExtTreeMap.mem_toList_iff_getElem?_eq_some.2 he
  exact h _ hmem (by simp [hlive])

/-! ### The caps under the moves -/

variable {r r' : NodeRegistry F}

/-- Nobody comes to life. -/
theorem SybilCaps.shrink (h : SybilCaps r)
    (hold : ∀ (k : Hash) (e' : NodeRegistryEntry F), r'.nodes[k]? = some e' → e'.isLive = true →
      ∃ e, r.nodes[k]? = some e ∧ e.isLive = true ∧ e.walletAddress = e'.walletAddress ∧
        e.nodePubkey = e'.nodePubkey) : SybilCaps r' where
  wallet w := by
    refine Nat.le_trans ?_ (h.wallet w)
    unfold NodeRegistry.getAllNodes
    rw [countP_values r.nodes]
    refine countP_values_le ?_
    intro k e' he' hlive
    simp only [Bool.and_eq_true] at hlive
    obtain ⟨e, he, hl, hw, -⟩ := hold k e' he' hlive.1
    exact mem_holders.2 ⟨e, he, by simp [hl, hw, hlive.2]⟩
  key k k' e₁ e₂ he₁ he₂ hl₁ hl₂ hkey := by
    obtain ⟨e, he, hl, -, hpk⟩ := hold k e₁ he₁ hl₁
    obtain ⟨e', he', hl', -, hpk'⟩ := hold k' e₂ he₂ hl₂
    exact h.key k k' e e' he he' hl hl' (hpk.trans (hkey.trans hpk'.symm))

/-- One node comes to life where there is room. -/
theorem SybilCaps.enter (h : SybilCaps r) (hindex : r.Indexed) {n : Hash}
    (hn : r'.nodes[n]? = some e) (hother : ∀ k, n ≠ k → r'.nodes[k]? = r.nodes[k]?)
    (hroom : r.liveOfWallet e.walletAddress < maxNodesPerWallet)
    (hkey : r.nodePubkeyLive e.nodePubkey = false) : SybilCaps r' where
  wallet w := by
    -- the live nodes of `w` are those of before, and perhaps `n`
    by_cases hw : e.walletAddress = w
    · have hle := hindex.countP_le w
      have hsucc : r'.getAllNodes.countP (fun e => e.isLive && e.walletAddress = w) ≤
          r.getAllNodes.countP (fun e => e.isLive && e.walletAddress = w) + 1 := by
        unfold NodeRegistry.getAllNodes
        rw [countP_values r.nodes]
        refine countP_values_le (l := n :: holders r.nodes _) ?_
        intro k e' he' hlive
        by_cases hk : n = k
        · exact hk ▸ List.mem_cons_self
        · rw [hother k hk] at he'
          exact List.mem_cons_of_mem _ (mem_holders.2 ⟨e', he', hlive⟩)
      rw [hw] at hroom
      omega
    · refine Nat.le_trans ?_ (h.wallet w)
      unfold NodeRegistry.getAllNodes
      rw [countP_values r.nodes]
      refine countP_values_le ?_
      intro k e' he' hlive
      by_cases hk : n = k
      · subst hk
        obtain rfl := Option.some_inj.1 (hn.symm.trans he')
        simp [hw] at hlive
      · rw [hother k hk] at he'
        exact mem_holders.2 ⟨e', he', hlive⟩
  key k k' e₁ e₂ he₁ he₂ hl₁ hl₂ hpk := by
    by_cases hk : n = k
    · by_cases hk' : n = k'
      · exact hk.symm.trans hk'
      · subst hk
        obtain rfl := Option.some_inj.1 (hn.symm.trans he₁)
        rw [hother k' hk'] at he₂
        exact absurd hpk.symm (NodeRegistry.nodePubkeyLive_eq_false hkey he₂ hl₂)
    · by_cases hk' : n = k'
      · subst hk'
        obtain rfl := Option.some_inj.1 (hn.symm.trans he₂)
        rw [hother k hk] at he₁
        exact absurd hpk (NodeRegistry.nodePubkeyLive_eq_false hkey he₁ hl₁)
      · rw [hother k hk] at he₁
        rw [hother k' hk'] at he₂
        exact h.key k k' e₁ e₂ he₁ he₂ hl₁ hl₂ hpk

/-- Live is active or suspended. -/
theorem isLive_iff : e.isLive = true ↔ e.status = .active ∨ e.status = .suspended := by
  unfold NodeRegistryEntry.isLive
  cases e.status <;> decide

/-! Updates -/

/-- A rewrite leaves the index. -/
theorem NodeRegistry.modify_walletToNodes (r : NodeRegistry F) (n : Hash)
    (f : NodeRegistryEntry F → NodeRegistryEntry F) :
    ((r.modify n f).getD r).walletToNodes = r.walletToNodes := by
  unfold modify
  cases r.nodes[n]? with
  | none => rfl
  | some e => rfl

/-- A rewrite keeps the index. -/
theorem NodeRegistry.Indexed.modify (h : r.Indexed) {n : Hash}
    (hf : ∀ e ∈ r.nodes[n]?, (f e).walletAddress = e.walletAddress) :
    ((r.modify n f).getD r).Indexed := by
  intro k e' he'
  rw [modify_nodes] at he'
  rw [modify_walletToNodes]
  split_ifs at he' with hk
  · subst hk
    obtain ⟨e, he, rfl⟩ := Option.map_eq_some_iff.1 he'
    rw [hf e he]
    exact h n e he
  · exact h k e' he'

/-- A rewrite keeps the caps. -/
theorem SybilCaps.modify (h : SybilCaps r) (hindex : r.Indexed) {n : Hash}
    (hf : (roomRules F).Update r n f) : SybilCaps ((r.modify n f).getD r) := by
  have hother : ∀ k, n ≠ k → ((r.modify n f).getD r).nodes[k]? = r.nodes[k]? := by
    intro k hk
    rw [NodeRegistry.modify_nodes, if_neg hk]
  have hn : ((r.modify n f).getD r).nodes[n]? = (r.nodes[n]?).map f := by
    rw [NodeRegistry.modify_nodes, if_pos rfl]
  cases he : r.nodes[n]? with
  | none =>
    refine h.shrink ?_
    intro k e' he' hlive
    have hk : n ≠ k := by
      rintro rfl
      rw [hn, he] at he'
      cases he'
    exact ⟨e', hother k hk ▸ he', hlive, rfl, rfl⟩
  | some e =>
    obtain ⟨hid, hst⟩ := hf e he
    have hw : (f e).walletAddress = e.walletAddress := congrArg Identity.walletAddress hid
    have hpk : (f e).nodePubkey = e.nodePubkey := congrArg Identity.nodePubkey hid
    rw [he] at hn
    by_cases hnew : (f e).isLive = true ∧ e.isLive = false
    · -- the node comes to life, so its status changed, and the rules demand room
      obtain ⟨hl, hd⟩ := hnew
      have hroom : r.RoomFor n := by
        refine hst.resolve_left ?_ (isLive_iff.1 hl)
        intro hs
        rw [isLive_iff, hs, ← isLive_iff] at hl
        exact Bool.false_ne_true (hd.symm.trans hl)
      obtain ⟨hlt, hkey⟩ := hroom e he hd
      exact h.enter hindex hn hother (hw ▸ hlt) (hpk ▸ hkey)
    · refine h.shrink ?_
      intro k e' he' hlive
      by_cases hk : n = k
      · subst hk
        obtain rfl := Option.some_inj.1 (hn.symm.trans he')
        have hl : e.isLive = true := by
          by_contra hd
          exact hnew ⟨hlive, Bool.eq_false_iff.2 hd⟩
        exact ⟨e, he, hl, hw.symm, hpk.symm⟩
      · exact ⟨e', hother k hk ▸ he', hlive, rfl, rfl⟩

/-! Leaving and expiring -/

/-- What a removal leaves. -/
theorem NodeRegistry.getElem?_unregisterNode (r : NodeRegistry F) (n k : Hash) :
    ((r.unregisterNode n).getD r).nodes[k]? = if n = k then none else r.nodes[k]? := by
  unfold unregisterNode
  cases hn : r.nodes[n]? with
  | none =>
    split_ifs with hk
    · exact hk ▸ hn
    · rfl
  | some e => simp only [Option.map_some, Option.getD_some, ExtTreeMap.getElem?_erase,
      LawfulEqOrd.compare_eq_iff_eq]

/-- A removal keeps the caps. -/
theorem SybilCaps.unregisterNode (h : SybilCaps r) (n : Hash) :
    SybilCaps ((r.unregisterNode n).getD r) := by
  refine h.shrink ?_
  intro k e he hlive
  rw [NodeRegistry.getElem?_unregisterNode] at he
  split_ifs at he
  exact ⟨e, he, hlive, rfl, rfl⟩

/-- A removal keeps the index. -/
theorem NodeRegistry.Indexed.unregisterNode (h : r.Indexed) (n : Hash) :
    ((r.unregisterNode n).getD r).Indexed := by
  intro k e he
  rw [getElem?_unregisterNode] at he
  split_ifs at he with hk
  have hmem := h k e he
  unfold NodeRegistry.unregisterNode
  cases hn : r.nodes[n]? with
  | none => exact hmem
  | some e₀ =>
    simp only [Option.map_some, Option.getD_some, ExtTreeMap.getD_insert,
      LawfulEqOrd.compare_eq_iff_eq]
    split_ifs with hw
    · rw [hw, List.mem_filter]
      exact ⟨hmem, by simp [Ne.symm hk]⟩
    · exact hmem

/-- What the sweep leaves. -/
theorem NodeRegistry.getElem?_expireInactiveNodes (r : NodeRegistry F) (blocks now : UInt64)
    (k : Hash) :
    (r.expireInactiveNodes blocks now).nodes[k]? = (r.nodes[k]?).map fun e =>
      if expires e now blocks then
        { e with status := .offline, updatedAt := now }
      else e := by
  unfold expireInactiveNodes
  rw [ExtTreeMap.getElem?_map]

/-- A node that the sweep leaves live was live. -/
theorem SybilCaps.expireInactiveNodes (h : SybilCaps r) (blocks now : UInt64) :
    SybilCaps (r.expireInactiveNodes blocks now) := by
  refine h.shrink ?_
  intro k e' he' hlive
  rw [NodeRegistry.getElem?_expireInactiveNodes] at he'
  obtain ⟨e, he, rfl⟩ := Option.map_eq_some_iff.1 he'
  refine ⟨e, he, ?_⟩
  split_ifs at hlive ⊢
  · exact absurd (isLive_iff.1 hlive) (by simp)
  · exact ⟨hlive, rfl, rfl⟩

/-- The sweep keeps the index. -/
theorem NodeRegistry.Indexed.expireInactiveNodes (h : r.Indexed) (blocks now : UInt64) :
    (r.expireInactiveNodes blocks now).Indexed := by
  intro k e' he'
  rw [getElem?_expireInactiveNodes] at he'
  obtain ⟨e, he, rfl⟩ := Option.map_eq_some_iff.1 he'
  have hmem := h k e he
  split_ifs
  · exact hmem
  · exact hmem

/-! Registration -/

variable [FloatArith F] {reg : Registration} {height now : UInt64} {hf : UInt8}

/-- A registration keeps the index. -/
theorem NodeRegistry.Indexed.registerNodeOnchain (h : r.Indexed)
    (hreg : r.registerNodeOnchain reg height hf now = some r') : r'.Indexed := by
  unfold NodeRegistry.registerNodeOnchain at hreg
  split_ifs at hreg
  cases hreg
  intro k e he
  simp only [ExtTreeMap.getElem?_insert, LawfulEqOrd.compare_eq_iff_eq] at he
  simp only [ExtTreeMap.getD_insert, LawfulEqOrd.compare_eq_iff_eq]
  split_ifs at he with hk
  · cases he
    subst hk
    refine (if_pos rfl : ite (reg.walletAddress = reg.walletAddress) _ _ = _) ▸ ?_
    exact List.mem_append_right _ (List.mem_singleton_self _)
  · have hmem := h k e he
    split_ifs with hw
    · rw [hw]
      exact List.mem_append_left _ hmem
    · exact hmem

/-- **A registration keeps the caps.** -/
theorem SybilCaps.registerNodeOnchain (h : SybilCaps r) (hindex : r.Indexed)
    (hfork : hfVersionMevatrustAntisybil ≤ hf)
    (hreg : r.registerNodeOnchain reg height hf now = some r') : SybilCaps r' := by
  obtain ⟨hroom, hkey, -⟩ := (registerNodeOnchain_isSome_iff r reg height hf now).1
    (Option.isSome_iff_exists.2 ⟨r', hreg⟩)
  have hnodes := (NodeRegistry.registerNodeOnchain_eq_some hreg).2
  refine h.enter hindex (NodeRegistry.registerNodeOnchain_entry hreg) ?_ hroom ?_
  · intro k hk
    rw [hnodes, ExtTreeMap.getElem?_insert, if_neg (by simpa using hk)]
  · exact Bool.eq_false_iff.2 fun hlive => hkey ⟨hfork, hlive⟩

/-- **The moves uphold the caps and the index**, where a node comes to life only if there is
room. -/
theorem sybilCaps_upheld {ctx : BlockCtx} (hfork : hfVersionMevatrustAntisybil ≤ ctx.hfVersion) :
    Upheld ctx (roomRules F) fun r => SybilCaps r ∧ r.Indexed where
  update := fun ⟨hcaps, hindex⟩ hf => ⟨hcaps.modify hindex hf,
    hindex.modify fun e he => congrArg Identity.walletAddress (hf e he).1⟩
  enter := fun ⟨hcaps, hindex⟩ _ hreg =>
    ⟨hcaps.registerNodeOnchain hindex hfork hreg, hindex.registerNodeOnchain hreg⟩
  leave := fun ⟨hcaps, hindex⟩ _ => ⟨hcaps.unregisterNode _, hindex.unregisterNode _⟩
  expire := fun now ⟨hcaps, hindex⟩ =>
    ⟨hcaps.expireInactiveNodes _ now, hindex.expireInactiveNodes _ now⟩

omit [FloatArith F] in
/-- No nodes, no caps broken. -/
theorem sybilCaps_empty : SybilCaps ({} : NodeRegistry F) where
  wallet w := by
    refine (countP_values_le (l := []) ?_).trans (Nat.zero_le _)
    intro k e he
    simp at he
  key k k' e e' he := by simp at he

omit [FloatArith F] in
theorem indexed_empty : ({} : NodeRegistry F).Indexed := by
  intro k e he
  simp at he

/-! ### A chain of blocks -/

variable {D : Type} [FloatArith D] [FloatWiden F D]

/-- **The caps hold** after every chain of blocks from fork 18 on whose actions bring a node to life
only where there is room for it. -/
theorem sybil_caps_hold {blocks : List (BlockCtx × BlockClock)}
    (hfork : ∀ b ∈ blocks, hfVersionMevatrustAntisybil ≤ b.1.hfVersion)
    (hroom : (growingChain F D).Guarded
      (EachAction D fun ctx s a => a.Within ctx (roomRules F) s) {} blocks) :
    SybilCaps ((growingChain F D).run {} blocks).1.registry := by
  have hban : ∀ r n, (roomRules F).status r n .banned := by
    rintro r n (hst | hst) <;> cases hst
  exact (chain_upheld (fun b hb => sybilCaps_upheld (hfork b hb)) hban
    ⟨sybilCaps_empty, indexed_empty⟩ hroom).1

end

/-- A second node with the key of the first. -/
def twinRegistration : Registration :=
  { ownerRegistration with
    nodeId := Pod32.single 10
    signature := ⟨Pod32.single 3, Pod32.single 3⟩ }

/-- A node is registered and banned, and another one is registered with its key. -/
def twinBlocks : List (BlockCtx × BlockClock) :=
  [(carrierBlock 0xA0 (Registration.codec.write ownerRegistration) 100, stillClock 2000),
    (carrierBlock 0xA4 (Penalty.codec.write (strangerBan 9 2)) 101, stillClock 2060),
    (carrierBlock 0xA0 (Registration.codec.write twinRegistration) 102, stillClock 2120)]

/-- The first one reports uptime. -/
def revivalBlock : BlockCtx × BlockClock :=
  (carrierBlock 0xA5 (Uptime.codec.write ownerUptime) 103, stillClock 2180)

/-- **A node key lives twice**: the banned node reports uptime, and another has its key
meanwhile. -/
theorem twins_break_caps :
    ¬ ∀ blocks : List (BlockCtx × BlockClock),
        (∀ b ∈ blocks, hfVersionMevatrustAntisybil ≤ b.1.hfVersion) →
        SybilCaps ((growingChain ℚ ℚ).run {} blocks).1.registry := by
  intro h
  have hcaps := h (twinBlocks ++ [revivalBlock]) (by decide)
  generalize hr : ((growingChain ℚ ℚ).run {} (twinBlocks ++ [revivalBlock])).1.registry = r
    at hcaps
  have hlive : (r.nodes[Pod32.single 9]?).map (fun e => (e.isLive, e.nodePubkey)) =
        some (true, Pod32.single 6) ∧
      (r.nodes[Pod32.single 10]?).map (fun e => (e.isLive, e.nodePubkey)) =
        some (true, Pod32.single 6) := by
    rw [← hr]
    decide +kernel
  obtain ⟨e, he, hpe⟩ := Option.map_eq_some_iff.1 hlive.1
  obtain ⟨e', he', hpe'⟩ := Option.map_eq_some_iff.1 hlive.2
  rw [Prod.mk.injEq] at hpe hpe'
  exact absurd (hcaps.key _ _ e e' he he' hpe.1 hpe'.1 (hpe.2.trans hpe'.2.symm)) (by decide)

/-- As long as the banned node keeps silent the caps hold. -/
theorem twins_within_caps : SybilCaps ((growingChain ℚ ℚ).run {} twinBlocks).1.registry :=
  sybil_caps_hold (by decide) (by decide +kernel)

end Mevacoin.Trust
