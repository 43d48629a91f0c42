import Mevacoin.Trust.Manager

/-!
# Whom a payload reaches

The block processing seen from one node: the keys and the standing it has in a registry.
-/

namespace Mevacoin.Trust

open Lib Std

/-! ### Signatures in a transaction -/

/-- Every signature the payloads of a transaction carry, with the hash it is checked for.  The owner
signature of a store operation stands for one of two hashes. -/
def carriedSignatures (cr : Crypto) (tx : Transaction) : List (Hash × Signature) :=
  (parseRegistration tx).toList.map
      (fun r => (registrationMessageHash cr r.nodeId r.nodePubkey, r.signature)) ++
    (parseDeregister tx).toList.map (fun d => (deregisterMessageHash cr d.nodeId, d.signature)) ++
    (parseSnapshot tx).toList.flatMap
      (fun s => s.badgeAwards.map fun a => (badgeAwardMessageHash cr a, a.proposerSig)) ++
    (parseCircle tx).toList.map (fun c =>
      (circleMessageHash cr c.circleId c.opType c.targetPubkey c.circleName, c.signature)) ++
    (parsePenalty tx).toList.map (fun p => (penaltyMessageHash cr p, p.signature)) ++
    (parseUptime tx).toList.map (fun u => (uptimeMessageHash cr u, u.signature)) ++
    (parseChallenge tx).toList.flatMap (fun c =>
      [(challengeMessageHash cr c, c.challengerSig),
        (challengeMessageHash cr c, c.challengedSig)]) ++
    (parseStore tx).toList.flatMap (fun s =>
      [(storeMessageHash cr s, s.ownerSig), (storeConfirmMessageHash cr s, s.sellerSig),
        (buyerActionMessageHash cr s, s.ownerSig)]) ++
    (parseCircleVote tx).toList.map (fun v => (circleVoteMessageHash cr v, v.signature)) ++
    (parseValidator tx).toList.map
      (fun v => (validatorMessageHash cr v.nodeId v.walletPubkey, v.signature)) ++
    (parseChainProof tx).toList.map (fun c => (chainProofMessageHash cr c, c.signature))

/-- No payload of the transaction carries a signature that verifies under the key. -/
def Unsigned (cr : Crypto) (pk : PublicKey) (tx : Transaction) : Prop :=
  ∀ p ∈ carriedSignatures cr tx, cr.checkSignature p.1 pk p.2 = false
deriving Decidable

/-- What verifies was signed with another key. -/
theorem Unsigned.ne {cr : Crypto} {pk key : PublicKey} {tx : Transaction} {m : Hash}
    {sig : Signature} (h : Unsigned cr pk tx) (hmem : (m, sig) ∈ carriedSignatures cr tx)
    (hv : cr.checkSignature m key sig = true) : key ≠ pk := by
  rintro rfl
  exact absurd (hv.symm.trans (h _ hmem)) (by decide)

/-! ### The standing of a node -/

/-- What the payloads of others must not change: status, reputation and validator flag. -/
structure Standing (F : Type) where
  status : NodeStatus
  reputation : F
  validator : Bool
deriving DecidableEq

/-- The standing an entry records. -/
def NodeRegistryEntry.standing {F : Type} (e : NodeRegistryEntry F) : Standing F :=
  ⟨e.status, e.reputationScore, e.isValidator⟩

section

variable {F : Type}

/-- Every entry is stored under its own node id. -/
def NodeRegistry.Keyed (r : NodeRegistry F) : Prop :=
  ∀ (k : Hash) (e : NodeRegistryEntry F), r.nodes[k]? = some e → e.nodeId = k

/-- A well-formed registry in which the node has these keys and this standing. -/
structure Watched (r : NodeRegistry F) (n : Hash) (pk wk : PublicKey) (st : Standing F) : Prop where
  keyed : r.Keyed
  entry : ∃ e, r.getNodeById n = some e ∧ e.nodePubkey = pk ∧ e.walletPubkey = wk ∧
    e.standing = st

/-- An update that leaves the identity of an entry alone. -/
def KeepsIdentity (f : NodeRegistryEntry F → NodeRegistryEntry F) : Prop :=
  ∀ e, (f e).nodeId = e.nodeId ∧ (f e).nodePubkey = e.nodePubkey ∧
    (f e).walletPubkey = e.walletPubkey

/-- What a rewrite leaves. -/
theorem NodeRegistry.modify_nodes (r : NodeRegistry F) (m : Hash)
    (f : NodeRegistryEntry F → NodeRegistryEntry F) (k : Hash) :
    ((r.modify m f).getD r).nodes[k]? = if m = k then (r.nodes[k]?).map f else r.nodes[k]? := by
  unfold NodeRegistry.modify
  cases hm : r.nodes[m]? with
  | none =>
    by_cases hk : m = k
    · subst hk; simp [hm]
    · simp [hk]
  | some e =>
    by_cases hk : m = k
    · subst hk; simp [hm]
    · simp [ExtTreeMap.getElem?_insert, hk]

variable {r : NodeRegistry F} {n m : Hash} {pk wk : PublicKey} {st : Standing F}

theorem NodeRegistry.keyed_empty : ({} : NodeRegistry F).Keyed := by
  intro k e hk
  simp at hk

variable {f : NodeRegistryEntry F → NodeRegistryEntry F} {key : PublicKey}

/-- A rewrite keeps the keys. -/
theorem NodeRegistry.Keyed.modify (h : r.Keyed) (hid : KeepsIdentity f) :
    ((r.modify m f).getD r).Keyed := by
  intro k e hk
  rw [NodeRegistry.modify_nodes] at hk
  split_ifs at hk
  · obtain ⟨e', he', rfl⟩ := Option.map_eq_some_iff.1 hk
    exact (hid e').1.trans (h k e' he')
  · exact h k e hk

/-- **One update of one entry**: the watched node's standing changes as `g` says if it is the
one. -/
theorem Watched.modify (h : Watched r n pk wk st) (m : Hash) {g : Standing F → Standing F}
    (hid : KeepsIdentity f) (hg : ∀ e, (f e).standing = g e.standing) :
    Watched ((r.modify m f).getD r) n pk wk (if m = n then g st else st) where
  keyed := h.keyed.modify hid
  entry := by
    obtain ⟨e, he, hpk, hwk, hst⟩ := h.entry
    unfold NodeRegistry.getNodeById at he ⊢
    rw [NodeRegistry.modify_nodes]
    by_cases hm : m = n
    · rw [if_pos hm, if_pos hm, he]
      exact ⟨f e, rfl, (hid e).2.1.trans hpk, (hid e).2.2.trans hwk, (hg e).trans (by rw [hst])⟩
    · rw [if_neg hm, if_neg hm]
      exact ⟨e, he, hpk, hwk, hst⟩

/-- An update that leaves the standing alone, of whichever node. -/
theorem Watched.modify_same (h : Watched r n pk wk st) (m : Hash) (hid : KeepsIdentity f)
    (hg : ∀ e, (f e).standing = e.standing) : Watched ((r.modify m f).getD r) n pk wk st := by
  have hmod := h.modify m hid (g := id) hg
  rwa [id, ite_self] at hmod

/-- An update of another node. -/
theorem Watched.modify_other (h : Watched r n pk wk st) (hm : m ≠ n) (hid : KeepsIdentity f) :
    Watched ((r.modify m f).getD r) n pk wk st where
  keyed := h.keyed.modify hid
  entry := by
    unfold NodeRegistry.getNodeById
    rw [NodeRegistry.modify_nodes, if_neg hm]
    exact h.entry

/-! ### The operations on the registry -/

/-- A deregistration needs the wallet key of the entry. -/
theorem Watched.deregisterNodeOnchain (h : Watched r n pk wk st) {d : Deregister}
    (hd : d.walletPubkey ≠ wk) {r' : NodeRegistry F} (hr : r.deregisterNodeOnchain d = some r') :
    Watched r' n pk wk st := by
  obtain ⟨e, he, hpk, hwk, hst⟩ := h.entry
  unfold NodeRegistry.getNodeById at he
  unfold NodeRegistry.deregisterNodeOnchain at hr
  split at hr
  · simp at hr
  · rename_i e' he'
    split_ifs at hr with hw
    have hne : d.nodeId ≠ n := by
      rintro rfl
      obtain rfl : e' = e := Option.some.inj (he'.symm.trans he)
      exact hd (hw.symm.trans hwk)
    obtain ⟨e'', -, rfl⟩ := Option.map_eq_some_iff.1 hr
    constructor
    · intro k e₀ hk
      rw [ExtTreeMap.getElem?_erase] at hk
      split_ifs at hk
      exact h.keyed k e₀ hk
    · refine ⟨e, ?_, hpk, hwk, hst⟩
      show (r.nodes.erase d.nodeId)[n]? = some e
      rw [ExtTreeMap.getElem?_erase, if_neg (by simpa using hne), he]

/-- A status is watched. -/
theorem Watched.updateNodeStatus (h : Watched r n pk wk st) (m : Hash) (status : NodeStatus)
    (reason : Bytes) (now : UInt64) :
    Watched ((r.updateNodeStatus m status reason now).getD r) n pk wk
      (if m = n then { st with status } else st) :=
  h.modify m (g := fun st => { st with status }) (fun _ => ⟨rfl, rfl, rfl⟩) (fun _ => rfl)

/-- A promotion is watched. -/
theorem Watched.updateNodeValidator (h : Watched r n pk wk st) (m : Hash)
    (height stake now : UInt64) :
    Watched ((r.updateNodeValidator m true height stake now).getD r) n pk wk
      (if m = n then { st with validator := true } else st) :=
  h.modify m (g := fun st => { st with validator := true }) (fun _ => ⟨rfl, rfl, rfl⟩)
    (fun _ => rfl)

/-- A binding check passes only with the key of the node's entry. -/
theorem Watched.ne_of_bound (h : Watched r n pk wk st) (hkey : key ≠ pk)
    (hb : r.bound m key = true) : m ≠ n := by
  rintro rfl
  obtain ⟨e, he, hpk, -⟩ := h.entry
  unfold NodeRegistry.bound at hb
  rw [he] at hb
  have hk : e.nodePubkey = key := by simpa using (Bool.and_eq_true_iff.1 hb).2
  exact hkey (hk.symm.trans hpk)

/-- The node found by another key is another node. -/
theorem Watched.ne_of_getNodeByPubkey (h : Watched r n pk wk st) (hkey : key ≠ pk)
    {e : NodeRegistryEntry F} (hg : r.getNodeByPubkey key = some e) : e.nodeId ≠ n := by
  rintro rfl
  obtain ⟨kv, hfind, rfl⟩ := Option.map_eq_some_iff.1 hg
  have hmatch : kv.2.nodePubkey = key := by simpa using List.find?_some hfind
  have hmem : r.nodes[kv.1]? = some kv.2 :=
    ExtTreeMap.mem_toList_iff_getElem?_eq_some.1 (List.mem_of_find?_eq_some hfind)
  obtain ⟨e, he, hpk, -⟩ := h.entry
  have hid : kv.2.nodeId = kv.1 := h.keyed _ _ hmem
  rw [hid] at he
  obtain rfl : kv.2 = e := Option.some.inj (hmem.symm.trans he)
  exact hkey (hmatch.symm.trans hpk)

section

variable [FloatArith F]

theorem NodeRegistry.Keyed.registerNodeOnchain (h : r.Keyed) {reg : Registration}
    {height now : UInt64} {hf : UInt8} {r' : NodeRegistry F}
    (hr : r.registerNodeOnchain reg height hf now = some r') : r'.Keyed := by
  intro k e hk
  rw [(NodeRegistry.registerNodeOnchain_eq_some hr).2, ExtTreeMap.getElem?_insert] at hk
  split_ifs at hk with hc
  · obtain rfl := Option.some.inj hk
    exact Std.LawfulEqCmp.eq_of_compare hc
  · exact h k e hk

/-- A registration cannot replace an entry. -/
theorem Watched.registerNodeOnchain (h : Watched r n pk wk st) {reg : Registration}
    {height now : UInt64} {hf : UInt8} {r' : NodeRegistry F}
    (hr : r.registerNodeOnchain reg height hf now = some r') : Watched r' n pk wk st where
  keyed := h.keyed.registerNodeOnchain hr
  entry := by
    obtain ⟨hfresh, hnodes⟩ := NodeRegistry.registerNodeOnchain_eq_some hr
    obtain ⟨e, he, hkeys⟩ := h.entry
    have hsome : r.nodes[n]? = some e := he
    have hne : reg.nodeId ≠ n := by
      rintro rfl
      exact hfresh (ExtTreeMap.mem_iff_isSome_getElem?.2 (by rw [hsome]; rfl))
    refine ⟨e, ?_, hkeys⟩
    unfold NodeRegistry.getNodeById
    rw [hnodes, ExtTreeMap.getElem?_insert, if_neg (by simpa using hne), hsome]

/-- What a penalty makes of a standing. -/
def Standing.penalized (offense : OffenseType) (st : Standing F) : Standing F :=
  let reputation := clamp01 (FloatArith.add st.reputation (FloatArith.ofRat offense.delta))
  let status := penaltyStatus offense reputation
  { st with reputation, status := if status = .active then st.status else status }

/-- **A penalty changes the standing of the node it names and of no other.** -/
theorem Watched.applyPenalty (h : Watched r n pk wk st) (b : BadgeSystem) (m : Hash)
    (offense : OffenseType) (now : UInt64) :
    Watched (Trust.applyPenalty r b m offense now).1 n pk wk
      (if m = n then st.penalized offense else st) := by
  rw [applyPenalty_registry]
  refine h.modify m (fun e => ?_) fun e => ?_
  · rw [NodeRegistryEntry.penalized_eq]
    exact ⟨rfl, rfl, rfl⟩
  · rw [NodeRegistryEntry.penalized_eq]
    rfl

/-- Challenges of others do not show. -/
theorem Watched.recordChallenge (h : Watched r n pk wk st) {ch : Challenge} {now : UInt64}
    (h₁ : ch.challengerNodeId ≠ n) (h₂ : ch.challengedNodeId ≠ n) :
    Watched (Trust.recordChallenge r ch now) n pk wk st := by
  have hcount : ∀ {r : NodeRegistry F} (m : Hash), Watched r n pk wk st →
      Watched ((r.updateNodeChallengeResult m ch.success now).getD r) n pk wk st := fun m h =>
    h.modify_same m (fun _ => ⟨rfl, rfl, rfl⟩) (fun _ => rfl)
  have hrep : ∀ {r : NodeRegistry F} {m : Hash}, m ≠ n → Watched r n pk wk st →
      Watched ((r.updateReputation m (FloatArith.ofRat (2 / 100)) now).getD r) n pk wk st :=
    fun hm h => h.modify_other hm fun _ => ⟨rfl, rfl, rfl⟩
  have hboth := hcount ch.challengedNodeId (hcount ch.challengerNodeId h)
  unfold Trust.recordChallenge
  split_ifs
  · exact hrep h₂ (hrep h₁ hboth)
  · exact hboth

end

end

end Mevacoin.Trust
