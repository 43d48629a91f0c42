import Mevacoin.Trust.NodeRegistry

/-!
# What a registration signature binds

The signature of a `0xA0` payload is over `H(node_id ‖ node_pubkey)` (`registration_message_hash` in
`mevatrust_tx_parser.h`), not over the address that the rewards go to.
-/

namespace Mevacoin.Trust

open Lib Std

/-- The octets `registration_message_hash` hashes. -/
def registrationMessage (nodeId : Hash) (nodePubkey : PublicKey) : Bytes :=
  nodeId.data ++ nodePubkey.data

/-- `registration_message_hash`. -/
def registrationMessageHash (cr : Crypto) (nodeId : Hash) (nodePubkey : PublicKey) : Hash :=
  cr.cnFastHash (registrationMessage nodeId nodePubkey)

/-- `verify_registration_signature`. -/
def verifyRegistrationSignature (cr : Crypto) (reg : Registration) : Bool :=
  cr.checkSignature (registrationMessageHash cr reg.nodeId reg.nodePubkey) reg.walletPubkey
    reg.signature

/-- The signature check does not look at the address. -/
theorem verifyRegistrationSignature_address (cr : Crypto) (reg : Registration) (address : Bytes) :
    verifyRegistrationSignature cr { reg with walletAddress := address } =
      verifyRegistrationSignature cr reg := rfl

/-- The message tells node and key. -/
theorem registrationMessage_inj {n n' : Hash} {k k' : PublicKey}
    (h : registrationMessage n k = registrationMessage n' k') : n = n' ∧ k = k' := by
  obtain ⟨hn, hk⟩ := List.append_inj h (n.size_eq.trans n'.size_eq.symm)
  exact ⟨Pod32.ext hn, Pod32.ext hk⟩

namespace NodeRegistry

variable {F : Type} [FloatArith F] {r s : NodeRegistry F} {reg : Registration}
  {height now : UInt64} {hf : UInt8}

/-- What a successful on-chain registration leaves in the table. -/
theorem registerNodeOnchain_eq_some (h : r.registerNodeOnchain reg height hf now = some s) :
    reg.nodeId ∉ r.nodes ∧
      s.nodes = r.nodes.insert reg.nodeId (onchainEntry reg height now) := by
  unfold registerNodeOnchain at h
  split_ifs at h with h1 h2 h3
  cases h
  exact ⟨by simpa using h3, rfl⟩

/-- The entry of a new node. -/
theorem registerNodeOnchain_entry (h : r.registerNodeOnchain reg height hf now = some s) :
    s.nodes[reg.nodeId]? = some (onchainEntry reg height now) := by
  rw [(registerNodeOnchain_eq_some h).2, ExtTreeMap.getElem?_insert_self]

/-- Nothing stands in the way of a registration in an empty registry. -/
theorem registerNodeOnchain_empty (reg : Registration) (height : UInt64) (hf : UInt8)
    (now : UInt64) : ∃ s, ({} : NodeRegistry F).registerNodeOnchain reg height hf now = some s := by
  simp [registerNodeOnchain, liveOfWallet, nodePubkeyLive, maxNodesPerWallet]

end NodeRegistry

section

variable {ℓ : ℕ} {G : Type} [AddCommGroup G] [Module (ZMod ℓ) G] {F : Type} [FloatArith F]

/-- No collision of the hash functions on the two messages and the two challenge buffers. -/
structure NoRegistrationCollision (cv : Curve ℓ G) (reg reg' : Registration) : Prop where
  message : Set.InjOn cv.cnFastHash {registrationMessage reg.nodeId reg.nodePubkey,
    registrationMessage reg'.nodeId reg'.nodePubkey}
  challenge : ∀ P, cv.pointFromBytes reg.walletPubkey = some P → Set.InjOn cv.hashToScalar
    {cv.challengeBuffer (registrationMessageHash cv.crypto reg.nodeId reg.nodePubkey)
        reg.walletPubkey P reg.signature,
      cv.challengeBuffer (registrationMessageHash cv.crypto reg'.nodeId reg'.nodePubkey)
        reg.walletPubkey P reg.signature}

/-- **A registration signature binds the node, not the payout address.**  Two accepted payloads with
the same wallet key and signature install entries with the same node id, node key and wallet key.
Each entry's wallet address is its own payload's, and no change of it is noticed by the check. -/
theorem registration_binds_node {cv : Curve ℓ G} {reg reg' : Registration}
    {r r' s s' : NodeRegistry F} {height height' now now' : UInt64} {hf hf' : UInt8}
    (hwallet : reg.walletPubkey = reg'.walletPubkey) (hsig : reg.signature = reg'.signature)
    (hfree : NoRegistrationCollision cv reg reg')
    (hv : verifyRegistrationSignature cv.crypto reg = true)
    (hv' : verifyRegistrationSignature cv.crypto reg' = true)
    (hi : r.registerNodeOnchain reg height hf now = some s)
    (hi' : r'.registerNodeOnchain reg' height' hf' now' = some s') :
    ∃ e e', s.nodes[reg.nodeId]? = some e ∧ s'.nodes[reg'.nodeId]? = some e' ∧
      e.nodeId = e'.nodeId ∧ e.nodePubkey = e'.nodePubkey ∧ e.walletPubkey = e'.walletPubkey ∧
      e.walletAddress = reg.walletAddress ∧ e'.walletAddress = reg'.walletAddress ∧
      ∀ address, verifyRegistrationSignature cv.crypto { reg with walletAddress := address } =
        verifyRegistrationSignature cv.crypto reg := by
  unfold verifyRegistrationSignature at hv'
  rw [← hwallet, ← hsig] at hv'
  -- one key, one signature: equal message hashes, hence equal messages
  have hhash : registrationMessageHash cv.crypto reg.nodeId reg.nodePubkey =
      registrationMessageHash cv.crypto reg'.nodeId reg'.nodePubkey :=
    Curve.checkSignature_hash_eq hv hv' hfree.challenge
  have hmsg := hfree.message (Set.mem_insert _ _) (Set.mem_insert_of_mem _ rfl) hhash
  obtain ⟨hid, hkey⟩ := registrationMessage_inj hmsg
  exact ⟨_, _, NodeRegistry.registerNodeOnchain_entry hi,
    NodeRegistry.registerNodeOnchain_entry hi', hid, hkey, hwallet, rfl, rfl,
    verifyRegistrationSignature_address _ _⟩

end

/-- A registration signed over `sevenCurve`. -/
def ownerRegistration : Registration where
  nodeId := Pod32.single 9
  walletPubkey := Pod32.single 4
  nodePubkey := Pod32.single 6
  walletAddress := asciiBytes "owner"
  port := 17080
  signature := ⟨Pod32.single 4, Pod32.single 3⟩

/-- The same registration with another payout address. -/
def thiefRegistration : Registration :=
  { ownerRegistration with walletAddress := asciiBytes "thief" }

theorem ownerRegistration_verifies :
    verifyRegistrationSignature sevenCurve.crypto ownerRegistration = true := by decide +kernel

theorem thiefRegistration_verifies :
    verifyRegistrationSignature sevenCurve.crypto thiefRegistration = true :=
  (verifyRegistrationSignature_address _ _ _).trans ownerRegistration_verifies

theorem ownerThief_walletPubkey :
    ownerRegistration.walletPubkey = thiefRegistration.walletPubkey := rfl

theorem ownerThief_signature : ownerRegistration.signature = thiefRegistration.signature := rfl

/-- The two payloads hash the same octets. -/
theorem ownerThief_noCollision :
    NoRegistrationCollision sevenCurve ownerRegistration thiefRegistration where
  message := by simp [thiefRegistration]
  challenge := by simp [thiefRegistration]

/-- **The payout address is not bound**: one signature installs one node with two addresses. -/
theorem registration_address_unbound :
    ¬ ∀ (reg reg' : Registration) (r r' s s' : NodeRegistry ℚ) (height height' now now' : UInt64)
        (hf hf' : UInt8), reg.walletPubkey = reg'.walletPubkey → reg.signature = reg'.signature →
        NoRegistrationCollision sevenCurve reg reg' →
        verifyRegistrationSignature sevenCurve.crypto reg = true →
        verifyRegistrationSignature sevenCurve.crypto reg' = true →
        r.registerNodeOnchain reg height hf now = some s →
        r'.registerNodeOnchain reg' height' hf' now' = some s' →
        ∀ e e', s.nodes[reg.nodeId]? = some e → s'.nodes[reg'.nodeId]? = some e' →
          e.nodeId = e'.nodeId ∧ e.nodePubkey = e'.nodePubkey ∧
            e.walletAddress = e'.walletAddress := by
  intro h
  obtain ⟨s, hi⟩ := NodeRegistry.registerNodeOnchain_empty (F := ℚ) ownerRegistration 100 18 5000
  obtain ⟨s', hi'⟩ := NodeRegistry.registerNodeOnchain_empty (F := ℚ) thiefRegistration 100 18 5000
  have heq := h _ _ _ _ s s' 100 100 5000 5000 18 18 ownerThief_walletPubkey
    ownerThief_signature ownerThief_noCollision ownerRegistration_verifies
    thiefRegistration_verifies hi hi' _ _
    (NodeRegistry.registerNodeOnchain_entry hi) (NodeRegistry.registerNodeOnchain_entry hi')
  have haddr : asciiBytes "owner" = asciiBytes "thief" := heq.2.2
  exact absurd haddr (by decide)

/-- `registration_binds_node` applies to the two registrations of
`registration_address_unbound`. -/
theorem registration_binds_node_two_addresses :
    ∃ e e' : NodeRegistryEntry ℚ, e.nodeId = e'.nodeId ∧ e.nodePubkey = e'.nodePubkey ∧
      e.walletAddress = asciiBytes "owner" ∧ e'.walletAddress = asciiBytes "thief" := by
  obtain ⟨s, hs⟩ := NodeRegistry.registerNodeOnchain_empty (F := ℚ) ownerRegistration 100 18 5000
  obtain ⟨s', hs'⟩ := NodeRegistry.registerNodeOnchain_empty (F := ℚ) thiefRegistration 100 18 5000
  obtain ⟨e, e', -, -, hid, hkey, -, ha, ha', -⟩ :=
    registration_binds_node ownerThief_walletPubkey ownerThief_signature
      ownerThief_noCollision ownerRegistration_verifies
      thiefRegistration_verifies hs hs'
  exact ⟨e, e', hid, hkey, ha, ha'⟩

end Mevacoin.Trust
