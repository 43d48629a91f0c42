import Mevacoin.TxExtra

/-!
# The premine state and how it is stored

`src/cryptonote_core/governance.h`, `network_fund.h` and `foundation_vesting.h`: the two states,
their genesis values and the octets under which they are stored.
-/

namespace Mevacoin.Premine

open Lib

/-- `COIN`. -/
def coin : UInt64 := 1000000000000

/-- `TREASURY_ALLOCATION`. -/
def treasuryAllocation : UInt64 := 400000 * coin

/-- `NETWORK_FUND_ALLOCATION`. -/
def networkFundAllocation : UInt64 := 400000 * coin

/-- `NETWORK_FUND_MONTHLY_LIMIT`. -/
def networkFundMonthlyLimit : UInt64 := 10000 * coin

/-- `NETWORK_FUND_WINDOW_BLOCKS`. -/
def networkFundWindowBlocks : UInt64 := 21600

/-- `GOVERNANCE_ORIGINAL_SIGNERS`. -/
def governanceOriginalSigners : UInt32 := 3

/-- `GOVERNANCE_THRESHOLD`. -/
def governanceThreshold : UInt32 := 2

/-- `get_genesis_governance_signers`. -/
def genesisGovernanceSigners : List PublicKey :=
  [ ⟨[0x2b, 0x4b, 0xc2, 0xec, 0x2b, 0xa0, 0xc9, 0x06, 0xc9, 0x76, 0x30, 0xe6, 0xbc,
      0x00, 0xbd, 0x0f, 0x94, 0xec, 0x15, 0xf8, 0x52, 0x87, 0xdb, 0x45, 0xa3, 0xc1,
      0x69, 0xc3, 0xcc, 0xf3, 0x8c, 0x50], rfl⟩,
    ⟨[0x5f, 0xfc, 0x6b, 0x4d, 0xd5, 0x96, 0x0e, 0xea, 0x33, 0x77, 0x17, 0xfe, 0x45,
      0x24, 0xf6, 0x93, 0x3c, 0xff, 0x64, 0x2e, 0xae, 0x11, 0x4b, 0x46, 0x3c, 0x8f,
      0xe7, 0x76, 0x38, 0x98, 0xeb, 0x27], rfl⟩,
    ⟨[0x59, 0x0b, 0xed, 0xad, 0xa0, 0xf2, 0x68, 0x3a, 0x71, 0xee, 0xd8, 0x13, 0xb1,
      0x21, 0xa5, 0x51, 0xe2, 0xf0, 0xf4, 0x22, 0x6c, 0x5b, 0x60, 0xde, 0x2b, 0x8a,
      0x0d, 0xd0, 0x52, 0x46, 0x39, 0x56], rfl⟩]

/-- `governance_state`. -/
structure GovernanceState where
  signers : List PublicKey
  originalCount : UInt32
  balance : UInt64
  threshold : UInt32
  bondKeyImages : List KeyImage
deriving DecidableEq

/-- `network_spend_event`. -/
structure NetworkSpendEvent where
  height : UInt64
  amount : UInt64
deriving DecidableEq

/-- `network_fund_state`. -/
structure NetworkFundState where
  balance : UInt64
  recentSpends : List NetworkSpendEvent
deriving DecidableEq

/-- `m_governance` and `m_network_fund`. -/
structure PremineState where
  governance : GovernanceState
  networkFund : NetworkFundState
deriving DecidableEq

/-- The state before any block: what `init_premine_state` and `rebuild_premine_state` start
from. -/
def genesisState : PremineState where
  governance :=
    { signers := genesisGovernanceSigners
      originalCount := governanceOriginalSigners
      balance := treasuryAllocation
      threshold := governanceThreshold
      bondKeyImages := [] }
  networkFund := { balance := networkFundAllocation, recentSpends := [] }

/-! ### The governance record -/

/-- Octets copied into a 32-octet value. -/
def podOfBytes (b : Bytes) : Pod32 := ⟨(b ++ List.replicate 32 0).take 32, by simp⟩

/-- Read `n` values one after another. -/
def readPods : ℕ → Bytes → List Pod32
  | 0, _ => []
  | n + 1, b => podOfBytes b :: readPods n (b.drop 32)

/-- Values one after another. -/
def writePods (l : List Pod32) : Bytes := l.flatMap Pod32.data

/-- A pod takes 32 octets. -/
@[simp] theorem writePods_length (l : List Pod32) : (writePods l).length = 32 * l.length := by
  induction l with
  | nil => rfl
  | cons p l ih =>
    rw [writePods, List.flatMap_cons, List.length_append, p.size_eq]
    rw [writePods] at ih
    rw [List.length_cons]
    omega

/-- A pod read back. -/
theorem podOfBytes_append (p : Pod32) (rest : Bytes) : podOfBytes (p.data ++ rest) = p := by
  apply Pod32.ext
  show ((p.data ++ rest) ++ List.replicate 32 0).take 32 = p.data
  rw [List.append_assoc, List.take_left' p.size_eq]

/-- Pods read back. -/
theorem readPods_writePods (l : List Pod32) (rest : Bytes) :
    readPods l.length (writePods l ++ rest) = l := by
  induction l with
  | nil => rfl
  | cons p l ih =>
    have hcons : writePods (p :: l) ++ rest = p.data ++ (writePods l ++ rest) := by
      rw [writePods, List.flatMap_cons, List.append_assoc]
      rfl
    rw [List.length_cons, readPods, hcons, podOfBytes_append, List.drop_left' p.size_eq, ih]

/-- `serialize_state` of `governance.cpp`; the counts are cut to 32 bits. -/
def serializeGovernance (s : GovernanceState) : Bytes :=
  leBytes 4 s.signers.length ++ (leBytes 4 s.originalCount.toNat ++
    (leBytes 8 s.balance.toNat ++ (leBytes 4 s.threshold.toNat ++ (writePods s.signers ++
      (leBytes 4 s.bondKeyImages.length ++ writePods s.bondKeyImages)))))

/-- `deserialize_state` of `governance.cpp`. -/
def deserializeGovernance (b : Bytes) : Option GovernanceState :=
  let fixed := 20
  if b.length < fixed + 4 then none
  else
    let count := leAt 4 0 b
    let expected := fixed + count * 32 + 4
    if b.length < expected then none
    else
      let imgCount := leAt 4 (fixed + count * 32) b
      if b.length ≠ expected + imgCount * 32 then none
      else some
        { signers := readPods count (b.drop fixed)
          originalCount := UInt32.ofNat (leAt 4 4 b)
          balance := UInt64.ofNat (leAt 8 8 b)
          threshold := UInt32.ofNat (leAt 4 16 b)
          bondKeyImages := readPods imgCount (b.drop expected) }

/-- The length of the blob. -/
theorem serializeGovernance_length (s : GovernanceState) :
    (serializeGovernance s).length =
      20 + s.signers.length * 32 + 4 + s.bondKeyImages.length * 32 := by
  simp only [serializeGovernance, List.length_append, leBytes_length, writePods_length]
  omega

/-- The fields of a stored record stand at their offsets. -/
theorem serializeGovernance_leAt (s : GovernanceState) :
    leAt 4 0 (serializeGovernance s) = s.signers.length % 256 ^ 4 ∧
      leAt 4 4 (serializeGovernance s) = s.originalCount.toNat % 256 ^ 4 ∧
      leAt 8 8 (serializeGovernance s) = s.balance.toNat % 256 ^ 8 ∧
      leAt 4 16 (serializeGovernance s) = s.threshold.toNat % 256 ^ 4 ∧
      leAt 4 (20 + s.signers.length * 32) (serializeGovernance s) =
        s.bondKeyImages.length % 256 ^ 4 := by
  set A := leBytes 4 s.signers.length with hA
  set B := leBytes 4 s.originalCount.toNat with hB
  set C := leBytes 8 s.balance.toNat with hC
  set D := leBytes 4 s.threshold.toNat with hD
  set K := writePods s.signers with hK
  set I := leBytes 4 s.bondKeyImages.length with hI
  set J := writePods s.bondKeyImages
  have hser : serializeGovernance s = A ++ (B ++ (C ++ (D ++ (K ++ (I ++ J))))) := rfl
  have lA : A.length = 4 := leBytes_length _ _
  have lB : B.length = 4 := leBytes_length _ _
  have lC : C.length = 8 := leBytes_length _ _
  have lD : D.length = 4 := leBytes_length _ _
  have lK : K.length = 32 * s.signers.length := writePods_length _
  refine ⟨?_, ?_, ?_, ?_, ?_⟩
  · exact leAt_zero 4 _ _
  · exact leAt_append lA 4 _ _
  · rw [hser, show A ++ (B ++ (C ++ (D ++ (K ++ (I ++ J))))) =
      (A ++ B) ++ (C ++ (D ++ (K ++ (I ++ J)))) by simp only [List.append_assoc]]
    exact leAt_append (by rw [List.length_append]; omega) 8 _ _
  · rw [hser, show A ++ (B ++ (C ++ (D ++ (K ++ (I ++ J))))) =
      (A ++ B ++ C) ++ (D ++ (K ++ (I ++ J))) by simp only [List.append_assoc]]
    exact leAt_append (by simp only [List.length_append]; omega) 4 _ _
  · rw [hser, show A ++ (B ++ (C ++ (D ++ (K ++ (I ++ J))))) =
      (A ++ B ++ C ++ D ++ K) ++ (I ++ J) by simp only [List.append_assoc]]
    exact leAt_append (by simp only [List.length_append]; omega) 4 _ _

/-- The keys of a stored record stand after its fixed part, the images at the end. -/
theorem serializeGovernance_pods (s : GovernanceState) :
    readPods s.signers.length ((serializeGovernance s).drop 20) = s.signers ∧
      readPods s.bondKeyImages.length
        ((serializeGovernance s).drop (20 + s.signers.length * 32 + 4)) = s.bondKeyImages := by
  set H := leBytes 4 s.signers.length ++ leBytes 4 s.originalCount.toNat ++
    leBytes 8 s.balance.toNat ++ leBytes 4 s.threshold.toNat with hH
  set I := leBytes 4 s.bondKeyImages.length with hI
  have lH : H.length = 20 := by simp [hH]
  have lI : I.length = 4 := leBytes_length _ _
  have hser : serializeGovernance s =
      H ++ (writePods s.signers ++ (I ++ writePods s.bondKeyImages)) := by
    simp only [serializeGovernance, hH, hI, List.append_assoc]
  constructor
  · rw [hser, List.drop_left' lH, readPods_writePods]
  · have hser' : serializeGovernance s =
        (H ++ writePods s.signers ++ I) ++ (writePods s.bondKeyImages ++ []) := by
      rw [hser]
      simp only [List.append_assoc, List.append_nil]
    have hlen : (H ++ writePods s.signers ++ I).length = 20 + s.signers.length * 32 + 4 := by
      simp only [List.length_append, writePods_length]
      omega
    rw [hser', List.drop_left' hlen, readPods_writePods]

/-- **The governance record survives storing**, if its counts fit their fields. -/
theorem deserializeGovernance_serialize (s : GovernanceState) (hs : s.signers.length < 2 ^ 32)
    (hb : s.bondKeyImages.length < 2 ^ 32) :
    deserializeGovernance (serializeGovernance s) = some s := by
  obtain ⟨hcount, horig, hbal, hthr, himg⟩ := serializeGovernance_leAt s
  obtain ⟨hkeys, himages⟩ := serializeGovernance_pods s
  have hlen := serializeGovernance_length s
  rw [Nat.mod_eq_of_lt (by omega)] at hcount himg
  rw [Nat.mod_eq_of_lt (by have := s.originalCount.toNat_lt; omega)] at horig
  rw [toNat_mod_octets] at hbal
  rw [Nat.mod_eq_of_lt (by have := s.threshold.toNat_lt; omega)] at hthr
  unfold deserializeGovernance
  simp only [hcount, horig, hbal, hthr, himg, hkeys, himages]
  rw [if_neg (by omega), if_neg (by omega), if_neg (by omega)]
  simp only [UInt32.ofNat_toNat, UInt64.ofNat_toNat]

/-! ### The network fund record -/

/-- The first height of the rate window that ends at a height. -/
def windowCutoff (height : UInt64) : UInt64 :=
  if networkFundWindowBlocks ≤ height then height - networkFundWindowBlocks else 0

/-- The spends from a height on. -/
def spendsFrom (cutoff : UInt64) (l : List NetworkSpendEvent) : List NetworkSpendEvent :=
  l.filter fun e => cutoff ≤ e.height

/-- `serialize_spend_event` for each spend. -/
def writeSpends (l : List NetworkSpendEvent) : Bytes :=
  l.flatMap fun e => leBytes 8 e.height.toNat ++ leBytes 8 e.amount.toNat

/-- `deserialize_spend_event` for each of `n` spends; a short stream fails. -/
def readSpends : ℕ → Bytes → Option (List NetworkSpendEvent)
  | 0, _ => some []
  | n + 1, b =>
    if b.length < 16 then none
    else (readSpends n (b.drop 16)).map
      (⟨UInt64.ofNat (leAt 8 0 b), UInt64.ofNat (leAt 8 8 b)⟩ :: ·)

/-- `serialize_state` of `network_fund.cpp`. -/
def serializeNetworkFund (s : NetworkFundState) : Bytes :=
  leBytes 8 s.balance.toNat ++ (leBytes 4 s.recentSpends.length ++ writeSpends s.recentSpends)

/-- `deserialize_state` of `network_fund.cpp`; octets after the last spend are not looked at. -/
def deserializeNetworkFund (b : Bytes) : Option NetworkFundState :=
  if b.length < 12 then none
  else (readSpends (leAt 4 8 b) (b.drop 12)).map fun l => ⟨UInt64.ofNat (leAt 8 0 b), l⟩

/-- Spends read back. -/
theorem readSpends_writeSpends (l : List NetworkSpendEvent) :
    readSpends l.length (writeSpends l) = some l := by
  induction l with
  | nil => rfl
  | cons e l ih =>
    set H := leBytes 8 e.height.toNat with hH
    set A := leBytes 8 e.amount.toNat with hA
    have lH : H.length = 8 := leBytes_length _ _
    have lA : A.length = 8 := leBytes_length _ _
    have hcons : writeSpends (e :: l) = H ++ (A ++ writeSpends l) := by
      rfl
    have hheight : leAt 8 0 (H ++ (A ++ writeSpends l)) = e.height.toNat := by
      rw [leAt_zero, toNat_mod_octets]
    have hamount : leAt 8 8 (H ++ (A ++ writeSpends l)) = e.amount.toNat := by
      rw [leAt_append lH, toNat_mod_octets]
    have hdrop : (H ++ (A ++ writeSpends l)).drop 16 = writeSpends l := by
      rw [← List.append_assoc, List.drop_left' (by rw [List.length_append]; omega)]
    have hlong : ¬ (H ++ (A ++ writeSpends l)).length < 16 := by
      simp only [List.length_append]
      omega
    rw [List.length_cons, hcons, readSpends, if_neg hlong, hdrop, ih, hheight, hamount]
    simp only [Option.map_some, UInt64.ofNat_toNat]

/-- The network fund record survives storing, if its count fits its field. -/
theorem deserializeNetworkFund_serialize (s : NetworkFundState)
    (hs : s.recentSpends.length < 2 ^ 32) :
    deserializeNetworkFund (serializeNetworkFund s) = some s := by
  set B := leBytes 8 s.balance.toNat with hB
  set N := leBytes 4 s.recentSpends.length with hN
  have lB : B.length = 8 := leBytes_length _ _
  have lN : N.length = 4 := leBytes_length _ _
  have hser : serializeNetworkFund s = B ++ (N ++ writeSpends s.recentSpends) := rfl
  have hbal : leAt 8 0 (serializeNetworkFund s) = s.balance.toNat := by
    rw [hser, leAt_zero, toNat_mod_octets]
  have hcount : leAt 4 8 (serializeNetworkFund s) = s.recentSpends.length := by
    rw [hser, leAt_append lB 4 _ _, Nat.mod_eq_of_lt (by omega)]
  have hdrop : (serializeNetworkFund s).drop 12 = writeSpends s.recentSpends := by
    rw [hser, ← List.append_assoc, List.drop_left' (by rw [List.length_append]; omega)]
  have hlong : ¬ (serializeNetworkFund s).length < 12 := by
    rw [hser]
    simp only [List.length_append]
    omega
  rw [deserializeNetworkFund, if_neg hlong, hbal, hcount, hdrop, readSpends_writeSpends]
  simp only [Option.map_some, UInt64.ofNat_toNat]

/-! ### The stored properties -/

/-- The three properties of the database. -/
structure Properties where
  governanceState : Option Bytes
  networkFundState : Option Bytes
  /-- The text is what `std::to_string` gave. -/
  premineHeight : Option UInt64
deriving DecidableEq

/-- `load_governance_state` into a new record. -/
def loadGovernanceState (p : Properties) : Option GovernanceState :=
  match p.governanceState with
  | none => some genesisState.governance
  | some b => deserializeGovernance b

/-- `load_network_fund_state`. -/
def loadNetworkFundState (p : Properties) : Option NetworkFundState :=
  match p.networkFundState with
  | none => some genesisState.networkFund
  | some b => deserializeNetworkFund b

/-- `save_network_fund_state` stores the fund without the spends before the window. -/
def prunedFund (s : NetworkFundState) (height : UInt64) : NetworkFundState :=
  ⟨s.balance, spendsFrom (windowCutoff height) s.recentSpends⟩

/-- What `process_premine_actions` stores after it acted at a height. -/
def savedProperties (s : PremineState) (height : UInt64) : Properties :=
  ⟨some (serializeGovernance s.governance),
    some (serializeNetworkFund (prunedFund s.networkFund height)), some height⟩

end Mevacoin.Premine
