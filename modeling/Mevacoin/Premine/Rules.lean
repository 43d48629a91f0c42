import Mevacoin.Crypto
import Mevacoin.Premine.State

/-!
# The premine rules

The validators of `src/cryptonote_core/governance.cpp` and `network_fund.cpp`, with
`check_premine_spend` and `process_premine_actions` of `blockchain.cpp`.
-/

namespace Mevacoin.Premine

variable {crypto : Crypto} {h : Hash} {allowed : List PublicKey} {sigs : List GovernanceSignature}
  {s : GovernanceState}

open Lib

/-! ### Governance signatures -/

/-- The loop of `verify_governance_signatures`: every signer is allowed, new and right. -/
def countSignatures (crypto : Crypto) (txPrefixHash : Hash) (allowed : List PublicKey) :
    List GovernanceSignature → List PublicKey → UInt32 → Option UInt32
  | [], _, valid => some valid
  | gs :: sigs, seen, valid =>
    if gs.signerKey ∉ allowed then none
    else if gs.signerKey ∈ seen then none
    else if crypto.checkSignature txPrefixHash gs.signerKey gs.sig = false then none
    else countSignatures crypto txPrefixHash allowed sigs (gs.signerKey :: seen) (valid + 1)

/-- `verify_governance_signatures`. -/
def verifyGovernanceSignatures (crypto : Crypto) (txPrefixHash : Hash)
    (sigs : List GovernanceSignature) (allowed : List PublicKey) (threshold : UInt32) : Bool :=
  if sigs.length < threshold.toNat then false
  else
    match countSignatures crypto txPrefixHash allowed sigs [] 0 with
    | none => false
    | some valid => threshold ≤ valid

/-- Signatures that make up a quorum of `signers` over a hash. -/
structure Quorum (crypto : Crypto) (txPrefixHash : Hash) (signers : List PublicKey)
    (threshold : UInt32) (sigs : List GovernanceSignature) : Prop where
  enough : threshold.toNat ≤ sigs.length
  distinct : (sigs.map (·.signerKey)).Nodup
  allowed : ∀ gs ∈ sigs, gs.signerKey ∈ signers
  verify : ∀ gs ∈ sigs, crypto.checkSignature txPrefixHash gs.signerKey gs.sig = true

/-- What is counted is distinct, allowed and signed. -/
theorem countSignatures_sound {seen : List PublicKey} {valid n : UInt32}
    (hc : countSignatures crypto h allowed sigs seen valid = some n) :
    (sigs.map (·.signerKey)).Nodup ∧ (∀ gs ∈ sigs, gs.signerKey ∉ seen) ∧
      (∀ gs ∈ sigs, gs.signerKey ∈ allowed) ∧
      ∀ gs ∈ sigs, crypto.checkSignature h gs.signerKey gs.sig = true := by
  induction sigs generalizing seen valid with
  | nil => simp
  | cons gs sigs ih =>
    rw [countSignatures] at hc
    split_ifs at hc with hallowed hseen hsig
    obtain ⟨hnodup, hfresh, hall, hver⟩ := ih hc
    have hnew : ∀ g ∈ sigs, g.signerKey ≠ gs.signerKey ∧ g.signerKey ∉ seen := by
      intro g hg
      have := hfresh g hg
      rwa [List.mem_cons, not_or] at this
    refine ⟨?_, ?_, ?_, ?_⟩
    · rw [List.map_cons, List.nodup_cons]
      refine ⟨?_, hnodup⟩
      rintro hmem
      obtain ⟨g, hg, he⟩ := List.mem_map.1 hmem
      exact (hnew g hg).1 he
    · rintro g (_ | ⟨_, hg⟩)
      · exact hseen
      · exact (hnew g hg).2
    · rintro g (_ | ⟨_, hg⟩)
      · exact hallowed
      · exact hall g hg
    · rintro g (_ | ⟨_, hg⟩)
      · simpa using hsig
      · exact hver g hg

/-- **What the signature check establishes.** -/
theorem verifyGovernanceSignatures_sound {threshold : UInt32}
    (hv : verifyGovernanceSignatures crypto h sigs allowed threshold = true) :
    Quorum crypto h allowed threshold sigs := by
  unfold verifyGovernanceSignatures at hv
  split_ifs at hv with hlen
  cases hc : countSignatures crypto h allowed sigs [] 0 with
  | none => simp [hc] at hv
  | some n =>
    obtain ⟨hnodup, -, hall, hver⟩ := countSignatures_sound hc
    exact ⟨not_lt.1 hlen, hnodup, hall, hver⟩

/-! ### The validators -/

/-- `validate_governance_transfer`. -/
def validateGovernanceTransfer (crypto : Crypto) (s : GovernanceState) (t : GovernanceTransfer)
    (txPrefixHash : Hash) : Except String Unit :=
  if t.amount = 0 then .error "Governance transfer amount cannot be zero"
  else if s.balance < t.amount then
    .error ("Governance transfer " ++ toString t.amount ++ " exceeds remaining balance " ++
      toString s.balance)
  else if verifyGovernanceSignatures crypto txPrefixHash t.signatures s.signers s.threshold = false
  then .error "Governance transfer: invalid signatures"
  else .ok ()

/-- `validate_governance_add_signer`. -/
def validateGovernanceAddSigner (crypto : Crypto) (s : GovernanceState) (t : GovernanceAddSigner)
    (txPrefixHash : Hash) : Except String Unit :=
  if t.newSignerKey ∈ s.signers then .error "Governance add signer: key already exists"
  else if verifyGovernanceSignatures crypto txPrefixHash t.signatures s.signers s.threshold = false
  then .error "Governance add signer: invalid signatures"
  else .ok ()

/-- `(int)` of an index, in a message. -/
def intText (n : UInt64) : String := toString n.toUInt32.toInt32.toInt

/-- `validate_governance_remove_signer`. -/
def validateGovernanceRemoveSigner (crypto : Crypto) (s : GovernanceState)
    (t : GovernanceRemoveSigner) (txPrefixHash : Hash) : Except String Unit :=
  if s.signers.length ≤ t.signerIndex.toNat then
    .error ("Governance remove signer: index " ++ intText t.signerIndex ++ " out of range (0.." ++
      toString (UInt64.ofNat s.signers.length - 1) ++ ")")
  else if t.signerIndex.toNat < s.originalCount.toNat then
    .error ("Governance remove signer: cannot remove genesis signer at index " ++
      intText t.signerIndex)
  else if verifyGovernanceSignatures crypto txPrefixHash t.signatures s.signers s.threshold = false
  then .error "Governance remove signer: invalid signatures"
  else .ok ()

/-- `validate_network_fund_spend`; the sum of the window wraps. -/
def validateNetworkFundSpend (s : NetworkFundState) (amount currentHeight : UInt64) :
    Except String Unit :=
  let windowTotal := ((spendsFrom (windowCutoff currentHeight) s.recentSpends).map (·.amount)).sum
  if amount = 0 then .error "Network fund spend amount cannot be zero"
  else if s.balance < amount then
    .error ("Network fund spend " ++ toString amount ++ " exceeds remaining balance " ++
      toString s.balance)
  else if networkFundMonthlyLimit < windowTotal + amount then
    .error ("Network fund: spend " ++ toString amount ++
      " would exceed monthly limit. Window total: " ++ toString windowTotal ++ ", limit: " ++
      toString networkFundMonthlyLimit)
  else .ok ()

/-- A transfer has a quorum. -/
theorem validateGovernanceTransfer_quorum {t : GovernanceTransfer}
    (hv : validateGovernanceTransfer crypto s t h = .ok ()) :
    Quorum crypto h s.signers s.threshold t.signatures := by
  unfold validateGovernanceTransfer at hv
  split_ifs at hv with h1 h2 h3
  exact verifyGovernanceSignatures_sound (by simpa using h3)

/-- A new signer has a quorum. -/
theorem validateGovernanceAddSigner_quorum {t : GovernanceAddSigner}
    (hv : validateGovernanceAddSigner crypto s t h = .ok ()) :
    Quorum crypto h s.signers s.threshold t.signatures := by
  unfold validateGovernanceAddSigner at hv
  split_ifs at hv with h1 h2
  exact verifyGovernanceSignatures_sound (by simpa using h2)

/-- A removal has a quorum. -/
theorem validateGovernanceRemoveSigner_quorum {t : GovernanceRemoveSigner}
    (hv : validateGovernanceRemoveSigner crypto s t h = .ok ()) :
    Quorum crypto h s.signers s.threshold t.signatures := by
  unfold validateGovernanceRemoveSigner at hv
  split_ifs at hv with h1 h2 h3
  exact verifyGovernanceSignatures_sound (by simpa using h3)

/-! ### Fields and outputs of a transaction -/

/-- `transaction`: the prefix, and the signatures, which are opaque here. -/
structure FullTransaction extends Transaction where
  rctSignatures : Bytes := []
deriving DecidableEq

/-- What the vendored code and the keys of the genesis block supply. -/
structure Env where
  crypto : Crypto
  /-- `get_transaction_prefix_hash`. -/
  prefixHash : Transaction → Hash
  treasuryKImage : KeyImage
  networkKImage : KeyImage
  /-- `derive_owned_output` of an output for the governance address, with the key image and
  the amount that are then derived. -/
  ownedOutput : FullTransaction → ℕ → Option (KeyImage × UInt64)

namespace FullTransaction

/-- The fields `parse_tx_extra` leaves, whether or not it reports success. -/
def fields (tx : FullTransaction) : List TxExtraField := (parseTxExtra tx.extra).1

/-- What `parse_tx_extra` reports. -/
def parses (tx : FullTransaction) : Bool := (parseTxExtra tx.extra).2

/-- `find_tx_extra_field_by_type` for `tx_extra_governance_transfer`. -/
def governanceTransfer (tx : FullTransaction) : Option GovernanceTransfer :=
  tx.fields.findSome? fun | .governanceTransfer t => some t | _ => none

/-- `find_tx_extra_field_by_type` for `tx_extra_governance_add_signer`. -/
def governanceAddSigner (tx : FullTransaction) : Option GovernanceAddSigner :=
  tx.fields.findSome? fun | .governanceAddSigner t => some t | _ => none

/-- `find_tx_extra_field_by_type` for `tx_extra_governance_remove_signer`. -/
def governanceRemoveSigner (tx : FullTransaction) : Option GovernanceRemoveSigner :=
  tx.fields.findSome? fun | .governanceRemoveSigner t => some t | _ => none

/-- `find_tx_extra_field_by_type` for `tx_extra_network_fund_transfer`. -/
def networkFundTransfer (tx : FullTransaction) : Option NetworkFundTransfer :=
  tx.fields.findSome? fun | .networkFundTransfer t => some t | _ => none

/-- One of the three governance fields is there. -/
def hasGovernance (tx : FullTransaction) : Bool :=
  tx.governanceTransfer.isSome || tx.governanceAddSigner.isSome ||
    tx.governanceRemoveSigner.isSome

/-- `get_tx_pub_key_from_extra`. -/
def txPubKey (tx : FullTransaction) : PublicKey :=
  (tx.fields.findSome? fun | .pubKey k => some k | _ => none).getD Pod32.null

/-- The key images that a transaction spends. -/
def inputImages (tx : FullTransaction) : List KeyImage :=
  tx.vin.filterMap fun | .toKey _ _ k => some k | _ => none

end FullTransaction

/-- A governance field with its signatures set to zero. -/
def zeroSignatures : TxExtraField → TxExtraField
  | .governanceTransfer t => .governanceTransfer { t with signatures := t.signatures.map zero }
  | .governanceAddSigner t => .governanceAddSigner { t with signatures := t.signatures.map zero }
  | .governanceRemoveSigner t =>
    .governanceRemoveSigner { t with signatures := t.signatures.map zero }
  | f => f
where
  zero (gs : GovernanceSignature) : GovernanceSignature :=
    { gs with sig := ⟨Pod32.null, Pod32.null⟩ }

/-- The prefix hash of a transaction whose governance signatures are zeroed. -/
def zeroedPrefixHash (env : Env) (tx : FullTransaction) : Hash :=
  env.prefixHash { tx.toTransaction with
    extra := (tx.fields.map zeroSignatures).flatMap TxExtraField.write }

/-- The hash that signatures are over.  A field that does not parse to its end is hashed as it
is. -/
def signedHash (env : Env) (tx : FullTransaction) : Hash :=
  if tx.parses && tx.hasGovernance then zeroedPrefixHash env tx
  else env.prefixHash tx.toTransaction

/-- `governance_owned_outputs`: the images and the total of the outputs to the governance
address. -/
def governanceOwnedOutputs (env : Env) (tx : FullTransaction) : List KeyImage × UInt64 :=
  if tx.txPubKey = Pod32.null then ([], 0)
  else
    let owned := (List.range tx.vout.length).filterMap (env.ownedOutput tx)
    (owned.map Prod.fst, (owned.map Prod.snd).sum)

/-- One of the images is the treasury's or that of a recorded deposit. -/
def spendsGovernance (env : Env) (s : GovernanceState) (images : List KeyImage) : Bool :=
  images.any fun k => k = env.treasuryKImage || s.bondKeyImages.contains k

/-! ### Checking a transaction -/

/-- A check that is made only for a field that is there. -/
def checkField {α : Type} (what : String) (field : Option α) (check : α → Except String Unit) :
    Except String Unit :=
  match field with
  | none => .ok ()
  | some t => (check t).mapError fun err => what ++ " validation failed: " ++ err

/-- A check that is made only for a spend, which then needs the field. -/
def checkSpend {α : Type} (spends : Bool) (missing what : String) (field : Option α)
    (check : α → Except String Unit) : Except String Unit :=
  if spends = false then .ok ()
  else if field.isNone then .error missing
  else checkField what field check

/-- `check_premine_spend` with the state loaded; the error is `m_last_premine_fail_reason`. -/
def checkPremineSpend (env : Env) (s : PremineState) (tx : FullTransaction) (height : UInt64) :
    Except String Unit := do
  let hash := signedHash env tx
  checkSpend (spendsGovernance env s.governance tx.inputImages)
    "treasury output spent without governance_transfer tag (0xB0)"
    "governance transfer" tx.governanceTransfer fun t =>
      validateGovernanceTransfer env.crypto s.governance t hash
  checkSpend (tx.inputImages.contains env.networkKImage)
    "network fund spent without network_fund_transfer tag (0xC0)"
    "network fund spend" tx.networkFundTransfer fun t =>
      validateNetworkFundSpend s.networkFund t.amount height
  checkField "governance add signer" tx.governanceAddSigner fun t =>
    validateGovernanceAddSigner env.crypto s.governance t hash
  checkField "governance remove signer" tx.governanceRemoveSigner fun t =>
    validateGovernanceRemoveSigner env.crypto s.governance t hash

/-- A field is checked if present. -/
theorem checkField_ok_iff {α : Type} {what : String} {field : Option α}
    {check : α → Except String Unit} :
    checkField what field check = .ok () ↔ ∀ t, field = some t → check t = .ok () := by
  cases field with
  | none => simp [checkField]
  | some t => cases hc : check t <;> simp [checkField, hc, Except.mapError]

/-- A spend needs a field that passes. -/
theorem checkSpend_ok_iff {α : Type} {spends : Bool} {missing what : String} {field : Option α}
    {check : α → Except String Unit} :
    checkSpend spends missing what field check = .ok () ↔
      (spends = true → ∃ t, field = some t ∧ check t = .ok ()) := by
  cases spends with
  | false => simp [checkSpend]
  | true =>
    cases field with
    | none => simp [checkSpend]
    | some t => simp [checkSpend, checkField_ok_iff]

/-- Both checks pass. -/
theorem ok_seq_iff {a b : Except String Unit} :
    (a >>= fun _ => b) = .ok () ↔ a = .ok () ∧ b = .ok () := by
  cases a <;> simp [bind, Except.bind]

/-- **What the check establishes**, field by field. -/
theorem checkPremineSpend_ok_iff {env : Env} {s : PremineState} {tx : FullTransaction}
    {height : UInt64} :
    checkPremineSpend env s tx height = .ok () ↔
      (spendsGovernance env s.governance tx.inputImages = true → ∃ t,
        tx.governanceTransfer = some t ∧
          validateGovernanceTransfer env.crypto s.governance t (signedHash env tx) = .ok ()) ∧
      (tx.inputImages.contains env.networkKImage = true → ∃ t, tx.networkFundTransfer = some t ∧
        validateNetworkFundSpend s.networkFund t.amount height = .ok ()) ∧
      (∀ t, tx.governanceAddSigner = some t →
        validateGovernanceAddSigner env.crypto s.governance t (signedHash env tx) = .ok ()) ∧
      ∀ t, tx.governanceRemoveSigner = some t →
        validateGovernanceRemoveSigner env.crypto s.governance t (signedHash env tx) = .ok () := by
  rw [checkPremineSpend, ok_seq_iff, ok_seq_iff, ok_seq_iff, checkSpend_ok_iff, checkSpend_ok_iff,
    checkField_ok_iff, checkField_ok_iff]

/-! ### Processing a transaction -/

/-- What a transaction does to the state. -/
inductive Effect where
  /-- Outputs to the governance address, with what the transaction spends. -/
  | deposit (spent images : List KeyImage) (total : UInt64)
  | transfer (amount : UInt64)
  | addSigner (key : PublicKey)
  | removeSigner (index : UInt64)
  | networkSpend (height amount : UInt64)
deriving DecidableEq

/-- The images with new ones appended. -/
def addImages (known new : List KeyImage) : List KeyImage :=
  new.foldl (fun l k => if l.contains k then l else l ++ [k]) known

/-- One effect; `none` is the `return false` of its check. -/
def Effect.apply (env : Env) (s : PremineState) : Effect → Option PremineState
  | .deposit spent images total =>
    -- the change of a treasury spend is in the balance already
    some { s with governance := { s.governance with
      bondKeyImages := addImages s.governance.bondKeyImages images
      balance :=
        if spendsGovernance env s.governance spent then s.governance.balance
        else s.governance.balance + total } }
  | .transfer amount =>
    if s.governance.balance < amount then none
    else some { s with
      governance := { s.governance with balance := s.governance.balance - amount } }
  | .addSigner key =>
    some { s with governance := { s.governance with signers := s.governance.signers ++ [key] } }
  | .removeSigner index =>
    if index.toNat < s.governance.originalCount.toNat then none
    else some { s with governance := { s.governance with
      signers := s.governance.signers.eraseIdx index.toNat } }
  | .networkSpend height amount =>
    if s.networkFund.balance < amount then none
    else some { s with networkFund :=
      ⟨s.networkFund.balance - amount,
        spendsFrom (windowCutoff height) (s.networkFund.recentSpends ++ [⟨height, amount⟩])⟩ }

/-- The effects of a transaction, in the order in which they are tried. -/
def effects (env : Env) (tx : FullTransaction) (height : UInt64) : List Effect :=
  let owned := governanceOwnedOutputs env tx
  (if owned.1 = [] then [] else [.deposit tx.inputImages owned.1 owned.2]) ++
    (tx.governanceTransfer.toList.map (.transfer ·.amount) ++
    (tx.governanceAddSigner.toList.map (.addSigner ·.newSignerKey) ++
    (tx.governanceRemoveSigner.toList.map (.removeSigner ·.signerIndex) ++
    tx.networkFundTransfer.toList.map (.networkSpend height ·.amount))))

/-- Apply effects until one fails. -/
def runEffects (env : Env) : List Effect → PremineState → PremineState × Bool
  | [], s => (s, true)
  | e :: es, s =>
    match e.apply env s with
    | none => (s, false)
    | some s' => runEffects env es s'

/-- `process_premine_actions` in memory: the state it leaves, and its result. -/
def processPremineActions (env : Env) (s : PremineState) (tx : FullTransaction) (height : UInt64) :
    PremineState × Bool :=
  runEffects env (effects env tx height) s

/-- `acted`. -/
def acts (env : Env) (tx : FullTransaction) : Bool :=
  !(governanceOwnedOutputs env tx).1.isEmpty || tx.hasGovernance || tx.networkFundTransfer.isSome

end Mevacoin.Premine
