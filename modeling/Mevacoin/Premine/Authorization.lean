import Mevacoin.Lib.Machine
import Mevacoin.Premine.Effects
import Mevacoin.Premine.Node
import Mevacoin.Template

/-!
# Who may change the signers and spend the treasury

`check_premine_spend` looks at signatures in an earlier pass and against the state before the block.
-/

namespace Mevacoin.Premine

open Lib

/-- A call of `process_premine_actions`: the state before it, and its arguments. -/
structure Call where
  before : PremineState
  tx : FullTransaction
  height : UInt64

/-- In the course of a call the effect `e` takes the state from `a` to `b`. -/
def Call.Performs (env : Env) (c : Call) (e : Effect) (a b : PremineState) : Prop :=
  ∃ pre post, effects env c.tx c.height = pre ++ e :: post ∧
    runEffects env pre c.before = (a, true) ∧ e.apply env a = some b

/-- Signatures of a quorum of the signers before the call, over the transaction. -/
def Call.Backs (env : Env) (c : Call) (sigs : List GovernanceSignature) : Prop :=
  Quorum env.crypto (zeroedPrefixHash env c.tx) c.before.governance.signers
    c.before.governance.threshold sigs

/-- Every added signer is backed by a `0xB1` field, every removed one by a `0xB2` field and every
decrease of the balance by a `0xB0` field. -/
def Call.Authorized (env : Env) (c : Call) : Prop :=
  ∀ e a b, c.Performs env e a b →
    (a.governance.signers.length < b.governance.signers.length →
      ∃ t, TxExtraField.governanceAddSigner t ∈ c.tx.fields ∧ c.Backs env t.signatures) ∧
    (b.governance.signers.length < a.governance.signers.length →
      ∃ t, TxExtraField.governanceRemoveSigner t ∈ c.tx.fields ∧ c.Backs env t.signatures) ∧
    (b.governance.balance < a.governance.balance →
      ∃ t, TxExtraField.governanceTransfer t ∈ c.tx.fields ∧ c.Backs env t.signatures)

/-! ### The calls of a node -/

/-- The calls that `processTxs` makes. -/
def callsOf (env : Env) (height : UInt64) : List FullTransaction → Node → List Call
  | [], _ => []
  | tx :: txs, n =>
    ⟨n.premine, tx, height⟩ ::
      match processTx env n tx height with
      | (n', true) => callsOf env height txs n'
      | (_, false) => []

/-- The calls that `handleBlock` makes. -/
def blockCalls (env : Env) (n : Node) (d : Delivery) : List Call :=
  if reachesPremine env n d && n.initialized then
    callsOf env n.dbHeight (d.block.minerTx :: (d.block.txs.filter (·.full)).map (·.tx)) n
  else []

/-- A node that is handed blocks, with the calls it makes. -/
def blockMachine (env : Env) : Machine Node Delivery Call where
  step n d := ((handleBlock env n d).1, blockCalls env n d)

/-! ### One call -/

/-- The check was made for a transaction in the state `s₀` and looked at its `0xB0` field, if
any. -/
structure Vouched (env : Env) (s₀ : PremineState) (tx : FullTransaction) : Prop where
  checked : ∃ height, checkPremineSpend env s₀ tx height = .ok ()
  parses : tx.parses = true
  spends : tx.governanceTransfer.isSome →
    spendsGovernance env s₀.governance tx.inputImages = true

/-- A quorum stays one when signers are added. -/
theorem Quorum.mono {crypto : Crypto} {h : Hash} {signers signers' : List PublicKey}
    {threshold : UInt32} {sigs : List GovernanceSignature}
    (hq : Quorum crypto h signers threshold sigs) (hsub : signers ⊆ signers') :
    Quorum crypto h signers' threshold sigs :=
  ⟨hq.enough, hq.distinct, fun gs hgs => hsub (hq.allowed gs hgs), hq.verify⟩

section

variable {env : Env} {s₀ : PremineState} {c : Call}

/-- What was checked against `s₀` backs a call that finds the signers of `s₀` still there. -/
theorem Call.backs_of_quorum {sigs : List GovernanceSignature}
    (hgov : c.tx.hasGovernance = true) (hparse : c.tx.parses = true)
    (hsub : s₀.governance.signers ⊆ c.before.governance.signers)
    (hthr : c.before.governance.threshold = s₀.governance.threshold)
    (hq : Quorum env.crypto (signedHash env c.tx) s₀.governance.signers s₀.governance.threshold
      sigs) : c.Backs env sigs := by
  rw [signedHash, hparse, hgov, Bool.and_self] at hq
  rw [Call.Backs, hthr]
  exact hq.mono hsub

/-- **A vouched-for call is authorized.** -/
theorem Call.authorized_of_vouched (hvouch : c.tx.hasGovernance = true →
      Vouched env s₀ c.tx ∧ s₀.governance.signers ⊆ c.before.governance.signers)
    (hthr : c.before.governance.threshold = s₀.governance.threshold)
    (hwrap : c.before.governance.balance.toNat + (governanceOwnedOutputs env c.tx).2.toNat <
      2 ^ 64) : c.Authorized env := by
  rintro e a b ⟨pre, post, heff, hpre, hab⟩
  have hmem : e ∈ effects env c.tx c.height := by
    rw [heff]
    exact List.mem_append_right _ (List.mem_cons_self ..)
  rcases mem_effects hmem with rfl | hfield
  · -- a deposit changes no signer, and it does not wrap
    obtain ⟨rfl, -⟩ := deposit_first heff
    obtain rfl : c.before = a := congrArg Prod.fst hpre
    obtain rfl := Option.some.inj hab
    refine ⟨fun h => absurd h (lt_irrefl _), fun h => absurd h (lt_irrefl _), fun h => ?_⟩
    refine absurd h (UInt64.not_lt.2 ?_)
    split_ifs
    · exact UInt64.le_refl _
    · rw [UInt64.le_iff_toNat_le, UInt64.toNat_add, Nat.mod_eq_of_lt hwrap]
      exact Nat.le_add_right ..
  obtain ⟨t, ht, rfl⟩ | ⟨t, ht, rfl⟩ | ⟨t, ht, rfl⟩ | ⟨t, ht, rfl⟩ := mem_fieldEffects.1 hfield
  · have hgov : c.tx.hasGovernance = true :=
      FullTransaction.hasGovernance_iff.2 (Or.inl (by rw [ht]; rfl))
    obtain ⟨hv, hsub⟩ := hvouch hgov
    obtain ⟨height, hok⟩ := hv.checked
    obtain ⟨t', ht', hval⟩ := (checkPremineSpend_ok_iff.1 hok).1 (hv.spends (by rw [ht]; rfl))
    obtain rfl : t' = t := Option.some.inj (ht'.symm.trans ht)
    have hback := Call.backs_of_quorum hgov hv.parses hsub hthr
      (validateGovernanceTransfer_quorum hval)
    simp only [Effect.apply] at hab
    split_ifs at hab
    obtain rfl := Option.some.inj hab
    exact ⟨fun h => absurd h (lt_irrefl _), fun h => absurd h (lt_irrefl _),
      fun _ => ⟨t', FullTransaction.governanceTransfer_mem ht, hback⟩⟩
  · have hgov : c.tx.hasGovernance = true :=
      FullTransaction.hasGovernance_iff.2 (Or.inr (Or.inl (by rw [ht]; rfl)))
    obtain ⟨hv, hsub⟩ := hvouch hgov
    obtain ⟨height, hok⟩ := hv.checked
    have hback := Call.backs_of_quorum hgov hv.parses hsub hthr
      (validateGovernanceAddSigner_quorum ((checkPremineSpend_ok_iff.1 hok).2.2.1 t ht))
    obtain rfl := Option.some.inj hab
    refine ⟨fun _ => ⟨t, FullTransaction.governanceAddSigner_mem ht, hback⟩, fun h => ?_,
      fun h => absurd h (UInt64.lt_irrefl _)⟩
    rw [List.length_append] at h
    omega
  · have hgov : c.tx.hasGovernance = true :=
      FullTransaction.hasGovernance_iff.2 (Or.inr (Or.inr (by rw [ht]; rfl)))
    obtain ⟨hv, hsub⟩ := hvouch hgov
    obtain ⟨height, hok⟩ := hv.checked
    have hback := Call.backs_of_quorum hgov hv.parses hsub hthr
      (validateGovernanceRemoveSigner_quorum ((checkPremineSpend_ok_iff.1 hok).2.2.2 t ht))
    simp only [Effect.apply] at hab
    split_ifs at hab
    obtain rfl := Option.some.inj hab
    refine ⟨fun h => ?_, fun _ => ⟨t, FullTransaction.governanceRemoveSigner_mem ht, hback⟩,
      fun h => absurd h (UInt64.lt_irrefl _)⟩
    exact absurd h (not_lt.2 (List.length_eraseIdx_le ..))
  · simp only [Effect.apply] at hab
    split_ifs at hab
    obtain rfl := Option.some.inj hab
    exact ⟨fun h => absurd h (lt_irrefl _), fun h => absurd h (lt_irrefl _),
      fun h => absurd h (UInt64.lt_irrefl _)⟩

/-! ### The calls of one block -/

/-- The amount that a transaction deposits. -/
def depositOf (env : Env) (tx : FullTransaction) : ℕ := (governanceOwnedOutputs env tx).2.toNat

theorem processTx_of_initialized (env : Env) {n : Node} (h : n.initialized = true)
    (tx : FullTransaction) (height : UInt64) :
    (processTx env n tx height).1.initialized = true ∧
      (processTx env n tx height).1.premine =
        (processPremineActions env n.premine tx height).1 := by
  rw [processTx, h]
  exact ⟨rfl, rfl⟩

/-- **The calls of a block are authorized** if its transactions are vouched for and no governance
action follows the removal of a signer. -/
theorem callsOf_authorized {height : UInt64} {txs : List FullTransaction} {n : Node}
    (hinit : n.initialized = true)
    (hthr : n.premine.governance.threshold = s₀.governance.threshold)
    (hvouch : ∀ tx ∈ txs, tx.hasGovernance = true →
      Vouched env s₀ tx ∧ s₀.governance.signers ⊆ n.premine.governance.signers)
    (horder : txs.Pairwise fun t u => u.hasGovernance = true → t.governanceRemoveSigner = none)
    (hwrap : n.premine.governance.balance.toNat + (txs.map (depositOf env)).sum < 2 ^ 64) :
    ∀ c ∈ callsOf env height txs n, c.Authorized env := by
  induction txs generalizing n with
  | nil => simp [callsOf]
  | cons tx txs ih =>
    obtain ⟨hlater, horder⟩ := List.pairwise_cons.1 horder
    rw [List.map_cons, List.sum_cons] at hwrap
    have hdeposit : n.premine.governance.balance.toNat + (governanceOwnedOutputs env tx).2.toNat <
        2 ^ 64 := by
      rw [depositOf] at hwrap
      omega
    obtain ⟨hinit', hpremine⟩ := processTx_of_initialized env hinit tx height
    intro c hc
    rw [callsOf, List.mem_cons] at hc
    rcases hc with rfl | hc
    · exact Call.authorized_of_vouched (hvouch tx (List.mem_cons_self ..)) hthr hdeposit
    · cases hr : processTx env n tx height with
      | mk n' ok =>
        rw [hr] at hc hinit' hpremine
        cases ok with
        | false => simp at hc
        | true =>
          refine ih hinit' ?_ ?_ horder ?_ c hc
          · rw [hpremine, processPremineActions_threshold, hthr]
          · intro u hu hgov
            obtain ⟨hv, hsub⟩ := hvouch u (List.mem_cons_of_mem _ hu) hgov
            refine ⟨hv, List.Subset.trans hsub ?_⟩
            rw [hpremine]
            exact processPremineActions_signers_subset (hlater u hu hgov)
          · rw [hpremine]
            have := processPremineActions_balance_le height hdeposit
            rw [depositOf] at hwrap
            omega

end

/-! ### Runs -/

/-- What has to hold of a block and the state it meets: no governance field in the coinbase; one
elsewhere is checked, in an extra field that parses to the end, and with a `0xB0` field the
transaction spends the treasury; none follows the removal of a signer; the deposits fit the
balance. -/
structure Screened (env : Env) (n : Node) (d : Delivery) : Prop where
  coinbase : d.block.minerTx.hasGovernance = false
  checked : ∀ t ∈ d.block.txs, t.tx.hasGovernance = true →
    d.fastCheck = false ∧ d.inputsVerified t.tx = false
  parses : ∀ t ∈ d.block.txs, t.tx.hasGovernance = true → t.tx.parses = true
  spends : ∀ t ∈ d.block.txs, t.tx.governanceTransfer.isSome →
    spendsGovernance env n.premine.governance t.tx.inputImages = true
  order : d.block.allTxs.Pairwise fun t u =>
    u.hasGovernance = true → t.governanceRemoveSigner = none
  deposits : n.premine.governance.balance.toNat + (d.block.allTxs.map (depositOf env)).sum < 2 ^ 64

/-- The transactions that are processed are among those of the block. -/
theorem processed_sublist (b : ChainBlock) :
    (b.minerTx :: (b.txs.filter (·.full)).map (·.tx)).Sublist b.allTxs :=
  ((List.filter_sublist (p := StoredTx.full)).map _).cons_cons _

/-- A transaction of a block that is stored was checked, if the check was not skipped. -/
theorem checked_of_reachesPremine {env : Env} {n : Node} {d : Delivery} {t : StoredTx}
    (h : reachesPremine env n d = true) (hinit : n.initialized = true)
    (hfast : d.fastCheck = false) (ht : t ∈ d.block.txs) (hver : d.inputsVerified t.tx = false) :
    checkPremineSpend env n.premine t.tx (n.dbHeight - 1) = .ok () := by
  simp only [reachesPremine, checkBlock, hinit, hfast, Bool.and_eq_true, Bool.or_false,
    List.all_eq_true, Bool.or_eq_true] at h
  have hok := h.1.2
  simp only [decide_eq_true_eq, Bool.true_eq_false, false_or] at hok
  have hcheck := (hok t ht).resolve_left (by simp [hver])
  cases hr : checkPremineSpend env n.premine t.tx (n.dbHeight - 1) with
  | ok u => rfl
  | error e => simp [hr, Except.toBool] at hcheck

/-- **One block**: the calls for a screened block are authorized. -/
theorem blockCalls_authorized {env : Env} {n : Node} {d : Delivery} (h : Screened env n d) :
    ∀ c ∈ blockCalls env n d, c.Authorized env := by
  intro c hc
  rw [blockCalls] at hc
  split_ifs at hc with hreach
  · obtain ⟨hreach, hinit⟩ := Bool.and_eq_true _ _ ▸ hreach
    have hsub := processed_sublist d.block
    refine callsOf_authorized hinit (rfl : _ = n.premine.governance.threshold) ?_
      (h.order.sublist hsub) ?_ c hc
    · intro tx htx hgov
      refine ⟨?_, List.Subset.refl _⟩
      rcases List.mem_cons.1 htx with rfl | htx
      · rw [h.coinbase] at hgov
        cases hgov
      · obtain ⟨t, ht, rfl⟩ := List.mem_map.1 htx
        have ht := (List.mem_filter.1 ht).1
        obtain ⟨hfast, hver⟩ := h.checked t ht hgov
        exact ⟨⟨_, checked_of_reachesPremine hreach hinit hfast ht hver⟩, h.parses t ht hgov,
          h.spends t ht⟩
    · have hle : _ ≤ (d.block.allTxs.map (depositOf env)).sum :=
        (hsub.map (depositOf env)).sum_le_sum fun _ _ => Nat.zero_le _
      exact lt_of_le_of_lt (Nat.add_le_add_left hle _) h.deposits
  · simp at hc

/-- All calls made so far are authorized. -/
def CallsAuthorized (env : Env) (_ : Node) (calls : List Call) : Prop :=
  ∀ c ∈ calls, c.Authorized env

theorem callsAuthorized_nil (env : Env) (n : Node) : CallsAuthorized env n [] := by
  simp [CallsAuthorized]

theorem callsAuthorized_step {env : Env} (n : Node) (calls : List Call) (d : Delivery)
    (h : CallsAuthorized env n calls) (hd : Screened env n d) :
    CallsAuthorized env ((blockMachine env).step n d).1
      (calls ++ ((blockMachine env).step n d).2) := by
  intro c hc
  rcases List.mem_append.1 hc with hc | hc
  · exact h c hc
  · exact blockCalls_authorized hd c hc

/-- **Governance is authorized in every run of screened blocks.** -/
theorem governance_authorized (env : Env) (ds : List Delivery)
    (h : (blockMachine env).Guarded (Screened env) freshNode ds) :
    ∀ c ∈ ((blockMachine env).run freshNode ds).2, c.Authorized env :=
  (blockMachine env).run_invariant (callsAuthorized_nil env freshNode) callsAuthorized_step h

/-- The signed addition is processed and authorized. -/
theorem addSignerBlock_authorized :
    ((blockMachine openEnv).run freshNode [addSignerBlock]).1.premine.governance.signers.length =
        4 ∧
      ∀ c ∈ ((blockMachine openEnv).run freshNode [addSignerBlock]).2, c.Authorized openEnv := by
  refine ⟨by decide +kernel, governance_authorized openEnv _ ⟨?_, trivial⟩⟩
  refine ⟨?_, ?_, ?_, ?_, ?_, ?_⟩
  · decide +kernel
  · decide +kernel
  · decide +kernel
  · decide +kernel
  · decide +kernel
  · decide +kernel

/-- A request for block 1 whose coinbase ends with a `0xB0` field without signatures. -/
def transferRequest : TemplateRequest :=
  { sampleRequest 0 1000 with
    tip := { (sampleRequest 0 1000).tip with height := 1 }
    stateRootExtra :=
      (TxExtraField.governanceTransfer ⟨1, Pod32.null, Pod32.null, []⟩).write }

/-- The block with such a coinbase. -/
def transferBlock : Option Block :=
  (createBlockTemplate Trust.sampleEnv none transferRequest).map (·.block)

/-- A call whose only effect takes from the treasury needs a field with enough signatures. -/
theorem Call.not_authorized_of_transfer {env : Env} {c : Call}
    (heff : effects env c.tx c.height = [.transfer 1]) (hbal : 1 ≤ c.before.governance.balance)
    (hsigs : ∀ t, TxExtraField.governanceTransfer t ∈ c.tx.fields →
      t.signatures.length < c.before.governance.threshold.toNat) : ¬ c.Authorized env := by
  intro h
  have hpos : ¬ c.before.governance.balance < 1 := UInt64.not_lt.2 hbal
  have happly : (Effect.transfer 1).apply env c.before = some { c.before with
      governance := { c.before.governance with balance := c.before.governance.balance - 1 } } := by
    rw [Effect.apply, if_neg hpos]
  have hlt : c.before.governance.balance - 1 < c.before.governance.balance := by
    rw [UInt64.lt_iff_toNat_lt, UInt64.toNat_sub_of_le _ _ hbal]
    have := UInt64.le_iff_toNat_le.1 hbal
    have hone : (1 : UInt64).toNat = 1 := rfl
    omega
  obtain ⟨t, ht, hback⟩ := (h _ _ _ ⟨[], [], heff, rfl, happly⟩).2.2 hlt
  exact absurd hback.enough (not_le.2 (hsigs t ht))

/-- A transfer with at most one signature, if it is one. -/
def fewSignatures : TxExtraField → Bool
  | .governanceTransfer t => t.signatures.length < 2
  | _ => true

/-- **A coinbase takes from the treasury** without a signature, and its block is accepted. -/
theorem coinbaseTransfer_unauthorized :
    ∃ b : Block, transferBlock = some b ∧
      validateMinerTransaction ℚ Trust.sampleEnv (Trust.uptimeState []) (fun _ => Pod32.single 50)
        transferRequest.tip b (1000 + coinbaseWeight b.minerTx) 0 = true ∧
      (connect openEnv [{ block := { minerTx := { toTransaction := b.minerTx } } }]
        freshNode).2 = true ∧
      ∃ c ∈ ((blockMachine openEnv).run freshNode
        [{ block := { minerTx := { toTransaction := b.minerTx } } }]).2,
        ¬ c.Authorized openEnv := by
  have hrun : (transferBlock.any fun b =>
      validateMinerTransaction ℚ Trust.sampleEnv (Trust.uptimeState []) (fun _ => Pod32.single 50)
        transferRequest.tip b (1000 + coinbaseWeight b.minerTx) 0 &&
      (connect openEnv [{ block := { minerTx := { toTransaction := b.minerTx } } }]
        freshNode).2 &&
      (parseTxExtra b.minerTx.extra).1.all fewSignatures &&
      decide (effects openEnv { toTransaction := b.minerTx } 1 = [.transfer 1])) = true := by
    decide +kernel
  obtain ⟨b, hb, hfacts⟩ := (Option.any_eq_true _ _).1 hrun
  simp only [Bool.and_eq_true, decide_eq_true_eq] at hfacts
  obtain ⟨⟨⟨hvalid, haccepted⟩, hfields⟩, heff⟩ := hfacts
  refine ⟨b, hb, hvalid, haccepted, ⟨genesisState, { toTransaction := b.minerTx }, 1⟩,
    List.mem_cons_self .., Call.not_authorized_of_transfer heff ?_ ?_⟩
  · show 1 ≤ genesisState.governance.balance
    decide
  · intro t ht
    exact of_decide_eq_true (List.all_eq_true.1 hfields _ ht)

end Mevacoin.Premine
