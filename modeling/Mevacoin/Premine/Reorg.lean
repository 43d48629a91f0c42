import Mevacoin.Lib.Machine
import Mevacoin.Premine.ChainState

/-!
# Blocks, reorganisations and restarts

The four paths of `src/cryptonote_core/blockchain.cpp` that keep the premine state: a new block, a
replay, a stored state, and the genesis state.
-/

namespace Mevacoin.Premine

open Lib

/-- What can happen to a node. -/
inductive Op where
  | block (d : Delivery)
  | popBlock
  | popBlocks (nblocks : ℕ)
  | switchTo (altChain : List Delivery) (keep : ℕ) (again : ChainBlock → Delivery)
  | rollback (originalChain : List Delivery) (keep : ℕ)
  | restart

/-- What it does to the node. -/
def Op.run (env : Env) (n : Node) : Op → Node
  | .block d => (handleBlock env n d).1
  | .popBlock => Premine.popBlock n
  | .popBlocks nblocks => Premine.popBlocks env n nblocks
  | .switchTo altChain keep again => (switchToAlternativeBlockchain env n altChain keep again).1
  | .rollback originalChain keep => (rollbackBlockchainSwitching env n originalChain keep).1
  | .restart => (initPremineState env n).1

/-- A node and what happens to it. -/
def chainMachine (env : Env) : Machine Node Op Empty where
  step n op := (op.run env n, [])

/-! ### The steps that the paths are right for -/

/-- If a block is stored, its transactions can be read back and processed, and the chain stays
below `2 ^ 64` blocks. -/
def Clean (env : Env) (n : Node) (d : Delivery) : Prop :=
  reachesPremine env n d = true →
    (∀ t ∈ d.block.txs, t.full = true) ∧ n.blocks.length + 2 < 2 ^ 64 ∧
      txsOk env n.dbHeight d.block.allTxs n.premine = true
deriving Decidable

/-- Blocks that are added one after another, until one is refused. -/
def CleanAll (env : Env) : List Delivery → Node → Prop
  | [], _ => True
  | d :: ds, n =>
    Clean env n d ∧ ((handleBlock env n d).2 = true → CleanAll env ds (handleBlock env n d).1)

/-- If no block above the genesis block is kept, the state is the genesis state already. -/
def Resettable (n : Node) (keep : ℕ) : Prop := n.blocks.take keep = [] → n.premine = genesisState
deriving Decidable

/-- The counts fit the fields in which they are stored. -/
def Storable (s : PremineState) : Prop :=
  s.governance.signers.length < 2 ^ 32 ∧ s.governance.bondKeyImages.length < 2 ^ 32 ∧
    s.networkFund.recentSpends.length < 2 ^ 32
deriving Decidable

/-- A start is right after a block that acts, or if none acts and nothing is stored for the tip. -/
def Restartable (env : Env) (n : Node) : Prop :=
  (n.blocks ≠ [] ∧ lastActing env n.blocks = n.blocks.length ∧ Storable n.premine) ∨
    lastActing env n.blocks = 0 ∧ n.properties.premineHeight ≠ some (n.dbHeight - 1)
deriving Decidable

/-- The steps that keep the state of a node the one its chain stands for. -/
def Followed (env : Env) (n : Node) : Op → Prop
  | .block d => Clean env n d
  | .popBlock => ∀ b ∈ n.blocks.getLast?, blockActs env b = false
  | .popBlocks nblocks => Resettable n (n.blocks.length - nblocks)
  | .switchTo altChain keep again =>
    altChain ≠ [] → keep ≤ n.blocks.length →
      Resettable n keep ∧ CleanAll env altChain (truncate env n keep) ∧
        let failed := (connect env altChain (truncate env n keep)).1
        ((connect env altChain (truncate env n keep)).2 = false →
          Resettable failed keep ∧
            CleanAll env ((n.blocks.drop keep).map fun b => { again b with block := b })
              (truncate env failed keep))
  | .rollback originalChain keep =>
    keep ≤ n.blocks.length →
      Resettable n keep ∧ CleanAll env originalChain (truncate env n keep)
  | .restart => Restartable env n

instance decidableCleanAll (env : Env) : ∀ ds n, Decidable (CleanAll env ds n)
  | [], _ => inferInstanceAs (Decidable True)
  | d :: ds, n =>
    have := decidableCleanAll env ds (handleBlock env n d).1
    inferInstanceAs (Decidable (Clean env n d ∧ (_ → CleanAll env ds (handleBlock env n d).1)))

instance (env : Env) (n : Node) (op : Op) : Decidable (Followed env n op) := by
  cases op <;> (unfold Followed; infer_instance)

/-! ### The invariant -/

/-- A node whose state and whose stored properties are those of its chain. -/
structure Synced (env : Env) (n : Node) : Prop where
  initialized : n.initialized = true
  short : n.blocks.length + 1 < 2 ^ 64
  full : ∀ b ∈ n.blocks, ∀ t ∈ b.txs, t.full = true
  ok : chainOk env n.blocks = true
  agree : Agree (windowCutoff (UInt64.ofNat (lastActing env n.blocks))) n.premine
    (chainState env n.blocks)
  stored : n.properties = propertiesOf env n.blocks n.properties

theorem synced_freshNode (env : Env) : Synced env freshNode :=
  ⟨rfl, by decide, by simp [freshNode], rfl, Agree.refl _ _, rfl⟩

section

variable {env : Env} {n : Node}

theorem ofNat_le_ofNat {a b : ℕ} (hab : a ≤ b) (hb : b < 2 ^ 64) :
    UInt64.ofNat a ≤ UInt64.ofNat b := by
  rw [UInt64.le_iff_toNat_le, UInt64.toNat_ofNat_of_lt' (lt_of_le_of_lt hab hb),
    UInt64.toNat_ofNat_of_lt' hb]
  exact hab

/-- The window of the last acting block starts no later than that of a higher block. -/
theorem cutoff_lastActing_le {blocks : List ChainBlock} {k : ℕ} (hk : blocks.length ≤ k)
    (hlt : k < 2 ^ 64) :
    windowCutoff (UInt64.ofNat (lastActing env blocks)) ≤ windowCutoff (UInt64.ofNat k) :=
  windowCutoff_mono (ofNat_le_ofNat ((lastActing_le blocks).trans hk) hlt)

/-- A clean block that is stored is processed like the fold. -/
theorem handleBlock_eq {d : Delivery} (hinit : n.initialized = true)
    (hreach : reachesPremine env n d = true) (hclean : Clean env n d) :
    handleBlock env n d =
      ({ n with
        blocks := n.blocks ++ [d.block]
        premine := foldTxs env n.dbHeight d.block.allTxs n.premine
        properties := propertiesAfter env n.dbHeight d.block.allTxs n.premine n.properties },
        true) := by
  obtain ⟨hfull, -, hok⟩ := hclean hreach
  have hall : d.block.minerTx :: (d.block.txs.filter (·.full)).map (·.tx) = d.block.allTxs := by
    rw [List.filter_eq_self.2 hfull, ChainBlock.allTxs]
  rw [handleBlock, if_pos hreach]
  dsimp only
  rw [hall, processTxs_eq (n := { n with blocks := n.blocks ++ [d.block] }) hinit hok]

/-- **A clean block keeps a node in step with its chain.** -/
theorem synced_handleBlock (h : Synced env n) {d : Delivery} (hclean : Clean env n d) :
    Synced env (handleBlock env n d).1 := by
  cases hreach : reachesPremine env n d with
  | false =>
    rw [handleBlock, hreach]
    exact h
  | true =>
    obtain ⟨hfull, hshort, hok⟩ := hclean hreach
    rw [handleBlock_eq h.initialized hreach hclean]
    have hcut : windowCutoff (UInt64.ofNat (lastActing env n.blocks)) ≤ windowCutoff n.dbHeight :=
      cutoff_lastActing_le (Nat.le_succ _) (by omega)
    obtain ⟨hagree, hoks⟩ := foldTxs_agree d.block.allTxs hcut h.agree
    refine ⟨h.initialized, ?_, ?_, ?_, ?_, ?_⟩
    · simp only [List.length_append]
      omega
    · intro b hb
      rcases List.mem_append.1 hb with hb | hb
      · exact h.full b hb
      · rw [List.mem_singleton.1 hb]
        exact hfull
    · rw [chainOk_snoc, h.ok]
      rw [hok] at hoks
      exact hoks.symm
    · rw [chainState_snoc, lastActing_snoc]
      split_ifs
      · exact hagree.mono hcut
      · exact hagree
    · rw [propertiesOf_snoc, propertiesAfter, propertiesAfter]
      split_ifs with hact
      · exact (hagree.mono hcut).savedProperties_eq
      · rw [← h.stored]

theorem synced_connect {ds : List Delivery} (h : Synced env n) (hclean : CleanAll env ds n) :
    Synced env (connect env ds n).1 := by
  induction ds generalizing n with
  | nil => exact h
  | cons d ds ih =>
    have hstep := synced_handleBlock h hclean.1
    have hrest := hclean.2
    rw [connect]
    cases hr : handleBlock env n d with
    | mk n' ok =>
      rw [hr] at hstep hrest
      cases ok with
      | false => exact hstep
      | true => exact ih hstep (hrest rfl)

/-- **Replaying what is left of a chain.** -/
theorem synced_truncate (h : Synced env n) {keep : ℕ} (hreset : Resettable n keep) :
    Synced env (truncate env n keep) := by
  have hshort : (n.blocks.take keep).length + 1 < 2 ^ 64 := by
    have := h.short
    have := List.length_take_le' keep n.blocks
    omega
  have hfull : ∀ b ∈ n.blocks.take keep, ∀ t ∈ b.txs, t.full = true :=
    fun b hb => h.full b (List.mem_of_mem_take hb)
  have hok : chainOk env (n.blocks.take keep) = true := by
    have := h.ok
    rw [← List.take_append_drop keep n.blocks] at this
    exact chainOk_of_append this
  rw [truncate, if_pos h.initialized, rebuildPremineState]
  by_cases hnil : n.blocks.take keep = []
  · -- nothing is replayed, and nothing has to be
    rw [if_pos hnil]
    refine ⟨h.initialized, hshort, hfull, hok, ?_, ?_⟩
    · rw [hnil, hreset hnil]
      exact Agree.refl _ _
    · rw [hnil]
      rfl
  · rw [if_neg hnil, replayBlocks_eq (n := { n with
      blocks := n.blocks.take keep, premine := genesisState }) h.initialized rfl hfull hok]
    refine ⟨h.initialized, hshort, hfull, hok, Agree.refl _ _, ?_⟩
    unfold propertiesOf
    split_ifs <;> rfl

theorem popBlock_of_nil (h : n.blocks = []) : popBlock n = n := by
  cases n
  subst h
  rfl

/-- A block that does not act may be popped without a replay. -/
theorem synced_popBlock (h : Synced env n)
    (hlast : ∀ b ∈ n.blocks.getLast?, blockActs env b = false) : Synced env (popBlock n) := by
  rcases List.eq_nil_or_concat' n.blocks with hnil | ⟨blocks, b, hblocks⟩
  · rw [popBlock_of_nil hnil]
    exact h
  · obtain ⟨hinit, hshort, hfull, hok, hagree, hstored⟩ := h
    rw [hblocks] at hshort hfull hok hagree hstored hlast
    have hb : blockActs env b = false := hlast b (by simp)
    have hpop : (popBlock n).blocks = blocks := by
      show n.blocks.dropLast = blocks
      rw [hblocks, List.dropLast_concat]
    rw [List.length_append] at hshort
    rw [chainOk_snoc, Bool.and_eq_true] at hok
    rw [lastActing_snoc, hb, chainState_snoc_of_not_acts hb] at hagree
    rw [propertiesOf_snoc, propertiesAfter, ← blockActs, hb] at hstored
    refine ⟨hinit, ?_, ?_, ?_, ?_, ?_⟩
    · rw [hpop]
      omega
    · rw [hpop]
      exact fun b' hb' => hfull b' (List.mem_append_left _ hb')
    · rw [hpop]
      exact hok.1
    · rw [hpop]
      exact hagree
    · rw [hpop]
      exact hstored

/-! ### Starting again -/

/-- Without anything to process, the rebuild of a start only reads. -/
theorem replayBlocks_of_not_initialized {blocks : List ChainBlock} {h : ℕ}
    (hinit : n.initialized = false) (hfull : ∀ b ∈ blocks, ∀ t ∈ b.txs, t.full = true) :
    replayBlocks env blocks h n = (n, true) := by
  have hstep : ∀ tx height, processTx env n tx height = (n, true) := by
    intro tx height
    rw [processTx, if_pos hinit]
  have htxs : ∀ height (txs : List StoredTx), (∀ t ∈ txs, t.full = true) →
      replayTxs env height txs n = (n, true) := by
    intro height txs hfull
    induction txs with
    | nil => rfl
    | cons t txs ih =>
      rw [replayTxs, hfull t (List.mem_cons_self ..), hstep]
      exact ih fun t' ht' => hfull t' (List.mem_cons_of_mem _ ht')
  induction blocks generalizing h with
  | nil => rfl
  | cons b blocks ih =>
    rw [replayBlocks, hstep]
    dsimp only
    rw [htxs _ _ (hfull b (List.mem_cons_self ..))]
    exact ih fun b' hb' => hfull b' (List.mem_cons_of_mem _ hb')

/-- **A start without a stored state gives the genesis state**, whatever the chain. -/
theorem initFromGenesis_eq (hfull : ∀ b ∈ n.blocks, ∀ t ∈ b.txs, t.full = true) :
    initFromGenesis env n = ({ n with initialized := true, premine := genesisState }, true) := by
  have hrebuild : rebuildPremineState env { n with initialized := false, premine := genesisState } =
      ({ n with initialized := false, premine := genesisState }, true) := by
    rw [rebuildPremineState]
    split_ifs with hnil
    · rfl
    · exact replayBlocks_of_not_initialized rfl hfull
  rw [initFromGenesis, hrebuild]

theorem dbHeight_eq_succ (n : Node) : n.dbHeight = UInt64.ofNat n.blocks.length + 1 := by
  rw [Node.dbHeight, UInt64.ofNat_add]
  rfl

theorem dbHeight_sub_one (n : Node) : n.dbHeight - 1 = UInt64.ofNat n.blocks.length := by
  rw [dbHeight_eq_succ, UInt64.add_sub_cancel]

/-- What was stored after the tip is what a start finds. -/
theorem havePersistedState_of_tip {s : PremineState} (hshort : n.blocks.length + 1 < 2 ^ 64)
    (hstored : n.properties = savedProperties s (UInt64.ofNat n.blocks.length)) :
    havePersistedState n = true := by
  have hmax : UInt64.ofNat n.blocks.length ≠ 0xFFFFFFFFFFFFFFFF := by
    intro he
    have := congrArg UInt64.toNat he
    rw [UInt64.toNat_ofNat_of_lt' (by show n.blocks.length < 2 ^ 64; omega)] at this
    have hval : (0xFFFFFFFFFFFFFFFF : UInt64).toNat = 2 ^ 64 - 1 := rfl
    omega
  rw [havePersistedState, hstored]
  simp only [savedProperties, dbHeight_eq_succ, hmax, ne_eq, not_false_eq_true, decide_true,
    Bool.and_self]

/-- A state is read back up to the spends before the window. -/
theorem load_savedProperties {s : PremineState} (h : Storable s) (height : UInt64) :
    loadGovernanceState (savedProperties s height) = some s.governance ∧
      loadNetworkFundState (savedProperties s height) = some (prunedFund s.networkFund height) := by
  refine ⟨deserializeGovernance_serialize _ h.1 h.2.1, deserializeNetworkFund_serialize _ ?_⟩
  exact lt_of_le_of_lt (List.length_filter_le ..) h.2.2

theorem synced_restart (h : Synced env n) (hr : Restartable env n) :
    Synced env (initPremineState env n).1 := by
  rcases hr with ⟨hne, htip, hstorable⟩ | ⟨hnone, hheight⟩
  · have hlast : lastActing env n.blocks ≠ 0 := by
      rw [htip]
      exact fun hz => hne (List.length_eq_zero_iff.1 hz)
    have hstored : n.properties =
        savedProperties n.premine (UInt64.ofNat n.blocks.length) := by
      have := h.stored
      rw [propertiesOf, if_neg hlast, htip] at this
      rw [this]
      refine Agree.savedProperties_eq ⟨h.agree.governance.symm, h.agree.balance.symm, ?_⟩
      rw [← htip]
      exact h.agree.spends.symm
    obtain ⟨hgov, hfund⟩ := load_savedProperties hstorable (UInt64.ofNat n.blocks.length)
    rw [initPremineState, if_pos (havePersistedState_of_tip h.short hstored), hstored, hgov, hfund]
    refine ⟨rfl, h.short, h.full, h.ok, ⟨h.agree.governance, h.agree.balance, ?_⟩, ?_⟩
    · show spendsFrom _ (spendsFrom (windowCutoff (UInt64.ofNat n.blocks.length)) _) = _
      rw [← htip, spendsFrom_spendsFrom (UInt64.le_refl _)]
      exact h.agree.spends
    · rw [← hstored]
      exact h.stored
  · have hnot : havePersistedState n = false := by
      rw [havePersistedState]
      cases hp : n.properties.premineHeight with
      | none => rfl
      | some saved =>
        have hne : saved + 1 ≠ n.dbHeight := by
          intro he
          rw [dbHeight_eq_succ, UInt64.add_left_inj] at he
          exact hheight (by rw [hp, he, dbHeight_sub_one])
        simp [hne]
    rw [initPremineState, hnot, if_neg (by decide), initFromGenesis_eq h.full]
    refine ⟨rfl, h.short, h.full, h.ok, ?_, h.stored⟩
    rw [chainState_of_lastActing_eq_zero hnone]
    exact Agree.refl _ _

/-! ### Runs -/

/-- **One step.** -/
theorem synced_step {op : Op} (h : Synced env n) (hop : Followed env n op) :
    Synced env (op.run env n) := by
  cases op with
  | block d => exact synced_handleBlock h hop
  | popBlock => exact synced_popBlock h hop
  | popBlocks nblocks => exact synced_truncate h hop
  | rollback originalChain keep =>
    rw [Op.run, rollbackBlockchainSwitching]
    split_ifs with hlong
    · exact h
    · obtain ⟨hreset, hclean⟩ := hop (not_lt.1 hlong)
      exact synced_connect (synced_truncate h hreset) hclean
  | restart => exact synced_restart h hop
  | switchTo altChain keep again =>
    rw [Op.run, switchToAlternativeBlockchain]
    split_ifs with hno
    · exact h
    · obtain ⟨hne, hlong⟩ := not_or.1 hno
      obtain ⟨hreset, hclean, hback⟩ := hop hne (not_lt.1 hlong)
      have hconn := synced_connect (synced_truncate h hreset) hclean
      cases hr : connect env altChain (truncate env n keep) with
      | mk n' ok =>
        rw [hr] at hconn hback
        cases ok with
        | true => exact hconn
        | false =>
          dsimp only [rollbackBlockchainSwitching]
          obtain ⟨hreset', hclean'⟩ := hback rfl
          split_ifs
          · exact hconn
          · exact synced_connect (synced_truncate hconn hreset') hclean'

end

/-- The state of a node is the one its chain stands for, up to spends that have left the rate
window of the tip. -/
def FollowsChain (env : Env) (n : Node) : Prop :=
  Agree (windowCutoff (n.dbHeight - 1)) n.premine (chainState env n.blocks)

theorem Synced.followsChain {env : Env} {n : Node} (h : Synced env n) : FollowsChain env n := by
  have := h.short
  rw [FollowsChain, dbHeight_sub_one]
  exact h.agree.mono (cutoff_lastActing_le le_rfl (by omega))

/-- **The premine state follows the chain** in every history whose steps are all ones that the
four paths are right for. -/
theorem premine_follows_chain (env : Env) (ops : List Op)
    (h : (chainMachine env).Guarded (Followed env) freshNode ops) :
    FollowsChain env ((chainMachine env).run freshNode ops).1 := by
  have hstep : ∀ n (evs : List Empty) op, Synced env n → Followed env n op →
      Synced env ((chainMachine env).step n op).1 := fun _ _ _ => synced_step
  exact ((chainMachine env).run_invariant (synced_freshNode env) hstep h).followsChain

/-- A history with a start after an acting block, a pop and a replay. -/
def followedHistory : List Op :=
  [.block addSignerBlock, .restart, .block quietBlock, .popBlock, .block quietBlock, .popBlocks 1,
    .switchTo [quietBlock] 1 fun b => { block := b }]

/-- Such a history is followed, and the added signer is still there. -/
theorem followedHistory_follows :
    ((chainMachine openEnv).run freshNode followedHistory).1.premine.governance.signers.length =
        4 ∧
      FollowsChain openEnv ((chainMachine openEnv).run freshNode followedHistory).1 :=
  ⟨by decide +kernel, premine_follows_chain openEnv _ (by decide +kernel)⟩

/-- **A restart loses the state** if the last block does not act. -/
theorem restart_forgets :
    ¬ ∀ (env : Env) (ops : List Op),
        FollowsChain env ((chainMachine env).run freshNode ops).1 := by
  intro h
  have hgov := (h openEnv [.block addSignerBlock, .block quietBlock, .restart]).governance
  have hlost : ((chainMachine openEnv).run freshNode
      [.block addSignerBlock, .block quietBlock, .restart]).1.premine.governance ≠
      (chainState openEnv ((chainMachine openEnv).run freshNode
        [.block addSignerBlock, .block quietBlock, .restart]).1.blocks).governance := by
    decide +kernel
  exact hlost hgov

end Mevacoin.Premine
