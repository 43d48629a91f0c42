import Mevacoin.Premine.Effects
import Mevacoin.Premine.Node

/-!
# The premine state that a chain determines

The fold of `process_premine_actions` over the main chain.  A node may have dropped spends that have
left the rate window: `Agree c` is equality but for spends before height `c`.
-/

namespace Mevacoin.Premine

open Lib

/-! ### States up to old spends -/

/-- The same governance record, the same fund, the same spends from height `c` on. -/
structure Agree (c : UInt64) (s s' : PremineState) : Prop where
  governance : s.governance = s'.governance
  balance : s.networkFund.balance = s'.networkFund.balance
  spends : spendsFrom c s.networkFund.recentSpends = spendsFrom c s'.networkFund.recentSpends

theorem Agree.refl (c : UInt64) (s : PremineState) : Agree c s s := ⟨rfl, rfl, rfl⟩

/-- Spends from a later height on are among those from an earlier one. -/
theorem spendsFrom_spendsFrom {c d : UInt64} (h : c ≤ d) (l : List NetworkSpendEvent) :
    spendsFrom d (spendsFrom c l) = spendsFrom d l := by
  rw [spendsFrom, spendsFrom, List.filter_filter]
  refine List.filter_congr fun e _ => ?_
  by_cases hd : d ≤ e.height
  · simp [UInt64.le_trans h hd]
  · simp [hd]

/-- Later cutoffs see less. -/
theorem Agree.mono {c d : UInt64} {s s' : PremineState} (h : Agree c s s') (hcd : c ≤ d) :
    Agree d s s' := by
  refine ⟨h.governance, h.balance, ?_⟩
  rw [← spendsFrom_spendsFrom hcd, h.spends, spendsFrom_spendsFrom hcd]

theorem spendsFrom_append (c : UInt64) (l l' : List NetworkSpendEvent) :
    spendsFrom c (l ++ l') = spendsFrom c l ++ spendsFrom c l' := List.filter_append ..

/-- The window moves up with the height. -/
theorem windowCutoff_mono {h h' : UInt64} (hle : h ≤ h') : windowCutoff h ≤ windowCutoff h' := by
  unfold windowCutoff
  split_ifs with h1 h2 h2
  · rw [UInt64.le_iff_toNat_le] at *
    rw [UInt64.toNat_sub_of_le _ _ (UInt64.le_iff_toNat_le.2 h1),
      UInt64.toNat_sub_of_le _ _ (UInt64.le_iff_toNat_le.2 h2)]
    omega
  · exact absurd (UInt64.le_trans h1 hle) h2
  · exact UInt64.zero_le
  · exact UInt64.le_refl _

/-- The spends that storing the fund leaves out are in no later window. -/
theorem validateNetworkFundSpend_prunedFund (s : NetworkFundState) (amount : UInt64)
    {height height' : UInt64} (h : height ≤ height') :
    validateNetworkFundSpend (prunedFund s height) amount height' =
      validateNetworkFundSpend s amount height' := by
  unfold validateNetworkFundSpend prunedFund
  rw [spendsFrom_spendsFrom (windowCutoff_mono h)]

/-- **Storing loses nothing that matters**: the governance is read back as it was, the fund as a
state that judges every later spend alike. -/
theorem saved_state_equivalent (s : PremineState) (height : UInt64)
    (hsigners : s.governance.signers.length < 2 ^ 32)
    (himages : s.governance.bondKeyImages.length < 2 ^ 32)
    (hspends : s.networkFund.recentSpends.length < 2 ^ 32) :
    loadGovernanceState (savedProperties s height) = some s.governance ∧
      ∃ f, loadNetworkFundState (savedProperties s height) = some f ∧
        ∀ amount height', height ≤ height' →
          validateNetworkFundSpend f amount height' =
            validateNetworkFundSpend s.networkFund amount height' := by
  have hkept : (prunedFund s.networkFund height).recentSpends.length < 2 ^ 32 :=
    Nat.lt_of_le_of_lt (List.length_filter_le _ _) hspends
  refine ⟨deserializeGovernance_serialize _ hsigners himages, prunedFund s.networkFund height,
    deserializeNetworkFund_serialize _ hkept, ?_⟩
  intro amount height' h
  exact validateNetworkFundSpend_prunedFund s.networkFund amount h

/-- A spend that has left the window is not stored, and not missed. -/
theorem old_spend_not_missed :
    ∃ f, loadNetworkFundState (savedProperties
        ⟨genesisState.governance, ⟨networkFundAllocation, [⟨7, 5⟩]⟩⟩ 30007) = some f ∧
      ∀ amount height', 30007 ≤ height' → validateNetworkFundSpend f amount height' =
        validateNetworkFundSpend ⟨networkFundAllocation, [⟨7, 5⟩]⟩ amount height' :=
  (saved_state_equivalent ⟨genesisState.governance, ⟨networkFundAllocation, [⟨7, 5⟩]⟩⟩ 30007
    (by decide) (by decide) (by decide)).2

section

variable {env : Env} {c : UInt64} {s s' : PremineState}

/-- **An effect does the same to states that agree.** -/
theorem Effect.apply_agree {e : Effect} {tx : FullTransaction} {height : UInt64}
    (he : e ∈ effects env tx height) (hc : c ≤ windowCutoff height) (h : Agree c s s') :
    match e.apply env s, e.apply env s' with
    | some a, some a' => Agree c a a'
    | none, none => True
    | _, _ => False := by
  obtain ⟨hg, hb, hs⟩ := h
  rcases mem_effects he with rfl | he
  · simp only [Effect.apply, hg]
    exact ⟨rfl, hb, hs⟩
  obtain ⟨t, -, rfl⟩ | ⟨t, -, rfl⟩ | ⟨t, -, rfl⟩ | ⟨t, -, rfl⟩ := mem_fieldEffects.1 he
  · simp only [Effect.apply, hg]
    split_ifs
    · trivial
    · exact ⟨rfl, hb, hs⟩
  · simp only [Effect.apply, hg]
    exact ⟨rfl, hb, hs⟩
  · simp only [Effect.apply, hg]
    split_ifs
    · trivial
    · exact ⟨rfl, hb, hs⟩
  · simp only [Effect.apply, hb]
    split_ifs
    · trivial
    · refine ⟨hg, rfl, ?_⟩
      have hwin : spendsFrom (windowCutoff height) s.networkFund.recentSpends =
          spendsFrom (windowCutoff height) s'.networkFund.recentSpends := by
        rw [← spendsFrom_spendsFrom hc, hs, spendsFrom_spendsFrom hc]
      simp only [spendsFrom_append, hwin]

/-- Effects keep the agreement. -/
theorem runEffects_agree {es : List Effect} {tx : FullTransaction} {height : UInt64}
    (hes : ∀ e ∈ es, e ∈ effects env tx height) (hc : c ≤ windowCutoff height) (h : Agree c s s') :
    Agree c (runEffects env es s).1 (runEffects env es s').1 ∧
      (runEffects env es s).2 = (runEffects env es s').2 := by
  induction es generalizing s s' with
  | nil => exact ⟨h, rfl⟩
  | cons e es ih =>
    have hstep := Effect.apply_agree (hes e (List.mem_cons_self ..)) hc h
    rw [runEffects, runEffects]
    cases ha : e.apply env s with
    | none =>
      cases ha' : e.apply env s' with
      | none => exact ⟨h, rfl⟩
      | some a' => simp [ha, ha'] at hstep
    | some a =>
      cases ha' : e.apply env s' with
      | none => simp [ha, ha'] at hstep
      | some a' =>
        rw [ha, ha'] at hstep
        exact ih (fun e' he' => hes e' (List.mem_cons_of_mem _ he')) hstep

/-- Processing a transaction does the same to states that agree. -/
theorem processPremineActions_agree (env : Env) (tx : FullTransaction) {height : UInt64}
    (hc : c ≤ windowCutoff height) (h : Agree c s s') :
    Agree c (processPremineActions env s tx height).1 (processPremineActions env s' tx height).1 ∧
      (processPremineActions env s tx height).2 = (processPremineActions env s' tx height).2 :=
  runEffects_agree (fun _ he => he) hc h

/-- States that agree are stored alike. -/
theorem Agree.savedProperties_eq {height : UInt64} (h : Agree (windowCutoff height) s s') :
    savedProperties s height = savedProperties s' height := by
  rw [savedProperties, savedProperties, prunedFund, prunedFund, h.governance, h.balance, h.spends]

end

/-! ### The fold -/

/-- The effects of transactions at one height. -/
def foldTxs (env : Env) (height : UInt64) : List FullTransaction → PremineState → PremineState
  | [], s => s
  | tx :: txs, s => foldTxs env height txs (processPremineActions env s tx height).1

/-- Processing transactions at one height never fails. -/
def txsOk (env : Env) (height : UInt64) : List FullTransaction → PremineState → Bool
  | [], _ => true
  | tx :: txs, s =>
    (processPremineActions env s tx height).2 &&
      txsOk env height txs (processPremineActions env s tx height).1

/-- The effects of blocks from height `h` on. -/
def foldBlocks (env : Env) : List ChainBlock → ℕ → PremineState → PremineState
  | [], _, s => s
  | b :: bs, h, s => foldBlocks env bs (h + 1) (foldTxs env (UInt64.ofNat h) b.allTxs s)

/-- Processing blocks from height `h` on never fails. -/
def blocksOk (env : Env) : List ChainBlock → ℕ → PremineState → Bool
  | [], _, _ => true
  | b :: bs, h, s =>
    txsOk env (UInt64.ofNat h) b.allTxs s &&
      blocksOk env bs (h + 1) (foldTxs env (UInt64.ofNat h) b.allTxs s)

/-- **The state that a chain stands for**: the effects of its blocks from height 1 on the genesis
state. -/
def chainState (env : Env) (blocks : List ChainBlock) : PremineState :=
  foldBlocks env blocks 1 genesisState

/-- The blocks of a chain can be processed in order. -/
def chainOk (env : Env) (blocks : List ChainBlock) : Bool := blocksOk env blocks 1 genesisState

/-- One of the transactions of a block acts. -/
def blockActs (env : Env) (b : ChainBlock) : Bool := b.allTxs.any (acts env)

/-- The height of the last block that acts, counted from the end; 0 if there is none. -/
def lastActingRev (env : Env) : List ChainBlock → ℕ
  | [] => 0
  | b :: bs => if blockActs env b then bs.length + 1 else lastActingRev env bs

/-- The height of the last block that acts, or 0. -/
def lastActing (env : Env) (blocks : List ChainBlock) : ℕ := lastActingRev env blocks.reverse

section

variable {env : Env} {height : UInt64}

variable {txs : List FullTransaction} (blocks : List ChainBlock) (b : ChainBlock) (h : ℕ)
  (s : PremineState) {n : Node}

/-- Idle transactions do nothing. -/
theorem foldTxs_of_not_acts {s : PremineState} (h : txs.any (acts env) = false) :
    foldTxs env height txs s = s := by
  induction txs with
  | nil => rfl
  | cons tx txs ih =>
    rw [List.any_cons, Bool.or_eq_false_iff] at h
    rw [foldTxs, processPremineActions_of_not_acts h.1, ih h.2]

/-- Transactions keep the agreement. -/
theorem foldTxs_agree (txs : List FullTransaction) {c : UInt64} {s s' : PremineState}
    (hc : c ≤ windowCutoff height) (h : Agree c s s') :
    Agree c (foldTxs env height txs s) (foldTxs env height txs s') ∧
      txsOk env height txs s = txsOk env height txs s' := by
  induction txs generalizing s s' with
  | nil => exact ⟨h, rfl⟩
  | cons tx txs ih =>
    obtain ⟨hagree, hres⟩ := processPremineActions_agree env tx hc h
    obtain ⟨ih1, ih2⟩ := ih hagree
    refine ⟨ih1, ?_⟩
    rw [txsOk, txsOk, hres, ih2]

/-- One more block. -/
theorem foldBlocks_snoc :
    foldBlocks env (blocks ++ [b]) h s =
      foldTxs env (UInt64.ofNat (h + blocks.length)) b.allTxs (foldBlocks env blocks h s) := by
  induction blocks generalizing h s with
  | nil => rfl
  | cons b' blocks ih =>
    rw [List.cons_append, foldBlocks, ih, foldBlocks, List.length_cons,
      show h + 1 + blocks.length = h + (blocks.length + 1) by omega]

/-- One block more passes. -/
theorem blocksOk_snoc :
    blocksOk env (blocks ++ [b]) h s =
      (blocksOk env blocks h s &&
        txsOk env (UInt64.ofNat (h + blocks.length)) b.allTxs (foldBlocks env blocks h s)) := by
  induction blocks generalizing h s with
  | nil => simp [blocksOk, foldBlocks]
  | cons b' blocks ih =>
    rw [List.cons_append, blocksOk, ih, blocksOk, foldBlocks, List.length_cons, Bool.and_assoc,
      show h + 1 + blocks.length = h + (blocks.length + 1) by omega]

/-- The state after one block more. -/
theorem chainState_snoc :
    chainState env (blocks ++ [b]) =
      foldTxs env (UInt64.ofNat (blocks.length + 1)) b.allTxs (chainState env blocks) := by
  rw [chainState, foldBlocks_snoc, Nat.add_comm 1, chainState]

/-- A chain with one block more. -/
theorem chainOk_snoc :
    chainOk env (blocks ++ [b]) =
      (chainOk env blocks &&
        txsOk env (UInt64.ofNat (blocks.length + 1)) b.allTxs (chainState env blocks)) := by
  rw [chainOk, blocksOk_snoc, Nat.add_comm 1, chainOk, chainState]

@[simp] theorem lastActing_nil : lastActing env [] = 0 := rfl

/-- The last acting block. -/
theorem lastActing_snoc :
    lastActing env (blocks ++ [b]) =
      if blockActs env b then blocks.length + 1 else lastActing env blocks := by
  rw [lastActing, List.reverse_append, List.reverse_singleton, List.singleton_append,
    lastActingRev, List.length_reverse, lastActing]

/-- The last acting block is in the chain. -/
theorem lastActing_le : lastActing env blocks ≤ blocks.length := by
  induction blocks using List.reverseRecOn with
  | nil => exact le_rfl
  | append_singleton blocks b ih =>
    rw [lastActing_snoc, List.length_append, List.length_singleton]
    split_ifs <;> omega

/-- A block that does not act changes nothing. -/
theorem chainState_snoc_of_not_acts {blocks : List ChainBlock} {b : ChainBlock}
    (h : blockActs env b = false) : chainState env (blocks ++ [b]) = chainState env blocks := by
  rw [chainState_snoc, foldTxs_of_not_acts h]

/-- If no block acts, the state is the genesis state. -/
theorem chainState_of_lastActing_eq_zero {blocks : List ChainBlock}
    (h : lastActing env blocks = 0) : chainState env blocks = genesisState := by
  induction blocks using List.reverseRecOn with
  | nil => rfl
  | append_singleton blocks b ih =>
    rw [lastActing_snoc] at h
    cases hb : blockActs env b with
    | true => simp [hb] at h
    | false => rw [chainState_snoc_of_not_acts hb, ih (by simpa [hb] using h)]

/-- The lower part of a chain that can be processed can be processed. -/
theorem chainOk_of_append {blocks blocks' : List ChainBlock}
    (h : chainOk env (blocks ++ blocks') = true) : chainOk env blocks = true := by
  induction blocks' using List.reverseRecOn with
  | nil => simpa using h
  | append_singleton blocks' b ih =>
    rw [← List.append_assoc, chainOk_snoc, Bool.and_eq_true] at h
    exact ih h.1

/-! ### A node that processes -/

/-- What is stored after transactions were processed at a height. -/
def propertiesAfter (env : Env) (height : UInt64) (txs : List FullTransaction)
    (s : PremineState) (old : Properties) : Properties :=
  if txs.any (acts env) then savedProperties (foldTxs env height txs s) height else old

/-- One transaction stores, and the others leave that or store again. -/
theorem propertiesAfter_cons (tx : FullTransaction) (txs : List FullTransaction)
    (s : PremineState) (old : Properties) :
    propertiesAfter env height (tx :: txs) s old =
      propertiesAfter env height txs (processPremineActions env s tx height).1
        (if acts env tx then savedProperties (processPremineActions env s tx height).1 height
          else old) := by
  rw [propertiesAfter, propertiesAfter, List.any_cons, foldTxs]
  cases hany : txs.any (acts env) with
  | true => rw [Bool.or_true, if_pos rfl, if_pos rfl]
  | false =>
    -- if only this transaction acts, the others leave what it stored
    rw [Bool.or_false, if_neg Bool.false_ne_true, foldTxs_of_not_acts hany]

/-- **Processing in memory is the fold**, and stores its result if something acted. -/
theorem processTxs_eq (hinit : n.initialized = true) (hok : txsOk env height txs n.premine = true) :
    processTxs env height txs n =
      ({ n with
        premine := foldTxs env height txs n.premine
        properties := propertiesAfter env height txs n.premine n.properties }, true) := by
  induction txs generalizing n with
  | nil => rfl
  | cons tx txs ih =>
    rw [txsOk, Bool.and_eq_true] at hok
    obtain ⟨htx, hok⟩ := hok
    set s₁ := (processPremineActions env n.premine tx height).1 with hs₁
    set p₁ := if acts env tx then savedProperties s₁ height else n.properties with hp₁
    have hstep : processTx env n tx height =
        ({ n with premine := s₁, properties := p₁ }, true) := by
      rw [processTx, hinit, if_neg (by decide)]
      simp only [htx, Bool.true_and, hp₁, hs₁]
    rw [processTxs, hstep]
    dsimp only
    rw [ih (n := { n with premine := s₁, properties := p₁ }) hinit hok, propertiesAfter_cons,
      foldTxs]

/-- Processing that succeeds never failed on the way. -/
theorem txsOk_of_processTxs (hinit : n.initialized = true)
    (h : (processTxs env height txs n).2 = true) : txsOk env height txs n.premine = true := by
  induction txs generalizing n with
  | nil => rfl
  | cons tx txs ih =>
    rw [processTxs, processTx, hinit] at h
    rw [txsOk]
    cases hr : processPremineActions env n.premine tx height with
    | mk s₁ ok =>
      rw [hr] at h
      cases ok with
      | true => exact ih (n := ⟨true, s₁, n.blocks, _⟩) rfl h
      | false => cases h

/-- Full transactions are processed again. -/
theorem replayTxs_eq {txs : List StoredTx} (hfull : ∀ t ∈ txs, t.full = true) :
    replayTxs env height txs n = processTxs env height (txs.map (·.tx)) n := by
  induction txs generalizing n with
  | nil => rfl
  | cons t txs ih =>
    rw [replayTxs, hfull t (List.mem_cons_self ..), List.map_cons, processTxs]
    cases processTx env n t.tx height with
    | mk n' ok =>
      cases ok with
      | false => rfl
      | true => exact ih fun t' ht' => hfull t' (List.mem_cons_of_mem _ ht')

/-- Replaying one more block. -/
theorem replayBlocks_snoc {blocks : List ChainBlock} {b : ChainBlock} {h : ℕ}
    (hfull : ∀ t ∈ b.txs, t.full = true) :
    replayBlocks env (blocks ++ [b]) h n =
      match replayBlocks env blocks h n with
      | (n', true) => processTxs env (UInt64.ofNat (h + blocks.length)) b.allTxs n'
      | (n', false) => (n', false) := by
  induction blocks generalizing h n with
  | nil =>
    rw [List.nil_append, ChainBlock.allTxs]
    simp only [replayBlocks, processTxs]
    cases processTx env n b.minerTx (UInt64.ofNat h) with
    | mk n₁ ok =>
      cases ok with
      | false => rfl
      | true =>
        dsimp only
        rw [replayTxs_eq hfull]
        cases processTxs env (UInt64.ofNat h) (b.txs.map (·.tx)) n₁ with
        | mk n₂ ok => cases ok <;> rfl
  | cons b' blocks ih =>
    rw [List.cons_append, replayBlocks, replayBlocks, List.length_cons,
      show h + (blocks.length + 1) = h + 1 + blocks.length by omega]
    cases processTx env n b'.minerTx (UInt64.ofNat h) with
    | mk n₁ ok =>
      cases ok with
      | false => rfl
      | true =>
        dsimp only
        cases replayTxs env (UInt64.ofNat h) b'.txs n₁ with
        | mk n₂ ok =>
          cases ok with
          | false => rfl
          | true => exact ih

/-- What is stored after a chain was replayed. -/
def propertiesOf (env : Env) (blocks : List ChainBlock) (old : Properties) : Properties :=
  if lastActing env blocks = 0 then old
  else savedProperties (chainState env blocks) (UInt64.ofNat (lastActing env blocks))

/-- What one block more stores. -/
theorem propertiesOf_snoc (old : Properties) :
    propertiesOf env (blocks ++ [b]) old =
      propertiesAfter env (UInt64.ofNat (blocks.length + 1)) b.allTxs (chainState env blocks)
        (propertiesOf env blocks old) := by
  rw [propertiesOf, lastActing_snoc, propertiesAfter, chainState_snoc, ← blockActs]
  cases hb : blockActs env b with
  | true => simp
  | false => rw [foldTxs_of_not_acts hb]; simp [propertiesOf]

/-- **Replaying a chain gives the state that it stands for.** -/
theorem replayBlocks_eq {blocks : List ChainBlock} (hinit : n.initialized = true)
    (hgen : n.premine = genesisState) (hfull : ∀ b ∈ blocks, ∀ t ∈ b.txs, t.full = true)
    (hok : chainOk env blocks = true) :
    replayBlocks env blocks 1 n =
      ({ n with
        premine := chainState env blocks
        properties := propertiesOf env blocks n.properties }, true) := by
  induction blocks using List.reverseRecOn with
  | nil =>
    show (n, true) = ({ n with premine := genesisState, properties := n.properties }, true)
    rw [← hgen]
  | append_singleton blocks b ih =>
    rw [chainOk_snoc, Bool.and_eq_true] at hok
    have hfull' : ∀ b' ∈ blocks, ∀ t ∈ b'.txs, t.full = true :=
      fun b' hb' => hfull b' (List.mem_append_left _ hb')
    rw [replayBlocks_snoc (hfull b (List.mem_append_right _ (List.mem_singleton_self b))),
      ih hfull' hok.1]
    dsimp only
    rw [Nat.add_comm 1, processTxs_eq (n := { n with
        premine := chainState env blocks
        properties := propertiesOf env blocks n.properties }) hinit hok.2,
      propertiesOf_snoc, chainState_snoc]

end

end Mevacoin.Premine
