import Mevacoin.Premine.Authorization
import Mevacoin.Premine.ChainState
import Mevacoin.Premine.TxEffects

/-!
# The rate limit of the network fund

`validate_network_fund_spend` is asked only for a transaction that spends the genesis output of the
fund, against the state before the block, while every `0xC0` field is recorded.
-/

namespace Mevacoin.Premine

open Lib

/-! ### Recorded spends -/

/-- The spends that effects record. -/
def fundSpends (es : List Effect) : List NetworkSpendEvent := es.filterMap Effect.fundSpend

theorem fundSpends_append (es es' : List Effect) :
    fundSpends (es ++ es') = fundSpends es ++ fundSpends es' := List.filterMap_append ..

theorem fundSpends_effects (env : Env) (tx : FullTransaction) (height : UInt64) :
    fundSpends (effects env tx height) =
      tx.networkFundTransfer.toList.map fun t => ⟨height, t.amount⟩ := by
  have hdeposit : fundSpends (if (governanceOwnedOutputs env tx).1 = [] then []
      else [.deposit tx.inputImages (governanceOwnedOutputs env tx).1
        (governanceOwnedOutputs env tx).2]) = [] := by
    split_ifs <;> rfl
  rw [effects_eq, fundSpends_append, hdeposit, fieldEffects]
  cases tx.governanceTransfer <;> cases tx.governanceAddSigner <;>
    cases tx.governanceRemoveSigner <;> cases tx.networkFundTransfer <;> rfl

/-- The spends of a block, one for each transaction with a `0xC0` field. -/
theorem fundSpends_blockEffects (env : Env) (height : UInt64) (txs : List FullTransaction) :
    fundSpends (blockEffects env height txs) =
      (txs.filterMap FullTransaction.networkFundTransfer).map fun t => ⟨height, t.amount⟩ := by
  induction txs with
  | nil => rfl
  | cons tx txs ih =>
    rw [blockEffects_cons, fundSpends_append, fundSpends_effects, ih, List.filterMap_cons]
    cases tx.networkFundTransfer <;> rfl

/-- An effect that spends nothing leaves the fund alone. -/
theorem Effect.result_fund_of_none {env : Env} {e : Effect} (h : e.fundSpend = none)
    (s : PremineState) : (e.result env s).networkFund = s.networkFund := by
  unfold Effect.result Effect.editSpends
  rw [h]
  simp

theorem Effect.result_fund_of_some {env : Env} {e : Effect} {ev : NetworkSpendEvent}
    (h : e.fundSpend = some ev) (s : PremineState) :
    (e.result env s).networkFund = recordSpend s.networkFund ev := by
  unfold Effect.result Effect.editSpends
  rw [h]
  rfl

theorem fundSpends_singleton (e : Effect) : fundSpends [e] = e.fundSpend.toList := by
  cases h : e.fundSpend <;> simp [fundSpends, h]

/-- The fund changes only by the spends that are recorded. -/
theorem networkFund_runEffects (env : Env) (es : List Effect) (s : PremineState) :
    (runEffects env es s).1.networkFund =
      (fundSpends (performed env es s)).foldl recordSpend s.networkFund := by
  refine runEffects_trace
    (P := fun a applied => a.networkFund = (fundSpends applied).foldl recordSpend s.networkFund)
    [] rfl ?_
  intro e _ a applied ha _
  rw [fundSpends_append, List.foldl_append, ← ha, fundSpends_singleton]
  cases h : e.fundSpend with
  | none => exact Effect.result_fund_of_none h a
  | some ev => exact Effect.result_fund_of_some h a

/-- What the recorded spends amount to. -/
def totalSpent (l : List NetworkSpendEvent) : ℕ := (l.map (·.amount.toNat)).sum

theorem totalSpent_append (l l' : List NetworkSpendEvent) :
    totalSpent (l ++ l') = totalSpent l + totalSpent l' := by
  rw [totalSpent, List.map_append, List.sum_append, totalSpent, totalSpent]

theorem totalSpent_le_of_sublist {l l' : List NetworkSpendEvent} (h : l.Sublist l') :
    totalSpent l ≤ totalSpent l' :=
  (h.map _).sum_le_sum fun _ _ => Nat.zero_le _

/-! ### The check -/

/-- What the check says of a window whose sum cannot wrap. -/
theorem totalSpent_add_le_of_validated {f : NetworkFundState} {amount height : UInt64}
    (h : validateNetworkFundSpend f amount height = .ok ())
    (hfits : f.balance.toNat + totalSpent f.recentSpends ≤ networkFundAllocation.toNat) :
    totalSpent (spendsFrom (windowCutoff height) f.recentSpends) + amount.toNat ≤
      networkFundMonthlyLimit.toNat := by
  unfold validateNetworkFundSpend at h
  dsimp only at h
  split_ifs at h with hzero hbalance hlimit
  have hle := UInt64.le_iff_toNat_le.1 (UInt64.not_lt.1 hbalance)
  have hsub := totalSpent_le_of_sublist
    (List.filter_sublist (l := f.recentSpends) (p := fun e => windowCutoff height ≤ e.height))
  have hsum := toNat_sum_of_lt (f := NetworkSpendEvent.amount)
    (l := spendsFrom (windowCutoff height) f.recentSpends) (by
      show totalSpent (spendsFrom _ _) < _
      have halloc : networkFundAllocation.toNat < 2 ^ 64 := UInt64.toNat_lt _
      unfold spendsFrom
      omega)
  have htotal := UInt64.le_iff_toNat_le.1 (UInt64.not_lt.1 hlimit)
  have halloc : networkFundAllocation.toNat < 2 ^ 64 := UInt64.toNat_lt _
  rw [UInt64.toNat_add, hsum, Nat.mod_eq_of_lt] at htotal
  · exact htotal
  · show totalSpent (spendsFrom _ _) + _ < _
    unfold spendsFrom
    omega

theorem validateNetworkFundSpend_le {f : NetworkFundState} {amount height : UInt64}
    (h : validateNetworkFundSpend f amount height = .ok ()) : amount ≤ f.balance := by
  unfold validateNetworkFundSpend at h
  split_ifs at h with hzero hbalance
  exact UInt64.not_lt.1 hbalance

/-- The window of the check, in the naturals. -/
theorem windowSum_eq_totalSpent {h : UInt64} {l : List NetworkSpendEvent}
    (hl : ∀ e ∈ l, e.height.toNat ≤ h.toNat) :
    windowSum (·.height.toNat) (·.amount.toNat) networkFundWindowBlocks.toNat l h.toNat =
      totalSpent (spendsFrom (windowCutoff h) l) := by
  unfold windowSum totalSpent spendsFrom
  congr 2
  refine List.filter_congr fun e he => decide_eq_decide.2 ?_
  have hle := hl e he
  have hw : networkFundWindowBlocks.toNat = 21600 := rfl
  show h.toNat ≤ e.height.toNat + 21600 ∧ e.height.toNat ≤ h.toNat ↔ windowCutoff h ≤ e.height
  unfold windowCutoff
  split_ifs with hbig
  · rw [UInt64.le_iff_toNat_le, UInt64.toNat_sub_of_le _ _ hbig]
    omega
  · have hnat := UInt64.lt_iff_toNat_lt.1 (UInt64.not_le.1 hbig)
    rw [UInt64.le_iff_toNat_le]
    show _ ↔ 0 ≤ _
    omega

/-! ### Runs -/

/-- The spends that are recorded while a block is handed over. -/
def recordedSpends (env : Env) (n : Node) (d : Delivery) : List NetworkSpendEvent :=
  if reachesPremine env n d && n.initialized then
    fundSpends (performed env (blockEffects env n.dbHeight d.block.processedTxs) n.premine)
  else []

/-- A node that is handed blocks, with the spends it records. -/
def fundMachine (env : Env) : Machine Node Delivery NetworkSpendEvent where
  step n d := ((handleBlock env n d).1, recordedSpends env n d)

/-- No window of the recorded spends exceeds the limit, and what is recorded came out of the
balance. -/
structure FundKept (n : Node) (spends : List NetworkSpendEvent) : Prop where
  limited : Limited (·.height.toNat) (·.amount.toNat) networkFundWindowBlocks.toNat
    networkFundMonthlyLimit.toNat spends
  balance : n.premine.networkFund.balance.toNat + totalSpent spends = networkFundAllocation.toNat

/-- What has to hold of a block: one `0xC0` field at most, in a transaction that is checked and
spends the genesis output of the fund. -/
structure FundScreened (env : Env) (n : Node) (d : Delivery) : Prop where
  short : n.blocks.length + 2 < 2 ^ 64
  coinbase : d.block.minerTx.networkFundTransfer = none
  single : (d.block.processedTxs.filterMap FullTransaction.networkFundTransfer).length ≤ 1
  checked : ∀ t ∈ d.block.txs, t.tx.networkFundTransfer.isSome →
    d.fastCheck = false ∧ d.inputsVerified t.tx = false ∧
      t.tx.inputImages.contains env.networkKImage = true

/-- What a run keeps: beside the result, that the node remembers the spends a check needs. -/
structure FundTracked (n : Node) (spends : List NetworkSpendEvent) : Prop where
  initialized : n.initialized = true
  kept : FundKept n spends
  recent : n.premine.networkFund.recentSpends.Sublist spends
  window : spendsFrom (windowCutoff n.dbHeight) n.premine.networkFund.recentSpends =
    spendsFrom (windowCutoff n.dbHeight) spends
  heights : ∀ e ∈ spends, e.height.toNat ≤ n.blocks.length + 1

theorem fundTracked_freshNode : FundTracked freshNode [] :=
  ⟨rfl, ⟨limited_nil, rfl⟩, List.Sublist.refl _, rfl, by simp⟩

section

variable {env : Env} {n : Node} {d : Delivery} {spends : List NetworkSpendEvent}

/-- Every spend of a block is recorded at its height. -/
theorem recordedSpends_height {ev : NetworkSpendEvent} (h : ev ∈ recordedSpends env n d) :
    ev.height = n.dbHeight := by
  rw [recordedSpends] at h
  split_ifs at h
  · have hev := ((performed_isPrefix _ _).sublist.filterMap _).subset h
    change ev ∈ fundSpends _ at hev
    rw [fundSpends_blockEffects] at hev
    obtain ⟨t, -, rfl⟩ := List.mem_map.1 hev
    rfl
  · simp at h

/-- A screened block records at most one spend, and that was checked. -/
theorem FundScreened.recordedSpends_cases (h : FundScreened env n d) :
    recordedSpends env n d = [] ∨
      ∃ ev, recordedSpends env n d = [ev] ∧
        validateNetworkFundSpend n.premine.networkFund ev.amount (n.dbHeight - 1) = .ok () := by
  rw [recordedSpends]
  split_ifs with hreach
  · obtain ⟨hreach, hinit⟩ := Bool.and_eq_true _ _ ▸ hreach
    have hsub : (fundSpends (performed env (blockEffects env n.dbHeight d.block.processedTxs)
        n.premine)).Sublist _ := (performed_isPrefix _ _).sublist.filterMap Effect.fundSpend
    change (fundSpends _).Sublist (fundSpends _) at hsub
    rw [fundSpends_blockEffects] at hsub
    have hlen := hsub.length_le
    rw [List.length_map] at hlen
    have hsingle := h.single
    cases hs : fundSpends (performed env (blockEffects env n.dbHeight d.block.processedTxs)
        n.premine) with
    | nil => exact Or.inl rfl
    | cons ev rest =>
      rw [hs, List.length_cons] at hlen
      obtain rfl : rest = [] := List.length_eq_zero_iff.1 (by omega)
      refine Or.inr ⟨ev, rfl, ?_⟩
      have hev := hsub.subset (by rw [hs]; exact List.mem_cons_self ..)
      obtain ⟨t, ht, rfl⟩ := List.mem_map.1 hev
      obtain ⟨tx, htx, hfield⟩ := List.mem_filterMap.1 ht
      rcases List.mem_cons.1 htx with rfl | htx
      · rw [h.coinbase] at hfield
        cases hfield
      · obtain ⟨u, hu, rfl⟩ := List.mem_map.1 htx
        have hu := (List.mem_filter.1 hu).1
        obtain ⟨hfast, hver, himage⟩ := h.checked u hu (by rw [hfield]; rfl)
        have hok := checked_of_reachesPremine hreach hinit hfast hu hver
        obtain ⟨t', ht', hval⟩ := (checkPremineSpend_ok_iff.1 hok).2.1 himage
        obtain rfl : t' = t := Option.some.inj (ht'.symm.trans hfield)
        exact hval
  · exact Or.inl rfl

/-- The fund after a block, from the spends it records. -/
theorem networkFund_handleBlock (env : Env) (d : Delivery) (hinit : n.initialized = true) :
    (handleBlock env n d).1.premine.networkFund =
      (recordedSpends env n d).foldl recordSpend n.premine.networkFund := by
  rw [handleBlock_premine d hinit, recordedSpends, hinit, Bool.and_true]
  split_ifs
  · exact networkFund_runEffects ..
  · rfl

theorem processTxs_blocks (env : Env) (height : UInt64) (txs : List FullTransaction) (n : Node) :
    (processTxs env height txs n).1.blocks = n.blocks := by
  induction txs generalizing n with
  | nil => rfl
  | cons tx txs ih =>
    have hone : (processTx env n tx height).1.blocks = n.blocks := by
      unfold processTx
      split_ifs <;> rfl
    rw [processTxs]
    cases hr : processTx env n tx height with
    | mk n' ok =>
      rw [hr] at hone
      cases ok with
      | true => exact (ih n').trans hone
      | false => exact hone

/-- The chain grows by at most one block. -/
theorem handleBlock_blocks_length (env : Env) (n : Node) (d : Delivery) :
    n.blocks.length ≤ (handleBlock env n d).1.blocks.length ∧
      (handleBlock env n d).1.blocks.length ≤ n.blocks.length + 1 := by
  rw [handleBlock]
  split_ifs
  · have hblocks := processTxs_blocks env n.dbHeight
      (d.block.minerTx :: (d.block.txs.filter (·.full)).map (·.tx))
      { n with blocks := n.blocks ++ [d.block] }
    dsimp only
    generalize processTxs env n.dbHeight _ _ = r at hblocks ⊢
    obtain ⟨n', ok⟩ := r
    cases ok with
    | true =>
      rw [hblocks, List.length_append, List.length_singleton]
      omega
    | false => exact ⟨le_refl _, Nat.le_succ _⟩
  · exact ⟨le_refl _, Nat.le_succ _⟩

/-- The node remembers the spends of every later window. -/
theorem FundTracked.window_of_le (h : FundTracked n spends) {c : UInt64}
    (hc : windowCutoff n.dbHeight ≤ c) :
    spendsFrom c n.premine.networkFund.recentSpends = spendsFrom c spends := by
  rw [← spendsFrom_spendsFrom hc, h.window, spendsFrom_spendsFrom hc]

/-- A spend that was checked stays within the limit of its own window. -/
theorem FundTracked.windowSum_add_le (h : FundTracked n spends)
    (hshort : n.blocks.length + 2 < 2 ^ 64) {amount : UInt64}
    (hval : validateNetworkFundSpend n.premine.networkFund amount (n.dbHeight - 1) = .ok ()) :
    windowSum (·.height.toNat) (·.amount.toNat) networkFundWindowBlocks.toNat spends
      n.dbHeight.toNat + amount.toNat ≤ networkFundMonthlyLimit.toNat := by
  have hheight := n.toNat_dbHeight (by omega)
  have hrecent := totalSpent_le_of_sublist h.recent
  have hbalance := h.kept.balance
  have hcheck := totalSpent_add_le_of_validated hval (by omega)
  have hcutoff : windowCutoff (n.dbHeight - 1) ≤ windowCutoff n.dbHeight := by
    refine windowCutoff_mono ?_
    rw [UInt64.le_iff_toNat_le, UInt64.toNat_sub_of_le _ _ (by
      rw [UInt64.le_iff_toNat_le]; show 1 ≤ _; omega)]
    exact Nat.sub_le ..
  have hsub : totalSpent (spendsFrom (windowCutoff n.dbHeight) n.premine.networkFund.recentSpends) ≤
      totalSpent (spendsFrom (windowCutoff (n.dbHeight - 1))
        n.premine.networkFund.recentSpends) := by
    rw [← spendsFrom_spendsFrom hcutoff]
    exact totalSpent_le_of_sublist List.filter_sublist
  rw [windowSum_eq_totalSpent (by rw [hheight]; exact h.heights), ← h.window]
  omega

/-- **One block.** -/
theorem FundTracked.handleBlock (h : FundTracked n spends) (hd : FundScreened env n d) :
    FundTracked (handleBlock env n d).1 (spends ++ recordedSpends env n d) := by
  have hfund := networkFund_handleBlock env d h.initialized
  have hinit : (Premine.handleBlock env n d).1.initialized = true :=
    handleBlock_initialized d h.initialized
  obtain ⟨hlow, hhigh⟩ := handleBlock_blocks_length env n d
  have hshort := hd.short
  generalize (Premine.handleBlock env n d).1 = n' at hfund hinit hlow hhigh ⊢
  have hheight := n.toNat_dbHeight (by omega)
  have hmono : n.dbHeight ≤ n'.dbHeight := by
    rw [UInt64.le_iff_toNat_le, n'.toNat_dbHeight (by omega)]
    omega
  have hcutoff := windowCutoff_mono hmono
  rcases hd.recordedSpends_cases with hnone | ⟨ev, hone, hval⟩
  · rw [hnone] at hfund
    rw [hnone, List.append_nil]
    refine ⟨hinit, ⟨h.kept.limited, ?_⟩, ?_, ?_, fun e he => (h.heights e he).trans (by omega)⟩
    · rw [hfund]
      exact h.kept.balance
    · rw [hfund]
      exact h.recent
    · rw [hfund]
      exact h.window_of_le hcutoff
  · have hev : ev.height = n.dbHeight := recordedSpends_height (by rw [hone]; exact .head _)
    have hle := validateNetworkFundSpend_le hval
    have hnat := UInt64.le_iff_toNat_le.1 hle
    have hbalance := h.kept.balance
    rw [hone, List.foldl_cons] at hfund
    rw [hone]
    refine ⟨hinit, ⟨h.kept.limited.snoc ?_ ?_, ?_⟩, ?_, ?_, ?_⟩
    · intro e he
      rw [hev, hheight]
      exact h.heights e he
    · rw [hev]
      exact h.windowSum_add_le hshort hval
    · have hone' : totalSpent [ev] = ev.amount.toNat := Nat.add_zero _
      rw [hfund, totalSpent_append]
      show (n.premine.networkFund.balance - ev.amount).toNat + _ = _
      rw [UInt64.toNat_sub_of_le _ _ hle]
      omega
    · rw [hfund]
      exact List.filter_sublist.trans (h.recent.append (List.Sublist.refl _))
    · rw [hfund]
      show spendsFrom _ (spendsFrom (windowCutoff ev.height) (_ ++ [ev])) = _
      rw [hev, spendsFrom_spendsFrom hcutoff, spendsFrom_append, spendsFrom_append,
        h.window_of_le hcutoff]
    · intro e he
      rcases List.mem_append.1 he with he | he
      · exact (h.heights e he).trans (by omega)
      · rw [List.mem_singleton.1 he, hev]
        omega

end

/-- **The rate limit holds** of every run whose blocks are screened, and what is recorded comes
out of the balance. -/
theorem fund_rate_limited (env : Env) (ds : List Delivery)
    (h : (fundMachine env).Guarded (FundScreened env) freshNode ds) :
    FundKept ((fundMachine env).run freshNode ds).1 ((fundMachine env).run freshNode ds).2 :=
  have hrun : FundTracked _ _ := (fundMachine env).run_invariant fundTracked_freshNode
    (fun _ _ _ hn hd => hn.handleBlock hd) h
  hrun.kept

/-- A block whose one transaction spends an output and records a spend of the fund. -/
def fundBlock (image : KeyImage) (amount : UInt64) : Delivery where
  block :=
    { minerTx := {}
      txs := [{ tx :=
        { vin := [.toKey 0 [] image]
          extra := (TxExtraField.networkFundTransfer
            ⟨amount, Pod32.single 7, Pod32.single 8⟩).write } }] }

/-- **A spend above the limit is recorded**, in a transaction that does not spend the genesis
output. -/
theorem fundBlock_exceeds_limit :
    ¬ ∀ (env : Env) (ds : List Delivery), (connect env ds freshNode).2 = true →
        FundKept ((fundMachine env).run freshNode ds).1 ((fundMachine env).run freshNode ds).2 := by
  intro h
  have hkept := h openEnv (quietChain ++ [fundBlock (Pod32.single 5) (networkFundMonthlyLimit + 1)])
    (by decide +kernel)
  have hlimited := hkept.limited 61
  revert hlimited
  decide +kernel

/-- A spend of the genesis output within the limit. -/
theorem fundBlock_keeps_limit :
    FundKept ((fundMachine openEnv).run freshNode [fundBlock openEnv.networkKImage 7]).1
      ((fundMachine openEnv).run freshNode [fundBlock openEnv.networkKImage 7]).2 :=
  fund_rate_limited openEnv [fundBlock openEnv.networkKImage 7]
    ⟨⟨by decide, by decide +kernel, by decide +kernel, by decide +kernel⟩, trivial⟩

end Mevacoin.Premine
