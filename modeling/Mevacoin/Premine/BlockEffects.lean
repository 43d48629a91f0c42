import Mevacoin.Premine.Effects
import Mevacoin.Premine.Node

/-!
# A block as a list of effects

In memory the transactions of a block are the list of their effects, applied until one fails.
-/

namespace Mevacoin.Premine

open Lib

variable {env : Env} {height : UInt64}

/-! ### One effect, component by component -/

/-- What an effect demands of the state. -/
def Effect.Admissible (s : PremineState) : Effect → Prop
  | .transfer amount => amount ≤ s.governance.balance
  | .removeSigner index => s.governance.originalCount.toNat ≤ index.toNat
  | .networkSpend _ amount => amount ≤ s.networkFund.balance
  | _ => True

/-- The signers after an effect. -/
def Effect.editSigners : Effect → List PublicKey → List PublicKey
  | .addSigner key, l => l ++ [key]
  | .removeSigner index, l => l.eraseIdx index.toNat
  | _, l => l

/-- The key images an effect records. -/
def Effect.newImages : Effect → List KeyImage
  | .deposit _ images _ => images
  | _ => []

/-- What an effect adds to the treasury's balance, given the images that are known. -/
def Effect.credit (env : Env) (g : GovernanceState) : Effect → UInt64
  | .deposit spent _ total => if spendsGovernance env g spent then 0 else total
  | _ => 0

/-- What an effect takes from the treasury's balance. -/
def Effect.debit : Effect → UInt64
  | .transfer amount => amount
  | _ => 0

/-- The spend of the network fund that an effect records. -/
def Effect.fundSpend : Effect → Option NetworkSpendEvent
  | .networkSpend height amount => some ⟨height, amount⟩
  | _ => none

/-- The recent spends after an effect: a new one pushes out those before its window. -/
def Effect.editSpends (e : Effect) (l : List NetworkSpendEvent) : List NetworkSpendEvent :=
  match e.fundSpend with
  | none => l
  | some ev => spendsFrom (windowCutoff ev.height) (l ++ [ev])

/-- The state after an effect that is admissible. -/
def Effect.result (env : Env) (e : Effect) (s : PremineState) : PremineState where
  governance :=
    { signers := e.editSigners s.governance.signers
      originalCount := s.governance.originalCount
      balance := s.governance.balance + e.credit env s.governance - e.debit
      threshold := s.governance.threshold
      bondKeyImages := addImages s.governance.bondKeyImages e.newImages }
  networkFund :=
    { balance := s.networkFund.balance - (e.fundSpend.map (·.amount)).getD 0
      recentSpends := e.editSpends s.networkFund.recentSpends }

/-- **What one effect does**: it is refused, or it changes each component as described. -/
theorem Effect.apply_eq_some_iff {e : Effect} {s s' : PremineState} :
    e.apply env s = some s' ↔ e.Admissible s ∧ s' = e.result env s := by
  cases e with
  | deposit spent images total =>
    simp only [Effect.apply, Effect.Admissible, Effect.result, Effect.credit, Effect.debit,
      Effect.editSigners, Effect.newImages, Effect.fundSpend, Effect.editSpends, Option.some.injEq,
      true_and, Option.map_none, Option.getD_none, UInt64.sub_zero]
    rw [eq_comm]
    split_ifs
    · rw [UInt64.add_zero]
    · rfl
  | transfer amount =>
    simp only [Effect.apply, Effect.Admissible, Effect.result, Effect.credit, Effect.fundSpend,
      Option.map_none, Option.getD_none, UInt64.sub_zero, UInt64.add_zero]
    split_ifs with h
    · simp [UInt64.not_le.2 h]
    · rw [Option.some.injEq, eq_comm]
      exact (and_iff_right (UInt64.not_lt.1 h)).symm
  | addSigner key =>
    simp only [Effect.apply, Effect.Admissible, Effect.result, Effect.credit, Effect.debit,
      Effect.fundSpend, Option.some.injEq,
      true_and, Option.map_none, Option.getD_none, UInt64.sub_zero, UInt64.add_zero]
    rw [eq_comm]
    rfl
  | removeSigner index =>
    simp only [Effect.apply, Effect.Admissible, Effect.result, Effect.credit, Effect.debit,
      Effect.fundSpend, Option.map_none,
      Option.getD_none, UInt64.sub_zero, UInt64.add_zero]
    split_ifs with h
    · simp [not_le.2 h]
    · rw [Option.some.injEq, eq_comm]
      exact (and_iff_right (not_lt.1 h)).symm
  | networkSpend height amount =>
    simp only [Effect.apply, Effect.Admissible, Effect.result, Effect.credit, Effect.debit,
      UInt64.sub_zero, UInt64.add_zero]
    split_ifs with h
    · simp [UInt64.not_le.2 h]
    · rw [Option.some.injEq, eq_comm]
      exact (and_iff_right (UInt64.not_lt.1 h)).symm

/-! ### Lists of effects -/

/-- Effects in sequence. -/
theorem runEffects_append (es es' : List Effect) (s : PremineState) :
    runEffects env (es ++ es') s =
      match runEffects env es s with
      | (s', true) => runEffects env es' s'
      | (s', false) => (s', false) := by
  induction es generalizing s with
  | nil => rfl
  | cons e es ih =>
    rw [List.cons_append, runEffects, runEffects]
    cases e.apply env s with
    | none => rfl
    | some s₁ => exact ih s₁

/-- The effects that are applied, up to the first failure. -/
def performed (env : Env) : List Effect → PremineState → List Effect
  | [], _ => []
  | e :: es, s =>
    match e.apply env s with
    | none => []
    | some s' => e :: performed env es s'

/-- A prefix is performed. -/
theorem performed_isPrefix (es : List Effect) (s : PremineState) : performed env es s <+: es := by
  induction es generalizing s with
  | nil => exact List.prefix_rfl
  | cons e es ih =>
    rw [performed]
    cases e.apply env s with
    | none => exact List.nil_prefix
    | some s₁ => exact (List.prefix_cons_inj e).2 (ih s₁)

/-- **The rule for lists of effects**: what every admissible effect keeps holds at the end. -/
theorem runEffects_trace {P : PremineState → List Effect → Prop} {es : List Effect}
    {s : PremineState} (pre : List Effect) (hs : P s pre)
    (hstep : ∀ e ∈ es, ∀ a applied, P a applied → e.Admissible a →
      P (e.result env a) (applied ++ [e])) :
    P (runEffects env es s).1 (pre ++ performed env es s) := by
  induction es generalizing s pre with
  | nil =>
    show P s (pre ++ [])
    rwa [List.append_nil]
  | cons e es ih =>
    rw [runEffects, performed]
    cases he : e.apply env s with
    | none =>
      rwa [List.append_nil]
    | some s₁ =>
      obtain ⟨hadm, rfl⟩ := Effect.apply_eq_some_iff.1 he
      have hnext := ih (pre ++ [e]) (hstep e (List.mem_cons_self ..) s pre hs hadm)
        fun e' he' => hstep e' (List.mem_cons_of_mem _ he')
      rwa [List.append_assoc] at hnext

/-- The effects of transactions at one height, in order. -/
def blockEffects (env : Env) (height : UInt64) (txs : List FullTransaction) : List Effect :=
  txs.flatMap fun tx => effects env tx height

@[simp] theorem blockEffects_nil : blockEffects env height [] = [] := rfl

theorem blockEffects_cons (tx : FullTransaction) (txs : List FullTransaction) :
    blockEffects env height (tx :: txs) =
      effects env tx height ++ blockEffects env height txs := rfl

/-- **Processing transactions is applying their effects.** -/
theorem processTxs_premine (env : Env) (height : UInt64) (txs : List FullTransaction) {n : Node}
    (hinit : n.initialized = true) :
    ((processTxs env height txs n).1.premine, (processTxs env height txs n).2) =
      runEffects env (blockEffects env height txs) n.premine := by
  induction txs generalizing n with
  | nil => rfl
  | cons tx txs ih =>
    rw [blockEffects_cons, runEffects_append]
    rw [processTxs, processTx, hinit]
    unfold processPremineActions
    cases hr : runEffects env (effects env tx height) n.premine with
    | mk s ok =>
      cases ok with
      | true =>
        exact ih (n := ⟨true, s, n.blocks, _⟩) rfl
      | false => rfl

/-- The transactions of a block that are processed: one that cannot be read back is skipped. -/
def ChainBlock.processedTxs (b : ChainBlock) : List FullTransaction :=
  b.minerTx :: (b.txs.filter (·.full)).map (·.tx)

/-- **What handing over a block does to the premine state.** -/
theorem handleBlock_premine {n : Node} (d : Delivery) (hinit : n.initialized = true) :
    (handleBlock env n d).1.premine =
      if reachesPremine env n d then
        (runEffects env (blockEffects env n.dbHeight d.block.processedTxs) n.premine).1
      else n.premine := by
  rw [handleBlock]
  split_ifs with hreach
  · have hrun := processTxs_premine env n.dbHeight d.block.processedTxs
      (n := { n with blocks := n.blocks ++ [d.block] }) hinit
    unfold ChainBlock.processedTxs at hrun ⊢
    rw [← hrun]
    dsimp only
    generalize processTxs env n.dbHeight _ _ = r
    obtain ⟨n', ok⟩ := r
    cases ok <;> rfl
  · rfl

/-- Handing over a block does not end the enforcement. -/
theorem handleBlock_initialized {n : Node} (d : Delivery) (hinit : n.initialized = true) :
    (handleBlock env n d).1.initialized = true := by
  have hrun (height : UInt64) (txs : List FullTransaction) (n : Node)
      (hn : n.initialized = true) : (processTxs env height txs n).1.initialized = true := by
    induction txs generalizing n with
    | nil => exact hn
    | cons tx txs ih =>
      rw [processTxs, processTx, hn]
      dsimp only
      cases (processPremineActions env n.premine tx height).2 with
      | true => exact ih _ rfl
      | false => rfl
  rw [handleBlock]
  split_ifs
  · have hstored := hrun n.dbHeight (d.block.minerTx :: (d.block.txs.filter (·.full)).map (·.tx))
      { n with blocks := n.blocks ++ [d.block] } hinit
    dsimp only
    generalize processTxs env n.dbHeight _ _ = r at hstored ⊢
    obtain ⟨n', ok⟩ := r
    cases ok <;> exact hstored
  · exact hinit

end Mevacoin.Premine
