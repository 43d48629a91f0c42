import Mevacoin.Premine.Rules

/-!
# A node: the chain, the premine state in memory, and the stored properties

The functions of `src/cryptonote_core/blockchain.cpp` that change the main chain, seen from the
premine state.  What the rest of the code says about a block is an input, in `Delivery`.
-/

namespace Mevacoin.Premine

/-- A transaction of a stored block.  The database returns it whole unless it is pruned. -/
structure StoredTx where
  tx : FullTransaction
  full : Bool := true
deriving DecidableEq

/-- A block above the genesis block. -/
structure ChainBlock where
  minerTx : FullTransaction
  txs : List StoredTx := []
deriving DecidableEq

/-- All transactions of a block, in the order in which they are processed. -/
def ChainBlock.allTxs (b : ChainBlock) : List FullTransaction := b.minerTx :: b.txs.map (·.tx)

/-- A block that is handed to `handle_block_to_main_chain`, and what the rest of the code says
about it. -/
structure Delivery where
  block : ChainBlock
  /-- Its hash is one of the precomputed ones. -/
  fastCheck : Bool := false
  /-- The pool's verification id of a transaction is still right. -/
  inputsVerified : FullTransaction → Bool := fun _ => false
  /-- Every other check before the block is stored. -/
  rulesOk : Bool := true
  /-- Every check after it is stored and before the premine actions. -/
  stateRootOk : Bool := true

/-- What a node keeps. -/
structure Node where
  /-- `m_premine_initialized`. -/
  initialized : Bool
  /-- `m_governance` and `m_network_fund`. -/
  premine : PremineState
  /-- The blocks above the genesis block, from height 1. -/
  blocks : List ChainBlock
  properties : Properties

/-- `m_db->height()`: the genesis block counts. -/
def Node.dbHeight (n : Node) : UInt64 := UInt64.ofNat (n.blocks.length + 1)

/-- The height counts genesis. -/
theorem Node.toNat_dbHeight (n : Node) (h : n.blocks.length + 1 < 2 ^ 64) :
    n.dbHeight.toNat = n.blocks.length + 1 :=
  UInt64.toNat_ofNat_of_lt' h

/-! ### Adding a block -/

/-- `process_premine_actions`, with what it stores. -/
def processTx (env : Env) (n : Node) (tx : FullTransaction) (height : UInt64) : Node × Bool :=
  if n.initialized = false then (n, true)
  else
    let r := processPremineActions env n.premine tx height
    let properties := if r.2 && acts env tx then savedProperties r.1 height else n.properties
    ({ n with premine := r.1, properties := properties }, r.2)

/-- Process transactions until one fails. -/
def processTxs (env : Env) (height : UInt64) : List FullTransaction → Node → Node × Bool
  | [], n => (n, true)
  | tx :: txs, n =>
    match processTx env n tx height with
    | (n', true) => processTxs env height txs n'
    | (n', false) => (n', false)

/-- The premine part of `check_tx_inputs` for a block, unless its hash is precomputed or the
verification id known. -/
def checkBlock (env : Env) (n : Node) (d : Delivery) : Bool :=
  n.initialized = false || d.fastCheck || d.block.txs.all fun t =>
    d.inputsVerified t.tx || (checkPremineSpend env n.premine t.tx (n.dbHeight - 1)).isOk

/-- The block is stored and stays until its premine actions are processed. -/
def reachesPremine (env : Env) (n : Node) (d : Delivery) : Bool :=
  d.rulesOk && checkBlock env n d && d.stateRootOk

/-- `handle_block_to_main_chain`.  A block whose premine actions fail is popped; the state is
not restored. -/
def handleBlock (env : Env) (n : Node) (d : Delivery) : Node × Bool :=
  if reachesPremine env n d then
    let stored := { n with blocks := n.blocks ++ [d.block] }
    -- a transaction that cannot be read back is skipped
    let txs := d.block.minerTx :: (d.block.txs.filter (·.full)).map (·.tx)
    match processTxs env n.dbHeight txs stored with
    | (n', true) => (n', true)
    | (n', false) => ({ n' with blocks := n.blocks }, false)
  else (n, false)

/-- Add blocks until one is refused. -/
def connect (env : Env) : List Delivery → Node → Node × Bool
  | [], n => (n, true)
  | d :: ds, n =>
    match handleBlock env n d with
    | (n', true) => connect env ds n'
    | (n', false) => (n', false)

/-! ### Removing blocks -/

/-- The transactions of one block in `rebuild_premine_state`: one that cannot be read back
ends the rebuild. -/
def replayTxs (env : Env) (height : UInt64) : List StoredTx → Node → Node × Bool
  | [], n => (n, true)
  | t :: txs, n =>
    if t.full = false then (n, false)
    else
      match processTx env n t.tx height with
      | (n', true) => replayTxs env height txs n'
      | (n', false) => (n', false)

/-- The loop of `rebuild_premine_state` over the blocks from a height on. -/
def replayBlocks (env : Env) : List ChainBlock → ℕ → Node → Node × Bool
  | [], _, n => (n, true)
  | b :: bs, h, n =>
    match processTx env n b.minerTx (UInt64.ofNat h) with
    | (n', false) => (n', false)
    | (n', true) =>
      match replayTxs env (UInt64.ofNat h) b.txs n' with
      | (n'', false) => (n'', false)
      | (n'', true) => replayBlocks env bs (h + 1) n''

/-- `rebuild_premine_state`.  With only the genesis block left it does nothing. -/
def rebuildPremineState (env : Env) (n : Node) : Node × Bool :=
  if n.blocks = [] then (n, true)
  else replayBlocks env n.blocks 1 { n with premine := genesisState }

/-- `pop_block_from_blockchain`; the genesis block is not popped. -/
def popBlock (n : Node) : Node := { n with blocks := n.blocks.dropLast }

/-- Keep the lowest blocks, then rebuild; the result of the rebuild is only logged. -/
def truncate (env : Env) (n : Node) (keep : ℕ) : Node :=
  let popped := { n with blocks := n.blocks.take keep }
  if n.initialized then (rebuildPremineState env popped).1 else popped

/-- `pop_blocks`. -/
def popBlocks (env : Env) (n : Node) (nblocks : ℕ) : Node :=
  truncate env n (n.blocks.length - nblocks)

/-- `rollback_blockchain_switching` to a chain of `keep` blocks above the genesis block. -/
def rollbackBlockchainSwitching (env : Env) (n : Node) (originalChain : List Delivery)
    (keep : ℕ) : Node × Bool :=
  if n.blocks.length < keep then (n, true)
  else connect env originalChain (truncate env n keep)

/-- `switch_to_alternative_blockchain` with a chain that forks after `keep` blocks.  If one of its
blocks is refused, the old blocks are added again, as `again` says. -/
def switchToAlternativeBlockchain (env : Env) (n : Node) (altChain : List Delivery) (keep : ℕ)
    (again : ChainBlock → Delivery) : Node × Bool :=
  if altChain = [] ∨ n.blocks.length < keep then (n, false)
  else
    match connect env altChain (truncate env n keep) with
    | (n', true) => (n', true)
    | (n', false) =>
      let original := (n.blocks.drop keep).map fun b => { again b with block := b }
      ((rollbackBlockchainSwitching env n' original keep).1, false)

/-! ### Starting -/

/-- The persisted state is taken if it was stored at the height of the tip. -/
def havePersistedState (n : Node) : Bool :=
  match n.properties.premineHeight with
  | none => false
  | some saved => saved ≠ 0xFFFFFFFFFFFFFFFF && saved + 1 = n.dbHeight

/-- `init_premine_state` without a persisted state.  `m_premine_initialized` is still false. -/
def initFromGenesis (env : Env) (n : Node) : Node × Bool :=
  match rebuildPremineState env { n with initialized := false, premine := genesisState } with
  | (n', true) => ({ n' with initialized := true }, true)
  | (n', false) => (n', false)

/-- `init_premine_state` on the database of a node. -/
def initPremineState (env : Env) (n : Node) : Node × Bool :=
  if havePersistedState n then
    match loadGovernanceState n.properties, loadNetworkFundState n.properties with
    | some g, some f => ({ n with initialized := true, premine := ⟨g, f⟩ }, true)
    | _, _ => initFromGenesis env n
  else initFromGenesis env n

/-- A node that started on a database with only the genesis block. -/
def freshNode : Node := ⟨true, genesisState, [], ⟨none, none, none⟩⟩

/-! ### A small world -/

/-- Every signature verifies, and no output is the governance's. -/
def openEnv : Env where
  crypto := ⟨fun _ => Pod32.null, fun _ _ _ => true⟩
  prefixHash _ := Pod32.null
  treasuryKImage := Pod32.single 1
  networkKImage := Pod32.single 2
  ownedOutput _ _ := none

/-- A block whose one transaction adds a signer, signed by two genesis signers. -/
def addSignerBlock : Delivery where
  block :=
    { minerTx := {}
      txs := [{ tx :=
        { vin := [.toKey 0 [] (Pod32.single 6)]
          extra := (TxExtraField.governanceAddSigner ⟨Pod32.single 9,
            (genesisGovernanceSigners.take 2).map fun k =>
              ⟨k, Pod32.null, Pod32.null⟩⟩).write } }] }

/-- A block in which nothing acts. -/
def quietBlock : Delivery where
  block := { minerTx := {} }

/-- Sixty such blocks, after which the first coinbases can be spent. -/
def quietChain : List Delivery := List.replicate 60 quietBlock

end Mevacoin.Premine
