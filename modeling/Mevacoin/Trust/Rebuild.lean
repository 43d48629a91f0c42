import Mevacoin.Trust.Manager

/-!
# Rebuilding from the chain

The two procedures of `mevatrust_manager.cpp` that clear a part of the state and put the blocks of
the chain through `process_mevatrust_txs` again.
-/

namespace Mevacoin.Trust

open Lib Std

section

variable {F : Type} [FloatArith F] (D : Type) [FloatArith D]

/-- Blocks that go through `process_mevatrust_txs` again. -/
def reprocess (blocks : List (BlockCtx × BlockClock)) (s : Manager F) : Manager F :=
  blocks.foldl (fun s b => processMevatrustTxs D b.1 b.2 s) s

/-- `rebuild_registry_from_chain`: `clear_all` empties the three maps of the node registry. -/
def rebuildRegistryFromChain (blocks : List (BlockCtx × BlockClock)) (s : Manager F) : Manager F :=
  if s.initialized = false then s else reprocess D blocks { s with registry := {} }

omit [FloatArith F] in
/-- `clear_chain_uptime_samples` and `clear_chain_proof_samples`. -/
def Manager.clearSamples (s : Manager F) : Manager F :=
  { s with engine := { s.engine with chainUptimeSamples := ∅, chainProofSamples := ∅ } }

/-- `rebuild_uptime_samples_from_chain`. -/
def rebuildUptimeSamplesFromChain (blocks : List (BlockCtx × BlockClock)) (s : Manager F) :
    Manager F :=
  if s.initialized = false then s else reprocess D blocks s.clearSamples

end

end Mevacoin.Trust
