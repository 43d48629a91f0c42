import Mevacoin.Keys

/-!
# Transactions

The parts of `transaction_prefix` (`src/cryptonote_basic/cryptonote_basic.h`) that the premine and
MevaTrust rules read.
-/

namespace Mevacoin

open Lib

/-- `account_public_address`. -/
structure AccountAddress where
  spendPublicKey : PublicKey
  viewPublicKey : PublicKey
deriving DecidableEq

/-- `txin_v`; the two script inputs carry nothing that is read. -/
inductive TxIn where
  | gen (height : UInt64)
  | toScript
  | toScriptHash
  | toKey (amount : UInt64) (keyOffsets : List UInt64) (kImage : KeyImage)
deriving DecidableEq

/-- `txout_target_v`; the two script targets carry nothing that is read. -/
inductive TxOutTarget where
  | toScript
  | toScriptHash
  | toKey (key : PublicKey)
  | toTaggedKey (key : PublicKey) (viewTag : UInt8)
deriving DecidableEq

/-- `tx_out`. -/
structure TxOut where
  amount : UInt64
  target : TxOutTarget
deriving DecidableEq

/-- `transaction_prefix`. -/
structure Transaction where
  version : UInt64 := 1
  unlockTime : UInt64 := 0
  vin : List TxIn := []
  vout : List TxOut := []
  extra : Bytes := []
deriving DecidableEq

/-- `set_tx_out`: a tagged target or a plain one. -/
def setTxOut (amount : UInt64) (outputPublicKey : PublicKey) (useViewTags : Bool)
    (viewTag : UInt8) : TxOut :=
  ⟨amount, if useViewTags then .toTaggedKey outputPublicKey viewTag else .toKey outputPublicKey⟩

/-- `HF_VERSION_VIEW_TAGS`. -/
def hfVersionViewTags : UInt8 := 15

namespace TxOutTarget

/-- `target.type() == typeid(txout_to_key)`. -/
def isToKey : TxOutTarget → Bool
  | .toKey _ => true
  | _ => false

/-- `target.type() == typeid(txout_to_tagged_key)`. -/
def isToTaggedKey : TxOutTarget → Bool
  | .toTaggedKey _ _ => true
  | _ => false

end TxOutTarget

/-- `check_output_types`.  At the fork of the view tags all outputs must be of the kind of the
first. -/
def checkOutputTypes (tx : Transaction) (hfVersion : UInt8) : Bool :=
  tx.vout.all fun o =>
    if hfVersionViewTags < hfVersion then o.target.isToTaggedKey
    else if hfVersion < hfVersionViewTags then o.target.isToKey
    else (o.target.isToKey || o.target.isToTaggedKey) &&
      tx.vout.head?.all fun first =>
        o.target.isToKey = first.target.isToKey &&
          o.target.isToTaggedKey = first.target.isToTaggedKey

end Mevacoin
