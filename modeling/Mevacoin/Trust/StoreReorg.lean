import Mevacoin.Trust.ChainHistory
import Mevacoin.Trust.StoreAuthority

/-!
# The store and reorganisations

`on_mevatrust_block_popped` does nothing with the log entry of a store operation.
-/

namespace Mevacoin.Trust

open Lib Std

namespace StoreRegistry

/-! ### Operations that are refused -/

/-- **The operation is refused**: without a deposit, or when the shop, the item or the purchase is
not there or not in the right state or hands. -/
def Refuses (r : StoreRegistry) (cr : Crypto) (pool : AccountAddress) (tx : Transaction)
    (op : StoreOp) (height : UInt64) : Prop :=
  match StoreOperation.ofUInt8 op.op with
  | none => True
  | some .storeCreate => hasDeposit pool tx = true →
      splitPercentages op.euroEnabled op.mvcPercent op.euroPercent = none ∨
        r.stores.contains (xorPod (cr.cnFastHash op.ownerPubkey.data)
          (cr.cnFastHash (op.name ++ leBytes 8 height.toNat))) = true
  | some .storeUpdate => ∀ e ∈ r.stores[op.storeId]?,
      (!e.active ∨ e.ownerPubkey ≠ op.ownerPubkey) ∨
        splitPercentages op.euroEnabled op.mvcPercent op.euroPercent = none
  | some .itemList => hasDeposit pool tx = true → ∀ e ∈ r.stores[op.storeId]?,
      !e.active ∨ maxItemsPerStore ≤ e.itemCount ∨ op.price = 0
  | some .itemDelist => ∀ item ∈ r.items[op.itemId]?,
      (!item.active ∨ item.storeId ≠ op.storeId) ∨
        ∀ e ∈ r.stores[op.storeId]?, e.ownerPubkey ≠ op.ownerPubkey
  | some .itemBuy => ∀ item ∈ r.items[op.itemId]?,
      (!item.active ∨ item.quantity = 0) ∨ item.storeId ≠ op.storeId ∨
        r.isItemPurchased op.itemId op.buyerPubkey = true
  | some .storeConfirm | some .storeCancel => r.ownedBySeller op = true →
      ∀ p ∈ r.findPurchase op, p.status ≠ .pending ∨ p.confirmExpiryHeight < height
  | some .storeDeactivate => ∀ e ∈ r.stores[op.storeId]?,
      e.ownerPubkey ≠ op.ownerPubkey ∨ e.active = false
  | some .buyerCancel =>
    ∀ p ∈ r.findPurchase op, p.status ≠ .pending ∨ p.confirmExpiryHeight < height
  | some .buyerConfirmReceipt => ∀ p ∈ r.findPurchase op, p.status ≠ .confirmed

variable {r : StoreRegistry} {cr : Crypto} {op : StoreOp} {height now : UInt64}

instance (pool : AccountAddress) (tx : Transaction) :
    Decidable (r.Refuses cr pool tx op height) := by
  unfold Refuses
  split <;> infer_instance

/-- A creation refused. -/
theorem createStore_of_refused
    (h : splitPercentages op.euroEnabled op.mvcPercent op.euroPercent = none ∨
      r.stores.contains (xorPod (cr.cnFastHash op.ownerPubkey.data)
        (cr.cnFastHash (op.name ++ leBytes 8 height.toNat))) = true) :
    r.createStore cr op height now = r := by
  unfold createStore
  split
  · rfl
  · rename_i hsplit
    obtain h | h := h
    · rw [h] at hsplit
      cases hsplit
    · exact if_pos h

/-- An update refused. -/
theorem updateStore_eq_none (h : ∀ e ∈ r.stores[op.storeId]?,
    (!e.active ∨ e.ownerPubkey ≠ op.ownerPubkey) ∨
      splitPercentages op.euroEnabled op.mvcPercent op.euroPercent = none) :
    r.updateStore op = none := by
  refine Option.eq_none_iff_forall_ne_some.2 fun r' hr' => ?_
  obtain ⟨e, he, hr'⟩ := Option.bind_eq_some_iff.1 hr'
  obtain ⟨hopen, hr'⟩ := Option.ite_none_left_eq_some.1 hr'
  obtain ⟨split, hsplit, -⟩ := Option.bind_eq_some_iff.1 hr'
  obtain hshut | hnone := h e he
  · exact hopen hshut
  · rw [hnone] at hsplit
    cases hsplit

/-- A listing refused. -/
theorem listItem_eq_none (h : ∀ e ∈ r.stores[op.storeId]?,
    !e.active ∨ maxItemsPerStore ≤ e.itemCount ∨ op.price = 0) :
    r.listItem cr op height = none := by
  refine Option.eq_none_iff_forall_ne_some.2 fun r' hr' => ?_
  obtain ⟨e, he, hr'⟩ := Option.bind_eq_some_iff.1 hr'
  exact (Option.ite_none_left_eq_some.1 hr').1 (h e he)

/-- A delisting refused. -/
theorem delistItem_eq_none {storeId itemId : Hash} {caller : PublicKey}
    (h : ∀ item ∈ r.items[itemId]?, (!item.active ∨ item.storeId ≠ storeId) ∨
      ∀ e ∈ r.stores[storeId]?, e.ownerPubkey ≠ caller) :
    r.delistItem storeId itemId caller = none := by
  refine Option.eq_none_iff_forall_ne_some.2 fun r' hr' => ?_
  obtain ⟨item, hitem, hr'⟩ := Option.bind_eq_some_iff.1 hr'
  obtain ⟨hopen, hr'⟩ := Option.ite_none_left_eq_some.1 hr'
  obtain ⟨e, he, hr'⟩ := Option.bind_eq_some_iff.1 hr'
  obtain hgone | hother := h item hitem
  · exact hopen hgone
  · exact (Option.ite_none_left_eq_some.1 hr').1 (hother e he)

/-- A purchase refused. -/
theorem buyItem_eq_none (h : ∀ item ∈ r.items[op.itemId]?,
    (!item.active ∨ item.quantity = 0) ∨ item.storeId ≠ op.storeId ∨
      r.isItemPurchased op.itemId op.buyerPubkey = true) : r.buyItem op height now = none := by
  refine Option.eq_none_iff_forall_ne_some.2 fun r' hr' => ?_
  obtain ⟨item, hitem, hr'⟩ := Option.bind_eq_some_iff.1 hr'
  obtain ⟨havailable, hr'⟩ := Option.ite_none_left_eq_some.1 hr'
  obtain ⟨hshop, hr'⟩ := Option.ite_none_left_eq_some.1 hr'
  obtain ⟨hnew, -⟩ := Option.ite_none_left_eq_some.1 hr'
  obtain h | h | h := h item hitem
  · exact havailable h
  · exact hshop h
  · exact hnew h

/-- A closing refused. -/
theorem closePurchase_eq_none {status : PurchaseStatus} {txid : Hash}
    (h : ∀ p ∈ r.findPurchase op, p.status ≠ .pending ∨ p.confirmExpiryHeight < height) :
    r.closePurchase op status txid height = none := by
  refine Option.eq_none_iff_forall_ne_some.2 fun r' hr' => ?_
  obtain ⟨p, hp, hr'⟩ := Option.bind_eq_some_iff.1 hr'
  exact (Option.ite_none_left_eq_some.1 hr').1 (h p hp)

/-- A cancellation refused. -/
theorem cancelPurchase_eq_none {txid : Hash}
    (h : ∀ p ∈ r.findPurchase op, p.status ≠ .pending ∨ p.confirmExpiryHeight < height) :
    r.cancelPurchase op txid height = none := by
  rw [cancelPurchase, closePurchase_eq_none h, Option.map_none]

/-- A receipt refused. -/
theorem buyerConfirmReceipt_eq_none (h : ∀ p ∈ r.findPurchase op, p.status ≠ .confirmed) :
    r.buyerConfirmReceipt op height = none := by
  refine Option.eq_none_iff_forall_ne_some.2 fun r' hr' => ?_
  obtain ⟨p, hp, hr'⟩ := Option.bind_eq_some_iff.1 hr'
  exact (Option.ite_none_left_eq_some.1 hr').1 (h p hp)

/-- A shop that is closed once more stays as it is. -/
theorem deactivateStore_of_refused {storeId : Hash} {caller : PublicKey}
    (h : ∀ e ∈ r.stores[storeId]?, e.ownerPubkey ≠ caller ∨ e.active = false) :
    (r.deactivateStore storeId caller).getD r = r := by
  unfold deactivateStore
  cases he : r.stores[storeId]? with
  | none => rfl
  | some e =>
    show Option.getD (if e.ownerPubkey ≠ caller then none
      else some { r with stores := r.stores.insert storeId { e with active := false } }) r = r
    split_ifs with howner
    · rfl
    · have hclosed : ({ e with active := false } : StoreEntry) = e := by
        rw [← (h e he).resolve_left howner]
      rw [hclosed, insert_of_present he]
      rfl

/-- **A refused operation does nothing.** -/
theorem Refuses.apply {pool : AccountAddress} {tx : Transaction} (txHash : Hash)
    (h : r.Refuses cr pool tx op height) : r.apply cr pool tx txHash op height now = r := by
  unfold Refuses at h
  unfold StoreRegistry.apply
  split
  case h_1 => rfl
  case h_2 hop =>
    rw [hop] at h
    split_ifs with hdeposit
    · exact createStore_of_refused (h hdeposit)
    · rfl
  case h_3 hop =>
    rw [hop] at h
    rw [updateStore_eq_none h, Option.getD_none]
  case h_4 hop =>
    rw [hop] at h
    split_ifs with hdeposit
    · rw [listItem_eq_none (h hdeposit), Option.getD_none]
    · rfl
  case h_5 hop =>
    rw [hop] at h
    rw [delistItem_eq_none h, Option.getD_none]
  case h_6 hop =>
    rw [hop] at h
    rw [buyItem_eq_none h, Option.getD_none]
  case h_7 hop =>
    rw [hop] at h
    split_ifs with hseller
    · rw [confirmPurchase, closePurchase_eq_none (h hseller), Option.getD_none]
    · rfl
  case h_8 hop =>
    rw [hop] at h
    split_ifs with hseller
    · rw [cancelPurchase_eq_none (h hseller), Option.getD_none]
    · rfl
  case h_9 hop =>
    rw [hop] at h
    exact deactivateStore_of_refused h
  case h_10 hop =>
    rw [hop] at h
    rw [buyerCancelPurchase, cancelPurchase_eq_none h, Option.getD_none]
  case h_11 hop =>
    rw [hop] at h
    rw [buyerConfirmReceipt_eq_none h, Option.getD_none]

end StoreRegistry

/-! ### The store of the chain -/

section

variable {F : Type}

/-- The store refuses the action, if it is one on the store. -/
def StoreIdle (ctx : BlockCtx) (s : Manager F) (a : Action × UInt64) : Prop :=
  match a.1 with
  | .store op t => s.store.Refuses ctx.env.crypto ctx.env.poolAddress t.tx op ctx.height
  | _ => True

instance (ctx : BlockCtx) (s : Manager F) : ∀ a, Decidable (StoreIdle ctx s a)
  | (.store op t, _) => inferInstanceAs (Decidable
      (s.store.Refuses ctx.env.crypto ctx.env.poolAddress t.tx op ctx.height))
  | (.node _, _) | (.circle _, _) | (.chainProof _, _) | (.poolDistribution _, _) =>
    .isTrue trivial

variable [FloatArith F] {D : Type} [FloatArith D]

/-- **No pop touches the store.** -/
theorem store_passive : Passive D (fun s : Manager F => s.store) where
  step ctx s s' a h := by
    show (a.1.step D ctx a.2 s).1.store = (a.1.step D ctx a.2 s').1.store
    rw [Action.step_store, Action.step_store, h]
  undo now s op := by
    unfold undoOp
    split <;> rfl
  log _ _ := rfl
  sweep height now s := expirySweep_store height now

/-- Idle actions leave the store. -/
theorem store_of_idle {ctx : BlockCtx} {s : Manager F} {a : Action × UInt64}
    (h : StoreIdle ctx s a) : ((actionMachine F D ctx).step s a).1.store = s.store := by
  obtain ⟨a, now⟩ := a
  refine (Action.step_store a now).trans ?_
  cases a with
  | store op t => exact StoreRegistry.Refuses.apply t.hash h
  | _ => rfl

/-- **The store is that of the chain**, after every sequence of additions and pops in which the
popped blocks are taken back and carry no operation that the store had not refused. -/
theorem store_follows_chain (F D : Type) [FloatArith F] [FloatArith D] (start : ℕ)
    (ops : List ChainOp)
    (hfollows : (chainMachine F D).Guarded (fun x op => op.Follows start x) {} ops)
    (hback : (chainMachine F D).Guarded (fun x op => op.TakesBack D StoreIdle x) {} ops) :
    ((chainMachine F D).run {} ops).1.manager.store =
      (replay D ((chainMachine F D).run {} ops).1.chain : Manager F).store :=
  chain_followed store_passive (fun _ _ _ => store_of_idle) hfollows hback

end

/-! ### A purchase that stays -/

/-- A shop, a lamp and a purchase of it, and the block of the purchase is popped. -/
def poppedPurchase : List ChainOp :=
  [.add (minerStoreBlock shopOp 100), .add (poolStoreBlock (lampOp 4 1) 101),
    .add (poolStoreBlock (buyLampOp 5 1) 102), .pop 2400]

/-- The purchase is tried a second time, and the block of that is popped. -/
def poppedAttempt : List ChainOp :=
  [.add (minerStoreBlock shopOp 100), .add (poolStoreBlock (lampOp 4 1) 101),
    .add (poolStoreBlock (buyLampOp 5 1) 102), .add (poolStoreBlock (buyLampOp 5 1) 103), .pop 2400]

/-- **A purchase of a popped block stays**, and so does the gap in the stock. -/
theorem popped_purchase_stays :
    (¬ ∀ (start : ℕ) (ops : List ChainOp),
        (chainMachine ℚ ℚ).Guarded (fun x op => op.Follows start x) {} ops →
        ∀ (item : Hash) (buyer : PublicKey),
          ((chainMachine ℚ ℚ).run {} ops).1.manager.store.isItemPurchased item buyer =
            (replay ℚ ((chainMachine ℚ ℚ).run {} ops).1.chain :
              Manager ℚ).store.isItemPurchased item buyer) ∧
      ¬ ∀ (start : ℕ) (ops : List ChainOp),
        (chainMachine ℚ ℚ).Guarded (fun x op => op.Follows start x) {} ops → ∀ item : Hash,
          (((chainMachine ℚ ℚ).run {} ops).1.manager.store.items[item]?).map (·.quantity) =
            ((replay ℚ ((chainMachine ℚ ℚ).run {} ops).1.chain :
              Manager ℚ).store.items[item]?).map (·.quantity) := by
  constructor
  · intro h
    have hsame := h 100 poppedPurchase (by decide +kernel) lampId (Pod32.single 5)
    revert hsame
    decide +kernel
  · intro h
    have hsame := h 100 poppedPurchase (by decide +kernel) lampId
    revert hsame
    decide +kernel

/-- A purchase that was refused leaves nothing behind, and the first one is there. -/
theorem poppedAttempt_store :
    ((chainMachine ℚ ℚ).run {} poppedAttempt).1.manager.store.isItemPurchased lampId
        (Pod32.single 5) = true ∧
      ((chainMachine ℚ ℚ).run {} poppedAttempt).1.manager.store =
        (replay ℚ ((chainMachine ℚ ℚ).run {} poppedAttempt).1.chain : Manager ℚ).store :=
  ⟨by decide +kernel, store_follows_chain ℚ ℚ 100 poppedAttempt (by decide +kernel)
    (by decide +kernel)⟩

end Mevacoin.Trust
