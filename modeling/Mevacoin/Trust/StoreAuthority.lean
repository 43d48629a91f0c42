import Mevacoin.Trust.NodeMoves
import Mevacoin.Trust.Outsiders

/-!
# Who lists and who buys

`check_mevatrust_store_tx` (`tx_verification_utils.cpp`) is not asked for the miner transaction, and
the signature of an `ITEM_BUY` does not cover `buyer_pubkey`.
-/

namespace Mevacoin.Trust

open Lib Std

/-! ### The check of the pool -/

/-- `HF_VERSION_MEVATRUST`. -/
def hfVersionMevatrust : UInt8 := 13

/-- Why `check_mevatrust_store_tx` refuses a transaction.  Every refusal sets
`m_verifivation_failed`. -/
inductive StoreTxFault where
  | signature | emptyPaymentAddress | percentages | managerNotInitialized | storeNotFound | notOwner
  | zeroPrice | zeroQuantity | itemNotFound | insufficientQuantity | noPendingPurchase
  | noConfirmedPurchase | unknownOperation
deriving DecidableEq, Repr

/-- `get_store_purchases`. -/
def StoreRegistry.getStorePurchases (r : StoreRegistry) (storeId : Hash) :
    List StorePurchaseEntry :=
  r.purchases.values.flatten.filter (·.storeId = storeId)

section

variable {F : Type}

/-- The shop is known and open, and the caller owns it. -/
def checkCallerOwns (s : Manager F) (op : StoreOp) : Except StoreTxFault Unit :=
  if s.initialized = false then .error .managerNotInitialized
  else
    match s.store.stores[op.storeId]? with
    | none => .error .storeNotFound
    | some store =>
      if !store.active then .error .storeNotFound
      else if store.ownerPubkey ≠ op.ownerPubkey then .error .notOwner
      else .ok ()

/-- A purchase of the item by the buyer is in the given state. -/
def checkPurchase (s : Manager F) (op : StoreOp) (status : PurchaseStatus) (fault : StoreTxFault) :
    Except StoreTxFault Unit :=
  if s.initialized = false then .error .managerNotInitialized
  else if (s.store.getStorePurchases op.storeId).any fun p =>
      p.itemId = op.itemId ∧ p.buyerPubkey = op.buyerPubkey ∧ p.status = status then .ok ()
  else .error fault

/-- The validation of the fields, by operation. -/
def checkStoreFields (s : Manager F) (op : StoreOp) : Except StoreTxFault Unit :=
  match StoreOperation.ofUInt8 op.op with
  | some .storeCreate =>
    if op.paymentAddress = [] then .error .emptyPaymentAddress
    else if op.mvcPercent = 0 ∨ op.mvcPercent.toNat + op.euroPercent.toNat ≠ 100 then
      .error .percentages
    else .ok ()
  | some .storeUpdate | some .itemDelist | some .storeDeactivate => checkCallerOwns s op
  | some .itemList => if op.price = 0 then .error .zeroPrice else checkCallerOwns s op
  | some .itemBuy =>
    if op.quantity = 0 then .error .zeroQuantity
    else if s.initialized = false then .error .managerNotInitialized
    else
      match s.store.items[op.itemId]? with
      | none => .error .itemNotFound
      | some item =>
        if !item.active then .error .itemNotFound
        else if item.quantity < op.quantity then .error .insufficientQuantity
        else .ok ()
  | some .storeConfirm | some .storeCancel | some .buyerCancel =>
    checkPurchase s op .pending .noPendingPurchase
  | some .buyerConfirmReceipt => checkPurchase s op .confirmed .noConfirmedPurchase
  | none => .error .unknownOperation

/-- `check_mevatrust_store_tx`. -/
def checkMevatrustStoreTx (cr : Crypto) (s : Manager F) (tx : Transaction) (hfVersion : UInt8) :
    Except StoreTxFault Unit :=
  if hfVersion < hfVersionMevatrust then .ok ()
  else
    match parseStore tx with
    | none => .ok ()
    | some op => if !verifyStoreOp cr op then .error .signature else checkStoreFields s op

/-- The caller is the owner on record. -/
theorem owner_of_checkCallerOwns {s : Manager F} {op : StoreOp}
    (h : checkCallerOwns s op = .ok ()) :
    (s.store.stores[op.storeId]?).map (·.ownerPubkey) = some op.ownerPubkey := by
  unfold checkCallerOwns at h
  split_ifs at h
  cases hst : s.store.stores[op.storeId]? with
  | none =>
    rw [hst] at h
    cases h
  | some store =>
    rw [hst] at h
    dsimp only at h
    split_ifs at h with _ hne
    rw [Option.map_some, not_not.1 hne]

/-- An `ITEM_LIST` that passed the check was signed by the owner of the shop. -/
theorem owner_of_checkMevatrustStoreTx {cr : Crypto} {s : Manager F} {tx : Transaction}
    {hfVersion : UInt8} {op : StoreOp} (h : checkMevatrustStoreTx cr s tx hfVersion = .ok ())
    (hfork : hfVersionMevatrust ≤ hfVersion) (hop : parseStore tx = some op)
    (hlist : StoreOperation.ofUInt8 op.op = some .itemList) :
    (s.store.stores[op.storeId]?).map (·.ownerPubkey) = some op.ownerPubkey := by
  unfold checkMevatrustStoreTx at h
  rw [if_neg (UInt8.not_lt.2 hfork), hop] at h
  dsimp only at h
  unfold checkStoreFields at h
  rw [hlist] at h
  dsimp only at h
  split_ifs at h
  exact owner_of_checkCallerOwns h

end

/-! ### Origins -/

/-- A signature of the payload, over one of the messages that are signed, verifies under the
key. -/
def StoreOp.Carries (cr : Crypto) (op : StoreOp) (key : PublicKey) : Prop :=
  ∃ m ∈ [storeMessageHash cr op, storeConfirmMessageHash cr op, buyerActionMessageHash cr op],
    ∃ sig ∈ [op.ownerSig, op.sellerSig], cr.checkSignature m key sig = true
deriving Decidable

/-- The item was listed by a payload whose signature verifies under the key. -/
def ListedBy (evs : List (BlockCtx × Action)) (owner : PublicKey) (e : StoreItemEntry) : Prop :=
  ∃ ctx op t, (ctx, .store op t) ∈ evs ∧ StoreOperation.ofUInt8 op.op = some .itemList ∧
    op.storeId = e.storeId ∧ op.name = e.name ∧ ctx.height = e.listedHeight ∧
    ctx.env.crypto.checkSignature (storeMessageHash ctx.env.crypto op) owner op.ownerSig = true

/-- The purchase was made by a payload that carries a signature of the buyer. -/
def BoughtBy (evs : List (BlockCtx × Action)) (buyer : PublicKey) (p : StorePurchaseEntry) : Prop :=
  ∃ ctx op t, (ctx, .store op t) ∈ evs ∧ StoreOperation.ofUInt8 op.op = some .itemBuy ∧
    op.storeId = p.storeId ∧ op.itemId = p.itemId ∧ op.buyerPubkey = buyer ∧
    ctx.height = p.purchaseHeight ∧ op.Carries ctx.env.crypto buyer

/-- **Authorized**: every item was listed by the owner of the shop, every purchase made by its
buyer. -/
structure StoreAuthorized (evs : List (BlockCtx × Action)) (r : StoreRegistry) : Prop where
  items : ∀ (k : Hash) (e : StoreItemEntry), r.items[k]? = some e →
    ∃ store, r.stores[e.storeId]? = some store ∧ ListedBy evs store.ownerPubkey e
  purchases : ∀ (buyer : PublicKey), ∀ p ∈ r.purchases.getD buyer [],
    p.buyerPubkey = buyer ∧ BoughtBy evs buyer p

/-- Authority stays with more events. -/
theorem StoreAuthorized.mono {evs evs' : List (BlockCtx × Action)} {r : StoreRegistry}
    (h : StoreAuthorized evs r) (hsub : evs ⊆ evs') : StoreAuthorized evs' r := by
  constructor
  · intro k e he
    obtain ⟨store, hst, ctx, op, t, hmem, hrest⟩ := h.items k e he
    exact ⟨store, hst, ctx, op, t, hsub hmem, hrest⟩
  · intro buyer p hp
    obtain ⟨hbuyer, ctx, op, t, hmem, hrest⟩ := h.purchases buyer p hp
    exact ⟨hbuyer, ctx, op, t, hsub hmem, hrest⟩

/-! ### What an operation does to the registry -/

/-- The two entries are of the same listing. -/
def StoreItemEntry.SameListing (e e' : StoreItemEntry) : Prop :=
  e.storeId = e'.storeId ∧ e.name = e'.name ∧ e.listedHeight = e'.listedHeight

/-- The two entries are of the same purchase. -/
def StorePurchaseEntry.SamePurchase (p p' : StorePurchaseEntry) : Prop :=
  p.storeId = p'.storeId ∧ p.itemId = p'.itemId ∧ p.buyerPubkey = p'.buyerPubkey ∧
    p.purchaseHeight = p'.purchaseHeight

/-- Purchases are recorded under their buyer. -/
def StoreRegistry.Sorted (r : StoreRegistry) : Prop :=
  ∀ buyer : PublicKey, ∀ p ∈ r.purchases.getD buyer [], p.buyerPubkey = buyer

/-- Shops keep their owner, items their listing and purchases their maker. -/
structure StoreRegistry.Keeps (r r' : StoreRegistry) : Prop where
  owner : ∀ (k : Hash) (store : StoreEntry), r.stores[k]? = some store →
    ∃ store', r'.stores[k]? = some store' ∧ store'.ownerPubkey = store.ownerPubkey
  items : ∀ (k : Hash) (e' : StoreItemEntry), r'.items[k]? = some e' →
    ∃ e, r.items[k]? = some e ∧ e.SameListing e'
  purchases : r.Sorted → ∀ (buyer : PublicKey), ∀ p' ∈ r'.purchases.getD buyer [],
    ∃ p ∈ r.purchases.getD buyer [], p.SamePurchase p'

namespace StoreRegistry

variable {r r' r'' : StoreRegistry} {op : StoreOp} {cr : Crypto}

/-- Nothing happens. -/
theorem Keeps.refl (r : StoreRegistry) : r.Keeps r where
  owner _ store h := ⟨store, h, rfl⟩
  items _ e h := ⟨e, h, rfl, rfl, rfl⟩
  purchases _ _ p h := ⟨p, h, rfl, rfl, rfl, rfl⟩

/-- Purchases stay under their buyers. -/
theorem Keeps.sorted (h : r.Keeps r') (hr : r.Sorted) : r'.Sorted := by
  intro buyer p' hp'
  obtain ⟨p, hp, -, -, hbuyer, -⟩ := h.purchases hr buyer p' hp'
  exact hbuyer.symm.trans (hr buyer p hp)

/-- One operation after another. -/
theorem Keeps.trans (h : r.Keeps r') (h' : r'.Keeps r'') : r.Keeps r'' where
  owner k store hst := by
    obtain ⟨store', hst', howner⟩ := h.owner k store hst
    obtain ⟨store'', hst'', howner'⟩ := h'.owner k store' hst'
    exact ⟨store'', hst'', howner'.trans howner⟩
  items k e'' he := by
    obtain ⟨e', he', hs', hn', hh'⟩ := h'.items k e'' he
    obtain ⟨e, he, hs, hn, hh⟩ := h.items k e' he'
    exact ⟨e, he, hs.trans hs', hn.trans hn', hh.trans hh'⟩
  purchases hr buyer p'' hp := by
    obtain ⟨p', hp', hs', hi', hb', hh'⟩ := h'.purchases (h.sorted hr) buyer p'' hp
    obtain ⟨p, hp, hs, hi, hb, hh⟩ := h.purchases hr buyer p' hp'
    exact ⟨p, hp, hs.trans hs', hi.trans hi', hb.trans hb', hh.trans hh'⟩

variable {k : Hash} {e p : StorePurchaseEntry} {storeId : Hash} {caller : PublicKey} {txid : Hash}
  {now : UInt64} {store : StoreEntry} {pool : AccountAddress} {tx : Transaction} {txHash : Hash}

/-- A shop is opened, or written with its owner. -/
theorem keeps_putStore {store' : StoreEntry}
    (h : ∀ store, r.stores[k]? = some store → store'.ownerPubkey = store.ownerPubkey) :
    r.Keeps { r with stores := r.stores.insert k store' } where
  owner j store hst := by
    simp only [ExtTreeMap.getElem?_insert, LawfulEqOrd.compare_eq_iff_eq]
    split_ifs with hk
    · exact ⟨store', rfl, h store (hk ▸ hst)⟩
    · exact ⟨store, hst, rfl⟩
  items _ e he := ⟨e, he, rfl, rfl, rfl⟩
  purchases _ _ p hp := ⟨p, hp, rfl, rfl, rfl, rfl⟩

/-- An item is written with its listing. -/
theorem keeps_putItem {item item' : StoreItemEntry} (hitem : r.items[k]? = some item)
    (h : item.SameListing item') : r.Keeps { r with items := r.items.insert k item' } where
  owner _ store hst := ⟨store, hst, rfl⟩
  items j e he := by
    simp only [ExtTreeMap.getElem?_insert, LawfulEqOrd.compare_eq_iff_eq] at he
    split_ifs at he with hk
    · obtain rfl := Option.some.inj he
      exact ⟨item, hk ▸ hitem, h⟩
    · exact ⟨e, he, rfl, rfl, rfl⟩
  purchases _ _ p hp := ⟨p, hp, rfl, rfl, rfl, rfl⟩

/-- What is in a list after a purchase is put. -/
theorem mem_putInto {l : List StorePurchaseEntry} (h : p ∈ putInto e l) : p = e ∨ p ∈ l := by
  induction l with
  | nil => exact .inl (List.mem_singleton.1 h)
  | cons q l ih =>
    unfold putInto at h
    split_ifs at h
    · exact (List.mem_cons.1 h).imp_right (List.mem_cons_of_mem _)
    · rcases List.mem_cons.1 h with rfl | h
      · exact .inr List.mem_cons_self
      · exact (ih h).imp_right (List.mem_cons_of_mem _)

/-- What is recorded after a purchase is written. -/
theorem mem_putPurchase {buyer : PublicKey} (h : p ∈ (r.putPurchase e).purchases.getD buyer []) :
    p = e ∧ buyer = e.buyerPubkey ∨ p ∈ r.purchases.getD buyer [] := by
  simp only [putPurchase, ExtTreeMap.getD_insert, LawfulEqOrd.compare_eq_iff_eq] at h
  split_ifs at h with hb
  · subst hb
    exact (mem_putInto h).imp_left fun h => ⟨h, rfl⟩
  · exact .inr h

/-- A purchase is written with its maker. -/
theorem keeps_putPurchase {p' : StorePurchaseEntry} {k : PublicKey} (hp : p ∈ r.purchases.getD k [])
    (h : p.SamePurchase p') : r.Keeps (r.putPurchase p') where
  owner _ store hst := ⟨store, hst, rfl⟩
  items _ e he := ⟨e, he, rfl, rfl, rfl⟩
  purchases hr buyer q hq := by
    rcases mem_putPurchase hq with ⟨rfl, rfl⟩ | hq
    · have hk := hr k p hp
      exact ⟨p, by rwa [← h.2.2.1, hk], h⟩
    · exact ⟨q, hq, rfl, rfl, rfl, rfl⟩

/-! The operations -/

/-- `create_store` keeps owners and makers. -/
theorem keeps_createStore (height now : UInt64) : r.Keeps (r.createStore cr op height now) := by
  unfold createStore
  split
  · exact Keeps.refl r
  · dsimp only
    split_ifs with hin
    · exact Keeps.refl r
    · refine keeps_putStore fun store hst => ?_
      rw [ExtTreeMap.contains_eq_isSome_getElem?, hst] at hin
      exact absurd rfl hin

/-- `update_store` keeps owners and makers. -/
theorem keeps_updateStore (h : r.updateStore op = some r') : r.Keeps r' := by
  obtain ⟨e, he, h⟩ := Option.bind_eq_some_iff.1 h
  obtain ⟨-, h⟩ := Option.ite_none_left_eq_some.1 h
  obtain ⟨⟨mvc, euro⟩, -, h⟩ := Option.bind_eq_some_iff.1 h
  obtain rfl := Option.some.inj h
  refine keeps_putStore fun store hst => ?_
  obtain rfl := Option.some.inj (he.symm.trans hst)
  rfl

/-- `deactivate_store` keeps owners and makers. -/
theorem keeps_deactivateStore (h : r.deactivateStore storeId caller = some r') : r.Keeps r' := by
  obtain ⟨e, he, h⟩ := Option.bind_eq_some_iff.1 h
  obtain ⟨-, h⟩ := Option.ite_none_left_eq_some.1 h
  obtain rfl := Option.some.inj h
  refine keeps_putStore fun store hst => ?_
  obtain rfl := Option.some.inj (he.symm.trans hst)
  rfl

/-- `delist_item` keeps owners and makers. -/
theorem keeps_delistItem {itemId : Hash} (h : r.delistItem storeId itemId caller = some r') :
    r.Keeps r' := by
  obtain ⟨item, hitem, h⟩ := Option.bind_eq_some_iff.1 h
  obtain ⟨-, h⟩ := Option.ite_none_left_eq_some.1 h
  obtain ⟨store, hstore, h⟩ := Option.bind_eq_some_iff.1 h
  obtain ⟨-, h⟩ := Option.ite_none_left_eq_some.1 h
  obtain rfl := Option.some.inj h
  have hput : r.Keeps { r with items := r.items.insert itemId { item with active := false } } :=
    keeps_putItem hitem ⟨rfl, rfl, rfl⟩
  refine hput.trans (keeps_putStore fun store' hst => ?_)
  obtain rfl := Option.some.inj (hstore.symm.trans hst)
  rfl

variable {height : UInt64}

/-- Closing a purchase keeps owners and makers. -/
theorem keeps_closePurchase {status : PurchaseStatus}
    (h : r.closePurchase op status txid height = some r') : r.Keeps r' := by
  obtain ⟨p, hp, h⟩ := Option.bind_eq_some_iff.1 h
  obtain ⟨-, h⟩ := Option.ite_none_left_eq_some.1 h
  obtain rfl := Option.some.inj h
  exact keeps_putPurchase (List.mem_of_find?_eq_some hp) ⟨rfl, rfl, rfl, rfl⟩

/-- A piece put back keeps owners and makers. -/
theorem keeps_restock (itemId : Hash) : r.Keeps (r.restock itemId) := by
  unfold restock
  split
  · exact Keeps.refl r
  · rename_i item hitem
    exact keeps_putItem hitem ⟨rfl, rfl, rfl⟩

/-- `cancel_purchase` keeps owners and makers. -/
theorem keeps_cancelPurchase (h : r.cancelPurchase op txid height = some r') : r.Keeps r' := by
  obtain ⟨r₁, h₁, rfl⟩ := Option.map_eq_some_iff.1 h
  exact (keeps_closePurchase h₁).trans (keeps_restock _)

/-- `buyer_confirm_receipt` keeps owners and makers. -/
theorem keeps_buyerConfirmReceipt (h : r.buyerConfirmReceipt op height = some r') : r.Keeps r' := by
  obtain ⟨p, hp, h⟩ := Option.bind_eq_some_iff.1 h
  obtain ⟨-, h⟩ := Option.ite_none_left_eq_some.1 h
  obtain rfl := Option.some.inj h
  exact keeps_putPurchase (List.mem_of_find?_eq_some hp) ⟨rfl, rfl, rfl, rfl⟩

/-- What a listing writes. -/
theorem exists_of_listItem (h : r.listItem cr op height = some r') :
    ∃ store k e, r' = { r with
        items := r.items.insert k e
        stores := r.stores.insert op.storeId { store with itemCount := store.itemCount + 1 } } ∧
      r.stores[op.storeId]? = some store ∧ e.storeId = op.storeId ∧ e.name = op.name ∧
      e.listedHeight = height := by
  obtain ⟨store, hst, h⟩ := Option.bind_eq_some_iff.1 h
  obtain ⟨-, h⟩ := Option.ite_none_left_eq_some.1 h
  obtain rfl := Option.some.inj h
  exact ⟨store, _, _, rfl, hst, rfl, rfl, rfl⟩

/-- The purchase that the operation names. -/
def Names (op : StoreOp) (e : StorePurchaseEntry) : Prop :=
  e.buyerPubkey = op.buyerPubkey ∧ e.storeId = op.storeId ∧ e.itemId = op.itemId
deriving Decidable

/-- A purchase is of an item of the shop, one that the buyer has not bought. -/
theorem exists_of_buyItem (h : r.buyItem op height now = some r') :
    ∃ item item' e, r' = { r with items := r.items.insert op.itemId item' }.putPurchase e ∧
      r.items[op.itemId]? = some item ∧ item.SameListing item' ∧ item.storeId = op.storeId ∧
      Names op e ∧ e.purchaseHeight = height ∧ ¬ r.isItemPurchased op.itemId op.buyerPubkey ∧
      e.status = .pending ∧ e.confirmExpiryHeight = height + confirmWindowBlocks := by
  obtain ⟨item, hitem, h⟩ := Option.bind_eq_some_iff.1 h
  obtain ⟨-, h⟩ := Option.ite_none_left_eq_some.1 h
  obtain ⟨hstore, h⟩ := Option.ite_none_left_eq_some.1 h
  obtain ⟨hnew, h⟩ := Option.ite_none_left_eq_some.1 h
  exact ⟨item, _, _, (Option.some.inj h).symm, hitem, ⟨rfl, rfl, rfl⟩, not_not.1 hstore,
    ⟨rfl, rfl, rfl⟩, rfl, hnew, rfl, rfl⟩

/-- A shop with one item more. -/
theorem keeps_countItem (h : r.stores[op.storeId]? = some store) :
    r.Keeps { r with
      stores := r.stores.insert op.storeId { store with itemCount := store.itemCount + 1 } } := by
  refine keeps_putStore fun store' hst => ?_
  obtain rfl := Option.some.inj (h.symm.trans hst)
  rfl

/-- What may be refused keeps what it keeps when it is not. -/
theorem keeps_getD {o : Option StoreRegistry} (h : ∀ r', o = some r' → r.Keeps r') :
    r.Keeps (o.getD r) := by
  cases o with
  | none => exact Keeps.refl r
  | some r' => exact h r' rfl

/-- **Only `ITEM_LIST` lists and only `ITEM_BUY` buys.** -/
theorem keeps_apply (hlist : StoreOperation.ofUInt8 op.op ≠ some .itemList)
    (hbuy : StoreOperation.ofUInt8 op.op ≠ some .itemBuy) :
    r.Keeps (r.apply cr pool tx txHash op height now) := by
  unfold apply
  split
  · exact Keeps.refl r
  · split_ifs
    · exact keeps_createStore _ _
    · exact Keeps.refl r
  · exact keeps_getD fun _ => keeps_updateStore
  · exact absurd ‹_› hlist
  · exact keeps_getD fun _ => keeps_delistItem
  · exact absurd ‹_› hbuy
  · split_ifs
    · exact keeps_getD fun _ => keeps_closePurchase
    · exact Keeps.refl r
  · split_ifs
    · exact keeps_getD fun _ => keeps_cancelPurchase
    · exact Keeps.refl r
  · exact keeps_getD fun _ => keeps_deactivateStore
  · exact keeps_getD fun _ => keeps_cancelPurchase
  · exact keeps_getD fun _ => keeps_buyerConfirmReceipt

/-- **A shop keeps its owner.** -/
theorem owner_apply (hst : r.stores[k]? = some store) :
    ∃ store', (r.apply cr pool tx txHash op height now).stores[k]? = some store' ∧
      store'.ownerPubkey = store.ownerPubkey := by
  by_cases hlist : StoreOperation.ofUInt8 op.op = some .itemList
  · unfold apply
    rw [hlist]
    dsimp only
    split_ifs
    · cases hr : r.listItem cr op height with
      | none => exact ⟨store, hst, rfl⟩
      | some r' =>
        obtain ⟨store', k', e, rfl, hst', -⟩ := exists_of_listItem hr
        exact (keeps_countItem hst').owner k store hst
    · exact ⟨store, hst, rfl⟩
  by_cases hbuy : StoreOperation.ofUInt8 op.op = some .itemBuy
  · unfold apply
    rw [hbuy]
    cases hr : r.buyItem op height now with
    | none => exact ⟨store, hst, rfl⟩
    | some r' =>
      obtain ⟨item, item', p, rfl, hitem, hsame, -⟩ := exists_of_buyItem hr
      exact (keeps_putItem hitem hsame).owner k store hst
  · exact (keeps_apply hlist hbuy).owner k store hst

end StoreRegistry

/-! ### Authority is kept -/

section

variable {evs : List (BlockCtx × Action)} {r r' : StoreRegistry} {op : StoreOp} {ctx : BlockCtx}
  {t : LoadedTx}

/-- Authorized purchases are under their buyers. -/
theorem StoreAuthorized.sorted (h : StoreAuthorized evs r) : r.Sorted :=
  fun buyer p hp => (h.purchases buyer p hp).1

/-- What keeps owners, listings and makers keeps authority. -/
theorem StoreAuthorized.of_keeps (h : StoreAuthorized evs r) (hk : r.Keeps r') :
    StoreAuthorized evs r' := by
  constructor
  · intro k e' he'
    obtain ⟨e, he, hstore, hname, hheight⟩ := hk.items k e' he'
    obtain ⟨store, hst, hlisted⟩ := h.items k e he
    obtain ⟨store', hst', howner⟩ := hk.owner _ store hst
    refine ⟨store', hstore ▸ hst', ?_⟩
    unfold ListedBy at hlisted ⊢
    rwa [howner, ← hstore, ← hname, ← hheight]
  · intro buyer p' hp'
    obtain ⟨p, hp, hstore, hitem, hbuyer, hheight⟩ := hk.purchases h.sorted buyer p' hp'
    obtain ⟨hb, hbought⟩ := h.purchases buyer p hp
    refine ⟨hbuyer ▸ hb, ?_⟩
    unfold BoughtBy at hbought ⊢
    rwa [← hstore, ← hitem, ← hheight]

/-- A listing under the key of the owner. -/
theorem StoreAuthorized.listItem (h : StoreAuthorized evs r) (hmem : (ctx, .store op t) ∈ evs)
    (hop : StoreOperation.ofUInt8 op.op = some .itemList)
    (hsig : verifyStoreSignature ctx.env.crypto op = true)
    (howner : ∀ store, r.stores[op.storeId]? = some store → op.ownerPubkey = store.ownerPubkey)
    (hlist : r.listItem ctx.env.crypto op ctx.height = some r') : StoreAuthorized evs r' := by
  obtain ⟨store, k', e, rfl, hst, hstore, hname, hheight⟩ :=
    StoreRegistry.exists_of_listItem hlist
  have hkept := h.of_keeps (StoreRegistry.keeps_countItem hst)
  constructor
  · intro k e' he'
    rw [ExtTreeMap.getElem?_insert] at he'
    split at he'
    · obtain rfl := Option.some.inj he'
      refine ⟨{ store with itemCount := store.itemCount + 1 }, ?_, ctx, op, t, hmem, hop,
        hstore.symm, hname.symm, hheight.symm, ?_⟩
      · rw [hstore]
        exact ExtTreeMap.getElem?_insert_self
      · rw [← howner store hst]
        exact hsig
    · exact hkept.items k e' he'
  · exact hkept.purchases

/-- A purchase under the key of the buyer. -/
theorem StoreAuthorized.buyItem {now : UInt64} (h : StoreAuthorized evs r)
    (hmem : (ctx, .store op t) ∈ evs) (hop : StoreOperation.ofUInt8 op.op = some .itemBuy)
    (hsig : verifyStoreSignature ctx.env.crypto op = true)
    (hbuyer : op.ownerPubkey = op.buyerPubkey) (hbuy : r.buyItem op ctx.height now = some r') :
    StoreAuthorized evs r' := by
  obtain ⟨item, item', p, rfl, hitem, hsame, -, ⟨hkey, hstore, hitemId⟩, hheight, -⟩ :=
    StoreRegistry.exists_of_buyItem hbuy
  have hkept := h.of_keeps (StoreRegistry.keeps_putItem hitem hsame)
  constructor
  · exact hkept.items
  · intro buyer q hq
    rcases StoreRegistry.mem_putPurchase hq with ⟨rfl, rfl⟩ | hq
    · refine ⟨rfl, ctx, op, t, hmem, hop, hstore.symm, hitemId.symm, hkey.symm, hheight.symm, ?_⟩
      refine ⟨_, List.mem_cons_self, _, List.mem_cons_self, ?_⟩
      rw [hkey, ← hbuyer]
      exact hsig
    · exact hkept.purchases buyer q hq

variable {F D : Type} [FloatArith F] [FloatArith D] {s : Manager F}

/-- What an action does to the store. -/
theorem Action.step_store (a : Action) (now : UInt64) :
    (a.step D ctx now s).1.store =
      match a with
      | store op t =>
        s.store.apply ctx.env.crypto ctx.env.poolAddress t.tx t.hash op ctx.height now
      | _ => s.store := by
  cases a with
  | node | circle => exact Manager.logAll_project (p := (·.store)) (fun _ _ => rfl) _ _ _
  | chainProof | store | poolDistribution => rfl

/-- The transactions of a block other than the miner's. -/
def BlockCtx.others (ctx : BlockCtx) : List LoadedTx := ctx.block.txHashes.filterMap ctx.chain.getTx

/-- **The keys agree**: that of an unchecked `ITEM_LIST` is the owner's, that of an `ITEM_BUY` the
buyer's. -/
def Action.KeysAgree (ctx : BlockCtx) (s : Manager F) : Action → Prop
  | store op t =>
    (StoreOperation.ofUInt8 op.op = some .itemList →
      hfVersionMevatrust ≤ ctx.hfVersion ∧ t ∈ ctx.others ∨
        ∀ store ∈ s.store.stores[op.storeId]?, op.ownerPubkey = store.ownerPubkey) ∧
      (StoreOperation.ofUInt8 op.op = some .itemBuy → op.ownerPubkey = op.buyerPubkey)
  | _ => True

deriving instance DecidableEq for LoadedTx

omit [FloatArith F] in
instance (ctx : BlockCtx) (s : Manager F) : ∀ a : Action, Decidable (a.KeysAgree ctx s)
  | .store .. => inferInstanceAs (Decidable (_ ∧ _))
  | .node _ | .circle _ | .chainProof _ | .poolDistribution _ => .isTrue trivial

/-- What the pool found of the other transactions holds: the shops they list items in have the
owner that signed. -/
def Vetted (ctx : BlockCtx) (s : Manager F) : Prop :=
  hfVersionMevatrust ≤ ctx.hfVersion → ∀ t ∈ ctx.others, ∀ op, parseStore t.tx = some op →
    StoreOperation.ofUInt8 op.op = some .itemList →
    (s.store.stores[op.storeId]?).map (·.ownerPubkey) = some op.ownerPubkey

/-- **One action.** -/
theorem StoreAuthorized.action {a : Action × UInt64} (h : StoreAuthorized evs s.store)
    (hvet : Vetted ctx s) (hmem : (ctx, a.1) ∈ evs) (hkeys : a.1.KeysAgree ctx s)
    (hjust : Action.Justified ctx s a) :
    StoreAuthorized evs ((actionMachine F D ctx).step s a).1.store := by
  obtain ⟨a, now⟩ := a
  show StoreAuthorized evs (a.step D ctx now s).1.store
  rw [Action.step_store]
  cases a with
  | node | circle | chainProof | poolDistribution => exact h
  | store op t =>
    obtain ⟨t', ht', rfl, hparse, hsig⟩ := hjust
    dsimp only
    by_cases hlist : StoreOperation.ofUInt8 op.op = some .itemList
    · unfold StoreRegistry.apply
      rw [verifyStoreOp, hlist] at hsig
      rw [hlist]
      dsimp only
      split_ifs
      · cases hr : s.store.listItem ctx.env.crypto op ctx.height with
        | none => exact h
        | some r' =>
          refine h.listItem hmem hlist hsig ?_ hr
          intro store hst
          rcases hkeys.1 hlist with ⟨hfork, hother⟩ | howner
          · have hvetted := hvet hfork t hother op hparse hlist
            rw [hst] at hvetted
            exact (Option.some.inj hvetted).symm
          · exact howner store hst
      · exact h
    by_cases hbuy : StoreOperation.ofUInt8 op.op = some .itemBuy
    · unfold StoreRegistry.apply
      rw [verifyStoreOp, hbuy] at hsig
      rw [hbuy]
      cases hr : s.store.buyItem op ctx.height now with
      | none => exact h
      | some r' => exact h.buyItem hmem hbuy hsig (hkeys.2 hbuy) hr
    · exact h.of_keeps (StoreRegistry.keeps_apply hlist hbuy)

variable {k : Hash} {owner : PublicKey} {blocks : List (BlockCtx × BlockClock)}

/-- **An action leaves every shop to its owner.** -/
theorem owner_action {a : Action × UInt64}
    (h : (s.store.stores[k]?).map (·.ownerPubkey) = some owner) :
    ((((actionMachine F D ctx).step s a).1.store.stores[k]?).map (·.ownerPubkey)) = some owner := by
  obtain ⟨a, now⟩ := a
  show ((a.step D ctx now s).1.store.stores[k]?).map (·.ownerPubkey) = some owner
  rw [Action.step_store]
  cases a with
  | node | circle | chainProof | poolDistribution => exact h
  | store op t =>
    obtain ⟨store, hst, rfl⟩ := Option.map_eq_some_iff.1 h
    obtain ⟨store', hst', howner⟩ := StoreRegistry.owner_apply hst
    exact Option.map_eq_some_iff.2 ⟨store', hst', howner⟩

omit [FloatArith F] in
/-- The sweep does not touch the store. -/
theorem expirySweep_store (height now : UInt64) : (expirySweep height now s).store = s.store := by
  unfold expirySweep
  split
  · rfl
  · rfl

variable [FloatWiden F D] {clock : BlockClock}

/-- A period boundary does not touch the store. -/
theorem onNewBlock_store (now : UInt64) : (onNewBlock D ctx now s).store = s.store :=
  onNewBlock_project D (p := (·.store)) fun _ _ _ _ _ _ => rfl

/-- **A block leaves every shop to its owner**, and so do any number of blocks. -/
theorem owner_run (blocks : List (BlockCtx × BlockClock))
    (h : (s.store.stores[k]?).map (·.ownerPubkey) = some owner) :
    (((growingChain F D).run s blocks).1.store.stores[k]?).map (·.ownerPubkey) = some owner := by
  refine Machine.run_state_invariant (P := fun _ _ => True) (growingChain F D)
    (I := fun s : Manager F => (s.store.stores[k]?).map (·.ownerPubkey) = some owner) h ?_
    (Machine.guarded_of_forall _ (fun _ _ _ => trivial) s)
  rintro s ⟨ctx, clock⟩ hs -
  refine processMevatrustTxs_invariant (P := fun _ _ => True)
    (I := fun s : Manager F => (s.store.stores[k]?).map (·.ownerPubkey) = some owner)
    (fun s a hs _ _ => owner_action hs) ?_ ?_ (Machine.guarded_of_forall _ (fun _ _ _ => trivial) _)
  · intro s hs
    rwa [expirySweep_store]
  · rwa [onNewBlock_store]

/-- **One block.** -/
theorem StoreAuthorized.growingChain_step (h : StoreAuthorized evs s.store) (hvet : Vetted ctx s)
    (hkeys : EachAction D (fun ctx s a => a.KeysAgree ctx s) s (ctx, clock)) :
    StoreAuthorized (evs ++ ((growingChain F D).step s (ctx, clock)).2)
      ((growingChain F D).step s (ctx, clock)).1.store := by
  refine (Trust.growingChain_step (I := fun evs s => StoreAuthorized evs s.store ∧ Vetted ctx s)
    ?_ ?_ ?_ ?_ ⟨h, hvet⟩ hkeys).1
  · rintro evs evs' s hsub ⟨hauth, hvet⟩
    exact ⟨hauth.mono hsub, hvet⟩
  · intro evs s hs
    unfold Vetted at hs ⊢
    rwa [onNewBlock_store]
  · rintro evs s a ⟨hauth, hvet⟩ hin hk hj
    refine ⟨hauth.action hvet hin hk hj, ?_⟩
    intro hfork t ht op hparse hlist
    exact owner_action (hvet hfork t ht op hparse hlist)
  · intro evs s hs
    unfold Vetted at hs ⊢
    rwa [expirySweep_store]

/-- **Checked blocks**: every transaction but the miner's passed `check_mevatrust_store_tx`, in the
state that some of the blocks before had led to. -/
def StoreChecked (D : Type) [FloatArith D] [FloatWiden F D] (s : Manager F)
    (blocks : List (BlockCtx × BlockClock)) : Prop :=
  ∀ pre b post, blocks = pre ++ b :: post → ∀ t ∈ b.1.others, ∃ pre', pre' <+: pre ∧
    checkMevatrustStoreTx b.1.env.crypto ((growingChain F D).run s pre').1 t.tx b.1.hfVersion =
      .ok ()

/-- Blocks whose transactions were checked just before. -/
theorem storeChecked_of_guarded
    (h : (growingChain F D).Guarded (fun s b => ∀ t ∈ b.1.others,
      checkMevatrustStoreTx b.1.env.crypto s t.tx b.1.hfVersion = .ok ()) s blocks) :
    StoreChecked D s blocks := by
  rintro pre b post rfl t ht
  exact ⟨pre, List.prefix_refl pre, ((Machine.guarded_append _).1 h).2.1 t ht⟩

/-- Checked blocks are vetted when they come. -/
theorem StoreChecked.guarded (h : StoreChecked D s blocks) :
    (growingChain F D).Guarded (fun s b => Vetted b.1 s) s blocks := by
  refine Machine.guarded_of_prefixes _ fun pre b post hsplit => ?_
  intro hfork t ht op hparse hlist
  obtain ⟨pre', ⟨rest, rfl⟩, hcheck⟩ := h pre b post hsplit t ht
  rw [Machine.run_append]
  exact owner_run rest (owner_of_checkMevatrustStoreTx hcheck hfork hparse hlist)

/-- **Items are listed by owners and bought by buyers**, after every accepted chain of blocks in
which the keys agree. -/
theorem store_authorized {blocks : List (BlockCtx × BlockClock)}
    (hacc : StoreChecked D ({} : Manager F) blocks)
    (hkeys : (growingChain F D).Guarded (EachAction D fun ctx s a => a.KeysAgree ctx s) {} blocks) :
    StoreAuthorized ((growingChain F D).run {} blocks).2
      ((growingChain F D).run {} blocks).1.store := by
  refine Machine.run_invariant (growingChain F D) (I := fun s evs => StoreAuthorized evs s.store)
    ⟨?_, ?_⟩ (fun s evs b hs hb => hs.growingChain_step hb.1 hb.2) (hacc.guarded.and hkeys)
  · intro k e he
    simp at he
  · intro buyer p hp
    simp at hp

end

/-! ### A stranger at work -/

/-- A shop of the owner with key 4. -/
def shopOp : StoreOp where
  op := 0
  storeId := Pod32.null
  itemId := Pod32.null
  name := asciiBytes "shop"
  description := []
  url := []
  price := 0
  quantity := 0
  category := []
  metadata := []
  paymentAddress := asciiBytes "mvc"
  ownerPubkey := Pod32.single 4
  ownerSig := ⟨Pod32.single 5, Pod32.single 1⟩
  buyerPubkey := Pod32.null
  euroEnabled := false
  euroDetails := []
  mvcPercent := 100
  euroPercent := 0
  paymentMode := []
  buyerPaymentMethod := []
  euroRef := []
  euroAmount := 0
  sellerPubkey := Pod32.null
  sellerSig := ⟨Pod32.null, Pod32.null⟩
  cancelReason := []
  confirmExpiryHeight := 0

/-- The id the shop gets at height 100. -/
def shopId : Hash :=
  xorPod (sevenCurve.crypto.cnFastHash (Pod32.single 4).data)
    (sevenCurve.crypto.cnFastHash (asciiBytes "shop" ++ leBytes 8 100))

/-- A lamp, listed under some key. -/
def lampOp (key r : UInt8) : StoreOp :=
  { shopOp with
    op := 2
    storeId := shopId
    name := asciiBytes "lamp"
    price := 5
    quantity := 1
    ownerPubkey := Pod32.single key
    ownerSig := ⟨Pod32.single 1, Pod32.single r⟩ }

/-- The id the lamp gets at height 101. -/
def lampId : Hash :=
  sevenCurve.crypto.cnFastHash (shopId.data ++ asciiBytes "lamp" ++ leBytes 8 101)

/-- The lamp is bought for the buyer with key 5, under some key. -/
def buyLampOp (key r : UInt8) : StoreOp :=
  { shopOp with
    op := 4
    storeId := shopId
    itemId := lampId
    quantity := 1
    ownerPubkey := Pod32.single key
    buyerPubkey := Pod32.single 5
    ownerSig := ⟨Pod32.single 4, Pod32.single r⟩ }

/-- A transaction with a deposit that carries the payload. -/
def storeTx (op : StoreOp) : LoadedTx where
  tx :=
    { vout := [⟨0, .toKey Pod32.null⟩]
      extra := (packBlob 0xA8 (StoreOp.codec.write op)).getD [] }

/-- A block whose miner transaction carries the payload. -/
def minerStoreBlock (op : StoreOp) (height : UInt64) : BlockCtx × BlockClock :=
  ({ carrierBlock 0xA8 [] height with block := { minerTx := storeTx op } }, stillClock 2000)

/-- A block that carries the payload in another transaction. -/
def poolStoreBlock (op : StoreOp) (height : UInt64) : BlockCtx × BlockClock :=
  ({ carrierBlock 0xA8 [] height with
      block := { minerTx := { tx := {} }, txHashes := [Pod32.null] }
      chain := { getTx := fun _ => some (storeTx op) } }, stillClock 2000)

/-- A miner lists a lamp in a shop of somebody else. -/
def strangerListing : List (BlockCtx × BlockClock) :=
  [minerStoreBlock shopOp 100, minerStoreBlock (lampOp 2 4) 101]

/-- Somebody buys a lamp for somebody else. -/
def strangerPurchase : List (BlockCtx × BlockClock) :=
  [minerStoreBlock shopOp 100, poolStoreBlock (lampOp 4 1) 101, poolStoreBlock (buyLampOp 4 5) 102]

/-- The owner lists a lamp and the buyer buys it. -/
def honestPurchase : List (BlockCtx × BlockClock) :=
  [minerStoreBlock shopOp 100, poolStoreBlock (lampOp 4 1) 101, poolStoreBlock (buyLampOp 5 1) 102]

/-- **A stranger lists and a stranger buys**: the owner signed nothing for the item, and no
signature for the purchase verifies under its buyer's key. -/
theorem strangers_list_and_buy :
    (¬ ∀ blocks : List (BlockCtx × BlockClock), StoreChecked ℚ ({} : Manager ℚ) blocks →
        ∀ (k : Hash) (e : StoreItemEntry),
          ((growingChain ℚ ℚ).run {} blocks).1.store.items[k]? = some e →
          ∃ store, ((growingChain ℚ ℚ).run {} blocks).1.store.stores[e.storeId]? = some store ∧
            ListedBy ((growingChain ℚ ℚ).run {} blocks).2 store.ownerPubkey e) ∧
      ¬ ∀ blocks : List (BlockCtx × BlockClock), StoreChecked ℚ ({} : Manager ℚ) blocks →
        ∀ buyer, ∀ p ∈ ((growingChain ℚ ℚ).run {} blocks).1.store.purchases.getD buyer [],
          BoughtBy ((growingChain ℚ ℚ).run {} blocks).2 buyer p := by
  constructor
  · intro h
    have hall := h strangerListing (storeChecked_of_guarded (by decide +kernel))
    generalize hout : (growingChain ℚ ℚ).run {} strangerListing = out at hall
    have hfacts : (out.1.store.items[lampId]?).map (·.storeId) = some shopId ∧
        (out.1.store.stores[shopId]?).map (·.ownerPubkey) = some (Pod32.single 4) ∧
        (out.2.all fun x => match x.2 with
          | .store op _ => decide (StoreOperation.ofUInt8 op.op = some .itemList →
              x.1.env.crypto.checkSignature (storeMessageHash x.1.env.crypto op) (Pod32.single 4)
                op.ownerSig = false)
          | _ => true) = true := by
      rw [← hout]
      decide +kernel
    obtain ⟨hitem, hshop, hnone⟩ := hfacts
    obtain ⟨e, he, hid⟩ := Option.map_eq_some_iff.1 hitem
    obtain ⟨store, hst, ctx, op, t, hmem, hop, -, -, -, hsig⟩ := hall lampId e he
    rw [hid] at hst
    rw [hst] at hshop
    have hfalse := List.all_eq_true.1 hnone _ hmem
    have howner : store.ownerPubkey = Pod32.single 4 := Option.some.inj hshop
    rw [howner] at hsig
    simp [hop, hsig] at hfalse
  · intro h
    have hall := h strangerPurchase (storeChecked_of_guarded (by decide +kernel)) (Pod32.single 5)
    generalize hout : (growingChain ℚ ℚ).run {} strangerPurchase = out at hall
    have hfacts : out.1.store.purchases.getD (Pod32.single 5) [] ≠ [] ∧
        (out.2.all fun x => match x.2 with
          | .store op _ => decide (StoreOperation.ofUInt8 op.op = some .itemBuy →
              ¬ op.Carries x.1.env.crypto (Pod32.single 5))
          | _ => true) = true := by
      rw [← hout]
      decide +kernel
    obtain ⟨hbought, hnone⟩ := hfacts
    obtain ⟨p, hp⟩ := List.exists_mem_of_ne_nil _ hbought
    obtain ⟨ctx, op, t, hmem, hop, -, -, -, -, hcarries⟩ := hall p hp
    have hfalse := List.all_eq_true.1 hnone _ hmem
    simp [hop, hcarries] at hfalse

/-- The owner's listing and the buyer's purchase are authorized, and they are there. -/
theorem honest_purchase_authorized :
    StoreAuthorized ((growingChain ℚ ℚ).run {} honestPurchase).2
        ((growingChain ℚ ℚ).run {} honestPurchase).1.store ∧
      ((growingChain ℚ ℚ).run {} honestPurchase).1.store.isItemPurchased lampId (Pod32.single 5) =
        true :=
  ⟨store_authorized (storeChecked_of_guarded (by decide +kernel)) (by decide +kernel),
    by decide +kernel⟩

end Mevacoin.Trust
