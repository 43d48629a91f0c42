import Mevacoin.Trust.Messages

/-!
# The on-chain store

Tag `0xA8`: `tx_extra_mevatrust_store` (`src/cryptonote_basic/tx_extra.h`), its signature checks
(`mevatrust_tx_parser.cpp`), the in-memory maps of `mevatrust_store_registry.cpp` and the part of
the block processing that applies an operation.
-/

namespace Mevacoin.Trust

open Lib Std

/-! ### The payload -/

/-- `tx_extra_mevatrust_store::Operation`. -/
inductive StoreOperation where
  | storeCreate | storeUpdate | itemList | itemDelist | itemBuy | storeConfirm | storeCancel
  | storeDeactivate | buyerCancel | buyerConfirmReceipt
deriving DecidableEq, Repr

/-- The enumerator an octet stands for. -/
def StoreOperation.ofUInt8 : UInt8 → Option StoreOperation
  | 0 => some storeCreate
  | 1 => some storeUpdate
  | 2 => some itemList
  | 3 => some itemDelist
  | 4 => some itemBuy
  | 5 => some storeConfirm
  | 6 => some storeCancel
  | 7 => some storeDeactivate
  | 8 => some buyerCancel
  | 9 => some buyerConfirmReceipt
  | _ => none

/-- `tx_extra_mevatrust_store`. -/
structure StoreOp where
  op : UInt8
  storeId : Hash
  itemId : Hash
  name : Bytes
  description : Bytes
  url : Bytes
  price : UInt64
  quantity : UInt64
  category : Bytes
  metadata : Bytes
  paymentAddress : Bytes
  ownerPubkey : PublicKey
  ownerSig : Signature
  buyerPubkey : PublicKey
  euroEnabled : Bool
  euroDetails : Bytes
  mvcPercent : UInt8
  euroPercent : UInt8
  paymentMode : Bytes
  buyerPaymentMethod : Bytes
  euroRef : Bytes
  euroAmount : UInt64
  sellerPubkey : PublicKey
  sellerSig : Signature
  cancelReason : Bytes
  confirmExpiryHeight : UInt64
deriving DecidableEq

/-- The archive form of a store operation. -/
def StoreOp.codec : Codec StoreOp :=
  (Codec.varint8.prod <| Pod32.codec.prod <| Pod32.codec.prod <| Codec.str.prod <|
      Codec.str.prod <| Codec.str.prod <| Codec.varint64.prod <| Codec.varint64.prod <|
      Codec.str.prod <| Codec.str.prod <| Codec.str.prod <| Pod32.codec.prod <|
      Signature.codec.prod <| Pod32.codec.prod <| Codec.bool.prod <| Codec.str.prod <|
      Codec.varint8.prod <| Codec.varint8.prod <| Codec.str.prod <| Codec.str.prod <|
      Codec.str.prod <| Codec.varint64.prod <| Pod32.codec.prod <| Signature.codec.prod <|
      Codec.str.prod Codec.varint64).imap
    (fun ⟨a, b, c, d, e, f, g, h, i, j, k, l, m, n, o, p, q, r, s, t, u, v, w, x, y, z⟩ =>
      ⟨a, b, c, d, e, f, g, h, i, j, k, l, m, n, o, p, q, r, s, t, u, v, w, x, y, z⟩)
    (fun s => (s.op, s.storeId, s.itemId, s.name, s.description, s.url, s.price, s.quantity,
      s.category, s.metadata, s.paymentAddress, s.ownerPubkey, s.ownerSig, s.buyerPubkey,
      s.euroEnabled, s.euroDetails, s.mvcPercent, s.euroPercent, s.paymentMode,
      s.buyerPaymentMethod, s.euroRef, s.euroAmount, s.sellerPubkey, s.sellerSig, s.cancelReason,
      s.confirmExpiryHeight))

/-- `parse_mevatrust_store_from_tx`. -/
def parseStore (tx : Transaction) : Option StoreOp :=
  parseTagged StoreOp.codec 0xA8 tx

/-- `store_message_hash`. -/
def storeMessageHash (cr : Crypto) (s : StoreOp) : Hash :=
  cr.cnFastHash (s.op :: s.storeId.data ++ s.itemId.data ++ s.name ++ s.description ++ s.url ++
    leBytes 8 s.price.toNat ++ leBytes 8 s.quantity.toNat ++ s.category ++ s.paymentAddress ++
    [boolOctet s.euroEnabled] ++ s.euroDetails ++ [s.mvcPercent, s.euroPercent] ++ s.paymentMode ++
    s.buyerPaymentMethod ++ s.euroRef ++ leBytes 8 s.euroAmount.toNat ++ s.sellerPubkey.data ++
    s.cancelReason ++ leBytes 8 s.confirmExpiryHeight.toNat)

/-- `store_confirm_message_hash`. -/
def storeConfirmMessageHash (cr : Crypto) (s : StoreOp) : Hash :=
  cr.cnFastHash (s.op :: s.storeId.data ++ s.itemId.data ++ s.buyerPubkey.data ++
    s.sellerPubkey.data ++ s.cancelReason)

/-- `buyer_action_message_hash`. -/
def buyerActionMessageHash (cr : Crypto) (s : StoreOp) : Hash :=
  cr.cnFastHash (s.op :: s.storeId.data ++ s.itemId.data ++ s.buyerPubkey.data ++ s.cancelReason)

/-- `verify_store_signature`. -/
def verifyStoreSignature (cr : Crypto) (s : StoreOp) : Bool :=
  cr.checkSignature (storeMessageHash cr s) s.ownerPubkey s.ownerSig

/-- `verify_store_confirm_signature`. -/
def verifyStoreConfirmSignature (cr : Crypto) (s : StoreOp) : Bool :=
  cr.checkSignature (storeConfirmMessageHash cr s) s.sellerPubkey s.sellerSig

/-- `verify_store_cancel_signature`, the same check. -/
def verifyStoreCancelSignature : Crypto → StoreOp → Bool := verifyStoreConfirmSignature

/-- `verify_store_buyer_cancel_signature`. -/
def verifyStoreBuyerCancelSignature (cr : Crypto) (s : StoreOp) : Bool :=
  cr.checkSignature (buyerActionMessageHash cr s) s.buyerPubkey s.ownerSig

/-- `verify_store_buyer_confirm_receipt_signature`, the same check. -/
def verifyStoreBuyerConfirmReceiptSignature : Crypto → StoreOp → Bool :=
  verifyStoreBuyerCancelSignature

/-- The check the block processing picks by the operation. -/
def verifyStoreOp (cr : Crypto) (s : StoreOp) : Bool :=
  match StoreOperation.ofUInt8 s.op with
  | some .storeConfirm => verifyStoreConfirmSignature cr s
  | some .storeCancel => verifyStoreCancelSignature cr s
  | some .buyerCancel => verifyStoreBuyerCancelSignature cr s
  | some .buyerConfirmReceipt => verifyStoreBuyerConfirmReceiptSignature cr s
  | _ => verifyStoreSignature cr s

/-! ### The registry -/

/-- `StoreEntry`. -/
structure StoreEntry where
  storeId : Hash
  name : Bytes
  description : Bytes
  url : Bytes
  ownerPubkey : PublicKey
  paymentAddress : Bytes
  euroEnabled : Bool
  euroDetails : Bytes
  mvcPercent : UInt8
  euroPercent : UInt8
  createdHeight : UInt64
  createdTimestamp : UInt64
  active : Bool := true
  itemCount : UInt32 := 0
deriving DecidableEq

/-- `StoreItemEntry`. -/
structure StoreItemEntry where
  itemId : Hash
  storeId : Hash
  name : Bytes
  description : Bytes
  price : UInt64
  quantity : UInt64
  category : Bytes
  metadata : Bytes
  active : Bool := true
  listedHeight : UInt64
  paymentMode : Bytes
deriving DecidableEq

/-- `PurchaseStatus`. -/
inductive PurchaseStatus where
  | pending | confirmed | cancelled | refunded | completed
deriving DecidableEq, Repr

/-- `StorePurchaseEntry`. -/
structure StorePurchaseEntry where
  storeId : Hash
  itemId : Hash
  buyerPubkey : PublicKey
  purchaseHeight : UInt64
  purchaseTimestamp : UInt64
  mvcAmountPaid : UInt64
  euroRef : Bytes
  euroAmount : UInt64
  status : PurchaseStatus := .pending
  confirmTxid : Hash := Pod32.null
  confirmHeight : UInt64 := 0
  confirmExpiryHeight : UInt64
deriving DecidableEq

/-- `StoreRegistry`. -/
structure StoreRegistry where
  /-- `stores_`. -/
  stores : ExtTreeMap Hash StoreEntry := ∅
  /-- `items_`. -/
  items : ExtTreeMap Hash StoreItemEntry := ∅
  /-- `purchases_`: of each buyer, in the order of insertion. -/
  purchases : ExtTreeMap PublicKey (List StorePurchaseEntry) := ∅

/-- `MAX_ITEMS_PER_STORE`. -/
def maxItemsPerStore : UInt32 := 100

/-- `CONFIRM_WINDOW_BLOCKS`. -/
def confirmWindowBlocks : UInt64 := 1440

/-- The percentages a shop gets: as given when euros are enabled and they add up to 100, all in
coins when not, `none` for a refusal. -/
def splitPercentages (euroEnabled : Bool) (mvc euro : UInt8) : Option (UInt8 × UInt8) :=
  if euroEnabled then
    if mvc = 0 ∨ 100 < mvc ∨ 99 < euro ∨ mvc.toNat + euro.toNat ≠ 100 then none
    else some (mvc, euro)
  else some (100, 0)

/-- The exclusive or of two 32-octet values. -/
def xorPod (a b : Pod32) : Pod32 :=
  ⟨List.zipWith (· ^^^ ·) a.data b.data, by rw [List.length_zipWith, a.size_eq, b.size_eq]; rfl⟩

namespace StoreRegistry

/-- `create_store`. -/
def createStore (cr : Crypto) (r : StoreRegistry) (s : StoreOp) (height now : UInt64) :
    StoreRegistry :=
  match splitPercentages s.euroEnabled s.mvcPercent s.euroPercent with
  | none => r
  | some (mvc, euro) =>
    let storeId := xorPod (cr.cnFastHash s.ownerPubkey.data)
      (cr.cnFastHash (s.name ++ leBytes 8 height.toNat))
    if r.stores.contains storeId then r
    else
      let e : StoreEntry := {
        storeId, name := s.name, description := s.description, url := s.url
        ownerPubkey := s.ownerPubkey, paymentAddress := s.paymentAddress
        euroEnabled := s.euroEnabled, euroDetails := s.euroDetails, mvcPercent := mvc
        euroPercent := euro, createdHeight := height, createdTimestamp := now }
      { r with stores := r.stores.insert storeId e }

/-- `update_store`. -/
def updateStore (r : StoreRegistry) (s : StoreOp) : Option StoreRegistry := do
  let e ← r.stores[s.storeId]?
  if !e.active ∨ e.ownerPubkey ≠ s.ownerPubkey then none
  else
    let (mvc, euro) ← splitPercentages s.euroEnabled s.mvcPercent s.euroPercent
    let paymentAddress := if s.paymentAddress = [] then e.paymentAddress else s.paymentAddress
    let e := { e with
      name := s.name, description := s.description, url := s.url, paymentAddress
      euroEnabled := s.euroEnabled, euroDetails := s.euroDetails, mvcPercent := mvc
      euroPercent := euro }
    return { r with stores := r.stores.insert s.storeId e }

/-- `deactivate_store`. -/
def deactivateStore (r : StoreRegistry) (storeId : Hash) (caller : PublicKey) :
    Option StoreRegistry := do
  let e ← r.stores[storeId]?
  if e.ownerPubkey ≠ caller then none
  else some { r with stores := r.stores.insert storeId { e with active := false } }

/-- The payment mode an item gets. -/
def listedPaymentMode (store : StoreEntry) (mode : Bytes) : Bytes :=
  if store.euroEnabled ∧ mode = asciiBytes "mvc_euro" then mode else asciiBytes "mvc_only"

/-- `list_item`; the caller is not compared with the owner of the shop. -/
def listItem (cr : Crypto) (r : StoreRegistry) (s : StoreOp) (height : UInt64) :
    Option StoreRegistry := do
  let store ← r.stores[s.storeId]?
  if !store.active ∨ maxItemsPerStore ≤ store.itemCount ∨ s.price = 0 then none
  else
    let itemId := cr.cnFastHash (s.storeId.data ++ s.name ++ leBytes 8 height.toNat)
    let e : StoreItemEntry := {
      itemId, storeId := s.storeId, name := s.name, description := s.description
      price := s.price, quantity := if 0 < s.quantity then s.quantity else 1
      category := s.category, metadata := s.metadata, listedHeight := height
      paymentMode := listedPaymentMode store s.paymentMode }
    return { r with
      items := r.items.insert itemId e
      stores := r.stores.insert s.storeId { store with itemCount := store.itemCount + 1 } }

/-- `delist_item`. -/
def delistItem (r : StoreRegistry) (storeId itemId : Hash) (caller : PublicKey) :
    Option StoreRegistry := do
  let item ← r.items[itemId]?
  if !item.active ∨ item.storeId ≠ storeId then none
  else
    let store ← r.stores[storeId]?
    if store.ownerPubkey ≠ caller then none
    else
      let itemCount := if 0 < store.itemCount then store.itemCount - 1 else store.itemCount
      return { r with
        items := r.items.insert itemId { item with active := false }
        stores := r.stores.insert storeId { store with itemCount } }

/-- `is_item_purchased`. -/
def isItemPurchased (r : StoreRegistry) (itemId : Hash) (buyer : PublicKey) : Bool :=
  (r.purchases.getD buyer []).any (·.itemId = itemId)

/-- Replace the first purchase of a shop's item, or append one. -/
def putInto (e : StorePurchaseEntry) : List StorePurchaseEntry → List StorePurchaseEntry
  | [] => [e]
  | p :: rest =>
    if p.storeId = e.storeId ∧ p.itemId = e.itemId then e :: rest else p :: putInto e rest

/-- `db_put_purchase`. -/
def putPurchase (r : StoreRegistry) (e : StorePurchaseEntry) : StoreRegistry :=
  { r with purchases :=
      r.purchases.insert e.buyerPubkey (putInto e (r.purchases.getD e.buyerPubkey [])) }

/-- `buy_item`, with the checks the block processing makes before it. -/
def buyItem (r : StoreRegistry) (s : StoreOp) (height now : UInt64) : Option StoreRegistry := do
  let item ← r.items[s.itemId]?
  if !item.active ∨ item.quantity = 0 then none
  else if item.storeId ≠ s.storeId then none
  else if r.isItemPurchased s.itemId s.buyerPubkey then none
  else
    let quantity := item.quantity - 1
    let item' := { item with quantity, active := quantity ≠ 0 }
    let r := { r with items := r.items.insert s.itemId item' }
    return r.putPurchase {
      storeId := s.storeId, itemId := s.itemId, buyerPubkey := s.buyerPubkey
      purchaseHeight := height, purchaseTimestamp := now, mvcAmountPaid := item.price
      euroRef := s.euroRef, euroAmount := s.euroAmount
      confirmExpiryHeight := height + confirmWindowBlocks }

/-- The first purchase of a shop's item by a buyer. -/
def findPurchase (r : StoreRegistry) (s : StoreOp) : Option StorePurchaseEntry :=
  (r.purchases.getD s.buyerPubkey []).find? fun p => p.storeId = s.storeId ∧ p.itemId = s.itemId

/-- Close a pending purchase within its window. -/
def closePurchase (r : StoreRegistry) (s : StoreOp) (status : PurchaseStatus) (txid : Hash)
    (height : UInt64) : Option StoreRegistry := do
  let p ← r.findPurchase s
  if p.status ≠ .pending ∨ p.confirmExpiryHeight < height then none
  else return r.putPurchase { p with status, confirmTxid := txid, confirmHeight := height }

/-- `confirm_purchase`. -/
def confirmPurchase (r : StoreRegistry) (s : StoreOp) (txid : Hash) (height : UInt64) :
    Option StoreRegistry :=
  r.closePurchase s .confirmed txid height

/-- Put one piece back on the shelf. -/
def restock (r : StoreRegistry) (itemId : Hash) : StoreRegistry :=
  match r.items[itemId]? with
  | none => r
  | some item =>
    { r with items :=
        r.items.insert itemId { item with quantity := item.quantity + 1, active := true } }

/-- `cancel_purchase`. -/
def cancelPurchase (r : StoreRegistry) (s : StoreOp) (txid : Hash) (height : UInt64) :
    Option StoreRegistry :=
  (r.closePurchase s .cancelled txid height).map (·.restock s.itemId)

/-- `buyer_cancel_purchase`, which does the same. -/
def buyerCancelPurchase : StoreRegistry → StoreOp → Hash → UInt64 → Option StoreRegistry :=
  cancelPurchase

/-- `buyer_confirm_receipt`. -/
def buyerConfirmReceipt (r : StoreRegistry) (s : StoreOp) (height : UInt64) :
    Option StoreRegistry := do
  let p ← r.findPurchase s
  if p.status ≠ .confirmed then none
  else return r.putPurchase { p with status := .completed, confirmHeight := height }

/-- The shop is open and the seller owns it: the check before a confirmation or a
cancellation by the seller. -/
def ownedBySeller (r : StoreRegistry) (s : StoreOp) : Bool :=
  r.stores[s.storeId]?.any fun e => e.active && e.ownerPubkey = s.sellerPubkey

/-- An output to the pool key, of any amount. -/
def hasDeposit (pool : AccountAddress) (tx : Transaction) : Bool :=
  tx.vout.any fun o => o.target = .toKey pool.spendPublicKey

/-- The `switch` of the block processing over a store operation whose signature holds. -/
def apply (cr : Crypto) (pool : AccountAddress) (r : StoreRegistry) (tx : Transaction)
    (txHash : Hash) (s : StoreOp) (height now : UInt64) : StoreRegistry :=
  match StoreOperation.ofUInt8 s.op with
  | none => r
  | some .storeCreate => if hasDeposit pool tx then r.createStore cr s height now else r
  | some .storeUpdate => (r.updateStore s).getD r
  | some .itemList => if hasDeposit pool tx then (r.listItem cr s height).getD r else r
  | some .itemDelist => (r.delistItem s.storeId s.itemId s.ownerPubkey).getD r
  | some .itemBuy => (r.buyItem s height now).getD r
  | some .storeConfirm =>
    if r.ownedBySeller s then (r.confirmPurchase s txHash height).getD r else r
  | some .storeCancel =>
    if r.ownedBySeller s then (r.cancelPurchase s txHash height).getD r else r
  | some .storeDeactivate => (r.deactivateStore s.storeId s.ownerPubkey).getD r
  | some .buyerCancel => (r.buyerCancelPurchase s txHash height).getD r
  | some .buyerConfirmReceipt => (r.buyerConfirmReceipt s height).getD r

end StoreRegistry

end Mevacoin.Trust
