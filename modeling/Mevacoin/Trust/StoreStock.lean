import Mevacoin.Trust.StoreAuthority

/-!
# Pieces on the shelf

The quantity of an `ITEM_BUY` is signed and compared with the stock, but `buy_item` is not told it
and takes one piece.
-/

namespace Mevacoin.Trust

open Lib Std

namespace StoreRegistry

/-- `auto_refund_expired`. -/
def autoRefundExpired (r : StoreRegistry) (s : StoreOp) (txid : Hash) (height : UInt64) :
    Option StoreRegistry := do
  let p ← r.findPurchase s
  if p.status ≠ .pending ∨ height < p.confirmExpiryHeight then none
  else
    let p := { p with status := .refunded, confirmTxid := txid, confirmHeight := height }
    return (r.putPurchase p).restock s.itemId

/-- The pieces of an item in stock. -/
def stock (r : StoreRegistry) (k : Hash) : ℕ := (r.items[k]?).elim 0 (·.quantity.toNat)

/-- One of the calls that undo a purchase succeeds. -/
def Undone (r : StoreRegistry) (s : StoreOp) (r' : StoreRegistry) : Prop :=
  ∃ txid height, r.cancelPurchase s txid height = some r' ∨
    r.autoRefundExpired s txid height = some r'

variable {r r' : StoreRegistry} {op : StoreOp}

/-- The undoing calls put one piece back and differ in the purchases. -/
theorem Undone.items (h : r.Undone op r') : r'.items = (r.restock op.itemId).items := by
  have hput : ∀ e, ((r.putPurchase e).restock op.itemId).items = (r.restock op.itemId).items := by
    intro e
    show (restock { r with purchases := _ } op.itemId).items = _
    unfold restock
    cases r.items[op.itemId]? <;> rfl
  obtain ⟨txid, height, h | h⟩ := h
  · obtain ⟨r₁, hclose, rfl⟩ := Option.map_eq_some_iff.1 h
    obtain ⟨p, -, hclose⟩ := Option.bind_eq_some_iff.1 hclose
    obtain ⟨-, hclose⟩ := Option.ite_none_left_eq_some.1 hclose
    rw [← Option.some.inj hclose, hput]
  · obtain ⟨p, -, h⟩ := Option.bind_eq_some_iff.1 h
    obtain ⟨-, h⟩ := Option.ite_none_left_eq_some.1 h
    rw [← Option.some.inj h, hput]

end StoreRegistry

/-- **A buy takes what it asks for when it asks for one piece**, and an undoing call gives that back
when the count has room. -/
theorem buy_takes_quantity_iff {r r' : StoreRegistry} {op : StoreOp} {height now : UInt64}
    (hbuy : r.buyItem op height now = some r') :
    (r'.stock op.itemId + op.quantity.toNat = r.stock op.itemId ↔ op.quantity = 1) ∧
      ∀ (r₁ r₂ : StoreRegistry) (undo : StoreOp) (item : StoreItemEntry),
        undo.itemId = op.itemId → r₁.Undone undo r₂ → r₁.items[op.itemId]? = some item →
        (r₂.stock op.itemId = r₁.stock op.itemId + op.quantity.toNat ↔
          op.quantity = 1 ∧ item.quantity.toNat + 1 < 2 ^ 64) := by
  have hone : op.quantity = 1 ↔ op.quantity.toNat = 1 := UInt64.toNat_inj.symm
  constructor
  · obtain ⟨item, hitem, h⟩ := Option.bind_eq_some_iff.1 hbuy
    obtain ⟨hopen, h⟩ := Option.ite_none_left_eq_some.1 h
    obtain ⟨-, h⟩ := Option.ite_none_left_eq_some.1 h
    obtain ⟨-, h⟩ := Option.ite_none_left_eq_some.1 h
    obtain rfl := Option.some.inj h
    have hpos : 0 < item.quantity.toNat :=
      Nat.pos_of_ne_zero fun h0 => hopen (.inr (UInt64.toNat_inj.1 h0))
    have hsub : (item.quantity - 1).toNat = item.quantity.toNat - 1 :=
      UInt64.toNat_sub_of_le _ _ (UInt64.le_iff_toNat_le.2 hpos)
    simp only [StoreRegistry.stock, StoreRegistry.putPurchase, ExtTreeMap.getElem?_insert_self,
      hitem, Option.elim_some, hone]
    omega
  · intro r₁ r₂ undo item hid hundo hitem
    simp only [StoreRegistry.stock, hundo.items, hid, StoreRegistry.restock, hitem,
      ExtTreeMap.getElem?_insert_self, Option.elim_some, UInt64.toNat_add, UInt64.toNat_one, hone]
    omega

/-- The owner lists two lamps. -/
def twoLamps : List (BlockCtx × BlockClock) :=
  [minerStoreBlock shopOp 100, poolStoreBlock
    { lampOp 4 0 with quantity := 2, ownerSig := ⟨Pod32.single 6, Pod32.single 0⟩ } 101]

/-- Both are asked for. -/
def buyBothOp : StoreOp :=
  { buyLampOp 5 0 with quantity := 2, ownerSig := ⟨Pod32.single 5, Pod32.single 0⟩ }

/-- **Two are asked for and one is taken**, by a purchase the pool has let through. -/
theorem two_asked_one_taken :
    ¬ ∀ (s : Manager ℚ) (t : LoadedTx) (op : StoreOp) (r' : StoreRegistry),
      checkMevatrustStoreTx sevenCurve.crypto s t.tx 18 = .ok () → parseStore t.tx = some op →
      StoreOperation.ofUInt8 op.op = some .itemBuy → s.store.buyItem op 102 2000 = some r' →
      r'.stock op.itemId + op.quantity.toNat = s.store.stock op.itemId := by
  intro h
  have hfacts := h ((growingChain ℚ ℚ).run {} twoLamps).1 (storeTx buyBothOp) buyBothOp
    _ (by decide +kernel) (by decide +kernel) (by decide) (Option.some_get (by decide +kernel)).symm
  exact absurd hfacts (by decide +kernel)

/-- One lamp is bought and given back. -/
theorem one_lamp_bought_and_returned : ∃ r r' r₂ : StoreRegistry,
    r.buyItem (buyLampOp 5 1) 102 2000 = some r' ∧ r'.stock lampId + 1 = r.stock lampId ∧
      r'.Undone (buyLampOp 5 1) r₂ ∧ r₂.stock lampId = r'.stock lampId + 1 := by
  have hrun : (((growingChain ℚ ℚ).run {} twoLamps).1.store.buyItem (buyLampOp 5 1) 102 2000).bind
      (fun r' => (r'.cancelPurchase (buyLampOp 5 1) Pod32.null 103).bind fun _ =>
        (r'.items[lampId]?).map (·.quantity)) = some 1 := by decide +kernel
  obtain ⟨r', hbuy, hrun⟩ := Option.bind_eq_some_iff.1 hrun
  obtain ⟨r₂, hcancel, hrun⟩ := Option.bind_eq_some_iff.1 hrun
  obtain ⟨item, hitem, hq⟩ := Option.map_eq_some_iff.1 hrun
  have hundo : r'.Undone (buyLampOp 5 1) r₂ := ⟨_, _, .inl hcancel⟩
  obtain ⟨htaken, hback⟩ := buy_takes_quantity_iff hbuy
  refine ⟨_, r', r₂, hbuy, htaken.2 rfl, hundo, (hback r' r₂ _ item rfl hundo hitem).2 ⟨rfl, ?_⟩⟩
  rw [hq]
  decide

end Mevacoin.Trust
