import Mevacoin.Trust.StoreAuthority

/-!
# The life of a purchase

`buy_item` records a purchase as pending; the seller confirms or cancels it, and the buyer cancels
it or acknowledges the receipt (`mevatrust_store_registry.cpp`).
-/

namespace Mevacoin.Trust

open Lib Std

/-- How the status of a purchase turns. -/
inductive PurchaseStatus.Turns : PurchaseStatus → PurchaseStatus → Prop
  | confirm : Turns pending confirmed
  | cancel : Turns pending cancelled
  | receive : Turns confirmed completed

/-- The same purchase, perhaps closed in the meantime. -/
def StorePurchaseEntry.Becomes (p p' : StorePurchaseEntry) : Prop :=
  p' = { p with
    status := p'.status, confirmTxid := p'.confirmTxid, confirmHeight := p'.confirmHeight } ∧
  Relation.ReflTransGen PurchaseStatus.Turns p.status p'.status

namespace StoreRegistry

variable {r r' : StoreRegistry} {op : StoreOp} {e p : StorePurchaseEntry}

/-- What is found is what was named. -/
theorem names_of_findPurchase (hr : r.Sorted) (h : r.findPurchase op = some p) : Names op p :=
  ⟨hr _ p (List.mem_of_find?_eq_some h), by simpa using List.find?_some h⟩

/-- The purchase of a buyer, in a shop, of an item. -/
def lookup (r : StoreRegistry) (k : PublicKey × Hash × Hash) : Option StorePurchaseEntry :=
  (r.purchases.getD k.1 []).find? fun p => p.storeId = k.2.1 ∧ p.itemId = k.2.2

/-- Looking in what was written. -/
theorem find?_putInto (store item : Hash) (l : List StorePurchaseEntry) :
    (putInto e l).find? (fun p => p.storeId = store ∧ p.itemId = item) =
      if e.storeId = store ∧ e.itemId = item then some e
      else l.find? fun p => p.storeId = store ∧ p.itemId = item := by
  induction l with
  | nil => simp [putInto, List.find?_singleton]
  | cons q l ih => grind [putInto]

/-- Looking for a purchase after one was written. -/
theorem lookup_putPurchase (e : StorePurchaseEntry) (k : PublicKey × Hash × Hash) :
    (r.putPurchase e).lookup k =
      if e.buyerPubkey = k.1 ∧ e.storeId = k.2.1 ∧ e.itemId = k.2.2 then some e
      else r.lookup k := by
  rw [lookup, lookup, putPurchase, ExtTreeMap.getD_insert]
  by_cases hb : e.buyerPubkey = k.1
  · simp only [hb, compare_self, if_true, find?_putInto, true_and]
  · simp only [LawfulEqCmp.compare_eq_iff_eq, hb, if_false, false_and]

theorem findPurchase_putPurchase (e : StorePurchaseEntry) :
    (r.putPurchase e).findPurchase op = if Names op e then some e else r.findPurchase op :=
  lookup_putPurchase e (op.buyerPubkey, op.storeId, op.itemId)

/-- Purchases are under their buyers, no item is forgotten, and each purchase is found as what it
has become. -/
structure LivesOn (r r' : StoreRegistry) : Prop where
  sorted : r'.Sorted
  items : ∀ k ∈ r.items, k ∈ r'.items
  found : ∀ op p, r.findPurchase op = some p → ∃ p', r'.findPurchase op = some p' ∧ p.Becomes p'

/-- The same purchases live on. -/
theorem LivesOn.of_eq (hr : r.Sorted) (h : r'.purchases = r.purchases)
    (items : ∀ k ∈ r.items, k ∈ r'.items) : r.LivesOn r' where
  sorted := by rwa [Sorted, h]
  items
  found op p hp := ⟨p, by rwa [findPurchase, h], rfl, .refl⟩

/-- Living on in two steps. -/
theorem LivesOn.trans {r'' : StoreRegistry} (h : r.LivesOn r') (h' : r'.LivesOn r'') :
    r.LivesOn r'' where
  sorted := h'.sorted
  items k hk := h'.items k (h.items k hk)
  found op p hp := by
    obtain ⟨p', hp', heq, hturns⟩ := h.found op p hp
    obtain ⟨p'', hp'', heq', hturns'⟩ := h'.found op p' hp'
    exact ⟨p'', hp'', by rw [heq', heq], hturns.trans hturns'⟩

/-- An operation writes a purchase that it names in the place of what it comes from. -/
theorem LivesOn.put (hr : r.Sorted) (hnames : Names op e)
    (hbecomes : ∀ p, r.findPurchase op = some p → p.Becomes e) : r.LivesOn (r.putPurchase e) where
  sorted buyer p hp := by
    rcases mem_putPurchase hp with ⟨rfl, rfl⟩ | hp
    · rfl
    · exact hr buyer p hp
  items _ hk := hk
  found op' p hp := by
    rw [findPurchase_putPurchase]
    split_ifs with he
    · refine ⟨e, rfl, hbecomes p ?_⟩
      rw [← hp, findPurchase, findPurchase, ← hnames.1, ← hnames.2.1, ← hnames.2.2, he.1, he.2.1,
        he.2.2]
    · exact ⟨p, hp, rfl, .refl⟩

variable {status : PurchaseStatus} {txid txHash : Hash} {height now : UInt64} {cr : Crypto}
  {pool : AccountAddress} {tx : Transaction}

/-- The purchase that an operation finds turns. -/
theorem LivesOn.turn (hr : r.Sorted) (hp : r.findPurchase op = some p)
    (hturns : p.status.Turns status) :
    r.LivesOn (r.putPurchase { p with status, confirmTxid := txid, confirmHeight := height }) := by
  have hnames : Names op p := names_of_findPurchase hr hp
  refine .put hr hnames fun p' hp' => ?_
  obtain rfl := Option.some.inj (hp'.symm.trans hp)
  exact ⟨rfl, .single hturns⟩

/-- A purchase that is closed lives on. -/
theorem LivesOn.close (hr : r.Sorted) (hs : PurchaseStatus.pending.Turns status)
    (h : r.closePurchase op status txid height = some r') : r.LivesOn r' := by
  obtain ⟨p, hp, h⟩ := Option.bind_eq_some_iff.1 h
  obtain ⟨hopen, h⟩ := Option.ite_none_left_eq_some.1 h
  obtain rfl := Option.some.inj h
  rw [← not_not.1 (not_or.1 hopen).1] at hs
  exact .turn hr hp hs

/-- A cancelled purchase lives on. -/
theorem LivesOn.cancel (hr : r.Sorted) (h : r.cancelPurchase op txid height = some r') :
    r.LivesOn r' := by
  obtain ⟨r₁, hclose, rfl⟩ := Option.map_eq_some_iff.1 h
  have hlives := LivesOn.close hr .cancel hclose
  exact hlives.trans (.of_eq hlives.sorted (by grind [restock]) (by grind [restock]))

/-- A received purchase lives on. -/
theorem LivesOn.receipt (hr : r.Sorted) (h : r.buyerConfirmReceipt op height = some r') :
    r.LivesOn r' := by
  obtain ⟨p, hp, h⟩ := Option.bind_eq_some_iff.1 h
  obtain ⟨hopen, h⟩ := Option.ite_none_left_eq_some.1 h
  obtain rfl := Option.some.inj h
  exact .turn hr hp (by rw [not_not.1 hopen]; exact .receive)

/-- A new purchase replaces none. -/
theorem LivesOn.buy (hr : r.Sorted) (h : r.buyItem op height now = some r') : r.LivesOn r' := by
  obtain ⟨item, item', e, rfl, -, -, -, hnames, -, hnew, -⟩ := exists_of_buyItem h
  have hitems : r.LivesOn { r with items := r.items.insert op.itemId item' } :=
    .of_eq hr rfl fun _ hk => ExtTreeMap.mem_insert.2 (.inr hk)
  refine hitems.trans (.put hr hnames fun p hp => absurd (List.any_eq_true.2 ?_) hnew)
  exact ⟨p, List.mem_of_find?_eq_some hp, decide_eq_true (names_of_findPurchase hr hp).2.2⟩

/-- An update is of the shops alone. -/
theorem exists_of_updateStore (h : r.updateStore op = some r') :
    ∃ stores, r' = { r with stores } := by
  obtain ⟨e, -, h⟩ := Option.bind_eq_some_iff.1 h
  obtain ⟨-, h⟩ := Option.ite_none_left_eq_some.1 h
  obtain ⟨x, -, h⟩ := Option.bind_eq_some_iff.1 h
  exact ⟨_, (Option.some.inj h).symm⟩

theorem LivesOn.update (hr : r.Sorted) (h : r.updateStore op = some r') : r.LivesOn r' := by
  obtain ⟨stores, rfl⟩ := exists_of_updateStore h
  exact .of_eq hr rfl fun _ hk => hk

/-- An operation may be refused. -/
theorem getD_of {P : StoreRegistry → Prop} (h : P r) {o : Option StoreRegistry}
    (hsome : ∀ r', o = some r' → P r') : P (o.getD r) := by
  cases o with
  | none => exact h
  | some r' => exact hsome r' rfl

/-- **One operation.** -/
theorem livesOn_apply (hr : r.Sorted) : r.LivesOn (r.apply cr pool tx txHash op height now) := by
  have hrefl : r.LivesOn r := .of_eq hr rfl fun _ hk => hk
  unfold apply
  split
  · exact hrefl
  · exact .of_eq hr (by grind [createStore]) (by grind [createStore])
  · exact getD_of hrefl fun _ => .update hr
  · exact .of_eq hr (by grind [listItem]) (by grind [listItem])
  · exact .of_eq hr (by grind [delistItem]) (by grind [delistItem])
  · exact getD_of hrefl fun _ => .buy hr
  · split_ifs
    · exact getD_of hrefl fun _ => .close hr .confirm
    · exact hrefl
  · split_ifs
    · exact getD_of hrefl fun _ => .cancel hr
    · exact hrefl
  · exact .of_eq hr (by grind [deactivateStore]) (by grind [deactivateStore])
  · exact getD_of hrefl fun _ => .cancel hr
  · exact getD_of hrefl fun _ => .receipt hr

/-- Nothing refers to a shop or an item that is not there. -/
structure Referenced (r : StoreRegistry) : Prop where
  items : ∀ (k : Hash) (e : StoreItemEntry), r.items[k]? = some e → e.storeId ∈ r.stores
  purchases : ∀ (buyer : PublicKey), ∀ p ∈ r.purchases.getD buyer [],
    p.storeId ∈ r.stores ∧ p.itemId ∈ r.items

/-- Nothing dangles if nothing is lost. -/
theorem Referenced.of_keeps (h : r.Referenced) (hr : r.Sorted) (hk : r.Keeps r')
    (hitems : ∀ k ∈ r.items, k ∈ r'.items) : r'.Referenced := by
  have hstores : ∀ k ∈ r.stores, k ∈ r'.stores := by
    intro k hkr
    obtain ⟨store', hst', -⟩ := hk.owner k _ (ExtTreeMap.getElem?_eq_some_getElem hkr)
    grind
  constructor
  · intro k e' he'
    obtain ⟨e, he, hs, -⟩ := hk.items k e' he'
    exact hs ▸ hstores _ (h.items k e he)
  · intro buyer p' hp'
    obtain ⟨p, hp, hs, hi, -⟩ := hk.purchases hr buyer p' hp'
    exact hs ▸ hi ▸ (h.purchases buyer p hp).imp (hstores _) (hitems _)

/-- A listing is in a known shop. -/
theorem Referenced.list (h : r.Referenced) (hlist : r.listItem cr op height = some r') :
    r'.Referenced := by
  obtain ⟨store, k', e, rfl, hst, hs, -⟩ := exists_of_listItem hlist
  constructor
  · grind [h.items]
  · grind [h.purchases]

/-- A purchase is of a known item. -/
theorem Referenced.buy (h : r.Referenced) (hbuy : r.buyItem op height now = some r') :
    r'.Referenced := by
  obtain ⟨item, item', e, rfl, hitem, hsame, hs, hnames, -⟩ := exists_of_buyItem hbuy
  have hstore := h.items _ item hitem
  constructor
  · grind [h.items, putPurchase, StoreItemEntry.SameListing]
  · intro buyer p hp
    rcases mem_putPurchase hp with ⟨rfl, rfl⟩ | hp
    · grind [putPurchase, Names]
    · grind [h.purchases, putPurchase]

/-- An operation adds an item or a purchase only to what is there. -/
theorem Referenced.apply (h : r.Referenced) (hr : r.Sorted) :
    (r.apply cr pool tx txHash op height now).Referenced := by
  by_cases hlist : StoreOperation.ofUInt8 op.op = some .itemList
  · unfold StoreRegistry.apply
    simp only [hlist]
    split_ifs
    · exact getD_of h fun _ => h.list
    · exact h
  by_cases hbuy : StoreOperation.ofUInt8 op.op = some .itemBuy
  · unfold StoreRegistry.apply
    simp only [hbuy]
    exact getD_of h fun _ => h.buy
  · exact h.of_keeps hr (keeps_apply hlist hbuy) (livesOn_apply hr).items

end StoreRegistry

variable {F D : Type} [FloatArith F] [FloatArith D] [FloatWiden F D]

/-- What every operation on the store keeps, a chain of blocks keeps. -/
theorem store_invariant {I : StoreRegistry → Prop} {s : Manager F} (h : I s.store)
    (hstep : ∀ r, I r → ∀ cr pool tx txHash op height now,
      I (r.apply cr pool tx txHash op height now))
    (blocks : List (BlockCtx × BlockClock)) : I ((growingChain F D).run s blocks).1.store := by
  refine Machine.run_state_invariant (P := fun _ _ => True) (growingChain F D)
    (I := fun s => I s.store) h ?_ (Machine.guarded_of_forall _ (fun _ _ _ => trivial) s)
  rintro s ⟨ctx, clock⟩ hs -
  refine processMevatrustTxs_invariant (P := fun _ _ => True) (I := fun s => I s.store) ?_ ?_ ?_
    (Machine.guarded_of_forall _ (fun _ _ _ => trivial) _)
  · rintro s ⟨a, now⟩ hs - -
    show I (a.step D ctx now s).1.store
    rw [Action.step_store]
    split
    · exact hstep _ hs ..
    · exact hs
  · intro s hs
    rwa [expirySweep_store]
  · rwa [onNewBlock_store]

omit [FloatArith F] in
theorem sorted_empty : ({} : Manager F).store.Sorted := fun buyer p hp => by simp at hp

/-- **Purchases live on**, along every chain. -/
theorem purchase_lifecycle (blocks later : List (BlockCtx × BlockClock)) :
    ((growingChain F D).run {} blocks).1.store.LivesOn
      ((growingChain F D).run {} (blocks ++ later)).1.store := by
  have hsorted := store_invariant (F := F) (D := D) sorted_empty
    (fun _ h _ _ _ _ _ _ _ => (StoreRegistry.livesOn_apply h).sorted) blocks
  rw [Machine.run_append]
  exact store_invariant (.of_eq hsorted rfl fun _ hk => hk)
    (fun _ h _ _ _ _ _ _ _ => h.trans (StoreRegistry.livesOn_apply h.sorted)) later

/-- **No reference dangles**, along every chain. -/
theorem store_references (blocks : List (BlockCtx × BlockClock)) :
    ((growingChain F D).run {} blocks).1.store.Referenced :=
  (store_invariant (I := fun r => r.Sorted ∧ r.Referenced) ⟨sorted_empty, by constructor <;> simp⟩
    (fun _ h _ _ _ _ _ _ _ => ⟨(StoreRegistry.livesOn_apply h.1).sorted, h.2.apply h.1⟩) blocks).2

end Mevacoin.Trust
