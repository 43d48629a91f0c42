import Mevacoin.Trust.PurchaseLife
import Mevacoin.Trust.StoreStock

/-!
# Purchases nobody confirmed

`auto_refund_expired` has no caller: every 240 blocks `on_new_block` logs the scan for purchases
nobody confirmed and does nothing.
-/

namespace Mevacoin.Trust

open Lib Std

/-- All purchases. -/
def StoreRegistry.allPurchases (r : StoreRegistry) : List StorePurchaseEntry :=
  r.purchases.toList.flatMap (·.2)

/-- Pending past its expiry. -/
def StorePurchaseEntry.Overdue (height : UInt64) (p : StorePurchaseEntry) : Prop :=
  p.status = .pending ∧ p.confirmExpiryHeight < height
deriving Decidable

/-- **Released**: no overdue purchase is left, and the items have the pieces back that the overdue
purchases had taken. -/
structure Released (height : UInt64) (r r' : StoreRegistry) : Prop where
  closed : ∀ p ∈ r'.allPurchases, ¬ p.Overdue height
  restored : ∀ k, r'.stock k =
    r.stock k + r.allPurchases.countP fun p => p.itemId = k ∧ p.Overdue height

/-! ### Payloads -/

/-- The buyer, the shop and the item that an operation names. -/
def StoreOp.names (op : StoreOp) : PublicKey × Hash × Hash :=
  (op.buyerPubkey, op.storeId, op.itemId)

/-- A store payload whose signature holds, with the block and the clock it is applied at. -/
structure StorePayload where
  ctx : BlockCtx
  op : StoreOp
  t : LoadedTx
  now : UInt64

namespace StorePayload

/-- The payload is applied. -/
def apply (r : StoreRegistry) (x : StorePayload) : StoreRegistry :=
  r.apply x.ctx.env.crypto x.ctx.env.poolAddress x.t.tx x.t.hash x.op x.ctx.height x.now

/-- The last height at which what the payload buys can be confirmed. -/
def expiry (x : StorePayload) : UInt64 := x.ctx.height + confirmWindowBlocks

/-- An `ITEM_BUY` that takes effect. -/
def Buys (r : StoreRegistry) (x : StorePayload) : Prop :=
  StoreOperation.ofUInt8 x.op.op = some .itemBuy ∧
    (r.buyItem x.op x.ctx.height x.now).isSome = true
deriving Decidable

/-- A confirmation or a cancellation, by one who may. -/
def settles (r : StoreRegistry) (x : StorePayload) : Bool :=
  match StoreOperation.ofUInt8 x.op.op with
  | some .storeConfirm | some .storeCancel => r.ownedBySeller x.op
  | some .buyerCancel => true
  | _ => false

/-- The payload settles the purchase, and comes no later than the height. -/
def Closes (r : StoreRegistry) (x : StorePayload) (k : PublicKey × Hash × Hash)
    (expiry : UInt64) : Prop :=
  x.op.names = k ∧ x.ctx.height ≤ expiry ∧ x.settles r = true
deriving Decidable

/-- One of the payloads closes the purchase. -/
def ClosedBy (k : PublicKey × Hash × Hash) (expiry : UInt64) (r : StoreRegistry) :
    List StorePayload → Prop
  | [] => False
  | x :: rest => x.Closes r k expiry ∨ ClosedBy k expiry (x.apply r) rest

instance decidableClosedBy (k : PublicKey × Hash × Hash) (expiry : UInt64) :
    ∀ r xs, Decidable (ClosedBy k expiry r xs)
  | _, [] => instDecidableFalse
  | r, x :: rest => @instDecidableOr _ _ _ (decidableClosedBy k expiry (x.apply r) rest)

/-- **Closed in time**: what a payload buys, and has to be confirmed below `height`, a later payload
closes. -/
def ClosedInTime (height : UInt64) (r : StoreRegistry) : List StorePayload → Prop
  | [] => True
  | x :: rest =>
    (x.Buys r → x.expiry < height → ClosedBy x.op.names x.expiry (x.apply r) rest) ∧
      ClosedInTime height (x.apply r) rest

instance decidableClosedInTime (height : UInt64) : ∀ r xs, Decidable (ClosedInTime height r xs)
  | _, [] => instDecidableTrue
  | r, x :: rest =>
    @instDecidableAnd _ _ inferInstance (decidableClosedInTime height (x.apply r) rest)

end StorePayload

namespace StoreRegistry

variable {r r' : StoreRegistry} {op : StoreOp} {e : StorePurchaseEntry} {height now : UInt64}

/-- A buyer's purchases differ in the shop or the item. -/
def Distinct (r : StoreRegistry) : Prop :=
  ∀ buyer, (r.purchases.getD buyer []).Pairwise
    fun p q => ¬ (p.storeId = q.storeId ∧ p.itemId = q.itemId)

theorem Distinct.of_eq (h : r.Distinct) (heq : r'.purchases = r.purchases) : r'.Distinct := by
  rwa [Distinct, heq]

theorem pairwise_putInto {l : List StorePurchaseEntry}
    (h : l.Pairwise fun p q => ¬ (p.storeId = q.storeId ∧ p.itemId = q.itemId)) :
    (putInto e l).Pairwise fun p q => ¬ (p.storeId = q.storeId ∧ p.itemId = q.itemId) := by
  induction l with
  | nil => exact List.pairwise_singleton _ _
  | cons q l ih =>
    obtain ⟨hq, hl⟩ := List.pairwise_cons.1 h
    rw [putInto]
    split_ifs with hsame
    · exact List.pairwise_cons.2 ⟨fun p hp => hsame.1 ▸ hsame.2 ▸ hq p hp, hl⟩
    · refine List.pairwise_cons.2 ⟨fun p hp => ?_, ih hl⟩
      rcases mem_putInto hp with rfl | hp
      · exact hsame
      · exact hq p hp

theorem Distinct.put (h : r.Distinct) : (r.putPurchase e).Distinct := by
  intro buyer
  rw [putPurchase, ExtTreeMap.getD_insert]
  split_ifs
  · exact pairwise_putInto (h _)
  · exact h buyer

/-- What is in the registry is what is looked up. -/
theorem Distinct.lookup_eq (h : r.Distinct) {buyer : PublicKey}
    (he : e ∈ r.purchases.getD buyer []) : r.lookup (buyer, e.storeId, e.itemId) = some e := by
  have hpair := h buyer
  rw [lookup]
  generalize r.purchases.getD buyer [] = l at he hpair ⊢
  induction l with
  | nil => cases he
  | cons q l ih =>
    obtain ⟨hq, hl⟩ := List.pairwise_cons.1 hpair
    rcases List.mem_cons.1 he with rfl | he
    · exact List.find?_cons_of_pos (by simp)
    · rw [List.find?_cons_of_neg (by simpa using hq e he)]
      exact ih he hl

/-- The purchase is pending and can be confirmed up to the height. -/
def PendingUntil (r : StoreRegistry) (k : PublicKey × Hash × Hash) (expiry : UInt64) : Prop :=
  ∃ p, r.lookup k = some p ∧ p.status = .pending ∧ p.confirmExpiryHeight = expiry

theorem pendingUntil_congr (h : r'.purchases = r.purchases) (k : PublicKey × Hash × Hash)
    (expiry : UInt64) : r'.PendingUntil k expiry ↔ r.PendingUntil k expiry := by
  rw [PendingUntil, PendingUntil, lookup, lookup, h]

/-- One purchase is written. -/
theorem pendingUntil_put (r : StoreRegistry) (k : PublicKey × Hash × Hash) (expiry : UInt64)
    (hnames : Names op e) :
    (r.putPurchase e).PendingUntil k expiry ↔
      (op.names = k ∧ e.status = .pending ∧ e.confirmExpiryHeight = expiry) ∨
        op.names ≠ k ∧ r.PendingUntil k expiry := by
  obtain ⟨hb, hs, hi⟩ := hnames
  have hk : (e.buyerPubkey = k.1 ∧ e.storeId = k.2.1 ∧ e.itemId = k.2.2) ↔ op.names = k := by
    rw [hb, hs, hi, StoreOp.names, Prod.ext_iff, Prod.ext_iff]
  rw [PendingUntil, lookup_putPurchase]
  split_ifs with h
  · simp [hk.1 h]
  · simp [mt hk.2 h, PendingUntil]

/-- A payload keeps purchases distinct; pending are those that it does not close and what it
buys. -/
structure Advances (r : StoreRegistry) (x : StorePayload) (r' : StoreRegistry) : Prop where
  distinct : r.Distinct → r'.Distinct
  pending : ∀ k expiry, r'.PendingUntil k expiry ↔
    r.PendingUntil k expiry ∧ ¬ x.Closes r k expiry ∨
      x.Buys r ∧ x.op.names = k ∧ x.expiry = expiry

variable {x : StorePayload}

/-- The purchases are left alone. -/
theorem Advances.of_eq (h : r'.purchases = r.purchases) (hbuy : ¬ x.Buys r)
    (hclose : ∀ k expiry, r.PendingUntil k expiry → ¬ x.Closes r k expiry) :
    r.Advances x r' where
  distinct hr := hr.of_eq h
  pending k expiry := by
    have hkept := hclose k expiry
    rw [pendingUntil_congr h]
    tauto

/-- Neither a purchase nor the end of one. -/
theorem Advances.idle (h : r'.purchases = r.purchases) (hbuy : ¬ x.Buys r)
    (hidle : x.settles r = false) : r.Advances x r' :=
  .of_eq h hbuy fun k expiry _ hclose => by simp [StorePayload.Closes, hidle] at hclose

/-- A purchase is pending. -/
theorem Advances.buy (hr : r.Sorted) (hop : StoreOperation.ofUInt8 x.op.op = some .itemBuy)
    (h : r.buyItem x.op x.ctx.height x.now = some r') : r.Advances x r' where
  distinct hdist := by
    obtain ⟨item, item', e, rfl, -⟩ := exists_of_buyItem h
    exact Distinct.put (r := { r with items := _ }) hdist
  pending k expiry := by
    have hbuys : x.Buys r := ⟨hop, by rw [h]; rfl⟩
    have hclose : ¬ x.Closes r k expiry := by simp [StorePayload.Closes, StorePayload.settles, hop]
    obtain ⟨item, item', e, rfl, -, -, -, hnames, -, hnew, hpending, hexpiry⟩ :=
      exists_of_buyItem h
    -- the buyer has no purchase of the item yet
    have hnone : ¬ r.PendingUntil x.op.names expiry := by
      rintro ⟨p, hp, -⟩
      refine hnew (List.any_eq_true.2 ⟨p, List.mem_of_find?_eq_some hp, ?_⟩)
      exact decide_eq_true (names_of_findPurchase hr hp).2.2
    rw [pendingUntil_put _ k expiry hnames, hpending, hexpiry]
    show _ ∨ _ ∧ r.PendingUntil k expiry ↔ _
    by_cases hk : x.op.names = k
    · subst hk
      simp [hnone, hbuys, StorePayload.expiry]
    · simp [hk, hclose]

/-- A pending purchase is closed, or what was asked for is refused. -/
theorem Advances.close (hr : r.Sorted) (hsettles : x.settles r = true) {status : PurchaseStatus}
    (hst : status ≠ .pending) (txid : Hash) :
    r.Advances x ((r.closePurchase x.op status txid x.ctx.height).getD r) := by
  have hbuys : ¬ x.Buys r := by
    rintro ⟨hop, -⟩
    simp [StorePayload.settles, hop] at hsettles
  have hcloses : ∀ k expiry, x.Closes r k expiry ↔ x.op.names = k ∧ x.ctx.height ≤ expiry := by
    simp [StorePayload.Closes, hsettles]
  cases hp : r.findPurchase x.op with
  | none =>
    rw [closePurchase, hp]
    refine .of_eq rfl hbuys fun k expiry hpend hclose => ?_
    obtain ⟨p, hp', -⟩ := hpend
    rw [← ((hcloses k expiry).1 hclose).1] at hp'
    cases hp.symm.trans hp'
  | some p =>
    rw [closePurchase, hp]
    show r.Advances x ((if _ then none else some _).getD r)
    split_ifs with hopen
    · refine .of_eq rfl hbuys fun k expiry hpend hclose => ?_
      obtain ⟨rfl, hle⟩ := (hcloses k expiry).1 hclose
      obtain ⟨p', hp', hpending, rfl⟩ := hpend
      obtain rfl := Option.some.inj (hp.symm.trans hp')
      exact hopen.elim (· hpending) (UInt64.not_lt.2 hle)
    · refine ⟨fun h => h.put, fun k expiry => ?_⟩
      have hnames : Names x.op p := names_of_findPurchase hr hp
      rw [Option.getD_some, hcloses, pendingUntil_put r k expiry (show Names x.op
        { p with status, confirmTxid := txid, confirmHeight := x.ctx.height } from hnames)]
      have hwithin : r.PendingUntil x.op.names expiry → x.ctx.height ≤ expiry := by
        rintro ⟨p', hp', -, rfl⟩
        obtain rfl := Option.some.inj (hp.symm.trans hp')
        exact UInt64.not_lt.1 (not_or.1 hopen).2
      by_cases hk : x.op.names = k
      · subst hk
        simpa [hst, hbuys] using hwithin
      · simp [hk, hbuys]

/-- A cancellation settles it. -/
theorem Advances.cancel (hr : r.Sorted) (hsettles : x.settles r = true) (txid : Hash) :
    r.Advances x ((r.cancelPurchase x.op txid x.ctx.height).getD r) := by
  have hst : PurchaseStatus.cancelled ≠ .pending := by decide
  have h := Advances.close hr hsettles hst txid
  rw [cancelPurchase]
  cases hclose : r.closePurchase x.op .cancelled txid x.ctx.height with
  | none => rwa [hclose] at h
  | some r' =>
    rw [hclose] at h
    have heq : (r'.restock x.op.itemId).purchases = r'.purchases := by grind [restock]
    exact ⟨fun hr => (h.distinct hr).of_eq heq, fun k expiry =>
      (pendingUntil_congr heq k expiry).trans (h.pending k expiry)⟩

/-- A receipt settles nothing pending. -/
theorem Advances.receipt (hr : r.Sorted)
    (hop : StoreOperation.ofUInt8 x.op.op = some .buyerConfirmReceipt) :
    r.Advances x ((r.buyerConfirmReceipt x.op x.ctx.height).getD r) := by
  have hbuys : ¬ x.Buys r := by simp [StorePayload.Buys, hop]
  have hidle : x.settles r = false := by simp [StorePayload.settles, hop]
  cases h : r.buyerConfirmReceipt x.op x.ctx.height with
  | none => exact .idle rfl hbuys hidle
  | some r' =>
    obtain ⟨p, hp, h⟩ := Option.bind_eq_some_iff.1 h
    obtain ⟨hconf, h⟩ := Option.ite_none_left_eq_some.1 h
    obtain rfl := Option.some.inj h
    refine ⟨fun h => h.put, fun k expiry => ?_⟩
    have hnames : Names x.op p := names_of_findPurchase hr hp
    -- a confirmed purchase was not pending
    have hnone : ¬ r.PendingUntil x.op.names expiry := by
      rintro ⟨p', hp', hpending, -⟩
      obtain rfl := Option.some.inj (hp.symm.trans hp')
      simp [hpending] at hconf
    rw [Option.getD_some, pendingUntil_put r k expiry (show Names x.op
      { p with status := .completed, confirmHeight := x.ctx.height } from hnames)]
    by_cases hk : x.op.names = k
    · subst hk
      simp [hnone, hbuys]
    · simp [hk, hbuys, StorePayload.Closes, hidle]

/-- **One payload.** -/
theorem advances_apply (hr : r.Sorted) (x : StorePayload) : r.Advances x (x.apply r) := by
  unfold StorePayload.apply StoreRegistry.apply
  split
  case h_6 hop =>
    cases h : r.buyItem x.op x.ctx.height x.now with
    | none => exact .idle rfl (by simp [StorePayload.Buys, h]) (by simp [StorePayload.settles, hop])
    | some r' => exact .buy hr hop h
  case h_7 hop =>
    have hsettles : x.settles r = r.ownedBySeller x.op := by simp [StorePayload.settles, hop]
    split_ifs with hseller
    · exact .close hr (hsettles.trans hseller) (by decide) _
    · exact .idle rfl (by simp [StorePayload.Buys, hop]) (by simpa [hsettles] using hseller)
  case h_8 hop =>
    have hsettles : x.settles r = r.ownedBySeller x.op := by simp [StorePayload.settles, hop]
    split_ifs with hseller
    · exact .cancel hr (hsettles.trans hseller) _
    · exact .idle rfl (by simp [StorePayload.Buys, hop]) (by simpa [hsettles] using hseller)
  case h_10 hop => exact .cancel hr (by simp [StorePayload.settles, hop]) _
  case h_11 hop => exact .receipt hr hop
  -- the other operations are about shops and items
  all_goals
    rename_i hop
    refine .idle ?_ (by simp [StorePayload.Buys, hop]) (by simp [StorePayload.settles, hop])
  · rfl
  · grind [createStore]
  · exact getD_of (P := fun r' => r'.purchases = r.purchases) rfl fun r' h => by
      obtain ⟨stores, rfl⟩ := exists_of_updateStore h
      rfl
  · grind [listItem]
  · grind [delistItem]
  · grind [deactivateStore]

/-- **Any number of payloads** leave nothing overdue if what is overdue already, and what they
buy, is closed in time. -/
theorem pending_foldl_iff (hr : r.Sorted) (height : UInt64) (xs : List StorePayload) :
    (∀ k expiry, (xs.foldl StorePayload.apply r).PendingUntil k expiry → ¬ expiry < height) ↔
      (∀ k expiry, r.PendingUntil k expiry → expiry < height →
        StorePayload.ClosedBy k expiry r xs) ∧ StorePayload.ClosedInTime height r xs := by
  induction xs generalizing r with
  | nil => simp [StorePayload.ClosedBy, StorePayload.ClosedInTime]
  | cons x xs ih =>
    rw [List.foldl_cons, ih (r := x.apply r) (livesOn_apply hr).sorted]
    simp only [(advances_apply hr x).pending, StorePayload.ClosedBy, StorePayload.ClosedInTime]
    constructor
    · rintro ⟨hlater, htime⟩
      have hbought (hbuy : x.Buys r) := hlater x.op.names x.expiry (.inr ⟨hbuy, rfl, rfl⟩)
      refine ⟨fun k expiry hp hlt => ?_, hbought, htime⟩
      by_cases hclose : x.Closes r k expiry
      · exact .inl hclose
      · exact .inr (hlater k expiry (.inl ⟨hp, hclose⟩) hlt)
    · rintro ⟨hlater, hbought, htime⟩
      refine ⟨fun k expiry hp hlt => ?_, htime⟩
      rcases hp with ⟨hp, hopen⟩ | ⟨hbuy, rfl, rfl⟩
      · exact (hlater k expiry hp hlt).resolve_left hopen
      · exact hbought hbuy hlt

theorem Distinct.foldl (hr : r.Sorted) (h : r.Distinct) (xs : List StorePayload) :
    (xs.foldl StorePayload.apply r).Distinct := by
  induction xs generalizing r with
  | nil => exact h
  | cons x xs ih => exact ih (livesOn_apply hr).sorted ((advances_apply hr x).distinct h)

/-- What is overdue is what can be looked up as overdue. -/
theorem overdue_iff (h : r.Distinct) (height : UInt64) :
    (∀ p ∈ r.allPurchases, ¬ p.Overdue height) ↔
      ∀ k expiry, r.PendingUntil k expiry → ¬ expiry < height := by
  have hmem : ∀ p, p ∈ r.allPurchases ↔ ∃ buyer, p ∈ r.purchases.getD buyer [] := by
    intro p
    simp only [allPurchases, List.mem_flatMap, Prod.exists, ExtTreeMap.getD_eq_getD_getElem?,
      ExtTreeMap.mem_toList_iff_getElem?_eq_some]
    constructor
    · rintro ⟨buyer, l, hl, hp⟩
      exact ⟨buyer, by rwa [hl]⟩
    · rintro ⟨buyer, hp⟩
      cases hl : r.purchases[buyer]? with
      | none => simp [hl] at hp
      | some l => exact ⟨buyer, l, hl, by rwa [hl] at hp⟩
  constructor
  · rintro hnone k expiry ⟨p, hp, hpending, rfl⟩ hlt
    exact hnone p ((hmem p).2 ⟨k.1, List.mem_of_find?_eq_some hp⟩) ⟨hpending, hlt⟩
  · intro hnone p hp ⟨hpending, hlt⟩
    obtain ⟨buyer, hp⟩ := (hmem p).1 hp
    exact hnone _ _ ⟨p, h.lookup_eq hp, hpending, rfl⟩ hlt

end StoreRegistry

/-! ### Chains -/

section

variable {F D : Type} [FloatArith F] [FloatArith D] [FloatWiden F D]

/-- The payload of a store action. -/
def Action.storePayload (ctx : BlockCtx) : Action × UInt64 → Option StorePayload
  | (.store op t, now) => some ⟨ctx, op, t, now⟩
  | _ => none

/-- The store payloads of a chain of blocks, in the order in which they are applied. -/
def storePayloads (D : Type) [FloatArith D] [FloatWiden F D] (s : Manager F) :
    List (BlockCtx × BlockClock) → List StorePayload
  | [] => []
  | b :: rest =>
    (actionsOf D b.1 b.2 (onNewBlock D b.1 b.2.newBlock s)).filterMap (Action.storePayload b.1) ++
      storePayloads D (applyBlock D b.1 b.2 s) rest

omit [FloatWiden F D] in
/-- The store after a block. -/
theorem store_actions (ctx : BlockCtx) (s : Manager F) (as : List (Action × UInt64)) :
    ((actionMachine F D ctx).run s as).1.store =
      (as.filterMap (Action.storePayload ctx)).foldl StorePayload.apply s.store := by
  induction as generalizing s with
  | nil => rfl
  | cons a as ih =>
    obtain ⟨a, now⟩ := a
    rw [Machine.run_cons, ih]
    show List.foldl _ (a.step D ctx now s).1.store _ = _
    rw [Action.step_store]
    cases a <;> rfl

/-- **The shops after a chain** are what its payloads make of them. -/
theorem store_run {s : Manager F} (hs : s.initialized = true)
    (blocks : List (BlockCtx × BlockClock)) :
    ((growingChain F D).run s blocks).1.store =
      (storePayloads D s blocks).foldl StorePayload.apply s.store := by
  induction blocks generalizing s with
  | nil => rfl
  | cons b blocks ih =>
    have hinit : (onNewBlock D b.1 b.2.newBlock s).initialized = true := by
      rw [initialized_onNewBlock, hs]
    have hblock : (applyBlock D b.1 b.2 s).store =
        ((actionsOf D b.1 b.2 (onNewBlock D b.1 b.2.newBlock s)).filterMap
          (Action.storePayload b.1)).foldl StorePayload.apply s.store := by
      rw [applyBlock, processMevatrustTxs_eq_run hinit, expirySweep_store, store_actions,
        onNewBlock_store]
    rw [Machine.run_cons, storePayloads, List.foldl_append, ← hblock]
    exact ih ((initialized_applyBlock D b.2).trans hs)

/-- **A scan releases what is overdue when nothing is.** -/
theorem released_iff (ctx : BlockCtx) (now : UInt64) (s : Manager F) :
    Released ctx.height s.store (onNewBlock D ctx now s).store ↔
      ∀ p ∈ s.store.allPurchases, ¬ p.Overdue ctx.height := by
  rw [onNewBlock_store]
  refine ⟨Released.closed, fun h => ⟨h, fun k => ?_⟩⟩
  rw [List.countP_eq_zero.2, Nat.add_zero]
  intro p hp
  simp [h p hp]

/-- **Expired purchases are released when there are none**: after any blocks, at any scan, exactly
if every expired purchase that these blocks made was closed in time. -/
theorem expired_released_iff (blocks : List (BlockCtx × BlockClock)) (ctx : BlockCtx)
    (now : UInt64) :
    Released ctx.height ((growingChain F D).run {} blocks).1.store
        (onNewBlock D ctx now ((growingChain F D).run {} blocks).1).store ↔
      StorePayload.ClosedInTime ctx.height {} (storePayloads D ({} : Manager F) blocks) := by
  have hdistinct : ({} : Manager F).store.Distinct := fun buyer => by simp
  have hrun := store_run (D := D) (s := ({} : Manager F)) rfl blocks
  rw [released_iff, hrun, StoreRegistry.overdue_iff (.foldl sorted_empty hdistinct _),
    StoreRegistry.pending_foldl_iff sorted_empty]
  exact and_iff_right fun k expiry ⟨p, hp, _⟩ => by simp [StoreRegistry.lookup] at hp

end

/-- The buyer of the lamp cancels at height 103. -/
def cancelledPurchase : List (BlockCtx × BlockClock) :=
  honestPurchase ++ [poolStoreBlock
    { buyLampOp 5 0 with op := 8, ownerSig := ⟨Pod32.single 5, Pod32.single 0⟩ } 103]

/-- The scan at 1680 finds nothing overdue. -/
theorem cancelled_lamp_released :
    let s := ((growingChain ℚ ℚ).run {} cancelledPurchase).1
    (s.store.findPurchase (buyLampOp 5 0)).map (·.status) = some .cancelled ∧
      Released 1680 s.store (onNewBlock ℚ (minerStoreBlock shopOp 1680).1 2000 s).store :=
  ⟨by decide +kernel,
    (expired_released_iff cancelledPurchase (minerStoreBlock shopOp 1680).1 2000).2
      (by decide +kernel)⟩

/-- **A purchase is forgotten.**  The lamp bought at height 102 is due at 1542 and pending after
the scan at 1680. -/
theorem purchase_forgotten :
    ¬ ∀ (blocks : List (BlockCtx × BlockClock)) (ctx : BlockCtx) (now : UInt64),
      StoreChecked ℚ ({} : Manager ℚ) blocks → ctx.height.toNat % 240 = 0 →
      Released ctx.height ((growingChain ℚ ℚ).run {} blocks).1.store
        (onNewBlock ℚ ctx now ((growingChain ℚ ℚ).run {} blocks).1).store := by
  intro h
  have hclosed := (h honestPurchase (minerStoreBlock shopOp 1680).1 2000
    (storeChecked_of_guarded (by decide +kernel)) rfl).closed
  exact absurd hclosed (by decide +kernel)

end Mevacoin.Trust
