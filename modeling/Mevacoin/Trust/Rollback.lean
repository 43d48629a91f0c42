import Mevacoin.Trust.Actions

/-!
# Taking a block back

`on_mevatrust_block_popped`.  `PoppedOp.reorg_data` is modelled as the value it is the packed form
of, and the clock is read once for all entries.
-/

namespace Mevacoin.Trust

open Lib Std

/-- `restore_circle`. -/
def CircleRegistry.restoreCircle (c : CircleRegistry) (e : CircleEntry) : CircleRegistry :=
  { c with
    circles := c.circles.insert e.circleId e
    nameToId := c.nameToId.insert e.name e.circleId }

/-- `set_admin`. -/
def CircleRegistry.setAdmin (c : CircleRegistry) (cid : Hash) (newAdmin : PublicKey)
    (now : UInt64) : Option CircleRegistry :=
  c.modify cid fun e => some { e with adminPubkey := newAdmin, updatedAt := now }

section

variable {F : Type}

/-- The `switch` of `on_mevatrust_block_popped`.  An entry whose operation was never set is undone
by nothing here; what the source does with it is undefined. -/
def undoOp (now : UInt64) (s : Manager F) : PoppedOp → Manager F
  | .register n => { s with registry := (s.registry.unregisterNode n).getD s.registry }
  | .deregister _ => s
  | .badgeAward n t =>
    { s with badges := s.badges.revokeBadge n t (asciiBytes "reorg-rollback") }
  | .validatorPromotion n =>
    { s with
      registry := (s.registry.updateNodeValidator n false 0 0 now).getD s.registry
      badges := s.badges.revokeBadge n .networkValidator (asciiBytes "reorg-rollback") }
  | .circleCreate cid pubkey =>
    { s with circles := (s.circles.disbandCircle cid pubkey).getD s.circles }
  | .circleDisband _ _ (some e) => { s with circles := s.circles.restoreCircle e }
  | .circleDisband _ _ none => s
  | .circleJoin cid pubkey =>
    { s with circles := (s.circles.removeMember cid pubkey pubkey now).getD s.circles }
  | .circleLeave cid pubkey (some admin) =>
    { s with circles := (s.circles.addMember cid pubkey admin now).getD s.circles }
  | .circleLeave _ _ none => s
  | .circleChangeAdmin cid _ (some admin) =>
    { s with circles := (s.circles.setAdmin cid admin now).getD s.circles }
  | .circleChangeAdmin _ _ none => s
  | .penalty n =>
    { s with registry := (s.registry.updateNodeStatus n .active [] now).getD s.registry }
  | .uptime _ | .chainProof _ | .challenge _ | .store _ _ | .circlePropose _ _ _
  | .circleVote _ _ | .circleFinalize _ _ | .poolDistribution _ => s
  | .unset _ _ => s

/-- `on_mevatrust_block_popped`. -/
def onMevatrustBlockPopped (height now : UInt64) (s : Manager F) : Manager F :=
  if s.initialized = false then s
  else
    match s.reorgLog[height]? with
    | none => s
    | some ops =>
      let s := undoAll (undoOp now) ops s
      { s with reorgLog := s.reorgLog.erase height }

/-! ### What a pop leaves alone -/

variable {now height : UInt64} {s : Manager F}

theorem undoOp_reorgLog (op : PoppedOp) : (undoOp now s op).reorgLog = s.reorgLog := by
  unfold undoOp
  split <;> rfl

theorem undoOp_initialized (op : PoppedOp) : (undoOp now s op).initialized = s.initialized := by
  unfold undoOp
  split <;> rfl

theorem undoAll_reorgLog (ops : List PoppedOp) :
    (undoAll (undoOp now) ops s).reorgLog = s.reorgLog := by
  induction ops with
  | nil => rfl
  | cons op ops ih => rw [undoAll_cons, undoOp_reorgLog, ih]

/-- The log as a list: no entry and an empty one are the same. -/
theorem getElem?_reorgLog_getD (s : Manager F) (height : UInt64) :
    (s.reorgLog[height]?).getD [] = s.logAt height := by
  unfold Manager.logAt
  rw [ExtTreeMap.getD_eq_getD_getElem?]

/-- A pop undoes the log of its height and then forgets it. -/
theorem onMevatrustBlockPopped_eq (height now : UInt64) (hinit : s.initialized = true) :
    ∃ log, onMevatrustBlockPopped height now s =
        { undoAll (undoOp now) (s.logAt height) s with reorgLog := log } ∧
      ∀ h, log.getD h [] = if height = h then [] else s.logAt h := by
  unfold onMevatrustBlockPopped
  rw [if_neg (by simp [hinit])]
  have hlog := getElem?_reorgLog_getD s height
  cases hs : s.reorgLog[height]? with
  | none =>
    rw [hs] at hlog
    refine ⟨s.reorgLog, ?_, ?_⟩
    · rw [← hlog]
      rfl
    · intro h
      split
      case isTrue heq =>
        subst heq
        exact hlog.symm
      case isFalse => rfl
  | some ops =>
    rw [hs, Option.getD_some] at hlog
    refine ⟨(undoAll (undoOp now) ops s).reorgLog.erase height, ?_, ?_⟩
    · rw [← hlog]
    · intro h
      rw [undoAll_reorgLog, ExtTreeMap.getD_erase]
      simp only [LawfulEqOrd.compare_eq_iff_eq]
      rfl

/-! ### Parts of the manager -/

variable [FloatArith F] (D : Type) [FloatArith D]

/-- A block is processed and taken back. -/
def rolledBack (ctx : BlockCtx) (clock : BlockClock) (now : UInt64) (s : Manager F) : Manager F :=
  onMevatrustBlockPopped ctx.height now (processMevatrustTxs D ctx clock s)

/-- The actions that `process_mevatrust_txs` performs for a block. -/
def actionsOf (ctx : BlockCtx) (clock : BlockClock) (s : Manager F) : List (Action × UInt64) :=
  blockActions D ctx ctx.txs clock.tx s

/-- A part of the manager, shown by `p`: `f` picks its actions, which `N` performs, and `k` its log
entries, which `back` undoes. -/
structure Part {τ β : Type} (ctx : BlockCtx) (now : UInt64) (p : Manager F → τ)
    (N : Machine τ β PoppedOp) (f : Action × UInt64 → Option β) (k : PoppedOp → Bool)
    (back : τ → PoppedOp → τ) : Prop where
  step : ∀ s a, N.run (p s) (f a).toList =
    (p ((actionMachine F D ctx).step s a).1, ((actionMachine F D ctx).step s a).2.filter k)
  undo : ∀ s op, p (undoOp now s op) = back (p s) op
  idle : ∀ x op, k op = false → back x op = x
  blind : ∀ (s : Manager F) log, p { s with reorgLog := log } = p s

variable {D} {τ β : Type} {ctx : BlockCtx} {clock : BlockClock} {p : Manager F → τ}
  {N : Machine τ β PoppedOp} {f : Action × UInt64 → Option β} {k : PoppedOp → Bool}
  {back : τ → PoppedOp → τ}

omit [FloatArith F] in
theorem expirySweep_reorgLog (height now : UInt64) (s : Manager F) :
    (expirySweep height now s).reorgLog = s.reorgLog := by
  unfold expirySweep
  split <;> rfl

omit [FloatArith F] in
theorem expirySweep_initialized (height now : UInt64) (s : Manager F) :
    (expirySweep height now s).initialized = s.initialized := by
  unfold expirySweep
  split <;> rfl

/-- A block is the run of its actions, and the sweep. -/
theorem processMevatrustTxs_eq_run (hinit : s.initialized = true) :
    processMevatrustTxs D ctx clock s = expirySweep ctx.height clock.sweep
      ((actionMachine F D ctx).run s (actionsOf D ctx clock s)).1 := by
  unfold processMevatrustTxs
  rw [if_neg (by simp [hinit]), processTxs_eq_run]
  rfl

/-- No block touches `m_initialized`. -/
theorem initialized_processMevatrustTxs (ctx : BlockCtx) (clock : BlockClock) (s : Manager F) :
    (processMevatrustTxs D ctx clock s).initialized = s.initialized := by
  cases hinit : s.initialized with
  | false =>
    unfold processMevatrustTxs
    rw [if_pos hinit, hinit]
  | true =>
    rw [processMevatrustTxs_eq_run hinit, expirySweep_initialized, initialized_actionMachine_run,
      hinit]

/-- A block logs, at its height, the events of its actions. -/
theorem logAt_processMevatrustTxs (hinit : s.initialized = true) (h : UInt64) :
    (processMevatrustTxs D ctx clock s).logAt h = if ctx.height = h then
      s.logAt h ++ ((actionMachine F D ctx).run s (actionsOf D ctx clock s)).2
      else s.logAt h := by
  rw [processMevatrustTxs_eq_run hinit, Manager.logAt, expirySweep_reorgLog, ← Manager.logAt,
    logAt_actionMachine_run]

/-- What a part and its log entries become in a run depends on the part alone. -/
theorem Part.run_congr (P : Part D ctx now p N f k back) {s' : Manager F} (h : p s = p s')
    (as : List (Action × UInt64)) :
    p ((actionMachine F D ctx).run s as).1 = p ((actionMachine F D ctx).run s' as).1 ∧
      ((actionMachine F D ctx).run s as).2.filter k =
        ((actionMachine F D ctx).run s' as).2.filter k := by
  have hs := Machine.run_project P.step s as
  rw [h, Machine.run_project P.step s' as, Prod.mk.injEq] at hs
  exact ⟨hs.1.symm, hs.2.symm⟩

/-- **A part, taken back.**  A pop undoes the run of a block in a part, if the log of the height
holds the entries of the block and the sweep does not show. -/
theorem Part.popped (P : Part D ctx now p N f k back) {s' : Manager F}
    (hinit : s.initialized = true) (hinit' : s'.initialized = true)
    (hs : p s = p (processMevatrustTxs D ctx clock s')) (hlog : (s.logAt ctx.height).filter k =
      ((actionMachine F D ctx).run s' (actionsOf D ctx clock s')).2.filter k)
    (hsweep : p (expirySweep ctx.height clock.sweep
        ((actionMachine F D ctx).run s' (actionsOf D ctx clock s')).1) =
      p ((actionMachine F D ctx).run s' (actionsOf D ctx clock s')).1) :
    p (onMevatrustBlockPopped ctx.height now s) =
      N.rollback back (p s') ((actionsOf D ctx clock s').filterMap f) := by
  have hproject := Machine.run_project P.step s' (actionsOf D ctx clock s')
  obtain ⟨log, hpop, -⟩ := onMevatrustBlockPopped_eq ctx.height now hinit
  rw [hpop, P.blind, undoAll_project P.undo, ← undoAll_filter P.idle, hlog, hs,
    processMevatrustTxs_eq_run hinit', hsweep, Machine.rollback, hproject]

/-- **A part, processed and taken back**, goes through the run of its actions and the undoing of
what they log, if the log held no entry before and the sweep does not show. -/
theorem Part.rolledBack (P : Part D ctx now p N f k back) (hinit : s.initialized = true)
    (hclear : (s.logAt ctx.height).filter k = [])
    (hsweep : ∀ s, p (expirySweep ctx.height clock.sweep s) = p s) :
    p (Trust.rolledBack D ctx clock now s) =
      N.rollback back (p s) ((actionsOf D ctx clock s).filterMap f) := by
  refine P.popped ((initialized_processMevatrustTxs ctx clock s).trans hinit) hinit rfl ?_
    (hsweep _)
  rw [logAt_processMevatrustTxs hinit, if_pos rfl, List.filter_append, hclear, List.nil_append]

/-- Without initialisation nothing happens. -/
theorem rolledBack_uninitialized (hinit : s.initialized = false) :
    Trust.rolledBack D ctx clock now s = s := by
  unfold Trust.rolledBack processMevatrustTxs onMevatrustBlockPopped
  rw [if_pos hinit, if_pos hinit]

end

end Mevacoin.Trust
