import Mevacoin.Trust.ReplayedActions
import Mevacoin.Trust.Roster
import Mevacoin.Trust.SampleRebuild

/-!
# A chain with reorganisations

Blocks are added with `process_mevatrust_txs` and taken back with `on_mevatrust_block_popped`, which
undoes what the log of the height says.
-/

namespace Mevacoin.Trust

open Lib Std

/-! ### The chain -/

/-- The blocks of the chain, the latest first, each with what the clock read when it was added, and
the manager. -/
structure ChainState (F : Type) where
  chain : List (BlockCtx × BlockClock) := []
  manager : Manager F := {}

/-- What happens to the chain; a pop reads the clock once. -/
inductive ChainOp where
  | add (b : BlockCtx × BlockClock)
  | pop (now : UInt64)

/-! ### Operations on circles that leave no trace -/

/-- An operation that, when it succeeds, marks its transaction as processed for good. -/
def CircleAct.Marks : CircleAct → Prop
  | op o _ => CircleOpType.ofUInt8 o.opType = some .join ∨
      CircleOpType.ofUInt8 o.opType = some .leave ∨
      CircleOpType.ofUInt8 o.opType = some .changeAdmin
  | vote _ => False

/-- The log brings the circles back after the operation, and no mark is left. -/
def CircleAct.Erased (ctx : BlockCtx) (c : CircleRegistry) (a : CircleAct × UInt64) : Prop :=
  CircleAct.Reverts ctx c a ∧ (a.1.Marks → a.1.Idle ctx c)

instance : ∀ a : CircleAct, Decidable a.Marks
  | .op _ _ => inferInstanceAs (Decidable (_ ∨ _ ∨ _))
  | .vote _ => .isFalse id

instance (ctx : BlockCtx) (c : CircleRegistry) (a : CircleAct × UInt64) :
    Decidable (CircleAct.Erased ctx c a) :=
  inferInstanceAs (Decidable (_ ∧ _))

/-- What is erased is undone. -/
theorem CircleAct.Erased.undone {D : Type} [FloatArith D] {ctx : BlockCtx} {c : CircleRegistry}
    {a : CircleAct × UInt64} (h : CircleAct.Erased ctx c a) (now : UInt64) :
    undoneCircles D ctx now c a = c := by
  obtain ⟨a, time⟩ := a
  obtain ⟨hreverts, hmarks⟩ := h
  cases a with
  | op o txHash =>
    match hop : CircleOpType.ofUInt8 o.opType with
    | some .create => exact undoneCircles_create_eq hop hreverts
    | some .join =>
      have hidle := hmarks (.inl hop)
      dsimp only [CircleAct.Idle] at hidle
      simp only [hop] at hidle
      exact undoneCircles_of_refused (step_join_refused hop hidle)
    | some .leave =>
      have hidle := hmarks (.inr (.inl hop))
      dsimp only [CircleAct.Idle] at hidle
      simp only [hop] at hidle
      exact undoneCircles_of_refused (step_leave_refused hop hidle)
    | some .changeAdmin =>
      have hidle := hmarks (.inr (.inr hop))
      dsimp only [CircleAct.Idle] at hidle
      simp only [hop] at hidle
      exact undoneCircles_of_refused (step_changeAdmin_refused hop hidle)
    | some .disband => exact undoneCircles_disband_eq hop hreverts
    | none =>
      unfold CircleAct.Reverts at hreverts
      simp only [hop] at hreverts
  | vote v =>
    match hop : VoteOpType.ofUInt8 v.opType with
    | some .proposeChangeAdmin => exact undoneCircles_propose_eq hop hreverts
    | some .castVote => exact undoneCircles_castVote_eq hop hreverts
    | some .finalizeVote => exact undoneCircles_finalizeVote_eq hop hreverts
    | none =>
      unfold CircleAct.Reverts at hreverts
      simp only [hop] at hreverts

section

variable {F : Type} [FloatArith F]

/-- The log brings back the roster and the circles after the action. -/
def Action.Erased (ctx : BlockCtx) (s : Manager F) (a : Action × UInt64) : Prop :=
  match a.1 with
  | .node b => b.Erased ctx s.registry.roster
  | .circle b => CircleAct.Erased ctx s.circles (b, a.2)
  | _ => True

instance [DecidableEq F] (ctx : BlockCtx) (s : Manager F) (a : Action × UInt64) :
    Decidable (Action.Erased ctx s a) := by
  unfold Action.Erased
  split <;> infer_instance

variable (D : Type) [FloatArith D]

/-- Blocks are added and popped. -/
def chainMachine (F D : Type) [FloatArith F] [FloatArith D] :
    Machine (ChainState F) ChainOp Empty where
  step x
    | .add b => (⟨b :: x.chain, processMevatrustTxs D b.1 b.2 x.manager⟩, [])
    | .pop now =>
      match x.chain with
      | [] => (x, [])
      | b :: rest => (⟨rest, onMevatrustBlockPopped b.1.height now x.manager⟩, [])

/-- The blocks of a chain processed from nothing, in order. -/
def replay (chain : List (BlockCtx × BlockClock)) : Manager F :=
  chain.foldr (fun b s => processMevatrustTxs D b.1 b.2 s) {}

/-- **A block that a pop takes back**: the log brings back what its actions do, and no node expires
at its end.  `Q` is for what the log knows nothing of. -/
structure Reversible (Q : BlockCtx → Manager F → Action × UInt64 → Prop)
    (b : BlockCtx × BlockClock) (s : Manager F) : Prop where
  acts : (actionMachine F D b.1).Guarded (fun s a => Action.Erased b.1 s a ∧ Q b.1 s a) s
    (actionsOf D b.1 b.2 s)
  sweep : Unswept b.1.height b.2.sweep
    ((actionMachine F D b.1).run s (actionsOf D b.1 b.2 s)).1

instance [DecidableEq F] (Q : BlockCtx → Manager F → Action × UInt64 → Prop)
    [∀ ctx s a, Decidable (Q ctx s a)] (b : BlockCtx × BlockClock) (s : Manager F) :
    Decidable (Reversible D Q b s) :=
  decidable_of_iff (_ ∧ _) ⟨fun h => ⟨h.1, h.2⟩, fun h => ⟨h.1, h.2⟩⟩

/-- The operation follows the chain: a block is added at the next height. -/
def ChainOp.Follows (start : ℕ) (x : ChainState F) : ChainOp → Prop
  | add b => b.1.height.toNat = start + x.chain.length
  | pop _ => True

/-- The block that is popped, if any, is one that a pop takes back. -/
def ChainOp.TakesBack (Q : BlockCtx → Manager F → Action × UInt64 → Prop) (x : ChainState F) :
    ChainOp → Prop
  | add _ => True
  | pop _ =>
    match x.chain with
    | [] => True
    | b :: rest => Reversible D Q b (replay D rest)

omit [FloatArith F] in
instance (start : ℕ) (x : ChainState F) : ∀ op : ChainOp, Decidable (op.Follows start x)
  | .add b => inferInstanceAs (Decidable (b.1.height.toNat = start + x.chain.length))
  | .pop _ => .isTrue trivial

instance [DecidableEq F] (Q : BlockCtx → Manager F → Action × UInt64 → Prop)
    [∀ ctx s a, Decidable (Q ctx s a)] (x : ChainState F) :
    ∀ op : ChainOp, Decidable (op.TakesBack D Q x)
  | .add _ => .isTrue trivial
  | .pop _ => by
    unfold ChainOp.TakesBack
    dsimp only
    split <;> infer_instance

/-! ### What decides, and what a pop leaves alone -/

omit [FloatArith F] in
/-- What the blocks to come look at. -/
def Manager.gates (s : Manager F) : Roster F × CircleRegistry := (s.registry.roster, s.circles)

/-- Something no pop and no sweep touches, and an action changes as it finds it. -/
structure Passive {τ : Type} (p : Manager F → τ) : Prop where
  step : ∀ (ctx : BlockCtx) (s s' : Manager F) (a : Action × UInt64), p s = p s' →
    p ((actionMachine F D ctx).step s a).1 = p ((actionMachine F D ctx).step s' a).1
  undo : ∀ now s op, p (undoOp now s op) = p s
  log : ∀ (s : Manager F) l, p { s with reorgLog := l } = p s
  sweep : ∀ height now s, p (expirySweep height now s) = p s

/-- What a block logs. -/
def blockEvents (b : BlockCtx × BlockClock) (s : Manager F) : List PoppedOp :=
  ((actionMachine F D b.1).run s (actionsOf D b.1 b.2 s)).2

variable {D} {ctx : BlockCtx} {clock : BlockClock} {s s' : Manager F}

/-- Actions keep gates equal. -/
theorem gates_step (h : s.gates = s'.gates) (a : Action × UInt64) :
    ((actionMachine F D ctx).step s a).1.gates = ((actionMachine F D ctx).step s' a).1.gates := by
  obtain ⟨hroster, hcircles⟩ := Prod.mk.inj h
  exact congrArg₂ Prod.mk ((rosterPart D ctx 0).run_congr hroster [a]).1
    ((circlesPart ctx 0).run_congr hcircles [a]).1

/-- **The same gates, the same actions.** -/
theorem actionsOf_congr (h : s.gates = s'.gates) :
    actionsOf D ctx clock s = actionsOf D ctx clock s' := by
  refine blockActions_congr (R := fun s s' => s.gates = s'.gates) ?_
    (fun s s' a h => gates_step h a) _ h
  intro t _ s s' h
  obtain ⟨hroster, hcircles⟩ := Prod.mk.inj h
  refine ⟨fun n pk => ?_, .inl hcircles⟩
  rw [← NodeRegistry.roster_bound, hroster, NodeRegistry.roster_bound]

omit [FloatArith F] in
/-- The sweep keeps gates equal. -/
theorem gates_expirySweep (height now : UInt64) (h : s.gates = s'.gates) :
    (expirySweep height now s).gates = (expirySweep height now s').gates := by
  obtain ⟨hroster, hcircles⟩ := Prod.mk.inj h
  unfold expirySweep
  split
  · refine congrArg₂ Prod.mk ?_ hcircles
    rw [NodeRegistry.roster_expireInactiveNodes, NodeRegistry.roster_expireInactiveNodes, hroster]
  · exact h

/-- **A block keeps the gates the same.** -/
theorem gates_processMevatrustTxs (hinit : s.initialized = true) (hinit' : s'.initialized = true)
    (h : s.gates = s'.gates) :
    (processMevatrustTxs D ctx clock s).gates = (processMevatrustTxs D ctx clock s').gates := by
  rw [processMevatrustTxs_eq_run hinit, processMevatrustTxs_eq_run hinit', actionsOf_congr h]
  exact gates_expirySweep _ _ (Machine.run_related (actionMachine F D ctx)
    (R := fun s s' => s.gates = s'.gates) (fun s s' a h => gates_step h a) h _)

/-- What of the log of a block matters is the same too. -/
theorem blockEvents_congr (h : s.gates = s'.gates) (b : BlockCtx × BlockClock) :
    (blockEvents D b s).filter PoppedOp.onRoster = (blockEvents D b s').filter PoppedOp.onRoster ∧
      (blockEvents D b s).filter PoppedOp.onCircles =
        (blockEvents D b s').filter PoppedOp.onCircles := by
  obtain ⟨hroster, hcircles⟩ := Prod.mk.inj h
  unfold blockEvents
  rw [actionsOf_congr h]
  exact ⟨((rosterPart D b.1 0).run_congr hroster _).2, ((circlesPart b.1 0).run_congr hcircles _).2⟩

section

variable {τ : Type} {p : Manager F → τ}

theorem Passive.processMevatrustTxs (hp : Passive D p) (hinit : s.initialized = true)
    (hinit' : s'.initialized = true) (hgates : s.gates = s'.gates) (h : p s = p s') :
    p (Trust.processMevatrustTxs D ctx clock s) = p (Trust.processMevatrustTxs D ctx clock s') := by
  rw [processMevatrustTxs_eq_run hinit, processMevatrustTxs_eq_run hinit', actionsOf_congr hgates,
    hp.sweep, hp.sweep]
  exact Machine.run_related _ (R := fun s s' => p s = p s') (fun s s' a h => hp.step ctx s s' a h)
    h _

theorem Passive.onMevatrustBlockPopped (hp : Passive D p) (hinit : s.initialized = true)
    (height now : UInt64) : p (Trust.onMevatrustBlockPopped height now s) = p s := by
  obtain ⟨log, hpop, -⟩ := onMevatrustBlockPopped_eq height now hinit
  rw [hpop, hp.log]
  generalize s.logAt height = ops
  induction ops with
  | nil => rfl
  | cons op ops ih => rw [undoAll_cons, hp.undo, ih]

end

/-! ### The invariant -/

/-- A replayed state is initialized. -/
theorem replay_initialized (chain : List (BlockCtx × BlockClock)) :
    (replay D chain : Manager F).initialized = true := by
  induction chain with
  | nil => rfl
  | cons b rest ih => exact (initialized_processMevatrustTxs b.1 b.2 _).trans ih

theorem undo_eq_congruence {σ ε : Type} (undo : σ → ε → σ) : UndoCongruence undo Eq where
  refl _ := rfl
  trans := Eq.trans
  undo h _ := by rw [h]

/-- **A reversible block is taken back**: its roster and its circles, by a state that has the same
and the same log. -/
theorem Reversible.gates {Q : BlockCtx → Manager F → Action × UInt64 → Prop}
    {b : BlockCtx × BlockClock} (h : Reversible D Q b s') (hinit : s.initialized = true)
    (hinit' : s'.initialized = true) (hgates : s.gates = (processMevatrustTxs D b.1 b.2 s').gates)
    (hroster : (s.logAt b.1.height).filter PoppedOp.onRoster =
      (blockEvents D b s').filter PoppedOp.onRoster)
    (hcircles : (s.logAt b.1.height).filter PoppedOp.onCircles =
      (blockEvents D b s').filter PoppedOp.onCircles) (now : UInt64) :
    (onMevatrustBlockPopped b.1.height now s).gates = s'.gates := by
  obtain ⟨hgates₁, hgates₂⟩ := Prod.mk.inj hgates
  refine congrArg₂ Prod.mk ?_ ?_
  · rw [(rosterPart D b.1 now).popped (p := fun s => s.registry.roster) hinit hinit' hgates₁ hroster
      (by rw [h.sweep.expirySweep])]
    refine (rosterMachine F b.1).rollback_related (undo_eq_congruence _)
      (fun G a (ha : a.1.Erased b.1 G) => ha.undone) ?_
    refine Machine.Guarded.project (rosterPart D b.1 now).step ?_ h.acts
    rintro s ⟨a, time⟩ ⟨ha, -⟩ c hc
    cases a with
    | node a =>
      obtain rfl := Option.some_inj.1 hc
      exact ha
    | _ => cases hc
  · rw [(circlesPart b.1 now).popped (p := fun s => s.circles) hinit hinit' hgates₂ hcircles
      (by rw [h.sweep.expirySweep])]
    refine (circleMachine D b.1).rollback_related (undo_eq_congruence _)
      (fun c a (ha : CircleAct.Erased b.1 c a) => ha.undone now) ?_
    refine Machine.Guarded.project (circlesPart b.1 now).step ?_ h.acts
    rintro s ⟨a, time⟩ ⟨ha, -⟩ c hc
    cases a with
    | circle a =>
      obtain rfl := Option.some_inj.1 hc
      exact ha
    | _ => cases hc

/-- **The state follows the chain**: gates and passive parts are those of the replay, the log of
every height is that of its block as far as it matters, and there is none for heights to come. -/
structure Followed (D : Type) [FloatArith D] {τ : Type} (start : ℕ) (p : Manager F → τ)
    (x : ChainState F) : Prop where
  initialized : x.manager.initialized = true
  gates : x.manager.gates = (replay D x.chain : Manager F).gates
  seen : p x.manager = p (replay D x.chain)
  heights : ∀ b rest, b :: rest <:+ x.chain → b.1.height.toNat = start + rest.length
  roster : ∀ b rest, b :: rest <:+ x.chain →
    (x.manager.logAt b.1.height).filter PoppedOp.onRoster =
      (blockEvents D b (replay D rest : Manager F)).filter PoppedOp.onRoster
  circles : ∀ b rest, b :: rest <:+ x.chain →
    (x.manager.logAt b.1.height).filter PoppedOp.onCircles =
      (blockEvents D b (replay D rest : Manager F)).filter PoppedOp.onCircles
  fresh : ∀ h : UInt64, start + x.chain.length ≤ h.toNat → x.manager.logAt h = []

section

variable {τ : Type} {p : Manager F → τ} {start : ℕ} {x : ChainState F}

/-- **A block is added.** -/
theorem Followed.add (hp : Passive D p) (h : Followed D start p x) {b : BlockCtx × BlockClock}
    (hheight : b.1.height.toNat = start + x.chain.length) :
    Followed D start p ⟨b :: x.chain, processMevatrustTxs D b.1 b.2 x.manager⟩ := by
  have hreplay := replay_initialized (F := F) (D := D) x.chain
  have hlog (height : UInt64) : (processMevatrustTxs D b.1 b.2 x.manager).logAt height = _ :=
    logAt_processMevatrustTxs h.initialized height
  -- the log of the blocks below is what it was
  have hbelow : ∀ c rest, c :: rest <:+ x.chain →
      (processMevatrustTxs D b.1 b.2 x.manager).logAt c.1.height = x.manager.logAt c.1.height := by
    intro c rest hc
    have hlength := hc.length_le
    have hc' := h.heights c rest hc
    rw [List.length_cons] at hlength
    rw [hlog, if_neg]
    intro heq
    rw [heq] at hheight
    omega
  have htop : (processMevatrustTxs D b.1 b.2 x.manager).logAt b.1.height =
      blockEvents D b x.manager := by
    rw [hlog, if_pos rfl, h.fresh _ hheight.ge]
    rfl
  have hsplit : ∀ c rest, c :: rest <:+ b :: x.chain →
      c = b ∧ rest = x.chain ∨ c :: rest <:+ x.chain := by
    intro c rest hc
    obtain heq | hc := List.suffix_cons_iff.1 hc
    · obtain ⟨rfl, rfl⟩ := List.cons.inj heq
      exact .inl ⟨rfl, rfl⟩
    · exact .inr hc
  refine ⟨(initialized_processMevatrustTxs b.1 b.2 _).trans h.initialized,
    gates_processMevatrustTxs h.initialized hreplay h.gates,
    hp.processMevatrustTxs h.initialized hreplay h.gates h.seen, ?_, ?_, ?_, ?_⟩
  · intro c rest hc
    obtain ⟨rfl, rfl⟩ | hc := hsplit c rest hc
    · exact hheight
    · exact h.heights c rest hc
  · intro c rest hc
    obtain ⟨rfl, rfl⟩ | hc := hsplit c rest hc
    · exact (congrArg _ htop).trans (blockEvents_congr h.gates c).1
    · exact (congrArg _ (hbelow c rest hc)).trans (h.roster c rest hc)
  · intro c rest hc
    obtain ⟨rfl, rfl⟩ | hc := hsplit c rest hc
    · exact (congrArg _ htop).trans (blockEvents_congr h.gates c).2
    · exact (congrArg _ (hbelow c rest hc)).trans (h.circles c rest hc)
  · intro height hnext
    rw [List.length_cons] at hnext
    rw [hlog, if_neg]
    · exact h.fresh height (by omega)
    · intro heq
      rw [heq] at hheight
      omega

/-- **A block is popped.** -/
theorem Followed.pop (hp : Passive D p) {Q : BlockCtx → Manager F → Action × UInt64 → Prop}
    (hQ : ∀ ctx s a, Q ctx s a → p ((actionMachine F D ctx).step s a).1 = p s)
    {b : BlockCtx × BlockClock} {rest : List (BlockCtx × BlockClock)} {s : Manager F}
    (h : Followed D start p ⟨b :: rest, s⟩) (hback : Reversible D Q b (replay D rest))
    (now : UInt64) : Followed D start p ⟨rest, onMevatrustBlockPopped b.1.height now s⟩ := by
  have hreplay := replay_initialized (F := F) (D := D) rest
  have hself : b :: rest <:+ b :: rest := List.suffix_rfl
  have hsuffix {c rest'} (hc : c :: rest' <:+ rest) : c :: rest' <:+ b :: rest :=
    hc.trans (List.suffix_cons b rest)
  have hheight := h.heights b rest hself
  obtain ⟨log, hpop, hlog⟩ := onMevatrustBlockPopped_eq b.1.height now h.initialized
  have hlogAt (height : UInt64) : (onMevatrustBlockPopped b.1.height now s).logAt height =
      if b.1.height = height then [] else s.logAt height := by
    rw [hpop]
    exact hlog height
  -- the log of the blocks below is what it was
  have hbelow : ∀ c rest', c :: rest' <:+ rest →
      (onMevatrustBlockPopped b.1.height now s).logAt c.1.height = s.logAt c.1.height := by
    intro c rest' hc
    have hlength := hc.length_le
    have hc' := h.heights c rest' (hsuffix hc)
    rw [List.length_cons] at hlength
    rw [hlogAt, if_neg]
    intro heq
    rw [heq] at hheight
    omega
  refine ⟨?_, ?_, ?_, fun c rest' hc => h.heights c rest' (hsuffix hc), ?_, ?_, ?_⟩
  · rw [hpop]
    generalize s.logAt b.1.height = ops
    induction ops with
    | nil => exact h.initialized
    | cons op ops ih => rw [undoAll_cons, undoOp_initialized, ih]
  · exact hback.gates h.initialized hreplay h.gates (h.roster b rest hself)
      (h.circles b rest hself) now
  · rw [hp.onMevatrustBlockPopped h.initialized, h.seen]
    show p (processMevatrustTxs D b.1 b.2 (replay D rest)) = _
    rw [processMevatrustTxs_eq_run hreplay, hp.sweep]
    exact Machine.run_state_invariant (I := fun s => p s = p (replay D rest)) _ rfl
      (fun s a hs ha => (hQ b.1 s a ha.2).trans hs) hback.acts
  · intro c rest' hc
    exact (congrArg _ (hbelow c rest' hc)).trans (h.roster c rest' (hsuffix hc))
  · intro c rest' hc
    exact (congrArg _ (hbelow c rest' hc)).trans (h.circles c rest' (hsuffix hc))
  · intro height hnext
    rw [hlogAt]
    split_ifs with heq
    · rfl
    · refine h.fresh height ?_
      have hne : b.1.height.toNat ≠ height.toNat := fun h => heq (UInt64.toNat_inj.1 h)
      show start + (rest.length + 1) ≤ height.toNat
      dsimp only at hnext
      omega

/-- **What is passive follows the chain** in every run whose pops take back reversible blocks that
have not touched it. -/
theorem chain_followed (hp : Passive D p) {Q : BlockCtx → Manager F → Action × UInt64 → Prop}
    (hQ : ∀ ctx s a, Q ctx s a → p ((actionMachine F D ctx).step s a).1 = p s) {ops : List ChainOp}
    (hfollows : (chainMachine F D).Guarded (fun x op => op.Follows start x) {} ops)
    (hback : (chainMachine F D).Guarded (fun x op => op.TakesBack D Q x) {} ops) :
    p ((chainMachine F D).run {} ops).1.manager =
      p (replay D ((chainMachine F D).run {} ops).1.chain) := by
  have hstart : Followed D start p ({} : ChainState F) :=
    ⟨rfl, rfl, rfl, fun _ _ h => absurd h.length_le (by simp), fun _ _ h =>
      absurd h.length_le (by simp), fun _ _ h => absurd h.length_le (by simp), fun _ _ => rfl⟩
  refine (Machine.run_state_invariant (I := Followed D start p) _ hstart ?_
    (hfollows.and hback)).seen
  rintro x (b | now) hx ⟨hfollow, htake⟩
  · exact hx.add hp hfollow
  · obtain ⟨chain, s⟩ := x
    cases chain with
    | nil => exact hx
    | cons b rest => exact hx.pop hp hQ htake now

end

end

end Mevacoin.Trust
