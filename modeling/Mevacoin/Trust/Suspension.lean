import Mevacoin.Trust.BanHolds
import Mevacoin.Trust.BoundaryLock
import Mevacoin.Trust.RegistryRebuild

/-!
# How long does a suspension last?

`on_new_block` takes the age of a suspension as `height - updated_at`, and `updated_at` is a clock
in seconds since 1970.
-/

namespace Mevacoin.Trust

open Lib Std

section

variable {F : Type}

/-- The node is registered and suspended. -/
def NodeRegistry.Suspended (r : NodeRegistry F) (n : Hash) : Prop :=
  (r.nodes[n]?).map (·.status) = some .suspended
deriving Decidable

variable {n : Hash} {T : UInt64 → Prop} {ticks : List Tick} {e : NodeRegistryEntry F}

theorem NodeRegistry.suspended_iff {r : NodeRegistry F} :
    r.Suspended n ↔ ∃ e, r.nodes[n]? = some e ∧ e.status = .suspended :=
  Option.map_eq_some_iff

/-! ### What a suspended node is stamped with -/

/-- The entry stands under its own id, and its last update, while it is suspended, has a time that
`T` admits. -/
structure NodeRegistryEntry.Dated (T : UInt64 → Prop) (n : Hash) (e : NodeRegistryEntry F) :
    Prop where
  nodeId : e.nodeId = n
  updatedAt : e.status = .suspended → T e.updatedAt

/-- So do all entries. -/
def NodeRegistry.Dated (T : UInt64 → Prop) (r : NodeRegistry F) : Prop :=
  ∀ (n : Hash) (e : NodeRegistryEntry F), r.nodes[n]? = some e → e.Dated T n

theorem NodeRegistry.dated_empty : ({} : NodeRegistry F).Dated T := by
  intro n e he
  simp at he

variable [FloatArith F]

/-- **Every move keeps that up**, at a reading of the clock that `T` admits. -/
theorem dated_upheldAt {now : UInt64} (hnow : T now) (ctx : BlockCtx) :
    UpheldAt ctx now ({} : Rules F) (NodeRegistry.Dated T) where
  update := by
    intro r m f hr hf hstamps n e he
    rw [NodeRegistry.modify_nodes] at he
    split_ifs at he with hm
    · obtain ⟨e', he', rfl⟩ := Option.map_eq_some_iff.mp he
      refine ⟨?_, fun hst => ?_⟩
      · rw [show (f e').nodeId = e'.nodeId from congrArg Identity.nodeId (hf e' (hm ▸ he')).1]
        exact (hr n e' he').nodeId
      · rcases hstamps e' with hstamp | hactive
        · rwa [hstamp]
        · rw [hst] at hactive
          cases hactive
    · exact hr n e he
  enter := by
    intro r r' reg hr _ hreg n e he
    rw [(NodeRegistry.registerNodeOnchain_eq_some hreg).2, ExtTreeMap.getElem?_insert] at he
    split_ifs at he with hn
    · obtain rfl := Option.some.inj he
      exact ⟨LawfulEqOrd.eq_of_compare hn, fun _ => hnow⟩
    · exact hr n e he
  leave := by
    intro r m hr _ n e he
    rw [NodeRegistry.getElem?_unregisterNode] at he
    split_ifs at he
    exact hr n e he
  expire := by
    intro r hr n e he
    rw [NodeRegistry.getElem?_expireInactiveNodes] at he
    obtain ⟨e', he', rfl⟩ := Option.map_eq_some_iff.mp he
    split_ifs
    · exact ⟨(hr n e' he').nodeId, nofun⟩
    · exact hr n e' he'

/-! ### Steps -/

/-- The height of the block a step belongs to. -/
def Tick.height : Tick → UInt64
  | boundary ctx _ | act ctx _ _ | sweep ctx _ => ctx.height

/-- What the clock reads at a step. -/
def Tick.now : Tick → UInt64
  | boundary _ now | act _ _ now | sweep _ now => now

variable {D : Type} [FloatArith D] [FloatWiden F D] {T : UInt64 → Prop} {s : Manager F}

/-- The daemon is running, and its suspended nodes carry times that `T` admits. -/
structure Manager.Dated (T : UInt64 → Prop) (s : Manager F) : Prop where
  initialized : s.initialized = true
  registry : s.registry.Dated T

/-- **One step of the daemon.** -/
theorem Manager.Dated.step (h : s.Dated T) {t : Tick} (ht : T t.now) :
    ((tickMachine F D).step s t).1.Dated T := by
  obtain ⟨hinit, hdated⟩ := h
  cases t with
  | boundary ctx now =>
    exact ⟨(initialized_onNewBlock D).trans hinit,
      (dated_upheldAt ht ctx).onNewBlock D (fun _ _ => trivial) hdated⟩
  | act ctx a now =>
    refine ⟨(initialized_actionMachine_run D [(a, now)]).trans hinit, ?_⟩
    refine (dated_upheldAt ht ctx).action D hdated ?_
    cases a with
    | node a =>
      exact NodeAct.within_of_enter (fun _ _ _ => trivial) (fun _ _ => trivial) fun _ _ _ => trivial
    | _ => trivial
  | sweep ctx now =>
    exact ⟨(expirySweep_initialized _ _ _).trans hinit,
      (dated_upheldAt ht ctx).expirySweep hdated⟩

/-- **Every run.** -/
theorem Manager.Dated.run (hticks : ∀ t ∈ ticks, T t.now) (h : s.Dated T) :
    ((tickMachine F D).run s ticks).1.Dated T :=
  Machine.run_state_invariant (I := Manager.Dated T) _ h (fun _ _ hs ht => hs.step ht)
    (Machine.guarded_of_forall _ (fun _ t ht => hticks t ht) s)

/-! ### The escalation -/

omit [FloatArith F] in
/-- **A difference that wraps.**  A time above the height makes any suspension old enough. -/
theorem NodeRegistryEntry.escalates_of_lt {e : NodeRegistryEntry F} {height : UInt64}
    (hlt : height < e.updatedAt) (hsigned : e.updatedAt.toNat < 2 ^ 63) :
    e.escalates height = true := by
  have hperiod : (periodLength * 2).toNat = 480 := by decide
  rw [UInt64.lt_iff_toNat_lt] at hlt
  rw [NodeRegistryEntry.escalates, decide_eq_true_eq, UInt64.le_iff_toNat_le, UInt64.toNat_sub,
    hperiod]
  omega

/-- What a penalty makes of the entries. -/
theorem Manager.nodes_penalize (s : Manager F) (n m : Hash) (offense : OffenseType) (now : UInt64) :
    (s.penalize m offense now).registry.nodes[n]? =
      if m = n then (s.registry.nodes[n]?).map (NodeRegistryEntry.penalized offense now)
      else s.registry.nodes[n]? := by
  have hreg : (s.penalize m offense now).registry
      = (applyPenalty s.registry s.badges m offense now).1 := rfl
  rw [hreg, applyPenalty_registry, NodeRegistry.modify_nodes]

theorem NodeRegistryEntry.status_penalized_malicious (e : NodeRegistryEntry F) (now : UInt64) :
    (e.penalized .maliciousActivity now).status = .banned := by
  have hban : penaltyStatus .maliciousActivity
      (shiftReputation OffenseType.maliciousActivity.delta e.reputationScore) = .banned :=
    (penaltyStatus_eq_banned_iff _).mpr rfl
  simp only [NodeRegistryEntry.penalized, hban]
  rfl

/-- **The escalation bans a suspended node that is of age**: its own turn in the loop bans it. -/
theorem banned_escalateSuspended {height now : UInt64} (he : s.registry.nodes[n]? = some e)
    (hid : e.nodeId = n) (hst : e.status = .suspended) (hold : e.escalates height = true) :
    (escalateSuspended height now s).registry.Banned n := by
  have hmem : e ∈ s.registry.getNodesByStatus .suspended := by
    refine List.mem_filter.mpr ⟨?_, by simpa using hst⟩
    exact List.mem_map.mpr ⟨(n, e), ExtTreeMap.mem_toList_iff_getElem?_eq_some.mpr he, rfl⟩
  obtain ⟨before, after, hsplit⟩ := List.append_of_mem hmem
  unfold escalateSuspended
  rw [hsplit, List.foldl_append, List.foldl_cons, if_pos hold, hid]
  refine List.foldlRecOn (motive := fun s : Manager F => s.registry.Banned n) _ _ ?_ ?_
  · have hreg : ∃ e', ((before.foldl (fun s' e =>
        if e.escalates height then s'.penalize e.nodeId .maliciousActivity now else s') s)
          ).registry.nodes[n]? = some e' := by
      refine List.foldlRecOn
        (motive := fun s : Manager F => ∃ e', s.registry.nodes[n]? = some e') _ _ ⟨e, he⟩ ?_
      rintro s' ⟨e', he'⟩ x _
      split_ifs
      · rw [Manager.nodes_penalize, he']
        split_ifs
        · exact ⟨_, rfl⟩
        · exact ⟨e', rfl⟩
      · exact ⟨e', he'⟩
    obtain ⟨e', he'⟩ := hreg
    rw [NodeRegistry.Banned, Manager.nodes_penalize, if_pos rfl, he']
    exact congrArg some (e'.status_penalized_malicious now)
  · intro s' hs' x _
    split_ifs
    · obtain ⟨e', he', hban⟩ := NodeRegistry.banned_iff.mp hs'
      rw [NodeRegistry.Banned, Manager.nodes_penalize, he']
      split_ifs
      · exact congrArg some (e'.status_penalized_malicious now)
      · exact congrArg some hban
    · exact hs'

/-- A suspended node is not promoted. -/
theorem nodes_checkAutoValidatorPromotion (h : s.registry.Dated T)
    (he : s.registry.nodes[n]? = some e) (hst : e.status = .suspended) (height now : UInt64) :
    (checkAutoValidatorPromotion height now s).registry.nodes[n]? = some e := by
  refine List.foldlRecOn (motive := fun s : Manager F => s.registry.nodes[n]? = some e) _ _ he ?_
  intro s' hs' x hx
  have hne : x.nodeId ≠ n := by
    rintro rfl
    obtain ⟨hmem, hactive⟩ := List.mem_filter.mp hx
    obtain ⟨⟨k, y⟩, hy, rfl⟩ := List.mem_map.mp hmem
    have hk := ExtTreeMap.mem_toList_iff_getElem?_eq_some.mp hy
    rw [← (h k y hk).nodeId, he] at hk
    obtain rfl := Option.some.inj hk
    simp [hst] at hactive
  split_ifs
  · unfold Manager.promoteToValidator
    split
    · exact hs'
    · split_ifs
      · exact hs'
      · change ((s'.registry.updateNodeValidator x.nodeId true height 0 now).getD
          s'.registry).nodes[n]? = some e
        rw [NodeRegistry.updateNodeValidator, NodeRegistry.modify_nodes, if_neg hne, hs']
  · exact hs'

/-- Heights in seconds: the time is above every height of the run and is not negative as a
`time_t`. -/
def RealTime (ticks : List Tick) (now : UInt64) : Prop :=
  now.toNat < 2 ^ 63 ∧ ∀ t ∈ ticks, t.height < now
deriving Decidable

/-- A run whose clock reads real times. -/
def RealClocks (ticks : List Tick) : Prop := ∀ t ∈ ticks, RealTime ticks t.now
deriving Decidable

/-- **A boundary bans every suspended node**, however young the suspension is. -/
theorem banned_onNewBlock_iff {ctx : BlockCtx} {now : UInt64} (h : s.Dated (RealTime ticks))
    (hmem : Tick.boundary ctx now ∈ ticks) (hsus : s.registry.Suspended n) :
    (onNewBlock D ctx now s).registry.Banned n ↔ isPeriodBoundary ctx.height = true := by
  cases hb : isPeriodBoundary ctx.height with
  | false =>
    have hsame : onNewBlock D ctx now s = s := if_pos (.inr hb)
    rw [hsame, NodeRegistry.Banned, hsus]
    decide
  | true =>
    refine iff_of_true ?_ rfl
    have hrun : ¬ (s.initialized = false ∨ isPeriodBoundary ctx.height = false) := by
      rw [h.initialized, hb]
      decide
    obtain ⟨e, he, hst⟩ := NodeRegistry.suspended_iff.mp hsus
    obtain ⟨hsigned, habove⟩ := (h.registry n e he).updatedAt hst
    rw [onNewBlock_eq, if_neg hrun]
    refine banned_escalateSuspended ?_ (h.registry n e he).nodeId hst
      (NodeRegistryEntry.escalates_of_lt (habove _ hmem) hsigned)
    unfold boundaryManager
    rw [triggerDistribution_project D (p := (·.registry.nodes[n]?)) (fun _ _ => rfl)]
    refine nodes_checkAutoValidatorPromotion (T := RealTime ticks) ?_ ?_ hst _ _
    · exact h.registry
    · exact he

/-! ### Runs -/

theorem run_boundary (s : Manager F) (ticks : List Tick) (ctx : BlockCtx) (now : UInt64) :
    ((tickMachine F D).run s (ticks ++ [.boundary ctx now])).1
      = onNewBlock D ctx now ((tickMachine F D).run s ticks).1 := by
  rw [Machine.run_append]
  rfl

variable (F D) in
/-- The node becomes suspended at a step of the run, and is suspended when a boundary comes. -/
structure SuspendedAt (n : Hash) (before : List Tick) (t : Tick) (between : List Tick) : Prop where
  free : ¬ ((tickMachine F D).run {} before).1.registry.Suspended n
  suspended : ((tickMachine F D).run {} (before ++ [t])).1.registry.Suspended n
  still : ((tickMachine F D).run {} (before ++ t :: between)).1.registry.Suspended n

/-- A node that is suspended became so at some step. -/
theorem exists_suspendedAt (h : ((tickMachine F D).run {} ticks).1.registry.Suspended n) :
    ∃ before t between, ticks = before ++ t :: between ∧ SuspendedAt F D n before t between := by
  induction ticks using List.reverseRecOn with
  | nil => simp [NodeRegistry.Suspended] at h
  | append_singleton ticks t ih =>
    by_cases hearlier : ((tickMachine F D).run {} ticks).1.registry.Suspended n
    · obtain ⟨before, t', between, rfl, hat⟩ := ih hearlier
      rw [List.append_assoc] at h ⊢
      exact ⟨before, t', between ++ [t], rfl, hat.free, hat.suspended, h⟩
    · exact ⟨ticks, t, [], rfl, hearlier, h, h⟩

variable (F D) in
/-- **Suspensions last two periods**: no boundary below `s + 480` bans a node suspended at `s`. -/
def SuspensionLasts (ticks : List Tick) : Prop :=
  ∀ (n : Hash) (before : List Tick) (t : Tick) (between : List Tick) (ctx : BlockCtx)
    (now : UInt64) (after : List Tick),
    ticks = before ++ t :: between ++ .boundary ctx now :: after →
    SuspendedAt F D n before t between →
    ctx.height.toNat < t.height.toNat + 2 * periodLength.toNat →
    ¬ (onNewBlock D ctx now
        ((tickMachine F D).run {} (before ++ t :: between)).1).registry.Banned n

variable (F D) in
/-- No period ends while a node is suspended that became so less than two periods before. -/
def NoYoungSuspension (ticks : List Tick) : Prop :=
  ∀ (n : Hash) (before : List Tick) (t : Tick) (between : List Tick) (ctx : BlockCtx)
    (now : UInt64) (after : List Tick),
    ticks = before ++ t :: between ++ .boundary ctx now :: after →
    SuspendedAt F D n before t between →
    ctx.height.toNat < t.height.toNat + 2 * periodLength.toNat →
    isPeriodBoundary ctx.height = false

/-- **Suspensions last two periods in exactly the runs in which no young one meets the end of a
period.** -/
theorem suspensionLasts_iff {ticks : List Tick} (hclocks : RealClocks ticks) :
    SuspensionLasts F D ticks ↔ NoYoungSuspension F D ticks := by
  have hboundary : ∀ (n : Hash) (before : List Tick) (t : Tick) (between : List Tick)
      (ctx : BlockCtx) (now : UInt64) (after : List Tick),
      ticks = before ++ t :: between ++ .boundary ctx now :: after →
      SuspendedAt F D n before t between →
      (¬ (onNewBlock D ctx now
        ((tickMachine F D).run {} (before ++ t :: between)).1).registry.Banned n ↔
          isPeriodBoundary ctx.height = false) := by
    intro n before t between ctx now after hticks hsus
    have hmem : Tick.boundary ctx now ∈ ticks := by rw [hticks]; simp
    have hdated : ((tickMachine F D).run {} (before ++ t :: between)).1.Dated (RealTime ticks) :=
      Manager.Dated.run (fun t' ht' => hclocks t' (by
        rw [hticks]
        exact List.mem_append_left _ ht')) ⟨rfl, NodeRegistry.dated_empty⟩
    rw [banned_onNewBlock_iff hdated hmem hsus.still, Bool.not_eq_true]
  constructor
  · intro h n before t between ctx now after hticks hsus hyoung
    exact (hboundary n before t between ctx now after hticks hsus).mp
      (h n before t between ctx now after hticks hsus hyoung)
  · intro h n before t between ctx now after hticks hsus hyoung
    exact (hboundary n before t between ctx now after hticks hsus).mpr
      (h n before t between ctx now after hticks hsus hyoung)

end

/-! ### One suspension -/

/-- A node is registered at height 100 and suspended at 101. -/
def suspendingTicks : List Tick :=
  chainTicks ℚ ((suspendedChain.take 2).map (·, stillClock 2000)) ({} : Manager ℚ)

/-- Then the period ends. -/
def suspensionTicks : List Tick := suspendingTicks ++ [.boundary (emptyBlock 240) 2000]

/-- **A suspension is cut short.**  The node is suspended after 101 and banned at 240. -/
theorem young_suspension_banned :
    RealClocks suspensionTicks ∧
      ((tickMachine ℚ ℚ).run {} suspendingTicks).1.registry.Suspended (Pod32.single 9) ∧
      ((tickMachine ℚ ℚ).run {} suspensionTicks).1.registry.Banned (Pod32.single 9) ∧
      ¬ SuspensionLasts ℚ ℚ suspensionTicks := by
  have hsus : ((tickMachine ℚ ℚ).run {} suspendingTicks).1.registry.Suspended (Pod32.single 9) := by
    decide +kernel
  have hban : ((tickMachine ℚ ℚ).run {} suspensionTicks).1.registry.Banned (Pod32.single 9) := by
    decide +kernel
  refine ⟨by decide +kernel, hsus, hban, fun h => ?_⟩
  obtain ⟨before, t, between, hsplit, hat⟩ := exists_suspendedAt hsus
  refine h (Pod32.single 9) before t between (emptyBlock 240) 2000 [] ?_ hat ?_ ?_
  · rw [suspensionTicks, hsplit]
  · have hheight : (emptyBlock 240).height.toNat = 240 := rfl
    have hperiod : periodLength.toNat = 240 := rfl
    omega
  · rwa [suspensionTicks, run_boundary, hsplit] at hban

/-- This run has a young suspension. -/
theorem suspensionLasts_of_suspension :
    SuspensionLasts ℚ ℚ suspensionTicks ↔ NoYoungSuspension ℚ ℚ suspensionTicks :=
  suspensionLasts_iff (by decide +kernel)

end Mevacoin.Trust
