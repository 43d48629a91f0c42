import Mevacoin.Trust.Justified
import Mevacoin.Trust.Watched

/-!
# What outsiders can do to a node

An outsider's block carries no signature under the node key or the wallet key of the node's entry.
`0xA4` and `0xAB` check a signature only against the key in the payload.
-/

namespace Mevacoin.Trust

open Lib Std

section

variable {F : Type} [FloatArith F]

/-- What an outsider can make the block processing do to a node. -/
inductive OutsiderAct where
  | stake
  | ban
  | unban
  | offense (o : OffenseType)
deriving DecidableEq, Repr

/-- The standing after one act. -/
def OutsiderAct.apply (st : Standing F) : OutsiderAct → Standing F
  | stake => { st with validator := true }
  | ban => { st with status := .banned }
  | unban => { st with status := .active }
  | offense o => st.penalized o

/-- The standing after several acts, in order. -/
def Standing.after (st : Standing F) (acts : List OutsiderAct) : Standing F :=
  acts.foldl OutsiderAct.apply st

@[simp] theorem Standing.after_nil (st : Standing F) : st.after [] = st := rfl

/-- A promotion of the node that passes the checks of `0xAB`: a valid signature and a paid stake. -/
def validatorAct (ctx : BlockCtx) (t : LoadedTx) (n : Hash) : Option OutsiderAct :=
  (parseValidator t.tx).bind fun val =>
    if verifyValidatorSignature ctx.env.crypto val ∧
        validatorMinStake ≤ poolStake ctx.env.poolAddress t.tx ∧ val.nodeId = n then some .stake
    else none

/-- A penalty against the node that passes the check of tag `0xA4`: the signature holds for
the key in the payload. -/
def penaltyAct (ctx : BlockCtx) (t : LoadedTx) (n : Hash) : Option OutsiderAct :=
  (parsePenalty t.tx).bind fun pen =>
    if verifyPenaltySignature ctx.env.crypto pen ∧ pen.nodeId = n then
      match PenOpType.ofUInt8 pen.opType with
      | .ban => some .ban
      | .unban => some .unban
      | .penalty => some (.offense (OffenseType.ofName pen.offenseType))
    else none

/-! ### Actions -/

/-- What an action does to the node through the two sections. -/
def Action.outsiderAct (n : Hash) : Action → Option OutsiderAct
  | node (.promote m _) => if m = n then some .stake else none
  | node (.penalty pen) =>
    if pen.nodeId = n then
      match PenOpType.ofUInt8 pen.opType with
      | .ban => some .ban
      | .unban => some .unban
      | .penalty => some (.offense (OffenseType.ofName pen.offenseType))
    else none
  | _ => none

variable {D : Type} [FloatArith D] {n : Hash} {pk wk : PublicKey} {st : Standing F}
  {s : Manager F} {ctx : BlockCtx} {t : LoadedTx} {now : UInt64} {r : NodeRegistry F}

/-- A promotion sets the validator flag of the node it names. -/
theorem Watched.promote (h : Watched r n pk wk st) (ctx : BlockCtx) (now : UInt64)
    (b : BadgeSystem) (m : Hash) (stake : UInt64) :
    Watched (NodeAct.step ctx now r b (.promote m stake)).1.1 n pk wk
      (if m = n then { st with validator := true } else st) := by
  dsimp only [NodeAct.step]
  obtain ⟨e', he', -, -, hst⟩ := h.entry
  cases hm : r.getNodeById m with
  | none =>
    have hne : m ≠ n := by
      rintro rfl
      simp [hm] at he'
    rwa [if_neg hne]
  | some e =>
    dsimp only
    split_ifs with hv hmn hmn
    · -- already a validator: nothing happens, and the flag is set
      subst hmn
      obtain rfl : e = e' := Option.some.inj (hm.symm.trans he')
      rwa [← hst, ← hv, show ({ e.standing with validator := e.isValidator } : Standing F) =
        e.standing from rfl, hst]
    · exact h
    · simpa only [hmn, if_true] using h.updateNodeValidator m ctx.height stake now
    · simpa only [hmn, if_false] using h.updateNodeValidator m ctx.height stake now

variable (hpk : Unsigned ctx.env.crypto pk t.tx) (hwk : Unsigned ctx.env.crypto wk t.tx)
  (h18 : hfVersionMevatrustAntisybil ≤ ctx.hfVersion)

include hpk hwk h18 in
/-- **One action** that the transaction carries changes the standing by what an outsider can do. -/
theorem Watched.action (h : Watched s.registry n pk wk st) {a : Action × UInt64}
    (hpassed : passes ctx t s a) :
    Watched ((actionMachine F D ctx).step s a).1.registry n pk wk
      (st.after (a.1.outsiderAct n).toList) := by
  obtain ⟨a, now⟩ := a
  cases a with
  | chainProof | store | poolDistribution => exact h
  | circle a =>
    show Watched (Manager.logAll _ _ _).registry n pk wk st
    rwa [Manager.logAll_toRewardState]
  | node a =>
    show Watched (Manager.logAll _ _ _).registry n pk wk _
    rw [Manager.logAll_toRewardState]
    cases a with
    | register reg =>
      obtain ⟨hp, hv, -⟩ := hpassed
      dsimp only [NodeAct.step]
      cases hr : s.registry.registerNodeOnchain reg ctx.height ctx.hfVersion now with
      | some r' => exact h.registerNodeOnchain hr
      | none =>
        dsimp only
        split_ifs
        · cases hg : s.registry.getNodeByPubkey reg.walletPubkey with
          | none => exact h
          | some existing =>
            have hne := h.ne_of_getNodeByPubkey
              (hpk.ne (by simp [carriedSignatures, hp]) hv) hg
            have hpen := h.applyPenalty s.badges existing.nodeId .doubleRegistration now
            rwa [if_neg hne] at hpen
        · exact h
    | deregister dereg =>
      dsimp only [NodeAct.step]
      cases hr : s.registry.deregisterNodeOnchain dereg with
      | none => exact h
      | some r' =>
        have hne := hwk.ne (by simp [carriedSignatures, hpassed.1]) hpassed.2
        exact h.deregisterNodeOnchain hne hr
    | promote m stake =>
      have hpro := h.promote ctx now s.badges m stake
      dsimp only [Action.outsiderAct]
      split_ifs at hpro ⊢ <;> exact hpro
    | award a =>
      dsimp only [NodeAct.step]
      split_ifs <;> exact h
    | penalty pen =>
      dsimp only [NodeAct.step, Action.outsiderAct]
      cases PenOpType.ofUInt8 pen.opType with
      | ban =>
        have hb := h.updateNodeStatus pen.nodeId .banned pen.reason now
        split_ifs at hb ⊢ <;> exact hb
      | unban =>
        have hb := h.updateNodeStatus pen.nodeId .active (asciiBytes "unbanned") now
        split_ifs at hb ⊢ <;> exact hb
      | penalty =>
        have hb := h.applyPenalty s.badges pen.nodeId (OffenseType.ofName pen.offenseType) now
        split_ifs at hb ⊢ <;> exact hb
    | uptime upt =>
      obtain ⟨hp, hv, hbound⟩ := hpassed
      have hne := h.ne_of_bound (hpk.ne (by simp [carriedSignatures, hp]) hv) (hbound h18)
      have h₁ : Watched ((s.registry.recordUptimeEvent upt.nodeId true upt.timestamp
          upt.peerCount).getD s.registry) n pk wk st :=
        h.modify_other hne fun _ => ⟨rfl, rfl, rfl⟩
      exact h₁.modify_same upt.nodeId (fun _ => ⟨rfl, rfl, rfl⟩) (fun _ => rfl)
    | challenge ch =>
      obtain ⟨hp, hv, hbound⟩ := hpassed
      obtain ⟨hv₁, hv₂⟩ := Bool.and_eq_true_iff.1 hv
      obtain ⟨hb₁, hb₂⟩ := hbound h18
      exact h.recordChallenge
        (h.ne_of_bound (hpk.ne (by simp [carriedSignatures, hp]) hv₁) hb₁)
        (h.ne_of_bound (hpk.ne (by simp [carriedSignatures, hp]) hv₂) hb₂)

include hpk hwk h18 in
/-- **A watched node along a run.** -/
theorem Watched.run (h : Watched s.registry n pk wk st) {as : List (Action × UInt64)}
    (hg : (actionMachine F D ctx).Guarded (passes ctx t) s as) :
    Watched ((actionMachine F D ctx).run s as).1.registry n pk wk
      (st.after (as.filterMap (·.1.outsiderAct n))) := by
  induction as generalizing s st with
  | nil => exact h
  | cons a as ih =>
    have hrest := ih (h.action hpk hwk h18 hg.1) hg.2
    rw [List.filterMap_cons]
    cases hact : a.1.outsiderAct n with
    | none | some act =>
      rw [hact] at hrest
      exact hrest

/-! ### A transaction and a block -/

/-- The sections before the one for promotions. -/
def sectionsBeforeValidator (ctx : BlockCtx) (t : LoadedTx) (now : UInt64) :
    List (Manager F → Flow (Manager F)) :=
  [registrationSection ctx t now, deregisterSection ctx t]

/-- The sections between the one for promotions and the one for penalties. -/
def sectionsBetween (D : Type) [FloatArith D] (ctx : BlockCtx) (t : LoadedTx) (now : UInt64) :
    List (Manager F → Flow (Manager F)) :=
  [snapshotSection ctx t now, circleSection ctx t now, circleVoteSection D ctx t now]

/-- No section before the one for promotions leaves the transaction. -/
def reachesValidator (ctx : BlockCtx) (t : LoadedTx) (now : UInt64) (s : Manager F) : Bool :=
  (Flow.stages (sectionsBeforeValidator ctx t now) s).isNext

/-- No section before the one for penalties leaves the transaction. -/
def reachesPenalty (D : Type) [FloatArith D] (ctx : BlockCtx) (t : LoadedTx) (now : UInt64)
    (s : Manager F) : Bool :=
  (Flow.stages (sectionsBeforeValidator ctx t now ++
    (validatorSection ctx t now :: sectionsBetween D ctx t now)) s).isNext

/-- What a transaction does to a node through the two sections. -/
def txActs (D : Type) [FloatArith D] (ctx : BlockCtx) (t : LoadedTx) (now : UInt64)
    (s : Manager F) (n : Hash) : List OutsiderAct :=
  (if reachesValidator ctx t now s then (validatorAct ctx t n).toList else []) ++
    (if reachesPenalty D ctx t now s then (penaltyAct ctx t n).toList else [])

/-- What a block does to a node through the two sections. -/
def blockActs (D : Type) [FloatArith D] (ctx : BlockCtx) (n : Hash) :
    List LoadedTx → (ℕ → UInt64) → Manager F → List OutsiderAct
  | [], _, _ => []
  | t :: ts, time, s =>
    txActs D ctx t (time 0) s n ++
      blockActs D ctx n ts (fun i => time (i + 1)) (processTx D ctx t (time 0) s)

theorem Standing.after_append (st : Standing F) (as bs : List OutsiderAct) :
    st.after (as ++ bs) = (st.after as).after bs := List.foldl_append

omit [FloatArith F] in
theorem filterMap_validatorActions :
    ((validatorActions ctx t).map (·, now)).filterMap (·.1.outsiderAct n) =
      (validatorAct ctx t n).toList := by
  unfold validatorActions validatorAct
  cases parseValidator t.tx with
  | none => rfl
  | some val =>
    simp only [Option.bind_some, ← UInt64.not_lt]
    split_ifs <;> simp_all [Action.outsiderAct]

omit [FloatArith F] in
theorem filterMap_penaltyActions :
    ((penaltyActions ctx t).map (·, now)).filterMap (·.1.outsiderAct n) =
      (penaltyAct ctx t n).toList := by
  unfold penaltyActions penaltyAct
  cases parsePenalty t.tx with
  | none => rfl
  | some pen =>
    dsimp only [Option.bind_some]
    cases hop : PenOpType.ofUInt8 pen.opType
    all_goals split_ifs <;> simp_all [Action.outsiderAct]

omit [FloatArith F] in
/-- Sections of other tags do nothing of the kind. -/
theorem filterMap_performed_of_tag
    {fs : List ((Manager F → Flow (Manager F)) × (Manager F → List (Action × UInt64)))}
    {tags : List UInt8} (h : List.Forall₂ (fun x tag => ∀ s, ∀ a ∈ x.2 s, a.1.tag = tag) fs tags)
    (hv : 0xAB ∉ tags) (hp : 0xA4 ∉ tags) (s : Manager F) :
    (Flow.performed fs s).filterMap (·.1.outsiderAct n) = [] := by
  rw [List.filterMap_eq_nil_iff]
  intro a ha
  have htag := Flow.performed_label h s a ha
  unfold Action.outsiderAct
  split
  · rename_i hact
    rw [hact] at htag
    exact absurd htag hv
  · rename_i hact
    rw [hact] at htag
    exact absurd htag hp
  · rfl

/-- The acts of a transaction are those of its actions. -/
theorem filterMap_txActions :
    (txActions D ctx t now s).filterMap (·.1.outsiderAct n) = txActs D ctx t now s n := by
  have htags := actingSections_tag (F := F) D ctx t now
  have hsplit : actingSections (F := F) D ctx t now = (actingSections D ctx t now).take 2 ++
      ((validatorSection ctx t now, fun _ => (validatorActions ctx t).map (·, now)) ::
        (((actingSections D ctx t now).drop 3).take 3 ++
          ((penaltySection ctx t now, fun _ => (penaltyActions ctx t).map (·, now)) ::
            (actingSections D ctx t now).drop 7))) := rfl
  have hfront : ((actingSections (F := F) D ctx t now).take 2).map Prod.fst =
      sectionsBeforeValidator ctx t now := rfl
  have hbetween : (((actingSections (F := F) D ctx t now).drop 3).take 3).map Prod.fst =
      sectionsBetween D ctx t now := rfl
  have hpenalty : reachesPenalty D ctx t now s =
      ((Flow.stages (sectionsBeforeValidator ctx t now) s).bind fun s₁ =>
        (validatorSection ctx t now s₁).bind
          (Flow.stages (sectionsBetween D ctx t now))).isNext := by
    rw [reachesPenalty, Flow.stages_append]
    rfl
  unfold txActions txActs
  rw [hsplit, Flow.performed_append, List.filterMap_append,
    filterMap_performed_of_tag (List.forall₂_take 2 htags) (by decide) (by decide),
    hfront, hpenalty, reachesValidator]
  -- follow the transaction as far as it gets
  cases Flow.stages (sectionsBeforeValidator ctx t now) s with
  | skip s₁ => rfl
  | next s₁ =>
    rw [Flow.bind_next]
    show List.filterMap _ (Flow.performed (_ :: _) s₁) = _
    rw [Flow.performed, List.filterMap_append, filterMap_validatorActions]
    refine congrArg ((validatorAct ctx t n).toList ++ ·) ?_
    cases validatorSection ctx t now s₁ with
    | skip s₂ => rfl
    | next s₂ =>
      rw [Flow.bind_next]
      show List.filterMap _ (Flow.performed (_ ++ _) s₂) = _
      rw [Flow.performed_append, List.filterMap_append, filterMap_performed_of_tag
        (List.forall₂_take 3 (List.forall₂_drop 3 htags)) (by decide) (by decide),
        hbetween]
      cases Flow.stages (sectionsBetween D ctx t now) s₂ with
      | skip s₃ => rfl
      | next s₃ =>
        show List.filterMap _ (Flow.performed (_ :: _) s₃) = _
        rw [Flow.performed, List.filterMap_append, filterMap_penaltyActions]
        refine (congrArg ((penaltyAct ctx t n).toList ++ ·) ?_).trans (List.append_nil _)
        split
        · exact filterMap_performed_of_tag (List.forall₂_drop 7 htags) (by decide) (by decide) _
        · rfl

include hpk hwk h18 in
/-- **One transaction** changes the standing by its two acts, as far as it gets. -/
theorem Watched.processTx (D : Type) [FloatArith D] (h : Watched s.registry n pk wk st)
    (now : UInt64) :
    Watched (Trust.processTx D ctx t now s).registry n pk wk
      (st.after (txActs D ctx t now s n)) := by
  rw [processTx_eq_run, ← filterMap_txActions]
  exact h.run hpk hwk h18 (guarded_txActions D s)

/-- **A block** changes the standing by the acts of its transactions, in order. -/
theorem Watched.processTxs (D : Type) [FloatArith D] {ctx : BlockCtx}
    (h18 : hfVersionMevatrustAntisybil ≤ ctx.hfVersion) {txs : List LoadedTx}
    (hpk : ∀ t ∈ txs, Unsigned ctx.env.crypto pk t.tx)
    (hwk : ∀ t ∈ txs, Unsigned ctx.env.crypto wk t.tx) (time : ℕ → UInt64)
    (h : Watched s.registry n pk wk st) :
    Watched (Trust.processTxs D ctx txs time s).registry n pk wk
      (st.after (blockActs D ctx n txs time s)) := by
  induction txs generalizing time s st with
  | nil => exact h
  | cons t ts ih =>
    have htx := h.processTx (hpk t List.mem_cons_self) (hwk t List.mem_cons_self) h18 D (time 0)
    rw [blockActs, Standing.after_append]
    exact ih (fun t ht => hpk t (List.mem_cons_of_mem _ ht))
      (fun t ht => hwk t (List.mem_cons_of_mem _ ht)) _ htx

/-- **An outsider can touch a node exactly through `0xA4` and `0xAB`.**  From fork 18, a block
without a signature under one of the node's keys leaves its status, reputation and validator flag as
they were if and only if the self-signed penalties and staked promotions that name it, in order,
give the same again. -/
theorem outsiders_leave_node_iff (D : Type) [FloatArith D] {ctx : BlockCtx} {clock : BlockClock}
    {s : Manager F} {n : Hash} {e : NodeRegistryEntry F}
    (h18 : hfVersionMevatrustAntisybil ≤ ctx.hfVersion) (hinit : s.initialized = true)
    (hkeyed : s.registry.Keyed) (he : s.registry.getNodeById n = some e)
    (hnode : ∀ t ∈ ctx.txs, Unsigned ctx.env.crypto e.nodePubkey t.tx)
    (hwallet : ∀ t ∈ ctx.txs, Unsigned ctx.env.crypto e.walletPubkey t.tx) :
    processMevatrustTxs D ctx clock s =
        expirySweep ctx.height clock.sweep (processTxs D ctx ctx.txs clock.tx s) ∧
      (((processTxs D ctx ctx.txs clock.tx s).registry.getNodeById n).map
          NodeRegistryEntry.standing = some e.standing ↔
        e.standing.after (blockActs D ctx n ctx.txs clock.tx s) = e.standing) := by
  have hw : Watched s.registry n e.nodePubkey e.walletPubkey e.standing :=
    ⟨hkeyed, e, he, rfl, rfl, rfl⟩
  obtain ⟨e', he', -, -, hst⟩ := (hw.processTxs D h18 hnode hwallet clock.tx).entry
  constructor
  · unfold processMevatrustTxs
    rw [if_neg (by simp [hinit])]
  · rw [he', Option.map_some, Option.some_inj, hst]

end

/-! ### A ban by a stranger -/

/-- The registration of a node whose keys are no points of `sevenCurve`, so that nothing
verifies under them. -/
def victimRegistration : Registration where
  nodeId := Pod32.single 9
  walletPubkey := Pod32.single 200
  nodePubkey := Pod32.single 201
  walletAddress := asciiBytes "victim"
  port := 17080
  signature := ⟨Pod32.null, Pod32.null⟩

/-- The entry of that node. -/
def victimEntry : NodeRegistryEntry ℚ := NodeRegistry.onchainEntry victimRegistration 50 1000

/-- A manager with that node registered. -/
def victimState : Manager ℚ where
  registry := (({} : NodeRegistry ℚ).registerNodeOnchain victimRegistration 50 18 1000).getD {}

/-- A ban of a node signed by the key 4 of `sevenCurve`, with a challenge to match. -/
def strangerBan (node challenge : UInt8) : Penalty where
  opType := 1
  nodeId := Pod32.single node
  offenseType := []
  amount := 0
  reason := []
  signerPubkey := Pod32.single 4
  signature := ⟨Pod32.single challenge, Pod32.single 3⟩

/-- A block whose miner transaction carries one payload. -/
def carrierBlock (tag : UInt8) (payload : Bytes) (height : UInt64) : BlockCtx where
  env := ⟨sevenCurve.crypto, fun _ => none, ⟨Pod32.null, Pod32.null⟩⟩
  block := { minerTx := { tx := { extra := (packBlob tag payload).getD [] } } }
  height
  hfVersion := 18

/-- A block with a ban. -/
def banBlock (ban : Penalty) : BlockCtx := carrierBlock 0xA4 (Penalty.codec.write ban) 100

theorem victimState_keyed : victimState.registry.Keyed := by
  obtain ⟨r, hr⟩ := NodeRegistry.registerNodeOnchain_empty (F := ℚ) victimRegistration 50 18 1000
  unfold victimState
  rw [hr]
  exact NodeRegistry.keyed_empty.registerNodeOnchain hr

theorem victimState_entry :
    victimState.registry.getNodeById (Pod32.single 9) = some victimEntry := by
  obtain ⟨r, hr⟩ := NodeRegistry.registerNodeOnchain_empty (F := ℚ) victimRegistration 50 18 1000
  unfold victimState
  rw [hr]
  exact NodeRegistry.registerNodeOnchain_entry hr

/-- **A stranger bans a node** with one `0xA4` payload signed by a key that belongs to nobody. -/
theorem strangerBan_changes_node :
    ¬ ∀ (ctx : BlockCtx) (clock : BlockClock) (s : Manager ℚ) (n : Hash)
        (e : NodeRegistryEntry ℚ), hfVersionMevatrustAntisybil ≤ ctx.hfVersion →
        s.initialized = true → s.registry.Keyed → s.registry.getNodeById n = some e →
        e.registeredOnchain = true →
        (∀ t ∈ ctx.txs, Unsigned ctx.env.crypto e.nodePubkey t.tx) →
        (∀ t ∈ ctx.txs, Unsigned ctx.env.crypto e.walletPubkey t.tx) →
        ((processTxs ℚ ctx ctx.txs clock.tx s).registry.getNodeById n).map
          NodeRegistryEntry.standing = some e.standing := by
  intro h
  have hsame := h (banBlock (strangerBan 9 2)) (stillClock 2000) victimState (Pod32.single 9)
    victimEntry (by decide) rfl victimState_keyed victimState_entry rfl (by decide +kernel)
    (by decide +kernel)
  revert hsame
  decide +kernel

/-- A ban of somebody else leaves the node alone. -/
theorem strangerBan_other_node :
    ((processTxs ℚ (banBlock (strangerBan 8 3)) (banBlock (strangerBan 8 3)).txs
      (stillClock 2000).tx victimState).registry.getNodeById (Pod32.single 9)).map
        NodeRegistryEntry.standing = some victimEntry.standing :=
  (outsiders_leave_node_iff ℚ (by decide) rfl victimState_keyed victimState_entry
    (by decide +kernel) (by decide +kernel)).2.2 (by decide +kernel)

end Mevacoin.Trust
