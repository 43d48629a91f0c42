import Mevacoin.Trust.Outsiders

/-!
# Is an uptime commitment good for one sample?

What a `0xA5` payload signs names no block, so a copy in a higher block makes another sample.
-/

namespace Mevacoin.Trust

open Lib Std

/-! ### Recorded samples -/

/-- A sample that is recorded, with the payload it comes from. -/
structure SampleEvent where
  payload : Uptime
  height : UInt64
deriving DecidableEq

/-- The `0xA5` payloads of a list of transactions. -/
def uptimePayloads (txs : List LoadedTx) : List Uptime := txs.filterMap fun t => parseUptime t.tx

section

variable {F : Type}

/-- The payload from which tag `0xA5` appends a sample: the signature holds, the key is bound from
fork 18 on, and no sample is at the height or above. -/
def newSample (ctx : BlockCtx) (t : LoadedTx) (s : Manager F) : Option Uptime :=
  match parseUptime t.tx with
  | none => none
  | some upt =>
    if !verifyUptimeSignature ctx.env.crypto upt then none
    else if hfVersionMevatrustAntisybil ≤ ctx.hfVersion ∧
        s.registry.bound upt.nodeId upt.nodePubkey = false then none
    else if (s.engine.chainUptimeSamples.getD upt.nodeId []).getLast?.any
        fun last => ctx.height ≤ last.height then none
    else some upt

/-- The node of the event has a sample at its height or above. -/
def Stamped (s : Manager F) (ev : SampleEvent) : Prop :=
  ∃ last, (s.engine.chainUptimeSamples.getD ev.payload.nodeId []).getLast? = some last ∧
    ev.height ≤ last.height

/-! ### The section for tag `0xA5` -/

/-- A sample that is appended stays the last: pruning drops older ones. -/
theorem getLast?_appendSample {l : List ChainUptimeSample} {height ts : UInt64}
    (hshort : height.toNat + uptimeWindowBlocks.toNat < 2 ^ 64)
    (h : l.getLast?.any (fun last => height ≤ last.height) = false) :
    (Engine.appendSample ChainUptimeSample.height uptimeWindowBlocks height ⟨height, ts⟩
      l).getLast? = some ⟨height, ts⟩ := by
  have hwindow : uptimeWindowBlocks.toNat = 43200 := rfl
  have hkeep : ¬ height + uptimeWindowBlocks ≤ height := by
    rw [UInt64.le_iff_toNat_le, UInt64.toNat_add]
    omega
  have hlast : [(⟨height, ts⟩ : ChainUptimeSample)].dropWhile (fun s =>
      uptimeWindowBlocks ≤ height && s.height + uptimeWindowBlocks ≤ height) = [⟨height, ts⟩] := by
    simp [hkeep]
  rw [Engine.appendSample, h, if_neg Bool.false_ne_true, Engine.pruneSamples,
    List.dropWhile_append, hlast]
  split
  · rfl
  · exact List.getLast?_concat

/-- What recording adds. -/
theorem getD_recordChainUptimeSample (eng : Engine) (n m : Hash) (height ts : UInt64) :
    (eng.recordChainUptimeSample n height ts).chainUptimeSamples.getD m [] =
      if n = m then
        Engine.appendSample ChainUptimeSample.height uptimeWindowBlocks height ⟨height, ts⟩
          (eng.chainUptimeSamples.getD m [])
      else eng.chainUptimeSamples.getD m [] := by
  unfold Engine.recordChainUptimeSample
  simp only [ExtTreeMap.getD_insert, LawfulEqOrd.compare_eq_iff_eq]
  split
  case isTrue h => rw [h]
  case isFalse => rfl

variable {ctx : BlockCtx} {t : LoadedTx} {now : UInt64} {s s' : Manager F} {ev : SampleEvent}

/-- The section appends the sample that `newSample` says, and no other. -/
theorem uptimeSection_samples (m : Hash) :
    (uptimeSection ctx t now s).state.engine.chainUptimeSamples.getD m [] =
      match newSample ctx t s with
      | some upt =>
        if upt.nodeId = m then
          Engine.appendSample ChainUptimeSample.height uptimeWindowBlocks ctx.height
            ⟨ctx.height, ctx.block.timestamp⟩ (s.engine.chainUptimeSamples.getD m [])
        else s.engine.chainUptimeSamples.getD m []
      | none => s.engine.chainUptimeSamples.getD m [] := by
  unfold uptimeSection newSample
  cases parseUptime t.tx with
  | none => rfl
  | some upt =>
    dsimp only
    split_ifs with hv hb hd
    · rfl
    · rfl
    · -- a sample at this height or above is there: the list is stored again as it was
      refine (getD_recordChainUptimeSample _ _ _ _ _).trans ?_
      split
      case isTrue hn =>
        subst hn
        exact if_pos hd
      case isFalse => rfl
    · exact getD_recordChainUptimeSample _ _ _ _ _

/-- What `newSample` gives is the payload of the transaction, for a node whose samples are all
below the height. -/
theorem newSample_eq_some {upt : Uptime} (h : newSample ctx t s = some upt) :
    parseUptime t.tx = some upt ∧
      (s.engine.chainUptimeSamples.getD upt.nodeId []).getLast?.any
        (fun last => ctx.height ≤ last.height) = false := by
  unfold newSample at h
  cases hp : parseUptime t.tx with
  | none =>
    rw [hp] at h
    cases h
  | some upt' =>
    rw [hp] at h
    dsimp only at h
    split_ifs at h with hv hb hd
    cases h
    exact ⟨rfl, by simpa using hd⟩

/-- The sweep leaves the engine. -/
theorem expirySweep_engine (height : UInt64) : (expirySweep height now s).engine = s.engine := by
  unfold expirySweep
  split <;> rfl

theorem Stamped.congr (heq : s'.engine.chainUptimeSamples = s.engine.chainUptimeSamples)
    (h : Stamped s ev) : Stamped s' ev := by
  unfold Stamped
  rwa [heq]

/-- **A stamped payload is spent**: a block at the same height or below makes no sample of it. -/
theorem Stamped.newSample_ne (h : Stamped s ev) (hle : ctx.height ≤ ev.height) :
    newSample ctx t s ≠ some ev.payload := by
  intro hnew
  obtain ⟨last, hlast, hge⟩ := h
  have hlow := (newSample_eq_some hnew).2
  rw [hlast, Option.any_some, decide_eq_false_iff_not] at hlow
  exact hlow (UInt64.le_trans hle hge)

section

variable (hshort : ctx.height.toNat + uptimeWindowBlocks.toNat < 2 ^ 64)

include hshort

/-- A new sample is stamped. -/
theorem stamped_newSample {upt : Uptime} (now : UInt64) (h : newSample ctx t s = some upt) :
    Stamped (uptimeSection ctx t now s).state ⟨upt, ctx.height⟩ := by
  refine ⟨⟨ctx.height, ctx.block.timestamp⟩, ?_, UInt64.le_refl _⟩
  rw [uptimeSection_samples, h]
  simp only [if_true]
  exact getLast?_appendSample hshort (newSample_eq_some h).2

/-- Stamped samples stay. -/
theorem Stamped.uptimeSection (h : Stamped s ev) :
    Stamped (Trust.uptimeSection ctx t now s).state ev := by
  cases hnew : newSample ctx t s with
  | none =>
    obtain ⟨last, hlast⟩ := h
    refine ⟨last, ?_⟩
    rwa [uptimeSection_samples, hnew]
  | some upt =>
    by_cases hn : upt.nodeId = ev.payload.nodeId
    · -- the new sample is above the last one, which is at the height of the event or above
      obtain ⟨last, hlast, hge⟩ := h
      obtain ⟨last', hlast', hge'⟩ := stamped_newSample hshort now hnew
      have hlow := (newSample_eq_some hnew).2
      rw [hn, hlast, Option.any_some, decide_eq_false_iff_not, UInt64.not_le] at hlow
      rw [hn] at hlast'
      exact ⟨last', hlast', UInt64.le_trans hge
        (UInt64.le_trans (UInt64.le_of_lt hlow) hge')⟩
    · obtain ⟨last, hlast⟩ := h
      refine ⟨last, ?_⟩
      rw [uptimeSection_samples, hnew]
      simpa only [hn, if_false] using hlast

end

/-! ### One transaction -/

variable [FloatArith F]

/-- The sections before the one for tag `0xA5`. -/
def sectionsBeforeUptime (D : Type) [FloatArith D] (ctx : BlockCtx) (t : LoadedTx)
    (now : UInt64) : List (Manager F → Flow (Manager F)) :=
  [registrationSection ctx t now, deregisterSection ctx t, validatorSection ctx t now,
    snapshotSection ctx t now, circleSection ctx t now, circleVoteSection D ctx t now,
    penaltySection ctx t now]

/-- The sections after it. -/
def sectionsAfterUptime (ctx : BlockCtx) (t : LoadedTx) (now : UInt64) :
    List (Manager F → Flow (Manager F)) :=
  [challengeSection ctx t now, chainProofSection ctx t, storeSection ctx t now,
    poolDistributionSection ctx t]

/-- The sample that a transaction makes, unless an earlier section leaves it. -/
def txSamples (D : Type) [FloatArith D] (ctx : BlockCtx) (t : LoadedTx) (now : UInt64)
    (s : Manager F) : List SampleEvent :=
  match Flow.stages (sectionsBeforeUptime D ctx t now) s with
  | .skip _ => []
  | .next s' => (newSample ctx t s').toList.map (⟨·, ctx.height⟩)

variable (D : Type) [FloatArith D]

theorem processTx_eq_uptime (ctx : BlockCtx) (t : LoadedTx) (now : UInt64) (s : Manager F) :
    processTx D ctx t now s =
      ((Flow.stages (sectionsBeforeUptime D ctx t now) s).bind fun s' =>
        (uptimeSection ctx t now s').bind (Flow.stages (sectionsAfterUptime ctx t now))).state :=
  congrArg Flow.state (Flow.stages_append (sectionsBeforeUptime D ctx t now)
    (uptimeSection ctx t now :: sectionsAfterUptime ctx t now) s)

/-- Only a `0xA5` payload touches the samples. -/
theorem Action.step_uptimeSamples {a : Action} (h : a.tag ≠ 0xA5) :
    (a.step D ctx now s).1.engine.chainUptimeSamples = s.engine.chainUptimeSamples := by
  cases a with
  | node a =>
    show (Manager.logAll _ _ _).engine.chainUptimeSamples = _
    rw [Manager.logAll_toRewardState]
    cases a with
    | uptime upt => exact absurd rfl h
    | _ => rfl
  | circle a =>
    show (Manager.logAll _ _ _).engine.chainUptimeSamples = _
    rw [Manager.logAll_toRewardState]
  | _ => rfl

/-- Neither do the sections of the other tags. -/
theorem stages_uptimeSamples
    (fs : List ((Manager F → Flow (Manager F)) × (Manager F → List (Action × UInt64))))
    {tags : List UInt8} (hfs : ∀ x ∈ fs, x ∈ actingSections D ctx t now)
    (htags : List.Forall₂ (fun x tag => ∀ s, ∀ a ∈ x.2 s, a.1.tag = tag) fs tags)
    (h : 0xA5 ∉ tags) (s : Manager F) :
    (Flow.stages (fs.map Prod.fst) s).state.engine.chainUptimeSamples =
      s.engine.chainUptimeSamples := by
  rw [Flow.stages_eq_run fs fun x hx => actingSections_eq_run D ctx t now x (hfs x hx)]
  refine Machine.run_state_invariant (actionMachine F D ctx) (P := fun _ a => a.1.tag ≠ 0xA5)
    (I := fun s' => s'.engine.chainUptimeSamples = s.engine.chainUptimeSamples) rfl
    (fun s' a hs' ha => (Action.step_uptimeSamples D ha).trans hs') ?_
  refine Machine.guarded_of_forall _ (fun _ a ha => ?_) s
  rintro htag
  exact h (htag ▸ Flow.performed_label htags s a ha)

/-- The sections before the one for tag `0xA5`, and the sections after it. -/
theorem sectionsBeforeUptime_samples (ctx : BlockCtx) (t : LoadedTx) (now : UInt64)
    (s : Manager F) :
    (Flow.stages (sectionsBeforeUptime D ctx t now) s).state.engine.chainUptimeSamples =
      s.engine.chainUptimeSamples :=
  stages_uptimeSamples D ((actingSections D ctx t now).take 7) (fun _ => List.mem_of_mem_take)
    (List.forall₂_take 7 (actingSections_tag D ctx t now)) (by decide) s

theorem sectionsAfterUptime_samples :
    (Flow.stages (sectionsAfterUptime ctx t now) s).state.engine.chainUptimeSamples =
      s.engine.chainUptimeSamples :=
  stages_uptimeSamples F ((actingSections F ctx t now).drop 8) (fun _ => List.mem_of_mem_drop)
    (List.forall₂_drop 8 (actingSections_tag F ctx t now)) (by decide) s

variable {D}

/-- A sample carries the height of the block, and a payload of the transaction. -/
theorem mem_txSamples (h : ev ∈ txSamples D ctx t now s) :
    ev.height = ctx.height ∧ parseUptime t.tx = some ev.payload := by
  unfold txSamples at h
  split at h
  · cases h
  · simp only [List.mem_map, Option.mem_toList] at h
    obtain ⟨upt, hupt, rfl⟩ := h
    exact ⟨rfl, (newSample_eq_some hupt).1⟩

/-- A sample counts once in a transaction. -/
theorem nodup_txSamples : ((txSamples D ctx t now s).map (·.payload)).Nodup := by
  unfold txSamples
  split
  · exact List.nodup_nil
  · next s' _ =>
    cases newSample ctx t s' with
    | none => exact List.nodup_nil
    | some upt => exact List.nodup_singleton _

/-- A spent payload makes no sample. -/
theorem Stamped.txSamples (h : Stamped s ev) (hle : ctx.height ≤ ev.height) :
    ev.payload ∉ (txSamples D ctx t now s).map (·.payload) := by
  have hbefore := sectionsBeforeUptime_samples D ctx t now s
  unfold Trust.txSamples
  split
  · exact List.not_mem_nil
  · next s' hs' =>
    rw [hs'] at hbefore
    have hne := (h.congr hbefore).newSample_ne
      (t := t) hle
    simpa using hne

section

variable (hshort : ctx.height.toNat + uptimeWindowBlocks.toNat < 2 ^ 64)

include hshort

/-- **One transaction** leaves stamped what was, and stamps what it records. -/
theorem stamped_processTx (h : Stamped s ev ∨ ev ∈ txSamples D ctx t now s) :
    Stamped (processTx D ctx t now s) ev := by
  have hbefore := sectionsBeforeUptime_samples D ctx t now s
  unfold txSamples at h
  rw [processTx_eq_uptime]
  cases hs' : Flow.stages (sectionsBeforeUptime D ctx t now) s with
  | skip s' =>
    rw [hs'] at hbefore h
    obtain h | h := h
    · exact h.congr hbefore
    · cases h
  | next s' =>
    rw [hs'] at hbefore h
    have hup : Stamped (uptimeSection ctx t now s').state ev := by
      obtain h | h := h
      · exact (h.congr hbefore).uptimeSection hshort
      · simp only [List.mem_map, Option.mem_toList] at h
        obtain ⟨upt, hupt, rfl⟩ := h
        exact stamped_newSample hshort now hupt
    rw [Flow.bind_next]
    cases hu : uptimeSection ctx t now s' with
    | skip s'' =>
      rw [hu] at hup
      exact hup
    | next s'' =>
      rw [hu] at hup
      exact hup.congr sectionsAfterUptime_samples

end

/-! ### One block -/

/-- The samples that the transactions of a block make. -/
def blockSamples (D : Type) [FloatArith D] (ctx : BlockCtx) :
    List LoadedTx → (ℕ → UInt64) → Manager F → List SampleEvent
  | [], _, _ => []
  | t :: ts, time, s =>
    txSamples D ctx t (time 0) s ++
      blockSamples D ctx ts (fun i => time (i + 1)) (processTx D ctx t (time 0) s)

variable {txs : List LoadedTx} {time : ℕ → UInt64}

/-- Samples come from payloads. -/
theorem mem_blockSamples (h : ev ∈ blockSamples D ctx txs time s) :
    ev.height = ctx.height ∧ ev.payload ∈ uptimePayloads txs := by
  induction txs generalizing time s with
  | nil => cases h
  | cons t ts ih =>
    rw [blockSamples, List.mem_append] at h
    rw [uptimePayloads, List.mem_filterMap]
    obtain h | h := h
    · obtain ⟨hheight, hparse⟩ := mem_txSamples h
      exact ⟨hheight, t, List.mem_cons_self, hparse⟩
    · obtain ⟨hheight, hmem⟩ := ih h
      obtain ⟨t', ht', hparse⟩ := List.mem_filterMap.1 hmem
      exact ⟨hheight, t', List.mem_cons_of_mem _ ht', hparse⟩

section

variable (hshort : ctx.height.toNat + uptimeWindowBlocks.toNat < 2 ^ 64)

include hshort

/-- Along the block samples are stamped. -/
theorem stamped_processTxs (h : Stamped s ev ∨ ev ∈ blockSamples D ctx txs time s) :
    Stamped (processTxs D ctx txs time s) ev := by
  induction txs generalizing time s with
  | nil => exact h.elim id (fun h => nomatch h)
  | cons t ts ih =>
    rw [blockSamples, List.mem_append] at h
    refine ih ?_
    rcases h with h | h | h
    · exact Or.inl (stamped_processTx hshort (Or.inl h))
    · exact Or.inl (stamped_processTx hshort (Or.inr h))
    · exact Or.inr h

/-- No block at its height or below makes a sample of a spent payload. -/
theorem Stamped.blockSamples (h : Stamped s ev) (hle : ctx.height ≤ ev.height) :
    ev.payload ∉ (blockSamples D ctx txs time s).map (·.payload) := by
  induction txs generalizing time s with
  | nil => exact List.not_mem_nil
  | cons t ts ih =>
    rw [Trust.blockSamples, List.map_append, List.mem_append, not_or]
    exact ⟨h.txSamples hle, ih (stamped_processTx hshort (Or.inl h))⟩

/-- The samples of one block come from distinct payloads. -/
theorem nodup_blockSamples : ((blockSamples D ctx txs time s).map (·.payload)).Nodup := by
  induction txs generalizing time s with
  | nil => exact List.nodup_nil
  | cons t ts ih =>
    rw [blockSamples, List.map_append, List.nodup_append']
    refine ⟨nodup_txSamples, ih, ?_⟩
    intro p hp
    obtain ⟨ev, hev, rfl⟩ := List.mem_map.1 hp
    have hst : Stamped (processTx D ctx t (time 0) s) ev := stamped_processTx hshort (Or.inr hev)
    exact hst.blockSamples hshort (UInt64.le_of_eq (mem_txSamples hev).1.symm)

end

/-! ### A run -/

/-- `process_mevatrust_txs` on one block after another, with the samples that are recorded. -/
def uptimeMachine (F D : Type) [FloatArith F] [FloatArith D] :
    Machine (Manager F) (BlockCtx × BlockClock) SampleEvent where
  step s b := (processMevatrustTxs D b.1 b.2 s,
    if s.initialized then blockSamples D b.1 b.1.txs b.2.tx s else [])

variable {b : BlockCtx × BlockClock} {blocks : List (BlockCtx × BlockClock)}

/-- After a step samples are stamped. -/
theorem stamped_uptimeMachine_step (hshort : b.1.height.toNat + uptimeWindowBlocks.toNat < 2 ^ 64)
    (h : Stamped s ev ∨ ev ∈ ((uptimeMachine F D).step s b).2) :
    Stamped ((uptimeMachine F D).step s b).1 ev := by
  unfold uptimeMachine processMevatrustTxs at *
  dsimp only at *
  cases hinit : s.initialized with
  | false =>
    rw [hinit] at h
    exact h.elim id (fun h => nomatch h)
  | true =>
    rw [hinit] at h
    rw [if_neg (by decide)]
    exact (stamped_processTxs hshort h).congr (by rw [expirySweep_engine])

/-- What a step records comes from a payload of the block, and carries its height. -/
theorem mem_uptimeMachine_step (h : ev ∈ ((uptimeMachine F D).step s b).2) :
    ev.height = b.1.height ∧ ev.payload ∈ uptimePayloads b.1.txs := by
  unfold uptimeMachine at h
  dsimp only at h
  split at h
  · exact mem_blockSamples h
  · cases h

/-- A spent payload that no higher block carries stays spent. -/
theorem Stamped.not_mem_run
    (hshort : ∀ b ∈ blocks, b.1.height.toNat + uptimeWindowBlocks.toNat < 2 ^ 64)
    (hlow : ∀ b ∈ blocks, ev.payload ∈ uptimePayloads b.1.txs → b.1.height ≤ ev.height)
    (h : Stamped s ev) : ev.payload ∉ (((uptimeMachine F D).run s blocks).2).map (·.payload) := by
  induction blocks generalizing s with
  | nil => exact List.not_mem_nil
  | cons b bs ih =>
    have hb := hshort b List.mem_cons_self
    rw [Machine.run_cons, List.map_append, List.mem_append, not_or]
    refine ⟨?_, ih (fun b' hb' => hshort b' (List.mem_cons_of_mem _ hb'))
      (fun b' hb' => hlow b' (List.mem_cons_of_mem _ hb'))
      (stamped_uptimeMachine_step hb (Or.inl h))⟩
    intro hmem
    obtain ⟨ev', hev', hpay⟩ := List.mem_map.1 hmem
    have hcarried := (mem_uptimeMachine_step hev').2
    rw [hpay] at hcarried
    have hle := hlow b List.mem_cons_self hcarried
    unfold uptimeMachine at hmem
    dsimp only at hmem
    split at hmem
    · exact h.blockSamples hb hle hmem
    · cases hmem

/-- A sample counts once in a step. -/
theorem nodup_uptimeMachine_step (hshort : b.1.height.toNat + uptimeWindowBlocks.toNat < 2 ^ 64) :
    (((uptimeMachine F D).step s b).2.map (·.payload)).Nodup := by
  unfold uptimeMachine
  dsimp only
  split
  · exact nodup_blockSamples hshort
  · exact List.nodup_nil

/-- **A payload makes one sample where no higher block repeats it**, from every state and in every
run of `process_mevatrust_txs`. -/
theorem uptime_payloads_spent_once (F D : Type) [FloatArith F] [FloatArith D] (s : Manager F)
    (blocks : List (BlockCtx × BlockClock))
    (hshort : ∀ b ∈ blocks, b.1.height.toNat + uptimeWindowBlocks.toNat < 2 ^ 64)
    (hfresh : blocks.Pairwise fun b b' => ∀ p ∈ uptimePayloads b.1.txs,
      p ∈ uptimePayloads b'.1.txs → b'.1.height ≤ b.1.height) :
    ((((uptimeMachine F D).run s blocks).2).map (·.payload)).Nodup := by
  induction blocks generalizing s with
  | nil => exact List.nodup_nil
  | cons b bs ih =>
    obtain ⟨hb, hbs⟩ := List.pairwise_cons.1 hfresh
    have hshort' : ∀ b' ∈ bs, b'.1.height.toNat + uptimeWindowBlocks.toNat < 2 ^ 64 :=
      fun b' hb' => hshort b' (List.mem_cons_of_mem _ hb')
    rw [Machine.run_cons, List.map_append, List.nodup_append']
    refine ⟨nodup_uptimeMachine_step (hshort b List.mem_cons_self), ih _ hshort' hbs, ?_⟩
    intro p hp
    obtain ⟨ev, hev, rfl⟩ := List.mem_map.1 hp
    obtain ⟨hheight, hcarried⟩ := mem_uptimeMachine_step hev
    refine Stamped.not_mem_run hshort' ?_
      (stamped_uptimeMachine_step (hshort b List.mem_cons_self) (Or.inr hev))
    intro b' hb' hp'
    rw [hheight]
    exact hb b' hb' _ hcarried hp'

end

/-! ### One commitment in two blocks -/

/-- A manager with the node of `ownerRegistration` registered. -/
def ownerState : Manager ℚ where
  registry := (({} : NodeRegistry ℚ).registerNodeOnchain ownerRegistration 50 18 1000).getD {}

/-- An uptime commitment of that node, signed by its key. -/
def ownerUptime : Uptime where
  nodeId := Pod32.single 9
  uptimeSeconds := 3600
  timestamp := 1000
  peerCount := 8
  isSynced := true
  syncHeight := 99
  nodePubkey := Pod32.single 6
  signature := ⟨Pod32.single 6, Pod32.single 1⟩

/-- A block that carries the commitment. -/
def uptimeBlock (height : UInt64) : BlockCtx where
  env := ⟨sevenCurve.crypto, fun _ => none, ⟨Pod32.null, Pod32.null⟩⟩
  block :=
    { timestamp := 60 * height
      minerTx := { tx := { extra := (packBlob 0xA5 (Uptime.codec.write ownerUptime)).getD [] } } }
  height
  hfVersion := 18

/-- **A copied commitment makes another sample**, in the next block. -/
theorem ownerUptime_sampled_twice :
    ¬ ∀ (s : Manager ℚ) (blocks : List (BlockCtx × BlockClock)),
        (∀ b ∈ blocks, hfVersionMevatrustAntisybil ≤ b.1.hfVersion) →
        blocks.IsChain (fun b b' => b'.1.height = b.1.height + 1) →
        ((((uptimeMachine ℚ ℚ).run s blocks).2).map (·.payload)).Nodup := by
  intro h
  have honce := h ownerState
    [(uptimeBlock 100, stillClock 2000), (uptimeBlock 101, stillClock 2060)] (by decide) (by decide)
  revert honce
  decide +kernel

/-- Twice at one height, it is recorded once. -/
theorem ownerUptime_sampled_once :
    (((uptimeMachine ℚ ℚ).run ownerState
        [(uptimeBlock 100, stillClock 2000), (uptimeBlock 100, stillClock 2060)]).2).length = 1 ∧
      ((((uptimeMachine ℚ ℚ).run ownerState
        [(uptimeBlock 100, stillClock 2000), (uptimeBlock 100, stillClock 2060)]).2).map
          (·.payload)).Nodup :=
  ⟨by decide +kernel, uptime_payloads_spent_once ℚ ℚ ownerState
    [(uptimeBlock 100, stillClock 2000), (uptimeBlock 100, stillClock 2060)] (by decide)
    (by simp [uptimeBlock])⟩

end Mevacoin.Trust
