import Mevacoin.Lib.Indexed
import Mevacoin.Trust.ChainHistory

/-!
# Well-formed circles

`finalize_vote` does not ask whether the target is still a member, `create_circle` not whether the
identity is taken, and `set_admin` and `restore_circle` ask nothing.
-/

namespace Mevacoin.Trust

open Lib Std

/-! ### Well-formedness -/

/-- The circle is in order by itself. -/
structure CircleEntry.Sound (e : CircleEntry) : Prop where
  admin_mem : e.adminPubkey ∈ e.members
  nodup : e.members.Nodup
  length_le : e.members.length ≤ maxCircleMembers

/-- **The circles are well formed.** -/
structure CircleRegistry.WellFormed (c : CircleRegistry) : Prop where
  sound : ∀ (cid : Hash) e, c.circles[cid]? = some e → e.Sound
  index : Indexed c.circles c.nameToId (·.name)

/-- No circles. -/
theorem wellFormed_empty : CircleRegistry.WellFormed {} :=
  ⟨fun _ _ h => by simp at h, Indexed.empty _⟩

section

variable {c c' : CircleRegistry} {cid : Hash} {e e' : CircleEntry} {now : UInt64}

namespace CircleRegistry.WellFormed

/-- Only circles and names count. -/
theorem congr (h : c.WellFormed) (hcircles : c'.circles = c.circles)
    (hnames : c'.nameToId = c.nameToId) : c'.WellFormed :=
  ⟨hcircles ▸ h.sound, hcircles ▸ hnames ▸ h.index⟩

/-- A circle can be changed into a sound one of the same name. -/
theorem edited (h : c.WellFormed) (he : c.circles[cid]? = some e) (hc : Edited c cid e' c')
    (hname : e'.name = e.name) (hs : e'.Sound) : c'.WellFormed where
  sound i w hi := by
    rw [hc.circles] at hi
    by_cases hcid : cid = i
    · subst hcid
      rw [ExtTreeMap.getElem?_insert_self] at hi
      exact Option.some.inj hi ▸ hs
    · rw [getElem?_insert_of_ne hcid] at hi
      exact h.sound i w hi
  index := by
    rw [hc.circles, hc.names]
    exact h.index.replace he hname

/-- A sound circle can be put under an identity and a name that are free or its own. -/
theorem insert (h : c.WellFormed) (hs : e.Sound)
    (hid : ∀ w, c.circles[cid]? = some w → w.name = e.name)
    (hname : ∀ i, c.nameToId[e.name]? = some i → i = cid) :
    CircleRegistry.WellFormed
      { c with circles := c.circles.insert cid e, nameToId := c.nameToId.insert e.name cid } where
  sound i w hi := by
    by_cases hcid : cid = i
    · subst hcid
      rw [ExtTreeMap.getElem?_insert_self] at hi
      exact Option.some.inj hi ▸ hs
    · rw [getElem?_insert_of_ne hcid] at hi
      exact h.sound i w hi
  index := h.index.insert hid hname

/-- `add_member` keeps the registry well-formed. -/
theorem addMember (h : c.WellFormed) (member caller : PublicKey)
    (hc : c.addMember cid member caller now = some c') : c'.WellFormed := by
  obtain ⟨e, e', he, hf, rfl⟩ := modify_eq_some hc
  split_ifs at hf with _ hmem hroom
  obtain rfl := Option.some.inj hf
  have hs := h.sound cid e he
  refine h.edited he (edited_put ..) rfl ⟨List.mem_append_left _ hs.admin_mem, ?_, ?_⟩
  · exact (List.concat_eq_append ▸ hs.nodup.concat hmem :)
  · rw [List.length_append]
    exact Nat.not_le.1 hroom

/-- `remove_member` keeps it well-formed. -/
theorem removeMember (h : c.WellFormed) (member caller : PublicKey)
    (hc : c.removeMember cid member caller now = some c') : c'.WellFormed := by
  obtain ⟨e, e', he, hf, rfl⟩ := modify_eq_some hc
  split_ifs at hf with _ hadmin
  obtain rfl := Option.some.inj hf
  have hs := h.sound cid e he
  refine h.edited he (edited_put ..) rfl ⟨?_, hs.nodup.filter _, ?_⟩
  · exact List.mem_filter.2 ⟨hs.admin_mem, by simpa using hadmin⟩
  · exact (List.length_filter_le _ _).trans hs.length_le

/-- A member can be made administrator. -/
theorem put_admin (h : c.WellFormed) (he : c.circles[cid]? = some e) {newAdmin : PublicKey}
    (hmem : newAdmin ∈ e.members) :
    (c.put cid { e with adminPubkey := newAdmin, updatedAt := now }).WellFormed :=
  have hs := h.sound cid e he
  h.edited he (edited_put ..) rfl ⟨hmem, hs.nodup, hs.length_le⟩

/-- `change_admin` keeps it well-formed. -/
theorem changeAdmin (h : c.WellFormed) (newAdmin caller : PublicKey)
    (hc : c.changeAdmin cid newAdmin caller now = some c') : c'.WellFormed := by
  obtain ⟨e, e', he, hf, rfl⟩ := modify_eq_some hc
  split_ifs at hf with _ hmem
  obtain rfl := Option.some.inj hf
  exact h.put_admin he hmem

/-- `disband_circle` keeps it well-formed. -/
theorem disbandCircle (h : c.WellFormed) (caller : PublicKey)
    (hc : c.disbandCircle cid caller = some c') : c'.WellFormed := by
  obtain ⟨e, he, -, rfl⟩ := disbandCircle_eq_some hc
  refine ⟨fun i w hi => ?_, h.index.erase he⟩
  by_cases hcid : cid = i
  · subst hcid
    rw [ExtTreeMap.getElem?_erase_self] at hi
    cases hi
  · rw [getElem?_erase_of_ne hcid] at hi
    exact h.sound i w hi

end CircleRegistry.WellFormed

/-! ### What the operations of a block need -/

/-- A new circle gets an identity that no circle has, and a vote that is carried is for somebody
who is still a member. -/
def CircleAct.Needs (D : Type) [FloatArith D] (ctx : BlockCtx) (c : CircleRegistry) :
    CircleAct × UInt64 → Prop
  | (op o _, now) =>
    CircleOpType.ofUInt8 o.opType = some .create → c.Accepts o.circleName →
      c.circles[computeCircleId ctx.env.crypto o.circleName o.signerPubkey now]? = none
  | (vote v, _) =>
    VoteOpType.ofUInt8 v.opType = some .finalizeVote →
      ∀ p ∈ c.proposals[v.proposalId]?, p.isOpen = true → ∀ e ∈ c.circles[p.circleId]?,
        c.Carried D v.proposalId p e → p.targetPk ∈ e.members

instance (D : Type) [FloatArith D] (ctx : BlockCtx) (c : CircleRegistry) :
    ∀ a : CircleAct × UInt64, Decidable (CircleAct.Needs D ctx c a)
  | (.op _ _, _) => by unfold CircleAct.Needs; infer_instance
  | (.vote _, _) => by unfold CircleAct.Needs; infer_instance

/-- A circle that the log keeps for `restore_circle` is sound. -/
def PoppedOp.KeepsSound : PoppedOp → Prop
  | circleDisband _ _ (some e) => e.Sound
  | _ => True

/-- `create_circle` keeps it well-formed under a free id. -/
theorem createCircle_wellFormed (h : c.WellFormed) {cr : Crypto} {name : Bytes}
    {admin : PublicKey} {height : UInt64}
    (hfree : c.Accepts name → c.circles[computeCircleId cr name admin now]? = none) :
    (c.createCircle cr name admin height now).1.WellFormed := by
  by_cases hname : c.Accepts name
  · rw [createCircle_of_accepts cr hname]
    have hnew := hfree hname
    refine h.insert (e := createdCircle cr name admin height now) ⟨?_, ?_, ?_⟩ ?_ ?_
    · exact List.mem_singleton_self _
    · exact List.nodup_singleton _
    · exact (by decide : 1 ≤ maxCircleMembers)
    · intro w hw
      rw [hnew] at hw
      cases hw
    · intro i hi
      rw [show (createdCircle cr name admin height now).name = name from rfl, hname.2.2] at hi
      cases hi
  · rw [createCircle_of_not_accepts cr hname]
    exact h

/-- `finalize_vote` keeps it well-formed if the target is a member. -/
theorem finalizeVote_wellFormed (D : Type) [FloatArith D] (h : c.WellFormed) {pid : Hash}
    {height : UInt64}
    (hmem : ∀ p ∈ c.proposals[pid]?, p.isOpen = true → ∀ e ∈ c.circles[p.circleId]?,
      c.Carried D pid p e → p.targetPk ∈ e.members) :
    (c.finalizeVote D pid height now).1.WellFormed := by
  have hclosing := voteClosing D c pid height now
  generalize c.finalizeVote D pid height now = out at hclosing ⊢
  cases hclosing with
  | idle => exact h
  | lost | recalled => exact h.congr rfl rfl
  | carried hp hopen _ he hcarried =>
    exact (h.put_admin he (hmem _ hp hopen _ he hcarried)).congr rfl rfl

/-- `create_proposal` keeps it well-formed. -/
theorem createProposal_wellFormed (h : c.WellFormed) (cr : Crypto) (proposer target : PublicKey)
    (height : UInt64) : (c.createProposal cr cid proposer target height).1.WellFormed := by
  obtain hsame | ⟨p, -, -, -, -, hset⟩ := createProposal_cases c cr cid proposer target height
  · rwa [hsame]
  · rw [hset]
    exact h.congr rfl rfl

/-- `cast_vote` keeps it well-formed. -/
theorem castVote_wellFormed (h : c.WellFormed) {pid : Hash} {voter : PublicKey} {voteYes : Bool}
    {height : UInt64} (hc : c.castVote pid voter voteYes height = some c') : c'.WellFormed := by
  obtain ⟨-, -, rfl⟩ := castVote_eq_some_iff.1 hc
  exact h.congr rfl rfl

/-- **One operation of a block.** -/
theorem CircleAct.wellFormed_step (D : Type) [FloatArith D] (ctx : BlockCtx) (h : c.WellFormed)
    {a : CircleAct × UInt64} (hneeds : CircleAct.Needs D ctx c a) :
    (a.1.step D ctx a.2 c).1.WellFormed ∧ ∀ op ∈ (a.1.step D ctx a.2 c).2, op.KeepsSound := by
  obtain ⟨a, time⟩ := a
  cases a with
  | op o txHash =>
    match hop : CircleOpType.ofUInt8 o.opType with
    | none =>
      rw [step_unset hop]
      exact ⟨h, by simp [PoppedOp.KeepsSound]⟩
    | some .create =>
      rw [step_create hop]
      exact ⟨createCircle_wellFormed h (hneeds hop), by simp [PoppedOp.KeepsSound]⟩
    | some .join =>
      rw [step_join hop]
      cases hc : c.addMember o.circleId o.targetPubkey o.signerPubkey time with
      | none => exact ⟨h, by simp⟩
      | some c' => exact ⟨(h.addMember _ _ hc).congr rfl rfl, by simp [PoppedOp.KeepsSound]⟩
    | some .leave =>
      rw [step_leave hop]
      cases hc : c.removeMember o.circleId o.targetPubkey o.signerPubkey time with
      | none => exact ⟨h, by simp⟩
      | some c' => exact ⟨(h.removeMember _ _ hc).congr rfl rfl, by simp [PoppedOp.KeepsSound]⟩
    | some .changeAdmin =>
      rw [step_changeAdmin hop]
      cases hc : c.changeAdmin o.circleId o.targetPubkey o.signerPubkey time with
      | none => exact ⟨h, by simp⟩
      | some c' => exact ⟨(h.changeAdmin _ _ hc).congr rfl rfl, by simp [PoppedOp.KeepsSound]⟩
    | some .disband =>
      rw [step_disband hop]
      cases hc : c.disbandCircle o.circleId o.signerPubkey with
      | none => exact ⟨h, by simp⟩
      | some c' =>
        refine ⟨h.disbandCircle _ hc, fun op hmem => ?_⟩
        obtain rfl := List.mem_singleton.1 hmem
        -- the log keeps the circle as it was
        cases he : c.getCircle o.circleId with
        | none => exact trivial
        | some e => exact h.sound _ e he
  | vote v =>
    match hop : VoteOpType.ofUInt8 v.opType with
    | none =>
      rw [step_unsetVote hop]
      exact ⟨h, by simp [PoppedOp.KeepsSound]⟩
    | some .proposeChangeAdmin =>
      rw [step_propose hop]
      exact ⟨createProposal_wellFormed h .., by simp [PoppedOp.KeepsSound]⟩
    | some .castVote =>
      rw [step_castVote hop]
      cases hc : c.castVote v.proposalId v.signerPubkey v.voteYes ctx.height with
      | none => exact ⟨h, by simp⟩
      | some c' => exact ⟨castVote_wellFormed h hc, by simp [PoppedOp.KeepsSound]⟩
    | some .finalizeVote =>
      rw [step_finalizeVote hop]
      exact ⟨finalizeVote_wellFormed D h (hneeds hop), by simp [PoppedOp.KeepsSound]⟩

/-! ### What a pop needs -/

/-- Name and identity of a returning circle are free or its own; a returning administrator is a
member. -/
def CircleRegistry.UndoNeeds (c : CircleRegistry) : PoppedOp → Prop
  | .circleDisband _ _ (some e) =>
    (∀ e' ∈ c.circles[e.circleId]?, e'.name = e.name) ∧
      ∀ cid ∈ c.nameToId[e.name]?, cid = e.circleId
  | .circleChangeAdmin cid _ (some admin) => ∀ e ∈ c.circles[cid]?, admin ∈ e.members
  | _ => True

instance (c : CircleRegistry) (op : PoppedOp) : Decidable (c.UndoNeeds op) := by
  unfold CircleRegistry.UndoNeeds
  split <;> infer_instance

/-- **One entry of the log.** -/
theorem undoCircles_wellFormed (h : c.WellFormed) {op : PoppedOp} (hlog : op.KeepsSound)
    (hneeds : c.UndoNeeds op) : (undoCircles now c op).WellFormed := by
  unfold undoCircles
  split
  · rename_i cid pubkey
    cases hc : c.disbandCircle cid pubkey with
    | none => exact h
    | some c' => exact h.disbandCircle _ hc
  · exact h.insert hlog hneeds.1 hneeds.2
  · rename_i cid pubkey
    cases hc : c.removeMember cid pubkey pubkey now with
    | none => exact h
    | some c' => exact h.removeMember _ _ hc
  · rename_i cid pubkey admin
    cases hc : c.addMember cid pubkey admin now with
    | none => exact h
    | some c' => exact h.addMember _ _ hc
  · rename_i cid pubkey admin
    cases hc : c.setAdmin cid admin now with
    | none => exact h
    | some c' =>
      obtain ⟨e, e', he, hf, rfl⟩ := modify_eq_some hc
      obtain rfl := Option.some.inj hf
      exact h.put_admin he (hneeds e he)
  · exact h

end

/-! ### Blocks added and popped -/

section

variable {F : Type} [FloatArith F] {D : Type} [FloatArith D] {s : Manager F}

variable (D) in
/-- What the operations of a block need when it is added, and what its log needs when it is
popped. -/
def ChainOp.CirclesFit (x : ChainState F) : ChainOp → Prop
  | add b => (circleMachine D b.1).Guarded (CircleAct.Needs D b.1) x.manager.circles
      (circleActs D b.1 b.2 x.manager)
  | pop now =>
    match x.chain with
    | [] => True
    | b :: _ => UndoGuarded (undoCircles now) CircleRegistry.UndoNeeds
        (x.manager.logAt b.1.height) x.manager.circles

instance (x : ChainState F) : ∀ op : ChainOp, Decidable (op.CirclesFit D x)
  | .add _ => by unfold ChainOp.CirclesFit; infer_instance
  | .pop _ => by
    unfold ChainOp.CirclesFit
    exact match x.chain with
      | [] => .isTrue trivial
      | _ :: _ => by dsimp only; infer_instance

/-- The circles are well formed, and so is every circle in the log. -/
structure CirclesHeld (s : Manager F) : Prop where
  wellFormed : s.circles.WellFormed
  log : ∀ h, ∀ op ∈ s.logAt h, op.KeepsSound

/-- A block keeps what is held. -/
theorem CirclesHeld.processMevatrustTxs (h : CirclesHeld s) {b : BlockCtx × BlockClock}
    (hfit : (circleMachine D b.1).Guarded (CircleAct.Needs D b.1) s.circles
      (circleActs D b.1 b.2 s)) : CirclesHeld (processMevatrustTxs D b.1 b.2 s) := by
  cases hinit : s.initialized with
  | false =>
    unfold Trust.processMevatrustTxs
    rw [if_pos hinit]
    exact h
  | true =>
    have hproject := Machine.run_project (circlesPart (D := D) b.1 0).step s (actionsOf D b.1 b.2 s)
    obtain ⟨hcircles, hevents⟩ := Prod.mk.inj hproject.symm
    have hrun := (circleMachine D b.1).run_invariant
      (I := fun c evs => c.WellFormed ∧ ∀ op ∈ evs, op.KeepsSound) ⟨h.wellFormed, nofun⟩
      (fun c evs a hc hneeds => by
        obtain ⟨hwf, hnew⟩ := CircleAct.wellFormed_step D b.1 hc.1 hneeds
        refine ⟨hwf, fun op hop => ?_⟩
        rcases List.mem_append.1 hop with hop | hop
        · exact hc.2 op hop
        · exact hnew op hop) hfit
    refine ⟨?_, fun h' op hop => ?_⟩
    · rw [processMevatrustTxs_eq_run hinit, expirySweep_circles, hcircles]
      exact hrun.1
    · rw [logAt_processMevatrustTxs hinit] at hop
      split_ifs at hop
      · rcases List.mem_append.1 hop with hop | hop
        · exact h.log h' op hop
        · cases hk : op.onCircles with
          | true => exact hrun.2 op (hevents ▸ List.mem_filter.2 ⟨hop, hk⟩)
          | false => cases op <;> first | exact trivial | cases hk
      · exact h.log h' op hop

omit [FloatArith F] in
/-- A popped block keeps what is held. -/
theorem CirclesHeld.onMevatrustBlockPopped (h : CirclesHeld s) {height now : UInt64}
    (hfit : UndoGuarded (undoCircles now) CircleRegistry.UndoNeeds (s.logAt height) s.circles) :
    CirclesHeld (onMevatrustBlockPopped height now s) := by
  cases hinit : s.initialized with
  | false =>
    unfold Trust.onMevatrustBlockPopped
    rw [if_pos hinit]
    exact h
  | true =>
    obtain ⟨log, hpop, hlog⟩ := onMevatrustBlockPopped_eq height now hinit
    rw [hpop]
    refine ⟨?_, fun h' op hop => ?_⟩
    · show (undoAll (undoOp now) (s.logAt height) s).circles.WellFormed
      rw [undoAll_project (undoOp_circles now)]
      exact undoAll_invariant
        (fun c op hop hc hneeds => undoCircles_wellFormed hc (h.log height op hop) hneeds)
        h.wellFormed hfit
    · rw [Manager.logAt, hlog] at hop
      split_ifs at hop
      · cases hop
      · exact h.log h' op hop

/-- **Circles are well formed** after every run of blocks added and popped in which each operation
and each log entry finds what it needs. -/
theorem circles_wellFormed {ops : List ChainOp}
    (hfit : (chainMachine F D).Guarded (fun x op => op.CirclesFit D x) {} ops) :
    ((chainMachine F D).run {} ops).1.manager.circles.WellFormed := by
  have hinit : CirclesHeld ({} : ChainState F).manager := by
    refine ⟨wellFormed_empty, fun h op hop => ?_⟩
    simp [Manager.logAt] at hop
  refine (Machine.run_state_invariant (chainMachine F D)
    (I := fun x => CirclesHeld x.manager) hinit ?_ hfit).wellFormed
  intro x op hx hop
  cases op with
  | add b => exact hx.processMevatrustTxs hop
  | pop now =>
    unfold chainMachine
    unfold ChainOp.CirclesFit at hop
    dsimp only at hop ⊢
    cases hchain : x.chain with
    | nil => exact hx
    | cons b rest =>
      rw [hchain] at hop
      exact hx.onMevatrustBlockPopped hop

end

/-! ### A target who has left -/

/-- A payload of key 4 on its circle. -/
def scoutOp (opType target challenge : UInt8) : CircleOp where
  opType
  circleId := Pod32.single 233
  circleName := asciiBytes "scouts"
  targetPubkey := Pod32.single target
  signerPubkey := Pod32.single 4
  signature := ⟨Pod32.single challenge, Pod32.single 0⟩

/-- A payload of key 4 on the proposal to make 9 the administrator. -/
def scoutVote (opType challenge : UInt8) : CircleVote where
  opType
  proposalId := Pod32.single 136
  circleId := Pod32.single 233
  targetPubkey := Pod32.single 9
  signerPubkey := Pod32.single 4
  voteYes := true
  reason := [0]
  signature := ⟨Pod32.single challenge, Pod32.single 0⟩

/-- A block with one payload on circles, whose transaction has a hash of its own. -/
def scoutBlock (op : CircleOp ⊕ CircleVote) (height : UInt64) : ChainOp :=
  let extra := match op with
    | .inl op => packBlob 0xA3 (CircleOp.codec.write op)
    | .inr v => packBlob 0xA9 (CircleVote.codec.write v)
  .add ({ env := ⟨sevenCurve.crypto, fun _ => none, ⟨Pod32.null, Pod32.null⟩⟩
          block := { minerTx := { tx := { extra := extra.getD [] }
                                  hash := Pod32.single height.toUInt8 } }
          height, hfVersion := 18 }, stillClock 2000)

/-- The circle is made, 9 joins, is proposed and gets the one vote that is cast. -/
def proposedScout : List ChainOp :=
  [scoutBlock (.inl (scoutOp 0 4 1)) 101, scoutBlock (.inl (scoutOp 1 9 2)) 102,
    scoutBlock (.inr (scoutVote 0 5)) 103, scoutBlock (.inr (scoutVote 1 5)) 104]

/-- The payload that closes the vote. -/
def closedScoutVote : ChainOp := scoutBlock (.inr (scoutVote 2 2)) 10183

/-- The circles after a run. -/
def scoutCircles (ops : List ChainOp) : CircleRegistry :=
  ((chainMachine ℚ ℚ).run {} ops).1.manager.circles

/-- **An administrator who is no member**: 9 leaves before the vote is closed. -/
theorem absent_target_breaks :
    ¬ (scoutCircles (proposedScout ++
      [scoutBlock (.inl (scoutOp 2 9 4)) 105, closedScoutVote])).WellFormed := by
  intro h
  have hout : (scoutCircles (proposedScout ++ [scoutBlock (.inl (scoutOp 2 9 4)) 105,
      closedScoutVote])).circles[Pod32.single 233]?.any
        (fun e => decide (e.adminPubkey ∉ e.members)) = true := by
    decide +kernel
  obtain ⟨e, he, hadmin⟩ := (Option.any_eq_true _ _).1 hout
  exact of_decide_eq_true hadmin (h.sound _ e he).admin_mem

/-- If 9 stays, the vote makes 9 administrator, and the circles are well formed then and after the
block is popped. -/
theorem present_target_wellFormed :
    ((scoutCircles (proposedScout ++ [closedScoutVote])).circles[Pod32.single 233]?.map
        (·.adminPubkey)) = some (Pod32.single 9) ∧
      (scoutCircles (proposedScout ++ [closedScoutVote, .pop 3000])).WellFormed :=
  ⟨by decide +kernel, circles_wellFormed (by decide +kernel)⟩

end Mevacoin.Trust
