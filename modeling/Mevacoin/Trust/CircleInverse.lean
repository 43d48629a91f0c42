import Mevacoin.Trust.CircleUndo

/-!
# One operation on circles, undone

What is left of each operation on circles when its log entry is undone.
-/

namespace Mevacoin.Trust

open Lib Std

/-! ### One operation, undone -/

section

variable {D : Type} [FloatArith D] {ctx : BlockCtx} {c : CircleRegistry} {o : CircleOp}
  {txHash : Hash} {v : CircleVote} {time now : UInt64}

/-- The registry after an operation and the undoing of what it logged. -/
def undoneCircles (D : Type) [FloatArith D] (ctx : BlockCtx) (now : UInt64) (c : CircleRegistry)
    (a : CircleAct × UInt64) : CircleRegistry :=
  undoAll (undoCircles now) ((circleMachine D ctx).step c a).2 ((circleMachine D ctx).step c a).1

variable {a : CircleAct × UInt64} {e : CircleEntry}

/-- An operation with one log entry. -/
theorem undoneCircles_of_step {c' : CircleRegistry} {op : PoppedOp}
    (hstep : a.1.step D ctx a.2 c = (c', [op])) :
    undoneCircles D ctx now c a = undoCircles now c' op := by
  unfold undoneCircles circleMachine
  dsimp only
  rw [hstep]
  rfl

/-- An operation that was refused. -/
theorem undoneCircles_of_refused (hstep : a.1.step D ctx a.2 c = (c, [])) :
    undoneCircles D ctx now c a = c := by
  unfold undoneCircles circleMachine
  dsimp only
  rw [hstep]
  rfl

/-! Creation -/

section Create

variable (hop : CircleOpType.ofUInt8 o.opType = some .create)
include hop

/-- A refused creation is logged. -/
theorem step_create_refused (hacc : ¬ c.Accepts o.circleName) :
    CircleAct.step D ctx time c (.op o txHash) =
      (c, [.circleCreate o.circleId o.targetPubkey]) := by
  rw [step_create hop, createCircle_of_not_accepts _ hacc, if_pos rfl]

/-- A creation, undone. -/
theorem undoneCircles_create : undoneCircles D ctx now c (.op o txHash, time) =
      let out := c.createCircle ctx.env.crypto o.circleName o.signerPubkey ctx.height time
      (out.1.disbandCircle (if out.2 = Pod32.null then o.circleId else out.2)
        o.targetPubkey).getD out.1 := by
  rw [undoneCircles_of_step (step_create hop)]
  rfl

/-- A creation that was refused disbands what the payload names. -/
theorem undoneCircles_create_refused (hacc : ¬ c.Accepts o.circleName) :
    undoneCircles D ctx now c (.op o txHash, time) =
      (c.disbandCircle o.circleId o.targetPubkey).getD c := by
  rw [undoneCircles_of_step (step_create_refused hop hacc)]
  rfl

/-- A creation that reverts leaves nothing. -/
theorem undoneCircles_create_eq (h : CircleAct.Reverts ctx c (.op o txHash, time)) :
    undoneCircles D ctx now c (.op o txHash, time) = c := by
  simp only [CircleAct.Reverts, hop] at h
  by_cases hacc : c.Accepts o.circleName
  · rw [if_pos hacc] at h
    obtain ⟨habsent, htarget, hnull⟩ := h
    rw [undoneCircles_create hop, createCircle_of_accepts _ hacc]
    dsimp only
    generalize computeCircleId ctx.env.crypto o.circleName o.signerPubkey time = cid at *
    have hlogged : (if cid = Pod32.null then o.circleId else cid) = cid := by
      split
      case isTrue h0 => rw [hnull h0, h0]
      case isFalse => rfl
    rw [hlogged, htarget, disbandCircle_of_some (ExtTreeMap.getElem?_insert_self),
      if_pos (by rfl), Option.getD_some]
    rw [erase_insert_of_absent habsent, show (createdCircle ctx.env.crypto o.circleName
      o.signerPubkey ctx.height time).name = o.circleName from rfl,
      erase_insert_of_absent hacc.2.2]
  · rw [if_neg hacc] at h
    rw [undoneCircles_create_refused hop hacc]
    cases he : c.circles[o.circleId]? with
    | none => rw [disbandCircle_of_none he, Option.getD_none]
    | some e =>
      rw [disbandCircle_of_some he, if_neg (h e he), Option.getD_none]

/-- No other creation is undone. -/
theorem reverts_create_of_restored
    (h : CirclesRestored (undoneCircles D ctx now c (.op o txHash, time)) c) :
    CircleAct.Reverts ctx c (.op o txHash, time) := by
  simp only [CircleAct.Reverts, hop]
  by_cases hacc : c.Accepts o.circleName
  · rw [if_pos hacc]
    rw [undoneCircles_create hop, createCircle_of_accepts _ hacc] at h
    dsimp only at h
    generalize hnew : createdCircle ctx.env.crypto o.circleName o.signerPubkey ctx.height time = new
      at h
    have hadmin : new.adminPubkey = o.signerPubkey := by
      rw [← hnew]
      rfl
    generalize computeCircleId ctx.env.crypto o.circleName o.signerPubkey time = cid at *
    generalize hlogged : (if cid = Pod32.null then o.circleId else cid) = logged at h
    generalize hc₁ : ({ c with
      circles := c.circles.insert cid new
      nameToId := c.nameToId.insert o.circleName cid } : CircleRegistry) = c₁ at h
    have hlook (i : Hash) : c₁.circles[i]? = if cid = i then some new else c.circles[i]? := by
      rw [← hc₁]
      rw [ExtTreeMap.getElem?_insert]
      simp only [LawfulEqOrd.compare_eq_iff_eq]
    have hnames : c₁.nameToId[o.circleName]? = some cid := by
      rw [← hc₁]
      exact ExtTreeMap.getElem?_insert_self
    -- the name is free again only if a circle was disbanded
    cases he : c₁.circles[logged]? with
    | none =>
      rw [disbandCircle_of_none he, Option.getD_none] at h
      rw [h.names, hacc.2.2] at hnames
      cases hnames
    | some e =>
      rw [disbandCircle_of_some he] at h
      by_cases htarget : e.adminPubkey = o.targetPubkey
      · rw [if_pos htarget] at h
        -- the circle under the logged identity is gone, so it is the new one
        have hgone : c.circles[logged]? = none := by
          refine h.lookup_none ?_
          show (c₁.circles.erase logged)[logged]? = none
          rw [ExtTreeMap.getElem?_erase_self]
        rw [hlook] at he
        by_cases heq : cid = logged
        · rw [if_pos heq] at he
          cases he
          subst heq
          refine ⟨hgone, htarget.symm.trans hadmin, ?_⟩
          intro hnull
          rw [if_pos hnull] at hlogged
          rw [hlogged, hnull]
        · rw [if_neg heq, hgone] at he
          cases he
      · rw [if_neg htarget, Option.getD_none] at h
        rw [h.names, hacc.2.2] at hnames
        cases hnames
  · rw [if_neg hacc]
    intro e he hadmin
    rw [undoneCircles_create_refused hop hacc, disbandCircle_of_some he, if_pos hadmin] at h
    have hgone : c.circles[o.circleId]? = none := by
      refine h.lookup_none ?_
      show (c.circles.erase o.circleId)[o.circleId]? = none
      rw [ExtTreeMap.getElem?_erase_self]
    rw [Option.mem_def.1 he] at hgone
    cases hgone

end Create

/-! Joining and leaving -/

section Join

variable (hop : CircleOpType.ofUInt8 o.opType = some .join)
include hop

/-- A refused `JOIN` does nothing. -/
theorem step_join_refused
    (h : ∀ e ∈ c.circles[o.circleId]?, ¬ e.Admits o.targetPubkey o.signerPubkey) :
    CircleAct.step D ctx time c (.op o txHash) = (c, []) := by
  rw [step_join hop, addMember_eq_none h]

/-- The member is added, and asked to leave again. -/
theorem undoneCircles_join (D : Type) [FloatArith D] (ctx : BlockCtx) (txHash : Hash)
    (time now : UInt64) (he : c.circles[o.circleId]? = some e)
    (hadm : e.Admits o.targetPubkey o.signerPubkey) :
    ∃ c', Edited c o.circleId
        { e with members := e.members ++ [o.targetPubkey], updatedAt := time } c' ∧
      undoneCircles D ctx now c (.op o txHash, time) =
        (c'.removeMember o.circleId o.targetPubkey o.targetPubkey now).getD c' := by
  have hstep : CircleAct.step D ctx time c (.op o txHash) =
      ((c.put o.circleId { e with
          members := e.members ++ [o.targetPubkey], updatedAt := time }).markTxProcessed
        o.circleId txHash, [.circleJoin o.circleId o.targetPubkey]) := by
    rw [step_join hop, addMember_of_some he, if_pos hadm]
  refine ⟨_, (edited_put _ _ _).mark txHash, ?_⟩
  rw [undoneCircles_of_step hstep]
  rfl

/-- A `JOIN` that reverts leaves circles that agree. -/
theorem agree_join (h : CircleAct.Reverts ctx c (.op o txHash, time)) :
    CirclesAgree List.Perm (undoneCircles D ctx now c (.op o txHash, time)) c := by
  simp only [CircleAct.Reverts, hop] at h
  by_cases hadm : ∃ e, c.circles[o.circleId]? = some e ∧ e.Admits o.targetPubkey o.signerPubkey
  · obtain ⟨e, he, hadm⟩ := hadm
    obtain ⟨c', hedit, hundone⟩ := undoneCircles_join hop D ctx txHash time now he hadm
    have hne := h e he hadm
    have hfilter : (e.members ++ [o.targetPubkey]).filter (· ≠ o.targetPubkey) = e.members := by
      rw [List.filter_append, List.filter_eq_self.2, List.filter_eq_nil_iff.2, List.append_nil]
      · simp
      · intro k hk
        rw [decide_eq_true_eq]
        rintro rfl
        exact hadm.2.1 hk
    rw [hundone, removeMember_of_some hedit.lookup, if_pos ⟨Or.inr rfl, hne⟩]
    exact (hedit.put _).agree List.Perm.refl he
      ⟨rfl, rfl, rfl, rfl, by rw [hfilter]⟩
  · rw [undoneCircles_of_refused (step_join_refused hop fun e he hadm' => hadm ⟨e, he, hadm'⟩)]
    exact CirclesAgree.refl List.Perm.refl c

/-- No other `JOIN` is undone. -/
theorem reverts_join_of_restored
    (h : CirclesRestored (undoneCircles D ctx now c (.op o txHash, time)) c) :
    CircleAct.Reverts ctx c (.op o txHash, time) := by
  simp only [CircleAct.Reverts, hop]
  intro e he hadm hadmin
  obtain ⟨c', hedit, hundone⟩ := undoneCircles_join hop D ctx txHash time now he hadm
  -- an administrator cannot leave, so the member stays
  rw [hundone, removeMember_of_some hedit.lookup, if_neg (fun hrel => hrel.2 hadmin)] at h
  have hsame := (hedit.agree_entry he h).members o.targetPubkey
  exact hadm.2.1 (hsame.1 (List.mem_append_right _ (List.mem_singleton_self _)))

end Join

/-- A key that occurs once, moved to the end. -/
theorem filter_append_perm {k : PublicKey} {l : List PublicKey} (h : l.count k = 1) :
    (l.filter (· ≠ k) ++ [k]).Perm l := by
  rw [List.perm_iff_count]
  intro a
  rw [List.count_append, List.count_singleton]
  by_cases ha : a = k
  · subst ha
    rw [List.count_eq_zero.2 (by simp), h]
    simp
  · rw [List.count_filter (by simpa using ha)]
    simpa using fun hka => ha hka.symm

section Leave

variable (hop : CircleOpType.ofUInt8 o.opType = some .leave)
include hop

/-- A refused `LEAVE` does nothing. -/
theorem step_leave_refused
    (h : ∀ e ∈ c.circles[o.circleId]?, ¬ e.Releases o.targetPubkey o.signerPubkey) :
    CircleAct.step D ctx time c (.op o txHash) = (c, []) := by
  rw [step_leave hop, removeMember_eq_none h]

/-- The key is removed, and the administrator adds it again if there is room. -/
theorem undoneCircles_leave (D : Type) [FloatArith D] (ctx : BlockCtx) (txHash : Hash)
    (time now : UInt64) (he : c.circles[o.circleId]? = some e)
    (hrel : e.Releases o.targetPubkey o.signerPubkey) :
    ∃ stamp, Edited c o.circleId
      { e with
        members := e.members.filter (· ≠ o.targetPubkey) ++
          if (e.members.filter (· ≠ o.targetPubkey)).length < maxCircleMembers then
            [o.targetPubkey] else []
        updatedAt := stamp }
      (undoneCircles D ctx now c (.op o txHash, time)) := by
  have hstep : CircleAct.step D ctx time c (.op o txHash) =
      ((c.put o.circleId { e with
          members := e.members.filter (· ≠ o.targetPubkey), updatedAt := time }).markTxProcessed
        o.circleId txHash, [.circleLeave o.circleId o.targetPubkey (some e.adminPubkey)]) := by
    rw [step_leave hop, removeMember_of_some he, if_pos hrel]
    simp only [CircleRegistry.getCircle, he, Option.map_some]
  have hedit := (edited_put c o.circleId { e with
    members := e.members.filter (· ≠ o.targetPubkey), updatedAt := time }).mark txHash
  rw [undoneCircles_of_step hstep]
  rw [undoCircles, addMember_of_some hedit.lookup]
  by_cases hroom : (e.members.filter (· ≠ o.targetPubkey)).length < maxCircleMembers
  · have hadm : ({ e with members := e.members.filter (· ≠ o.targetPubkey), updatedAt := time } :
        CircleEntry).Admits o.targetPubkey e.adminPubkey := ⟨rfl, by simp, hroom⟩
    rw [if_pos hadm, if_pos hroom]
    exact ⟨now, hedit.put _⟩
  · have hadm : ¬ ({ e with
        members := e.members.filter (· ≠ o.targetPubkey), updatedAt := time } :
          CircleEntry).Admits o.targetPubkey e.adminPubkey := fun hadm => hroom hadm.2.2
    rw [if_neg hadm, if_neg hroom, List.append_nil]
    exact ⟨time, hedit⟩

/-- A `LEAVE` that reverts leaves circles that agree. -/
theorem agree_leave (h : CircleAct.Reverts ctx c (.op o txHash, time)) :
    CirclesAgree List.Perm (undoneCircles D ctx now c (.op o txHash, time)) c := by
  simp only [CircleAct.Reverts, hop] at h
  by_cases hrel : ∃ e, c.circles[o.circleId]? = some e ∧ e.Releases o.targetPubkey o.signerPubkey
  · obtain ⟨e, he, hrel⟩ := hrel
    obtain ⟨stamp, hedit⟩ := undoneCircles_leave hop D ctx txHash time now he hrel
    obtain ⟨hcount, hroom⟩ := h e he hrel
    refine hedit.agree List.Perm.refl he ⟨rfl, rfl, rfl, rfl, ?_⟩
    by_cases hmem : o.targetPubkey ∈ e.members
    · have hone : e.members.count o.targetPubkey = 1 :=
        Nat.le_antisymm hcount (List.count_pos_iff.2 hmem)
      rw [if_pos (hroom.1 hmem)]
      exact filter_append_perm hone
    · have hfilter : e.members.filter (· ≠ o.targetPubkey) = e.members := by
        rw [List.filter_eq_self]
        intro k hk
        rw [decide_eq_true_eq]
        rintro rfl
        exact hmem hk
      rw [if_neg (fun hlt => hmem (hroom.2 hlt)), List.append_nil, hfilter]
  · rw [undoneCircles_of_refused (step_leave_refused hop fun e he hrel' => hrel ⟨e, he, hrel'⟩)]
    exact CirclesAgree.refl List.Perm.refl c

/-- No other `LEAVE` is undone. -/
theorem reverts_leave_of_restored (hnodup : ∀ e ∈ c.circles[o.circleId]?, e.members.Nodup)
    (h : CirclesRestored (undoneCircles D ctx now c (.op o txHash, time)) c) :
    CircleAct.Reverts ctx c (.op o txHash, time) := by
  simp only [CircleAct.Reverts, hop]
  intro e he hrel
  refine ⟨List.nodup_iff_count_le_one.1 (hnodup e he) _, ?_⟩
  obtain ⟨stamp, hedit⟩ := undoneCircles_leave hop D ctx txHash time now he hrel
  have hsame := (hedit.agree_entry he h).members o.targetPubkey
  rw [← hsame, List.mem_append]
  by_cases hroom : (e.members.filter (· ≠ o.targetPubkey)).length < maxCircleMembers
  · rw [if_pos hroom]
    exact iff_of_true (Or.inr (List.mem_singleton_self _)) hroom
  · rw [if_neg hroom]
    exact iff_of_false (by simp) hroom

end Leave

/-! A new administrator, and the end of a circle -/

/-- A refused `CHANGE_ADMIN` does nothing. -/
theorem step_changeAdmin_refused (hop : CircleOpType.ofUInt8 o.opType = some .changeAdmin)
    (h : ∀ e ∈ c.circles[o.circleId]?,
      ¬ (e.adminPubkey = o.signerPubkey ∧ o.targetPubkey ∈ e.members)) :
    CircleAct.step D ctx time c (.op o txHash) = (c, []) := by
  rw [step_changeAdmin hop, changeAdmin_eq_none h]

/-- A `CHANGE_ADMIN` is undone. -/
theorem agree_changeAdmin (hop : CircleOpType.ofUInt8 o.opType = some .changeAdmin) :
    CirclesAgree List.Perm (undoneCircles D ctx now c (.op o txHash, time)) c := by
  by_cases hchange : ∃ e, c.circles[o.circleId]? = some e ∧ e.adminPubkey = o.signerPubkey ∧
      o.targetPubkey ∈ e.members
  · obtain ⟨e, he, hchange⟩ := hchange
    have hstep : CircleAct.step D ctx time c (.op o txHash) =
        ((c.put o.circleId { e with
            adminPubkey := o.targetPubkey, updatedAt := time }).markTxProcessed o.circleId txHash,
          [.circleChangeAdmin o.circleId o.targetPubkey (some e.adminPubkey)]) := by
      rw [step_changeAdmin hop, changeAdmin_of_some he, if_pos hchange]
      simp only [CircleRegistry.getCircle, he, Option.map_some]
    have hedit := (edited_put c o.circleId { e with
      adminPubkey := o.targetPubkey, updatedAt := time }).mark txHash
    rw [undoneCircles_of_step hstep, undoCircles, setAdmin_of_some hedit.lookup]
    exact (hedit.put _).agree List.Perm.refl he ⟨rfl, rfl, rfl, rfl, List.Perm.refl _⟩
  · rw [undoneCircles_of_refused (step_changeAdmin_refused hop fun e he h => hchange ⟨e, he, h⟩)]
    exact CirclesAgree.refl List.Perm.refl c

section Disband

variable (hop : CircleOpType.ofUInt8 o.opType = some .disband)
include hop

/-- A refused `DISBAND` does nothing. -/
theorem step_disband_refused (h : ∀ e ∈ c.circles[o.circleId]?, e.adminPubkey ≠ o.signerPubkey) :
    CircleAct.step D ctx time c (.op o txHash) = (c, []) := by
  rw [step_disband hop]
  cases he : c.circles[o.circleId]? with
  | none => rw [disbandCircle_of_none he]
  | some e => rw [disbandCircle_of_some he, if_neg (h e he)]

/-- A circle that is disbanded is put back as its entry says. -/
theorem undoneCircles_disband (D : Type) [FloatArith D] (ctx : BlockCtx) (txHash : Hash)
    (time now : UInt64) (he : c.circles[o.circleId]? = some e)
    (hadmin : e.adminPubkey = o.signerPubkey) :
    undoneCircles D ctx now c (.op o txHash, time) =
      { c with
        circles := (c.circles.erase o.circleId).insert e.circleId e
        nameToId := (c.nameToId.erase e.name).insert e.name e.circleId } := by
  have hstep : CircleAct.step D ctx time c (.op o txHash) =
      ({ c with circles := c.circles.erase o.circleId, nameToId := c.nameToId.erase e.name },
        [.circleDisband o.circleId o.targetPubkey (some e)]) := by
    rw [step_disband hop, disbandCircle_of_some he, if_pos hadmin]
    simp only [CircleRegistry.getCircle, he]
  rw [undoneCircles_of_step hstep]
  rfl

/-- A `DISBAND` that reverts leaves nothing. -/
theorem undoneCircles_disband_eq (h : CircleAct.Reverts ctx c (.op o txHash, time)) :
    undoneCircles D ctx now c (.op o txHash, time) = c := by
  simp only [CircleAct.Reverts, hop] at h
  by_cases hadmin : ∃ e, c.circles[o.circleId]? = some e ∧ e.adminPubkey = o.signerPubkey
  · obtain ⟨e, he, hadmin⟩ := hadmin
    obtain ⟨hid, hname⟩ := h e he hadmin
    rw [undoneCircles_disband hop D ctx txHash time now he hadmin, hid,
      insert_erase_of_present he, insert_erase_of_present hname]
  · exact undoneCircles_of_refused (step_disband_refused hop fun e he h => hadmin ⟨e, he, h⟩)

/-- No other `DISBAND` is undone. -/
theorem reverts_disband_of_restored
    (h : CirclesRestored (undoneCircles D ctx now c (.op o txHash, time)) c) :
    CircleAct.Reverts ctx c (.op o txHash, time) := by
  simp only [CircleAct.Reverts, hop]
  intro e he hadmin
  rw [undoneCircles_disband hop D ctx txHash time now he hadmin] at h
  have hid : e.circleId = o.circleId := by
    by_contra hne
    have hgone : c.circles[o.circleId]? = none := by
      refine h.lookup_none ?_
      rw [ExtTreeMap.getElem?_insert, ExtTreeMap.getElem?_erase_self, if_neg (by simpa using hne)]
    rw [Option.mem_def.1 he] at hgone
    cases hgone
  refine ⟨hid, ?_⟩
  rw [← h.names, ← hid]
  exact ExtTreeMap.getElem?_insert_self

end Disband

/-! Votes -/

section Propose

variable (hop : VoteOpType.ofUInt8 v.opType = some .proposeChangeAdmin)
include hop

/-- A proposal stays. -/
theorem undoneCircles_propose :
    undoneCircles D ctx now c (.vote v, time) =
      if ∃ e, c.circles[v.circleId]? = some e ∧ v.signerPubkey ∈ e.members ∧
          e.adminPubkey ≠ v.targetPubkey ∧ v.targetPubkey ∈ e.members then
        { c with proposals :=
            c.proposals.insert (proposalOf ctx v).proposalId (proposalOf ctx v) }
      else c := by
  rw [undoneCircles_of_step (step_propose hop)]
  show (c.createProposal _ _ _ _ _).1 = _
  unfold CircleRegistry.createProposal
  cases he : c.circles[v.circleId]? with
  | none => simp
  | some e =>
    dsimp only
    by_cases hmay : v.signerPubkey ∈ e.members ∧ e.adminPubkey ≠ v.targetPubkey ∧
        v.targetPubkey ∈ e.members
    · rw [if_neg, if_pos ⟨e, rfl, hmay⟩]
      · rfl
      · rintro (h | h | h)
        · exact h hmay.1
        · exact hmay.2.1 h
        · exact h hmay.2.2
    · rw [if_pos, if_neg]
      · rintro ⟨e', he', hmay'⟩
        cases he'
        exact hmay hmay'
      · by_contra hno
        push Not at hno
        exact hmay ⟨hno.1, hno.2.1, hno.2.2⟩

/-- A proposal that reverts leaves nothing. -/
theorem undoneCircles_propose_eq (h : CircleAct.Reverts ctx c (.vote v, time)) :
    undoneCircles D ctx now c (.vote v, time) = c := by
  simp only [CircleAct.Reverts, hop] at h
  rw [undoneCircles_propose hop]
  split
  case isTrue hmay =>
    obtain ⟨e, he, hsigner, hadmin, htarget⟩ := hmay
    rw [insert_of_present (h e he hsigner hadmin htarget)]
  case isFalse => rfl

/-- No other proposal is undone. -/
theorem reverts_propose_of_restored
    (h : CirclesRestored (undoneCircles D ctx now c (.vote v, time)) c) :
    CircleAct.Reverts ctx c (.vote v, time) := by
  simp only [CircleAct.Reverts, hop]
  intro e he hsigner hadmin htarget
  rw [undoneCircles_propose hop, if_pos ⟨e, he, hsigner, hadmin, htarget⟩] at h
  rw [← h.proposals]
  exact ExtTreeMap.getElem?_insert_self

end Propose

/-- A vote that reverts leaves nothing. -/
theorem undoneCircles_castVote_eq (hop : VoteOpType.ofUInt8 v.opType = some .castVote)
    (h : CircleAct.Reverts ctx c (.vote v, time)) :
    undoneCircles D ctx now c (.vote v, time) = c := by
  simp only [CircleAct.Reverts, hop] at h
  refine undoneCircles_of_refused ?_
  have hrefused : c.castVote v.proposalId v.signerPubkey v.voteYes ctx.height = none := by
    refine Option.eq_none_iff_forall_ne_some.2 fun c' hc => ?_
    obtain ⟨⟨p, e, hp, hopen, he, hmem⟩, hnew, -⟩ := castVote_eq_some_iff.1 hc
    exact h p hp hopen e he hmem hnew
  rw [step_castVote hop, hrefused]

/-- A vote that counts stays. -/
theorem reverts_castVote_of_restored (hop : VoteOpType.ofUInt8 v.opType = some .castVote)
    (h : CirclesRestored (undoneCircles D ctx now c (.vote v, time)) c) :
    CircleAct.Reverts ctx c (.vote v, time) := by
  simp only [CircleAct.Reverts, hop]
  intro p hp hopen e he hmem hnone
  let key := CircleRegistry.voteKey v.proposalId v.signerPubkey
  let entry : VoteEntry := ⟨v.proposalId, v.signerPubkey, v.voteYes, ctx.height⟩
  have hcast : c.castVote v.proposalId v.signerPubkey v.voteYes ctx.height =
      some { c with votes := c.votes.insert key entry } := by
    exact castVote_eq_some_iff.2 ⟨⟨p, e, hp, hopen, he, hmem⟩, hnone, rfl⟩
  have hstep : CircleAct.step D ctx time c (.vote v) =
      ({ c with votes := c.votes.insert key entry }, [.circleVote v.circleId v.targetPubkey]) := by
    rw [step_castVote hop, hcast]
  rw [undoneCircles_of_step hstep] at h
  have hvotes : c.votes.insert key entry = c.votes := h.votes
  have hself : (c.votes.insert key entry)[key]? = some entry := ExtTreeMap.getElem?_insert_self
  rw [hvotes, hnone] at hself
  cases hself

section Finalize

variable (hop : VoteOpType.ofUInt8 v.opType = some .finalizeVote)
include hop

/-- A decision is not undone. -/
theorem undoneCircles_finalizeVote :
    undoneCircles D ctx now c (.vote v, time) =
      (c.finalizeVote D v.proposalId ctx.height time).1 := by
  rw [undoneCircles_of_step (step_finalizeVote hop)]
  rfl

/-- A decision that reverts leaves nothing. -/
theorem undoneCircles_finalizeVote_eq (h : CircleAct.Reverts ctx c (.vote v, time)) :
    undoneCircles D ctx now c (.vote v, time) = c := by
  simp only [CircleAct.Reverts, hop] at h
  rw [undoneCircles_finalizeVote hop]
  have hclosing := voteClosing D c v.proposalId ctx.height time
  generalize c.finalizeVote D v.proposalId ctx.height time = out at hclosing ⊢
  -- a vote that is closed was neither pending nor without a circle
  have hover : ∀ {p : ProposalEntry} {e : CircleEntry}, c.proposals[v.proposalId]? = some p →
      p.isOpen = true → ¬ p.Pending ctx.height → c.circles[p.circleId]? = some e → False := by
    intro p e hp hopen hpending he
    obtain hstill | hnone := h p hp hopen
    · exact hpending hstill
    · rw [hnone] at he
      cases he
  cases hclosing with
  | idle => rfl
  | lost _ hp hopen hpending he | recalled hp hopen hpending he
  | carried hp hopen hpending he => exact (hover hp hopen hpending he).elim

/-- Closing a vote changes the proposal. -/
theorem reverts_finalizeVote_of_restored
    (h : CirclesRestored (undoneCircles D ctx now c (.vote v, time)) c) :
    CircleAct.Reverts ctx c (.vote v, time) := by
  simp only [CircleAct.Reverts, hop]
  rw [undoneCircles_finalizeVote hop] at h
  have hclosing := voteClosing D c v.proposalId ctx.height time
  generalize c.finalizeVote D v.proposalId ctx.height time = out at hclosing h
  have hsame : ∀ {p p' : ProposalEntry}, c.proposals[v.proposalId]? = some p →
      out.1.proposals = c.proposals.insert v.proposalId p' → p' = p := by
    intro p p' hp hset
    rw [← h.proposals, hset, ExtTreeMap.getElem?_insert_self] at hp
    exact Option.some.inj hp
  -- none of the states that a closed vote gets is that of an open one at the same call
  have hclosed : ∀ {p : ProposalEntry} {status : UInt8}, p.isOpen = true → p.status = status →
      status ≠ 2 ∧ status ≠ 3 := by
    rintro p _ hopen rfl
    unfold ProposalEntry.isOpen at hopen
    constructor
    · intro hs
      simp [hs] at hopen
    · intro hs
      simp [hs] at hopen
  cases hclosing with
  | idle hidle => exact fun p hp hopen => (hidle p hp hopen).1
  | lost _ hp hopen => exact absurd rfl (hclosed hopen (congrArg (·.status) (hsame hp rfl)).symm).2
  | carried hp hopen =>
    exact absurd rfl (hclosed hopen (congrArg (·.status) (hsame hp rfl)).symm).1
  | recalled hp _ _ _ hfirst =>
    have hcall := congrArg (·.convocation) (hsame hp rfl)
    rw [hfirst] at hcall
    cases hcall

end Finalize

/-! ### All operations -/

/-- The octet of the payload names an operation. -/
def CircleAct.Named : CircleAct → Prop
  | op o _ => CircleOpType.ofUInt8 o.opType ≠ none
  | vote v => VoteOpType.ofUInt8 v.opType ≠ none

instance (a : CircleAct) : Decidable a.Named := by
  cases a <;> (unfold CircleAct.Named; infer_instance)

/-- **One operation that reverts is undone.** -/
theorem agree_of_reverts (h : CircleAct.Reverts ctx c a) :
    CirclesAgree List.Perm (undoneCircles D ctx now c a) c := by
  have hrefl := CirclesAgree.refl List.Perm.refl c
  obtain ⟨a, time⟩ := a
  cases a with
  | op o txHash =>
    match hop : CircleOpType.ofUInt8 o.opType with
    | some .create => rwa [undoneCircles_create_eq hop h]
    | some .join => exact agree_join hop h
    | some .leave => exact agree_leave hop h
    | some .changeAdmin => exact agree_changeAdmin hop
    | some .disband => rwa [undoneCircles_disband_eq hop h]
    | none =>
      unfold CircleAct.Reverts at h
      simp only [hop] at h
  | vote v =>
    match hop : VoteOpType.ofUInt8 v.opType with
    | some .proposeChangeAdmin => rwa [undoneCircles_propose_eq hop h]
    | some .castVote => rwa [undoneCircles_castVote_eq hop h]
    | some .finalizeVote => rwa [undoneCircles_finalizeVote_eq hop h]
    | none =>
      unfold CircleAct.Reverts at h
      simp only [hop] at h

/-- **One operation that is undone reverts.** -/
theorem reverts_of_restored (hnamed : a.1.Named)
    (hnodup : ∀ (cid : Hash) (e : CircleEntry), c.circles[cid]? = some e → e.members.Nodup)
    (h : CirclesRestored (undoneCircles D ctx now c a) c) : CircleAct.Reverts ctx c a := by
  obtain ⟨a, time⟩ := a
  cases a with
  | op o txHash =>
    match hop : CircleOpType.ofUInt8 o.opType with
    | some .create => exact reverts_create_of_restored hop h
    | some .join => exact reverts_join_of_restored hop h
    | some .leave => exact reverts_leave_of_restored hop (hnodup _) h
    | some .changeAdmin =>
      unfold CircleAct.Reverts
      simp only [hop]
    | some .disband => exact reverts_disband_of_restored hop h
    | none => exact absurd hop hnamed
  | vote v =>
    match hop : VoteOpType.ofUInt8 v.opType with
    | some .proposeChangeAdmin => exact reverts_propose_of_restored hop h
    | some .castVote => exact reverts_castVote_of_restored hop h
    | some .finalizeVote => exact reverts_finalizeVote_of_restored hop h
    | none => exact absurd hop hnamed

end

end Mevacoin.Trust
