import Mathlib.Logic.Function.Basic
import Mevacoin.Trust.Rollback
import Mevacoin.Trust.Watched

/-!
# The face of the node registry and of the badges

What a rollback has to bring back of the nodes and their badges, as functions that every operation
updates at one place.
-/

namespace Mevacoin.Trust

open Lib Std

/-- What is seen of a node. -/
structure Face (F : Type) where
  standing : Standing F
  walletAddress : Bytes
deriving DecidableEq

/-- What is seen of the nodes and of their active badges. -/
structure Faces (F : Type) where
  node : Hash → Option (Face F)
  badge : Hash × BadgeType → ℕ

section

variable {F : Type}

/-- The face an entry shows. -/
def NodeRegistryEntry.face (e : NodeRegistryEntry F) : Face F := ⟨e.standing, e.walletAddress⟩

/-- The registered nodes by their faces. -/
def NodeRegistry.faces (r : NodeRegistry F) : Hash → Option (Face F) :=
  fun n => (r.nodes[n]?).map NodeRegistryEntry.face

/-- How many active badges of a type a node has. -/
def BadgeSystem.counts (b : BadgeSystem) : Hash × BadgeType → ℕ :=
  fun p => (b.cache.getD p.1 []).countP fun bg => bg.type = p.2 && bg.isActive

/-- The faces of a registry and a badge system. -/
def facesOf (x : NodeRegistry F × BadgeSystem) : Faces F := ⟨x.1.faces, x.2.counts⟩

/-- Change the face of one node, if it is registered. -/
def changeFace (faces : Hash → Option (Face F)) (n : Hash) (g : Face F → Face F) :
    Hash → Option (Face F) :=
  Function.update faces n ((faces n).map g)

/-- No change. -/
theorem changeFace_id (faces : Hash → Option (Face F)) (n : Hash) :
    changeFace faces n id = faces := by
  unfold changeFace
  rw [Option.map_id_fun, id, Function.update_eq_self]

/-- Two changes of one face. -/
theorem changeFace_changeFace (faces : Hash → Option (Face F)) (n : Hash) (g g' : Face F → Face F) :
    changeFace (changeFace faces n g) n g' = changeFace faces n (g' ∘ g) := by
  unfold changeFace
  rw [Function.update_self, Function.update_idem, Option.map_map]

/-- A change that leaves the faces as they are leaves the face it changes. -/
theorem changeFace_eq_self_iff {faces : Hash → Option (Face F)} {n : Hash} {g : Face F → Face F} :
    changeFace faces n g = faces ↔ ∀ f ∈ faces n, g f = f := by
  unfold changeFace
  rw [Function.update_eq_self_iff]
  cases faces n with
  | none => simp
  | some f => simp

/-! ### The node registry -/

namespace NodeRegistry

variable {r : NodeRegistry F} {n : Hash}

/-- A rewritten entry changes one face. -/
theorem faces_modify {f : NodeRegistryEntry F → NodeRegistryEntry F} {g : Face F → Face F}
    (hf : ∀ e, (f e).face = g e.face) : ((r.modify n f).getD r).faces = changeFace r.faces n g := by
  funext k
  unfold faces changeFace
  rw [modify_nodes, Function.update_apply]
  by_cases hk : n = k
  · subst hk
    rw [if_pos rfl, if_pos rfl, Option.map_map, Option.map_map]
    congr 1
    funext e
    exact hf e
  · rw [if_neg hk, if_neg (Ne.symm hk)]

/-- A rewrite that does not show. -/
theorem faces_modify_of_eq {f : NodeRegistryEntry F → NodeRegistryEntry F}
    (hf : ∀ e, (f e).face = e.face) : ((r.modify n f).getD r).faces = r.faces := by
  rw [faces_modify (g := id) hf, changeFace_id]

/-- A new status shows. -/
theorem faces_updateNodeStatus (s : NodeStatus) (reason : Bytes) (now : UInt64) :
    ((r.updateNodeStatus n s reason now).getD r).faces =
      changeFace r.faces n fun f => { f with standing := { f.standing with status := s } } :=
  faces_modify fun _ => rfl

/-- The validator flag shows. -/
theorem faces_updateNodeValidator (isVal : Bool) (since amount now : UInt64) :
    ((r.updateNodeValidator n isVal since amount now).getD r).faces =
      changeFace r.faces n fun f => { f with standing := { f.standing with validator := isVal } } :=
  faces_modify fun _ => rfl

/-- A new reputation shows. -/
theorem faces_updateReputation [FloatArith F] (d : F) (now : UInt64) :
    ((r.updateReputation n d now).getD r).faces = changeFace r.faces n fun f =>
      { f with standing := { f.standing with
        reputation := clamp01 (FloatArith.add f.standing.reputation d) } } :=
  faces_modify fun _ => rfl

/-- Sync data do not show. -/
theorem faces_updateNodeSync (height : UInt64) (synced : Bool) (now : UInt64) :
    ((r.updateNodeSync n height synced now).getD r).faces = r.faces :=
  faces_modify_of_eq fun _ => rfl

/-- Challenge counters do not show. -/
theorem faces_updateNodeChallengeResult (ok : Bool) (now : UInt64) :
    ((r.updateNodeChallengeResult n ok now).getD r).faces = r.faces :=
  faces_modify_of_eq fun _ => rfl

/-- A node that is heard of is active. -/
theorem faces_recordUptimeEvent (ts : UInt64) (peers : UInt32) :
    ((r.recordUptimeEvent n true ts peers).getD r).faces =
      changeFace r.faces n fun f => { f with standing := { f.standing with status := .active } } :=
  faces_modify fun _ => rfl

/-- A removed node has no face. -/
theorem faces_unregisterNode :
    ((r.unregisterNode n).getD r).faces = Function.update r.faces n none := by
  funext k
  unfold faces unregisterNode
  cases hn : r.nodes[n]? with
  | none =>
    by_cases hk : k = n
    · subst hk
      simp [hn]
    · simp [hk]
  | some e =>
    simp only [Option.map_some, Option.getD_some]
    rw [ExtTreeMap.getElem?_erase]
    by_cases hk : k = n
    · simp [hk]
    · simp [hk, Ne.symm hk]

/-- A registered node gets a face. -/
theorem faces_registerNodeOnchain [FloatArith F] {reg : Registration} {height : UInt64}
    {hf : UInt8} {now : UInt64} {r' : NodeRegistry F}
    (h : r.registerNodeOnchain reg height hf now = some r') :
    r.faces reg.nodeId = none ∧
      r'.faces = Function.update r.faces reg.nodeId
        (some (onchainEntry reg height now : NodeRegistryEntry F).face) := by
  obtain ⟨hnew, hnodes⟩ := registerNodeOnchain_eq_some h
  constructor
  · unfold faces
    rw [ExtTreeMap.getElem?_eq_none hnew, Option.map_none]
  · funext k
    unfold faces
    rw [hnodes, ExtTreeMap.getElem?_insert]
    by_cases hk : k = reg.nodeId
    · simp [hk]
    · simp [hk, Ne.symm hk]

end NodeRegistry

/-! ### The badges -/

namespace BadgeSystem

variable {b : BadgeSystem} {n : Hash} {t : BadgeType}

/-- A badge is had if one is active. -/
theorem hasBadge_eq_decide : b.hasBadge n t = decide (0 < b.counts (n, t)) := by
  unfold hasBadge counts
  rw [Bool.eq_iff_iff, decide_eq_true_iff, List.countP_pos_iff, List.any_eq_true]

/-- A badge is not had if none is active. -/
theorem hasBadge_eq_false_iff : b.hasBadge n t = false ↔ b.counts (n, t) = 0 := by
  rw [hasBadge_eq_decide, decide_eq_false_iff_not, Nat.not_lt, Nat.le_zero]

variable (height : UInt64) (reason : Bytes) (now : UInt64) (l : List Badge)

/-- An award makes sure that there is one. -/
theorem counts_awardBadge :
    (b.awardBadge n t height reason now).counts =
      Function.update b.counts (n, t) (max 1 (b.counts (n, t))) := by
  unfold awardBadge
  by_cases hb : b.hasBadge n t = true
  · have hpos : 1 ≤ b.counts (n, t) := by
      rw [hasBadge_eq_decide, decide_eq_true_iff] at hb
      exact hb
    rw [if_pos hb, max_eq_right hpos, Function.update_eq_self]
  · have hzero : b.counts (n, t) = 0 := hasBadge_eq_false_iff.1 (Bool.eq_false_iff.2 hb)
    rw [if_neg hb]
    funext p
    obtain ⟨m, u⟩ := p
    unfold counts at hzero ⊢
    rw [ExtTreeMap.getD_insert]
    by_cases hm : n = m
    · subst hm
      by_cases hu : u = t
      · subst hu
        simp [hzero]
      · simp [hu, Ne.symm hu]
    · simp [hm, Ne.symm hm]

/-- An award takes no badge away. -/
theorem hasBadge_awardBadge_of {m : Hash} {u : BadgeType} {height now : UInt64} {reason : Bytes}
    (h : b.hasBadge m u = true) : (b.awardBadge n t height reason now).hasBadge m u = true := by
  rw [hasBadge_eq_decide, decide_eq_true_iff] at h ⊢
  rw [counts_awardBadge, Function.update_apply]
  split_ifs
  · exact Nat.lt_of_lt_of_le Nat.one_pos (le_max_left _ _)
  · exact h

/-- An awarded badge is had. -/
theorem hasBadge_awardBadge_self (reason : Bytes) :
    (b.awardBadge n t height reason now).hasBadge n t = true := by
  rw [hasBadge_eq_decide, decide_eq_true_iff, counts_awardBadge, Function.update_self]
  exact Nat.lt_of_lt_of_le Nat.one_pos (le_max_left _ _)

/-- One badge fewer of the revoked type. -/
theorem countP_revokeFirst (u : BadgeType) (l : List Badge) :
    (revokeFirst t reason l).countP (fun bg => bg.type = u && bg.isActive) =
      if u = t then l.countP (fun bg => bg.type = t && bg.isActive) - 1
      else l.countP (fun bg => bg.type = u && bg.isActive) := by
  induction l with
  | nil => simp [revokeFirst]
  | cons bg rest ih =>
    unfold revokeFirst
    by_cases hbg : (bg.type = t && bg.isActive) = true
    · rw [if_pos hbg]
      by_cases hu : u = t
      · subst hu
        simp [hbg]
      · have htype : bg.type = t := by simpa using (Bool.and_eq_true_iff.1 hbg).1
        simp [hu, htype, Ne.symm hu]
    · rw [if_neg hbg, List.countP_cons, ih]
      by_cases hu : u = t
      · subst hu
        simp [hbg]
      · simp [List.countP_cons, hu]

/-- A revocation takes one away, if there is one. -/
theorem counts_revokeBadge :
    (b.revokeBadge n t reason).counts =
      Function.update b.counts (n, t) (b.counts (n, t) - 1) := by
  funext p
  obtain ⟨m, u⟩ := p
  unfold revokeBadge counts
  rw [Function.update_apply]
  have hget : b.cache.getD n [] = (b.cache[n]?).getD [] := ExtTreeMap.getD_eq_getD_getElem?
  cases hn : b.cache[n]? with
  | none =>
    rw [hn] at hget
    by_cases hp : (m, u) = (n, t)
    · obtain ⟨rfl, rfl⟩ := Prod.mk.inj hp
      rw [if_pos hp, hget]
      rfl
    · rw [if_neg hp]
  | some bv =>
    rw [hn, Option.getD_some] at hget
    rw [ExtTreeMap.getD_insert]
    by_cases hm : n = m
    · subst hm
      rw [hget, if_pos (LawfulEqOrd.compare_eq_iff_eq.2 rfl), countP_revokeFirst]
      by_cases hu : u = t
      · subst hu
        rw [if_pos rfl, if_pos rfl]
      · rw [if_neg hu, if_neg fun h => hu (Prod.mk.inj h).2]
    · rw [if_neg (by simpa using hm), if_neg fun h => hm (Prod.mk.inj h).1.symm]

/-- Several revocations for one node. -/
theorem counts_foldl_revokeBadge (m : Hash) (u : BadgeType) :
    (l.foldl (fun b bg => b.revokeBadge n bg.type reason) b).counts (m, u) =
      if m = n then b.counts (m, u) - l.countP (fun bg => bg.type = u) else b.counts (m, u) := by
  induction l generalizing b with
  | nil => simp
  | cons bg rest ih =>
    rw [List.foldl_cons, ih, counts_revokeBadge, List.countP_cons, Function.update_apply]
    by_cases hm : m = n
    · subst hm
      by_cases hu : u = bg.type
      · subst hu
        simp only [if_true, decide_true]
        omega
      · have hne : ¬ (m, u) = (m, bg.type) := fun h => hu (Prod.mk.inj h).2
        simp [hne, Ne.symm hu]
    · have hne : ¬ (m, u) = (n, bg.type) := fun h => hm (Prod.mk.inj h).1
      simp [hm]

end BadgeSystem

/-! ### Penalties -/

section

variable [FloatArith F] {r : NodeRegistry F} {b : BadgeSystem} {n : Hash} {offense : OffenseType}
  {now : UInt64}

/-- What a penalty makes of a face. -/
def Face.penalized (offense : OffenseType) (f : Face F) : Face F :=
  { f with standing := f.standing.penalized offense }

/-- **A penalty changes the face of the node it names.** -/
theorem faces_applyPenalty :
    (applyPenalty r b n offense now).1.faces = changeFace r.faces n (Face.penalized offense) := by
  rw [applyPenalty_registry]
  refine NodeRegistry.faces_modify fun e => ?_
  rw [NodeRegistryEntry.penalized_eq]
  rfl

/-- Malicious activity costs a registered node all its badges. -/
theorem counts_applyPenalty (m : Hash) (u : BadgeType) :
    (applyPenalty r b n offense now).2.counts (m, u) =
      if m = n ∧ offense = .maliciousActivity ∧ r.faces n ≠ none then 0 else b.counts (m, u) := by
  have hreg : r.faces n ≠ none ↔ r.nodes[n]? ≠ none := Option.map_eq_none_iff.not
  simp only [applyPenalty_badges, hreg]
  by_cases hs : offense = .maliciousActivity ∧ r.nodes[n]? ≠ none
  · rw [if_pos hs, BadgeSystem.counts_foldl_revokeBadge]
    by_cases hm : m = n
    · subst hm
      rw [if_pos rfl, if_pos ⟨rfl, hs⟩, List.countP_filter]
      exact Nat.sub_self _
    · rw [if_neg hm, if_neg fun h => hm h.1]
  · rw [if_neg hs, if_neg fun h => hs h.2]

end

end

end Mevacoin.Trust
