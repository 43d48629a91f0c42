import Mevacoin.Trust.CircleInverse

/-!
# Circles after a block is taken back

What a block that is processed and taken back leaves of the circles.
-/

namespace Mevacoin.Trust

open Lib Std

section

variable {F : Type} [FloatArith F]

omit [FloatArith F] in
/-- The sweep leaves the circles. -/
theorem expirySweep_circles (height now : UInt64) (s : Manager F) :
    (expirySweep height now s).circles = s.circles := by
  unfold expirySweep
  split <;> rfl

/-- The log of the height holds nothing about circles, and every operation of the block on circles
is one that its log entry undoes. -/
structure CirclesRevert (D : Type) [FloatArith D] (ctx : BlockCtx) (clock : BlockClock)
    (s : Manager F) : Prop where
  clear : ∀ op ∈ s.logAt ctx.height, PoppedOp.onCircles op = false
  acts : (circleMachine D ctx).Guarded (CircleAct.Reverts ctx) s.circles (circleActs D ctx clock s)

theorem filter_onCircles_eq_nil {ops : List PoppedOp}
    (h : ∀ op ∈ ops, PoppedOp.onCircles op = false) : ops.filter PoppedOp.onCircles = [] := by
  rw [List.filter_eq_nil_iff]
  intro op hop
  rw [h op hop]
  exact Bool.false_ne_true

/-- The circles go through their own operations and the undoing of those. -/
theorem rolledBack_circles (D : Type) [FloatArith D] {ctx : BlockCtx} {clock : BlockClock}
    (now : UInt64) {s : Manager F} (hinit : s.initialized = true)
    (hclear : ∀ op ∈ s.logAt ctx.height, PoppedOp.onCircles op = false) :
    (rolledBack D ctx clock now s).circles =
      (circleMachine D ctx).rollback (undoCircles now) s.circles (circleActs D ctx clock s) :=
  (circlesPart ctx now).rolledBack hinit (filter_onCircles_eq_nil hclear)
    fun s => expirySweep_circles ctx.height clock.sweep s

/-- **Circles after a block is taken back** are as they were, up to times, if every operation of the
block is one that its log entry undoes.  For a block with one operation, on circles that list no key
twice, the condition is necessary. -/
theorem circles_rolledBack (D : Type) [FloatArith D] (ctx : BlockCtx) (clock : BlockClock)
    (now : UInt64) (s : Manager F) :
    (CirclesRevert D ctx clock s →
        CirclesRestored (rolledBack D ctx clock now s).circles s.circles) ∧
      (s.initialized = true → (∀ op ∈ s.logAt ctx.height, PoppedOp.onCircles op = false) →
        ∀ a, circleActs D ctx clock s = [a] → a.1.Named →
        (∀ (cid : Hash) (e : CircleEntry), s.circles.circles[cid]? = some e → e.members.Nodup) →
        (CirclesRestored (rolledBack D ctx clock now s).circles s.circles ↔
          CircleAct.Reverts ctx s.circles a)) := by
  constructor
  · intro h
    cases hinit : s.initialized with
    | false =>
      rw [rolledBack_uninitialized hinit]
      exact CirclesAgree.refl (fun _ _ => Iff.rfl) _
    | true =>
      rw [rolledBack_circles D now hinit h.clear]
      exact ((circleMachine D ctx).rollback_related (undoCircles_congruence now)
        (fun c a h => agree_of_reverts h) h.acts).restored
  · intro hinit hclear a hacts hnamed hnodup
    have hone : (rolledBack D ctx clock now s).circles = undoneCircles D ctx now s.circles a := by
      rw [rolledBack_circles D now hinit hclear, hacts, Machine.rollback, Machine.run_cons,
        Machine.run_nil, List.append_nil]
      rfl
    rw [hone]
    exact ⟨reverts_of_restored hnamed hnodup, fun h => (agree_of_reverts h).restored⟩

end

/-! ### A refused creation that disbands a circle -/

/-- A manager with one circle, whose administrator has a key that is no point of `sevenCurve`. -/
def guildState : Manager ℚ where
  circles := ({} : CircleRegistry).restoreCircle
    ⟨Pod32.single 50, asciiBytes "guild", Pod32.single 200, [Pod32.single 200], 10, 900, 900⟩

/-- A block whose miner transaction carries an operation on circles. -/
def circleBlock (op : CircleOp) : BlockCtx where
  env := ⟨sevenCurve.crypto, fun _ => none, ⟨Pod32.null, Pod32.null⟩⟩
  block := { minerTx := { tx := { extra := (packBlob 0xA3 (CircleOp.codec.write op)).getD [] } } }
  height := 100
  hfVersion := 18

/-- A stranger asks for a name that is taken, naming the circle that has it and its
administrator. -/
def takenName : CircleOp where
  opType := 0
  circleId := Pod32.single 50
  circleName := asciiBytes "guild"
  targetPubkey := Pod32.single 200
  signerPubkey := Pod32.single 4
  signature := ⟨Pod32.single 4, Pod32.single 1⟩

/-- A circle of the key that signs. -/
def freeName : CircleOp where
  opType := 0
  circleId := Pod32.null
  circleName := asciiBytes "scouts"
  targetPubkey := Pod32.single 4
  signerPubkey := Pod32.single 4
  signature := ⟨Pod32.single 4, Pod32.single 1⟩

/-- **A refused creation disbands a circle**: its log entry makes the pop disband the circle it
names. -/
theorem takenName_disbands :
    ¬ ∀ (ctx : BlockCtx) (clock : BlockClock) (now : UInt64) (s : Manager ℚ),
        s.initialized = true → s.logAt ctx.height = [] →
        CirclesRestored (rolledBack ℚ ctx clock now s).circles s.circles := by
  intro h
  have hrestored := h (circleBlock takenName) (stillClock 2000) 2060 guildState rfl (by decide)
  have hgone : (rolledBack ℚ (circleBlock takenName) (stillClock 2000) 2060
      guildState).circles.circles[Pod32.single 50]? = none := by decide +kernel
  have hnone := hrestored.lookup_none hgone
  revert hnone
  decide +kernel

theorem freeName_reverts :
    CirclesRevert ℚ (circleBlock freeName) (stillClock 2000) guildState where
  clear := by decide
  acts := by decide +kernel

/-- A creation for the key that signs is undone. -/
theorem freeName_restored :
    (circleActs ℚ (circleBlock freeName) (stillClock 2000) guildState).length = 1 ∧
      CirclesRestored (rolledBack ℚ (circleBlock freeName) (stillClock 2000) 2060
        guildState).circles guildState.circles :=
  ⟨by decide +kernel, (circles_rolledBack ℚ (circleBlock freeName) (stillClock 2000) 2060
    guildState).1 freeName_reverts⟩

end Mevacoin.Trust
