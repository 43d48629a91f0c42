import Mevacoin.Trust.ChainHistory

/-!
# Samples and reorganisations

`on_mevatrust_block_popped` does nothing for the log entries of `0xA5` and `0xAC` payloads.
-/

namespace Mevacoin.Trust

open Lib Std

/-- The chain uptime samples and the chain proof samples. -/
structure Samples where
  uptime : ExtTreeMap Hash (List ChainUptimeSample)
  proofs : ExtTreeMap Hash (List ChainProofSample)

/-- The samples after an action. -/
def Samples.record (S : Samples) (ctx : BlockCtx) : Action → Samples
  | .node (.uptime upt) =>
    { S with
      uptime := S.uptime.insert upt.nodeId
        (Engine.appendSample ChainUptimeSample.height uptimeWindowBlocks ctx.height
          ⟨ctx.height, ctx.block.timestamp⟩ (S.uptime.getD upt.nodeId [])) }
  | .chainProof cp =>
    { S with
      proofs := S.proofs.insert cp.nodeId
        (Engine.appendSample ChainProofSample.height chainProofValidityBlocks ctx.height
          ⟨ctx.height, cp.proofHeight⟩ (S.proofs.getD cp.nodeId [])) }
  | _ => S

/-- The action records a sample. -/
def Action.recordsSample : Action → Bool
  | node (.uptime _) | chainProof _ => true
  | _ => false

theorem Samples.record_of_not_recordsSample {S : Samples} {ctx : BlockCtx} {a : Action}
    (h : a.recordsSample = false) : S.record ctx a = S := by
  cases a with
  | node a =>
    cases a with
    | uptime upt => cases h
    | _ => rfl
  | chainProof cp => cases h
  | _ => rfl

section

variable {F : Type}

/-- The samples of a node. -/
def Manager.samples (s : Manager F) : Samples :=
  ⟨s.engine.chainUptimeSamples, s.engine.chainProofSamples⟩

variable [FloatArith F] {D : Type} [FloatArith D]

/-- What an action does to the samples. -/
theorem Action.step_samples (ctx : BlockCtx) (now : UInt64) (s : Manager F) (a : Action) :
    (a.step D ctx now s).1.samples = s.samples.record ctx a := by
  cases a with
  | node a =>
    refine (Manager.logAll_project (p := Manager.samples) (fun _ _ => rfl) _ _ _).trans ?_
    cases a with
    | _ => rfl
  | circle a => exact Manager.logAll_project (p := Manager.samples) (fun _ _ => rfl) _ _ _
  | chainProof | store | poolDistribution => rfl

/-- **No pop touches the samples.** -/
theorem samples_passive : Passive D (Manager.samples : Manager F → Samples) where
  step ctx s s' a h := by
    show (a.1.step D ctx a.2 s).1.samples = (a.1.step D ctx a.2 s').1.samples
    rw [Action.step_samples, Action.step_samples, h]
  undo now s op := by
    unfold undoOp
    split <;> rfl
  log _ _ := rfl
  sweep height now s := by
    unfold Manager.samples
    rw [expirySweep_engine]

/-- **The samples are those of the chain**, after every sequence of additions and pops in which the
popped blocks are taken back and have recorded no sample. -/
theorem samples_follow_chain (F D : Type) [FloatArith F] [FloatArith D] (start : ℕ)
    (ops : List ChainOp)
    (hfollows : (chainMachine F D).Guarded (fun x op => op.Follows start x) {} ops)
    (hback : (chainMachine F D).Guarded
      (fun x op => op.TakesBack D (fun _ _ a => a.1.recordsSample = false) x) {} ops) :
    ((chainMachine F D).run {} ops).1.manager.samples =
      (replay D ((chainMachine F D).run {} ops).1.chain : Manager F).samples :=
  chain_followed samples_passive
    (fun ctx s a ha => (Action.step_samples ctx a.2 s a.1).trans
      (Samples.record_of_not_recordsSample ha)) hfollows hback

end

/-! ### A sample that stays -/

/-- A node is registered, and a block with a commitment of it is added and popped. -/
def poppedUptime : List ChainOp :=
  [.add (registrationBlock 100, stillClock 2000), .add (uptimeBlock 101, stillClock 2120),
    .pop 2200]

/-- The block of the registration is popped and comes again, and then the commitment. -/
def poppedRegistration : List ChainOp :=
  [.add (registrationBlock 100, stillClock 2000), .pop 2060,
    .add (registrationBlock 100, stillClock 2100), .add (uptimeBlock 101, stillClock 2220)]

/-- **A sample of a popped block stays.** -/
theorem popped_sample_stays :
    ¬ ∀ (start : ℕ) (ops : List ChainOp),
        (chainMachine ℚ ℚ).Guarded (fun x op => op.Follows start x) {} ops → ∀ n : Hash,
        ((chainMachine ℚ ℚ).run {} ops).1.manager.engine.chainUptimeSamples.getD n [] =
          (replay ℚ ((chainMachine ℚ ℚ).run {} ops).1.chain :
            Manager ℚ).engine.chainUptimeSamples.getD n [] := by
  intro h
  have hsame := h 100 poppedUptime (by decide +kernel) (Pod32.single 9)
  revert hsame
  decide +kernel

/-- A popped registration leaves no sample, and the commitment after it is recorded once. -/
theorem poppedRegistration_samples :
    (((chainMachine ℚ ℚ).run {} poppedRegistration).1.manager.engine.chainUptimeSamples.getD
        (Pod32.single 9) []).length = 1 ∧
      ((chainMachine ℚ ℚ).run {} poppedRegistration).1.manager.samples =
        (replay ℚ ((chainMachine ℚ ℚ).run {} poppedRegistration).1.chain : Manager ℚ).samples :=
  ⟨by decide +kernel, samples_follow_chain ℚ ℚ 100 poppedRegistration (by decide +kernel)
    (by decide +kernel)⟩

end Mevacoin.Trust
