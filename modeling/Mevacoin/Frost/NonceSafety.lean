import Mevacoin.Frost.StepShape

/-!
# Nonce safety over runs

Whoever signs twice with one nonce pair, or with a pair others know, gives its share away.
-/

namespace Mevacoin.Frost

open Lib Std

section

variable {ℓ : ℕ} {G : Type} [AddCommGroup G] [Module (ZMod ℓ) G]
variable (cv : Curve ℓ G) (nk : NodeKey ℓ) (rng : ℕ → NoncePair ℓ)

/-- A signature that is safe to emit after the events `before`: its nonce pair is the `i`-th draw,
made for this ballot; the pair's commitments are what the ballot stores for the node and what `ρ`
and `R` are computed from; and no signature before it used that draw. -/
structure SafeSigning (before : List (Event ℓ)) (s : Signing ℓ) : Prop where
  drawn : ∃ i, s.draw = some i ∧ s.nonce = rng i ∧ .drew s.ballotKey i ∈ before
  stored : s.own = some (nonceCommitments cv s.nonce)
  listed : s.participants[s.ownPos]? = some nk.nodeIndex ∧
    s.comms[s.ownPos]? = some (nonceCommitments cv s.nonce)
  bound : computeBindingFactors cv s.participants s.msgHash s.comms = some s.rho ∧
    computeAggregateR cv s.comms s.rho = some s.aggR
  computed : ∃ lambda r, s.rho[s.ownPos]? = some r ∧
    s.sig = signPartial cv nk.nodeIndex s.msgHash s.nonce nk.nodeSk lambda r s.aggR nk.groupPubkey
  fresh : ∀ s', .signed s' ∈ before → s'.draw ≠ s.draw

/-- Every signature among the events was safe when it was emitted. -/
def NoncesSafe (evs : List (Event ℓ)) : Prop :=
  ∀ before s after, evs = before ++ .signed s :: after → SafeSigning cv nk rng before s

variable {cv nk rng}

/-- Quiet events are safe. -/
theorem NoncesSafe.append_quiet {evs new : List (Event ℓ)} (h : NoncesSafe cv nk rng evs)
    (hq : ∀ s, .signed s ∉ new) : NoncesSafe cv nk rng (evs ++ new) := by
  intro before s after heq
  obtain ⟨mid, rfl, hr⟩ | ⟨mid, rfl, hr⟩ := List.append_eq_append_iff.mp heq
  · exact absurd (hr ▸ by simp) (hq s)
  · cases mid with
    | nil => exact absurd (List.nil_append new ▸ hr ▸ by simp) (hq s)
    | cons e mid =>
      obtain ⟨rfl, rfl⟩ : Event.signed s = e ∧ after = mid ++ new := by simpa using hr
      exact h before s mid rfl

/-- A safe signing is safe. -/
theorem NoncesSafe.append_signed {evs : List (Event ℓ)} {s : Signing ℓ}
    (h : NoncesSafe cv nk rng evs) (hs : SafeSigning cv nk rng evs s) :
    NoncesSafe cv nk rng (evs ++ [.signed s]) := by
  intro before s' after heq
  obtain rfl | ⟨after, last, rfl⟩ := after.eq_nil_or_concat'
  · obtain ⟨rfl, hl⟩ := List.append_inj' heq rfl
    cases hl
    exact hs
  · rw [← List.cons_append, ← List.append_assoc] at heq
    exact h before s' after (List.append_inj' heq rfl).1

/-- The invariant of a run: where nonces come from, that draws are not shared and not used before
their ballot is signed, and that what has been signed was safe. -/
structure NonceInv (cv : Curve ℓ G) (nk : NodeKey ℓ) (rng : ℕ → NoncePair ℓ) (st : State ℓ)
    (evs : List (Event ℓ)) : Prop where
  drawn : ∀ k i, (st.ballot k).myDraw = some i →
    i < st.draws ∧ (st.ballot k).myNonces = rng i ∧ .drew k i ∈ evs
  slot : ∀ k e, (st.ballot k).nonces[nk.nodeIndex]? = some e →
    (st.ballot k).myDraw.isSome = true ∧ e = nonceCommitments cv (st.ballot k).myNonces
  apart : ∀ k k' i, (st.ballot k).myDraw = some i → (st.ballot k').myDraw = some i → k = k'
  unused : ∀ k i, (st.ballot k).myDraw = some i →
    (st.ballot k).partials.contains nk.nodeIndex = false →
      ∀ s, .signed s ∈ evs → s.draw ≠ some i
  used : ∀ s i, .signed s ∈ evs → s.draw = some i → i < st.draws
  safe : NoncesSafe cv nk rng evs

/-- Nothing was drawn. -/
theorem nonceInv_init : NonceInv cv nk rng {} [] where
  drawn := by intro k i h; simp [State.ballot] at h
  slot := by intro k e h; simp [State.ballot] at h
  apart := by intro k k' i h; simp [State.ballot] at h
  unused := by intro k i h; simp [State.ballot] at h
  used := by simp
  safe := by intro before s after h; simp at h

variable {st st' : State ℓ} {evs new : List (Event ℓ)}

/-- Steps that sign nothing, keep the own nonces of every ballot they do not drop
and at most draw keep the invariant. -/
theorem NonceInv.keep (h : NonceInv cv nk rng st evs) (hd : st.draws ≤ st'.draws)
    (hb : ∀ k, SameOwn nk (st.ballot k) (st'.ballot k) ∨ st'.ballot k = {})
    (hq : ∀ s, .signed s ∉ new) : NonceInv cv nk rng st' (evs ++ new) := by
  have hdraw : ∀ k i, (st'.ballot k).myDraw = some i →
      (st.ballot k).myDraw = some i ∧ SameOwn nk (st.ballot k) (st'.ballot k) := by
    intro k i hi
    obtain hs | he := hb k
    · exact ⟨hs.draw ▸ hi, hs⟩
    · simp [he] at hi
  have hmem : ∀ s, .signed s ∈ evs ++ new → .signed s ∈ evs := fun s hs =>
    (List.mem_append.mp hs).resolve_right (hq s)
  constructor
  case drawn =>
    intro k i hi
    obtain ⟨hi, hs⟩ := hdraw k i hi
    obtain ⟨hlt, hn, he⟩ := h.drawn k i hi
    exact ⟨by omega, hs.nonces.trans hn, List.mem_append_left _ he⟩
  case slot =>
    intro k e he
    obtain hs | hk := hb k
    · obtain ⟨h1, h2⟩ := h.slot k e (hs.slot ▸ he)
      exact ⟨hs.draw ▸ h1, hs.nonces ▸ h2⟩
    · simp [hk] at he
  case apart =>
    intro k k' i hi hi'
    exact h.apart k k' i (hdraw k i hi).1 (hdraw k' i hi').1
  case unused =>
    intro k i hi hns s hs
    obtain ⟨hi, hsame⟩ := hdraw k i hi
    refine h.unused k i hi ?_ s (hmem s hs)
    by_contra hc
    rw [hsame.sig (by simpa using hc)] at hns
    cases hns
  case used =>
    intro s i hs hi
    have := h.used s i (hmem s hs) hi
    omega
  case safe => exact h.safe.append_quiet hq

/-- Installing a new draw keeps the invariant: no other ballot and no signature has it. -/
theorem NonceInv.install (h : NonceInv cv nk rng st evs) (key : Hash) (b : Ballot ℓ)
    (hq : ∀ s, .signed s ∉ new) (hdrew : .drew key st.draws ∈ new) :
    NonceInv cv nk rng (({ st with draws := st.draws + 1 }).put key
      (Ballot.install cv nk rng b st.draws)) (evs ++ new) := by
  have hmem : ∀ s, .signed s ∈ evs ++ new → .signed s ∈ evs := fun s hs =>
    (List.mem_append.mp hs).resolve_right (hq s)
  have hne : ∀ k, key ≠ k → (({ st with draws := st.draws + 1 }).put key
      (Ballot.install cv nk rng b st.draws)).ballot k = st.ballot k := fun k hk =>
    State.ballot_put_of_ne _ _ hk
  constructor
  case drawn =>
    intro k i hi
    by_cases hk : key = k
    · subst hk
      obtain rfl : st.draws = i := by simpa [Ballot.install] using hi
      exact ⟨by simp, by simp [Ballot.install], List.mem_append_right _ hdrew⟩
    · rw [hne k hk] at hi ⊢
      obtain ⟨hlt, hn, he⟩ := h.drawn k i hi
      exact ⟨by simp; omega, hn, List.mem_append_left _ he⟩
  case slot =>
    intro k e he
    by_cases hk : key = k
    · subst hk
      simp [Ballot.install] at he ⊢
      exact he.symm
    · rw [hne k hk] at he ⊢
      exact h.slot k e he
  case apart =>
    intro k k' i hi hi'
    by_cases hk : key = k <;> by_cases hk' : key = k'
    · exact hk.symm.trans hk'
    · subst hk
      obtain rfl : st.draws = i := by simpa [Ballot.install] using hi
      rw [hne k' hk'] at hi'
      exact absurd (h.drawn k' _ hi').1 (lt_irrefl _)
    · subst hk'
      obtain rfl : st.draws = i := by simpa [Ballot.install] using hi'
      rw [hne k hk] at hi
      exact absurd (h.drawn k _ hi).1 (lt_irrefl _)
    · rw [hne k hk] at hi
      rw [hne k' hk'] at hi'
      exact h.apart k k' i hi hi'
  case unused =>
    intro k i hi hns s hs hsi
    by_cases hk : key = k
    · subst hk
      obtain rfl : st.draws = i := by simpa [Ballot.install] using hi
      exact absurd (h.used s _ (hmem s hs) hsi) (lt_irrefl _)
    · rw [hne k hk] at hi hns
      exact h.unused k i hi hns s (hmem s hs) hsi
  case used =>
    intro s i hs hi
    have := h.used s i (hmem s hs) hi
    simp
    omega
  case safe => exact h.safe.append_quiet hq

/-- Signing a ballot that was not signed keeps the invariant: its draw is not used
yet, and no other ballot has it. -/
theorem NonceInv.sign (h : NonceInv cv nk rng st evs) {key : Hash} {b : Ballot ℓ} {s : Signing ℓ}
    (hb : SameOwn nk (st.ballot key) b)
    (hnew : (st.ballot key).partials.contains nk.nodeIndex = false)
    (hsig : b.partials.contains nk.nodeIndex = true)
    (hs : s.FromBallot cv nk key (st.ballot key)) (hq : ∀ s, .signed s ∉ new) :
    NonceInv cv nk rng (st.put key b) (evs ++ .signed s :: new) := by
  have hkeep : ∀ k, SameOwn nk (st.ballot k) ((st.put key b).ballot k) := by
    intro k
    by_cases hk : key = k
    · subst hk; simpa using hb
    · rw [State.ballot_put_of_ne _ _ hk]; exact SameOwn.refl nk _
  obtain ⟨e, he⟩ := Option.isSome_iff_exists.mp hs.isSome
  obtain ⟨hi, hcom⟩ := h.slot key e (hs.own ▸ he)
  obtain ⟨i, hi⟩ := Option.isSome_iff_exists.mp hi
  obtain ⟨hlt, hn, hdrew⟩ := h.drawn key i hi
  have hdraw : s.draw = some i := hs.draw.trans hi
  have hsafe : SafeSigning cv nk rng evs s := by
    have hown : s.own = some (nonceCommitments cv s.nonce) := by rw [he, hcom, hs.nonce]
    exact ⟨⟨i, hdraw, hs.nonce.trans hn, hs.key ▸ hdrew⟩, hown,
      ⟨hs.position, by rw [hs.comms, ← hs.own, hown]⟩, ⟨hs.rho, hs.aggR⟩, hs.sig,
      fun s' hs' => hdraw ▸ h.unused key i hi hnew s' hs'⟩
  -- the kept ballots are handled as in a step that signs nothing; what is new is `s`
  have hrest : NonceInv cv nk rng (st.put key b) (evs ++ new) :=
    h.keep le_rfl (fun k => .inl (hkeep k)) hq
  have hmem : ∀ s', .signed s' ∈ evs ++ .signed s :: new → s' = s ∨ .signed s' ∈ evs ++ new := by
    intro s' hs'
    simp only [List.mem_append, List.mem_cons, Event.signed.injEq] at hs' ⊢
    tauto
  constructor
  case drawn =>
    intro k j hj
    obtain ⟨h1, h2, h3⟩ := hrest.drawn k j hj
    exact ⟨h1, h2, by simp only [List.mem_append] at h3 ⊢; tauto⟩
  case slot => exact hrest.slot
  case apart => exact hrest.apart
  case unused =>
    intro k j hj hns s' hs'
    obtain rfl | hs' := hmem s' hs'
    · intro hsj
      obtain rfl : i = j := by simpa [hdraw] using hsj
      obtain rfl := h.apart k key i ((hkeep k).draw ▸ hj) hi
      rw [State.ballot_put_self, hsig] at hns
      cases hns
    · exact hrest.unused k j hj hns s' hs'
  case used =>
    intro s' j hs' hj
    obtain rfl | hs' := hmem s' hs'
    · obtain rfl : i = j := by simpa [hdraw] using hj
      exact hlt
    · exact hrest.used s' j hs' hj
  case safe =>
    rw [List.append_cons]
    exact (h.safe.append_signed hsafe).append_quiet hq

theorem signed_notMem (hq : ∀ e ∈ new, e.Quiet) (s : Signing ℓ) : .signed s ∉ new :=
  fun hs => hq _ hs

/-- One call that keeps the node's own slot keeps the invariant. -/
theorem nonceInv_step (st : State ℓ) (evs : List (Event ℓ)) (c : Call ℓ)
    (h : NonceInv cv nk rng st evs) (hkept : OwnSlotKept cv nk st c) :
    NonceInv cv nk rng ((broadcaster cv nk rng).step st c).1
      (evs ++ ((broadcaster cv nk rng).step st c).2) := by
  have hshape : StepShape cv nk rng st ((broadcaster cv nk rng).step st c) := step_shape c hkept
  generalize (broadcaster cv nk rng).step st c = out at hshape
  cases hshape with
  | quiet hd hb hq => exact h.keep hd.ge hb (signed_notMem hq)
  | waste key hd hb hq =>
    exact h.keep (hd ▸ Nat.le_succ _) (fun k => .inl (hb k)) (by simpa using signed_notMem hq)
  | install key b hq => exact h.install key b (by simpa using signed_notMem hq) (by simp)
  | sign key b s hb hnew hsig hs hq => exact h.sign hb hnew hsig hs (signed_notMem hq)

/-- **Nonce safety.**  In every sequence of calls that keeps the node's own slot, every partial
signature is made with a pair the node drew for that ballot, whose commitments are those stored for
the node and bound in `ρ` and `R`, and no two signatures use the same draw. -/
theorem noncesSafe_of_ownSlotKept (calls : List (Call ℓ))
    (h : (broadcaster cv nk rng).Guarded (OwnSlotKept cv nk) {} calls) :
    NoncesSafe cv nk rng ((broadcaster cv nk rng).run {} calls).2 :=
  ((broadcaster cv nk rng).run_invariant nonceInv_init nonceInv_step h).safe

/-- Whether the event is a signature with nonces that were never drawn. -/
def Event.undrawn : Event ℓ → Bool
  | .signed s => s.draw.isNone
  | _ => false

/-- Safe signatures use drawn nonces. -/
theorem NoncesSafe.not_undrawn (h : NoncesSafe cv nk rng evs) : evs.any Event.undrawn = false := by
  rw [List.any_eq_false]
  intro e he
  cases e with
  | signed s =>
    obtain ⟨before, after, rfl⟩ := List.append_of_mem he
    obtain ⟨i, hi, -⟩ := (h before s after rfl).drawn
    simp [Event.undrawn, hi]
  | _ => simp [Event.undrawn]

end

/-! ### A ballot signed with nonces nobody drew -/

/-- Signer 1, with share 4. -/
def signerOne : NodeKey 7 := ⟨true, (4 : ℕ), 1, Pod32.single 3, []⟩

/-- The pairs signer 1 draws. -/
def someDraws (i : ℕ) : NoncePair 7 := ⟨(i + 2 : ℕ), (i + 3 : ℕ)⟩

/-- The commitment of peer `i`. -/
def peerCommit (i : ℕ) : NonceEntry := nonceCommitments sevenCurve ⟨i, i + 1⟩

/-- A sign request for no outputs and participants 1, 2, 3, with the given commitments'
aggregate. -/
def signRequest (comms : List NonceEntry) : Call 7 :=
  let msg := createDistributionMessageHash sevenCurve 480 2 []
  let rho := (computeBindingFactors sevenCurve [1, 2, 3] msg comms).getD []
  let aggR := (computeAggregateR sevenCurve comms rho).getD Pod32.null
  .onReceiveSignRequest 480 2 aggR [0] [3, 1, 2, 3] 1003

/-- Signer 1 receives three commitments, the first under its own index, and is then
asked to sign. -/
def ownSlotAttack : List (Call 7) :=
  [.onReceiveNonce 480 2 1 (peerCommit 1) 1000, .onReceiveNonce 480 2 2 (peerCommit 2) 1001,
    .onReceiveNonce 480 2 3 (peerCommit 3) 1002,
    signRequest [peerCommit 1, peerCommit 2, peerCommit 3]]

/-- **A commitment sent under the node's own index makes it sign with the zero pair.** -/
theorem ownSlotAttack_unsafe :
    ¬ NoncesSafe sevenCurve signerOne someDraws
      ((broadcaster sevenCurve signerOne someDraws).run {} ownSlotAttack).2 := by
  intro h
  have hsome : ((broadcaster sevenCurve signerOne someDraws).run {} ownSlotAttack).2.any
      Event.undrawn = true := by decide +kernel
  rw [h.not_undrawn] at hsome
  cases hsome

/-- The same ballot with honest peers: signer 1 answers with its first draw. -/
def honestBallot : List (Call 7) :=
  [.onReceiveNonce 480 2 2 (peerCommit 2) 1000, .onReceiveNonce 480 2 3 (peerCommit 3) 1001,
    signRequest [nonceCommitments sevenCurve (someDraws 0), peerCommit 2, peerCommit 3]]

/-- `noncesSafe_of_ownSlotKept` applies to a run that does sign. -/
theorem honestBallot_safe :
    (broadcaster sevenCurve signerOne someDraws).Guarded (OwnSlotKept sevenCurve signerOne) {}
        honestBallot ∧
      ((broadcaster sevenCurve signerOne someDraws).run {} honestBallot).2.any
        (fun e => match e with | .signed _ => true | _ => false) = true ∧
      NoncesSafe sevenCurve signerOne someDraws
        ((broadcaster sevenCurve signerOne someDraws).run {} honestBallot).2 :=
  ⟨by decide +kernel, by decide +kernel, noncesSafe_of_ownSlotKept _ (by decide +kernel)⟩

end Mevacoin.Frost
