import Mevacoin.Frost.CallEffect
import Mevacoin.Lib.Collect

/-!
# What one call does to the node's own nonces

Calls that draw, that draw and install, that sign, and those that leave the node's own nonces alone.
-/

namespace Mevacoin.Frost

open Lib Std

section

variable {ℓ : ℕ} {G : Type} [AddCommGroup G] [Module (ZMod ℓ) G]
variable (cv : Curve ℓ G) (nk : NodeKey ℓ) (rng : ℕ → NoncePair ℓ)

/-- The ballot under a key; the default one if there is none. -/
def State.ballot (st : State ℓ) (key : Hash) : Ballot ℓ := st.ballotBox.getD key {}

variable (st : State ℓ) (key : Hash) (b : Ballot ℓ) {a : Ballot ℓ} {evs : List (Event ℓ)}
  {now : UInt64}

@[simp] theorem State.ballot_put_self : (st.put key b).ballot key = b := by
  simp [State.ballot, State.put]

theorem State.ballot_put_of_ne {key key' : Hash} (h : key ≠ key') :
    (st.put key b).ballot key' = st.ballot key' := by
  simp [State.ballot, State.put, ExtTreeMap.getD_insert, h]

@[simp] theorem State.draws_put : (st.put key b).draws = st.draws := rfl

@[simp] theorem State.ballot_draws (n : ℕ) (key : Hash) :
    State.ballot { st with draws := n } key = st.ballot key := rfl

/-- The node's own nonces, their draw and its own slot are the same, and no signature is
forgotten. -/
structure SameOwn (b b' : Ballot ℓ) : Prop where
  nonces : b'.myNonces = b.myNonces
  draw : b'.myDraw = b.myDraw
  slot : b'.nonces[nk.nodeIndex]? = b.nonces[nk.nodeIndex]?
  sig : b.partials.contains nk.nodeIndex = true → b'.partials.contains nk.nodeIndex = true

variable {nk} in
theorem SameOwn.trans {b c : Ballot ℓ} (h : SameOwn nk a b) (h' : SameOwn nk b c) :
    SameOwn nk a c :=
  ⟨h'.nonces.trans h.nonces, h'.draw.trans h.draw, h'.slot.trans h.slot,
    fun hs => h'.sig (h.sig hs)⟩

theorem SameOwn.refl : SameOwn nk b b := ⟨rfl, rfl, rfl, id⟩

/-- Fetching a ballot does not change it, its header apart. -/
theorem sameOwn_getOrCreate (h : UInt64) (p : UInt32) (now : UInt64) :
    SameOwn nk (st.ballot (makeBallotKey cv h p)) (getOrCreateBallot cv st h p now) := by
  unfold getOrCreateBallot State.ballot
  dsimp only
  split_ifs
  · exact ⟨rfl, rfl, rfl, id⟩
  · exact SameOwn.refl nk _

/-- An event that is neither a draw nor a signature. -/
@[simp] def Event.Quiet : Event ℓ → Prop
  | .drew _ _ => False
  | .signed _ => False
  | _ => True

/-- The signature was computed from what the ballot holds and from the commitments listed. -/
structure Signing.FromBallot (s : Signing ℓ) (key : Hash) (b : Ballot ℓ) : Prop where
  key : s.ballotKey = key
  draw : s.draw = b.myDraw
  nonce : s.nonce = b.myNonces
  own : s.own = b.nonces[nk.nodeIndex]?
  comms : s.comms[s.ownPos]? = b.nonces[nk.nodeIndex]?
  isSome : s.own.isSome = true
  position : s.participants[s.ownPos]? = some nk.nodeIndex
  rho : computeBindingFactors cv s.participants s.msgHash s.comms = some s.rho
  aggR : computeAggregateR cv s.comms s.rho = some s.aggR
  sig : ∃ lambda r, s.rho[s.ownPos]? = some r ∧
    s.sig = signPartial cv nk.nodeIndex s.msgHash s.nonce nk.nodeSk lambda r s.aggR nk.groupPubkey

variable {cv nk} in
/-- A signature from a ballot is one from any ballot with the same own nonces. -/
theorem Signing.FromBallot.of_sameOwn {s : Signing ℓ} {key : Hash} {b : Ballot ℓ}
    (h : s.FromBallot cv nk key b) (hab : SameOwn nk a b) : s.FromBallot cv nk key a where
  key := h.key
  draw := h.draw.trans hab.draw
  nonce := h.nonce.trans hab.nonces
  own := h.own.trans hab.slot
  comms := h.comms.trans hab.slot
  isSome := h.isSome
  position := h.position
  rho := h.rho
  aggR := h.aggR
  sig := h.sig

/-- The shapes of a call, as far as the node's own nonces go. -/
inductive StepShape (st : State ℓ) : State ℓ × List (Event ℓ) → Prop where
  /-- Every ballot keeps its own nonces or is dropped, and nothing is drawn. -/
  | quiet {st' : State ℓ} {evs : List (Event ℓ)} (hd : st'.draws = st.draws)
      (hb : ∀ k, SameOwn nk (st.ballot k) (st'.ballot k) ∨ st'.ballot k = {})
      (hq : ∀ e ∈ evs, e.Quiet) : StepShape st (st', evs)
  /-- A pair is drawn and thrown away. -/
  | waste {st' : State ℓ} {evs : List (Event ℓ)} (key : Hash) (hd : st'.draws = st.draws + 1)
      (hb : ∀ k, SameOwn nk (st.ballot k) (st'.ballot k))
      (hq : ∀ e ∈ evs, e.Quiet) : StepShape st (st', .drew key st.draws :: evs)
  /-- A pair is drawn and installed in one ballot. -/
  | install {evs : List (Event ℓ)} (key : Hash) (b : Ballot ℓ)
      (hq : ∀ e ∈ evs, e.Quiet) :
      StepShape st (({ st with draws := st.draws + 1 }).put key
        (Ballot.install cv nk rng b st.draws), .drew key st.draws :: evs)
  /-- A ballot that holds no signature of the node yet is signed. -/
  | sign {evs : List (Event ℓ)} (key : Hash) (b : Ballot ℓ) (s : Signing ℓ)
      (hb : SameOwn nk (st.ballot key) b)
      (hnew : (st.ballot key).partials.contains nk.nodeIndex = false)
      (hsig : b.partials.contains nk.nodeIndex = true)
      (hs : s.FromBallot cv nk key (st.ballot key))
      (hq : ∀ e ∈ evs, e.Quiet) : StepShape st (st.put key b, .signed s :: evs)

/-- A commitment received under the node's own index is the one already stored there. -/
def OwnSlotKept (st : State ℓ) : Call ℓ → Prop
  | .onReceiveNonce h p idx commit _ =>
    nk.hasKey = true → idx = nk.nodeIndex →
      (st.ballot (makeBallotKey cv h p)).nonces[nk.nodeIndex]? = some commit
  | _ => True

instance (st : State ℓ) (c : Call ℓ) : Decidable (OwnSlotKept cv nk st c) := by
  cases c <;> (unfold OwnSlotKept; infer_instance)

variable {cv nk rng} {st : State ℓ}

/-- Writing one ballot back with its own nonces kept is a quiet step. -/
theorem StepShape.of_put {key : Hash} {b : Ballot ℓ} (hb : SameOwn nk (st.ballot key) b)
    (hq : ∀ e ∈ evs, e.Quiet) : StepShape cv nk rng st (st.put key b, evs) := by
  refine .quiet rfl (fun k => .inl ?_) hq
  by_cases hk : key = k
  · subst hk; simpa using hb
  · rw [State.ballot_put_of_ne st b hk]; exact SameOwn.refl nk _

/-- A call that changes nothing is a quiet step. -/
theorem StepShape.of_idle (hq : ∀ e ∈ evs, e.Quiet) : StepShape cv nk rng st (st, evs) :=
  .quiet rfl (fun _ => .inl (SameOwn.refl nk _)) hq

/-- There is one binding factor for each signer. -/
theorem computeBindingFactors_length {idxs : List UInt8} {msg : Hash} {comms : List NonceEntry}
    {rho : List (ZMod ℓ)} (h : computeBindingFactors cv idxs msg comms = some rho) :
    rho.length = idxs.length := by
  unfold computeBindingFactors at h
  split at h
  · cases h
  · cases h; simp

/-- `signBallot` keeps the own nonces, and when it signs, the ballot had not been
signed and the signature comes from it. -/
theorem signBallot_cases (key : Hash) (h : UInt64) (p : UInt32) (aggR : PublicKey)
    (outputs : List (PublicKey × UInt64)) (blob : Bytes) (participants : List UInt8) {b' : Ballot ℓ}
    {r : Option (Signing ℓ)}
    (hb : signBallot cv nk b key h p aggR outputs blob participants = (b', r)) :
    SameOwn nk b b' ∧ ∀ s, r = some s → b.partials.contains nk.nodeIndex = false ∧
      b'.partials.contains nk.nodeIndex = true ∧ s.FromBallot cv nk key b := by
  unfold signBallot at hb
  split at hb
  · cases hb
    exact ⟨SameOwn.refl nk _, nofun⟩
  rename_i hnew
  dsimp only at hb
  split at hb
  · cases hb
    exact ⟨⟨rfl, rfl, rfl, id⟩, nofun⟩
  rename_i comms hcomms
  split at hb
  · cases hb
    exact ⟨⟨rfl, rfl, rfl, id⟩, nofun⟩
  rename_i rho hrho
  split at hb
  · cases hb
    exact ⟨⟨rfl, rfl, rfl, id⟩, nofun⟩
  rename_i hR
  split at hb
  · rename_i lambda r hlambda hr
    cases hb
    refine ⟨⟨rfl, rfl, rfl, fun _ => by simp⟩, ?_⟩
    rintro s ⟨rfl⟩
    have hlen : rho.length = participants.length := computeBindingFactors_length hrho
    have hmem : nk.nodeIndex ∈ participants := by
      rw [← List.idxOf_lt_length_iff, ← hlen]
      exact (List.getElem?_eq_some_iff.mp hr).1
    have hpos := List.getElem?_idxOf hmem
    have hown : comms[participants.idxOf nk.nodeIndex]? = b.nonces[nk.nodeIndex]? := by
      rw [getElem?_of_mapM hcomms, hpos]; rfl
    have hlt : participants.idxOf nk.nodeIndex < comms.length := by
      rw [length_of_mapM hcomms]
      exact List.idxOf_lt_length_iff.mpr hmem
    refine ⟨by rwa [Bool.not_eq_true] at hnew, by simp, rfl, rfl, rfl, rfl, hown, ?_, hpos, hrho,
      ?_, lambda, r, hr, rfl⟩
    · rw [← hown, List.getElem?_eq_getElem hlt]; rfl
    · simpa using hR
  · cases hb
    exact ⟨⟨rfl, rfl, rfl, id⟩, nofun⟩

/-- A ballot survives the pruning or is gone. -/
theorem pruneExpiredBallots_ballot (st : State ℓ) (now : UInt64) (k : Hash) :
    (pruneExpiredBallots st now).1.ballot k = st.ballot k ∨
      (pruneExpiredBallots st now).1.ballot k = {} := by
  simp only [pruneExpiredBallots, State.ballot, ExtTreeMap.getD_eq_getD_getElem?,
    ExtTreeMap.getElem?_filter]
  cases st.ballotBox[k]? with
  | none => exact .inr rfl
  | some b =>
    rw [Option.pfilter_some]
    split_ifs
    · exact .inl rfl
    · exact .inr rfl

/-- A ballot that is neither final nor too old survives the pruning. -/
theorem pruneExpiredBallots_keeps {k : Hash} (hf : (st.ballot k).finalized = false)
    (ha : now - (st.ballot k).firstSeenTs ≤ ballotTtlSecs) :
    (pruneExpiredBallots st now).1.ballot k = st.ballot k := by
  simp only [pruneExpiredBallots, State.ballot, ExtTreeMap.getD_eq_getD_getElem?,
    ExtTreeMap.getElem?_filter] at hf ha ⊢
  cases hk : st.ballotBox[k]? with
  | none => rfl
  | some b =>
    rw [hk, Option.getD_some] at hf ha
    rw [Option.pfilter_some, if_pos (by simpa [hf] using ha)]

/-- A commitment under another index, or once more, leaves the own slot alone. -/
theorem sameOwn_stored {h : UInt64} {p : UInt32} {idx : UInt8} {com : NonceEntry}
    (hkept : OwnSlotKept cv nk st (.onReceiveNonce h p idx com now)) (hkey : nk.hasKey = true) :
    SameOwn nk (st.ballot (makeBallotKey cv h p))
      { getOrCreateBallot cv st h p now with
        nonces := (getOrCreateBallot cv st h p now).nonces.insert idx com } := by
  have hb := sameOwn_getOrCreate cv nk st h p now
  refine hb.trans ⟨rfl, rfl, ?_, id⟩
  rw [ExtTreeMap.getElem?_insert]
  split_ifs with hidx
  · rw [hb.slot, hkept hkey (LawfulEqCmp.eq_of_compare hidx)]
  · rfl

/-- A sign request either signs a ballot that held no signature of the node, or keeps the own
nonces. -/
theorem StepShape.of_handled {h : UInt64} {p : UInt32} {aggR : PublicKey}
    {outputs : List (PublicKey × UInt64)} {outs : Bytes} {participants : List UInt8} {b : Ballot ℓ}
    {signing : Option (Signing ℓ)}
    (hsign : signBallot cv nk (getOrCreateBallot cv st h p now) (makeBallotKey cv h p) h p aggR
      outputs outs participants = (b, signing)) :
    StepShape cv nk rng st (st.put (makeBallotKey cv h p) b,
      signing.toList.map .signed ++ [.returned signing.isSome]) := by
  have hb := sameOwn_getOrCreate cv nk st h p now
  obtain ⟨hsame, hs⟩ := signBallot_cases _ _ _ _ _ _ _ _ hsign
  cases signing with
  | none => exact .of_put (hb.trans hsame) (by simp)
  | some s =>
    obtain ⟨hnew, hsig, hfrom⟩ := hs s rfl
    have hnew' : (st.ballot (makeBallotKey cv h p)).partials.contains nk.nodeIndex = false := by
      by_contra hc
      rw [Bool.not_eq_false] at hc
      rw [hb.sig hc] at hnew
      cases hnew
    exact .sign _ b s (hb.trans hsame) hnew' hsig (hfrom.of_sameOwn hb) (by simp)

/-- **Every call that keeps the node's own slot has one of the four shapes.** -/
theorem step_shape (c : Call ℓ) (hkept : OwnSlotKept cv nk st c) :
    StepShape cv nk rng st ((broadcaster cv nk rng).step st c) := by
  have heffect : CallEffect cv nk rng st c ((broadcaster cv nk rng).step st c) := call_effect c
  generalize (broadcaster cv nk rng).step st c = out at heffect
  cases heffect with
  | refused => exact .of_idle (by simp)
  | @fetched _ h p now => exact .of_put (sameOwn_getOrCreate cv nk st h p now) (by simp)
  | tooMany => exact .waste _ rfl (fun _ => SameOwn.refl nk _) (by simp)
  | @tooLate h p outputs now =>
    refine .waste _ rfl (fun k => ?_) (by simp)
    by_cases hk : makeBallotKey cv h p = k
    · subst hk
      rw [State.ballot_put_self]
      exact sameOwn_getOrCreate cv nk st h p now
    · rw [State.ballot_put_of_ne _ _ hk]
      exact SameOwn.refl nk _
  | proposed => exact .install _ _ (by simp)
  | stored hkey => exact .of_put (sameOwn_stored hkept hkey) (by simp)
  | answered => exact .install _ _ (by simp)
  | @requested h p now participants rho aggR hopen hround msg =>
    refine .of_put ((sameOwn_getOrCreate cv nk st h p now).trans ⟨rfl, rfl, rfl, id⟩) ?_
    cases msg <;> simp
  | handled _ _ _ _ hsign => exact .of_handled hsign
  | @accepted h p i sig now =>
    refine .of_put ((sameOwn_getOrCreate cv nk st h p now).trans ⟨rfl, rfl, rfl, fun hs => ?_⟩)
      (by simp)
    simp_all
  | @finished h p now =>
    exact .of_put ((sameOwn_getOrCreate cv nk st h p now).trans ⟨rfl, rfl, rfl, id⟩) (by simp)
  | pruned now =>
    refine .quiet rfl (fun k => ?_) (by simp)
    refine (pruneExpiredBallots_ballot st now k).imp_left fun h => ?_
    exact h ▸ SameOwn.refl nk _

end

end Mevacoin.Frost
