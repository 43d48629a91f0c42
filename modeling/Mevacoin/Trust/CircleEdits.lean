import Mevacoin.Trust.Rollback

/-!
# Edits of the circle registry

`Edited` says that one entry was replaced; the lemmas that end in `_of_some` give each operation as
the replacement it makes.
-/

namespace Mevacoin.Trust

open Lib Std

/-! ### Circles that agree -/

/-- Circles that agree up to times, the member lists being compared by `M`. -/
structure CircleEntry.Agree (M : List PublicKey → List PublicKey → Prop) (e e' : CircleEntry) :
    Prop where
  circleId : e.circleId = e'.circleId
  name : e.name = e'.name
  adminPubkey : e.adminPubkey = e'.adminPubkey
  createdHeight : e.createdHeight = e'.createdHeight
  members : M e.members e'.members

/-- Registries that agree up to times and processed transactions. -/
structure CirclesAgree (M : List PublicKey → List PublicKey → Prop) (c c' : CircleRegistry) :
    Prop where
  circles : ∀ cid : Hash, Option.Rel (CircleEntry.Agree M) c.circles[cid]? c'.circles[cid]?
  names : c.nameToId = c'.nameToId
  proposals : c.proposals = c'.proposals
  votes : c.votes = c'.votes

/-- The same keys. -/
def SameKeys (l l' : List PublicKey) : Prop := ∀ k, k ∈ l ↔ k ∈ l'

/-- **The circles are as they were**: identity, name, administrator, members as a set, name
index, proposals and votes. -/
def CirclesRestored (c c' : CircleRegistry) : Prop := CirclesAgree SameKeys c c'

section

variable {M : List PublicKey → List PublicKey → Prop} {c c' c'' : CircleRegistry}
  {e e' e'' : CircleEntry}

/-- Circles agree with themselves. -/
theorem CirclesAgree.refl (hM : ∀ l, M l l) (c : CircleRegistry) : CirclesAgree M c c where
  circles _ := optionRel_refl (fun e => ⟨rfl, rfl, rfl, rfl, hM e.members⟩) _
  names := rfl
  proposals := rfl
  votes := rfl

/-- Agreement of entries is transitive. -/
theorem CircleEntry.Agree.trans (hM : ∀ {l l' l''}, M l l' → M l' l'' → M l l'')
    (h : e.Agree M e') (h' : e'.Agree M e'') : e.Agree M e'' where
  circleId := h.circleId.trans h'.circleId
  name := h.name.trans h'.name
  adminPubkey := h.adminPubkey.trans h'.adminPubkey
  createdHeight := h.createdHeight.trans h'.createdHeight
  members := hM h.members h'.members

/-- Agreement of registries is transitive. -/
theorem CirclesAgree.trans (hM : ∀ {l l' l''}, M l l' → M l' l'' → M l l'')
    (h : CirclesAgree M c c') (h' : CirclesAgree M c' c'') : CirclesAgree M c c'' where
  circles cid := optionRel_trans (fun h h' => h.trans hM h') (h.circles cid) (h'.circles cid)
  names := h.names.trans h'.names
  proposals := h.proposals.trans h'.proposals
  votes := h.votes.trans h'.votes

/-- A lookup that agreement carries over: nothing stays nothing. -/
theorem CirclesAgree.lookup_none (h : CirclesAgree M c c') {cid : Hash}
    (he : c.circles[cid]? = none) : c'.circles[cid]? = none := by
  have hcid := h.circles cid
  rw [he] at hcid
  generalize c'.circles[cid]? = oe at hcid
  cases hcid
  rfl

/-- Members in another order are the same members. -/
theorem CirclesAgree.restored (h : CirclesAgree List.Perm c c') : CirclesRestored c c' where
  circles cid := optionRel_mono (fun h => ⟨h.circleId, h.name, h.adminPubkey, h.createdHeight,
    fun _ => h.members.mem_iff⟩) (h.circles cid)
  names := h.names
  proposals := h.proposals
  votes := h.votes

end

/-! ### What the operations accept -/

/-- `create_circle` takes the name. -/
def CircleRegistry.Accepts (c : CircleRegistry) (name : Bytes) : Prop :=
  name ≠ [] ∧ name.length ≤ 32 ∧ c.nameToId[name]? = none
deriving Decidable

/-- `add_member` takes the member. -/
def CircleEntry.Admits (e : CircleEntry) (member caller : PublicKey) : Prop :=
  e.adminPubkey = caller ∧ member ∉ e.members ∧ e.members.length < maxCircleMembers
deriving Decidable

/-- `remove_member` lets the member go. -/
def CircleEntry.Releases (e : CircleEntry) (member caller : PublicKey) : Prop :=
  (e.adminPubkey = caller ∨ caller = member) ∧ e.adminPubkey ≠ member
deriving Decidable

/-! ### What the operations do -/

section

variable {c c' : CircleRegistry} {cid pid : Hash} {e e' : CircleEntry} {now height : UInt64}

/-- No circle, no change. -/
theorem modify_of_none (he : c.circles[cid]? = none) (f : CircleEntry → Option CircleEntry) :
    c.modify cid f = none := by
  unfold CircleRegistry.modify
  rw [he]
  rfl

/-- A circle is changed as its entry is. -/
theorem modify_of_some (he : c.circles[cid]? = some e) (f : CircleEntry → Option CircleEntry) :
    c.modify cid f = (f e).map fun e' => { c with circles := c.circles.insert cid e' } := by
  unfold CircleRegistry.modify
  rw [he]
  simp only [Option.bind_eq_bind, Option.bind_some]
  cases f e <;> rfl

/-- An entry replaced, the rest left. -/
def CircleRegistry.put (c : CircleRegistry) (cid : Hash) (e : CircleEntry) : CircleRegistry :=
  { c with circles := c.circles.insert cid e }

/-- The second registry is the first with one entry replaced, whatever was processed. -/
structure Edited (c : CircleRegistry) (cid : Hash) (e : CircleEntry) (c' : CircleRegistry) :
    Prop where
  circles : c'.circles = c.circles.insert cid e
  names : c'.nameToId = c.nameToId
  proposals : c'.proposals = c.proposals
  votes : c'.votes = c.votes

/-- What a change was made of. -/
theorem modify_eq_some {f : CircleEntry → Option CircleEntry} (h : c.modify cid f = some c') :
    ∃ e e', c.circles[cid]? = some e ∧ f e = some e' ∧ c' = c.put cid e' := by
  obtain ⟨e, he, h⟩ := Option.bind_eq_some_iff.1 h
  obtain ⟨e', hf, h⟩ := Option.bind_eq_some_iff.1 h
  exact ⟨e, e', he, hf, (Option.some.inj h).symm⟩

/-- A replaced entry is an edit. -/
theorem edited_put (c : CircleRegistry) (cid : Hash) (e : CircleEntry) :
    Edited c cid e (c.put cid e) := ⟨rfl, rfl, rfl, rfl⟩

/-- Marking the transaction leaves an edit. -/
theorem Edited.mark (h : Edited c cid e c') (txHash : Hash) :
    Edited c cid e (c'.markTxProcessed cid txHash) := ⟨h.circles, h.names, h.proposals, h.votes⟩

/-- Two edits of one entry are one. -/
theorem Edited.put (h : Edited c cid e c') (e' : CircleEntry) :
    Edited c cid e' (c'.put cid e') where
  circles := by
    show c'.circles.insert cid e' = _
    rw [h.circles]
    ext i w
    rw [ExtTreeMap.getElem?_insert, ExtTreeMap.getElem?_insert, ExtTreeMap.getElem?_insert]
    split_ifs <;> rfl
  names := h.names
  proposals := h.proposals
  votes := h.votes

/-- What is found after an edit. -/
theorem Edited.lookup (h : Edited c cid e c') : c'.circles[cid]? = some e := by
  rw [h.circles, ExtTreeMap.getElem?_insert_self]

/-- An edit to an entry that agrees leaves circles that do. -/
theorem Edited.agree {M : List PublicKey → List PublicKey → Prop} (hM : ∀ l, M l l)
    (h : Edited c cid e' c') (he : c.circles[cid]? = some e) (hee : e'.Agree M e) :
    CirclesAgree M c' c where
  circles i := by
    rw [h.circles, ExtTreeMap.getElem?_insert]
    by_cases hi : cid = i
    · subst hi
      simpa [he] using hee
    · simpa [hi] using (CirclesAgree.refl hM c).circles i
  names := h.names
  proposals := h.proposals
  votes := h.votes

/-- What agreement says of an edited circle. -/
theorem Edited.agree_entry {M : List PublicKey → List PublicKey → Prop}
    (h : Edited c cid e' c') (he : c.circles[cid]? = some e) (hagree : CirclesAgree M c' c) :
    e'.Agree M e := by
  have hcid := hagree.circles cid
  rw [h.lookup, he] at hcid
  cases hcid with
  | some hee => exact hee

/-- `add_member` as an edit. -/
theorem addMember_of_some (he : c.circles[cid]? = some e) (member caller : PublicKey) :
    c.addMember cid member caller now =
      if e.Admits member caller then
        some (c.put cid { e with members := e.members ++ [member], updatedAt := now })
      else none := by
  unfold CircleRegistry.addMember CircleEntry.Admits
  rw [modify_of_some he]
  by_cases ha : e.adminPubkey = caller
  · by_cases hm : member ∈ e.members
    · simp [hm]
    · by_cases hl : e.members.length < maxCircleMembers
      · have hl' : ¬ maxCircleMembers ≤ e.members.length := Nat.not_le.2 hl
        simp [hm, hl, hl', CircleRegistry.put]
      · have hl' : maxCircleMembers ≤ e.members.length := Nat.not_lt.1 hl
        simp [hl]
  · simp [ha]

/-- `add_member` refuses what the circle does not admit. -/
theorem addMember_eq_none {member caller : PublicKey}
    (h : ∀ e ∈ c.circles[cid]?, ¬ e.Admits member caller) :
    c.addMember cid member caller now = none := by
  cases he : c.circles[cid]? with
  | none => exact modify_of_none he _
  | some e => rw [addMember_of_some he, if_neg (h e he)]

/-- `remove_member` as an edit. -/
theorem removeMember_of_some (he : c.circles[cid]? = some e) (member caller : PublicKey) :
    c.removeMember cid member caller now =
      if e.Releases member caller then
        some (c.put cid { e with members := e.members.filter (· ≠ member), updatedAt := now })
      else none := by
  unfold CircleRegistry.removeMember CircleEntry.Releases
  rw [modify_of_some he]
  by_cases ha : e.adminPubkey = caller ∨ caller = member
  · have ha' : ¬ (e.adminPubkey ≠ caller ∧ caller ≠ member) := by
      rw [← not_or]
      exact not_not.2 ha
    by_cases hm : e.adminPubkey = member
    · simp [hm]
    · simp [ha', hm, CircleRegistry.put]
  · have ha' : e.adminPubkey ≠ caller ∧ caller ≠ member := not_or.1 ha
    simp [ha']

/-- `remove_member` refuses what the circle does not release. -/
theorem removeMember_eq_none {member caller : PublicKey}
    (h : ∀ e ∈ c.circles[cid]?, ¬ e.Releases member caller) :
    c.removeMember cid member caller now = none := by
  cases he : c.circles[cid]? with
  | none => exact modify_of_none he _
  | some e => rw [removeMember_of_some he, if_neg (h e he)]

/-- `change_admin` as an edit. -/
theorem changeAdmin_of_some (he : c.circles[cid]? = some e) (newAdmin caller : PublicKey) :
    c.changeAdmin cid newAdmin caller now =
      if e.adminPubkey = caller ∧ newAdmin ∈ e.members then
        some (c.put cid { e with adminPubkey := newAdmin, updatedAt := now })
      else none := by
  unfold CircleRegistry.changeAdmin
  rw [modify_of_some he]
  by_cases ha : e.adminPubkey = caller
  · by_cases hm : newAdmin ∈ e.members
    · simp [hm, CircleRegistry.put]
    · simp [hm]
  · simp [ha]

/-- `change_admin` is for the administrator, and for members. -/
theorem changeAdmin_eq_none {newAdmin caller : PublicKey}
    (h : ∀ e ∈ c.circles[cid]?, ¬ (e.adminPubkey = caller ∧ newAdmin ∈ e.members)) :
    c.changeAdmin cid newAdmin caller now = none := by
  cases he : c.circles[cid]? with
  | none => exact modify_of_none he _
  | some e => rw [changeAdmin_of_some he, if_neg (h e he)]

/-- `set_admin` as an edit. -/
theorem setAdmin_of_some (he : c.circles[cid]? = some e) (newAdmin : PublicKey) :
    c.setAdmin cid newAdmin now =
      some (c.put cid { e with adminPubkey := newAdmin, updatedAt := now }) := by
  unfold CircleRegistry.setAdmin
  rw [modify_of_some he]
  rfl

/-- `disband_circle` erases the circle and its name. -/
theorem disbandCircle_of_some (he : c.circles[cid]? = some e) (caller : PublicKey) :
    c.disbandCircle cid caller =
      if e.adminPubkey = caller then
        some { c with circles := c.circles.erase cid, nameToId := c.nameToId.erase e.name }
      else none := by
  unfold CircleRegistry.disbandCircle
  rw [he]
  dsimp only
  by_cases ha : e.adminPubkey = caller
  · rw [if_neg (not_not.2 ha), if_pos ha]
  · rw [if_pos ha, if_neg ha]

/-- There is nothing to disband. -/
theorem disbandCircle_of_none (he : c.circles[cid]? = none) (caller : PublicKey) :
    c.disbandCircle cid caller = none := by
  unfold CircleRegistry.disbandCircle
  rw [he]

/-- What was disbanded. -/
theorem disbandCircle_eq_some {caller : PublicKey} (h : c.disbandCircle cid caller = some c') :
    ∃ e, c.circles[cid]? = some e ∧ e.adminPubkey = caller ∧
      c' = { c with circles := c.circles.erase cid, nameToId := c.nameToId.erase e.name } := by
  cases he : c.circles[cid]? with
  | none =>
    rw [disbandCircle_of_none he] at h
    cases h
  | some e =>
    rw [disbandCircle_of_some he] at h
    split_ifs at h with hadmin
    exact ⟨e, rfl, hadmin, (Option.some.inj h).symm⟩

/-- The circle `create_circle` makes. -/
def createdCircle (cr : Crypto) (name : Bytes) (admin : PublicKey) (height now : UInt64) :
    CircleEntry :=
  ⟨computeCircleId cr name admin now, name, admin, [admin], height, now, now⟩

/-- `create_circle` under a name it accepts. -/
theorem createCircle_of_accepts (cr : Crypto) {name : Bytes} (h : c.Accepts name)
    (admin : PublicKey) (height : UInt64) :
    c.createCircle cr name admin height now =
      ({ c with
          circles := c.circles.insert (computeCircleId cr name admin now)
            (createdCircle cr name admin height now)
          nameToId := c.nameToId.insert name (computeCircleId cr name admin now) },
        computeCircleId cr name admin now) := by
  obtain ⟨hne, hlen, hfree⟩ := h
  have hname : ¬ (name = [] ∨ 32 < name.length) := by
    rintro (h | h)
    · exact hne h
    · omega
  have hcontains : c.nameToId.contains name = false := by
    rw [ExtTreeMap.contains_eq_isSome_getElem?, hfree]
    rfl
  unfold CircleRegistry.createCircle
  rw [if_neg hname, if_neg (by simp [hcontains])]
  rfl

/-- `create_circle` under a name it refuses. -/
theorem createCircle_of_not_accepts (cr : Crypto) {name : Bytes} (h : ¬ c.Accepts name)
    (admin : PublicKey) (height : UInt64) :
    c.createCircle cr name admin height now = (c, Pod32.null) := by
  unfold CircleRegistry.createCircle
  by_cases hname : name = [] ∨ 32 < name.length
  · rw [if_pos hname]
  · have hcontains : c.nameToId.contains name = true := by
      by_contra hnone
      refine h ⟨fun hn => hname (Or.inl hn), Nat.not_lt.1 fun hl => hname (Or.inr hl), ?_⟩
      simpa using hnone
    rw [if_neg hname, if_pos hcontains]

/-- What `create_proposal` writes, if anything. -/
theorem createProposal_cases (c : CircleRegistry) (cr : Crypto) (cid : Hash)
    (proposer target : PublicKey) (height : UInt64) :
    (c.createProposal cr cid proposer target height).1 = c ∨
      ∃ p : ProposalEntry,
        p.proposalId = cr.cnFastHash (cid.data ++ target.data ++ leBytes 8 height.toNat) ∧
        p.createdHeight = height ∧ p.status = 0 ∧ p.convocation = 0 ∧
        (c.createProposal cr cid proposer target height).1 = c.setProposal p.proposalId p := by
  unfold CircleRegistry.createProposal
  split
  · exact .inl rfl
  · split_ifs
    · exact .inl rfl
    · exact .inr ⟨⟨_, cid, proposer, target, height, 0, 0, 0⟩, rfl, rfl, rfl, rfl, rfl⟩

/-- When `cast_vote` takes a vote, and what it writes. -/
theorem castVote_eq_some_iff {voter : PublicKey} {yes : Bool} :
    c.castVote pid voter yes height = some c' ↔
      (∃ p e, c.proposals[pid]? = some p ∧ p.isOpen = true ∧ c.circles[p.circleId]? = some e ∧
        voter ∈ e.members) ∧ c.votes[CircleRegistry.voteKey pid voter]? = none ∧
      { c with votes :=
        c.votes.insert (CircleRegistry.voteKey pid voter) ⟨pid, voter, yes, height⟩ } = c' := by
  unfold CircleRegistry.castVote
  cases hp : c.proposals[pid]? with
  | none => simp
  | some p =>
    cases hopen : p.isOpen with
    | false => simp [hopen]
    | true =>
      cases he : c.circles[p.circleId]? with
      | none => simp [he]
      | some e => simp [he, and_assoc]

end

end Mevacoin.Trust
