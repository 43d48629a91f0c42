import Mevacoin.Trust.SybilCaps

/-!
# Which nodes the expiry sweep marks offline

`expire_inactive_nodes` (`node_registry.cpp`) compares an unsigned difference with an unsigned
product; a node whose timestamp is ahead of the local clock is marked offline at once.
-/

namespace Mevacoin.Trust

open Lib Std

section

variable {F : Type}

/-- The node is active, and its last sign of life lies that many blocks before `now`, in
integers. -/
def NodeRegistryEntry.Idle (e : NodeRegistryEntry F) (now maxOfflineBlocks : UInt64) : Prop :=
  e.status = .active ∧ e.lastSeenTimestamp ≠ 0 ∧
    ((maxOfflineBlocks.toNat * 120 : ℕ) : ℤ) ≤ now.toNat - e.lastSeenTimestamp.toNat

/-- The sweep makes exactly the idle ones of the active nodes offline. -/
def ExpiryExact (r : NodeRegistry F) (maxOfflineBlocks now : UInt64) : Prop :=
  ∀ (n : Hash) (e : NodeRegistryEntry F), r.nodes[n]? = some e →
    (e.status = .active ∧
        ((r.expireInactiveNodes maxOfflineBlocks now).nodes[n]?).map (·.status) = some .offline ↔
      e.Idle now maxOfflineBlocks)

/-- **When the age is read right**: the timestamp is not ahead of the clock, and the number of
seconds fits in 64 bits or exceeds the age even so; or the wrapped age stays below that number. -/
def NodeRegistryEntry.AgeFits (e : NodeRegistryEntry F) (now maxOfflineBlocks : UInt64) : Prop :=
  if e.lastSeenTimestamp ≤ now then
    maxOfflineBlocks.toNat * 120 < 2 ^ 64 ∨
      now.toNat - e.lastSeenTimestamp.toNat < maxOfflineBlocks.toNat * 120 % 2 ^ 64
  else
    2 ^ 64 - (e.lastSeenTimestamp.toNat - now.toNat) < maxOfflineBlocks.toNat * 120 % 2 ^ 64

theorem toNat_maxOfflineSeconds (blocks : UInt64) :
    (NodeRegistry.maxOfflineSeconds blocks).toNat = blocks.toNat * 120 % 2 ^ 64 := by
  rfl

/-- The age of a node, as the sweep computes it. -/
theorem toNat_age (now last : UInt64) :
    (now - last).toNat =
      if last ≤ now then now.toNat - last.toNat else 2 ^ 64 - (last.toNat - now.toNat) := by
  have hlast := last.toNat_lt
  split_ifs with hle
  · exact UInt64.toNat_sub_of_le _ _ hle
  · rw [UInt64.le_iff_toNat_le] at hle
    rw [UInt64.toNat_sub]
    omega

/-- **The test of the sweep and the age in integers agree exactly when the age is read right.** -/
theorem expires_iff_idle {e : NodeRegistryEntry F} (hactive : e.status = .active)
    (hlast : e.lastSeenTimestamp ≠ 0) (now blocks : UInt64) :
    (NodeRegistry.expires e now blocks = true ↔ e.Idle now blocks) ↔
      e.AgeFits now blocks := by
  have hexpires : NodeRegistry.expires e now blocks = true ↔
      blocks.toNat * 120 % 2 ^ 64 ≤ (now - e.lastSeenTimestamp).toNat := by
    rw [← toNat_maxOfflineSeconds, ← UInt64.le_iff_toNat_le]
    simp [NodeRegistry.expires, hactive, hlast]
  have hidle : e.Idle now blocks ↔
      ((blocks.toNat * 120 : ℕ) : ℤ) ≤ now.toNat - e.lastSeenTimestamp.toNat := by
    simp [NodeRegistryEntry.Idle, hactive, hlast]
  have hnow := now.toNat_lt
  rw [hexpires, hidle, toNat_age, NodeRegistryEntry.AgeFits]
  split_ifs with hle
  · rw [UInt64.le_iff_toNat_le] at hle
    omega
  · rw [UInt64.le_iff_toNat_le] at hle
    generalize blocks.toNat * 120 = seconds
    omega

/-- What the sweep makes of an active node. -/
theorem expireInactiveNodes_offline_iff {r : NodeRegistry F} {n : Hash} {e : NodeRegistryEntry F}
    (he : r.nodes[n]? = some e) (hactive : e.status = .active) (blocks now : UInt64) :
    ((r.expireInactiveNodes blocks now).nodes[n]?).map (·.status) = some .offline ↔
      NodeRegistry.expires e now blocks = true := by
  rw [NodeRegistry.getElem?_expireInactiveNodes, he, Option.map_some, Option.map_some]
  split_ifs with hexp
  · exact iff_of_true rfl hexp
  · refine iff_of_false ?_ hexp
    rw [hactive]
    decide

/-- **The expiry sweep is exact if and only if it reads the ages right**, of the active nodes that
were heard of. -/
theorem expiry_exact_iff (r : NodeRegistry F) (maxOfflineBlocks now : UInt64) :
    ExpiryExact r maxOfflineBlocks now ↔
      ∀ (n : Hash) (e : NodeRegistryEntry F), r.nodes[n]? = some e → e.status = .active →
        e.lastSeenTimestamp ≠ 0 → e.AgeFits now maxOfflineBlocks := by
  constructor
  · intro h n e he hactive hlast
    rw [← expires_iff_idle hactive hlast, ← expireInactiveNodes_offline_iff he hactive, ← h n e he]
    simp [hactive]
  · intro h n e he
    by_cases hactive : e.status = .active
    · rw [expireInactiveNodes_offline_iff he hactive]
      by_cases hlast : e.lastSeenTimestamp = 0
      · simp [NodeRegistry.expires, NodeRegistryEntry.Idle, hlast]
      · rw [← (expires_iff_idle hactive hlast now maxOfflineBlocks).mpr (h n e he hactive hlast)]
        simp [hactive]
    · exact iff_of_false (fun hoff => hactive hoff.1) fun hidle => hactive hidle.1

end

/-- The registry after the node 9 has reported an uptime stamped one second ahead of the clock,
which stands at 2000. -/
def aheadRegistry : NodeRegistry ℚ :=
  (victimState.registry.recordUptimeEvent (Pod32.single 9) true 2001 8).getD {}

theorem aheadRegistry_offline :
    ((aheadRegistry.expireInactiveNodes 720 2000).nodes[Pod32.single 9]?).map (·.status) =
      some .offline := by
  decide +kernel

/-- **A node that has just reported is marked offline.** -/
theorem reported_node_expires : ¬ ExpiryExact aheadRegistry 720 2000 := by
  intro h
  have hentry : (aheadRegistry.nodes[Pod32.single 9]?).map (fun e =>
      (e.status, e.lastSeenTimestamp)) = some (.active, 2001) := by decide +kernel
  obtain ⟨e, he, hfields⟩ := Option.map_eq_some_iff.mp hentry
  obtain ⟨hactive, hlast⟩ := Prod.mk.inj hfields
  obtain ⟨-, -, hage⟩ := (h _ e he).mp ⟨hactive, aheadRegistry_offline⟩
  rw [hlast] at hage
  exact absurd hage (by decide)

end Mevacoin.Trust
