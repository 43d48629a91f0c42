import Mevacoin.Lib.Accounts
import Mevacoin.Lib.Cursor
import Mevacoin.Trust.Payouts

/-!
# Consuming the welcome bonuses

`process_welcome_bonuses` (`reward_distributor.cpp`) deletes the matured bonuses under a cursor and
takes their sum out of the row of `DB_MT_POOL` and out of the copy in memory.
-/

namespace Mevacoin.Trust

open Lib Std

namespace Distributor

/-! ### The loop -/

/-- One matured row: the output, and the amount added to `total_deduction`. -/
def collectBonus (acc : List PendingCoinbaseOutput × UInt64) (row : Hash × WelcomeBonus) :
    List PendingCoinbaseOutput × UInt64 :=
  (acc.1 ++ [⟨row.1, [], row.2.amount⟩], acc.2 + row.2.amount)

/-- The loop of `process_welcome_bonuses`, to the end of the table. -/
def consumeWelcome (d : Distributor) (currentHeight : UInt64) :
    CursorState Hash WelcomeBonus (List PendingCoinbaseOutput × UInt64) :=
  takeRows (matured currentHeight) collectBonus d.welcome.size ⟨d.welcome, none, ([], 0)⟩

/-- `process_welcome_bonuses`, row by row. -/
def processWelcomeRows (d : Distributor) (currentHeight : UInt64) :
    List PendingCoinbaseOutput × Distributor :=
  let walk := d.consumeWelcome currentHeight
  let d := { d with welcome := walk.table }
  (walk.collected.1,
    if 0 < walk.collected.2 then d.deductWelcome walk.collected.2 currentHeight else d)

theorem foldl_collectBonus (rows : List (Hash × WelcomeBonus))
    (acc : List PendingCoinbaseOutput × UInt64) :
    rows.foldl collectBonus acc =
      (acc.1 ++ rows.map (fun row => ⟨row.1, [], row.2.amount⟩),
        acc.2 + (rows.map (·.2.amount)).sum) := by
  induction rows generalizing acc with
  | nil => simp
  | cons row rows ih =>
    rw [List.foldl_cons, ih]
    simp [collectBonus, UInt64.add_assoc]

/-- **The loop does what the preview lists**: at the end of the table the matured rows are deleted
and collected with their sum. -/
theorem consumeWelcome_eq (d : Distributor) (h : UInt64) :
    (d.consumeWelcome h).table = d.welcome.filter (fun _ w => !matured h w) ∧
      (d.consumeWelcome h).collected =
        (d.peekWelcomeBonuses h, ((d.peekWelcomeBonuses h).map (·.amount)).sum) ∧
      rowAfter (d.consumeWelcome h).table (d.consumeWelcome h).pos = none := by
  have hwalk : (d.consumeWelcome h).table = _ ∧ _ ∧ _ :=
    takeRows_size d.welcome (([], 0) : List PendingCoinbaseOutput × UInt64)
  obtain ⟨htable, hcollected, hend⟩ := hwalk
  refine ⟨htable, hcollected.trans ?_, hend⟩
  rw [foldl_collectBonus]
  simp [peekWelcomeBonuses, Function.comp_def]

theorem processWelcomeRows_eq (d : Distributor) (h : UInt64) :
    d.processWelcomeRows h = d.processWelcomeBonuses h := by
  obtain ⟨htable, hcollected, -⟩ := d.consumeWelcome_eq h
  unfold processWelcomeRows processWelcomeBonuses
  dsimp only
  rw [htable, hcollected]

/-! ### The account -/

/-- The balance in the database; a row that was never written stands for zero. -/
def storedBalance (d : Distributor) : UInt64 := (d.saved.map (·.poolBalance)).getD 0

/-- The matured bonuses together. -/
def bonusSum (d : Distributor) (h : UInt64) : ℕ :=
  ((d.peekWelcomeBonuses h).map (·.amount.toNat)).sum

/-- The call did what the preview said, in the table and in each copy of the balance that can pay,
and the copies agree afterwards. -/
structure ConsumedExactly (d : Distributor) (h : UInt64) : Prop where
  returned : (d.processWelcomeRows h).1 = d.peekWelcomeBonuses h
  deleted : ∀ n, (d.processWelcomeRows h).2.welcome[n]? =
    if n ∈ (d.peekWelcomeBonuses h).map (·.nodeId) then none else d.welcome[n]?
  memoryLowered : d.bonusSum h ≤ d.poolBalance.toNat →
    (d.processWelcomeRows h).2.poolBalance.toNat + d.bonusSum h = d.poolBalance.toNat
  storedLowered : d.bonusSum h ≤ d.storedBalance.toNat →
    (d.processWelcomeRows h).2.storedBalance.toNat + d.bonusSum h = d.storedBalance.toNat
  agree : (d.processWelcomeRows h).2.poolBalance = (d.processWelcomeRows h).2.storedBalance

variable (d : Distributor) (h : UInt64)

/-- The bonuses of a node are due if it has one that has matured. -/
theorem mem_peek_nodeId {n : Hash} : n ∈ (d.peekWelcomeBonuses h).map (·.nodeId) ↔
    ∃ w, d.welcome[n]? = some w ∧ matured h w = true := by
  simp only [peekWelcomeBonuses, List.map_map, List.mem_map, List.mem_filter]
  constructor
  · rintro ⟨⟨k, w⟩, ⟨hmem, hmatured⟩, rfl⟩
    exact ⟨w, ExtTreeMap.mem_toList_iff_getElem?_eq_some.mp hmem, hmatured⟩
  · rintro ⟨w, hw, hmatured⟩
    exact ⟨(n, w), ⟨ExtTreeMap.mem_toList_iff_getElem?_eq_some.mpr hw, hmatured⟩, rfl⟩

theorem deductWelcome_welcome (total : UInt64) : (d.deductWelcome total h).welcome = d.welcome := by
  unfold deductWelcome
  cases d.saved with
  | none => rfl
  | some ps => rfl

/-- The rows that are left are those that have not matured. -/
theorem processWelcomeRows_welcome : (d.processWelcomeRows h).2.welcome =
    d.welcome.filter fun _ w => !matured h w := by
  rw [processWelcomeRows_eq]
  unfold processWelcomeBonuses
  dsimp only
  split_ifs
  · exact deductWelcome_welcome _ _ _
  · rfl

theorem processWelcomeRows_deleted (n : Hash) : (d.processWelcomeRows h).2.welcome[n]? =
    if n ∈ (d.peekWelcomeBonuses h).map (·.nodeId) then none else d.welcome[n]? := by
  rw [processWelcomeRows_welcome, getElem?_filter_value]
  simp only [mem_peek_nodeId]
  cases hw : d.welcome[n]? with
  | none => simp
  | some w => cases hm : matured h w <;> simp [hm]

/-- The stored balance gives what it can, and the one in memory as much, if it can. -/
theorem deductWelcome_balances (total : UInt64) :
    (d.deductWelcome total h).storedBalance.toNat = d.storedBalance.toNat - total.toNat ∧
      (d.deductWelcome total h).poolBalance.toNat =
        d.poolBalance.toNat - min total.toNat d.storedBalance.toNat := by
  have hsub : ∀ a b : UInt64, (b - min a b).toNat = b.toNat - a.toNat := by
    intro a b
    rcases UInt64.le_total a b with hab | hab
    · rw [show min a b = a from if_pos hab, UInt64.toNat_sub_of_le _ _ hab]
    · have hmin : min a b = b := by
        rcases UInt64.lt_or_eq_of_le hab with hlt | rfl
        · exact if_neg (UInt64.not_le.2 hlt)
        · exact if_pos hab
      rw [hmin, UInt64.sub_self]
      exact (Nat.sub_eq_zero_of_le (UInt64.le_iff_toNat_le.1 hab)).symm
  unfold deductWelcome storedBalance
  cases hs : d.saved with
  | none => simp [hs]
  | some ps =>
    have hdeduct : (min total ps.poolBalance).toNat = min total.toNat ps.poolBalance.toNat := by
      show (if total ≤ ps.poolBalance then total else ps.poolBalance).toNat = _
      simp only [UInt64.le_iff_toNat_le]
      split_ifs <;> omega
    refine ⟨hsub _ _, (hsub _ _).trans ?_⟩
    rw [hdeduct]
    rfl

/-- The balances after the call. -/
theorem processWelcomeRows_balances :
    (d.processWelcomeRows h).2.storedBalance.toNat =
        d.storedBalance.toNat - d.bonusSum h % 2 ^ 64 ∧
      (d.processWelcomeRows h).2.poolBalance.toNat =
        d.poolBalance.toNat - min (d.bonusSum h % 2 ^ 64) d.storedBalance.toNat := by
  have htotal : ((d.peekWelcomeBonuses h).map PendingCoinbaseOutput.amount).sum.toNat =
      d.bonusSum h % 2 ^ 64 := toNat_sum_mod ..
  rw [processWelcomeRows_eq, ← htotal]
  unfold processWelcomeBonuses
  dsimp only
  split_ifs with hpos
  -- the table is another, but the account is that of `d`
  · exact deductWelcome_balances
      { d with welcome := d.welcome.filter fun _ w => !matured h w } h _
  · rw [UInt64.le_zero_iff.mp (UInt64.not_lt.mp hpos)]
    exact ⟨(Nat.sub_zero _).symm, by simp⟩

/-! ### Result -/

/-- **The preview is what is consumed**: what is returned and deleted agrees with it.  Each copy of
the pool balance that can pay is lowered by the sum, and the copies agree afterwards, exactly if
they agreed before or the one in memory is the smaller and the bonuses, added up in 64 bits, empty
both. -/
theorem welcome_consumed_iff :
    d.ConsumedExactly h ↔
      d.poolBalance = d.storedBalance ∨
        d.poolBalance < d.storedBalance ∧ d.storedBalance.toNat ≤ d.bonusSum h % 2 ^ 64 := by
  obtain ⟨hstored, hmemory⟩ := d.processWelcomeRows_balances h
  have hpool := d.poolBalance.toNat_lt
  have hsaved := d.storedBalance.toNat_lt
  rw [UInt64.lt_iff_toNat_lt, ← UInt64.toNat_inj]
  constructor
  · intro hexact
    have hagree := congrArg UInt64.toNat hexact.agree
    have hlowered := hexact.memoryLowered
    rw [hstored, hmemory] at hagree
    rw [hmemory] at hlowered
    omega
  · intro hbefore
    refine ⟨?_, d.processWelcomeRows_deleted h, fun hle => ?_, fun hle => ?_,
      UInt64.toNat_inj.mp ?_⟩
    · rw [processWelcomeRows_eq]
      rfl
    · rw [hmemory]
      omega
    · rw [hstored]
      omega
    · rw [hstored, hmemory]
      omega

/-- The account of a node whose database says 50 while the chain has paid 100 into the pool, and
one bonus of 10. -/
def staleAccount : Distributor :=
  { poolBalance := 100, saved := some ⟨50, 0, 0, 0⟩,
    welcome := (∅ : ExtTreeMap Hash WelcomeBonus).insert (Pod32.single 1) ⟨10, 5⟩ }

/-- The bonus, which both copies can pay, is taken from both, and they differ as before. -/
theorem staleAccount_differs :
    staleAccount.bonusSum 240 = 10 ∧
      (staleAccount.processWelcomeRows 240).2.poolBalance = 90 ∧
      (staleAccount.processWelcomeRows 240).2.storedBalance = 40 := by
  decide +kernel

end Distributor

end Mevacoin.Trust
