import Turret.Liquidator.Intents

/-! The budgets along runs. They are read at one time and spent at a later one;
in between the journal is the same and the window has only moved on, so what
fitted still fits. -/

namespace Turret.Liquidator

open Tasks Execution

variable {k : Keeper} {s t : World} {tx old new : Tx} {txs : List Tx}

/-! ### What has been spent -/

/-- The repayment of a settled liquidation in the window `(now - DAY, now]`, or the whole amount of
an unresolved one. -/
def Tx.repayment (now : ℕ) (tx : Tx) : ℤ :=
  if tx.kind ≠ .liquidation then 0
  else if tx.unresolved then tx.maxRepay
  else match tx.status, tx.settledAt with
    | .confirmed, some time => if time ≤ now ∧ now < time + DAY then tx.actualRepay.getD 0 else 0
    | _, _ => 0

/-- The repayment of a settled liquidation whose proceeds have not come back, or the whole amount
of an unresolved one. -/
def Tx.retained (tx : Tx) : ℤ :=
  if tx.kind ≠ .liquidation then 0
  else if tx.unresolved then tx.maxRepay
  else if tx.status = .confirmed ∧ tx.inventoryRecovered = false then tx.actualRepay.getD 0
  else 0

/-- The gas of an intent settled in the window, or the reserve of an unresolved one. -/
def Tx.fees (now : ℕ) (tx : Tx) : ℤ :=
  if tx.unresolved then tx.feeReserve
  else match tx.settledAt with
    | some time => if time ≤ now ∧ now < time + DAY then tx.actualGas.getD 0 else 0
    | none => 0

/-! ### Sums over the journal -/

theorem sum_transactions (f : Tx → ℤ) (s : World) :
    (s.transactions.map f).sum = (s.txs.map f).sum :=
  ((List.perm_insertionSort _ s.txs).map f).sum_eq

theorem sum_le (f g : Tx → ℤ) (le : ∀ tx ∈ txs, f tx ≤ g tx) :
    (txs.map f).sum ≤ (txs.map g).sum :=
  List.sum_le_sum le

/-! ### The costs of one record -/

theorem repayment_unresolved {now : ℕ} (h : tx.unresolved = true) :
    tx.repayment now = if tx.kind ≠ .liquidation then 0 else tx.maxRepay := by
  simp only [Tx.repayment, h, if_true]

theorem retained_unresolved (h : tx.unresolved = true) :
    tx.retained = if tx.kind ≠ .liquidation then 0 else tx.maxRepay := by
  simp only [Tx.retained, h, if_true]

theorem fees_unresolved {now : ℕ} (h : tx.unresolved = true) : tx.fees now = tx.feeReserve := by
  simp only [Tx.fees, h, if_true]

theorem Recorded.settlement {now : ℕ} (h : Recorded k now tx) (epoch : ℕ) (date : now ≤ MAX_DATE)
    (final : tx.unresolved = false) : ∃ time ≤ now, tx.settledAt = some time ∧
      tx.settlement epoch = time := by
  obtain ⟨time, before, at_time⟩ := h.settled final
  refine ⟨time, before, at_time, ?_⟩
  have safe : time ≤ MAX_SAFE_INTEGER := by
    have : MAX_DATE ≤ MAX_SAFE_INTEGER := by decide
    omega
  simp only [Tx.settlement, at_time, if_pos safe]

/-- A window that is read early shows no less. -/
theorem Recorded.repayment_le {epoch now read : ℕ} (h : Recorded k now tx) (date : now ≤ MAX_DATE)
    (early : read ≤ now) : tx.repayment now ≤ tx.dailyCost epoch read := by
  by_cases kind : tx.kind = .liquidation
  · rcases open_ : tx.unresolved with _ | _
    · obtain ⟨time, before, at_time, settlement⟩ := h.settlement epoch date open_
      rcases resolved_iff.mp open_ with confirmed | reverted
      · obtain ⟨repaid, at_repaid, -⟩ := h.repaid confirmed kind
        simp only [Tx.repayment, Tx.dailyCost, Tx.inWindow, Tx.spent, kind, open_, confirmed, at_time,
          at_repaid, settlement, ne_eq, not_true_eq_false, if_false, reduceCtorEq, not_false_eq_true,
          true_and, Bool.false_or, decide_eq_true_eq, Option.getD_some, Option.map_some,
          Bool.false_eq_true, before]
        by_cases inside : now < time + DAY
        · rw [if_pos inside, if_pos (by omega)]
          exact le_rfl
        · rw [if_neg inside]
          split
          · exact Int.natCast_nonneg repaid
          · exact le_rfl
      · simp [Tx.repayment, Tx.dailyCost, kind, open_, reverted]
    · have live : tx.status ≠ .reverted := fun reverted => by
        simp [Tx.unresolved, reverted] at open_
      rw [repayment_unresolved open_]
      simp [Tx.dailyCost, Tx.inWindow, Tx.spent, kind, open_, live]
  · simp [Tx.repayment, Tx.dailyCost, kind]

theorem Recorded.retained_le {now : ℕ} (h : Recorded k now tx) :
    tx.retained ≤ tx.inventoryCost := by
  by_cases kind : tx.kind = .liquidation
  · rcases open_ : tx.unresolved with _ | _
    · rcases resolved_iff.mp open_ with confirmed | reverted
      · obtain ⟨repaid, at_repaid, -⟩ := h.repaid confirmed kind
        simp [Tx.retained, Tx.inventoryCost, Tx.spent, kind, open_, confirmed, at_repaid]
      · simp [Tx.retained, Tx.inventoryCost, kind, open_, reverted]
    · have live : tx.status ≠ .reverted ∧ tx.status ≠ .confirmed := by
        constructor
        all_goals
          intro final
          simp [Tx.unresolved, final] at open_
      rw [retained_unresolved open_]
      simp [Tx.inventoryCost, Tx.spent, kind, open_, live]
  · simp [Tx.retained, Tx.inventoryCost, kind]

theorem Recorded.fees_le {epoch now read : ℕ} (h : Recorded k now tx) (date : now ≤ MAX_DATE)
    (early : read ≤ now) : tx.fees now ≤ tx.gasCost epoch read := by
  rcases open_ : tx.unresolved with _ | _
  · obtain ⟨time, before, at_time, settlement⟩ := h.settlement epoch date open_
    obtain ⟨gas, -, at_gas⟩ := h.gas open_
    simp only [Tx.fees, Tx.gasCost, Tx.inWindow, open_, at_time, at_gas, settlement, before,
      Bool.false_eq_true, if_false, true_and, Bool.false_or, decide_eq_true_eq, Option.getD_some]
    by_cases inside : now < time + DAY
    · rw [if_pos inside, if_pos (by omega)]
    · rw [if_neg inside]
      split
      · exact Int.natCast_nonneg gas
      · exact le_rfl
  · rw [fees_unresolved open_]
    simp [Tx.gasCost, Tx.inWindow, open_]

/-- Time only takes a settled record out of the window. -/
theorem Recorded.repayment_later {now later : ℕ} (h : Recorded k now tx) (le : now ≤ later) :
    tx.repayment later ≤ tx.repayment now := by
  by_cases kind : tx.kind = .liquidation
  · rcases open_ : tx.unresolved with _ | _
    · obtain ⟨time, before, at_time⟩ := h.settled open_
      rcases resolved_iff.mp open_ with confirmed | reverted
      · simp only [Tx.repayment, kind, open_, confirmed, at_time, ne_eq, not_true_eq_false, if_false,
          Bool.false_eq_true, before, before.trans le, true_and]
        by_cases inside : later < time + DAY
        · rw [if_pos inside, if_pos (by omega)]
        · rw [if_neg inside]
          split
          · exact Int.natCast_nonneg _
          · exact le_rfl
      · simp [Tx.repayment, kind, open_, reverted]
    · rw [repayment_unresolved open_, repayment_unresolved open_]
  · simp [Tx.repayment, kind]

theorem Recorded.fees_later {now later : ℕ} (h : Recorded k now tx) (le : now ≤ later) :
    tx.fees later ≤ tx.fees now := by
  rcases open_ : tx.unresolved with _ | _
  · obtain ⟨time, before, at_time⟩ := h.settled open_
    simp only [Tx.fees, open_, at_time, Bool.false_eq_true, if_false, before, before.trans le,
      true_and]
    by_cases inside : later < time + DAY
    · rw [if_pos inside, if_pos (by omega)]
    · rw [if_neg inside]
      split
      · exact Int.natCast_nonneg _
      · exact le_rfl
  · rw [fees_unresolved open_, fees_unresolved open_]

/-- A record costs at most what it would as an unresolved one. -/
theorem Recorded.repayment_max {now : ℕ} (h : Recorded k now tx) :
    tx.repayment now ≤ if tx.kind ≠ .liquidation then 0 else tx.maxRepay := by
  by_cases kind : tx.kind = .liquidation
  · have positive := h.positive kind
    rcases open_ : tx.unresolved with _ | _
    · obtain ⟨time, before, at_time⟩ := h.settled open_
      rcases resolved_iff.mp open_ with confirmed | reverted
      · obtain ⟨repaid, at_repaid, le⟩ := h.repaid confirmed kind
        simp only [Tx.repayment, kind, open_, confirmed, at_time, at_repaid, ne_eq,
          not_true_eq_false, if_false, Bool.false_eq_true, Option.getD_some]
        split
        · exact le
        · exact positive.le
      · simp [Tx.repayment, kind, open_, reverted, positive.le]
    · rw [repayment_unresolved open_]
  · simp [Tx.repayment, kind]

theorem Recorded.retained_max {now : ℕ} (h : Recorded k now tx) :
    tx.retained ≤ if tx.kind ≠ .liquidation then 0 else tx.maxRepay := by
  by_cases kind : tx.kind = .liquidation
  · have positive := h.positive kind
    rcases open_ : tx.unresolved with _ | _
    · rcases resolved_iff.mp open_ with confirmed | reverted
      · obtain ⟨repaid, at_repaid, le⟩ := h.repaid confirmed kind
        simp only [Tx.retained, kind, open_, confirmed, at_repaid, ne_eq, not_true_eq_false,
          if_false, Bool.false_eq_true, Option.getD_some, true_and]
        split
        · exact le
        · exact positive.le
      · simp [Tx.retained, kind, open_, reverted, positive.le]
    · rw [retained_unresolved open_]
  · simp [Tx.retained, kind]

theorem Recorded.fees_max {now : ℕ} (h : Recorded k now tx) : tx.fees now ≤ tx.feeReserve := by
  rcases open_ : tx.unresolved with _ | _
  · obtain ⟨time, before, at_time⟩ := h.settled open_
    obtain ⟨gas, le, at_gas⟩ := h.gas open_
    simp only [Tx.fees, open_, at_time, at_gas, Bool.false_eq_true, if_false, Option.getD_some]
    split
    · exact Int.ofNat_le.mpr le
    · exact Int.natCast_nonneg _
  · rw [fees_unresolved open_]

/-! ### The budgets -/

/-- The spending of the window, the retained inventory and the gas of the window are within the
budgets. -/
structure Bounded (k : Keeper) (s : World) : Prop where
  daily : (s.txs.map (Tx.repayment s.now)).sum ≤ k.config.dailyBudget
  inventory : (s.txs.map Tx.retained).sum ≤ k.config.inventoryBudget
  gas : (s.txs.map (Tx.fees s.now)).sum ≤ k.config.maxDailyGas

/-- What was read of the budgets is no less than what is spent now. -/
theorem Journal.le_budgets (h : Journal k s) {read : ℕ} (early : read ≤ s.now) :
    (s.txs.map (Tx.repayment s.now)).sum ≤ (s.budgets read).daily ∧
    (s.txs.map Tx.retained).sum ≤ (s.budgets read).inventory ∧
    (s.txs.map (Tx.fees s.now)).sum ≤ (s.budgets read).gas := by
  simp only [World.budgets, sum_transactions]
  exact ⟨sum_le _ _ fun tx mem => (h.recorded tx mem).repayment_le h.now early,
    sum_le _ _ fun tx mem => (h.recorded tx mem).retained_le,
    sum_le _ _ fun tx mem => (h.recorded tx mem).fees_le h.now early⟩

theorem Bounded.create (h : Bounded k s) (journal : Journal k s) (intent : Intent k s tx) :
    Bounded k (s.upsert tx) := by
  have open_ := unresolved_of_pending intent.pending
  obtain ⟨read, early, fits⟩ := intent.gas
  have now_same : (s.upsert tx).now = s.now := rfl
  have rows : (s.upsert tx).txs = Table.upsert Tx.id tx s.txs := rfl
  constructor
  · rw [rows, now_same, Table.sum_upsert_new _ intent.fresh, repayment_unresolved open_]
    split
    · simpa using h.daily
    · obtain ⟨-, time, before, within, -⟩ := intent.capital (not_not.mp ‹_›)
      have := (journal.le_budgets before).1
      omega
  · rw [rows, Table.sum_upsert_new _ intent.fresh, retained_unresolved open_]
    split
    · simpa using h.inventory
    · obtain ⟨-, time, before, -, within⟩ := intent.capital (not_not.mp ‹_›)
      have := (journal.le_budgets before).2.1
      omega
  · rw [rows, now_same, Table.sum_upsert_new _ intent.fresh, fees_unresolved open_]
    have := (journal.le_budgets early).2.2
    omega

theorem Update.same_terms (h : Update k s old new) :
    new.kind = old.kind ∧ new.maxRepay = old.maxRepay := by
  cases h with
  | replace => exact ⟨rfl, rfl⟩
  | block => exact ⟨rfl, rfl⟩
  | settle _ _ _ _ _ _ _ _ _ kind _ _ _ maxRepay => exact ⟨kind, maxRepay⟩

theorem Bounded.update (h : Bounded k s) (journal : Journal k s) (mem : old ∈ s.txs)
    (pending : old.status = .pending) (update : Update k s old new) :
    Bounded k (s.upsert new) := by
  have open_ := unresolved_of_pending pending
  have row := update.recorded pending (journal.recorded old mem)
  obtain ⟨kind, maxRepay⟩ := update.same_terms
  have now_same : (s.upsert new).now = s.now := rfl
  have rows : (s.upsert new).txs = Table.upsert Tx.id new s.txs := rfl
  constructor
  · rw [rows, now_same, Table.sum_upsert_old _ journal.ids mem update.id_eq, repayment_unresolved open_]
    have cost := row.repayment_max
    rw [kind, maxRepay] at cost
    have := h.daily
    omega
  · rw [rows, Table.sum_upsert_old _ journal.ids mem update.id_eq, retained_unresolved open_]
    have cost := row.retained_max
    rw [kind, maxRepay] at cost
    have := h.inventory
    omega
  · rw [rows, now_same, Table.sum_upsert_old _ journal.ids mem update.id_eq, fees_unresolved open_]
    have cost := row.fees_max
    cases update with
    | replace request reserve attempt read _ _ _ _ early within =>
      change _ ≤ (reserve : ℤ) at cost
      have := (journal.le_budgets early).2.2
      omega
    | block receipt gas =>
      change _ ≤ (old.feeReserve : ℤ) at cost
      have := h.gas
      omega
    | settle _ _ _ _ _ _ _ _ _ _ _ _ fee =>
      have := h.gas
      rw [fee] at cost
      omega

theorem Bounded.act {owner : ℕ} (h : Bounded k s) (journal : Journal k s)
    (act : Act k owner s t) : Bounded k t := by
  cases act with
  | idle => exact h
  | retry => exact ⟨h.daily, h.inventory, h.gas⟩
  | acquire => exact ⟨h.daily, h.inventory, h.gas⟩
  | sign => exact ⟨h.daily, h.inventory, h.gas⟩
  | send => exact ⟨h.daily, h.inventory, h.gas⟩
  | create tx _ intent => exact h.create journal intent
  | update old new _ seen pending update =>
    exact h.update journal (mem_of_pendingTx seen) pending update

theorem Bounded.environment {e : Event} (h : Bounded k s) (journal : Journal k s)
    (moved : Liquidator.environment e s = some t) : Bounded k t := by
  cases e with
  | time ms =>
    simp only [Liquidator.environment] at moved
    split at moved
    · cases moved
      have le : s.now ≤ s.now + ms := Nat.le_add_right _ _
      exact
        { daily := (sum_le _ _ fun tx mem =>
            (journal.recorded tx mem).repayment_later le).trans h.daily
          inventory := h.inventory
          gas := (sum_le _ _ fun tx mem => (journal.recorded tx mem).fees_later le).trans h.gas }
    · cases moved
  | renewLease owner =>
    simp only [Liquidator.environment] at moved
    split at moved
    · cases moved
      exact ⟨h.daily, h.inventory, h.gas⟩
    · cases moved
  | close owner =>
    cases moved
    exact ⟨h.daily, h.inventory, h.gas⟩

theorem Bounded.started {s : Keepers} (h : Started k s) : Bounded k s.shared := by
  constructor
  · simp [h.txs]
  · simp [h.txs]
  · simp [h.txs]

/-- The budgets in every run in which the lease names a process whenever it writes the journal or
sends bytes. -/
theorem spending_within_budgets (k : Keeper) (s t : Keepers) (fresh : Started k s)
    (moves : List (Move ℕ Call Event)) (run : Run (heldStep k) s moves t) :
    (t.shared.txs.map (Tx.repayment t.shared.now)).sum ≤ k.config.dailyBudget ∧
    (t.shared.txs.map Tx.retained).sum ≤ k.config.inventoryBudget ∧
    (t.shared.txs.map (Tx.fees t.shared.now)).sum ≤ k.config.maxDailyGas ∧
    ∀ request ∈ t.shared.signed, ∃ reserve ∈ feeReserve request, reserve ≤ k.config.maxTxFee := by
  have both := (started_sound fresh).run (compatible k) (fun u => Journal k u ∧ Bounded k u)
    (fun _ c u _ => safe_machine c u) ?_ ⟨.started fresh, .started fresh⟩ run
  · obtain ⟨-, journal, bounded⟩ := both
    exact ⟨bounded.daily, bounded.inventory, bounded.gas, journal.signed⟩
  · rintro u v ⟨journal, bounded⟩ effect
    refine ⟨journal.effect effect, ?_⟩
    rcases effect with rfl | ⟨owner, -, act⟩ | ⟨e, moved⟩
    · exact bounded
    · exact bounded.act journal act
    · exact bounded.environment journal moved

/-- The daily budget of the sample is overrun when a lease is taken between its check and the
write. -/
theorem overtaken_budget : ∃ t moves, Started sampleKeeper sampleStart ∧
    Run (Step (machine sampleKeeper)) sampleStart moves t ∧
    (t.shared.txs.map (Tx.repayment t.shared.now)).sum = 180 ∧
    sampleKeeper.config.dailyBudget = 100 := by
  have computed : (System.exec (machine sampleKeeper) sampleCheck (fun _ _ _ => true) overtaken
      sampleStart).map (fun t => (t.shared.txs.map (Tx.repayment t.shared.now)).sum) =
      some 180 := by
    decide +kernel
  obtain ⟨t, moves, run, spent⟩ := reached_of_exec (fun _ _ _ moved _ => moved) computed
  exact ⟨t, moves, started_sample, run, spent, rfl⟩

theorem sample_spending_within_budgets :
    ∃ t moves, Run (heldStep sampleKeeper) sampleStart moves t ∧
      (t.shared.txs.map (Tx.repayment t.shared.now)).sum = 90 ∧
      (t.shared.txs.map Tx.retained).sum ≤ sampleKeeper.config.inventoryBudget := by
  have computed : (System.exec (machine sampleKeeper) sampleCheck heldTest (liquidatesFor 0 30)
      sampleStart).map (fun t => (t.shared.txs.map (Tx.repayment t.shared.now)).sum) =
      some 90 := by
    decide +kernel
  obtain ⟨t, moves, run, spent⟩ := reached_of_exec heldStep_of_test computed
  exact ⟨t, moves, run, spent,
    (spending_within_budgets sampleKeeper sampleStart t started_sample moves run).2.1⟩

end Turret.Liquidator
