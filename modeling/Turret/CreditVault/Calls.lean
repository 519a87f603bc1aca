import Turret.CreditVault.Books

/-! What each call of the vault does to its books. A call rewrites one position
with the debts and then moves tokens; opening and borrowing in one call are two
such changes. -/

namespace Turret.CreditVault

open Execution Function Rounding Uint256 Finset

variable {w w' u : World} {c b : Address} {p : Position}

/-! ### The position and the debts -/

/-- The position and the debts have been rewritten, and no token has moved yet. -/
structure Rebooked (c b : Address) (p : Position) (w u : World) : Prop where
  cfg : u.cfg = w.cfg
  tokens : u.tokens = w.tokens
  markets : u.vault.markets = w.vault.markets
  owner : u.vault.owner = w.vault.owner
  positions : u.vault.positions =
    update w.vault.positions c (update (w.vault.positions c) b p)
  marketDebt : ∃ d, u.vault.marketDebt = update w.vault.marketDebt c d ∧
    d + (w.position c b).debt = w.vault.marketDebt c + p.debt
  totalDebt : u.vault.totalDebt + (w.position c b).debt = w.vault.totalDebt + p.debt

theorem rebooked_setPosition (same : p.debt = (w.position c b).debt) :
    Rebooked c b p w (w.setPosition c b p) where
  cfg := rfl
  tokens := rfl
  markets := rfl
  owner := rfl
  positions := rfl
  marketDebt := ⟨w.vault.marketDebt c, (update_eq_self c _).symm, by rw [same]⟩
  totalDebt := by
    rw [same]
    rfl

theorem rebooked_addDebt (c b : Address) (debtIncrease : ℕ) (w : World) :
    Rebooked c b ⟨(w.position c b).collateral, (w.position c b).debt + debtIncrease⟩ w
      (addDebt c b ((w.position c b).debt + debtIncrease) debtIncrease w) where
  cfg := rfl
  tokens := rfl
  markets := rfl
  owner := rfl
  positions := rfl
  marketDebt := ⟨w.vault.marketDebt c + debtIncrease, rfl, by
    simp only
    omega⟩
  totalDebt := by
    simp only [addDebt, World.setPosition]
    omega

theorem rebooked_removeDebt {n : ℕ} (sum : p.debt + n = (w.position c b).debt)
    (done : removeDebt c n (w.setPosition c b p) = .ok u) : Rebooked c b p w u := by
  simp only [removeDebt, World.setPosition, bind_eq_ok, checkedSub_eq_ok, pure_eq_ok] at done
  obtain ⟨market, ⟨enough, rfl⟩, total, ⟨enough', rfl⟩, rfl⟩ := done
  refine ⟨rfl, rfl, rfl, rfl, rfl, ⟨_, rfl, ?_⟩, ?_⟩
  · omega
  · simp only
    omega

/-! ### The tokens -/

/-- How the collateral held moves with the position, once the tokens have moved. -/
structure Custody (c : Address) (before after : ℕ) (w u w' : World) : Prop where
  cfg : w'.cfg = u.cfg
  vault : w'.vault = u.vault
  closed : Closed w'
  held : c ≠ w.cfg.usdg → held c w + after ≤ held c w' + before
  others : ∀ t, t ≠ c → t ≠ w.cfg.usdg → CreditVault.held t w ≤ CreditVault.held t w'

theorem held_eq {t : Address} (cfg : w'.cfg = w.cfg) (tokens : w'.tokens t = w.tokens t) :
    held t w' = held t w := by
  rw [held, held, cfg, tokens]

theorem Rebooked.held (h : Rebooked c b p w u) (t : Address) : held t u = held t w :=
  held_eq h.cfg (congrFun h.tokens t)

theorem Rebooked.closed (h : Rebooked c b p w u) (closed : Closed w) : Closed u := by
  intro token spender
  rw [h.tokens, h.cfg]
  exact closed token spender

/-- A transfer of the collateral. -/
theorem Rebooked.custody_collateral {gain loss before after : ℕ} (h : Rebooked c b p w u)
    (moved : Transferred c gain loss u w') (sum : after + loss ≤ before + gain) :
    Custody c before after w u w' where
  cfg := moved.cfg
  vault := moved.vault
  closed := moved.closed
  held := fun _ => by
    have held := moved.held
    rw [h.held] at held
    omega
  others := fun t other _ => by
    rw [held_eq moved.cfg (moved.others t other), h.held]

/-- A transfer of USDG, or none. -/
theorem Rebooked.custody_usdg {gain loss : ℕ} (h : Rebooked c b p w u)
    (moved : Transferred w.cfg.usdg gain loss u w') (n : ℕ) : Custody c n n w u w' where
  cfg := moved.cfg
  vault := moved.vault
  closed := moved.closed
  held := fun apart => by
    rw [held_eq moved.cfg (moved.others c apart), h.held]
  others := fun t _ apart => by
    rw [held_eq moved.cfg (moved.others t apart), h.held]

theorem Rebooked.custody_none (h : Rebooked c b p w u) (closed : Closed w) (n : ℕ) :
    Custody c n n w u u where
  cfg := rfl
  vault := rfl
  closed := h.closed closed
  held := fun _ => by rw [h.held]
  others := fun t _ _ => (h.held t).ge

theorem Custody.then_collateral {loss before after : ℕ} {x : World} (h : Custody c before after w u x)
    (moved : Transferred c 0 loss x w') (fits : loss ≤ after) :
    Custody c before (after - loss) w u w' where
  cfg := moved.cfg.trans h.cfg
  vault := moved.vault.trans h.vault
  closed := moved.closed
  held := fun apart => by
    have first := h.held apart
    have second := moved.held
    omega
  others := fun t other apart => by
    rw [held_eq moved.cfg (moved.others t other)]
    exact h.others t other apart

theorem Rebooked.settles (h : Rebooked c b p w u)
    (moved : Custody c (w.position c b).collateral p.collateral w u w')
    (collateral_fits : p.collateral ≤ (w.position c b).collateral ∨ p.collateral ≤ UINT128_MAX)
    (debt_fits : p.debt ≤ (w.position c b).debt ∨ p.debt ≤ UINT128_MAX)
    (listed : p.debt ≠ 0 → (w.position c b).debt ≠ 0 ∨ (w.vault.markets c).primaryOracle ≠ 0) :
    Settles c b p w w' where
  cfg := moved.cfg.trans h.cfg
  markets := (congrArg Vault.markets moved.vault).trans h.markets
  positions := (congrArg Vault.positions moved.vault).trans h.positions
  marketDebt := by
    rw [moved.vault]
    exact h.marketDebt
  totalDebt := by
    rw [moved.vault]
    exact h.totalDebt
  collateral_fits := collateral_fits
  debt_fits := debt_fits
  listed := listed
  held := moved.held
  others := moved.others
  closed := moved.closed

/-- A payment that only lowers the debt. -/
theorem Rebooked.settles_lower (h : Rebooked c b p w u)
    (moved : Custody c (w.position c b).collateral p.collateral w u w')
    (collateral_le : p.collateral ≤ (w.position c b).collateral)
    (debt_le : p.debt ≤ (w.position c b).debt) : Settles c b p w w' :=
  h.settles moved (.inl collateral_le) (.inl debt_le) fun owes => .inl (by omega)

/-! ### The calls -/

theorem toUint128_eq_ok {n m : ℕ} : toUint128 n = .ok m ↔ n ≤ UINT128_MAX ∧ n = m := by
  by_cases h : n ≤ UINT128_MAX <;> simp [toUint128, h]

theorem market_eq_ok {m : Market} : market c w = .ok m ↔
    (w.vault.markets c).primaryOracle ≠ 0 ∧ w.vault.markets c = m := by
  simp only [market, bind_eq_ok, revertIf_eq_ok, exists_const, pure_eq_ok, ne_eq]

theorem enabledMarket_listed {m : Market} (h : enabledMarket c w = .ok m) :
    (w.vault.markets c).primaryOracle ≠ 0 := by
  simp only [enabledMarket, bind_eq_ok, market_eq_ok] at h
  obtain ⟨_, ⟨listed, -⟩, -⟩ := h
  exact listed

theorem depositCollateral_settles {amount : ℕ} (closed : Closed w)
    (done : depositCollateral c b amount w = .ok w') :
    Settles c b ⟨(w.position c b).collateral + amount, (w.position c b).debt⟩ w w' := by
  simp only [depositCollateral, bind_eq_ok, toUint128_eq_ok] at done
  obtain ⟨_, -, ⟨⟩, -, ⟨⟩, -, total, ⟨fits, rfl⟩, pulled⟩ := done
  have booked : Rebooked c b ⟨(w.position c b).collateral + amount, (w.position c b).debt⟩ w _ :=
    rebooked_setPosition rfl
  have moved := pull_transferred (booked.closed closed) pulled
  exact booked.settles (booked.custody_collateral moved le_rfl) (.inr fits) (.inl le_rfl)
    fun owes => .inl owes

theorem withdrawCollateral_settles {sender recipient : Address} {amount : ℕ} (closed : Closed w)
    (done : withdrawCollateral sender c amount recipient w = .ok w') :
    Settles c sender
      ⟨(w.position c sender).collateral - amount, (w.position c sender).debt⟩ w w' := by
  simp only [withdrawCollateral, bind_eq_ok, revertIf_eq_ok, not_lt] at done
  obtain ⟨⟨⟩, -, ⟨⟩, -, _, -, ⟨⟩, enough, ⟨⟩, -, sent⟩ := done
  have booked : Rebooked c sender
      ⟨(w.position c sender).collateral - amount, (w.position c sender).debt⟩ w _ :=
    rebooked_setPosition rfl
  have moved := send_transferred (booked.closed closed) sent
  exact booked.settles_lower (booked.custody_collateral moved (by simp only; omega))
    (Nat.sub_le ..) le_rfl

theorem borrow_settles {amount : ℕ} (closed : Closed w) (done : borrow c b amount w = .ok w') :
    Settles c b
      ⟨(w.position c b).collateral, (w.position c b).debt + (quoteDebt amount w).1⟩ w w' := by
  simp only [borrow, bind_eq_ok, revertIf_eq_ok, toUint128_eq_ok] at done
  obtain ⟨⟨⟩, -, ⟨⟩, -, _, enabled, ⟨⟩, -, _, -, _, -, ⟨⟩, -, debt, ⟨fits, rfl⟩, sent⟩ := done
  have booked := rebooked_addDebt c b (quoteDebt amount w).1 w
  have moved := send_transferred (booked.closed closed) sent
  exact booked.settles (booked.custody_usdg moved _) (.inl le_rfl) (.inr fits)
    fun _ => .inr (enabledMarket_listed enabled)

theorem repay_settles {sender : Address} {amount : ℕ} (closed : Closed w)
    (done : repay sender c b amount w = .ok w') :
    Settles c b
      ⟨(w.position c b).collateral, (w.position c b).debt - min amount (w.position c b).debt⟩
      w w' := by
  simp only [repay, bind_eq_ok, revertIf_eq_ok] at done
  obtain ⟨⟨⟩, -, ⟨⟩, -, u, removed, pulled⟩ := done
  have booked := rebooked_removeDebt (by simp only; omega) removed
  have moved := pull_transferred (booked.closed closed) pulled
  rw [booked.cfg] at moved
  exact booked.settles_lower (booked.custody_usdg moved _) le_rfl (Nat.sub_le ..)

/-- The payment of `repayAllAndWithdrawCollateral`, if there is a debt. -/
theorem repayAll_booked {sender : Address} (closed : Closed w)
    (done : repayAll sender c (w.position c sender).debt (w.setPosition c sender noPosition) = .ok w') :
    ∃ u, Rebooked c sender noPosition w u ∧
      Custody c (w.position c sender).collateral (w.position c sender).collateral w u w' := by
  unfold repayAll at done
  split_ifs at done with owes
  · simp only [bind_eq_ok] at done
    obtain ⟨u, removed, pulled⟩ := done
    have booked := rebooked_removeDebt (by simp [noPosition]) removed
    have moved := pull_transferred (booked.closed closed) pulled
    rw [booked.cfg] at moved
    exact ⟨u, booked, booked.custody_usdg moved _⟩
  · rw [pure_eq_ok] at done
    subst done
    have free : (w.position c sender).debt = 0 := by
      by_contra some_
      exact owes some_
    have booked : Rebooked c sender noPosition w _ := rebooked_setPosition (by simp [noPosition, free])
    exact ⟨_, booked, booked.custody_none closed _⟩

theorem repayAllAndWithdrawCollateral_settles {sender recipient : Address} (closed : Closed w)
    (done : repayAllAndWithdrawCollateral sender c recipient w = .ok w') :
    Settles c sender noPosition w w' := by
  simp only [repayAllAndWithdrawCollateral, bind_eq_ok] at done
  obtain ⟨⟨⟩, -, ⟨⟩, -, x, paid, rest⟩ := done
  obtain ⟨u, booked, custody⟩ := repayAll_booked closed paid
  have left : Custody c (w.position c sender).collateral noPosition.collateral w u w' := by
    unfold sendRest at rest
    split_ifs at rest with some_
    · have moved := send_transferred custody.closed rest
      have all := custody.then_collateral moved le_rfl
      rw [Nat.sub_self] at all
      exact all
    · rw [pure_eq_ok] at rest
      subst rest
      have none : (w.position c sender).collateral = 0 := by
        by_contra ne
        exact some_ ne
      rw [none] at custody ⊢
      exact custody
  exact booked.settles_lower left (Nat.zero_le _) (Nat.zero_le _)

/-! ### Liquidation -/

/-- What is paid is owed, and what is seized is there. -/
theorem liquidationTerms_le {scale price maxRepay repaid seized : ℕ} {m : Market}
    (done : liquidationTerms scale m p price maxRepay = .ok (repaid, seized)) :
    0 < repaid ∧ repaid ≤ p.debt ∧ seized ≤ p.collateral := by
  simp only [liquidationTerms, bind_eq_ok, revertIf_eq_ok] at done
  obtain ⟨value, -, repay18, -, ⟨⟩, positive, _, -, _, -, terms⟩ := done
  have pays : repaid = min (min maxRepay p.debt) (repay18 / scale) ∧ seized ≤ p.collateral := by
    split_ifs at terms with all
    · simp only [pure_eq_ok, Prod.mk.injEq] at terms
      exact ⟨terms.1.symm, terms.2.ge⟩
    · simp only [bind_eq_ok, pure_eq_ok, Prod.mk.injEq] at terms
      obtain ⟨x, -, rfl, rfl⟩ := terms
      exact ⟨rfl, min_le_left ..⟩
  omega

theorem liquidate_settles {sender recipient : Address} {maxRepay : ℕ} (closed : Closed w)
    (done : liquidate sender c b maxRepay recipient w = .ok w') :
    ∃ repaid seized, 0 < repaid ∧ repaid ≤ (w.position c b).debt ∧
      seized ≤ (w.position c b).collateral ∧
      Settles c b ⟨(w.position c b).collateral - seized, (w.position c b).debt - repaid⟩ w w' := by
  simp only [liquidate, bind_eq_ok] at done
  obtain ⟨⟨⟩, -, ⟨⟩, -, m, -, price, -, _, -, ⟨⟩, -, ⟨repaid, seized⟩, terms, u, removed, x, pulled,
    sent⟩ := done
  obtain ⟨positive, owed, there⟩ := liquidationTerms_le terms
  have booked := rebooked_removeDebt (by simp only; omega) removed
  have paid := pull_transferred (booked.closed closed) pulled
  rw [booked.cfg] at paid
  have custody := booked.custody_usdg paid (w.position c b).collateral
  have moved := custody.then_collateral (send_transferred custody.closed sent) there
  exact ⟨repaid, seized, positive, owed, there,
    booked.settles_lower moved (Nat.sub_le ..) (Nat.sub_le ..)⟩

theorem writeOffBadDebt_settles {sender : Address} (closed : Closed w)
    (done : writeOffBadDebt sender c b w = .ok w') :
    Settles c b ⟨(w.position c b).collateral, 0⟩ w w' := by
  simp only [writeOffBadDebt, bind_eq_ok] at done
  obtain ⟨⟨⟩, -, ⟨⟩, -, removed⟩ := done
  have booked := rebooked_removeDebt (by simp only; omega) removed
  exact booked.settles_lower (booked.custody_none closed _) le_rfl (Nat.zero_le _)

/-! ### Calls that leave the positions -/

/-- A transfer of USDG, or one that takes nothing from the vault. -/
theorem Transferred.quiet {token : Address} {gain loss : ℕ} (h : Transferred token gain loss w w')
    (kept : token = w.cfg.usdg ∨ loss = 0) : Quiet w w' where
  cfg := h.cfg
  listed := fun c => by
    rw [h.vault]
    exact id
  markets := fun c => by
    rw [h.vault]
    exact .inl
  positions := by rw [h.vault]
  marketDebt := by rw [h.vault]
  totalDebt := by rw [h.vault]
  held := fun t apart => by
    by_cases same : t = token
    · have none := kept.resolve_left fun usdg => apart (same.trans usdg)
      have moved := h.held
      rw [same]
      omega
    · rw [held_eq h.cfg (h.others t same)]
  closed := h.closed

/-- A change of the markets or of what the vault does not book. -/
theorem quiet_of_vault {v : Vault} {o : Outside} (closed : Closed w)
    (markets : ∀ c, (v.markets c).primaryOracle = (w.vault.markets c).primaryOracle ∨
      (v.markets c).primaryOracle ≠ 0 ∧ w.cfg.decimals c = 18)
    (positions : v.positions = w.vault.positions) (marketDebt : v.marketDebt = w.vault.marketDebt)
    (totalDebt : v.totalDebt = w.vault.totalDebt) :
    Quiet w { w with vault := v, outside := o } where
  cfg := rfl
  listed := fun c listed => (markets c).elim (fun same => same.trans_ne listed) And.left
  markets := fun c listed => (markets c).imp (fun same => same.symm.trans_ne listed) And.right
  positions := positions
  marketDebt := marketDebt
  totalDebt := totalDebt
  held := fun _ _ => le_rfl
  closed := closed

/-- A market rewritten under its oracle. -/
theorem quiet_of_market {m : Market} (closed : Closed w)
    (same : m.primaryOracle = (w.vault.markets c).primaryOracle) :
    Quiet w { w with vault := { w.vault with markets := update w.vault.markets c m } } := by
  refine quiet_of_vault (o := w.outside) closed (fun d => .inl ?_) rfl rfl rfl
  by_cases here : d = c
  · simp only [here, update_self, same]
  · simp only [update_of_ne here]

theorem addMarket_quiet {sender primaryOracle secondaryOracle : Address}
    {debtCeiling maxLtvBps liquidationLtvBps liquidationBonusBps maxOracleDeviationBps : ℕ}
    (closed : Closed w)
    (done : addMarket sender c primaryOracle secondaryOracle debtCeiling maxLtvBps
      liquidationLtvBps liquidationBonusBps maxOracleDeviationBps w = .ok w') : Quiet w w' := by
  simp only [addMarket, bind_eq_ok, revertIf_eq_ok, pure_eq_ok, not_or, not_not] at done
  obtain ⟨⟨⟩, -, ⟨⟩, ⟨-, some_, -⟩, ⟨⟩, -, ⟨⟩, decimals, ⟨⟩, -, ⟨⟩, -, _, -, _, -, rfl⟩ := done
  refine quiet_of_vault (o := w.outside) closed (fun d => ?_) rfl rfl rfl
  by_cases here : d = c
  · refine .inr ⟨?_, here ▸ decimals⟩
    simp only [here, update_self]
    exact some_
  · exact .inl (by simp only [update_of_ne here])

theorem setMarketEnabled_quiet {sender : Address} {enabled : Bool} (closed : Closed w)
    (done : setMarketEnabled sender c enabled w = .ok w') : Quiet w w' := by
  simp only [setMarketEnabled, bind_eq_ok, market_eq_ok] at done
  obtain ⟨⟨⟩, -, m, ⟨-, rfl⟩, rest⟩ := done
  cases enabled with
  | true =>
    simp only [if_true, bind_eq_ok, pure_eq_ok] at rest
    obtain ⟨_, -, rfl⟩ := rest
    exact quiet_of_market closed rfl
  | false =>
    simp only [Bool.false_eq_true, if_false, pure_eq_ok] at rest
    subst rest
    exact quiet_of_market closed rfl

theorem setDebtCeiling_quiet {sender : Address} {ceiling : ℕ} (closed : Closed w)
    (done : setDebtCeiling sender c ceiling w = .ok w') : Quiet w w' := by
  simp only [setDebtCeiling, bind_eq_ok, market_eq_ok, pure_eq_ok] at done
  obtain ⟨⟨⟩, -, m, ⟨-, rfl⟩, ⟨⟩, -, rfl⟩ := done
  exact quiet_of_market closed rfl

theorem token_quiet {token : Address} {call : TokenCall Address} (closed : Closed w)
    (away : call.sender ≠ some w.cfg.self) (done : onToken token call.exec w = .ok w') :
    Quiet w w' := by
  obtain ⟨ledger, moved, rfl⟩ := onToken_eq_ok.mp done
  have kept : Transferred token 0 0 w _ :=
    transferred_of_ledger closed (TokenCall.exec_keeps_closed moved away (closed token))
      (TokenCall.exec_closed moved away (closed token)).1
  exact kept.quiet (.inr rfl)

theorem fund_quiet {sender : Address} {amount : ℕ} (closed : Closed w)
    (done : fund sender amount w = .ok w') : Quiet w w' := by
  simp only [fund, bind_eq_ok] at done
  obtain ⟨⟨⟩, -, ⟨⟩, -, pulled⟩ := done
  exact (pull_transferred closed pulled).quiet (.inl rfl)

theorem withdrawLiquidity_quiet {sender recipient : Address} {amount : ℕ} (closed : Closed w)
    (done : withdrawLiquidity sender recipient amount w = .ok w') : Quiet w w' := by
  simp only [withdrawLiquidity, bind_eq_ok] at done
  obtain ⟨⟨⟩, -, ⟨⟩, -, ⟨⟩, -, ⟨⟩, -, sent⟩ := done
  exact (send_transferred closed sent).quiet (.inl rfl)

/-! ### Runs -/

/-- Every call keeps the books. -/
theorem exec_sound {op : Op} (sound : Sound w) (done : exec op w = .ok w') : Sound w' := by
  have closed := sound.closed
  cases op with
  | addMarket => exact (addMarket_quiet closed done).sound sound
  | fund => exact (fund_quiet closed done).sound sound
  | withdrawLiquidity => exact (withdrawLiquidity_quiet closed done).sound sound
  | depositCollateral => exact (depositCollateral_settles closed done).sound sound
  | depositAndBorrow sender c collateralAmount borrowAmount =>
    simp only [exec, depositAndBorrow, bind_eq_ok] at done
    obtain ⟨⟨⟩, -, ⟨⟩, -, u, deposited, borrowed⟩ := done
    have between := (depositCollateral_settles closed deposited).sound sound
    exact (borrow_settles between.closed borrowed).sound between
  | withdrawCollateral => exact (withdrawCollateral_settles closed done).sound sound
  | borrow sender c amount =>
    simp only [exec, bind_eq_ok] at done
    obtain ⟨⟨⟩, -, borrowed⟩ := done
    exact (borrow_settles closed borrowed).sound sound
  | repay => exact (repay_settles closed done).sound sound
  | repayAllAndWithdrawCollateral =>
    exact (repayAllAndWithdrawCollateral_settles closed done).sound sound
  | liquidate =>
    obtain ⟨repaid, seized, -, -, -, settles⟩ := liquidate_settles closed done
    exact settles.sound sound
  | writeOffBadDebt => exact (writeOffBadDebt_settles closed done).sound sound
  | setMarketEnabled => exact (setMarketEnabled_quiet closed done).sound sound
  | setDebtCeiling => exact (setDebtCeiling_quiet closed done).sound sound
  | pause sender =>
    simp only [exec, pause, bind_eq_ok, pure_eq_ok] at done
    obtain ⟨⟨⟩, -, ⟨⟩, -, rfl⟩ := done
    refine Quiet.sound (w := w) ?_ sound
    exact quiet_of_vault closed (fun _ => .inl rfl) rfl rfl rfl
  | unpause sender =>
    simp only [exec, unpause, bind_eq_ok, pure_eq_ok] at done
    obtain ⟨⟨⟩, -, ⟨⟩, -, rfl⟩ := done
    refine Quiet.sound (w := w) ?_ sound
    exact quiet_of_vault closed (fun _ => .inl rfl) rfl rfl rfl
  | transferOwnership sender newOwner =>
    simp only [exec, transferOwnership, bind_eq_ok, pure_eq_ok] at done
    obtain ⟨⟨⟩, -, ⟨⟩, -, rfl⟩ := done
    refine Quiet.sound (w := w) ?_ sound
    exact quiet_of_vault closed (fun _ => .inl rfl) rfl rfl rfl
  | token token call =>
    simp only [exec, bind_eq_ok, revertIf_eq_ok] at done
    obtain ⟨⟨⟩, away, moved⟩ := done
    exact (token_quiet closed away moved).sound sound
  | outside answers =>
    simp only [exec, pure_eq_ok] at done
    subst done
    refine Quiet.sound (w := w) ?_ sound
    exact quiet_of_vault closed (fun _ => .inl rfl) rfl rfl rfl

theorem Reachable.sound (h : Reachable w) : Sound w := by
  obtain ⟨start, ops, fresh, run⟩ := h
  exact run.invariant Sound (fun _ _ _ sound step => exec_sound sound step) fresh.sound

end Turret.CreditVault
