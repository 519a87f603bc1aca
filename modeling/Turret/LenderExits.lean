import Turret.Isolated.CreditEngine
import Turret.Isolated.PoolBooks
import Turret.Variable.CreditEngine
import Turret.Variable.PoolBooks

/-! What `maxWithdraw` and `maxRedeem` promise to an owner of either pool: an
exit within the limit goes through in the same block, whatever the fees, the
losses and the cash at hand, and one beyond it reverts. The engine's answer
`safety` is the same for the view and for the call: both ask it of the same
state, the checkpoint between them being invisible to the engine. -/

namespace Turret

open Execution Rounding ERC4626

namespace LenderVault

variable {σ : Type} (V : LenderVault σ)

/-- `owner` left with `paid`, sent to `receiver`, and gave up `burned` shares for it. -/
structure Exit (owner receiver : Address) (paid burned : ℕ) (w w' : σ) : Prop where
  funded : ∃ cash, V.availableCash w = .ok cash ∧ paid ≤ cash
  burned_pos : 0 < burned
  shares_eq : (V.shares w').balanceOf owner + burned = (V.shares w).balanceOf owner
  supply_eq : (V.shares w').totalSupply + burned = (V.shares w).totalSupply
  sent_eq : (V.usdg w').balanceOf (V.self w) + paid = (V.usdg w).balanceOf (V.self w)
  received_eq : (V.usdg w').balanceOf receiver = (V.usdg w).balanceOf receiver + paid

/-- Both limits of `owner` can be read, every exit within them goes through, and every exit beyond
them is rejected: a call that reverts changes nothing. -/
structure HonoursLimits (safety : Option Bool) (owner : Address) (w : σ) : Prop where
  withdraw : ∃ limit, V.maxWithdraw safety owner w = .ok limit ∧
    (∀ receiver assets, receiver ≠ 0 → receiver ≠ V.self w → 0 < assets → assets ≤ limit →
      ∃ w' burned, V.withdraw safety owner receiver owner assets w = .ok (w', burned) ∧
        V.Exit owner receiver assets burned w w') ∧
    ∀ caller receiver assets, limit < assets →
      V.withdraw safety caller receiver owner assets w = .error .exceedsMax
  redeem : ∃ limit, V.maxRedeem safety owner w = .ok limit ∧
    (∀ receiver shares, receiver ≠ 0 → receiver ≠ V.self w → 0 < shares → shares ≤ limit →
      ∃ w' paid, V.redeem safety owner receiver owner shares w = .ok (w', paid) ∧
        V.Exit owner receiver paid shares w w') ∧
    ∀ caller receiver shares, limit < shares →
      V.redeem safety caller receiver owner shares w = .error .exceedsMax

/-- The parts of a pool that the shared overrides read and write do not get in each other's way. -/
structure Lawful : Prop where
  accrue_self : ∀ w, V.self (V.accrue w) = V.self w
  accrue_usdg : ∀ w, V.usdg (V.accrue w) = V.usdg w
  accrue_shares : ∀ w, V.shares (V.accrue w) = V.shares w
  move_usdg : ∀ usdg shares w, V.usdg (V.move usdg shares w) = usdg
  move_shares : ∀ usdg shares w, V.shares (V.move usdg shares w) = shares
  refresh_usdg : ∀ {w w'}, V.refresh w = .ok w' → V.usdg w' = V.usdg w
  refresh_shares : ∀ {w w'}, V.refresh w = .ok w' → V.shares w' = V.shares w

/-- A pool whose fees are covered: `cash` can be spent, the views read the same before and after a
checkpoint, and an exit paid out of `cash` can end by refreshing the rate. -/
structure Liquid (w : σ) (cash assets : ℕ) : Prop where
  self_ne_zero : V.self w ≠ 0
  covered : cash ≤ (V.usdg w).balanceOf (V.self w)
  cash_eq : V.availableCash w = .ok cash
  cash_accrue : V.availableCash (V.accrue w) = .ok cash
  assets_eq : V.totalAssets w = .ok assets
  assets_accrue : V.totalAssets (V.accrue w) = .ok assets
  allowed_accrue : ∀ safety,
    V.capitalOperationsAllowed safety (V.accrue w) = V.capitalOperationsAllowed safety w
  refreshes : ∀ usdg shares,
    (V.usdg w).balanceOf (V.self w) ≤ usdg.balanceOf (V.self w) + cash →
      ∃ w', V.refresh (V.move usdg shares (V.accrue w)) = .ok w'

variable {V} {w w' : σ} {safety : Option Bool} {owner receiver : Address}

/-! ### Shares of address zero -/

theorem depositAssets_grounded (law : V.Lawful) {caller : Address} {assets minted : ℕ}
    (g : (V.shares w).Grounded)
    (h : V.depositAssets caller receiver assets minted w = .ok w') : (V.shares w').Grounded := by
  simp only [depositAssets, bind_eq_ok, revertIf_eq_ok, exists_const, orRevert_eq_ok] at h
  obtain ⟨-, usdg, -, shares, issued, -, done⟩ := h
  rw [law.refresh_shares done, law.move_shares]
  exact g.mint issued

theorem withdrawAssets_grounded (law : V.Lawful) {caller : Address} {assets burned : ℕ}
    (g : (V.shares w).Grounded)
    (h : V.withdrawAssets caller receiver owner assets burned w = .ok w') :
    (V.shares w').Grounded := by
  simp only [withdrawAssets, bind_eq_ok, revertIf_eq_ok, exists_const, orRevert_eq_ok] at h
  obtain ⟨-, -, spent, allowed, shares, retired, usdg, -, -, done⟩ := h
  rw [law.refresh_shares done, law.move_shares]
  exact (g.spendFor allowed).burn retired

/-- No lender call gives a share to address zero. -/
theorem call_grounded (law : V.Lawful) {c : LenderCall} (g : (V.shares w).Grounded)
    (h : V.call safety c w = .ok w') : (V.shares w').Grounded := by
  have accrued : (V.shares (V.accrue w)).Grounded := by
    rw [law.accrue_shares]
    exact g
  cases c with
  | deposit caller receiver assets =>
    simp only [call, deposit, bind_eq_ok, revertIf_eq_ok, exists_const, pure_eq_ok, Prod.exists,
      Prod.mk.injEq] at h
    obtain ⟨v, s, ⟨-, -, -, _, -, u, entered, rfl, -⟩, rfl⟩ := h
    exact depositAssets_grounded law accrued entered
  | mint caller receiver shares =>
    simp only [call, mint, bind_eq_ok, revertIf_eq_ok, exists_const, pure_eq_ok, Prod.exists,
      Prod.mk.injEq] at h
    obtain ⟨v, s, ⟨-, -, -, _, -, u, entered, rfl, -⟩, rfl⟩ := h
    exact depositAssets_grounded law accrued entered
  | withdraw caller receiver owner assets =>
    simp only [call, withdraw, bind_eq_ok, revertIf_eq_ok, exists_const, pure_eq_ok, Prod.exists,
      Prod.mk.injEq] at h
    obtain ⟨v, s, ⟨-, -, -, _, -, u, left, rfl, -⟩, rfl⟩ := h
    exact withdrawAssets_grounded law accrued left
  | redeem caller receiver owner shares =>
    simp only [call, redeem, bind_eq_ok, revertIf_eq_ok, exists_const, pure_eq_ok, Prod.exists,
      Prod.mk.injEq] at h
    obtain ⟨v, s, ⟨-, -, -, _, -, u, left, rfl, -⟩, rfl⟩ := h
    exact withdrawAssets_grounded law accrued left
  | depositWithMinShares caller receiver assets minShares deadline =>
    simp only [call, depositWithMinShares, deposit, checkDeadline, bind_eq_ok, revertIf_eq_ok,
      exists_const, pure_eq_ok, Prod.exists, Prod.mk.injEq] at h
    obtain ⟨v, s, ⟨-, -, _, _, ⟨-, -, -, _, -, u, entered, rfl, -⟩, -, rfl, -⟩, rfl⟩ := h
    exact depositAssets_grounded law accrued entered
  | withdrawWithMaxShares caller receiver owner assets maxShares deadline =>
    simp only [call, withdrawWithMaxShares, withdraw, checkDeadline, bind_eq_ok, revertIf_eq_ok,
      exists_const, pure_eq_ok, Prod.exists, Prod.mk.injEq] at h
    obtain ⟨v, s, ⟨-, -, _, _, ⟨-, -, -, _, -, u, left, rfl, -⟩, -, rfl, -⟩, rfl⟩ := h
    exact withdrawAssets_grounded law accrued left
  | redeemWithMinAssets caller receiver owner shares minAssets deadline =>
    simp only [call, redeemWithMinAssets, redeem, checkDeadline, bind_eq_ok, revertIf_eq_ok,
      exists_const, pure_eq_ok, Prod.exists, Prod.mk.injEq] at h
    obtain ⟨v, s, ⟨-, -, _, _, ⟨-, -, -, _, -, u, left, rfl, -⟩, -, rfl, -⟩, rfl⟩ := h
    exact withdrawAssets_grounded law accrued left
  | shareTransfer sender dst amount =>
    simp only [call, withShares, bind_eq_ok, orRevert_eq_ok, pure_eq_ok] at h
    obtain ⟨s, found, rfl⟩ := h
    rw [law.move_shares]
    exact g.move found
  | shareTransferFrom spender src dst amount =>
    simp only [call, withShares, bind_eq_ok, orRevert_eq_ok, pure_eq_ok] at h
    obtain ⟨s, found, rfl⟩ := h
    rw [law.move_shares]
    exact g.transferFrom found
  | shareApprove owner spender amount =>
    simp only [call, withShares, bind_eq_ok, orRevert_eq_ok, pure_eq_ok] at h
    obtain ⟨s, found, rfl⟩ := h
    obtain rfl := Option.some.inj found
    rw [law.move_shares]
    exact g

/-! ### Exits within the limits -/

variable {cash assets : ℕ}

/-- The common end of both exits: enough shares and enough cash are all it takes. -/
theorem withdrawAssets_exits (law : V.Lawful) (liquid : V.Liquid w cash assets)
    (g : (V.shares w).Grounded) (somewhere : receiver ≠ 0) (away : receiver ≠ V.self w)
    {paid burned : ℕ} (positive : 0 < burned) (held : burned ≤ (V.shares w).balanceOf owner)
    (funded : paid ≤ cash) :
    ∃ w', V.withdrawAssets owner receiver owner paid burned (V.accrue w) = .ok w' ∧
      V.Exit owner receiver paid burned w w' := by
  have owned : owner ≠ 0 := by
    rintro rfl
    exact absurd (g ▸ held) (Nat.not_le.mpr positive)
  obtain ⟨shares, retired, shares_eq, supply_eq⟩ := ShareLedger.burn_held owned held
  have covered := funded.trans liquid.covered
  have src := TokenLedger.move_src away.symm paid (V.usdg w)
  have dst := TokenLedger.move_dst away.symm paid (V.usdg w)
  obtain ⟨w', done⟩ := liquid.refreshes ((V.usdg w).move (V.self w) receiver paid) shares (by omega)
  refine ⟨w', ?_, ⟨cash, liquid.cash_eq, funded⟩, positive, ?_, ?_, ?_, ?_⟩
  · simp only [withdrawAssets, bind_eq_ok, revertIf_eq_ok, exists_const, orRevert_eq_ok,
      law.accrue_self, law.accrue_shares, law.accrue_usdg, TokenLedger.transfer_eq_some, not_not,
      not_or]
    refine ⟨positive.ne', ⟨somewhere, away⟩, V.shares w, if_pos rfl, shares, retired, _,
      ⟨covered, rfl⟩, ⟨?_, dst⟩, done⟩
    rw [src]
    exact Nat.sub_add_cancel covered
  · rw [law.refresh_shares done, law.move_shares]
    exact shares_eq
  · rw [law.refresh_shares done, law.move_shares]
    exact supply_eq
  · rw [law.refresh_usdg done, law.move_usdg, src]
    exact Nat.sub_add_cancel covered
  · rw [law.refresh_usdg done, law.move_usdg]
    exact dst

theorem Liquid.maxWithdraw (liquid : V.Liquid w cash assets) :
    V.maxWithdraw safety owner w = .ok
      (if V.capitalOperationsAllowed safety w then
        min (convertToAssets ((V.shares w).balanceOf owner) assets (V.shares w).totalSupply) cash
      else 0) := by
  unfold LenderVault.maxWithdraw
  split_ifs
  · rw [liquid.assets_eq, liquid.cash_eq]
    rfl
  · rfl

theorem Liquid.maxRedeem (liquid : V.Liquid w cash assets) :
    V.maxRedeem safety owner w = .ok
      (if V.capitalOperationsAllowed safety w then
        if assets ≤ cash then (V.shares w).balanceOf owner
        else min ((V.shares w).balanceOf owner)
          (convertToShares cash assets (V.shares w).totalSupply)
      else 0) := by
  unfold LenderVault.maxRedeem
  split_ifs with allowed rich
  · simp only [liquid.assets_eq, liquid.cash_eq, ok_bind, if_pos rich]
    rfl
  · simp only [liquid.assets_eq, liquid.cash_eq, ok_bind, if_neg rich]
    rfl
  · rfl

/-- The checkpoint of a call hides nothing from the limits: the call reads what the view read. -/
theorem Liquid.accrue (law : V.Lawful) (liquid : V.Liquid w cash assets) :
    V.maxWithdraw safety owner (V.accrue w) = V.maxWithdraw safety owner w ∧
      V.maxRedeem safety owner (V.accrue w) = V.maxRedeem safety owner w := by
  constructor
  · unfold LenderVault.maxWithdraw
    rw [liquid.allowed_accrue, liquid.assets_accrue, liquid.cash_accrue, liquid.assets_eq,
      liquid.cash_eq, law.accrue_shares]
  · unfold LenderVault.maxRedeem
    rw [liquid.allowed_accrue, liquid.assets_accrue, liquid.cash_accrue, liquid.assets_eq,
      liquid.cash_eq, law.accrue_shares]

/-- The shares burned for an amount within the limit round up to no more than the owner holds. -/
theorem Liquid.withdraw (law : V.Lawful) (liquid : V.Liquid w cash assets)
    (g : (V.shares w).Grounded) {limit : ℕ} (max : V.maxWithdraw safety owner w = .ok limit)
    (somewhere : receiver ≠ 0) (away : receiver ≠ V.self w) {paid : ℕ} (positive : 0 < paid)
    (within : paid ≤ limit) :
    ∃ w' burned, V.withdraw safety owner receiver owner paid w = .ok (w', burned) ∧
      V.Exit owner receiver paid burned w w' := by
  have bound := liquid.maxWithdraw.symm.trans max
  rw [Except.ok.injEq] at bound
  split_ifs at bound
  · have worth : paid ≤
        convertToAssets ((V.shares w).balanceOf owner) assets (V.shares w).totalSupply := by omega
    have some_share : 0 < convertToSharesUp paid assets (V.shares w).totalSupply :=
      mulDivUp_pos (Nat.succ_pos _) (Nat.mul_pos positive (Nat.add_pos_right _ virtualShares_pos))
    obtain ⟨w', done, exit⟩ := withdrawAssets_exits law liquid g somewhere away some_share
      (convertToSharesUp_of_le_convertToAssets worth) (show paid ≤ cash by omega)
    refine ⟨w', _, ?_, exit⟩
    simp only [LenderVault.withdraw, bind_eq_ok, revertIf_eq_ok, exists_const, pure_eq_ok, not_lt,
      Prod.mk.injEq, (liquid.accrue law).1, liquid.assets_accrue, law.accrue_shares]
    exact ⟨limit, max, within, assets, rfl, w', done, rfl, rfl⟩
  · omega

/-- The assets paid for shares within the limit round down to no more than the cash at hand. -/
theorem Liquid.redeem (law : V.Lawful) (liquid : V.Liquid w cash assets)
    (g : (V.shares w).Grounded) {limit : ℕ} (max : V.maxRedeem safety owner w = .ok limit)
    (somewhere : receiver ≠ 0) (away : receiver ≠ V.self w) {burned : ℕ} (positive : 0 < burned)
    (within : burned ≤ limit) :
    ∃ w' paid, V.redeem safety owner receiver owner burned w = .ok (w', paid) ∧
      V.Exit owner receiver paid burned w w' := by
  have bound := liquid.maxRedeem.symm.trans max
  rw [Except.ok.injEq] at bound
  have fits : burned ≤ (V.shares w).balanceOf owner ∧
      convertToAssets burned assets (V.shares w).totalSupply ≤ cash := by
    have supplied := (V.shares w).balanceOf_le owner
    split_ifs at bound with allowed rich
    · exact ⟨by omega, (convertToAssets_le (by omega)).trans rich⟩
    · exact ⟨by omega, convertToAssets_of_le_convertToShares (by omega)⟩
    · omega
  obtain ⟨w', done, exit⟩ :=
    withdrawAssets_exits law liquid g somewhere away positive fits.1 fits.2
  refine ⟨w', _, ?_, exit⟩
  simp only [LenderVault.redeem, bind_eq_ok, revertIf_eq_ok, exists_const, pure_eq_ok, not_lt,
    Prod.mk.injEq, (liquid.accrue law).2, liquid.assets_accrue, law.accrue_shares]
  exact ⟨limit, max, within, assets, rfl, w', done, rfl, rfl⟩

theorem Liquid.honours (law : V.Lawful) (liquid : V.Liquid w cash assets)
    (g : (V.shares w).Grounded) (safety : Option Bool) (owner : Address) :
    V.HonoursLimits safety owner w where
  withdraw := by
    refine ⟨_, liquid.maxWithdraw, fun receiver paid somewhere away positive within =>
      liquid.withdraw law g liquid.maxWithdraw somewhere away positive within,
      fun caller receiver paid beyond => ?_⟩
    rw [LenderVault.withdraw, (liquid.accrue law).1, liquid.maxWithdraw, ok_bind,
      (revertIf_eq_error _ _ _).mpr ⟨beyond, rfl⟩]
    rfl
  redeem := by
    refine ⟨_, liquid.maxRedeem, fun receiver burned somewhere away positive within =>
      liquid.redeem law g liquid.maxRedeem somewhere away positive within,
      fun caller receiver burned beyond => ?_⟩
    rw [LenderVault.redeem, (liquid.accrue law).2, liquid.maxRedeem, ok_bind,
      (revertIf_eq_error _ _ _).mpr ⟨beyond, rfl⟩]
    rfl

end LenderVault

/-! ### The fixed-rate pool -/

namespace IsolatedPool

theorem vault_lawful : vault.Lawful where
  accrue_self _ := rfl
  accrue_usdg _ := rfl
  accrue_shares _ := rfl
  move_usdg _ _ _ := rfl
  move_shares _ _ _ := rfl
  refresh_usdg done := by rw [← Except.ok.inj done]
  refresh_shares done := by rw [← Except.ok.inj done]

/-- Without principal nothing becomes due, so a checkpoint cannot close the debt-free exit. -/
theorem accrue_allowed {w : World} (hw : Sound w) (safety : Option Bool) :
    capitalOperationsAllowed safety (accrue w) = capitalOperationsAllowed safety w := by
  have same : (w.pool.outstandingPrincipal = 0 ∧ (accrue w).pool.interestReceivable = 0) ↔
      (w.pool.outstandingPrincipal = 0 ∧ w.pool.interestReceivable = 0) := by
    refine and_congr_right fun idle => ?_
    have nothing : (pendingInterest w).1 = 0 := by
      rw [pendingInterest, carry_zero hw.remainder_lt (by rw [idle, Nat.zero_mul])]
    rw [accrue, nothing, Nat.add_zero]
  simp only [capitalOperationsAllowed, accrue_principal, same]

theorem Sound.liquid {w : World} (hw : Sound w) : vault.Liquid w (books w).cash (assets w) where
  self_ne_zero := w.cfg.self_ne_zero
  covered := Nat.sub_le ..
  cash_eq := availableCash_eq_ok.mpr ⟨hw.fees_le, rfl⟩
  cash_accrue := availableCash_eq_ok.mpr ⟨hw.fees_le, rfl⟩
  assets_eq := hw.totalAssets
  assets_accrue := hw.accrue.totalAssets.trans (by rw [assets_accrue])
  allowed_accrue := accrue_allowed hw
  refreshes _ _ _ := ⟨_, rfl⟩

/-- Only a lender call touches the shares. -/
theorem exec_shares {w w' : World} {op : Op} (h : exec op w = .ok w') :
    w'.pool.shares = w.pool.shares ∨ ∃ safety call, vault.call safety call w = .ok w' := by
  cases op with
  | lender safety call => exact .inr ⟨safety, call, h⟩
  | accrueInterest =>
    rw [exec, pure_eq_ok] at h
    exact .inl (h ▸ rfl)
  | claimRevenue =>
    simp only [exec, claimRevenue, bind_eq_ok, revertIf_eq_ok, exists_const] at h
    obtain ⟨usdg, rfl, -⟩ := sendExact_ok h.2
    exact .inl rfl
  | draw safety sender recipient amount =>
    obtain ⟨_, rfl, -⟩ := draw_ok h
    exact .inl rfl
  | repay sender principal received =>
    obtain ⟨_, rfl, -⟩ := repay_ok h
    exact .inl rfl
  | recognizeLoss sender principal interest =>
    obtain ⟨rfl, -⟩ := recognizeLoss_ok h
    exact .inl rfl
  | retire sender =>
    simp only [exec, retire, bind_eq_ok, pure_eq_ok] at h
    obtain ⟨-, -, rfl⟩ := h
    exact .inl rfl
  | usdg call =>
    simp only [exec, bind_eq_ok, revertIf_eq_ok, exists_const, orRevert_eq_ok, pure_eq_ok] at h
    obtain ⟨-, usdg, -, rfl⟩ := h
    exact .inl rfl
  | elapse seconds =>
    rw [exec, pure_eq_ok] at h
    exact .inl (h ▸ rfl)

theorem Reachable.grounded {w : World} (h : Reachable w) : w.pool.shares.Grounded := by
  obtain ⟨start, ops, deployed, run⟩ := h
  refine run.invariant (fun w => w.pool.shares.Grounded) (fun w op w' g done => ?_) ?_
  · rcases exec_shares done with same | ⟨safety, call, moved⟩
    · rw [same]
      exact g
    · exact LenderVault.call_grounded vault_lawful g moved
  · rw [deployed.pool_eq]
    exact .empty

end IsolatedPool

/-! ### The variable-rate pool -/

namespace VariablePool

theorem vault_lawful : vault.Lawful where
  accrue_self _ := rfl
  accrue_usdg _ := rfl
  accrue_shares _ := rfl
  move_usdg _ _ _ := rfl
  move_shares _ _ _ := rfl
  refresh_usdg done := by rw [← (refreshRate_eq_ok.mp done).2]; rfl
  refresh_shares done := by rw [← (refreshRate_eq_ok.mp done).2]; rfl

/-- Without principal nothing becomes due, so a checkpoint cannot close the debt-free exit. -/
theorem accrue_allowed {w : World} (hw : Sound w) (safety : Option Bool) :
    capitalOperationsAllowed safety (accrue w) = capitalOperationsAllowed safety w := by
  have same : (w.pool.outstandingPrincipal = 0 ∧ (accrue w).pool.interestReceivable = 0) ↔
      (w.pool.outstandingPrincipal = 0 ∧ w.pool.interestReceivable = 0) := by
    refine and_congr_right fun idle => ?_
    have nothing : (pendingInterest w).1 = 0 := by
      rw [pendingInterest, carry_zero hw.remainder_lt (by rw [idle, Nat.zero_mul])]
    rw [accrue, nothing, Nat.add_zero]
  have frozen : (accrue w).pool.liquidationSettlementActive = w.pool.liquidationSettlementActive :=
    rfl
  simp only [capitalOperationsAllowed, accrue_principal, same, frozen]

/-- After an exit the fees are still covered, so the rate can be refreshed. -/
theorem Sound.liquid {w : World} (hw : Sound w) : vault.Liquid w (books w).cash (assets w) where
  self_ne_zero := w.cfg.self_ne_zero
  covered := Nat.sub_le ..
  cash_eq := availableCash_eq_ok.mpr ⟨hw.fees_le, rfl⟩
  cash_accrue := availableCash_eq_ok.mpr ⟨hw.fees_le, congrArg LenderBooks.cash (books_accrue w)⟩
  assets_eq := hw.totalAssets
  assets_accrue := hw.accrue.totalAssets.trans (by rw [assets_accrue])
  allowed_accrue := accrue_allowed hw
  refreshes usdg shares funded := by
    have covered := hw.fees_le
    have spent : w.usdg.balanceOf w.cfg.self ≤ usdg.balanceOf w.cfg.self +
        (w.usdg.balanceOf w.cfg.self - w.pool.protocolFees) := funded
    refine ⟨_, refreshRate_eq_ok.mpr ⟨?_, rfl⟩⟩
    change w.pool.protocolFees ≤ usdg.balanceOf w.cfg.self
    omega

/-- Only a lender call touches the shares. -/
theorem exec_shares {w w' : World} {op : Op} (h : exec op w = .ok w') :
    w'.pool.shares = w.pool.shares ∨ ∃ safety call, vault.call safety call w = .ok w' := by
  cases op with
  | lender safety call => exact .inr ⟨safety, call, h⟩
  | accrueInterest =>
    rw [accrueInterest_ok h]
    exact .inl rfl
  | claimRevenue =>
    obtain ⟨_, rfl, -⟩ := claimRevenue_ok h
    exact .inl rfl
  | draw safety sender recipient amount =>
    obtain ⟨_, rfl, -⟩ := draw_ok h
    exact .inl rfl
  | repay sender principal received =>
    obtain ⟨_, rfl, -⟩ := repay_ok h
    exact .inl rfl
  | recognizeLoss sender principal interest =>
    obtain ⟨rfl, -⟩ := recognizeLoss_ok h
    exact .inl rfl
  | usdg call =>
    simp only [exec, bind_eq_ok, revertIf_eq_ok, exists_const, orRevert_eq_ok, pure_eq_ok] at h
    obtain ⟨-, usdg, -, rfl⟩ := h
    exact .inl rfl
  | elapse seconds =>
    rw [exec, pure_eq_ok] at h
    exact .inl (h ▸ rfl)
  | _ =>
    obtain ⟨-, _, _, _, _, _, rfl⟩ := exec_switch rfl h
    exact .inl rfl

theorem Reachable.grounded {w : World} (h : Reachable w) : w.pool.shares.Grounded := by
  obtain ⟨start, ops, deployed, run⟩ := h
  refine run.invariant (fun w => w.pool.shares.Grounded) (fun w op w' g done => ?_) ?_
  · rcases exec_shares done with same | ⟨safety, call, moved⟩
    · rw [same]
      exact g
    · exact LenderVault.call_grounded vault_lawful g moved
  · obtain ⟨limit, -, fresh⟩ := deployed.pool_eq
    rw [fresh]
    exact .empty

end VariablePool

/-! A pool of each kind where a lender's thousand USDG was mostly lent out, some interest was paid,
its fee not yet claimed, and part of the principal written off. -/

namespace IsolatedPool

def scarceStart : World where
  cfg := sampleConfig
  now := 1000
  usdg := .empty
  pool := ⟨0, 0, 1000, 0, 0, 0, false, .empty⟩

def scarceOps : List Op :=
  [ .usdg (.mint 2 (10 ^ 9)), .usdg (.approve 2 101 (10 ^ 9)),
    .lender none (.deposit 2 2 (10 ^ 9)), .draw (some true) 100 3 (8 * 10 ^ 8),
    .elapse (30 * 86400), .usdg (.mint 100 (10 ^ 8)), .usdg (.approve 100 101 (10 ^ 8)),
    .repay 100 0 (6 * 10 ^ 6), .recognizeLoss 100 (3 * 10 ^ 8) 0, .elapse 86400 ]

def scarce : World := reached scarceStart (execAll exec scarceOps scarceStart)

theorem scarce_reachable : Reachable scarce :=
  ⟨scarceStart, scarceOps, ⟨rfl, fun _ => rfl⟩,
    run_of_execAll (eq_ok_reached _ (by decide +kernel))⟩

end IsolatedPool

namespace VariablePool

def scarceStart : World where
  cfg := sampleConfig
  now := 1000
  usdg := .empty
  pool := ⟨10 ^ 12, 0, 0, 200, 0, 0, 0, 1000, 0, 0, 0, false, false, .empty⟩

def scarceOps : List Op :=
  [ .usdg (.mint 2 (10 ^ 9)), .usdg (.approve 2 201 (10 ^ 9)),
    .lender none (.deposit 2 2 (10 ^ 9)), .draw (some true) 200 3 (8 * 10 ^ 8),
    .elapse (30 * 86400), .usdg (.mint 200 (10 ^ 8)), .usdg (.approve 200 201 (10 ^ 8)),
    .repay 200 0 (5 * 10 ^ 6), .recognizeLoss 200 (3 * 10 ^ 8) 0, .elapse 86400 ]

def scarce : World := reached scarceStart (execAll exec scarceOps scarceStart)

theorem scarce_reachable : Reachable scarce :=
  ⟨scarceStart, scarceOps, ⟨⟨10 ^ 12, by decide, rfl⟩, fun _ => rfl⟩,
    run_of_execAll (eq_ok_reached _ (by decide +kernel))⟩

end VariablePool

/-- In every reachable state of either pool, whatever the engine answers, every owner's exit limits
are honoured. -/
theorem exit_limits_honoured :
    (∀ w, IsolatedPool.Reachable w → ∀ safety owner,
      IsolatedPool.vault.HonoursLimits safety owner w) ∧
    ∀ w, VariablePool.Reachable w → ∀ safety owner,
      VariablePool.vault.HonoursLimits safety owner w :=
  ⟨fun _ reached => reached.sound.liquid.honours IsolatedPool.vault_lawful reached.grounded,
    fun _ reached => reached.sound.liquid.honours VariablePool.vault_lawful reached.grounded⟩

theorem scarce_limits_honoured :
    (IsolatedPool.vault.maxWithdraw (some true) 2 IsolatedPool.scarce = .ok 205400000 ∧
      IsolatedPool.vault.HonoursLimits (some true) 2 IsolatedPool.scarce) ∧
    VariablePool.vault.maxWithdraw (some true) 2 VariablePool.scarce = .ok 204400000 ∧
      VariablePool.vault.HonoursLimits (some true) 2 VariablePool.scarce :=
  ⟨⟨by decide +kernel, exit_limits_honoured.1 _ IsolatedPool.scarce_reachable (some true) 2⟩,
    by decide +kernel, exit_limits_honoured.2 _ VariablePool.scarce_reachable (some true) 2⟩

end Turret
