import Turret.Variable.PoolBooks

/-! The stored rate follows the utilization: a call that moves cash or principal
ends by refreshing it, and `claimRevenue`, which does not, moves neither. Only
USDG sent to the pool directly leaves it behind, until the next refresh. -/

namespace Turret.VariablePool

open Execution

/-- `borrowAprBps == rateAtUtilization(utilizationBps())`, in the contract's own views. -/
def FollowsUtilization (w : World) : Prop :=
  ∃ utilization, utilizationBps w = .ok utilization ∧
    rateAtUtilization w.cfg utilization = .ok w.pool.borrowAprBps

theorem Synced.followsUtilization {w : World} (hw : Sound w) (h : Synced w) :
    FollowsUtilization w := by
  have inRange : ¬10000 < utilization w.pool.outstandingPrincipal (books w).cash :=
    Nat.not_lt.mpr (utilization_le ..)
  refine ⟨utilization w.pool.outstandingPrincipal (books w).cash, ?_, ?_⟩
  · simp only [utilizationBps, bind_eq_ok, availableCash_eq_ok, pure_eq_ok]
    exact ⟨_, ⟨hw.fees_le, rfl⟩, rfl⟩
  · rw [rateAtUtilization_eq, if_neg inRange, h]
    rfl

/-- The rate and what it is computed from are as they were. -/
theorem Synced.of_eq {w w' : World} (h : Synced w) (cfg_eq : w'.cfg = w.cfg)
    (rate_eq : w'.pool.borrowAprBps = w.pool.borrowAprBps)
    (principal_eq : w'.pool.outstandingPrincipal = w.pool.outstandingPrincipal)
    (cash_eq : (books w').cash = (books w).cash) : Synced w' := by
  unfold Synced currentRate at *
  rw [rate_eq, cfg_eq, principal_eq, cash_eq, h]

theorem refreshRate_synced {w w' : World} (h : refreshRate w = .ok w') : Synced w' :=
  (refreshRate_eq_ok.mp h).2 ▸ refreshed_synced w

theorem movement_synced {w w' : World} (hs : Synced w) (h : LenderVault.Movement vault w w') :
    Synced w' := by
  cases h with
  | enter usdg shares value paid minted _ _ _ _ _ _ done => exact refreshRate_synced done
  | leave usdg shares value cash paid burned _ _ _ _ _ _ _ _ _ done =>
    exact refreshRate_synced done
  | shares shares _ done => exact done ▸ hs.of_eq rfl rfl rfl rfl

/-- USDG sent to the pool by the token itself. -/
def Op.isDonation (self : Address) : Op → Prop
  | .usdg call => call.receiver = some self
  | _ => False

instance (self : Address) (op : Op) : Decidable (op.isDonation self) := by
  cases op <;> unfold Op.isDonation <;> infer_instance

theorem exec_synced {w w' : World} (hw : Sound w) (hs : Synced w) {op : Op}
    (hop : ¬op.isDonation w.cfg.self) (h : exec op w = .ok w') : Synced w' := by
  cases op with
  | lender safety call => exact movement_synced hs (LenderVault.call_movement h)
  | accrueInterest => exact refreshRate_synced h
  | claimRevenue =>
    have same := (claimRevenue_flow hw h).2
    obtain ⟨usdg, rfl, -⟩ := claimRevenue_ok h
    exact hs.of_eq rfl rfl rfl (congrArg LenderBooks.cash same)
  | draw safety sender recipient amount =>
    obtain ⟨_, rfl, -⟩ := draw_ok h
    exact refreshed_synced _
  | repay sender principal received =>
    obtain ⟨_, rfl, -⟩ := repay_ok h
    exact refreshed_synced _
  | recognizeLoss sender principal interest =>
    obtain ⟨rfl, -⟩ := recognizeLoss_ok h
    exact refreshed_synced _
  | usdg call =>
    simp only [exec, bind_eq_ok, revertIf_eq_ok, exists_const, orRevert_eq_ok, pure_eq_ok] at h
    obtain ⟨away, usdg, moved, rfl⟩ := h
    have kept := (TokenCall.exec_closed moved away hw.no_allowance).2 hop
    exact hs.of_eq rfl rfl rfl (by simp only [books, kept])
  | elapse seconds =>
    rw [exec, pure_eq_ok] at h
    exact h ▸ hs.of_eq rfl rfl rfl rfl
  | _ =>
    obtain ⟨-, _, _, _, _, _, rfl⟩ := exec_switch rfl h
    exact hs.of_eq rfl rfl rfl rfl

theorem Deployed.synced {w : World} (h : Deployed w) : Synced w := by
  obtain ⟨limit, -, pool_eq⟩ := h.pool_eq
  have idle : rate w.cfg 0 = w.cfg.baseAprBps := by
    rw [rate, if_pos (Nat.zero_le _), Rounding.mulDiv, Nat.mul_zero, Nat.zero_div, Nat.add_zero]
  simp only [Synced, currentRate, pool_eq, utilization, if_pos, idle]

/-! ### When the rate changes -/

/-- Time stands still in a call, the rate integral is the same before and after, and the stored rate
changes only once the integral and the interest have been brought up to date at the old one. -/
structure Checked (w w' : World) : Prop where
  now_eq : w'.now = w.now
  integral_eq : currentRateIntegral w' = currentRateIntegral w
  rate : w'.pool.borrowAprBps = w.pool.borrowAprBps ∧ w'.pool.lastAccrual = w.pool.lastAccrual ∨
    w'.pool.lastAccrual = w.now

theorem Checked.refl (w : World) : Checked w w := ⟨rfl, rfl, .inl ⟨rfl, rfl⟩⟩

theorem Checked.trans {u v w : World} (h : Checked u v) (k : Checked v w) : Checked u w where
  now_eq := k.now_eq.trans h.now_eq
  integral_eq := k.integral_eq.trans h.integral_eq
  rate := by
    rcases k.rate with ⟨rate, last⟩ | last
    · rw [rate, last]
      exact h.rate
    · exact .inr (last.trans h.now_eq)

/-- What the integral reads is as it was. -/
theorem Checked.of_eq {w w' : World} (now_eq : w'.now = w.now)
    (kept : (w'.pool.borrowAprBps, w'.pool.storedRateIntegral, w'.pool.lastAccrual) =
      (w.pool.borrowAprBps, w.pool.storedRateIntegral, w.pool.lastAccrual)) : Checked w w' := by
  simp only [Prod.mk.injEq] at kept
  obtain ⟨rate, stored, last⟩ := kept
  exact ⟨now_eq, by rw [currentRateIntegral, currentRateIntegral, now_eq, rate, stored, last],
    .inl ⟨rate, last⟩⟩

/-- The call checkpointed first. -/
theorem Checked.of_checkpoint {w w' : World} (now_eq : w'.now = w.now)
    (last : w'.pool.lastAccrual = w.now)
    (stored : w'.pool.storedRateIntegral = currentRateIntegral w) : Checked w w' := by
  refine ⟨now_eq, ?_, .inr last⟩
  rw [currentRateIntegral, stored, now_eq, last, Nat.sub_self, Nat.zero_mul, Nat.add_zero]

theorem booked_checked (w : World) (usdg : TokenLedger Address) (shares : ERC4626.ShareLedger)
    (principal interest remainder fees loss : ℕ) :
    Checked w (booked w usdg shares principal interest remainder fees loss) :=
  .of_checkpoint rfl rfl rfl

theorem exec_checked {w w' : World} {op : Op} (still : op.isElapse = false)
    (h : exec op w = .ok w') : Checked w w' := by
  cases op with
  | lender safety call =>
    cases LenderVault.call_movement h with
    | enter usdg shares value paid minted _ _ _ _ _ _ done =>
      obtain ⟨-, rfl⟩ := refreshRate_eq_ok.mp done
      exact .of_checkpoint rfl rfl rfl
    | leave usdg shares value cash paid burned _ _ _ _ _ _ _ _ _ done =>
      obtain ⟨-, rfl⟩ := refreshRate_eq_ok.mp done
      exact .of_checkpoint rfl rfl rfl
    | shares shares _ done => exact done ▸ .of_eq rfl rfl
  | accrueInterest =>
    rw [accrueInterest_ok h]
    exact .of_checkpoint rfl rfl rfl
  | claimRevenue =>
    obtain ⟨usdg, rfl, -⟩ := claimRevenue_ok h
    exact .of_eq rfl rfl
  | draw safety sender recipient amount =>
    obtain ⟨_, rfl, -⟩ := draw_ok h
    exact booked_checked ..
  | repay sender principal received =>
    obtain ⟨_, rfl, -⟩ := repay_ok h
    exact booked_checked ..
  | recognizeLoss sender principal interest =>
    obtain ⟨rfl, -⟩ := recognizeLoss_ok h
    exact booked_checked ..
  | usdg call =>
    simp only [exec, bind_eq_ok, revertIf_eq_ok, exists_const, orRevert_eq_ok, pure_eq_ok] at h
    obtain ⟨-, usdg, -, rfl⟩ := h
    exact .of_eq rfl rfl
  | elapse seconds => cases still
  | _ =>
    obtain ⟨-, _, _, _, _, _, rfl⟩ := exec_switch rfl h
    exact .of_eq rfl rfl

/-! ### The curve -/

/-- The curve answers for every utilization, within its ends, and never falls. -/
theorem rateAtUtilization_rises (cfg : Config) {u v : ℕ} (le : u ≤ v) (whole : v ≤ 10000) :
    ∃ r s, rateAtUtilization cfg u = .ok r ∧ rateAtUtilization cfg v = .ok s ∧
      cfg.baseAprBps ≤ r ∧ r ≤ s ∧ s ≤ cfg.maxAprBps := by
  refine ⟨rate cfg u, rate cfg v, ?_, ?_, base_le_rate cfg u, rate_mono le,
    rate_le_max whole⟩
  · rw [rateAtUtilization_eq, if_neg (Nat.not_lt.mpr (le.trans whole))]
  · rw [rateAtUtilization_eq, if_neg (Nat.not_lt.mpr whole)]

end Turret.VariablePool
