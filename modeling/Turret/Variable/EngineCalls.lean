import Turret.Variable.PoolBooks
import Turret.Library.LoanBook

/-! What the engine's calls leave of the variable-rate pool: its principal, the
interest it is owed and the rate integral, and when the pool accepts them. Once
no principal is left the pool drops the fraction of a unit it had carried. -/

namespace Turret.VariablePool

open Execution

/-- The pool as its engine finds it: the engine has no allowance open. -/
structure Ready (c : World) : Prop extends Sound c where
  idle : ∀ a, c.usdg.allowance c.cfg.creditEngine a = 0

/-- The debt limit, its schedule and retirement. -/
def limits (c : World) : ℕ × ℕ × ℕ × Bool :=
  (c.pool.debtLimit, c.pool.pendingDebtLimit, c.pool.debtLimitValidAfter, c.pool.retired)

/-- What a call leaves of the pool, all at one moment: principal `P` and scaled interest `G`. -/
structure CapitalStep (c c' : World) (P G : ℕ) : Prop where
  ready : Ready c'
  cfg_eq : c'.cfg = c.cfg
  now_eq : c'.now = c.now
  integral_eq : currentRateIntegral c' = currentRateIntegral c
  principal_eq : c'.pool.outstandingPrincipal = P
  owed_eq : owed c' = G
  settlement_eq : c'.pool.liquidationSettlementActive = c.pool.liquidationSettlementActive

namespace CapitalStep

variable {c d e : World} {P G Q K : ℕ}

theorem refl (h : Ready c) : CapitalStep c c c.pool.outstandingPrincipal (owed c) :=
  ⟨h, rfl, rfl, rfl, rfl, rfl, rfl⟩

theorem trans (h : CapitalStep c d P G) (k : CapitalStep d e Q K) : CapitalStep c e Q K :=
  ⟨k.ready, k.cfg_eq.trans h.cfg_eq, k.now_eq.trans h.now_eq, k.integral_eq.trans h.integral_eq,
    k.principal_eq, k.owed_eq, k.settlement_eq.trans h.settlement_eq⟩

end CapitalStep

/-- A step that moves no USDG. -/
structure LossStep (c c' : World) (P G : ℕ) : Prop extends CapitalStep c c' P G where
  usdg_eq : c'.usdg = c.usdg

/-- A quiet call of anyone but the engine, as the engine finds it afterwards. -/
theorem LenderStep.capital {c c' : World} (h : LenderStep c c') (ready : Ready c)
    (settlement : c'.pool.liquidationSettlementActive = c.pool.liquidationSettlementActive) :
    CapitalStep c c' c.pool.outstandingPrincipal (owed c) where
  ready := ⟨h.sound, fun a => by
    have spent := h.allowance_le c.cfg.creditEngine a
    rw [ready.idle] at spent
    rw [h.cfg_eq]
    exact Nat.eq_zero_of_le_zero spent⟩
  cfg_eq := h.cfg_eq
  now_eq := h.now_eq
  integral_eq := h.integral_eq
  principal_eq := h.principal_eq
  owed_eq := h.owed_eq
  settlement_eq := settlement

def Op.isLimitCall : Op → Bool
  | .scheduleDebtLimit .. | .executeDebtLimit .. | .lowerDebtLimit .. | .cancelDebtLimit ..
  | .retire .. => true
  | _ => false

/-- The owner's calls leave the freeze as it is. -/
theorem exec_limitCall {c c' : World} (h : Ready c) {op : Op} (hop : op.isLimitCall = true)
    (done : exec op c = .ok c') : CapitalStep c c' c.pool.outstandingPrincipal (owed c) := by
  have switch : op.isSwitch = true := by
    cases op <;> first | rfl | cases hop
  refine (exec_switch_lender h.toSound switch done).capital h ?_
  cases op with
  | scheduleDebtLimit | executeDebtLimit | lowerDebtLimit | cancelDebtLimit | retire =>
    simp only [exec, scheduleDebtLimit, executeDebtLimit, lowerDebtLimit, cancelDebtLimit, retire,
      bind_eq_ok, pure_eq_ok] at done
    obtain ⟨-, -, done⟩ := done
    first
    | exact done ▸ rfl
    | (obtain ⟨-, -, done⟩ := done
       first
       | exact done ▸ rfl
       | (obtain ⟨-, -, rfl⟩ := done
          rfl))
  | _ => cases hop

theorem movement_switches {c c' : World} (h : LenderVault.Movement vault c c') :
    limits c' = limits c ∧
      c'.pool.liquidationSettlementActive = c.pool.liquidationSettlementActive := by
  cases h with
  | enter usdg shares value paid minted _ _ _ _ _ _ done =>
    obtain ⟨-, rfl⟩ := refreshRate_eq_ok.mp done
    exact ⟨rfl, rfl⟩
  | leave usdg shares value cash paid burned _ _ _ _ _ _ _ _ _ done =>
    obtain ⟨-, rfl⟩ := refreshRate_eq_ok.mp done
    exact ⟨rfl, rfl⟩
  | shares shares _ done => exact done ▸ ⟨rfl, rfl⟩

/-- Others than the engine move neither principal nor what is owed, and throw no switch, while time
stands still. -/
theorem exec_foreign {c c' : World} (h : Ready c) {op : Op}
    (hop : op.sender ≠ some c.cfg.creditEngine) (still : op.isElapse = false)
    (done : exec op c = .ok c') :
    CapitalStep c c' c.pool.outstandingPrincipal (owed c) ∧ limits c' = limits c := by
  cases op with
  | elapse => cases still
  | lender safety call =>
    have moved := LenderVault.call_movement done
    have switches := movement_switches moved
    exact ⟨(movement_lender h.toSound moved).capital h switches.2, switches.1⟩
  | accrueInterest =>
    rw [accrueInterest_ok done]
    exact ⟨(synchronized_step h.toSound).capital h rfl, rfl⟩
  | claimRevenue =>
    have flow := (claimRevenue_flow h.toSound done).1
    obtain ⟨usdg, rfl, -, spent⟩ := claimRevenue_ok done
    have idle : ∀ a, usdg.allowance c.cfg.creditEngine a = 0 := fun a => by rw [spent, h.idle]
    exact ⟨⟨⟨flow.sound, idle⟩, rfl, rfl, rfl, rfl, rfl, rfl⟩, rfl⟩
  | usdg call =>
    obtain ⟨usdg, rfl, kept, spent, others⟩ := exec_usdg h.toSound done
    have quiet := gift_quiet h.toSound kept spent
    have idle : ∀ a, usdg.allowance c.cfg.creditEngine a = 0 := fun a =>
      Nat.eq_zero_of_le_zero ((others _ hop a).trans (h.idle a).le)
    exact ⟨⟨⟨quiet.sound, idle⟩, rfl, rfl, rfl, rfl, rfl, rfl⟩, rfl⟩
  | draw safety sender recipient amount =>
    obtain ⟨_, -, byEngine, -⟩ := draw_ok done
    exact absurd (congrArg some byEngine) hop
  | repay sender principal received =>
    obtain ⟨_, -, byEngine, -⟩ := repay_ok done
    exact absurd (congrArg some byEngine) hop
  | recognizeLoss sender principal interest =>
    exact absurd (congrArg some (recognizeLoss_ok done).2.1) hop
  | _ => exact absurd (exec_switch rfl done).1 hop

theorem accrueInterest_step {c c' : World} (h : Ready c) (done : accrueInterest c = .ok c') :
    LossStep c c' c.pool.outstandingPrincipal (owed c) := by
  rw [accrueInterest_ok done]
  exact ⟨(synchronized_step h.toSound).capital h rfl, rfl⟩

theorem draw_step {c c' : World} (h : Ready c) {safety : Option Bool} {sender recipient : Address}
    {amount : ℕ} (drawn : draw safety sender recipient amount c = .ok c') :
    CapitalStep c c' (c.pool.outstandingPrincipal + amount) (owed c) := by
  have sound := (draw_books h.toSound drawn).1
  have small := accrue_remainder_lt c
  obtain ⟨usdg, rfl, -, -, -, -, -, -, -, spent⟩ := draw_ok drawn
  refine ⟨⟨sound, fun a => ?_⟩, rfl, rfl, currentRateIntegral_booked small, rfl,
    (owed_booked small).trans (owed_of_accrue c), rfl⟩
  exact (congrFun (congrFun spent _) a).trans (h.idle a)

/-- The scaled interest `G` once `P` principal is left. -/
def keptOwed (P G : ℕ) : ℕ := if P = 0 then G / INTEREST_DENOMINATOR * INTEREST_DENOMINATOR else G

theorem keptOwed_of_pos {P : ℕ} (h : P ≠ 0) (G : ℕ) : keptOwed P G = G := if_neg h

theorem kept_booked {R r n : ℕ} (P : ℕ) (small : r < INTEREST_DENOMINATOR) (h : n ≤ R) :
    (R - n) * INTEREST_DENOMINATOR + keptRemainder P r =
      keptOwed P (R * INTEREST_DENOMINATOR + r - n * INTEREST_DENOMINATOR) := by
  have part := Nat.mul_le_mul_right INTEREST_DENOMINATOR h
  have left : R * INTEREST_DENOMINATOR + r - n * INTEREST_DENOMINATOR =
      (R - n) * INTEREST_DENOMINATOR + r := by
    rw [Nat.sub_mul]
    omega
  unfold keptRemainder keptOwed
  split_ifs
  · rw [left, Nat.mul_comm (R - n), Nat.mul_add_div denominator_pos, Nat.div_eq_of_lt small,
      Nat.add_zero, Nat.add_zero, Nat.mul_comm]
  · exact left.symm

theorem recognizeLoss_step {c c' : World} (h : Ready c) {sender : Address} {principal interest : ℕ}
    (lost : recognizeLoss sender principal interest c = .ok c') :
    LossStep c c' (c.pool.outstandingPrincipal - principal)
      (keptOwed (c.pool.outstandingPrincipal - principal)
        (owed c - interest * INTEREST_DENOMINATOR)) := by
  have sound := (recognizeLoss_books h.toSound lost).1
  have small := accrue_remainder_lt c
  obtain ⟨rfl, -, -, -, accrued⟩ := recognizeLoss_ok lost
  have smaller := (keptRemainder_le (c.pool.outstandingPrincipal - principal) _).trans_lt small
  refine ⟨⟨⟨sound, h.idle⟩, rfl, rfl, currentRateIntegral_booked smaller, rfl, ?_, rfl⟩, rfl⟩
  rw [owed_booked smaller, kept_booked _ small accrued, owed_of_accrue]

theorem repay_owed {c c' : World} {sender : Address} {principal received : ℕ}
    (repaid : repay sender principal received c = .ok c') :
    owed c' = keptOwed (c.pool.outstandingPrincipal - principal)
        (owed c - received * INTEREST_DENOMINATOR) ∧
      currentRateIntegral c' = currentRateIntegral c := by
  have small := accrue_remainder_lt c
  have smaller := (keptRemainder_le (c.pool.outstandingPrincipal - principal) _).trans_lt small
  obtain ⟨usdg, rfl, -, -, accrued, -⟩ := repay_ok repaid
  rw [owed_booked smaller, kept_booked _ small accrued, owed_of_accrue]
  exact ⟨rfl, currentRateIntegral_booked smaller⟩

theorem repay_checkpointed {c c' : World} {sender : Address} {principal received : ℕ}
    (repaid : repay sender principal received c = .ok c') : Checkpointed c' := by
  have small := accrue_remainder_lt c
  obtain ⟨usdg, rfl, -⟩ := repay_ok repaid
  exact booked_checkpointed ((keptRemainder_le _ _).trans_lt small)

theorem recognizeLoss_checkpointed {c c' : World} {sender : Address} {principal interest : ℕ}
    (lost : recognizeLoss sender principal interest c = .ok c') : Checkpointed c' := by
  have small := accrue_remainder_lt c
  obtain ⟨rfl, -⟩ := recognizeLoss_ok lost
  exact booked_checkpointed ((keptRemainder_le _ _).trans_lt small)

/-- The pool accepts exactly the losses its books hold. -/
theorem recognizeLoss_accepts {c : World} (h : Sound c) {principal interest : ℕ}
    (positive : 0 < principal + interest) (owes : principal ≤ c.pool.outstandingPrincipal)
    (earned : interest ≤ (accrue c).pool.interestReceivable) :
    ∃ c', recognizeLoss c.cfg.creditEngine principal interest c = .ok c' := by
  have covered := h.fees_le
  simp only [recognizeLoss, onlyEngine, bind_eq_ok, revertIf_eq_ok, exists_const,
    refreshRate_eq_ok, resetRemainder_eq, ne_eq, not_not, not_or, not_lt]
  exact ⟨_, trivial, ⟨by omega, owes, earned⟩, covered, rfl⟩

theorem le_receivable {c : World} {n : ℕ} (h : n * INTEREST_DENOMINATOR ≤ owed c) :
    n ≤ (accrue c).pool.interestReceivable :=
  le_of_scaled_le (accrue_remainder_lt c) (h.trans (owed_of_accrue c).ge)

/-! ### The settlement freeze -/

def withSettlement (active : Bool) (c : World) : World :=
  { c with pool := { c.pool with liquidationSettlementActive := active } }

theorem beginLiquidationSettlement_eq_ok {sender : Address} {c c' : World} :
    beginLiquidationSettlement sender c = .ok c' ↔ sender = c.cfg.creditEngine ∧
      c.pool.liquidationSettlementActive = false ∧ withSettlement true c = c' := by
  simp only [beginLiquidationSettlement, onlyEngine, bind_eq_ok, revertIf_eq_ok, exists_const,
    pure_eq_ok, ne_eq, not_not, Bool.not_eq_true, withSettlement]

theorem endLiquidationSettlement_eq_ok {sender : Address} {c c' : World} :
    endLiquidationSettlement sender c = .ok c' ↔ sender = c.cfg.creditEngine ∧
      c.pool.liquidationSettlementActive = true ∧ withSettlement false c = c' := by
  simp only [endLiquidationSettlement, onlyEngine, bind_eq_ok, revertIf_eq_ok, exists_const,
    pure_eq_ok, ne_eq, not_not, Bool.not_eq_false, withSettlement]

theorem Ready.withSettlement {c : World} (h : Ready c) (active : Bool) :
    Ready (withSettlement active c) :=
  ⟨⟨h.fees_le, h.last_le, h.remainder_lt, h.base_le, h.le_max, h.no_allowance⟩, h.idle⟩

theorem CapitalStep.settlement {c d : World} {P G : ℕ} (h : CapitalStep c d P G) (f : Bool) :
    CapitalStep (VariablePool.withSettlement f c) (VariablePool.withSettlement f d) P G :=
  ⟨h.ready.withSettlement f, h.cfg_eq, h.now_eq, h.integral_eq, h.principal_eq, h.owed_eq, rfl⟩

/-- A step made during the freeze, seen from outside it. -/
theorem CapitalStep.unsettle {f : Bool} {c d : World} {P G : ℕ}
    (h : CapitalStep (VariablePool.withSettlement f c) d P G) :
    CapitalStep c (VariablePool.withSettlement c.pool.liquidationSettlementActive d) P G :=
  ⟨h.ready.withSettlement _, h.cfg_eq, h.now_eq, h.integral_eq, h.principal_eq, h.owed_eq, rfl⟩

/-! ### A payment: the engine pulls it, approves it, and the pool pulls it on -/

/-- The payer's USDG in the engine's hands, approved for the pool. -/
def funded (payer : Address) (amount : ℕ) (c : World) : World :=
  { c with usdg := c.usdg.relay payer c.cfg.creditEngine c.cfg.self amount }

section Payment

variable {c : World} {payer : Address} {amount principal interest : ℕ}

theorem Ready.funded_sound (h : Ready c)
    (allowed : amount ≤ c.usdg.allowance payer c.cfg.creditEngine) :
    Sound (funded payer amount c) where
  fees_le := by
    have kept : c.pool.protocolFees ≤ (c.usdg.relay payer c.cfg.creditEngine c.cfg.self
        amount).balanceOf c.cfg.self := by
      rw [TokenLedger.relay_balance_target c.cfg.engine_ne_self h.no_allowance allowed]
      exact h.fees_le
    exact kept
  last_le := h.last_le
  remainder_lt := h.remainder_lt
  base_le := h.base_le
  le_max := h.le_max
  no_allowance := TokenLedger.relay_allowance_target c.cfg.engine_ne_self h.no_allowance

theorem repay_step (h : Ready c) (allowed : amount ≤ c.usdg.allowance payer c.cfg.creditEngine)
    {c' : World} (sum : principal + interest = amount)
    (repaid : repay c.cfg.creditEngine principal interest (funded payer amount c) = .ok c') :
    CapitalStep c c' (c.pool.outstandingPrincipal - principal)
      (keptOwed (c.pool.outstandingPrincipal - principal)
        (owed c - interest * INTEREST_DENOMINATOR)) := by
  subst sum
  have sound := (repay_books (h.funded_sound allowed) repaid).1
  obtain ⟨owed_eq, integral_eq⟩ := repay_owed repaid
  obtain ⟨usdg, rfl, -, -, -, -, pulled, -⟩ := repay_ok repaid
  exact ⟨⟨sound, TokenLedger.relay_spent h.idle pulled⟩, rfl, rfl, integral_eq, rfl, owed_eq, rfl⟩

/-- A payment within the books is never refused. -/
theorem repay_accepts (h : Ready c) (other : payer ≠ c.cfg.creditEngine)
    (allowed : amount ≤ c.usdg.allowance payer c.cfg.creditEngine)
    (sum : principal + interest = amount) (positive : 0 < amount)
    (owes : principal ≤ c.pool.outstandingPrincipal)
    (earned : interest ≤ (accrue c).pool.interestReceivable) :
    ∃ c', repay c.cfg.creditEngine principal interest (funded payer amount c) = .ok c' := by
  subst sum
  obtain ⟨usdg, pulled, received⟩ :
      ∃ usdg, (funded payer (principal + interest) c).usdg.transferFrom c.cfg.self
        c.cfg.creditEngine c.cfg.self (principal + interest) = some usdg ∧ _ :=
    TokenLedger.relay_pulled h.idle c.cfg.engine_ne_self other
  have covered := (h.funded_sound allowed).fees_le
  have small : (accrue c).pool.interestReceivable - interest ≤
      (accrue c).pool.interestReceivable := Nat.sub_le ..
  have fee_le : feeOn c (accrue c).pool.interestReceivable -
      feeOn c ((accrue c).pool.interestReceivable - interest) ≤ interest := repay_fee_le earned
  simp only [repay, onlyEngine, bind_eq_ok, revertIf_eq_ok, exists_const, orRevert_eq_ok,
    refreshRate_eq_ok, resetRemainder_eq, ne_eq, not_not, not_or, not_lt]
  refine ⟨_, rfl, ⟨owes, earned, by omega⟩, usdg, pulled, received, ?_, rfl⟩
  change c.pool.protocolFees + (feeOn c (accrue c).pool.interestReceivable -
    feeOn c ((accrue c).pool.interestReceivable - interest)) ≤ usdg.balanceOf c.cfg.self
  change c.pool.protocolFees ≤ (funded payer (principal + interest) c).usdg.balanceOf c.cfg.self
    at covered
  change usdg.balanceOf c.cfg.self = (funded payer (principal + interest) c).usdg.balanceOf
    c.cfg.self + (principal + interest) at received
  omega

end Payment

end Turret.VariablePool
