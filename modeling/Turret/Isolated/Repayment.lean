import Turret.Isolated.EngineCalls

/-! How the fixed-rate engine takes a payment, writes off a shortfall and ends a
loan. Each of the three is described by the state it leaves, together with the
only way it can fail: a payment fails for want of tokens, the other two never. -/

namespace Turret.IsolatedEngine

open Execution Rounding Function
open IsolatedPool (CapitalStep LossStep Ready owed)

variable {w w' : World} {b sender : Address} {amount : ℕ}

/-! ### Payment -/

/-- The state after a payment for `b` that left the pool at `capital`. -/
def paid (b payer : Address) (amount : ℕ) (capital : IsolatedPool.World) (w : World) : World :=
  let p := w.position b
  { w with
    capital
    engine :=
      { w.engine with
        positions := update w.engine.positions b (p.pay amount)
        log := (w.now, .repaid b payer (p.principalPart amount) (p.interestPart amount)) ::
          w.engine.log } }

/-- The payment in the engine's hands and approved for the pool. -/
theorem pull_approve_ok {u v : World}
    (pulled : pullUsdg sender amount w = .ok u) (approved : safeApprove amount u = .ok v) :
    v = { w with capital := IsolatedPool.funded sender amount w.capital } ∧
      amount ≤ w.usdg.allowance sender w.self ∧ amount ≤ w.usdg.balanceOf sender := by
  simp only [pullUsdg, bind_eq_ok, orRevert_eq_ok, revertIf_eq_ok, exists_const, pure_eq_ok,
    TokenLedger.transferFrom_eq_some] at pulled
  obtain ⟨usdg, ⟨⟨allowed, held⟩, rfl⟩, -, rfl⟩ := pulled
  simp only [safeApprove, bind_eq_ok, revertIf_eq_ok, exists_const, pure_eq_ok] at approved
  obtain ⟨-, rfl⟩ := approved
  exact ⟨rfl, allowed, held⟩

theorem pull_approve (h : Ready w.capital) (other : sender ≠ w.self)
    (allowed : amount ≤ w.usdg.allowance sender w.self) (held : amount ≤ w.usdg.balanceOf sender) :
    ∃ u, pullUsdg sender amount w = .ok u ∧
      safeApprove amount u = .ok { w with capital := IsolatedPool.funded sender amount w.capital } := by
  have received : ((w.usdg.approve sender w.self (w.usdg.allowance sender w.self - amount)).move
      sender w.self amount).balanceOf w.self = w.usdg.balanceOf w.self + amount := by
    rw [TokenLedger.move_dst other, TokenLedger.approve_balanceOf]
  simp only [pullUsdg, bind_eq_ok, orRevert_eq_ok, revertIf_eq_ok, exists_const, pure_eq_ok,
    TokenLedger.transferFrom_eq_some, safeApprove]
  refine ⟨_, ⟨_, ⟨⟨allowed, held⟩, rfl⟩, not_not.mpr received, rfl⟩, not_not.mpr (.inr ?_), rfl⟩
  change (TokenLedger.move ..).allowance w.self w.pool = 0
  rw [TokenLedger.move_allowance, TokenLedger.approve_other (.inl (Ne.symm other))]
  exact h.idle _

theorem repayPosition_ok (h : Good w) (hr : repayPosition sender b amount w = .ok w') :
    ∃ capital, w' = paid b sender amount capital w ∧
      CapitalStep w.capital capital
        (w.capital.pool.outstandingPrincipal - (w.position b).principalPart amount)
        (owed w.capital - (w.position b).interestPart amount * DENOMINATOR) ∧
      (sender ≠ w.self → sender ≠ w.pool →
        capital.usdg.balanceOf sender = w.usdg.balanceOf sender - amount ∧
        capital.usdg.allowance sender w.self = w.usdg.allowance sender w.self - amount) := by
  simp only [repayPosition, onPool, bind_eq_ok, mapError_eq_ok, checkedSub_eq_ok, pure_eq_ok] at hr
  obtain ⟨u, pulled, v, approved, x, ⟨capital, repaid, rfl⟩, left, ⟨-, rfl⟩, rfl⟩ := hr
  obtain ⟨rfl, allowed, -⟩ := pull_approve_ok pulled approved
  have step := IsolatedPool.repay_step h.ready allowed ((w.position b).parts_add amount) repaid
  refine ⟨capital, ?_, step, fun other away =>
    IsolatedPool.repay_payer other away ((w.position b).parts_add amount) repaid⟩
  simp only [paid, World.emit, World.setPosition, World.now, step.now_eq]
  rfl

/-- A payment within the debt needs nothing but the payer's tokens. -/
theorem repayPosition_funded (h : Good w) (other : sender ≠ w.self) (positive : 0 < amount)
    (within : amount ≤ (w.position b).debt)
    (allowed : amount ≤ w.usdg.allowance sender w.self) (held : amount ≤ w.usdg.balanceOf sender) :
    ∃ w', repayPosition sender b amount w = .ok w' := by
  obtain ⟨u, pulled, approved⟩ := pull_approve h.ready other allowed held
  have part := (w.position b).interestPart_le amount
  have principal := Position.principalPart_le within
  have earned : (w.position b).interestPart amount ≤
      (IsolatedPool.accrue w.capital).pool.interestReceivable :=
    IsolatedPool.le_receivable ((Nat.mul_le_mul_right _ part).trans (h.interest_le b))
  obtain ⟨capital, repaid⟩ := IsolatedPool.repay_accepts h.ready other
    ((w.position b).parts_add amount) positive (principal.trans (h.book_sound.principal_le b)) earned
  simp only [repayPosition, onPool, bind_eq_ok, mapError_eq_ok, checkedSub_eq_ok, pure_eq_ok]
  exact ⟨_, u, pulled, _, approved, _, ⟨capital, repaid, rfl⟩, _, ⟨principal, rfl⟩, rfl⟩

theorem repayPosition_error (h : Good w) (other : sender ≠ w.self) (positive : 0 < amount)
    (within : amount ≤ (w.position b).debt) {e : Error}
    (failed : repayPosition sender b amount w = .error e) : e = .erc20 := by
  by_cases allowed : amount ≤ w.usdg.allowance sender w.self ∧ amount ≤ w.usdg.balanceOf sender
  · obtain ⟨w', done⟩ := repayPosition_funded h other positive within allowed.1 allowed.2
    rw [failed] at done
    cases done
  · have refused : w.usdg.transferFrom w.self sender w.self amount = none := by
      rw [TokenLedger.transferFrom_eq_none]
      omega
    simp only [repayPosition, pullUsdg, refused, orRevert, error_bind] at failed
    exact (Except.error.inj failed).symm

/-! ### Shortfall -/

/-- The position after its loss was recognized. -/
def Position.written (p : Position) : Position := { p with principal := 0, interest := 0 }

theorem recognizeShortfall_idle (h : ¬((w.position b).collateral = 0 ∧ 0 < (w.position b).debt)) :
    recognizeShortfall b w = .ok w := by
  rw [recognizeShortfall, if_neg h]
  rfl

theorem recognizeShortfall_ok (h : Ready w.capital)
    (short : (w.position b).collateral = 0 ∧ 0 < (w.position b).debt)
    (owes : (w.position b).principal ≤ w.capital.pool.outstandingPrincipal)
    (earned : (w.position b).interest * DENOMINATOR ≤ owed w.capital) :
    ∃ capital log, recognizeShortfall b w = .ok
        { w with
          capital
          engine :=
            { w.engine with
              positions := update w.engine.positions b (Position.written (w.position b))
              log } } ∧
      LossStep w.capital capital
        (w.capital.pool.outstandingPrincipal - (w.position b).principal)
        (owed w.capital - (w.position b).interest * DENOMINATOR) := by
  obtain ⟨capital, lost⟩ := IsolatedPool.recognizeLoss_accepts short.2 owes
    (IsolatedPool.le_receivable earned)
  refine ⟨capital, (capital.now, .positionLoss b (w.position b).principal
    (w.position b).interest) :: w.engine.log, ?_, IsolatedPool.recognizeLoss_step h lost⟩
  simp only [recognizeShortfall, if_pos short, onPool, bind_eq_ok, mapError_eq_ok, pure_eq_ok]
  exact ⟨_, ⟨capital, lost, rfl⟩, rfl⟩

/-! ### The end of a loan -/

theorem clearRoundingInterest_ok (h : Ready w.capital) :
    ∃ capital log G, clearRoundingInterest w = .ok
        { w with capital, engine := { w.engine with log } } ∧
      LossStep w.capital capital w.capital.pool.outstandingPrincipal G ∧
      (w.engine.activeDebtPositions ≠ 0 → G = owed w.capital) := by
  by_cases last : w.engine.activeDebtPositions = 0 ∧ w.capital.pool.interestReceivable ≠ 0
  · have earned : w.capital.pool.interestReceivable ≤
        (IsolatedPool.accrue w.capital).pool.interestReceivable := Nat.le_add_right ..
    obtain ⟨capital, lost⟩ := IsolatedPool.recognizeLoss_accepts (c := w.capital) (by omega)
      (Nat.zero_le _) earned
    refine ⟨capital, (capital.now, .roundingInterestCleared w.capital.pool.interestReceivable) ::
      w.engine.log, _, ?_, IsolatedPool.recognizeLoss_step h lost, fun more => absurd last.1 more⟩
    simp only [clearRoundingInterest, if_pos last, onPool, bind_eq_ok, mapError_eq_ok, pure_eq_ok]
    exact ⟨_, ⟨capital, lost, rfl⟩, rfl⟩
  · refine ⟨w.capital, w.engine.log, _, ?_, ⟨.refl h, rfl⟩, fun _ => rfl⟩
    rw [clearRoundingInterest, if_neg last]
    rfl

theorem finish_idle (h : (w.position b).debt ≠ 0) : finish b w = .ok w := by
  simp only [finish, if_neg h]
  rfl

/-- Without debt the loan leaves the registry, and this never fails. -/
theorem finish_ok (h : Ready w.capital) (none : (w.position b).debt = 0)
    (wellFormed : w.engine.active.WellFormed) (listed : w.engine.active.index b ≠ 0)
    (count : w.engine.activeDebtPositions = w.engine.active.members.length) :
    ∃ capital log G active, finish b w = .ok
        { w with
          capital
          engine :=
            { w.engine with
              positions := update w.engine.positions b { w.position b with remainder := 0 }
              activeDebtPositions := active.members.length
              active
              log } } ∧
      w.engine.active.remove b = some active ∧
      LossStep w.capital capital w.capital.pool.outstandingPrincipal G ∧
      (active.members ≠ [] → G = owed w.capital) := by
  obtain ⟨active, removed⟩ := SwapPop.remove_isSome wellFormed listed
  have fewer := SwapPop.remove_length removed
  have positive : 1 ≤ w.engine.activeDebtPositions := by omega
  have counted : w.engine.activeDebtPositions - 1 = active.members.length := by omega
  obtain ⟨capital, log, G, done, step, kept⟩ := clearRoundingInterest_ok (w :=
    { w with
      engine :=
        { w.engine with
          positions := update w.engine.positions b { w.position b with remainder := 0 }
          activeDebtPositions := active.members.length
          active } }) h
  refine ⟨capital, log, G, active, ?_, removed, step, fun more => kept (by simpa using more)⟩
  simp only [finish, if_pos none, bind_eq_ok, checkedSub_eq_ok, orRevert_eq_ok]
  exact ⟨_, ⟨positive, rfl⟩, active, removed, counted ▸ done⟩

end Turret.IsolatedEngine
