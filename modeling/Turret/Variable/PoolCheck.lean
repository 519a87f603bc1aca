import Turret.Variable.Reconciliation

/-! The pool answers `InvalidAmount` to a payment or a loss beyond its books. No
call of the variable-rate engine ever meets this answer. -/

namespace Turret.VariableEngine

open Execution Rounding Function
open VariablePool (Ready owed)

variable {hook callback : World → Except Error World} {w w' : World} {b : Address}

/-- Code that does not fail with the pool's `InvalidAmount`; no script does. -/
def NeverInvalid (f : World → Except Error World) : Prop :=
  ∀ v, f v ≠ .error (.pool .invalidAmount)

theorem Script.run_neverInvalid (s : Script) : NeverInvalid s.run := by
  induction s with
  | «return» =>
    intro v failed
    cases failed
  | revert =>
    intro v failed
    cases failed
  | call op hook callback rest _ _ ih => exact fun v => ih _

theorem refreshRate_ne_invalid (c : VariablePool.World) :
    VariablePool.refreshRate c ≠ .error .invalidAmount := by
  have inRange (principal cash : ℕ) : ¬10000 < VariablePool.utilization principal cash :=
    Nat.not_lt.mpr (VariablePool.utilization_le principal cash)
  simp [VariablePool.refreshRate, VariablePool.utilizationBps, VariablePool.availableCash,
    VariablePool.rateAtUtilization_eq, bind_ne_error, inRange]

theorem draw_ne_invalid {safety : Option Bool} {sender recipient : Address} {amount : ℕ}
    (positive : amount ≠ 0) (c : VariablePool.World) :
    VariablePool.draw safety sender recipient amount c ≠ .error .invalidAmount := by
  have sent : ∀ d, VariablePool.vault.sendExact recipient amount d ≠ .error .invalidAmount := by
    intro d
    simp [LenderVault.sendExact, bind_ne_error]
  simp only [VariablePool.draw, VariablePool.onlyEngine, VariablePool.availableCash, bind_ne_error,
    revertIf_eq_error, revertIf_eq_ok, checkedSub_eq_error, reduceCtorEq, and_false,
    not_false_eq_true, implies_true, and_true, ne_eq, sent, positive, refreshRate_ne_invalid]

theorem settle_accepts (h : Ready w.capital) (b : Address) : settle b w = .ok (afterSettle b w) :=
  (settle_eq_ok h.toSound).mpr rfl

theorem onPool_ne_invalid {call : VariablePool.World → Except PoolError VariablePool.World}
    (never : ∀ c, call c ≠ .error .invalidAmount) : NeverInvalid (onPool call) := by
  intro v
  simp [onPool, never]

theorem pullCollateral_ne_invalid (quiet : NeverInvalid hook) (src : Address) (amount : ℕ) :
    NeverInvalid (pullCollateral hook src amount) := by
  intro v
  simp [pullCollateral, bind_ne_error, quiet _]

theorem sendCollateral_ne_invalid (quiet : NeverInvalid hook) (dst : Address) (amount : ℕ) :
    NeverInvalid (sendCollateral hook dst amount) := by
  intro v
  simp [sendCollateral, bind_ne_error, quiet _]

theorem price_ne_invalid (w : World) : price w ≠ .error (.pool .invalidAmount) := by
  simp [price]

theorem depositCollateralFrom_ne_invalid (quiet : NeverInvalid hook) (payer b : Address)
    (amount : ℕ) : NeverInvalid (depositCollateralFrom hook payer b amount) := by
  intro v
  simp [depositCollateralFrom, requirePool, bind_ne_error, pullCollateral_ne_invalid quiet _ _ _]

theorem checkExit_ne_invalid (p : Position) (amount : ℕ) (w : World) :
    checkExit p amount w ≠ .error (.pool .invalidAmount) := by
  unfold checkExit
  split_ifs
  · simp
  · simp [bind_ne_error, borrowingPrice]

theorem withdrawCollateralFor_ne_invalid (h : Ready w.capital) (quiet : NeverInvalid hook)
    (b recipient : Address) (amount : ℕ) :
    withdrawCollateralFor hook b amount recipient w ≠ .error (.pool .invalidAmount) := by
  simp [withdrawCollateralFor, requirePool, bind_ne_error, settle_accepts h, checkExit_ne_invalid,
    sendCollateral_ne_invalid quiet _ _ _]

theorem borrowFor_ne_invalid (h : Ready w.capital) (b : Address) (amount : ℕ) :
    borrowFor b amount w ≠ .error (.pool .invalidAmount) := by
  simp only [borrowFor, requirePool, borrowingPrice, bind_ne_error, revertIf_eq_error,
    revertIf_eq_ok, reduceCtorEq, and_false, not_false_eq_true, implies_true, and_true, true_and,
    ne_eq, pure_ne_error, settle_accepts h]
  intro _ _ _ _ _ positive s _ _ _ value _ _ _
  exact onPool_ne_invalid (draw_ne_invalid positive) _

theorem repayUpTo_ne_invalid (h : Good w) {sender : Address} (other : sender ≠ w.self) (b : Address)
    (maxAmount : ℕ) : repayUpTo sender b maxAmount w ≠ .error (.pool .invalidAmount) := by
  simp only [repayUpTo, requirePool, bind_ne_error, revertIf_eq_ok, ne_eq, revertIf_eq_error,
    reduceCtorEq, and_false, not_false_eq_true, true_and, pure_ne_error, implies_true, and_true,
    settle_accepts h.ready, Except.ok.injEq, forall_eq']
  intro _ bound _ positive _ meaningful
  have within : min maxAmount ((afterSettle b w).position b).debt ≤
      ((afterSettle b w).position b).debt := min_le_right ..
  have positive := Nat.pos_of_ne_zero positive
  have hs := h.afterSettle b
  refine ⟨fun failed => ?_, fun v repaid failed => ?_⟩
  · cases repayPosition_error hs.ready other positive within (hs.book_sound.principal_le b)
      (hs.interest_le b) failed
  · obtain ⟨w', done, -⟩ := finish_paid hs positive within repaid
    rw [failed] at done
    cases done

theorem close_ne_invalid (h : Good w) (quiet : NeverInvalid hook) {sender : Address}
    (other : sender ≠ w.self) (maxRepay : ℕ) (recipient : Address) :
    close hook sender maxRepay recipient w ≠ .error (.pool .invalidAmount) := by
  simp only [close, bind_ne_error, ne_eq, repayUpTo_ne_invalid h other, revertIf_eq_error,
    reduceCtorEq, and_false, not_false_eq_true, true_and, implies_true, and_true, pure_ne_error,
    Prod.forall]
  intro v n repaid _ _
  have ready := (repayUpTo_moved h repaid none).loc.ready
  unfold withdrawRest
  dsimp only
  split_ifs
  · exact withdrawCollateralFor_ne_invalid ready quiet _ _ _
  · exact pure_ne_error _ _

theorem liquidationQuote_ne_invalid (cfg : Config) (collateral debt value maxRepay : ℕ) :
    liquidationQuote cfg collateral debt value maxRepay ≠ .error (.pool .invalidAmount) := by
  have part : ∀ repayCap paid, partialPayment cfg collateral debt value repayCap paid ≠
      .error (.pool .invalidAmount) := by
    intro repayCap paid
    unfold partialPayment
    split_ifs <;> simp [bind_ne_error]
  have chosen : ∀ covered repayCap paid, seizure cfg collateral debt value covered repayCap paid ≠
      .error (.pool .invalidAmount) := by
    intro covered repayCap paid
    unfold seizure
    split_ifs <;> simp [part]
  simp [liquidationQuote, bind_ne_error, chosen]

theorem releaseCollateral_ne_invalid (h : Ready w.capital) (b : Address)
    (maxRepay minCollateral : ℕ) :
    releaseCollateral b maxRepay minCollateral w ≠ .error (.pool .invalidAmount) := by
  have begun : ∀ c, VariablePool.beginLiquidationSettlement w.self c ≠ .error .invalidAmount := by
    intro c
    simp [VariablePool.beginLiquidationSettlement, VariablePool.onlyEngine, bind_ne_error]
  simp only [releaseCollateral, requirePool, bind_ne_error, revertIf_eq_error, reduceCtorEq,
    and_false, not_false_eq_true, implies_true, and_true, true_and, ne_eq, pure_ne_error,
    settle_accepts h, price_ne_invalid, liquidationQuote_ne_invalid, checkedSub_eq_error,
    Except.ok.injEq, forall_eq', afterSettle_self]
  intro _ _ value _ p _ _ _
  exact onPool_ne_invalid begun _

theorem endLiquidation_ne_invalid (sender b : Address) (n m : ℕ) :
    NeverInvalid (endLiquidation sender b n m) := by
  intro v
  have ended : ∀ c, VariablePool.endLiquidationSettlement v.self c ≠ .error .invalidAmount := by
    intro c
    simp [VariablePool.endLiquidationSettlement, VariablePool.onlyEngine, bind_ne_error]
  simp [endLiquidation, onPool_ne_invalid ended _]

/-- A payment that was quoted goes through once the tokens are there. -/
theorem settleLiquidation_ne_invalid (h : Payable b w) {sender : Address} (other : sender ≠ w.self)
    {paid : ℕ} (positive : 0 < paid) (within : paid ≤ (w.position b).debt) :
    settleLiquidation sender b paid w ≠ .error (.pool .invalidAmount) := by
  simp only [settleLiquidation, bind_ne_error]
  refine ⟨fun failed => ?_, fun v repaid => ?_⟩
  · cases repayPosition_error h.ready other positive within h.principal_le h.interest_le failed
  · obtain ⟨w', done, -⟩ := conclude h within repaid
    obtain ⟨x, short, finished⟩ := (bind_eq_ok ..).mp done
    refine ⟨by rw [short]; simp, fun y same => ?_⟩
    rw [short] at same
    rw [← Except.ok.inj same, finished]
    simp

theorem liquidate_ne_invalid (h : Good w) (quiet : NeverInvalid hook) {sender : Address}
    (other : sender ≠ w.self) (b : Address) (maxRepay minCollateral : ℕ) :
    liquidate hook sender b maxRepay minCollateral w ≠ .error (.pool .invalidAmount) := by
  simp only [liquidate, bind_ne_error, ne_eq, releaseCollateral_ne_invalid h.ready,
    not_false_eq_true, true_and, Prod.forall]
  intro v n m release
  obtain ⟨-, -, ⟨value, -, quoted⟩, -, rfl⟩ := releaseCollateral_ok h.ready release
  obtain ⟨positive, within, -⟩ := liquidationQuote_ok quoted
  have hs := h.afterSettle b
  have owes : ((afterSettle b w).position b).principal ≠ 0 := by
    rw [ne_eq, ← hs.debt_eq_zero]
    omega
  exact ⟨settleLiquidation_ne_invalid (hs.payable_released owes) other positive
      (by rw [released_position]; exact within),
    fun _ _ => ⟨sendCollateral_ne_invalid quiet _ _ _, fun _ _ => endLiquidation_ne_invalid _ _ _ _ _⟩⟩

theorem liquidateWithCallback_ne_invalid (h : Good w) (entered : w.engine.entered = true)
    (freezes : Freezes hook) (freezes' : Freezes callback) (quiet : NeverInvalid hook)
    (quiet' : NeverInvalid callback) {sender : Address} (other : sender ≠ w.self) (b : Address)
    (maxRepay minCollateral : ℕ) :
    liquidateWithCallback hook callback sender b maxRepay minCollateral w ≠
      .error (.pool .invalidAmount) := by
  simp only [liquidateWithCallback, bind_ne_error, ne_eq, revertIf_eq_error, reduceCtorEq, and_false,
    releaseCollateral_ne_invalid h.ready, not_false_eq_true, true_and, Prod.forall]
  intro _ _ v n m release
  obtain ⟨-, -, ⟨value, -, quoted⟩, -, rfl⟩ := releaseCollateral_ok h.ready release
  obtain ⟨positive, within, -⟩ := liquidationQuote_ok quoted
  have hs := h.afterSettle b
  have owes : ((afterSettle b w).position b).principal ≠ 0 := by
    rw [ne_eq, ← hs.debt_eq_zero]
    omega
  refine ⟨sendCollateral_ne_invalid quiet _ _ _, fun u sent => ⟨quiet' _, fun y called => ⟨?_, fun _ _ =>
    endLiquidation_ne_invalid _ _ _ _ _⟩⟩⟩
  obtain ⟨t, first, -⟩ := sendCollateral_ok (w := released b m true w.collateral (afterSettle b w))
    ⟨hs.ready.withSettlement true, hs.closed⟩ entered freezes sent
  have frozen := first.trans (freezes' _ _ first.calm (first.entered_eq.trans entered) called)
  have payable := (hs.payable_released owes (m := m) (f := true) (t := t)).frozen frozen
  refine settleLiquidation_ne_invalid payable ?_ positive ?_
  · rw [frozen.self_eq]
    exact other
  · rw [frozen.position_eq]
    exact (released_position (b := b) (n := m) (f := true) (t := t)).symm ▸ within

theorem lendingAction_ne_invalid (h : Good w) (entered : w.engine.entered = true)
    (freezes : Freezes hook) (quiet : NeverInvalid hook) (payer b : Address)
    (collateralAmount debtAmount : ℕ) :
    (depositCollateralFrom hook payer b collateralAmount w >>= borrowFor b debtAmount) ≠
      .error (.pool .invalidAmount) := by
  simp only [bind_ne_error, ne_eq, depositCollateralFrom_ne_invalid quiet _ _ _ _,
    not_false_eq_true, true_and]
  intro v deposited
  have ready := (depositCollateralFrom_acted h entered freezes deposited).1.loc.ready
  exact borrowFor_ne_invalid ready _ _

theorem executeBorrowIntent_ne_invalid (h : Good w) (entered : w.engine.entered = true)
    (freezes : Freezes hook) (quiet : NeverInvalid hook) (instruction : BorrowIntent)
    (signature : Signature) (proof : List (Fin 256)) :
    executeBorrowIntent hook instruction signature proof w ≠ .error (.pool .invalidAmount) := by
  have priced : ∀ v, checkIntentPrice instruction proof v ≠ .error (.pool .invalidAmount) := by
    intro v
    unfold checkIntentPrice
    split_ifs <;> simp [refreshExecutionProof, borrowingPrice, bind_ne_error]
  have acted : ∀ v, Good v → v.engine.entered = true →
      intentAction hook instruction v ≠ .error (.pool .invalidAmount) := by
    intro v hv entered
    unfold intentAction
    split_ifs
    · exact lendingAction_ne_invalid hv entered freezes quiet _ _ _ _
    · exact borrowFor_ne_invalid hv.ready _ _
    · exact withdrawCollateralFor_ne_invalid hv.ready quiet _ _ _
    · simp
  simp only [executeBorrowIntent, bind_ne_error, ne_eq, revertIf_eq_error, reduceCtorEq, and_false,
    not_false_eq_true, true_and, implies_true, and_true, pure_ne_error, priced]
  intro _ _ _ _ _ _
  have counted : Frozen w { w with
      engine :=
        { w.engine with
          borrowIntentNonces := update w.engine.borrowIntentNonces instruction.owner
            (w.engine.borrowIntentNonces instruction.owner + 1) } } :=
    h.toCalm.frozen_engine rfl rfl rfl rfl rfl rfl rfl id
  exact acted _ ((counted.step h.toLocal).good h) entered

theorem executeApproved_ne_invalid (h : Good w) (entered : w.engine.entered = true)
    (freezes : Freezes hook) (quiet : NeverInvalid hook) (sender : Address) (a : Approval)
    (signature : Signature) :
    executeApproved hook sender a signature w ≠ .error (.pool .invalidAmount) := by
  have acted : ∀ v, Good v → v.engine.entered = true →
      approvedAction hook sender a v ≠ .error (.pool .invalidAmount) := by
    intro v hv entered
    unfold approvedAction
    split_ifs
    · exact lendingAction_ne_invalid hv entered freezes quiet _ _ _ _
    · exact borrowFor_ne_invalid hv.ready _ _
    · exact withdrawCollateralFor_ne_invalid hv.ready quiet _ _ _
    · simp
  simp only [executeApproved, bind_ne_error, ne_eq, revertIf_eq_error, reduceCtorEq, and_false,
    not_false_eq_true, true_and, implies_true, and_true, pure_ne_error]
  intro _ _ _ _
  have counted : Frozen w { w with
      engine :=
        { w.engine with
          approvalNonces := update w.engine.approvalNonces sender
            (w.engine.approvalNonces sender + 1) } } :=
    h.toCalm.frozen_engine rfl rfl rfl rfl rfl rfl rfl id
  have priced := ((counted.step h.toLocal).good h).flagged w.engine.entered a.price
  exact acted _ priced entered

theorem submitPrice_ne_invalid (p : Price) (signature : Signature) :
    NeverInvalid (submitPrice p signature) := by
  intro v
  simp [submitPrice, bind_ne_error]

theorem nonReentrant_ne_invalid (h : Good w) {body : World → Except Error World}
    (never : Good (w.setEntered true) →
      body (w.setEntered true) ≠ .error (.pool .invalidAmount)) :
    nonReentrant body w ≠ .error (.pool .invalidAmount) := by
  simp only [nonReentrant, bind_ne_error, ne_eq, revertIf_eq_error, reduceCtorEq, and_false,
    not_false_eq_true, true_and, implies_true, and_true, pure_ne_error]
  exact fun _ _ => never h.setEntered

/-- No engine call is refused by the pool's check of a payment or a loss. -/
theorem exec_ne_invalid (h : Good w) {c : Call} (engineCall : ∀ o, c.op ≠ .capital o) :
    exec c w ≠ .error (.pool .invalidAmount) := by
  obtain ⟨op, hookScript, callbackScript⟩ := c
  have freezes := hookScript.run_freezes
  have freezes' := callbackScript.run_freezes
  have quiet := hookScript.run_neverInvalid
  have quiet' := callbackScript.run_neverInvalid
  simp only [exec, perform, bind_ne_error, revertIf_eq_ok, ne_eq, revertIf_eq_error, reduceCtorEq,
    and_false, not_false_eq_true, true_and, not_or, pure_ne_error, implies_true, and_true]
  rintro _ ⟨notEngine, -⟩
  have away : ∀ sender, op.sender = some sender → sender ≠ w.self :=
    fun sender called same => notEngine (same ▸ called)
  have limited : ∀ sender (call : Address → VariablePool.World → Except PoolError VariablePool.World),
      (∀ a c, call a c ≠ .error .invalidAmount) →
      ownerCall sender call w ≠ .error (.pool .invalidAmount) := by
    intro sender call never
    simp only [ownerCall, onlyOwner, requirePool, bind_ne_error, ne_eq, revertIf_eq_error,
      reduceCtorEq, and_false, not_false_eq_true, true_and]
    exact fun _ _ _ _ => onPool_ne_invalid (never _) w
  cases op with
  | capital op => exact absurd rfl (engineCall op)
  | executeBorrowIntent sender instruction signature proof =>
    exact nonReentrant_ne_invalid h (fun hw =>
      executeBorrowIntent_ne_invalid hw rfl freezes quiet _ _ _)
  | depositCollateral sender b amount =>
    exact nonReentrant_ne_invalid h (fun _ => depositCollateralFrom_ne_invalid quiet _ _ _ _)
  | depositAndBorrow sender collateralAmount borrowAmount =>
    simp only [run]
    exact nonReentrant_ne_invalid h (fun hw =>
      lendingAction_ne_invalid hw rfl freezes quiet _ _ _ _)
  | borrow sender amount =>
    exact nonReentrant_ne_invalid h (fun hw => borrowFor_ne_invalid hw.ready _ _)
  | withdrawCollateral sender amount recipient =>
    exact nonReentrant_ne_invalid h (fun hw =>
      withdrawCollateralFor_ne_invalid hw.ready quiet _ _ _)
  | repay sender b maxAmount =>
    simp only [run]
    refine nonReentrant_ne_invalid h (fun hw => ?_)
    simp [repayUpTo_ne_invalid hw (away sender rfl)]
  | close sender maxRepay recipient =>
    simp only [run]
    refine nonReentrant_ne_invalid h (fun hw => ?_)
    simp [close_ne_invalid hw quiet (away sender rfl)]
  | liquidate sender b maxRepay minCollateral =>
    exact nonReentrant_ne_invalid h (fun hw => liquidate_ne_invalid hw quiet (away sender rfl) _ _ _)
  | liquidateWithCallback sender b maxRepay minCollateral =>
    exact nonReentrant_ne_invalid h (fun hw =>
      liquidateWithCallback_ne_invalid hw rfl freezes freezes' quiet quiet' (away sender rfl) _ _ _)
  | executeApproved sender a signature =>
    exact nonReentrant_ne_invalid h (fun hw =>
      executeApproved_ne_invalid hw rfl freezes quiet _ _ _)
  | submitPrice sender p signature => exact submitPrice_ne_invalid _ _ _
  | priceWithApproval sender p signature =>
    simp [run, bind_ne_error, submitPrice_ne_invalid _ _ _, price_ne_invalid]
  | liquidationQuoteWithApproval sender b maximum p signature =>
    simp [run, bind_ne_error, submitPrice_ne_invalid _ _ _, price_ne_invalid,
      liquidationQuote_ne_invalid]
  | liquidateApproved sender b maximum minimum p signature =>
    simp only [run]
    refine nonReentrant_ne_invalid h (fun hw => ?_)
    simp only [bind_ne_error, ne_eq, submitPrice_ne_invalid _ _ _, not_false_eq_true, true_and]
    intro v submitted
    obtain ⟨moved, self⟩ := submitPrice_moved hw submitted none
    exact liquidate_ne_invalid (moved.good hw) quiet (self ▸ away sender rfl) _ _ _
  | liquidateWithCallbackApproved sender b maximum minimum p signature =>
    simp only [run]
    refine nonReentrant_ne_invalid h (fun hw => ?_)
    simp only [bind_ne_error, ne_eq, submitPrice_ne_invalid _ _ _, not_false_eq_true, true_and]
    intro v submitted
    obtain ⟨moved, self⟩ := submitPrice_moved hw submitted none
    exact liquidateWithCallback_ne_invalid (moved.good hw) (moved.toStep.entered rfl) freezes
      freezes' quiet quiet' (self ▸ away sender rfl) _ _ _
  | setRiskPaused sender paused =>
    have opened : checkOpen paused w ≠ .error (.pool .invalidAmount) := by
      unfold checkOpen
      split_ifs <;> simp [requirePool, bind_ne_error]
    simp [run, setRiskPaused, onlyOwner, bind_ne_error, opened]
  | scheduleDebtLimit sender limit =>
    simp only [run, scheduleDebtLimit]
    refine limited _ _ fun a c => ?_
    simp [VariablePool.scheduleDebtLimit, VariablePool.onlyEngine, bind_ne_error]
  | executeDebtLimit sender =>
    refine limited _ _ fun a c => ?_
    simp [VariablePool.executeDebtLimit, VariablePool.onlyEngine, bind_ne_error]
  | cancelDebtLimit sender =>
    refine limited _ _ fun a c => ?_
    simp [VariablePool.cancelDebtLimit, VariablePool.onlyEngine]
  | lowerDebtLimit sender limit =>
    simp only [run, lowerDebtLimit]
    refine limited _ _ fun a c => ?_
    simp [VariablePool.lowerDebtLimit, VariablePool.onlyEngine, bind_ne_error]
  | transferOwnership sender newOwner =>
    have cancelled : cancelIfBound w ≠ .error (.pool .invalidAmount) := by
      unfold cancelIfBound
      split_ifs
      · refine onPool_ne_invalid (fun c => ?_) w
        simp [VariablePool.cancelDebtLimit, VariablePool.onlyEngine]
      · simp
    simp [run, transferOwnership, onlyOwner, bind_ne_error, cancelled]
  | retireMarket sender =>
    refine nonReentrant_ne_invalid h (fun hw => ?_)
    simp [retireMarket, onlyOwner, requirePool, onPool, VariablePool.retire,
      VariablePool.onlyEngine, bind_ne_error]
  | _ => simp [run, bindPool, invalidateBorrowIntents, invalidateApprovals, setRiskSigner, onlyOwner,
      bind_ne_error]

end Turret.VariableEngine
