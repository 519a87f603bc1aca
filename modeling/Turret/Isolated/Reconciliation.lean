import Turret.Isolated.EngineSteps

/-! Every reachable state of the fixed-rate engine and its pool: the pool's
principal is the sum of the positions', and its receivable interest covers what
the positions owe. So no repayment is refused by the pool's own check. -/

namespace Turret.IsolatedEngine

open Execution Rounding Function Finset
open IsolatedPool (CapitalStep Ready owed)

variable {w w' : World}

/-- Collateral sent to the engine by a plain token call. -/
def Op.isGift (self : Address) : Op → Bool
  | .collateral call => decide (call.receiver = some self)
  | _ => false

/-- A call that changes neither a position nor the pool nor custody. -/
theorem Good.quiet_step (h : Good w) {engine : Engine} {primary secondary : Feed}
    (positions : engine.positions = w.engine.positions) (active : engine.active = w.engine.active)
    (count : engine.activeDebtPositions = w.engine.activeDebtPositions)
    (bound : w.engine.bound = true → engine.bound = true) :
    Step 0 w { w with engine, primary, secondary } where
  loc :=
    { ready := h.ready
      updated_le := fun a => by
        simp only [World.position, positions]
        exact h.updated_le a
      count_eq := by simpa [active, count] using h.count_eq
      count_le := by simpa [active] using h.count_le
      minimum := fun a => by simpa [World.position, positions] using h.minimum a
      closed := h.closed
      bound := fun some => bound (h.bound (by simpa [active] using some)) }
  moves := by
    have same : book { w with engine, primary, secondary } = book w := by
      simp only [book, World.position, positions, active]
      rfl
    rw [same]
    exact .refl _
  cfg_eq := rfl
  capital_cfg_eq := rfl

/-- Collateral tokens moved by their holders. -/
theorem Good.collateral_step (h : Good w) {collateral : TokenLedger Address} {n : ℕ}
    (received : collateral.balanceOf w.self = w.collateral.balanceOf w.self + n)
    (closed : ∀ a, collateral.allowance w.self a = 0) : Step n w { w with collateral } where
  loc := ⟨h.ready, h.updated_le, h.count_eq, h.count_le, h.minimum, closed, h.bound⟩
  moves := by
    have same : book { w with collateral } = (book w).gift n := by
      simp only [book, LoanBook.gift, ← received]
      rfl
    rw [same]
    exact (LoanBook.Move.gift _ n).moves
  cfg_eq := rfl
  capital_cfg_eq := rfl

theorem Good.token_step (h : Good w) {call : TokenCall Address}
    {collateral : TokenLedger Address} (away : call.sender ≠ some w.self)
    (done : call.exec w.collateral = some collateral) :
    ∃ n, Step n w { w with collateral } ∧
      (decide (call.receiver = some w.self) = false → n = 0) := by
  have kept := TokenCall.exec_closed done away h.closed
  refine ⟨collateral.balanceOf w.self - w.collateral.balanceOf w.self,
    h.collateral_step (by omega) (TokenCall.exec_keeps_closed done away h.closed), fun apart => ?_⟩
  rw [kept.2 (of_decide_eq_false apart), Nat.sub_self]

theorem Good.retire_step (h : Good w) {sender : Address} {capital : IsolatedPool.World}
    (retired : IsolatedPool.retire sender w.capital = .ok capital) :
    Step 0 w { w with
      capital
      engine := { w.engine with retired := true, riskPaused := true } } := by
  have step := IsolatedPool.retire_step h.ready retired
  have self := congrArg IsolatedPool.Config.creditEngine step.cfg_eq
  have same : book { w with capital, engine := { w.engine with retired := true, riskPaused := true } } =
      book w := by
    have loans : ∀ a, loanOf (w.position a) { w with
        capital
        engine := { w.engine with retired := true, riskPaused := true } } =
        loanOf (w.position a) w := by
      intro a
      apply loanOf_congr
      · exact step.cfg_eq
      · exact step.now_eq
    simp only [book, LoanBook.mk.injEq, and_true]
    exact ⟨funext loans, step.principal_eq, step.owed_eq, congrArg _ self⟩
  exact
    { loc :=
        { ready := step.ready
          updated_le := fun a => (h.updated_le a).trans step.now_eq.ge
          count_eq := h.count_eq
          count_le := h.count_le
          minimum := h.minimum
          closed := fun a => (congrArg (w.collateral.allowance · a) self).trans (h.closed a)
          bound := h.bound }
      moves := same ▸ .refl _
      cfg_eq := rfl
      capital_cfg_eq := step.cfg_eq }

/-- Calls of lenders and the passing of time let all loans and the pool grow alike. -/
theorem Good.lender_step (h : Good w) {op : IsolatedPool.Op} {capital : IsolatedPool.World}
    (outside : op.sender ≠ some w.self)
    (done : IsolatedPool.exec op w.capital = .ok capital) : Step 0 w { w with capital } := by
  have step := IsolatedPool.exec_outside h.ready.toSound outside done
  have clock := step.now_le
  have self : ({ w with capital } : World).self = w.self :=
    congrArg IsolatedPool.Config.creditEngine step.cfg_eq
  have elapsed : ∀ a, sinceUpdate (w.position a) { w with capital } =
      sinceUpdate (w.position a) w + (capital.now - w.now) * w.capital.cfg.borrowAprBps := by
    intro a
    have before := h.updated_le a
    simp only [World.now] at before
    simp only [sinceUpdate, World.now, step.cfg_eq, ← Nat.add_mul]
    congr 1
    omega
  have grown : book { w with capital } =
      (book w).grow ((capital.now - w.now) * w.capital.cfg.borrowAprBps) := by
    simp only [book, LoanBook.grow, LoanBook.mk.injEq, self, and_true]
    refine ⟨funext fun a => ?_, step.principal_eq, step.owed_eq⟩
    change Position.loan _ (sinceUpdate (w.position a) { w with capital }) = _
    rw [elapsed]
    simp only [loanOf, Position.loan, Nat.mul_add, Nat.add_assoc]
    rfl
  have idle : ∀ a, capital.usdg.allowance capital.cfg.creditEngine a = 0 := by
    intro a
    have spent := step.allowance_le a
    rw [h.ready.idle] at spent
    rw [step.cfg_eq]
    exact Nat.eq_zero_of_le_zero spent
  exact
    { loc :=
        { ready := ⟨step.sound, idle⟩
          updated_le := fun a => (h.updated_le a).trans clock
          count_eq := h.count_eq
          count_le := h.count_le
          minimum := h.minimum
          closed := fun a => self ▸ h.closed a
          bound := h.bound }
      moves := grown ▸ (LoanBook.Move.grow _ _).moves
      cfg_eq := rfl
      capital_cfg_eq := step.cfg_eq }

@[simp] theorem withSafety_sender (safety : Option Bool) (op : IsolatedPool.Op) :
    (op.withSafety safety).sender = op.sender := by
  cases op <;> rfl

/-- Every call is a few movements of the book; nothing but a gift adds to custody for no loan. -/
theorem exec_step (h : Good w) {op : Op} (done : exec op w = .ok w') :
    ∃ n, Step n w w' ∧ (op.isGift w.self = false → n = 0) := by
  simp only [exec, bind_eq_ok, revertIf_eq_ok, exists_const, not_or] at done
  obtain ⟨⟨notEngine, notPool⟩, done⟩ := done
  have still : Step 0 w w' → ∃ n, Step n w w' ∧ (op.isGift w.self = false → n = 0) :=
    fun step => ⟨0, step, fun _ => rfl⟩
  cases op with
  | bindPool sender =>
    simp only [run, bindPool, onlyOwner, bind_eq_ok, revertIf_eq_ok, exists_const, pure_eq_ok] at done
    obtain ⟨-, -, rfl⟩ := done
    exact still (h.quiet_step rfl rfl rfl (fun _ => rfl))
  | setRiskPaused sender paused =>
    simp only [run, setRiskPaused, onlyOwner, bind_eq_ok, revertIf_eq_ok, exists_const,
      pure_eq_ok] at done
    obtain ⟨-, -, -, rfl⟩ := done
    exact still (h.quiet_step rfl rfl rfl id)
  | transferOwnership sender newOwner =>
    simp only [run, transferOwnership, onlyOwner, bind_eq_ok, revertIf_eq_ok, exists_const,
      pure_eq_ok] at done
    obtain ⟨-, -, rfl⟩ := done
    exact still (h.quiet_step rfl rfl rfl id)
  | feeds primary secondary =>
    simp only [run, pure_eq_ok] at done
    exact still (done ▸ h.quiet_step rfl rfl rfl id)
  | retireMarket sender =>
    simp only [run, retireMarket, onlyOwner, requirePool, onPool, bind_eq_ok, mapError_eq_ok,
      revertIf_eq_ok, exists_const, pure_eq_ok] at done
    obtain ⟨-, -, capital, retired, rfl⟩ := done
    exact still (h.retire_step retired)
  | depositCollateral sender b amount => exact still (depositCollateral_step h done)
  | depositAndBorrow sender collateralAmount borrowAmount =>
    simp only [run, bind_eq_ok] at done
    obtain ⟨v, deposited, borrowed⟩ := done
    have first := depositCollateral_step h deposited
    exact still (first.trans (borrow_step (first.good h) borrowed))
  | borrow sender amount => exact still (borrow_step h done)
  | withdrawCollateral sender amount recipient => exact still (withdrawCollateral_step h done)
  | repay sender b maxAmount =>
    simp only [run, repay, bind_eq_ok, pure_eq_ok, Prod.exists] at done
    obtain ⟨v, n, repaid, rfl⟩ := done
    exact still (repayUpTo_step h repaid).2.2.2.toStep.of_settle
  | close sender maxRepay recipient =>
    simp only [run, bind_eq_ok, pure_eq_ok, Prod.exists] at done
    obtain ⟨v, n, closed, rfl⟩ := done
    exact still (close_step h closed)
  | liquidate sender b maxRepay minCollateral =>
    simp only [run, bind_eq_ok, pure_eq_ok, Prod.exists] at done
    obtain ⟨v, n, m, liquidated, rfl⟩ := done
    exact still (liquidate_step h liquidated)
  | capital op =>
    simp only [run, onPool, bind_eq_ok, mapError_eq_ok, pure_eq_ok] at done
    obtain ⟨capital, done, rfl⟩ := done
    exact still (h.lender_step (by rw [withSafety_sender]; exact notEngine) done)
  | collateral call =>
    simp only [run, bind_eq_ok, orRevert_eq_ok, pure_eq_ok] at done
    obtain ⟨collateral, moved, rfl⟩ := done
    exact h.token_step notEngine moved

theorem Deployed.good (h : Deployed w) : Good w := by
  obtain ⟨owner, engine_eq⟩ := h.engine_eq
  have positions : ∀ a, w.position a = .empty := fun a => by rw [World.position, engine_eq]
  have active : w.engine.active = .empty := by rw [engine_eq]
  have pool := h.pool.pool_eq
  have loans : ∀ a, (book w).loan a = ⟨0, 0, 0⟩ := by
    intro a
    simp only [book, loanOf, positions, Position.loan, Position.empty, Nat.zero_mul]
  exact
    { ready := ⟨h.pool.sound, h.usdg_allowance⟩
      updated_le := fun a => by simp [positions, Position.empty]
      count_eq := by simp [engine_eq, SwapPop.empty]
      count_le := by simp [active, SwapPop.empty]
      minimum := fun a owes => by simp [positions, Position.empty] at owes
      closed := h.collateral_allowance
      bound := fun some => by simp [active, SwapPop.empty] at some
      book_sound :=
        { reconciled := ⟨by simp only [loans, sum_const_zero]; simp [book, pool],
            by simp [loans]⟩
          wellFormed := by
            change w.engine.active.WellFormed
            rw [active]
            exact SwapPop.empty_wellFormed
          listed := fun a => by
            rw [loans, book, active]
            simp [SwapPop.empty]
          settled := fun a _ => by rw [loans]
          backed := fun a owes => by simp [loans] at owes
          held := by simp [loans] } }

theorem Reachable.good (h : Reachable w) : Good w := by
  obtain ⟨start, ops, deployed, run⟩ := h
  refine run.invariant Good (fun s op t good done => ?_) deployed.good
  obtain ⟨n, step, -⟩ := exec_step good done
  exact step.good good

/-! ### The pool's check

Only a call to the pool fails with an error of the pool, and never with
`InvalidAmount`, its answer to a payment or a loss beyond its books. -/

section Errors

variable {x : PoolError}

theorem read_ne_pool (feed : Feed) (decimals : ℕ) (w : World) :
    read feed decimals w ≠ .error (.pool x) := by
  simp [read, bind_ne_error]

theorem price_ne_pool (w : World) : price w ≠ .error (.pool x) := by
  simp [price, bind_ne_error, read_ne_pool]

theorem pullCollateral_ne_pool (src : Address) (amount : ℕ) (w : World) :
    pullCollateral src amount w ≠ .error (.pool x) := by
  simp [pullCollateral, bind_ne_error]

theorem sendCollateral_ne_pool (dst : Address) (amount : ℕ) (w : World) :
    sendCollateral dst amount w ≠ .error (.pool x) := by
  simp [sendCollateral, bind_ne_error]

theorem depositCollateral_ne_pool (sender b : Address) (amount : ℕ) (w : World) :
    depositCollateral sender b amount w ≠ .error (.pool x) := by
  simp [depositCollateral, requirePool, bind_ne_error, pullCollateral_ne_pool]

theorem checkExit_ne_pool (p : Position) (amount : ℕ) (w : World) :
    checkExit p amount w ≠ .error (.pool x) := by
  unfold checkExit
  split_ifs
  · simp
  · simp [bind_ne_error, borrowingPrice, price_ne_pool]

theorem withdrawCollateral_ne_pool (sender recipient : Address) (amount : ℕ) (w : World) :
    withdrawCollateral sender amount recipient w ≠ .error (.pool x) := by
  simp [withdrawCollateral, requirePool, bind_ne_error, checkExit_ne_pool, sendCollateral_ne_pool]

theorem partialPayment_ne_pool (cfg : Config) (collateral debt value paid : ℕ) :
    partialPayment cfg collateral debt value paid ≠ .error (.pool x) := by
  unfold partialPayment
  split_ifs <;> simp [bind_ne_error]

theorem liquidationQuote_ne_pool (cfg : Config) (collateral debt value maxRepay : ℕ) :
    liquidationQuote cfg collateral debt value maxRepay ≠ .error (.pool x) := by
  have chosen : ∀ covered repayCap paid, seizure cfg collateral debt value covered repayCap paid ≠
      .error (.pool x) := by
    intro covered repayCap paid
    unfold seizure
    split_ifs <;> simp [partialPayment_ne_pool]
  simp [liquidationQuote, bind_ne_error, chosen]

theorem enter_ne_pool (b : Address) (w : World) : enter b w ≠ .error (.pool x) := by
  unfold enter
  split_ifs <;> simp

/-- A draw of a positive amount is never refused as invalid. -/
theorem draw_ne_invalid {safety : Option Bool} {sender recipient : Address} {amount : ℕ}
    (positive : amount ≠ 0) (c : IsolatedPool.World) :
    IsolatedPool.draw safety sender recipient amount c ≠ .error .invalidAmount := by
  have sent : ∀ d, IsolatedPool.vault.sendExact recipient amount d ≠ .error .invalidAmount := by
    intro d
    simp [LenderVault.sendExact, bind_ne_error]
  simp [IsolatedPool.draw, IsolatedPool.onlyEngine, IsolatedPool.availableCash, bind_ne_error,
    sent, positive]

theorem borrow_ne_invalid (sender : Address) (amount : ℕ) (w : World) :
    borrow sender amount w ≠ .error (.pool .invalidAmount) := by
  simp +contextual [borrow, requirePool, onPool, borrowingPrice, bind_ne_error, price_ne_pool,
    enter_ne_pool, draw_ne_invalid]

theorem repayUpTo_ne_pool (h : Good w) {sender : Address} (other : sender ≠ w.self) (b : Address)
    (maxAmount : ℕ) : repayUpTo sender b maxAmount w ≠ .error (.pool x) := by
  simp only [repayUpTo, requirePool, bind_ne_error, revertIf_eq_ok, ne_eq, revertIf_eq_error,
    reduceCtorEq, and_false, not_false_eq_true, true_and, pure_ne_error, implies_true, and_true]
  intro _ bound _ positive _ meaningful
  have within : min maxAmount ((settle b w).position b).debt ≤ ((settle b w).position b).debt :=
    min_le_right ..
  refine ⟨fun failed => ?_, fun v repaid failed => ?_⟩
  · cases repayPosition_error (h.settle b) other (Nat.pos_of_ne_zero positive) within failed
  · obtain ⟨w', done, -⟩ := finish_paid (h.settle b) (settle_current b w)
      (Bool.not_eq_false _ ▸ bound) (Nat.pos_of_ne_zero positive) within (by
        change ¬(_ ∧ _ < (settle b w).cfg.minimumDebt) at meaningful
        omega) repaid
    rw [failed] at done
    cases done

theorem close_ne_pool (h : Good w) {sender : Address} (other : sender ≠ w.self) (maxRepay : ℕ)
    (recipient : Address) : close sender maxRepay recipient w ≠ .error (.pool x) := by
  have rest : ∀ v, withdrawRest sender recipient v ≠ .error (.pool x) := by
    intro v
    simp only [withdrawRest]
    split_ifs
    · exact withdrawCollateral_ne_pool _ _ _ _
    · simp
  simp [close, bind_ne_error, repayUpTo_ne_pool h other, rest]

theorem liquidate_ne_pool (h : Good w) {sender : Address} (other : sender ≠ w.self) (b : Address)
    (maxRepay minCollateral : ℕ) :
    liquidate sender b maxRepay minCollateral w ≠ .error (.pool x) := by
  simp only [liquidate, requirePool, bind_ne_error, revertIf_eq_ok, ne_eq, revertIf_eq_error,
    reduceCtorEq, and_false, not_false_eq_true, true_and, pure_ne_error, implies_true, and_true,
    Prod.forall]
  intro _ bound
  refine ⟨price_ne_pool _, fun value _ => ⟨liquidationQuote_ne_pool _ _ _ _ _, fun n m quoted _ _ => ?_⟩⟩
  obtain ⟨positive, within, seizable, meaningful⟩ := liquidationQuote_ok quoted
  refine ⟨fun failed => ?_, fun v repaid => ?_⟩
  · cases repayPosition_error (h.settle b) other positive within failed
  · obtain ⟨exact, q, capital, active, count, log, done, -⟩ := liquidate_conclude (h.settle b)
      (settle_current b w) (Bool.not_eq_false _ ▸ bound) positive within seizable meaningful repaid
    refine ⟨by simp, fun left subtracted => ?_⟩
    rw [exact] at subtracted
    obtain rfl := Except.ok.inj subtracted
    obtain ⟨u, short, finished⟩ := (bind_eq_ok ..).mp done
    refine ⟨by rw [short]; simp, fun v' same => ?_⟩
    rw [short] at same
    obtain rfl := Except.ok.inj same
    refine ⟨by rw [finished]; simp, fun _ _ => sendCollateral_ne_pool _ _ _⟩

theorem exec_ne_invalid (h : Good w) {op : Op} (engineCall : ∀ o, op ≠ .capital o) :
    exec op w ≠ .error (.pool .invalidAmount) := by
  simp only [exec, bind_ne_error, revertIf_eq_ok, ne_eq, revertIf_eq_error, reduceCtorEq, and_false,
    not_false_eq_true, true_and, not_or]
  rintro _ ⟨notEngine, -⟩
  have away : ∀ sender, op.sender = some sender → sender ≠ w.self :=
    fun sender called same => notEngine (same ▸ called)
  cases op with
  | capital op => exact absurd rfl (engineCall op)
  | depositCollateral sender b amount => exact depositCollateral_ne_pool _ _ _ _
  | depositAndBorrow sender collateralAmount borrowAmount =>
    simp [run, bind_ne_error, depositCollateral_ne_pool, borrow_ne_invalid]
  | borrow sender amount => exact borrow_ne_invalid _ _ _
  | withdrawCollateral sender amount recipient => exact withdrawCollateral_ne_pool _ _ _ _
  | repay sender b maxAmount =>
    simp [run, repay, repayUpTo_ne_pool h (away sender rfl)]
  | close sender maxRepay recipient => simp [run, close_ne_pool h (away sender rfl)]
  | liquidate sender b maxRepay minCollateral =>
    simp [run, liquidate_ne_pool h (away sender rfl)]
  | setRiskPaused sender paused =>
    have opened : checkOpen paused w ≠ .error (.pool .invalidAmount) := by
      unfold checkOpen
      split_ifs <;> simp [requirePool, bind_ne_error, price_ne_pool]
    simp [run, setRiskPaused, onlyOwner, bind_ne_error, opened]
  | retireMarket sender =>
    simp [run, retireMarket, onlyOwner, requirePool, onPool, IsolatedPool.retire,
      IsolatedPool.onlyEngine, bind_ne_error]
  | _ => simp [run, bindPool, transferOwnership, onlyOwner, bind_ne_error]

end Errors

/-! ### Repayment in every state -/

theorem positionDebt_congr {a : Address} (position : w'.position a = w.position a)
    (now : w'.now = w.now) (capital : w'.capital.cfg = w.capital.cfg) :
    positionDebt a w' = positionDebt a w := by
  simp only [positionDebt, interest, position, now, capital]

/-- A repayment of the whole debt of `b`, and what it leaves of everybody's. -/
theorem exec_repay (h : Good w) {payer b : Address} {maxAmount : ℕ} (other : payer ≠ w.self)
    (away : payer ≠ w.pool) (owes : positionDebt b w ≠ 0) (enough : positionDebt b w ≤ maxAmount)
    (allowed : positionDebt b w ≤ w.usdg.allowance payer w.self)
    (held : positionDebt b w ≤ w.usdg.balanceOf payer) :
    ∃ w', exec (.repay payer b maxAmount) w = .ok w' ∧ Step 0 w w' ∧
      (∀ a, positionDebt a w' = if a = b then 0 else positionDebt a w) ∧
      w'.usdg.balanceOf payer = w.usdg.balanceOf payer - positionDebt b w ∧
      w'.usdg.allowance payer w.self = w.usdg.allowance payer w.self - positionDebt b w := by
  have lent : (w.position b).principal ≠ 0 := by
    intro none
    rw [positionDebt, if_pos none, (h.no_interest none).1] at owes
    exact owes rfl
  have bound : w.engine.bound = true :=
    h.bound (List.ne_nil_of_mem (h.book_sound.wellFormed.mem_iff.mpr ((h.listed b).mpr lent)))
  obtain ⟨w', done⟩ := repayUpTo_funded h bound other owes enough allowed held
  obtain ⟨-, -, -, repaid⟩ := repayUpTo_step h done
  have step := repaid.toStep.of_settle
  have payer_eq := repaid.payer_eq other away
  refine ⟨w', ?_, step, fun a => ?_, payer_eq.1, payer_eq.2⟩
  · simp only [exec, run, repay, bind_eq_ok, revertIf_eq_ok, exists_const, pure_eq_ok, Prod.exists,
      Op.sender, Option.some.injEq, not_or]
    exact ⟨⟨other, away⟩, w', _, done, rfl⟩
  · split_ifs with ha
    · have good := step.good h
      have none := repaid.cleared (h.positionDebt b)
      have principal := good.debt_eq_zero.mp none
      rw [ha, positionDebt, if_pos principal, (good.no_interest principal).1]
    · exact positionDebt_congr ((repaid.others a ha).trans (settle_position_of_ne ha w))
        repaid.now_eq step.capital_cfg_eq

/-- A payer with the sum of the debts can repay any borrowers in any order. -/
theorem execAll_repay {payer : Address} (debt : Address → ℕ) (order : List Address) :
    ∀ w, Good w → payer ≠ w.self → payer ≠ w.pool → order.Nodup →
      (∀ b ∈ order, positionDebt b w = debt b ∧ debt b ≠ 0) →
      (order.map debt).sum ≤ w.usdg.allowance payer w.self →
      (order.map debt).sum ≤ w.usdg.balanceOf payer →
      ∃ w', execAll exec (order.map fun b => .repay payer b (debt b)) w = .ok w' ∧
        ∀ a, positionDebt a w' = if a ∈ order then 0 else positionDebt a w := by
  induction order with
  | nil =>
    intro w _ _ _ _ _ _ _
    exact ⟨w, rfl, fun a => by simp⟩
  | cons b rest ih =>
    intro w h other away distinct owes allowed held
    simp only [List.map_cons, List.sum_cons] at allowed held
    obtain ⟨fresh, distinct⟩ := List.nodup_cons.mp distinct
    obtain ⟨same, positive⟩ := owes b (List.mem_cons_self ..)
    obtain ⟨v, first, step, debts, balance, allowance⟩ := exec_repay h (b := b) other away (by omega)
      (show positionDebt b w ≤ debt b by omega) (by omega) (by omega)
    have self : v.self = w.self := congrArg IsolatedPool.Config.creditEngine step.capital_cfg_eq
    have pool : v.pool = w.pool := congrArg IsolatedPool.Config.self step.capital_cfg_eq
    obtain ⟨w', others, final⟩ := ih v (step.good h) (self ▸ other) (pool ▸ away) distinct
      (fun a ha => by
        have apart : a ≠ b := fun k => fresh (k ▸ ha)
        rw [debts, if_neg apart]
        exact owes a (List.mem_cons_of_mem _ ha))
      (by rw [self]; omega) (by omega)
    refine ⟨w', ?_, fun a => ?_⟩
    · simp only [List.map_cons, execAll, bind_eq_ok]
      exact ⟨v, first, others⟩
    · rw [final, debts]
      by_cases ha : a = b
      · simp [ha]
      · simp [ha]

/-- In every reachable state the pool's principal is the sum of the positions', its receivable
interest covers what they owe when both are brought up to date, no engine call is refused by the
pool's check of a payment or a loss, and whoever holds and approves the debts repays them, one or
many, in any order. -/
theorem reachable_reconciled (h : Reachable w) :
    w.capital.pool.outstandingPrincipal = ∑ a, (w.position a).principal ∧
    ∑ a, ((settled (w.position a) w).interest * DENOMINATOR +
        (settled (w.position a) w).remainder) ≤
      (IsolatedPool.accrue w.capital).pool.interestReceivable * DENOMINATOR +
        (IsolatedPool.accrue w.capital).pool.interestRemainder ∧
    ∑ a, (settled (w.position a) w).interest ≤
      (IsolatedPool.accrue w.capital).pool.interestReceivable ∧
    (∀ op, (∀ o, op ≠ .capital o) → exec op w ≠ .error (.pool .invalidAmount)) ∧
    (∀ payer b maxAmount, payer ≠ w.self → payer ≠ w.pool → positionDebt b w ≠ 0 →
      positionDebt b w ≤ maxAmount → positionDebt b w ≤ w.usdg.allowance payer w.self →
      positionDebt b w ≤ w.usdg.balanceOf payer →
      ∃ w', exec (.repay payer b maxAmount) w = .ok w' ∧ positionDebt b w' = 0) ∧
    (∀ (payer : Address) (order : List Address), payer ≠ w.self → payer ≠ w.pool →
      order.Nodup → (∀ b ∈ order, positionDebt b w ≠ 0) →
      (order.map (positionDebt · w)).sum ≤ w.usdg.allowance payer w.self →
      (order.map (positionDebt · w)).sum ≤ w.usdg.balanceOf payer →
      ∃ w', execAll exec (order.map fun b => .repay payer b (positionDebt b w)) w = .ok w' ∧
        ∀ b ∈ order, positionDebt b w' = 0) := by
  have good := h.good
  have accrued : ∀ a, (settled (w.position a) w).interest * DENOMINATOR +
      (settled (w.position a) w).remainder = ((book w).loan a).accrued := by
    intro a
    have same := congrArg Loan.accrued (loanOf_settled (w.position a) w)
    rwa [loanOf_now rfl] at same
  have covered : ∑ a, ((settled (w.position a) w).interest * DENOMINATOR +
      (settled (w.position a) w).remainder) ≤
      (IsolatedPool.accrue w.capital).pool.interestReceivable * DENOMINATOR +
        (IsolatedPool.accrue w.capital).pool.interestRemainder := by
    simp only [accrued]
    exact good.book_sound.reconciled.interest_le.trans (IsolatedPool.owed_of_accrue _).ge
  refine ⟨good.book_sound.reconciled.principal_sum.symm, covered, ?_,
    fun op engineCall => exec_ne_invalid good engineCall, ?_, ?_⟩
  · refine le_of_scaled_le (IsolatedPool.accrue_remainder_lt w.capital) (le_trans ?_ covered)
    rw [sum_mul]
    exact sum_le_sum fun a _ => Nat.le_add_right ..
  · intro payer b maxAmount other away owes enough allowed held
    obtain ⟨w', done, -, debts, -⟩ := exec_repay good other away owes enough allowed held
    exact ⟨w', done, by rw [debts, if_pos rfl]⟩
  · intro payer order other away distinct owes allowed held
    obtain ⟨w', done, debts⟩ := execAll_repay (positionDebt · w) order w good other away distinct
      (fun b hb => ⟨rfl, owes b hb⟩) allowed held
    exact ⟨w', done, fun b hb => by rw [debts, if_pos hb]⟩

/-! ### The registry -/

/-- What a run gave the engine outright is all it holds beyond the pledged collateral. -/
theorem run_custody (h : Good w) {ops : List Op} (run : Run (accepts exec) w ops w')
    (apart : ∀ op ∈ ops, op.isGift w.self = false) :
    w'.collateral.balanceOf w'.self + ∑ a, (w.position a).collateral =
      w.collateral.balanceOf w.self + ∑ a, (w'.position a).collateral := by
  induction run with
  | nil => rfl
  | @cons s t u op ops first _ ih =>
    obtain ⟨n, step, none⟩ := exec_step h first
    have moved := h.book_sound.custody_moves step.moves
    rw [none (apart _ (List.mem_cons_self ..))] at moved
    have self : t.self = s.self := congrArg IsolatedPool.Config.creditEngine step.capital_cfg_eq
    have rest := ih (step.good h) fun op member => by
      have away := apart op (List.mem_cons_of_mem _ member)
      rwa [← self] at away
    simp only [book, LoanBook.pledged, loanOf, Position.loan] at moved
    omega

/-- The pool's lender side is open exactly when nobody owes, or the market is unpaused, priced and
every position that owes is safe at its debt of this moment. -/
theorem allowed_iff (h : Good w) :
    capitalOperationsAllowed w = true ↔ (∀ a, (w.position a).debt = 0) ∨
      w.engine.riskPaused = false ∧ ∃ value, borrowingPrice w = .ok value ∧
        ∀ a, (w.position a).debt ≠ 0 → safe (w.position a).collateral (positionDebt a w) value
          w.cfg.liquidationLtvBps = true := by
  have listed : ∀ a, a ∈ w.engine.active.members ↔ (w.position a).debt ≠ 0 := fun a => by
    rw [ne_eq, h.debt_eq_zero, ← ne_eq, ← h.listed a]
    exact h.book_sound.wellFormed.mem_iff
  have idle : w.engine.active.members.length = 0 ↔ ∀ a, (w.position a).debt = 0 := by
    rw [List.length_eq_zero_iff, List.eq_nil_iff_forall_not_mem]
    exact forall_congr' fun a => by rw [listed, not_not]
  unfold capitalOperationsAllowed
  split_ifs with none paused
  · exact iff_of_true rfl (.inl (idle.mp none))
  · refine iff_of_false id ?_
    rintro (free | ⟨unpaused, -⟩)
    · exact none (idle.mpr free)
    · exact Bool.false_ne_true (unpaused.symm.trans paused)
  · rw [Bool.not_eq_true] at paused
    cases priced : borrowingPrice w with
    | error e =>
      refine iff_of_false Bool.false_ne_true ?_
      rintro (free | ⟨-, value, found, -⟩)
      · exact none (idle.mpr free)
      · cases found
    | ok value =>
      simp only [List.all_eq_true, listed]
      constructor
      · exact fun all => .inr ⟨paused, value, rfl, all⟩
      · rintro (free | ⟨-, _, found, all⟩)
        · exact absurd (idle.mpr free) none
        · obtain rfl := Except.ok.inj found
          exact all

/-- In every run of the fixed-rate engine the registry is exact and within its limit; custody is the
pledged collateral, with what was there at the start and what was sent outright; the lenders' gate
reads every open loan; and a payment that went through always lets the loan end. -/
theorem fixed_registry_exact {start : World} {ops : List Op} (deployed : Deployed start)
    (run : Run (accepts exec) start ops w) :
    RegistryExact w.engine.active w.engine.activeDebtPositions w.cfg.minimumDebt
        (w.collateral.balanceOf w.self) (fun a => w.position a) ∧
      w.engine.activeDebtPositions ≤ MAX_ACTIVE_POSITIONS ∧
      ((∀ op ∈ ops, op.isGift start.self = false) → w.collateral.balanceOf w.self =
        start.collateral.balanceOf start.self + ∑ a, (w.position a).collateral) ∧
      (capitalOperationsAllowed w = true ↔ (∀ a, (w.position a).debt = 0) ∨
        w.engine.riskPaused = false ∧ ∃ value, borrowingPrice w = .ok value ∧
          ∀ a, (w.position a).debt ≠ 0 → safe (w.position a).collateral (positionDebt a w) value
            w.cfg.liquidationLtvBps = true) ∧
      ∀ sender b amount v, 0 < amount → amount ≤ positionDebt b w →
        (amount = positionDebt b w ∨ amount + w.cfg.minimumDebt ≤ positionDebt b w) →
          repayPosition sender b amount (settle b w) = .ok v → ∃ w', finish b v = .ok w' := by
  have good : Good w := Reachable.good ⟨start, ops, deployed, run⟩
  have fresh : ∑ a, (start.position a).collateral = 0 := by
    obtain ⟨owner, engine_eq⟩ := deployed.engine_eq
    simp only [World.position, engine_eq, Position.empty, sum_const_zero]
  refine ⟨.of_sound good.book_sound (fun _ => rfl) good.count_eq good.minimum,
    good.count_eq ▸ good.count_le, fun apart => ?_, allowed_iff good, ?_⟩
  · have custody := run_custody deployed.good run apart
    rw [fresh, Nat.add_zero] at custody
    exact custody
  · intro sender b amount v positive within meaningful repaid
    rw [good.positionDebt b] at within meaningful
    have owes : ((settle b w).position b).principal ≠ 0 := by
      rw [ne_eq, ← (good.settle b).debt_eq_zero]
      omega
    have listed := ((good.settle b).listed b).mpr owes
    have bound : (settle b w).engine.bound = true := (good.settle b).bound
      (List.ne_nil_of_mem ((good.settle b).book_sound.wellFormed.mem_iff.mpr listed))
    obtain ⟨w', done, -⟩ := finish_paid (good.settle b) (settle_current b w) bound positive within
      meaningful repaid
    exact ⟨w', done⟩

/-! One market: a lender's thousand USDG, half of it borrowed against a thousand tokens at one
USDG each, and thirty days of interest at ten percent. -/

def sampleConfig : Config where
  staleness := 10 ^ 9
  maxLtvBps := 5000
  liquidationLtvBps := 7000
  bonusBps := 500
  deviationBps := 100
  minimumDebt := 10 ^ 6
  primaryDecimals := 18
  secondaryDecimals := 18
  staleness_ne_zero := by decide
  maxLtv_ne_zero := by decide
  maxLtv_lt := by decide
  liquidationLtv_lt := by decide
  bonus_le := by decide
  deviation_ne_zero := by decide
  deviation_le := by decide
  minimumDebt_ne_zero := by decide
  bonus_room := by decide
  primaryDecimals_le := by decide
  secondaryDecimals_le := by decide

def sampleStart : World where
  cfg := sampleConfig
  capital :=
    { cfg := IsolatedPool.sampleConfig
      now := 1000
      usdg := .empty
      pool := ⟨0, 0, 1000, 0, 0, 0, false, .empty⟩ }
  collateral := .empty
  engine := ⟨1, false, true, false, 0, .empty, fun _ => .empty, []⟩
  primary := ⟨some 18, some ⟨1, 10 ^ 18, 1000, 1⟩⟩
  secondary := ⟨some 18, some ⟨1, 10 ^ 18, 1000, 1⟩⟩

def sampleOps : List Op :=
  [ .bindPool 1, .setRiskPaused 1 false,
    .capital (.usdg (.mint 2 (10 ^ 9))), .capital (.usdg (.approve 2 101 (10 ^ 9))),
    .capital (.lender none (.deposit 2 2 (10 ^ 9))),
    .collateral (.mint 3 (10 ^ 21)), .collateral (.approve 3 100 (10 ^ 21)),
    .depositAndBorrow 3 (10 ^ 21) (5 * 10 ^ 8), .capital (.elapse (30 * 86400)),
    .capital (.usdg (.mint 4 (10 ^ 9))), .capital (.usdg (.approve 4 100 (10 ^ 9))) ]

def sample : World := reached sampleStart (execAll exec sampleOps sampleStart)

theorem sampleStart_deployed : Deployed sampleStart :=
  ⟨⟨rfl, fun _ => rfl⟩, ⟨1, rfl⟩, fun _ => rfl, fun _ => rfl⟩

theorem sample_run : Run (accepts exec) sampleStart sampleOps sample :=
  run_of_execAll (eq_ok_reached _ (by decide +kernel))

theorem sample_reachable : Reachable sample :=
  ⟨sampleStart, sampleOps, sampleStart_deployed, sample_run⟩

/-- The one loan is listed, and the thousand tokens pledged are all that the engine holds. -/
theorem sample_fixed_registry :
    (3 ∈ sample.engine.active.members ↔ (sample.position 3).debt ≠ 0) ∧
      sample.collateral.balanceOf sample.self =
        sampleStart.collateral.balanceOf sampleStart.self + ∑ a, (sample.position a).collateral :=
  ⟨(fixed_registry_exact sampleStart_deployed sample_run).1.mem_iff 3,
    (fixed_registry_exact sampleStart_deployed sample_run).2.2.1 (by decide +kernel)⟩

/-- Another account pays the borrower's debt with its interest in full. -/
theorem sample_reconciled :
    positionDebt 3 sample = 504109589 ∧
      ∃ w', exec (.repay 4 3 (10 ^ 9)) sample = .ok w' ∧ positionDebt 3 w' = 0 :=
  ⟨by decide +kernel, (reachable_reconciled sample_reachable).2.2.2.2.1 4 3 (10 ^ 9)
    (by decide +kernel) (by decide +kernel) (by decide +kernel) (by decide +kernel)
    (by decide +kernel) (by decide +kernel)⟩

end Turret.IsolatedEngine
