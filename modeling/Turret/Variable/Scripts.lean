import Turret.Variable.EngineBooks

/-! Foreign code in the middle of a call. While the reentrancy guard is taken,
only the calls without it get through, and each of them leaves positions,
registry and what the pool is owed as they were. -/

namespace Turret.VariableEngine

open Execution Rounding Function
open VariablePool (CapitalStep Ready owed currentRateIntegral)

def Op.isGuarded : Op → Bool
  | .retireMarket .. | .executeBorrowIntent .. | .depositCollateral .. | .depositAndBorrow ..
  | .borrow .. | .withdrawCollateral .. | .repay .. | .close .. | .liquidate ..
  | .liquidateWithCallback .. | .executeApproved .. | .liquidateApproved ..
  | .liquidateWithCallbackApproved .. => true
  | _ => false

/-- The passing of time. -/
def Op.isElapse : Op → Bool
  | .capital op => op.isElapse
  | _ => false

/-- Collateral sent to the engine by a plain token call. -/
def Op.isGift (self : Address) : Op → Bool
  | .collateral call => decide (call.receiver = some self)
  | _ => false

variable {hook callback : World → Except Error World} {w w' : World}

theorem nonReentrant_entered (h : w.engine.entered = true) (body : World → Except Error World) :
    nonReentrant body w = .error .reentrantCall := by
  simp [nonReentrant, revertIf, h]

/-- The guard, once taken, keeps every guarded call out, and time stands still. -/
theorem run_entered {op : Op} (h : w.engine.entered = true)
    (hop : op.isGuarded = true ∨ op.isElapse = true) :
    run hook callback op w = .error .reentrantCall := by
  cases op with
  | capital op =>
    have elapses : op.isElapse = true := hop.resolve_left (by simp [Op.isGuarded])
    simp [run, revertIf, elapses, h]
  | _ => first
    | (simp only [run, nonReentrant_entered h]; done)
    | simp [Op.isGuarded, Op.isElapse] at hop

/-! ### Calls without the guard -/

@[simp] theorem withSafety_sender (safety : Option Bool) (op : VariablePool.Op) :
    (op.withSafety safety).sender = op.sender := by
  cases op <;> rfl

@[simp] theorem withSafety_isElapse (safety : Option Bool) (op : VariablePool.Op) :
    (op.withSafety safety).isElapse = op.isElapse := by
  cases op <;> rfl

/-- A call that rewrites neither the pool nor the ledger of the positions. -/
theorem Calm.frozen_engine (h : Calm w) {engine : Engine}
    {isValidSignatureNow : Address → Digest → Signature → Bool} {hasCode : Address → Bool}
    {history : List Entry} (positions : engine.positions = w.engine.positions)
    (integrals : engine.positionRateIntegral = w.engine.positionRateIntegral)
    (active : engine.active = w.engine.active)
    (count : engine.activeDebtPositions = w.engine.activeDebtPositions)
    (entered : engine.entered = w.engine.entered)
    (price : engine.transactionPrice = w.engine.transactionPrice)
    (log : engine.log = w.engine.log)
    (bound : w.engine.bound = true → engine.bound = true) :
    Frozen w { w with engine, isValidSignatureNow, hasCode, history } :=
  ⟨.refl h.ready, rfl, positions, integrals, active, count, entered, price, log, bound, le_rfl,
    h.closed⟩

theorem Calm.frozen_capital (h : Calm w) {capital : VariablePool.World}
    (step : CapitalStep w.capital capital w.capital.pool.outstandingPrincipal (owed w.capital)) :
    Frozen w { w with capital } :=
  ⟨step, rfl, rfl, rfl, rfl, rfl, rfl, rfl, rfl, id, le_rfl, h.closed⟩

theorem submitPrice_ok {p : Price} {signature : Signature}
    (done : submitPrice p signature w = .ok w') :
    w' = { w with engine := { w.engine with liquidationPrice := p } } ∧ p.value ≠ 0 ∧
      validWindow p.observedAt p.deadline p.epoch w ∧
      w.engine.liquidationPrice.observedAt ≤ p.observedAt ∧
      w.isValidSignatureNow w.engine.riskSigner (w.cfg.digest (.price p)) signature = true ∧
      (p.observedAt = w.engine.liquidationPrice.observedAt → w.engine.liquidationPrice.value ≠ 0 →
        p.value = w.engine.liquidationPrice.value ∧
          p.deadline = w.engine.liquidationPrice.deadline) := by
  simp only [submitPrice, bind_eq_ok, revertIf_eq_ok, exists_const, pure_eq_ok, not_or, not_and,
    not_not, not_lt, Bool.not_eq_false, ne_eq] at done
  obtain ⟨⟨positive, window, later⟩, signed, kept, rfl⟩ := done
  exact ⟨rfl, positive, window, later, signed, kept⟩

theorem submitPrice_frozen (h : Calm w) {p : Price} {signature : Signature}
    (done : submitPrice p signature w = .ok w') :
    Frozen w w' ∧ w'.collateral.balanceOf w.self = w.collateral.balanceOf w.self := by
  obtain ⟨rfl, -⟩ := submitPrice_ok done
  exact ⟨h.frozen_engine rfl rfl rfl rfl rfl rfl rfl id, rfl⟩

theorem ownerCall_ok {sender : Address}
    {call : Address → VariablePool.World → Except PoolError VariablePool.World}
    (done : ownerCall sender call w = .ok w') :
    sender = w.engine.owner ∧ w.engine.bound = true ∧
      ∃ capital, call w.self w.capital = .ok capital ∧ { w with capital } = w' := by
  simp only [ownerCall, onlyOwner, requirePool, bind_eq_ok, revertIf_eq_ok, exists_const,
    onPool_eq_ok, ne_eq, not_not, Bool.not_eq_false] at done
  exact done

/-- The owner's calls throw switches of the pool, and nothing else. -/
theorem limitCall_frozen (h : Calm w) (op : VariablePool.Op) (hop : op.isLimitCall = true)
    {capital : VariablePool.World} (done : VariablePool.exec op w.capital = .ok capital) :
    Frozen w { w with capital } :=
  h.frozen_capital (VariablePool.exec_limitCall h.ready hop done)

theorem transferOwnership_ok {sender newOwner : Address}
    (done : transferOwnership sender newOwner w = .ok w') :
    sender = w.engine.owner ∧ ∃ v, cancelIfBound w = .ok v ∧
      w' = { v with engine := { v.engine with owner := newOwner } } := by
  simp only [transferOwnership, onlyOwner, bind_eq_ok, revertIf_eq_ok, exists_const, pure_eq_ok,
    ne_eq, not_not] at done
  obtain ⟨owner, v, cancelled, -, rfl⟩ := done
  exact ⟨owner, v, cancelled, rfl⟩

theorem cancelIfBound_frozen (h : Calm w) (done : cancelIfBound w = .ok w') :
    Frozen w w' ∧ w'.collateral = w.collateral := by
  unfold cancelIfBound at done
  split_ifs at done
  · obtain ⟨capital, cancelled, rfl⟩ := onPool_eq_ok.mp done
    exact ⟨limitCall_frozen h (VariablePool.Op.cancelDebtLimit w.self) rfl cancelled, rfl⟩
  · rw [pure_eq_ok] at done
    exact done ▸ ⟨.refl h, rfl⟩

/-- Outside the guard the books stand still, and nothing but a gift adds to custody. -/
theorem run_unguarded (h : Calm w) {op : Op} (unguarded : op.isGuarded = false)
    (still : op.isElapse = false) (away : op.sender ≠ some w.self)
    (done : run hook callback op w = .ok w') :
    Frozen w w' ∧ (op.isGift w.self = false →
      w'.collateral.balanceOf w.self = w.collateral.balanceOf w.self) := by
  cases op with
  | bindPool sender =>
    simp only [run, bindPool, onlyOwner, bind_eq_ok, revertIf_eq_ok, exists_const, pure_eq_ok] at done
    obtain ⟨-, -, rfl⟩ := done
    exact ⟨h.frozen_engine rfl rfl rfl rfl rfl rfl rfl (fun _ => rfl), fun _ => rfl⟩
  | setRiskPaused sender paused =>
    simp only [run, setRiskPaused, onlyOwner, bind_eq_ok, revertIf_eq_ok, exists_const,
      pure_eq_ok] at done
    obtain ⟨-, -, -, rfl⟩ := done
    exact ⟨h.frozen_engine rfl rfl rfl rfl rfl rfl rfl id, fun _ => rfl⟩
  | scheduleDebtLimit sender limit =>
    simp only [run, scheduleDebtLimit] at done
    obtain ⟨-, -, capital, limited, rfl⟩ := ownerCall_ok done
    exact ⟨limitCall_frozen h (VariablePool.Op.scheduleDebtLimit w.self limit) rfl limited,
      fun _ => rfl⟩
  | executeDebtLimit sender =>
    simp only [run, executeDebtLimit] at done
    obtain ⟨-, -, capital, limited, rfl⟩ := ownerCall_ok done
    exact ⟨limitCall_frozen h (VariablePool.Op.executeDebtLimit w.self) rfl limited, fun _ => rfl⟩
  | cancelDebtLimit sender =>
    simp only [run, cancelDebtLimit] at done
    obtain ⟨-, -, capital, limited, rfl⟩ := ownerCall_ok done
    exact ⟨limitCall_frozen h (VariablePool.Op.cancelDebtLimit w.self) rfl limited, fun _ => rfl⟩
  | lowerDebtLimit sender limit =>
    simp only [run, lowerDebtLimit] at done
    obtain ⟨-, -, capital, limited, rfl⟩ := ownerCall_ok done
    exact ⟨limitCall_frozen h (VariablePool.Op.lowerDebtLimit w.self limit) rfl limited, fun _ => rfl⟩
  | transferOwnership sender newOwner =>
    obtain ⟨-, v, cancelled, rfl⟩ := transferOwnership_ok done
    obtain ⟨frozen, custody⟩ := cancelIfBound_frozen h cancelled
    exact ⟨frozen.trans (frozen.calm.frozen_engine rfl rfl rfl rfl rfl rfl rfl id),
      fun _ => congrArg (·.balanceOf w.self) custody⟩
  | invalidateBorrowIntents sender nextNonce =>
    simp only [run, invalidateBorrowIntents, bind_eq_ok, revertIf_eq_ok, exists_const,
      pure_eq_ok] at done
    obtain ⟨-, rfl⟩ := done
    exact ⟨h.frozen_engine rfl rfl rfl rfl rfl rfl rfl id, fun _ => rfl⟩
  | setRiskSigner sender signer =>
    simp only [run, setRiskSigner, onlyOwner, bind_eq_ok, revertIf_eq_ok, exists_const,
      pure_eq_ok] at done
    obtain ⟨-, -, rfl⟩ := done
    exact ⟨h.frozen_engine rfl rfl rfl rfl rfl rfl rfl id, fun _ => rfl⟩
  | invalidateApprovals sender nextNonce =>
    simp only [run, invalidateApprovals, bind_eq_ok, revertIf_eq_ok, exists_const,
      pure_eq_ok] at done
    obtain ⟨-, rfl⟩ := done
    exact ⟨h.frozen_engine rfl rfl rfl rfl rfl rfl rfl id, fun _ => rfl⟩
  | submitPrice sender p signature => exact (submitPrice_frozen h done).imp_right fun same _ => same
  | priceWithApproval sender p signature =>
    simp only [run, bind_eq_ok, pure_eq_ok] at done
    obtain ⟨v, submitted, -, -, rfl⟩ := done
    exact (submitPrice_frozen h submitted).imp_right fun same _ => same
  | liquidationQuoteWithApproval sender borrower maximum p signature =>
    simp only [run, bind_eq_ok, pure_eq_ok] at done
    obtain ⟨v, submitted, -, -, -, -, rfl⟩ := done
    exact (submitPrice_frozen h submitted).imp_right fun same _ => same
  | capital op =>
    simp only [run, bind_eq_ok, revertIf_eq_ok, exists_const, onPool_eq_ok] at done
    obtain ⟨-, capital, done, rfl⟩ := done
    have outside : op.sender ≠ some w.self := away
    exact ⟨h.frozen_capital (VariablePool.exec_foreign h.ready
      (by rw [withSafety_sender]; exact outside) (by rw [withSafety_isElapse]; exact still) done).1,
      fun _ => rfl⟩
  | collateral call =>
    simp only [run, bind_eq_ok, orRevert_eq_ok, pure_eq_ok] at done
    obtain ⟨collateral, moved, rfl⟩ := done
    have kept := TokenCall.exec_closed moved away h.closed
    exact ⟨⟨.refl h.ready, rfl, rfl, rfl, rfl, rfl, rfl, rfl, rfl, id, kept.1,
      TokenCall.exec_keeps_closed moved away h.closed⟩, fun apart => kept.2 (of_decide_eq_false apart)⟩
  | outside isValidSignatureNow hasCode =>
    simp only [run, pure_eq_ok] at done
    obtain rfl := done
    exact ⟨h.frozen_engine rfl rfl rfl rfl rfl rfl rfl id, fun _ => rfl⟩
  | _ => cases unguarded

theorem perform_ok {op : Op} (done : perform hook callback op w = .ok w') :
    op.sender ≠ some w.self ∧ op.sender ≠ some w.pool ∧
      ∃ v, run hook callback op w = .ok v ∧ w' = v.record op := by
  simp only [perform, bind_eq_ok, revertIf_eq_ok, exists_const, pure_eq_ok, not_or] at done
  obtain ⟨⟨notEngine, notPool⟩, v, done, rfl⟩ := done
  exact ⟨notEngine, notPool, v, done, rfl⟩

theorem record_frozen (h : Calm w) (op : Op) : Frozen w (w.record op) :=
  h.frozen_engine rfl rfl rfl rfl rfl rfl rfl id

theorem perform_unguarded (h : Calm w) {op : Op} (unguarded : op.isGuarded = false)
    (still : op.isElapse = false) (done : perform hook callback op w = .ok w') :
    Frozen w w' ∧ (op.isGift w.self = false →
      w'.collateral.balanceOf w.self = w.collateral.balanceOf w.self) := by
  obtain ⟨away, -, v, ran, rfl⟩ := perform_ok done
  obtain ⟨frozen, custody⟩ := run_unguarded h unguarded still away ran
  exact ⟨frozen.trans (record_frozen frozen.calm op), custody⟩

/-- A call made while the guard is taken fails, or leaves the books frozen. -/
theorem perform_entered (h : Calm w) (entered : w.engine.entered = true) {op : Op}
    (done : perform hook callback op w = .ok w') :
    op.isGuarded = false ∧ op.isElapse = false ∧ Frozen w w' ∧ (op.isGift w.self = false →
      w'.collateral.balanceOf w.self = w.collateral.balanceOf w.self) := by
  by_cases hop : op.isGuarded = true ∨ op.isElapse = true
  · obtain ⟨-, -, v, ran, -⟩ := perform_ok done
    rw [run_entered entered hop] at ran
    cases ran
  · obtain ⟨unguarded, still⟩ := not_or.mp hop
    rw [Bool.not_eq_true] at unguarded still
    exact ⟨unguarded, still, perform_unguarded h unguarded still done⟩

/-! ### Scripts -/

/-- Code that leaves the books frozen while the guard is taken. -/
def Freezes (f : World → Except Error World) : Prop :=
  ∀ w w', Calm w → w.engine.entered = true → f w = .ok w' → Frozen w w'

/-- Code that gives the engine no collateral while the guard is taken. -/
def GivesNothing (self : Address) (f : World → Except Error World) : Prop :=
  ∀ w w', Calm w → w.engine.entered = true → w.self = self → f w = .ok w' →
    w'.collateral.balanceOf self = w.collateral.balanceOf self

/-- The call that a script makes next, as it turned out. -/
theorem reached_frozen (h : Calm w) (entered : w.engine.entered = true) (op : Op) :
    Frozen w (reached w (perform hook callback op w)) ∧ (op.isGift w.self = false →
      (reached w (perform hook callback op w)).collateral.balanceOf w.self =
        w.collateral.balanceOf w.self) := by
  cases done : perform hook callback op w with
  | error e => exact ⟨.refl h, fun _ => rfl⟩
  | ok v => exact (perform_entered h entered done).2.2

theorem Script.run_freezes (s : Script) : Freezes s.run := by
  induction s with
  | «return» =>
    intro w w' h _ done
    exact Except.ok.inj done ▸ .refl h
  | revert =>
    intro w w' _ _ done
    cases done
  | call op hook callback rest _ _ ih =>
    intro w w' h entered done
    have first : Frozen w (reached w (perform hook.run callback.run op w)) :=
      (reached_frozen h entered op).1
    exact first.trans (ih _ _ first.calm (first.entered_eq.trans entered) done)

/-- No call of the script, at any depth, sends collateral to the engine. -/
def Script.withoutGift (self : Address) : Script → Bool
  | .return | .revert => true
  | .call op hook callback rest => !op.isGift self && hook.withoutGift self &&
    callback.withoutGift self && rest.withoutGift self

theorem Script.run_givesNothing {self : Address} (s : Script) (apart : s.withoutGift self = true) :
    GivesNothing self s.run := by
  induction s with
  | «return» =>
    intro w w' _ _ _ done
    exact Except.ok.inj done ▸ rfl
  | revert =>
    intro w w' _ _ _ done
    cases done
  | call op hook callback rest _ _ ih =>
    simp only [Script.withoutGift, Bool.and_eq_true, Bool.not_eq_true'] at apart
    intro w w' h entered here done
    have first : Frozen w (reached w (perform hook.run callback.run op w)) ∧ _ :=
      reached_frozen h entered op
    obtain ⟨frozen, custody⟩ := first
    rw [here] at custody
    rw [← custody apart.1.1.1]
    exact ih apart.2 _ _ frozen.calm (frozen.entered_eq.trans entered) (frozen.self_eq.trans here)
      done

end Turret.VariableEngine
