import Turret.Variable.EngineSteps

/-! Every reachable state of the variable-rate engine and its pool: the pool's
principal is the sum of the positions', its receivable interest covers what the
positions owe, and between transactions the guard is free, no approved price
stands and the pool is not frozen. -/

namespace Turret.VariableEngine

open Execution Rounding Function Finset
open VariablePool (CapitalStep Ready owed currentRateIntegral)

variable {hook callback : World → Except Error World} {w w' v : World} {b : Address} {n : ℕ}

/-! ### The guard and the price of an action -/

def flagged (entered : Bool) (price : ℕ) (w : World) : World :=
  { w with engine := { w.engine with entered, transactionPrice := price } }

theorem Local.flagged (h : Local w) (entered : Bool) (price : ℕ) :
    Local (flagged entered price w) :=
  ⟨⟨h.ready, h.closed⟩, h.integral_le, h.count_eq, h.minimum, h.bound, h.swept⟩

theorem Good.flagged (h : Good w) (entered : Bool) (price : ℕ) : Good (flagged entered price w) :=
  ⟨h.toLocal.flagged entered price, h.book_sound⟩

/-- What was done under the guard, or at an approved price, once both are given back. -/
theorem Step.flagged (entered : Bool) (price : ℕ) (h : Step n (flagged entered price w) v) :
    Step n w (flagged w.engine.entered w.engine.transactionPrice v) :=
  ⟨h.loc.flagged .., h.moves, h.cfg_eq, h.capital_cfg_eq, by
    have settlement := congrArg (·.2.2) h.flags_eq
    simpa [flags, VariableEngine.flagged] using settlement⟩

theorem nonReentrant_ok {body : World → Except Error World} (done : nonReentrant body w = .ok w') :
    w.engine.entered = false ∧
      ∃ v, body (w.setEntered true) = .ok v ∧ v.setEntered false = w' := by
  simp only [nonReentrant, bind_eq_ok, revertIf_eq_ok, exists_const, pure_eq_ok,
    Bool.not_eq_true] at done
  exact done

theorem Step.guarded (free : w.engine.entered = false)
    (h : Step n (w.setEntered true) v) : Step n w (v.setEntered false) := by
  have step := Step.flagged true w.engine.transactionPrice h
  have price : v.engine.transactionPrice = w.engine.transactionPrice :=
    congrArg (·.2.1) h.flags_eq
  rwa [free, ← price] at step

theorem Moved.guarded {taken : Option Address} (free : w.engine.entered = false)
    (h : Moved taken n (w.setEntered true) v) : Moved taken n w (v.setEntered false) :=
  ⟨.guarded free h.toStep, fun a =>
    ⟨(h.turn a).principal_le, (h.turn a).charged_eq, (h.turn a).collateral_le⟩⟩

theorem Acted.guarded (free : w.engine.entered = false) (h : Acted b (w.setEntered true) v) :
    Acted b w (v.setEntered false) :=
  ⟨.guarded free h.toStep, h.charged_eq, h.others⟩

/-! ### Intents and approvals -/

/-- Without an approved price an intent can only withdraw the collateral of who owes nothing. -/
theorem intentAction_moved (h : Good w) (entered : w.engine.entered = true)
    (free : w.engine.transactionPrice = 0) (freezes : Freezes hook) {instruction : BorrowIntent}
    (done : intentAction hook instruction w = .ok w') : Moved none 0 w w' := by
  unfold intentAction at done
  split_ifs at done
  · simp only [bind_eq_ok] at done
    obtain ⟨v, deposited, borrowed⟩ := done
    have first := (depositCollateralFrom_acted h entered freezes deposited).1
    have price : v.engine.transactionPrice = w.engine.transactionPrice :=
      congrArg (·.2.1) first.flags_eq
    exact absurd (price.trans free) (borrowFor_acted (first.good h) borrowed).2.1
  · exact absurd free (borrowFor_acted h done).2.1
  · obtain ⟨acted, principal, none, -⟩ := withdrawCollateralFor_acted h entered freezes done
    exact acted.moved _ principal.le (.inr (principal.trans (none free)))

theorem executeBorrowIntent_moved (h : Good w) (entered : w.engine.entered = true)
    (free : w.engine.transactionPrice = 0) (freezes : Freezes hook) {instruction : BorrowIntent}
    {signature : Signature} {proof : List (Fin 256)}
    (done : executeBorrowIntent hook instruction signature proof w = .ok w') : Moved none 0 w w' := by
  simp only [executeBorrowIntent, bind_eq_ok, revertIf_eq_ok, exists_const, pure_eq_ok] at done
  obtain ⟨-, -, ⟨⟩, -, v, acted, -, rfl⟩ := done
  have counted : Frozen w { w with
      engine :=
        { w.engine with
          borrowIntentNonces := update w.engine.borrowIntentNonces instruction.owner
            (w.engine.borrowIntentNonces instruction.owner + 1) } } :=
    h.toCalm.frozen_engine rfl rfl rfl rfl rfl rfl rfl id
  have first := counted.moved_exact h.toLocal none rfl
  exact first.trans (intentAction_moved (first.good h) entered free freezes acted)

theorem approvedAction_acted (h : Good w) (entered : w.engine.entered = true)
    (freezes : Freezes hook) {sender : Address} {a : Approval}
    (done : approvedAction hook sender a w = .ok w') :
    Acted sender w w' ∧ Judged sender w.engine.transactionPrice w' := by
  unfold approvedAction at done
  split_ifs at done
  · simp only [bind_eq_ok] at done
    obtain ⟨v, deposited, borrowed⟩ := done
    have first := (depositCollateralFrom_acted h entered freezes deposited).1
    have price : v.engine.transactionPrice = w.engine.transactionPrice :=
      congrArg (·.2.1) first.flags_eq
    obtain ⟨second, -, judged⟩ := borrowFor_acted (first.good h) borrowed
    exact ⟨first.trans second, price ▸ judged⟩
  · obtain ⟨acted, -, judged⟩ := borrowFor_acted h done
    exact ⟨acted, judged⟩
  · obtain ⟨acted, -, -, judged⟩ := withdrawCollateralFor_acted h entered freezes done
    exact ⟨acted, judged⟩

/-- What an approved action comes to: it stays within the approval. -/
theorem executeApproved_acted (h : Good w) (entered : w.engine.entered = true)
    (free : w.engine.transactionPrice = 0) (freezes : Freezes hook) {sender : Address}
    {a : Approval} {signature : Signature}
    (done : executeApproved hook sender a signature w = .ok w') :
    Acted sender w w' ∧ Judged sender a.price w' ∧ positionDebt sender w' ≤ a.maxDebt := by
  simp only [executeApproved, bind_eq_ok, revertIf_eq_ok, exists_const, pure_eq_ok, not_lt] at done
  obtain ⟨-, -, v, acted, within, rfl⟩ := done
  have counted : Frozen w { w with
      engine :=
        { w.engine with
          approvalNonces := update w.engine.approvalNonces sender
            (w.engine.approvalNonces sender + 1) } } :=
    h.toCalm.frozen_engine rfl rfl rfl rfl rfl rfl rfl id
  have first := counted.step_exact h.toLocal rfl
  have priced := (first.good h).flagged w.engine.entered a.price
  obtain ⟨acted, judged⟩ := approvedAction_acted priced entered freezes acted
  have back := Step.flagged w.engine.entered a.price acted.toStep
  have kept : v.engine.entered = w.engine.entered := congrArg Prod.fst acted.flags_eq
  have same : flagged w.engine.entered w.engine.transactionPrice v = setTransactionPrice 0 v := by
    rw [flagged, free, ← kept]
    rfl
  refine ⟨⟨first.trans (same ▸ back), acted.charged_eq, acted.others⟩,
    ⟨judged.current, judged.safe⟩, within⟩

/-! ### Calls -/

/-- A call and whatever it starts send no collateral to the engine. -/
def Call.withoutGift (self : Address) (c : Call) : Bool :=
  !c.op.isGift self && c.hook.withoutGift self && c.callback.withoutGift self

theorem Good.setEntered (h : Good w) : Good (w.setEntered true) :=
  h.flagged true w.engine.transactionPrice

section Elapse

variable (h : Good w) (seconds : ℕ)

include h

theorem Good.book_elapse :
    book { w with capital := { w.capital with now := w.capital.now + seconds } } =
      (book w).grow (seconds * w.capital.pool.borrowAprBps) := by
  have integral := VariablePool.currentRateIntegral_elapse h.ready.toSound seconds
  have owed_eq := VariablePool.owed_elapse h.ready.toSound seconds
  have since : ∀ a, sinceSettled a
      { w with capital := { w.capital with now := w.capital.now + seconds } } =
      sinceSettled a w + seconds * w.capital.pool.borrowAprBps := by
    intro a
    have before := h.integral_le a
    simp only [sinceSettled, integral]
    omega
  simp only [book, since, owed_eq, LoanBook.grow, World.position, Position.loan, Nat.mul_add,
    Nat.add_assoc]
  rfl

theorem Good.elapse :
    Step 0 w { w with capital := { w.capital with now := w.capital.now + seconds } } where
  loc :=
    { ready := ⟨(VariablePool.elapse_flow h.ready.toSound seconds).sound, h.ready.idle⟩
      closed := h.closed
      integral_le := fun a => by
        have before := h.integral_le a
        simp only [VariablePool.currentRateIntegral_elapse h.ready.toSound seconds]
        omega
      count_eq := h.count_eq
      minimum := h.minimum
      bound := h.bound
      swept := fun none => by
        have idle := (h.book_sound.idle none).1
        change w.capital.pool.outstandingPrincipal = 0 at idle
        rw [VariablePool.owed_elapse h.ready.toSound seconds, h.swept none, idle, Nat.zero_mul] }
  moves := h.book_elapse seconds ▸ (LoanBook.Move.grow _ _).moves
  cfg_eq := rfl
  capital_cfg_eq := rfl
  flags_eq := rfl

end Elapse

theorem Good.guarded_moved (h : Good w) {body : World → Except Error World} {taken : Option Address}
    (moved : ∀ v, Good (w.setEntered true) → body (w.setEntered true) = .ok v →
      Moved taken 0 (w.setEntered true) v)
    (done : nonReentrant body w = .ok w') : Moved taken 0 w w' := by
  obtain ⟨free, v, ran, rfl⟩ := nonReentrant_ok done
  exact .guarded free (moved v h.setEntered ran)

theorem elapse_ok {op : Op} (elapses : op.isElapse = true) (done : run hook callback op w = .ok w') :
    ∃ seconds, op = .capital (.elapse seconds) ∧ w.engine.entered = false ∧
      w' = { w with capital := { w.capital with now := w.capital.now + seconds } } := by
  cases op with
  | capital op =>
    cases op with
    | elapse seconds =>
      simp only [run, VariablePool.Op.isElapse, VariablePool.Op.withSafety, VariablePool.exec,
        bind_eq_ok, revertIf_eq_ok, exists_const, onPool_eq_ok, pure_eq_ok, true_and,
        Bool.not_eq_true] at done
      obtain ⟨free, capital, rfl, rfl⟩ := done
      exact ⟨seconds, rfl, free, rfl⟩
    | _ => cases elapses
  | _ => cases elapses

theorem submitPrice_moved (h : Good w) {p : Price} {signature : Signature}
    (done : submitPrice p signature w = .ok w') (taken : Option Address) :
    Moved taken 0 w w' ∧ w'.self = w.self :=
  have frozen := submitPrice_frozen h.toCalm done
  ⟨frozen.1.moved_exact h.toLocal taken frozen.2, frozen.1.self_eq⟩

/-- Whose position a call liquidates. -/
def Op.liquidated : Op → Option Address
  | .liquidate _ borrower .. | .liquidateWithCallback _ borrower ..
  | .liquidateApproved _ borrower .. | .liquidateWithCallbackApproved _ borrower .. => some borrower
  | _ => none

def Op.isApproved : Op → Bool
  | .executeApproved .. => true
  | _ => false

/-- Every call but an approved action is a few movements of the book that lend nothing, and nothing
but a gift adds to custody for no loan. -/
theorem run_moved (h : Good w) (free : w.engine.transactionPrice = 0) (freezes : Freezes hook)
    (freezes' : Freezes callback) {op : Op} (still : op.isElapse = false)
    (plain : op.isApproved = false) (away : op.sender ≠ some w.self)
    (done : run hook callback op w = .ok w') :
    ∃ n, Moved op.liquidated n w w' ∧
      (op.isGift w.self = false → GivesNothing w.self callback → n = 0) := by
  by_cases guarded : op.isGuarded = true
  swap
  · obtain ⟨frozen, custody⟩ := run_unguarded h.toCalm (Bool.not_eq_true _ ▸ guarded) still away done
    exact ⟨_, frozen.moved h.toLocal _, fun apart _ => by rw [custody apart, Nat.sub_self]⟩
  have whole : Moved op.liquidated 0 w w' → ∃ n, Moved op.liquidated n w w' ∧
      (op.isGift w.self = false → GivesNothing w.self callback → n = 0) :=
    fun moved => ⟨0, moved, fun _ _ => rfl⟩
  cases op with
  | retireMarket sender =>
    refine whole (h.guarded_moved (fun v hw done => ?_) done)
    simp only [retireMarket, onlyOwner, requirePool, bind_eq_ok, revertIf_eq_ok, exists_const,
      onPool_eq_ok] at done
    obtain ⟨-, -, capital, retired, rfl⟩ := done
    have paused : Frozen (w.setEntered true) { w.setEntered true with
        engine := { (w.setEntered true).engine with retired := true, riskPaused := true } } :=
      hw.toCalm.frozen_engine rfl rfl rfl rfl rfl rfl rfl id
    have closed := limitCall_frozen paused.calm (VariablePool.Op.retire w.self) rfl retired
    exact (paused.trans closed).moved_exact hw.toLocal _ rfl
  | executeBorrowIntent sender instruction signature proof =>
    exact whole (h.guarded_moved
      (fun v hw done => executeBorrowIntent_moved hw rfl free freezes done) done)
  | depositCollateral sender borrower amount =>
    refine whole (h.guarded_moved (fun v hw done => ?_) done)
    obtain ⟨acted, principal, collateral⟩ := depositCollateralFrom_acted hw rfl freezes done
    exact acted.moved _ principal.le (.inl (by omega))
  | depositAndBorrow sender collateralAmount borrowAmount =>
    simp only [run] at done
    refine whole (h.guarded_moved (fun v hw done => ?_) done)
    simp only [bind_eq_ok] at done
    obtain ⟨u, deposited, borrowed⟩ := done
    have first := (depositCollateralFrom_acted hw rfl freezes deposited).1
    have price : u.engine.transactionPrice = w.engine.transactionPrice :=
      congrArg (·.2.1) first.flags_eq
    exact absurd (price.trans free) (borrowFor_acted (first.good hw) borrowed).2.1
  | borrow sender amount =>
    exact whole (h.guarded_moved
      (fun v hw done => absurd free (borrowFor_acted hw done).2.1) done)
  | withdrawCollateral sender amount recipient =>
    refine whole (h.guarded_moved (fun v hw done => ?_) done)
    obtain ⟨acted, principal, none, -⟩ := withdrawCollateralFor_acted hw rfl freezes done
    exact acted.moved _ principal.le (.inr (principal.trans (none free)))
  | repay sender borrower maxAmount =>
    simp only [run] at done
    refine whole (h.guarded_moved (fun v hw done => ?_) done)
    simp only [bind_eq_ok, pure_eq_ok, Prod.exists] at done
    obtain ⟨u, n, repaid, rfl⟩ := done
    exact repayUpTo_moved hw repaid _
  | close sender maxRepay recipient =>
    simp only [run] at done
    refine whole (h.guarded_moved (fun v hw done => ?_) done)
    simp only [bind_eq_ok, pure_eq_ok, Prod.exists] at done
    obtain ⟨u, n, closed, rfl⟩ := done
    exact close_moved hw rfl freezes closed _
  | liquidate sender borrower maxRepay minCollateral =>
    exact whole (h.guarded_moved (fun v hw done => liquidate_moved hw rfl freezes done) done)
  | liquidateApproved sender borrower maximum minimum p signature =>
    simp only [run] at done
    refine whole (h.guarded_moved (fun v hw done => ?_) done)
    simp only [bind_eq_ok] at done
    obtain ⟨u, submitted, done⟩ := done
    have first := (submitPrice_moved hw submitted (some borrower)).1
    exact first.trans (liquidate_moved (first.good hw) (first.toStep.entered rfl) freezes done)
  | liquidateWithCallback sender borrower maxRepay minCollateral =>
    obtain ⟨idle, v, ran, rfl⟩ := nonReentrant_ok done
    obtain ⟨n, moved, none⟩ := liquidateWithCallback_moved h.setEntered rfl freezes freezes' ran
    exact ⟨n, .guarded idle moved, fun _ => none⟩
  | liquidateWithCallbackApproved sender borrower maximum minimum p signature =>
    simp only [run] at done
    obtain ⟨idle, v, ran, rfl⟩ := nonReentrant_ok done
    simp only [bind_eq_ok] at ran
    obtain ⟨u, submitted, ran⟩ := ran
    obtain ⟨first, self⟩ := submitPrice_moved h.setEntered submitted (some borrower)
    obtain ⟨n, moved, none⟩ := liquidateWithCallback_moved (first.good h.setEntered)
      (first.toStep.entered rfl) freezes freezes' ran
    refine ⟨n, .guarded idle (Nat.zero_add n ▸ first.trans moved), fun _ nothing => none ?_⟩
    rw [self]
    exact nothing
  | executeApproved => cases plain
  | _ => cases guarded

theorem run_approved (h : Good w) (free : w.engine.transactionPrice = 0) (freezes : Freezes hook)
    {sender : Address} {a : Approval} {signature : Signature}
    (done : run hook callback (.executeApproved sender a signature) w = .ok w') :
    Acted sender w w' ∧ Judged sender a.price w' ∧ positionDebt sender w' ≤ a.maxDebt := by
  obtain ⟨idle, v, ran, rfl⟩ := nonReentrant_ok done
  obtain ⟨acted, judged, within⟩ := executeApproved_acted h.setEntered rfl free freezes ran
  exact ⟨.guarded idle acted, ⟨judged.current, judged.safe⟩, within⟩

/-- Every call is a few movements of the book. -/
theorem run_step (h : Good w) (free : w.engine.transactionPrice = 0) (freezes : Freezes hook)
    (freezes' : Freezes callback) {op : Op} (away : op.sender ≠ some w.self)
    (done : run hook callback op w = .ok w') :
    ∃ n, Step n w w' ∧ (op.isGift w.self = false → GivesNothing w.self callback → n = 0) := by
  by_cases still : op.isElapse = true
  · obtain ⟨seconds, rfl, -, rfl⟩ := elapse_ok still done
    exact ⟨0, h.elapse seconds, fun _ _ => rfl⟩
  cases op with
  | executeApproved sender a signature =>
    exact ⟨0, (run_approved h free freezes done).1.toStep, fun _ _ => rfl⟩
  | _ =>
    obtain ⟨n, moved, none⟩ := run_moved h free freezes freezes' (Bool.not_eq_true _ ▸ still) rfl
      away done
    exact ⟨n, moved.toStep, none⟩

theorem exec_step (h : Good w) (free : w.engine.transactionPrice = 0) {c : Call}
    (done : exec c w = .ok w') :
    ∃ n, Step n w w' ∧ (c.withoutGift w.self = true → n = 0) := by
  obtain ⟨away, -, v, ran, rfl⟩ := perform_ok done
  obtain ⟨n, step, none⟩ := run_step h free c.hook.run_freezes c.callback.run_freezes away ran
  have recorded : Step 0 v (v.record c.op) :=
    (record_frozen step.loc.toCalm c.op).step_exact step.loc rfl
  refine ⟨n, step.trans recorded, fun apart => ?_⟩
  simp only [Call.withoutGift, Bool.and_eq_true, Bool.not_eq_true'] at apart
  exact none apart.1.1 (c.callback.run_givesNothing apart.2)

theorem Deployed.good (h : Deployed w) : Good w := by
  obtain ⟨owner, signer, engine_eq⟩ := h.engine_eq
  obtain ⟨limit, -, pool⟩ := h.pool.pool_eq
  have positions : ∀ a, w.position a = .empty := fun a => by rw [World.position, engine_eq]
  have active : w.engine.active = .empty := by rw [engine_eq]
  have nothing : owed w.capital = 0 := by simp [owed, pool]
  have loans : ∀ a, (book w).loan a = ⟨0, 0, 0⟩ := by
    intro a
    simp only [book, positions, Position.loan, Position.empty, Nat.zero_mul]
  exact
    { ready := ⟨h.pool.sound, h.usdg_allowance⟩
      closed := h.collateral_allowance
      integral_le := fun a => by simp [engine_eq]
      count_eq := by simp [engine_eq, SwapPop.empty]
      minimum := fun a owes => by simp [positions, Position.empty] at owes
      bound := fun some => by simp [active, SwapPop.empty] at some
      swept := fun _ => nothing
      book_sound :=
        { reconciled := ⟨by simp only [loans, sum_const_zero]; simp [book, pool],
            by simp [loans]⟩
          wellFormed := by
            change w.engine.active.WellFormed
            rw [active]
            exact SwapPop.empty_wellFormed
          listed := fun a => by
            rw [loans, book, active]
            simp [SwapPop.empty]
          settled := fun a _ => by rw [loans]
          backed := fun a owes => by simp [loans] at owes
          held := by simp [loans] } }

/-- Between transactions. -/
structure Idle (w : World) : Prop extends Good w where
  flags_eq : flags w = (false, 0, false)

theorem Idle.free (h : Idle w) : w.engine.transactionPrice = 0 := congrArg (·.2.1) h.flags_eq

theorem Deployed.idle (h : Deployed w) : Idle w where
  toGood := h.good
  flags_eq := by
    obtain ⟨owner, signer, engine_eq⟩ := h.engine_eq
    obtain ⟨limit, -, pool⟩ := h.pool.pool_eq
    simp only [flags, engine_eq, pool]

theorem Idle.exec (h : Idle w) {c : Call} (done : exec c w = .ok w') : Idle w' := by
  obtain ⟨n, step, -⟩ := exec_step h.toGood h.free done
  exact ⟨step.good h.toGood, step.flags_eq.trans h.flags_eq⟩

theorem Reachable.idle (h : Reachable w) : Idle w := by
  obtain ⟨start, calls, deployed, run⟩ := h
  exact run.invariant Idle (fun _ _ _ idle done => idle.exec done) deployed.idle

/-! ### The registry -/

/-- What a run gave the engine outright is all it holds beyond the pledged collateral. -/
theorem run_custody (h : Idle w) {calls : List Call} (run : Run (accepts exec) w calls w')
    (apart : ∀ c ∈ calls, c.withoutGift w.self = true) :
    w'.collateral.balanceOf w'.self + ∑ a, (w.position a).collateral =
      w.collateral.balanceOf w.self + ∑ a, (w'.position a).collateral := by
  induction run with
  | nil => rfl
  | @cons s t u c calls first _ ih =>
    obtain ⟨n, step, none⟩ := exec_step h.toGood h.free first
    have moved := h.book_sound.custody_moves step.moves
    rw [none (apart _ (List.mem_cons_self ..))] at moved
    have self : t.self = s.self := congrArg VariablePool.Config.creditEngine step.capital_cfg_eq
    have rest := ih (h.exec first) fun c member => by
      have away := apart c (List.mem_cons_of_mem _ member)
      rwa [← self] at away
    simp only [book, LoanBook.pledged, Position.loan] at moved
    omega

/-- In every run of the variable-rate engine, whatever the tokens and the callbacks do in it, the
registry is exact; custody is the pledged collateral, with what was there at the start and what was
sent outright; between transactions no price stands, no guard and no freeze is left; and a payment
that went through always lets the loan end. -/
theorem variable_registry_exact {start : World} {calls : List Call} (deployed : Deployed start)
    (run : Run (accepts exec) start calls w) :
    RegistryExact w.engine.active w.engine.activeDebtPositions w.cfg.minimumDebt
        (w.collateral.balanceOf w.self) (fun a => w.position a) ∧
      ((∀ c ∈ calls, c.withoutGift start.self = true) → w.collateral.balanceOf w.self =
        start.collateral.balanceOf start.self + ∑ a, (w.position a).collateral) ∧
      flags w = (false, 0, false) ∧
      ∀ sender b amount v, 0 < amount → amount ≤ positionDebt b w →
        repayPosition sender b amount (afterSettle b w) = .ok v → ∃ w', finish b v = .ok w' := by
  have idle : Idle w := Reachable.idle ⟨start, calls, deployed, run⟩
  have fresh : ∑ a, (start.position a).collateral = 0 := by
    obtain ⟨owner, signer, engine_eq⟩ := deployed.engine_eq
    simp only [World.position, engine_eq, Position.empty, sum_const_zero]
  refine ⟨.of_sound idle.book_sound (fun _ => rfl) idle.count_eq idle.minimum, fun apart => ?_,
    idle.flags_eq, ?_⟩
  · have custody := run_custody deployed.idle run apart
    rw [fresh, Nat.add_zero] at custody
    exact custody
  · intro sender b amount v positive within repaid
    rw [idle.toGood.positionDebt b] at within
    obtain ⟨w', done, -⟩ := finish_paid (idle.toGood.afterSettle b) positive within repaid
    exact ⟨w', done⟩

/-! One market: a lender's thousand USDG, half of it borrowed against a thousand tokens at an approved
price of one USDG each, and thirty days of interest at a rate between the base and the kink. -/

def plain (op : Op) : Call := ⟨op, .return, .return⟩

def sampleStart : World where
  cfg :=
    { maxLtvBps := 5200, liquidationLtvBps := 7400, bonusBps := 600, minimumDebt := 2 * 10 ^ 6
      digest := fun _ => 0
      maxLtv_ne_zero := by decide, maxLtv_lt := by decide, liquidationLtv_lt := by decide
      bonus_le := by decide, minimumDebt_ne_zero := by decide, bonus_room := by decide }
  capital :=
    { cfg := VariablePool.sampleConfig
      now := 1000
      usdg := .empty
      pool := ⟨10 ^ 12, 0, 0, 200, 0, 0, 0, 1000, 0, 0, 0, false, false, .empty⟩ }
  collateral := .empty
  engine := ⟨1, false, false, true, false, 0, fun _ => 0, .empty, fun _ => .empty, fun _ => 0, 5, 0,
    fun _ => 0, .none, 0, []⟩
  isValidSignatureNow _ _ _ := true
  hasCode _ := false
  history := []

def sampleApproval : Approval :=
  ⟨3, 1, 10 ^ 21, 5 * 10 ^ 8, 10 ^ 9, 10 ^ 18, 0, 1000, 1050, 0⟩

def sampleCalls : List Call :=
  List.map plain
    [ .bindPool 1, .setRiskPaused 1 false,
      .capital (.usdg (.mint 2 (10 ^ 9))), .capital (.usdg (.approve 2 201 (10 ^ 9))),
      .capital (.lender none (.deposit 2 2 (10 ^ 9))),
      .collateral (.mint 3 (10 ^ 21)), .collateral (.approve 3 200 (10 ^ 21)),
      .executeApproved 3 sampleApproval [], .capital (.elapse (30 * 86400)),
      .capital (.usdg (.mint 4 (10 ^ 9))), .capital (.usdg (.approve 4 200 (10 ^ 9))) ]

def sample : World := reached sampleStart (execAll exec sampleCalls sampleStart)

theorem sampleStart_deployed : Deployed sampleStart :=
  ⟨⟨⟨10 ^ 12, by decide, rfl⟩, fun _ => rfl⟩, ⟨1, 5, rfl⟩, fun _ => rfl, fun _ => rfl, rfl⟩

theorem sample_run : Run (accepts exec) sampleStart sampleCalls sample :=
  run_of_execAll (eq_ok_reached _ (by decide +kernel))

theorem sample_reachable : Reachable sample :=
  ⟨sampleStart, sampleCalls, sampleStart_deployed, sample_run⟩

/-- The one loan is listed, and the thousand tokens pledged are all that the engine holds. -/
theorem sample_variable_registry :
    (3 ∈ sample.engine.active.members ↔ (sample.position 3).debt ≠ 0) ∧
      sample.collateral.balanceOf sample.self =
        sampleStart.collateral.balanceOf sampleStart.self + ∑ a, (sample.position a).collateral :=
  ⟨(variable_registry_exact sampleStart_deployed sample_run).1.mem_iff 3,
    (variable_registry_exact sampleStart_deployed sample_run).2.1 (by decide +kernel)⟩

end Turret.VariableEngine
