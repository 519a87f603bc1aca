import Turret.Variable.CreditEngine
import Turret.Variable.EngineCalls

/-! The loan book of the variable-rate engine and its pool. Positions are read
up to the pool's current rate integral, so settling one leaves the book as it
was, and so does whatever foreign code can do in the middle of a call. -/

namespace Turret.VariableEngine

open Execution Rounding Function
open VariablePool (CapitalStep LossStep Ready owed currentRateIntegral)

/-- The rate integral since the last settlement of `b`. -/
def sinceSettled (b : Address) (w : World) : ℕ :=
  currentRateIntegral w.capital - w.engine.positionRateIntegral b

def book (w : World) : LoanBook Address where
  loan a := (w.position a).loan (sinceSettled a w)
  principal := w.capital.pool.outstandingPrincipal
  accrued := owed w.capital
  custody := w.collateral.balanceOf w.self
  active := w.engine.active

/-- Neither token lets anybody spend in the engine's name, and the pool is sound. -/
structure Calm (w : World) : Prop where
  ready : Ready w.capital
  closed : ∀ a, w.collateral.allowance w.self a = 0

/-- What holds of the engine apart from its book. -/
structure Local (w : World) : Prop extends Calm w where
  integral_le : ∀ a, w.engine.positionRateIntegral a ≤ currentRateIntegral w.capital
  count_eq : w.engine.activeDebtPositions = w.engine.active.members.length
  minimum : ∀ a, (w.position a).principal ≠ 0 → w.cfg.minimumDebt ≤ (w.position a).debt
  bound : w.engine.active.members ≠ [] → w.engine.bound = true
  swept : w.engine.active.members = [] → owed w.capital = 0

structure Good (w : World) : Prop extends Local w where
  book_sound : (book w).Sound

/-- The guard, the price of the action in course and the freeze of the pool. -/
def flags (w : World) : Bool × ℕ × Bool :=
  (w.engine.entered, w.engine.transactionPrice, w.capital.pool.liquidationSettlementActive)

/-- Movements of the book, with the collateral given to the engine for no loan. -/
structure Step (n : ℕ) (w w' : World) : Prop where
  loc : Local w'
  moves : LoanBook.Moves n (book w) (book w')
  cfg_eq : w'.cfg = w.cfg
  capital_cfg_eq : w'.capital.cfg = w.capital.cfg
  flags_eq : flags w' = flags w

theorem Step.good {n : ℕ} {w w' : World} (h : Step n w w') (hw : Good w) : Good w' :=
  ⟨h.loc, hw.book_sound.moves h.moves⟩

theorem Step.trans {m n : ℕ} {a b c : World} (h : Step m a b) (k : Step n b c) :
    Step (m + n) a c :=
  ⟨k.loc, h.moves.trans k.moves, k.cfg_eq.trans h.cfg_eq, k.capital_cfg_eq.trans h.capital_cfg_eq,
    k.flags_eq.trans h.flags_eq⟩

theorem Good.refl {w : World} (h : Good w) : Step 0 w w := ⟨h.toLocal, .refl _, rfl, rfl, rfl⟩

namespace Good

variable {w : World}

theorem listed (h : Good w) (a : Address) :
    w.engine.active.index a ≠ 0 ↔ (w.position a).principal ≠ 0 :=
  h.book_sound.listed a

theorem no_interest (h : Good w) {a : Address} (none : (w.position a).principal = 0) :
    (w.position a).interest = 0 ∧ (w.position a).remainder = 0 :=
  Position.settled_of_loan (h.book_sound.settled a none)

theorem debt_eq_zero (h : Good w) {a : Address} :
    (w.position a).debt = 0 ↔ (w.position a).principal = 0 := by
  refine ⟨fun none => ?_, fun none => ?_⟩
  · simp only [Position.debt] at none
    omega
  · rw [Position.debt, none, (h.no_interest none).1]

/-- Up-to-date interest fits what the pool is owed. -/
theorem interest_le (h : Good w) (a : Address) :
    (w.position a).interest * DENOMINATOR ≤ owed w.capital := by
  have part := h.book_sound.accrued_le a
  simp only [book, Position.loan] at part
  omega

end Good

theorem position_set (w : World) (a : Address) (p : Position) :
    (w.setPosition a p).position a = p := by
  simp [World.setPosition, World.position]

theorem position_set_of_ne (w : World) {a b : Address} (h : b ≠ a) (p : Position) :
    (w.setPosition a p).position b = w.position b := by
  simp [World.setPosition, World.position, h]

/-! ### Settling -/

@[simp] theorem onPool_eq_ok {call : VariablePool.World → Except PoolError VariablePool.World}
    {w w' : World} :
    onPool call w = .ok w' ↔ ∃ capital, call w.capital = .ok capital ∧ { w with capital } = w' := by
  simp only [onPool, bind_eq_ok, mapError_eq_ok, pure_eq_ok]

/-- The world after `_settle`. -/
def afterSettle (b : Address) (w : World) : World :=
  settlePosition b { w with capital := VariablePool.refreshed (VariablePool.accrue w.capital) }

theorem settle_eq_ok {w : World} (h : VariablePool.Sound w.capital) {b : Address} {s : World} :
    settle b w = .ok s ↔ afterSettle b w = s := by
  simp only [settle, bind_eq_ok, onPool_eq_ok, pure_eq_ok, VariablePool.accrueInterest_accepts h,
    Except.ok.injEq]
  constructor
  · rintro ⟨_, ⟨_, rfl, rfl⟩, rfl⟩
    rfl
  · rintro rfl
    exact ⟨_, ⟨_, rfl, rfl⟩, rfl⟩

section Settled

variable (b : Address) (w : World)

@[simp] theorem afterSettle_cfg : (afterSettle b w).cfg = w.cfg := rfl
@[simp] theorem afterSettle_self : (afterSettle b w).self = w.self := rfl
@[simp] theorem afterSettle_collateral : (afterSettle b w).collateral = w.collateral := rfl
@[simp] theorem afterSettle_active : (afterSettle b w).engine.active = w.engine.active := rfl
@[simp] theorem afterSettle_principal :
    (afterSettle b w).capital.pool.outstandingPrincipal = w.capital.pool.outstandingPrincipal := rfl

@[simp] theorem afterSettle_integral :
    currentRateIntegral (afterSettle b w).capital = currentRateIntegral w.capital :=
  (VariablePool.currentRateIntegral_refreshed (VariablePool.accrue_checkpointed _)).trans
    (VariablePool.currentRateIntegral_accrue _)

@[simp] theorem afterSettle_owed : owed (afterSettle b w).capital = owed w.capital :=
  (VariablePool.owed_refreshed (VariablePool.accrue_checkpointed _)).trans
    (VariablePool.owed_accrue _)

/-- The pool's checkpoint does not change what the position has earned since its own. -/
theorem afterSettle_position : (afterSettle b w).position b = settled b (w.position b) w := by
  have integral : currentRateIntegral (VariablePool.refreshed (VariablePool.accrue w.capital)) =
      currentRateIntegral w.capital := afterSettle_integral b w
  simp only [afterSettle, settlePosition, World.position, update_self, settled, interest, integral]
  rfl

theorem afterSettle_position_of_ne {a : Address} (h : a ≠ b) :
    (afterSettle b w).position a = w.position a := by
  simp [afterSettle, settlePosition, World.position, h]

theorem afterSettle_rateIntegral :
    (afterSettle b w).engine.positionRateIntegral b = currentRateIntegral w.capital := by
  rw [← afterSettle_integral b w]
  simp only [afterSettle, settlePosition, update_self]

theorem sinceSettled_afterSettle : sinceSettled b (afterSettle b w) = 0 := by
  rw [sinceSettled, afterSettle_rateIntegral, afterSettle_integral, Nat.sub_self]

theorem sinceSettled_afterSettle_of_ne {a : Address} (h : a ≠ b) :
    sinceSettled a (afterSettle b w) = sinceSettled a w := by
  rw [sinceSettled, afterSettle_integral]
  simp [afterSettle, settlePosition, h, sinceSettled]

@[simp] theorem book_afterSettle : book (afterSettle b w) = book w := by
  have loans : ∀ a, ((afterSettle b w).position a).loan (sinceSettled a (afterSettle b w)) =
      (w.position a).loan (sinceSettled a w) := by
    intro a
    by_cases h : a = b
    · rw [h, sinceSettled_afterSettle, afterSettle_position]
      exact Position.loan_settled ..
    · rw [sinceSettled_afterSettle_of_ne _ _ h, afterSettle_position_of_ne _ _ h]
  simp only [book, afterSettle_active, afterSettle_collateral, afterSettle_self, afterSettle_owed,
    afterSettle_principal, LoanBook.mk.injEq, and_true]
  exact funext loans

end Settled

theorem Good.afterSettle {w : World} (h : Good w) (b : Address) : Good (afterSettle b w) where
  ready := (VariablePool.accrueInterest_step h.ready
    (VariablePool.accrueInterest_accepts h.ready.toSound)).ready
  closed := h.closed
  integral_le a := by
    rw [afterSettle_integral]
    by_cases ha : a = b
    · rw [ha, afterSettle_rateIntegral]
    · simpa [VariableEngine.afterSettle, settlePosition, ha] using h.integral_le a
  count_eq := h.count_eq
  minimum a owes := by
    by_cases ha : a = b
    · subst ha
      rw [afterSettle_position] at owes ⊢
      have below := h.minimum a owes
      simp only [settled, Position.debt, afterSettle_cfg] at below ⊢
      omega
    · rw [afterSettle_position_of_ne _ _ ha] at owes ⊢
      exact h.minimum a owes
  bound := h.bound
  swept none := (afterSettle_owed b w).trans (h.swept none)
  book_sound := by
    rw [book_afterSettle]
    exact h.book_sound

/-- A call settles first, so it may be judged from the settled state. -/
theorem Step.of_settle {n : ℕ} {b : Address} {w w' : World} (h : Step n (afterSettle b w) w') :
    Step n w w' :=
  ⟨h.loc, book_afterSettle b w ▸ h.moves, h.cfg_eq, h.capital_cfg_eq, h.flags_eq⟩

/-- The up-to-date debt is the debt after settling. -/
theorem Good.positionDebt {w : World} (h : Good w) (b : Address) :
    positionDebt b w = ((VariableEngine.afterSettle b w).position b).debt := by
  rw [afterSettle_position, VariableEngine.positionDebt]
  split_ifs with none
  · have empty : interest b (w.position b) w = (0, 0) := by
      rw [interest, none, (h.no_interest none).2]
      exact carry_zero DENOMINATOR_pos (Nat.zero_mul _)
    simp only [settled, Position.debt, empty, none, Nat.zero_add, Nat.add_zero]
  · simp only [settled, Position.debt]
    omega

theorem book_loan_now {w : World} {b : Address} (h : sinceSettled b w = 0) :
    (book w).loan b = ⟨(w.position b).collateral, (w.position b).principal,
      (w.position b).interest * DENOMINATOR + (w.position b).remainder⟩ := by
  simp only [book, h, Position.loan_zero]

/-! ### The charge of a position -/

/-- The interest an event tells was paid for `a`. -/
def interestOf (a : Address) : CreditEvent → ℕ
  | .repaid b _ _ interest => if b = a then interest else 0
  | _ => 0

def interestRepaid (a : Address) (log : List (ℕ × CreditEvent)) : ℕ :=
  (log.map fun e => interestOf a e.2).sum

/-- Interest owed up to now and interest paid so far, in `D`-ths. -/
def charged (a : Address) (w : World) : ℕ :=
  ((book w).loan a).accrued + interestRepaid a w.engine.log * DENOMINATOR

/-- What a call does to the position of `a` when no price was approved: the principal does not rise;
the charge stays as it was, or the loan ends; and collateral leaves it only without a loan, or when
it is seized. -/
structure Turn (seized : Prop) (a : Address) (w w' : World) : Prop where
  principal_le : (w'.position a).principal ≤ (w.position a).principal
  charged_eq : charged a w' = charged a w ∨
    (w.position a).principal ≠ 0 ∧ (w'.position a).principal = 0
  collateral_le : (w.position a).collateral ≤ (w'.position a).collateral ∨
    (w'.position a).principal = 0 ∨ seized

theorem Turn.trans {seized : Prop} {a : Address} {u v w : World} (h : Turn seized a u v)
    (k : Turn seized a v w) : Turn seized a u w where
  principal_le := k.principal_le.trans h.principal_le
  charged_eq := by
    have := h.principal_le
    have := k.principal_le
    rcases h.charged_eq with same | ⟨lent, ended⟩ <;> rcases k.charged_eq with same' | ⟨owes, ended'⟩
    · exact .inl (same'.trans same)
    · exact .inr ⟨by omega, ended'⟩
    · exact .inr ⟨lent, by omega⟩
    · exact absurd ended owes
  collateral_le := by
    have := k.principal_le
    rcases h.collateral_le with kept | none | taken <;>
      rcases k.collateral_le with kept' | none' | taken'
    · exact .inl (kept.trans kept')
    · exact .inr (.inl none')
    · exact .inr (.inr taken')
    · exact .inr (.inl (by omega))
    · exact .inr (.inl none')
    · exact .inr (.inr taken')
    all_goals exact .inr (.inr taken)

/-- Nothing of `a` but what accrues changes. -/
theorem Turn.still {seized : Prop} {a : Address} {w w' : World}
    (loan : (book w').loan a = (book w).loan a)
    (repaid : interestRepaid a w'.engine.log = interestRepaid a w.engine.log) :
    Turn seized a w w' where
  principal_le := (congrArg Loan.principal loan).le
  charged_eq := .inl (by rw [charged, charged, loan, repaid])
  collateral_le := .inl (congrArg Loan.collateral loan).ge

theorem Turn.afterSettle {seized : Prop} (a b : Address) (w : World) :
    Turn seized a w (afterSettle b w) :=
  .still (by rw [book_afterSettle]) rfl

/-! ### What foreign code can do in the middle of a call -/

structure Frozen (w w' : World) : Prop where
  capital : CapitalStep w.capital w'.capital w.capital.pool.outstandingPrincipal (owed w.capital)
  cfg_eq : w'.cfg = w.cfg
  positions_eq : w'.engine.positions = w.engine.positions
  integrals_eq : w'.engine.positionRateIntegral = w.engine.positionRateIntegral
  active_eq : w'.engine.active = w.engine.active
  count_eq : w'.engine.activeDebtPositions = w.engine.activeDebtPositions
  entered_eq : w'.engine.entered = w.engine.entered
  price_eq : w'.engine.transactionPrice = w.engine.transactionPrice
  log_eq : w'.engine.log = w.engine.log
  bound_le : w.engine.bound = true → w'.engine.bound = true
  custody_le : w.collateral.balanceOf w.self ≤ w'.collateral.balanceOf w.self
  closed : ∀ a, w'.collateral.allowance w.self a = 0

namespace Frozen

variable {a b c w w' : World}

theorem refl (h : Calm w) : Frozen w w :=
  ⟨.refl h.ready, rfl, rfl, rfl, rfl, rfl, rfl, rfl, rfl, id, le_rfl, h.closed⟩

theorem self_eq (h : Frozen w w') : w'.self = w.self :=
  congrArg VariablePool.Config.creditEngine h.capital.cfg_eq

theorem calm (h : Frozen w w') : Calm w' :=
  ⟨h.capital.ready, fun a => h.self_eq ▸ h.closed a⟩

theorem trans (h : Frozen a b) (k : Frozen b c) : Frozen a c where
  capital := by
    have both := h.capital.trans k.capital
    rwa [h.capital.principal_eq, h.capital.owed_eq] at both
  cfg_eq := k.cfg_eq.trans h.cfg_eq
  positions_eq := k.positions_eq.trans h.positions_eq
  integrals_eq := k.integrals_eq.trans h.integrals_eq
  active_eq := k.active_eq.trans h.active_eq
  count_eq := k.count_eq.trans h.count_eq
  entered_eq := k.entered_eq.trans h.entered_eq
  price_eq := k.price_eq.trans h.price_eq
  log_eq := k.log_eq.trans h.log_eq
  bound_le bound := k.bound_le (h.bound_le bound)
  custody_le := h.custody_le.trans (h.self_eq ▸ k.custody_le)
  closed x := h.self_eq ▸ k.closed x

theorem position_eq (h : Frozen w w') (x : Address) : w'.position x = w.position x :=
  congrFun h.positions_eq x

theorem sinceSettled_eq (h : Frozen w w') (x : Address) : sinceSettled x w' = sinceSettled x w := by
  simp only [sinceSettled, h.capital.integral_eq, h.integrals_eq]

theorem flags_eq (h : Frozen w w') : flags w' = flags w := by
  simp only [flags, h.entered_eq, h.price_eq, h.capital.settlement_eq]

/-- Nothing moves but the collateral that is sent to the engine. -/
theorem book_eq (h : Frozen w w') :
    book w' = { book w with custody := w'.collateral.balanceOf w.self } := by
  simp only [book, h.position_eq, h.sinceSettled_eq, h.capital.principal_eq, h.capital.owed_eq,
    h.self_eq, h.active_eq]

theorem loc (h : Frozen w w') (hw : Local w) : Local w' where
  toCalm := h.calm
  integral_le x := by
    rw [h.integrals_eq, h.capital.integral_eq]
    exact hw.integral_le x
  count_eq := by
    rw [h.count_eq, h.active_eq]
    exact hw.count_eq
  minimum x := by
    rw [h.position_eq, h.cfg_eq]
    exact hw.minimum x
  bound some := h.bound_le (hw.bound (h.active_eq ▸ some))
  swept none := h.capital.owed_eq.trans (hw.swept (h.active_eq ▸ none))

theorem step (h : Frozen w w') (hw : Local w) :
    Step (w'.collateral.balanceOf w.self - w.collateral.balanceOf w.self) w w' where
  loc := h.loc hw
  moves := by
    have custody : w'.collateral.balanceOf w.self = w.collateral.balanceOf w.self +
        (w'.collateral.balanceOf w.self - w.collateral.balanceOf w.self) := by
      have := h.custody_le
      omega
    have given : book w' = (book w).gift
        (w'.collateral.balanceOf w.self - w.collateral.balanceOf w.self) := by
      rw [h.book_eq]
      simp only [LoanBook.gift, book, ← custody]
    rw [given]
    exact (LoanBook.Move.gift _ _).moves
  cfg_eq := h.cfg_eq
  capital_cfg_eq := h.capital.cfg_eq
  flags_eq := h.flags_eq

theorem turn {seized : Prop} (h : Frozen w w') (a : Address) : Turn seized a w w' :=
  .still (by rw [h.book_eq]) (by rw [h.log_eq])

/-- Where the balance was checked, nothing was given. -/
theorem step_exact (h : Frozen w w') (hw : Local w)
    (exact : w'.collateral.balanceOf w.self = w.collateral.balanceOf w.self) : Step 0 w w' := by
  have step := h.step hw
  rwa [exact, Nat.sub_self] at step

end Frozen

end Turret.VariableEngine
