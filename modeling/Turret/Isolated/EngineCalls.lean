import Turret.Isolated.CreditEngine
import Turret.Isolated.PoolBooks
import Turret.Library.LoanBook

/-! What the engine's calls leave of the fixed-rate pool: its principal and the
interest it is owed, and when the pool accepts them. -/

namespace Turret.IsolatedPool

open Execution

/-- The pool as its engine finds it: the engine has no allowance open. -/
structure Ready (c : World) : Prop extends Sound c where
  idle : ∀ a, c.usdg.allowance c.cfg.creditEngine a = 0

/-- What one engine call leaves of the pool: principal `P` and scaled interest `G`. -/
structure CapitalStep (c c' : World) (P G : ℕ) : Prop where
  ready : Ready c'
  cfg_eq : c'.cfg = c.cfg
  now_eq : c'.now = c.now
  principal_eq : c'.pool.outstandingPrincipal = P
  owed_eq : owed c' = G

namespace CapitalStep

variable {c d e : World} {P G Q K : ℕ}

theorem refl (h : Ready c) : CapitalStep c c c.pool.outstandingPrincipal (owed c) :=
  ⟨h, rfl, rfl, rfl, rfl⟩

theorem trans (h : CapitalStep c d P G) (k : CapitalStep d e Q K) : CapitalStep c e Q K :=
  ⟨k.ready, k.cfg_eq.trans h.cfg_eq, k.now_eq.trans h.now_eq, k.principal_eq, k.owed_eq⟩

end CapitalStep

/-- A step that moves no USDG. -/
structure LossStep (c c' : World) (P G : ℕ) : Prop extends CapitalStep c c' P G where
  usdg_eq : c'.usdg = c.usdg

theorem accrue_step {c : World} (h : Ready c) :
    CapitalStep c (accrue c) c.pool.outstandingPrincipal (owed c) :=
  ⟨⟨h.toSound.accrue, h.idle⟩, rfl, rfl, rfl, owed_accrue c⟩

theorem draw_step {c c' : World} (h : Ready c) {safety : Option Bool} {sender recipient : Address}
    {amount : ℕ} (drawn : draw safety sender recipient amount c = .ok c') :
    CapitalStep c c' (c.pool.outstandingPrincipal + amount) (owed c) := by
  have sound := (draw_books h.toSound drawn).1
  obtain ⟨usdg, rfl, -, -, -, -, -, -, spent⟩ := draw_ok drawn
  refine ⟨⟨sound, fun a => ?_⟩, rfl, rfl, rfl, (owed_booked c).trans (owed_of_accrue c)⟩
  exact (congrFun (congrFun spent _) a).trans (h.idle a)

theorem owed_sub {c : World} {n : ℕ} (h : n ≤ (accrue c).pool.interestReceivable) :
    ((accrue c).pool.interestReceivable - n) * INTEREST_DENOMINATOR +
      (accrue c).pool.interestRemainder = owed c - n * INTEREST_DENOMINATOR := by
  have all := owed_of_accrue c
  have part := Nat.mul_le_mul_right INTEREST_DENOMINATOR h
  rw [Nat.sub_mul]
  omega

theorem recognizeLoss_step {c c' : World} (h : Ready c) {sender : Address} {principal interest : ℕ}
    (lost : recognizeLoss sender principal interest c = .ok c') :
    LossStep c c' (c.pool.outstandingPrincipal - principal)
      (owed c - interest * INTEREST_DENOMINATOR) := by
  have sound := (recognizeLoss_books h.toSound lost).1
  obtain ⟨rfl, -, -, -, accrued⟩ := recognizeLoss_ok lost
  exact ⟨⟨⟨sound, h.idle⟩, rfl, rfl, rfl, (owed_booked c).trans (owed_sub accrued)⟩, rfl⟩

theorem retire_step {c c' : World} (h : Ready c) {sender : Address}
    (done : retire sender c = .ok c') :
    CapitalStep c c' c.pool.outstandingPrincipal (owed c) := by
  have quiet : QuietStep c c' := exec_quiet h.toSound (Eq.refl (Op.retire sender).isQuiet) done
  simp only [retire, bind_eq_ok, pure_eq_ok] at done
  obtain ⟨-, -, rfl⟩ := done
  exact ⟨⟨quiet.sound, h.idle⟩, rfl, rfl, rfl, quiet.owed_eq⟩

/-- The pool accepts exactly the losses its books hold. -/
theorem recognizeLoss_accepts {c : World} {principal interest : ℕ}
    (positive : 0 < principal + interest) (owes : principal ≤ c.pool.outstandingPrincipal)
    (earned : interest ≤ (accrue c).pool.interestReceivable) :
    ∃ c', recognizeLoss c.cfg.creditEngine principal interest c = .ok c' := by
  simp only [recognizeLoss, onlyEngine, bind_eq_ok, revertIf_eq_ok, exists_const, pure_eq_ok,
    ne_eq, not_not, not_or, not_lt]
  exact ⟨_, trivial, ⟨by omega, owes, earned⟩, rfl⟩

theorem le_receivable {c : World} {n : ℕ} (h : n * INTEREST_DENOMINATOR ≤ owed c) :
    n ≤ (accrue c).pool.interestReceivable :=
  le_of_scaled_le (accrue_remainder_lt c) (h.trans (owed_of_accrue c).ge)

/-! ### A payment: the engine pulls it, approves it, and the pool pulls it on -/

/-- The payer's USDG in the engine's hands, approved for the pool. -/
def funded (payer : Address) (amount : ℕ) (c : World) : World :=
  { c with usdg := c.usdg.relay payer c.cfg.creditEngine c.cfg.self amount }

section Payment

variable {c : World} {payer : Address} {amount principal interest : ℕ}

theorem Ready.funded_sound (h : Ready c)
    (allowed : amount ≤ c.usdg.allowance payer c.cfg.creditEngine) :
    Sound (funded payer amount c) where
  fees_le := by
    have kept : c.pool.protocolFees ≤ (c.usdg.relay payer c.cfg.creditEngine c.cfg.self
        amount).balanceOf c.cfg.self := by
      rw [TokenLedger.relay_balance_target c.cfg.engine_ne_self h.no_allowance allowed]
      exact h.fees_le
    exact kept
  last_le := h.last_le
  remainder_lt := h.remainder_lt
  principal_le := h.principal_le
  no_allowance := TokenLedger.relay_allowance_target c.cfg.engine_ne_self h.no_allowance

theorem repay_step (h : Ready c) (allowed : amount ≤ c.usdg.allowance payer c.cfg.creditEngine)
    {c' : World} (sum : principal + interest = amount)
    (repaid : repay c.cfg.creditEngine principal interest (funded payer amount c) = .ok c') :
    CapitalStep c c' (c.pool.outstandingPrincipal - principal)
      (owed c - interest * INTEREST_DENOMINATOR) := by
  subst sum
  have sound := (repay_books (h.funded_sound allowed) repaid).1
  obtain ⟨usdg, rfl, -, -, accrued, -, pulled, -⟩ := repay_ok repaid
  exact ⟨⟨sound, TokenLedger.relay_spent h.idle pulled⟩, rfl, rfl, rfl,
    (owed_booked _).trans (owed_sub accrued)⟩

/-- The payment leaves the payer's balance and allowance. -/
theorem repay_payer (other : payer ≠ c.cfg.creditEngine) (away : payer ≠ c.cfg.self)
    (sum : principal + interest = amount) {c' : World}
    (repaid : repay c.cfg.creditEngine principal interest (funded payer amount c) = .ok c') :
    c'.usdg.balanceOf payer = c.usdg.balanceOf payer - amount ∧
      c'.usdg.allowance payer c.cfg.creditEngine =
        c.usdg.allowance payer c.cfg.creditEngine - amount := by
  subst sum
  obtain ⟨usdg, rfl, -, -, -, -, pulled, -⟩ := repay_ok repaid
  exact TokenLedger.relay_pulled_payer other away pulled

/-- A payment within the books is never refused. -/
theorem repay_accepts (h : Ready c) (other : payer ≠ c.cfg.creditEngine)
    (sum : principal + interest = amount) (positive : 0 < amount)
    (owes : principal ≤ c.pool.outstandingPrincipal)
    (earned : interest ≤ (accrue c).pool.interestReceivable) :
    ∃ c', repay c.cfg.creditEngine principal interest (funded payer amount c) = .ok c' := by
  subst sum
  obtain ⟨usdg, pulled, received⟩ :
      ∃ usdg, (funded payer (principal + interest) c).usdg.transferFrom c.cfg.self
        c.cfg.creditEngine c.cfg.self (principal + interest) = some usdg ∧ _ :=
    TokenLedger.relay_pulled h.idle c.cfg.engine_ne_self other
  simp only [repay, onlyEngine, bind_eq_ok, revertIf_eq_ok, exists_const, orRevert_eq_ok,
    pure_eq_ok, ne_eq, not_not, not_or, not_lt]
  exact ⟨_, rfl, ⟨owes, earned, by omega⟩, usdg, pulled, received, rfl⟩

end Payment

end Turret.IsolatedPool

/-! The loan book of the fixed-rate engine and its pool. Positions are read up to
the current time, so settling one leaves the book as it was; every other call is
a movement of the book. -/

namespace Turret.IsolatedEngine

open Execution Rounding Function
open IsolatedPool (CapitalStep Ready owed)

/-- The rate integral since `updatedAt`. -/
def sinceUpdate (p : Position) (w : World) : ℕ :=
  (w.now - p.updatedAt) * w.capital.cfg.borrowAprBps

def loanOf (p : Position) (w : World) : Loan := p.loan (sinceUpdate p w)

def book (w : World) : LoanBook Address where
  loan a := loanOf (w.position a) w
  principal := w.capital.pool.outstandingPrincipal
  accrued := owed w.capital
  custody := w.collateral.balanceOf w.self
  active := w.engine.active

/-- What holds of the engine apart from its book. -/
structure Local (w : World) : Prop where
  ready : Ready w.capital
  updated_le : ∀ a, (w.position a).updatedAt ≤ w.now
  count_eq : w.engine.activeDebtPositions = w.engine.active.members.length
  count_le : w.engine.active.members.length ≤ MAX_ACTIVE_POSITIONS
  minimum : ∀ a, (w.position a).principal ≠ 0 → w.cfg.minimumDebt ≤ (w.position a).debt
  closed : ∀ a, w.collateral.allowance w.self a = 0
  bound : w.engine.active.members ≠ [] → w.engine.bound = true

structure Good (w : World) : Prop extends Local w where
  book_sound : (book w).Sound

/-- One call: movements of the book, with the collateral given to the engine for no loan. -/
structure Step (n : ℕ) (w w' : World) : Prop where
  loc : Local w'
  moves : LoanBook.Moves n (book w) (book w')
  cfg_eq : w'.cfg = w.cfg
  capital_cfg_eq : w'.capital.cfg = w.capital.cfg

theorem Step.good {n : ℕ} {w w' : World} (h : Step n w w') (hw : Good w) : Good w' :=
  ⟨h.loc, hw.book_sound.moves h.moves⟩

theorem Step.trans {m n : ℕ} {a b c : World} (h : Step m a b) (k : Step n b c) :
    Step (m + n) a c :=
  ⟨k.loc, h.moves.trans k.moves, k.cfg_eq.trans h.cfg_eq, k.capital_cfg_eq.trans h.capital_cfg_eq⟩

namespace Good

variable {w : World}

theorem listed (h : Good w) (a : Address) :
    w.engine.active.index a ≠ 0 ↔ (w.position a).principal ≠ 0 :=
  h.book_sound.listed a

theorem no_interest (h : Good w) {a : Address} (none : (w.position a).principal = 0) :
    (w.position a).interest = 0 ∧ (w.position a).remainder = 0 :=
  Position.settled_of_loan (h.book_sound.settled a none)

theorem debt_eq_zero (h : Good w) {a : Address} :
    (w.position a).debt = 0 ↔ (w.position a).principal = 0 := by
  refine ⟨fun none => ?_, fun none => ?_⟩
  · simp only [Position.debt] at none
    omega
  · rw [Position.debt, none, (h.no_interest none).1]

/-- Up-to-date interest fits what the pool is owed. -/
theorem interest_le (h : Good w) (a : Address) :
    (w.position a).interest * DENOMINATOR ≤ owed w.capital := by
  have part := h.book_sound.accrued_le a
  simp only [book, loanOf, Position.loan] at part
  omega

end Good

/-! ### Settling -/

theorem position_set (w : World) (a : Address) (p : Position) :
    (w.setPosition a p).position a = p := by
  simp [World.setPosition, World.position]

theorem position_set_of_ne (w : World) {a b : Address} (h : b ≠ a) (p : Position) :
    (w.setPosition a p).position b = w.position b := by
  simp [World.setPosition, World.position, h]

/-- A loan is read alike in two worlds with one clock and one rate. -/
theorem loanOf_congr {w w' : World} (capital : w'.capital.cfg = w.capital.cfg)
    (now : w'.now = w.now) (p : Position) : loanOf p w' = loanOf p w := by
  simp only [loanOf, sinceUpdate, capital, now]

theorem loanOf_now {w : World} {p : Position} (h : p.updatedAt = w.now) :
    loanOf p w = ⟨p.collateral, p.principal, p.interest * DENOMINATOR + p.remainder⟩ := by
  simp only [loanOf, sinceUpdate, h, Nat.sub_self, Nat.zero_mul, Position.loan_zero]

theorem book_loan_now {w : World} {b : Address} (h : (w.position b).updatedAt = w.now) :
    (book w).loan b = ⟨(w.position b).collateral, (w.position b).principal,
      (w.position b).interest * DENOMINATOR + (w.position b).remainder⟩ :=
  loanOf_now h

@[simp] theorem settle_cfg (b : Address) (w : World) : (settle b w).cfg = w.cfg := rfl
@[simp] theorem settle_capital (b : Address) (w : World) :
    (settle b w).capital = IsolatedPool.accrue w.capital := rfl
@[simp] theorem settle_collateral (b : Address) (w : World) :
    (settle b w).collateral = w.collateral := rfl
@[simp] theorem settle_self (b : Address) (w : World) : (settle b w).self = w.self := rfl
@[simp] theorem settle_active (b : Address) (w : World) :
    (settle b w).engine.active = w.engine.active := rfl

@[simp] theorem settle_position (b : Address) (w : World) :
    (settle b w).position b = settled (w.position b) w :=
  position_set ..

theorem settle_position_of_ne {a b : Address} (h : a ≠ b) (w : World) :
    (settle b w).position a = w.position a :=
  position_set_of_ne _ h _

theorem loanOf_settled (p : Position) (w : World) : loanOf (settled p w) w = loanOf p w :=
  (loanOf_now rfl).trans ((Position.loan_zero _).symm.trans (Position.loan_settled p _ _))

@[simp] theorem book_settle (b : Address) (w : World) : book (settle b w) = book w := by
  have loans : ∀ a, loanOf ((settle b w).position a) w = loanOf (w.position a) w := by
    intro a
    by_cases h : a = b
    · rw [h, settle_position, loanOf_settled]
    · rw [settle_position_of_ne h]
  simp only [book, settle_capital, settle_active, settle_collateral, settle_self,
    IsolatedPool.owed_accrue, IsolatedPool.accrue_principal, LoanBook.mk.injEq, and_true]
  exact funext loans

theorem Good.settle {w : World} (h : Good w) (b : Address) : Good (settle b w) where
  ready := (IsolatedPool.accrue_step h.ready).ready
  updated_le a := by
    by_cases ha : a = b
    · rw [ha, settle_position]
      exact le_rfl
    · rw [settle_position_of_ne ha]
      exact h.updated_le a
  count_eq := h.count_eq
  count_le := h.count_le
  minimum a owes := by
    by_cases ha : a = b
    · subst ha
      rw [settle_position] at owes ⊢
      have below := h.minimum a owes
      simp only [settled, Position.debt, settle_cfg] at below ⊢
      omega
    · rw [settle_position_of_ne ha] at owes ⊢
      exact h.minimum a owes
  closed := h.closed
  bound := h.bound
  book_sound := by
    rw [book_settle]
    exact h.book_sound

/-- The up-to-date debt is the debt after settling. -/
theorem Good.positionDebt {w : World} (h : Good w) (b : Address) :
    positionDebt b w = ((IsolatedEngine.settle b w).position b).debt := by
  rw [settle_position, IsolatedEngine.positionDebt]
  split_ifs with none
  · have empty : interest (w.position b) w = (0, 0) := by
      rw [interest, none, (h.no_interest none).2]
      exact carry_zero DENOMINATOR_pos (Nat.zero_mul _)
    simp only [settled, Position.debt, empty, none, Nat.zero_add, Nat.add_zero]
  · simp only [settled, Position.debt]
    omega

end Turret.IsolatedEngine
