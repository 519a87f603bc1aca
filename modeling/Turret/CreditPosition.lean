import Turret.Library.Execution
import Turret.Library.LoanBook
import Turret.Library.Rounding

/-! What the fixed-rate and the variable-rate credit engine share: a position,
the collateral arithmetic, the events, and the loan a position stands for. -/

namespace Turret

open Rounding Finset

structure Position where
  collateral : ℕ
  principal : ℕ
  interest : ℕ
  remainder : ℕ
  updatedAt : ℕ
  deriving DecidableEq

namespace Position

def empty : Position := ⟨0, 0, 0, 0, 0⟩

/-- `p.principal + p.interest`. -/
def debt (p : Position) : ℕ := p.principal + p.interest

end Position

inductive CreditEvent
  | collateralDeposited (borrower payer : Address) (amount : ℕ)
  | collateralWithdrawn (borrower recipient : Address) (amount : ℕ)
  | borrowed (borrower : Address) (amount : ℕ)
  | repaid (borrower payer : Address) (principal interest : ℕ)
  | liquidated (borrower liquidator : Address) (repaid seized : ℕ)
  | positionLoss (borrower : Address) (principal interest : ℕ)
  | roundingInterestCleared (amount : ℕ)
  deriving DecidableEq

/-- `10000 * 365 days`. -/
def DENOMINATOR : ℕ := 10000 * (365 * 86400)

theorem DENOMINATOR_pos : 0 < DENOMINATOR := by decide

/-- `_safe`: USDG has six decimals, the value of the collateral eighteen. -/
def safe (amount debt value ltv : ℕ) : Bool :=
  decide (debt ≤ mulDiv (mulDiv amount value (10 ^ 18)) ltv 10000 / 10 ^ 12)

/-- `_coveredDebt`. -/
def coveredDebt (bonusBps collateral value : ℕ) : ℕ :=
  mulDiv (mulDiv collateral value (10 ^ 18)) 10000 (10000 + bonusBps) / 10 ^ 12

/-- `_collateralForPayment` of the fixed-rate engine, `_collateralForRepayment` of the variable one. -/
def collateralForPayment (bonusBps paid value : ℕ) : ℕ :=
  mulDivUp (mulDivUp (paid * 10 ^ 12) (10000 + bonusBps) 10000) (10 ^ 18) value

theorem safe_zero_debt (amount value ltv : ℕ) : safe amount 0 value ltv = true := by
  simp [safe]

/-- Nothing is safe without collateral, but no debt. -/
theorem safe_zero_amount {debt value ltv : ℕ} (h : safe 0 debt value ltv = true) : debt = 0 := by
  simpa [safe] using h

/-! ### Loans -/

namespace Position

/-- The loan a position stands for, when the rate integral has grown by `t` since its last
settlement. -/
def loan (p : Position) (t : ℕ) : Loan :=
  ⟨p.collateral, p.principal, p.interest * DENOMINATOR + p.remainder + p.principal * t⟩

theorem loan_zero (p : Position) :
    p.loan 0 = ⟨p.collateral, p.principal, p.interest * DENOMINATOR + p.remainder⟩ := by
  simp only [loan, Nat.mul_zero, Nat.add_zero]

/-- The carried interest of a settlement is exact. -/
theorem loan_settled (p : Position) (t u : ℕ) :
    ({ p with
      interest := p.interest + (carry DENOMINATOR p.principal t p.remainder).1
      remainder := (carry DENOMINATOR p.principal t p.remainder).2
      updatedAt := u } : Position).loan 0 = p.loan t := by
  have exact := carry_exact DENOMINATOR p.principal t p.remainder
  simp only [loan, Loan.mk.injEq, true_and, Nat.mul_zero, Nat.add_mul]
  omega

/-- Whoever owes nothing in `D`-ths owes no interest and carries no remainder. -/
theorem settled_of_loan {p : Position} {t : ℕ} (h : (p.loan t).accrued = 0) :
    p.interest = 0 ∧ p.remainder = 0 := by
  have positive := DENOMINATOR_pos
  simp only [loan, Nat.add_eq_zero_iff, Nat.mul_eq_zero] at h
  omega

/-- `_repay` takes interest first: principal is paid only after the whole interest. -/
def interestPart (p : Position) (amount : ℕ) : ℕ := min amount p.interest

def principalPart (p : Position) (amount : ℕ) : ℕ := amount - p.interestPart amount

theorem parts_add (p : Position) (amount : ℕ) :
    p.principalPart amount + p.interestPart amount = amount := by
  simp only [principalPart, interestPart]
  omega

/-- The position after a payment. -/
def pay (p : Position) (amount : ℕ) : Position :=
  { p with
    interest := p.interest - p.interestPart amount
    principal := p.principal - p.principalPart amount }

/-- The position after `n` of its collateral was seized. -/
def seize (p : Position) (n : ℕ) : Position := { p with collateral := p.collateral - n }

theorem interestPart_le (p : Position) (amount : ℕ) : p.interestPart amount ≤ p.interest :=
  min_le_right ..

theorem pay_debt {p : Position} {amount : ℕ} (h : amount ≤ p.debt) :
    (p.pay amount).debt + amount = p.debt := by
  simp only [pay, principalPart, interestPart, debt] at *
  omega

/-- Interest first: a position with a principal keeps some until it owes nothing. -/
theorem pay_principal_pos {p : Position} {amount : ℕ} (owes : p.principal ≠ 0)
    (left : (p.pay amount).debt ≠ 0) : p.principalPart amount < p.principal := by
  simp only [pay, principalPart, interestPart, debt] at *
  omega

theorem principalPart_le {p : Position} {amount : ℕ} (h : amount ≤ p.debt) :
    p.principalPart amount ≤ p.principal := by
  simp only [principalPart, interestPart, debt] at *
  omega

end Position

/-! ### The registry -/

/-- The registry lists each position that owes, once, at the place its index names; a loan has
collateral and at least the minimum debt, and the tokens held cover all collateral. -/
structure RegistryExact (r : SwapPop Address) (count minimum custody : ℕ)
    (position : Address → Position) : Prop where
  nodup : r.members.Nodup
  mem_iff : ∀ a, a ∈ r.members ↔ (position a).debt ≠ 0
  index_eq : ∀ a i, r.members[i]? = some a ↔ r.index a = i + 1
  count_eq : count = r.members.length
  lent : ∀ a, (position a).interest ≠ 0 → (position a).principal ≠ 0
  backed : ∀ a, (position a).debt ≠ 0 →
    0 < (position a).collateral ∧ minimum ≤ (position a).debt
  held : ∑ a, (position a).collateral ≤ custody

theorem RegistryExact.of_sound {b : LoanBook Address} (h : b.Sound) {count minimum : ℕ}
    {position : Address → Position} {units : Address → ℕ}
    (loans : ∀ a, b.loan a = (position a).loan (units a))
    (counted : count = b.active.members.length)
    (least : ∀ a, (position a).principal ≠ 0 → minimum ≤ (position a).debt) :
    RegistryExact b.active count minimum b.custody position := by
  have principal : ∀ a, (b.loan a).principal = (position a).principal := fun a => by
    rw [loans]
    rfl
  have idle : ∀ a, (position a).principal = 0 → (position a).interest = 0 := fun a none =>
    (Position.settled_of_loan (loans a ▸ h.settled a ((principal a).trans none))).1
  have owes : ∀ a, (position a).debt ≠ 0 → (position a).principal ≠ 0 := by
    intro a debt none
    rw [Position.debt, none, idle a none] at debt
    exact debt rfl
  have pledged : ∀ a, (b.loan a).collateral = (position a).collateral := fun a => by
    rw [loans]
    rfl
  constructor
  · exact h.wellFormed.nodup
  · intro a
    rw [h.wellFormed.mem_iff, h.listed a, principal]
    refine ⟨fun lent none => lent ?_, owes a⟩
    simp only [Position.debt] at none
    omega
  · exact h.wellFormed
  · exact counted
  · exact fun a earned none => earned (idle a none)
  · intro a debt
    exact ⟨pledged a ▸ h.backed a (principal a ▸ owes a debt), least a (owes a debt)⟩
  · simpa only [pledged] using h.held

end Turret
