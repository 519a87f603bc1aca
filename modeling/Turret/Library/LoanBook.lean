import Turret.Library.Ledger
import Turret.Library.SwapPop

/-! A book of collateralised loans next to the aggregate that funds them. Both
sides book principal and interest; interest is counted in `D`-ths of a unit and
grows by principal times the integral of one common rate. A loan is listed in
the registry while it owes principal. -/

namespace Turret

open Finset Function

/-- The aggregate `P` and `G` against the parts `p i` and `g i`. -/
structure Reconciled {ι : Type} [Fintype ι] (P G : ℕ) (p g : ι → ℕ) : Prop where
  principal_sum : ∑ i, p i = P
  interest_le : ∑ i, g i ≤ G

namespace Reconciled

variable {ι : Type} [Fintype ι] {P G : ℕ} {p g : ι → ℕ}

theorem principal_le (h : Reconciled P G p g) (i : ι) : p i ≤ P :=
  h.principal_sum ▸ le_sum p i

theorem part_le (h : Reconciled P G p g) (i : ι) : g i ≤ G :=
  (le_sum g i).trans h.interest_le

/-- Time: everything grows at the same rate. -/
theorem grow (h : Reconciled P G p g) (t : ℕ) :
    Reconciled P (G + P * t) p (fun i => g i + p i * t) where
  principal_sum := h.principal_sum
  interest_le := by
    rw [sum_add_distrib, ← sum_mul, h.principal_sum]
    exact Nat.add_le_add_right h.interest_le _

theorem update [DecidableEq ι] (h : Reconciled P G p g) (i : ι) {P' G' a b : ℕ}
    (hP : P' + p i = P + a) (hG : G + b ≤ G' + g i) :
    Reconciled P' G' (update p i a) (Function.update g i b) where
  principal_sum := by
    have moved := sum_update_add p i a
    have total := h.principal_sum
    omega
  interest_le := by
    have moved := sum_update_add g i b
    have below := h.interest_le
    have single := le_sum g i
    omega

end Reconciled

/-- A whole number of units owed scaled by `D` fits the units booked, whatever the remainder. -/
theorem le_of_scaled_le {D n m r : ℕ} (hr : r < D) (h : n * D ≤ m * D + r) : n ≤ m := by
  by_contra more
  have : (m + 1) * D ≤ n * D := Nat.mul_le_mul_right D (by omega)
  rw [Nat.add_mul, Nat.one_mul] at this
  omega

structure Loan where
  collateral : ℕ
  principal : ℕ
  /-- Interest owed up to now, in `D`-ths. -/
  accrued : ℕ

structure LoanBook (ι : Type) where
  loan : ι → Loan
  principal : ℕ
  accrued : ℕ
  /-- Collateral tokens held. -/
  custody : ℕ
  active : SwapPop ι

namespace LoanBook

variable {ι : Type}

structure Sound [Fintype ι] (b : LoanBook ι) : Prop where
  reconciled : Reconciled b.principal b.accrued (fun i => (b.loan i).principal)
    (fun i => (b.loan i).accrued)
  wellFormed : b.active.WellFormed
  listed : ∀ i, b.active.index i ≠ 0 ↔ (b.loan i).principal ≠ 0
  settled : ∀ i, (b.loan i).principal = 0 → (b.loan i).accrued = 0
  backed : ∀ i, (b.loan i).principal ≠ 0 → 0 < (b.loan i).collateral
  held : ∑ i, (b.loan i).collateral ≤ b.custody

def pledged [Fintype ι] (b : LoanBook ι) : ℕ := ∑ i, (b.loan i).collateral

/-! ### Movements -/

def grow (t : ℕ) (b : LoanBook ι) : LoanBook ι :=
  { b with
    loan := fun i => { b.loan i with accrued := (b.loan i).accrued + (b.loan i).principal * t }
    accrued := b.accrued + b.principal * t }

def gift (n : ℕ) (b : LoanBook ι) : LoanBook ι :=
  { b with custody := b.custody + n }

section Movements

variable [DecidableEq ι]

def pledge (i : ι) (n : ℕ) (b : LoanBook ι) : LoanBook ι :=
  { b with
    loan := update b.loan i { b.loan i with collateral := (b.loan i).collateral + n }
    custody := b.custody + n }

def release (i : ι) (n : ℕ) (b : LoanBook ι) : LoanBook ι :=
  { b with
    loan := update b.loan i { b.loan i with collateral := (b.loan i).collateral - n }
    custody := b.custody - n }

def lend (i : ι) (n : ℕ) (b : LoanBook ι) : LoanBook ι :=
  { b with
    loan := update b.loan i { b.loan i with principal := (b.loan i).principal + n }
    principal := b.principal + n
    active := if (b.loan i).principal = 0 then b.active.push i else b.active }

/-- Loan `i` pays `p` principal and `y / D` interest and gives up `n` collateral. -/
def pay (i : ι) (p y n : ℕ) (b : LoanBook ι) : LoanBook ι :=
  { b with
    loan := update b.loan i
      ⟨(b.loan i).collateral - n, (b.loan i).principal - p, (b.loan i).accrued - y⟩
    principal := b.principal - p
    accrued := b.accrued - y
    custody := b.custody - n }

/-- Loan `i` ends, paid or written off; the aggregate keeps `G` interest. -/
def close (i : ι) (n G : ℕ) (active : SwapPop ι) (b : LoanBook ι) : LoanBook ι :=
  { loan := update b.loan i ⟨(b.loan i).collateral - n, 0, 0⟩
    principal := b.principal - (b.loan i).principal
    accrued := G
    custody := b.custody - n
    active }

/-- A movement, with the collateral it adds to custody for nobody's loan. -/
inductive Move : ℕ → LoanBook ι → LoanBook ι → Prop
  | grow (b : LoanBook ι) (t : ℕ) : Move 0 b (b.grow t)
  | gift (b : LoanBook ι) (n : ℕ) : Move n b (b.gift n)
  | pledge (b : LoanBook ι) (i : ι) (n : ℕ) : Move 0 b (b.pledge i n)
  | release (b : LoanBook ι) (i : ι) (n : ℕ) (held : n ≤ (b.loan i).collateral)
      (kept : (b.loan i).principal ≠ 0 → n < (b.loan i).collateral) : Move 0 b (b.release i n)
  | lend (b : LoanBook ι) (i : ι) (n : ℕ) (positive : 0 < n)
      (backed : 0 < (b.loan i).collateral) : Move 0 b (b.lend i n)
  | pay (b : LoanBook ι) (i : ι) (p y n : ℕ) (part : p < (b.loan i).principal)
      (owed : y ≤ (b.loan i).accrued) (kept : n < (b.loan i).collateral) : Move 0 b (b.pay i p y n)
  | close (b : LoanBook ι) (i : ι) (n G : ℕ) (active : SwapPop ι)
      (open_ : (b.loan i).principal ≠ 0) (held : n ≤ (b.loan i).collateral)
      (removed : b.active.remove i = some active)
      (left : (∀ j, j ≠ i → (b.loan j).principal = 0) ∨ b.accrued ≤ G + (b.loan i).accrued) :
      Move 0 b (b.close i n G active)

inductive Moves : ℕ → LoanBook ι → LoanBook ι → Prop
  | refl (b : LoanBook ι) : Moves 0 b b
  | step {m n : ℕ} {a b c : LoanBook ι} : Moves m a b → Move n b c → Moves (m + n) a c

theorem Move.moves {n : ℕ} {b c : LoanBook ι} (h : Move n b c) : Moves n b c := by
  simpa using Moves.step (.refl b) h

theorem Moves.trans {m n : ℕ} {a b c : LoanBook ι} (h : Moves m a b) (k : Moves n b c) :
    Moves (m + n) a c := by
  induction k with
  | refl => exact h
  | step _ last ih => exact Nat.add_assoc .. ▸ (ih h).step last

theorem loan_update_apply {β : Type} (f : Loan → β) (loan : ι → Loan) (i : ι)
    (l : Loan) : (fun j => f (update loan i l j)) = update (fun j => f (loan j)) i (f l) := by
  funext j
  by_cases h : j = i
  · subst h; simp
  · simp [h]

/-- A property of every loan survives the change of one to a loan that has it. -/
theorem forall_update {P : ι → Loan → Prop} {loan : ι → Loan} {i : ι} {l : Loan}
    (others : ∀ j, j ≠ i → P j (loan j)) (this : P i l) : ∀ j, P j (update loan i l j) := by
  intro j
  by_cases h : j = i
  · subst h; simpa using this
  · simpa [h] using others j h

end Movements

/-- Custody moves with the collateral of the one loan that changes. -/
theorem pledged_update [Fintype ι] [DecidableEq ι] (b : LoanBook ι) (i : ι) (l : Loan) :
    (∑ j, (update b.loan i l j).collateral) + (b.loan i).collateral = b.pledged + l.collateral :=
  sum_map_update_add Loan.collateral b.loan i l

namespace Sound

variable [Fintype ι] {b b' : LoanBook ι}

theorem collateral_le (h : b.Sound) (i : ι) : (b.loan i).collateral ≤ b.custody :=
  (le_sum (fun j => (b.loan j).collateral) i).trans h.held

theorem principal_le (h : b.Sound) (i : ι) : (b.loan i).principal ≤ b.principal :=
  h.reconciled.principal_le i

theorem accrued_le (h : b.Sound) (i : ι) : (b.loan i).accrued ≤ b.accrued :=
  h.reconciled.part_le i

/-- An empty registry: nothing is lent, and nobody owes interest. -/
theorem idle (h : b.Sound) (empty : b.active.members = []) :
    b.principal = 0 ∧ ∀ i, (b.loan i).principal = 0 := by
  have none : ∀ i, (b.loan i).principal = 0 := by
    intro i
    by_contra owes
    have member := h.wellFormed.mem_iff.mpr ((h.listed i).mpr owes)
    simp [empty] at member
  refine ⟨?_, none⟩
  rw [← h.reconciled.principal_sum]
  exact sum_eq_zero fun i _ => none i

theorem grow (h : b.Sound) (t : ℕ) : (b.grow t).Sound where
  reconciled := h.reconciled.grow t
  wellFormed := h.wellFormed
  listed := h.listed
  settled i hi := by
    have none := h.settled i hi
    simp only [LoanBook.grow] at hi ⊢
    rw [none, hi, Nat.zero_mul]
  backed := h.backed
  held := h.held

theorem gift (h : b.Sound) (n : ℕ) : (b.gift n).Sound :=
  ⟨h.reconciled, h.wellFormed, h.listed, h.settled, h.backed, h.held.trans (Nat.le_add_right ..)⟩

variable [DecidableEq ι]

/-- A single member of the registry is the only loan. -/
theorem alone (h : b.Sound) {i : ι} {active : SwapPop ι} (removed : b.active.remove i = some active)
    (last : active.members = []) : ∀ j, j ≠ i → (b.loan j).principal = 0 := by
  intro j other
  by_contra owes
  have kept := (SwapPop.remove_index_ne_zero h.wellFormed removed (b := j)).mpr
    ⟨other, (h.listed j).mpr owes⟩
  have member := (SwapPop.remove_wellFormed h.wellFormed removed).mem_iff.mpr kept
  simp [last] at member

/-- A change of collateral alone. -/
theorem recollateralize (h : b.Sound) {i : ι} {c custody : ℕ}
    (kept : (b.loan i).principal ≠ 0 → 0 < c)
    (held : b.pledged + c ≤ custody + (b.loan i).collateral) :
    ({ b with loan := update b.loan i { b.loan i with collateral := c }, custody } :
      LoanBook ι).Sound where
  reconciled := by
    have same := h.reconciled
    simp only [loan_update_apply Loan.principal, loan_update_apply Loan.accrued]
    rwa [update_eq_self, update_eq_self]
  wellFormed := h.wellFormed
  listed := forall_update (P := fun j l => b.active.index j ≠ 0 ↔ l.principal ≠ 0)
    (fun j _ => h.listed j) (h.listed i)
  settled := forall_update (P := fun _ l => l.principal = 0 → l.accrued = 0)
    (fun j _ => h.settled j) (h.settled i)
  backed := forall_update (P := fun _ l => l.principal ≠ 0 → 0 < l.collateral)
    (fun j _ => h.backed j) kept
  held := by
    have moved := pledged_update b i { b.loan i with collateral := c }
    simp only at moved ⊢
    omega

theorem pledge (h : b.Sound) (i : ι) (n : ℕ) : (b.pledge i n).Sound := by
  refine h.recollateralize (fun owes => ?_) ?_
  · have := h.backed i owes
    omega
  · have := h.held
    simp only [pledged]
    omega

theorem release (h : b.Sound) {i : ι} {n : ℕ} (held : n ≤ (b.loan i).collateral)
    (kept : (b.loan i).principal ≠ 0 → n < (b.loan i).collateral) : (b.release i n).Sound := by
  refine h.recollateralize (fun owes => ?_) ?_
  · have := kept owes
    omega
  · have := h.held
    have := h.collateral_le i
    simp only [pledged]
    omega

theorem lend (h : b.Sound) {i : ι} {n : ℕ} (positive : 0 < n)
    (backed : 0 < (b.loan i).collateral) : (b.lend i n).Sound where
  reconciled := by
    simp only [LoanBook.lend, loan_update_apply Loan.principal, loan_update_apply Loan.accrued]
    exact h.reconciled.update i (by omega) (by omega)
  wellFormed := by
    simp only [LoanBook.lend]
    split_ifs with first
    · have fresh : b.active.index i = 0 := by
        by_contra listed
        exact (h.listed i).mp listed first
      exact SwapPop.push_wellFormed h.wellFormed fresh
    · exact h.wellFormed
  listed := by
    refine forall_update (P := fun j l => _ ↔ l.principal ≠ 0) (fun j other => ?_) ?_
    · rw [← h.listed j]
      simp only [LoanBook.lend]
      split_ifs
      · rw [SwapPop.push_index_ne_zero, or_iff_right other]
      · rfl
    · have owes : (b.loan i).principal + n ≠ 0 := by omega
      simp only [LoanBook.lend]
      split_ifs with first
      · simp only [SwapPop.push_index_ne_zero, true_or, ne_eq, owes, not_false_eq_true]
      · simp only [(h.listed i).mpr first, ne_eq, owes, not_false_eq_true]
  settled := by
    refine forall_update (P := fun _ l => l.principal = 0 → l.accrued = 0)
      (fun j _ => h.settled j) (fun none => ?_)
    simp only at none
    omega
  backed := forall_update (P := fun _ l => l.principal ≠ 0 → 0 < l.collateral)
    (fun j _ => h.backed j) (fun _ => backed)
  held := by
    have moved := pledged_update b i { b.loan i with principal := (b.loan i).principal + n }
    have held := h.held
    simp only [pledged, LoanBook.lend] at moved ⊢
    omega

theorem pay (h : b.Sound) {i : ι} {p y n : ℕ} (part : p < (b.loan i).principal)
    (owed : y ≤ (b.loan i).accrued) (kept : n < (b.loan i).collateral) : (b.pay i p y n).Sound where
  reconciled := by
    have principal := h.principal_le i
    have accrued := h.accrued_le i
    simp only [LoanBook.pay, loan_update_apply Loan.principal, loan_update_apply Loan.accrued]
    exact h.reconciled.update i (by omega) (by omega)
  wellFormed := h.wellFormed
  listed := by
    refine forall_update (P := fun j l => _ ↔ l.principal ≠ 0) (fun j _ => h.listed j) ?_
    have before : (b.loan i).principal ≠ 0 := by omega
    have after : (b.loan i).principal - p ≠ 0 := by omega
    simp only [LoanBook.pay, (h.listed i).mpr before, after, ne_eq, not_false_eq_true]
  settled := by
    refine forall_update (P := fun _ l => l.principal = 0 → l.accrued = 0)
      (fun j _ => h.settled j) (fun none => ?_)
    simp only at none
    omega
  backed := by
    refine forall_update (P := fun _ l => l.principal ≠ 0 → 0 < l.collateral)
      (fun j _ => h.backed j) (fun _ => ?_)
    simp only
    omega
  held := by
    have moved := pledged_update b i
      ⟨(b.loan i).collateral - n, (b.loan i).principal - p, (b.loan i).accrued - y⟩
    have held := h.held
    have custody := h.collateral_le i
    simp only [pledged, LoanBook.pay] at moved ⊢
    omega

theorem close (h : b.Sound) {i : ι} {n G : ℕ} {active : SwapPop ι}
    (held : n ≤ (b.loan i).collateral) (removed : b.active.remove i = some active)
    (left : (∀ j, j ≠ i → (b.loan j).principal = 0) ∨ b.accrued ≤ G + (b.loan i).accrued) :
    (b.close i n G active).Sound where
  reconciled := by
    have principal := h.principal_le i
    simp only [LoanBook.close, loan_update_apply Loan.principal, loan_update_apply Loan.accrued]
    rcases left with alone | enough
    · have total : Reconciled (b.principal - (b.loan i).principal) b.accrued
          (update (fun j => (b.loan j).principal) i 0)
          (update (fun j => (b.loan j).accrued) i 0) :=
        h.reconciled.update i (by omega) (by omega)
      refine ⟨total.principal_sum, ?_⟩
      have none : ∑ j, update (fun j => (b.loan j).accrued) i 0 j = 0 := by
        refine sum_eq_zero fun j _ => ?_
        by_cases hj : j = i
        · subst hj; simp
        · rw [update_of_ne hj, h.settled j (alone j hj)]
      omega
    · exact h.reconciled.update i (by omega) (by omega)
  wellFormed := SwapPop.remove_wellFormed h.wellFormed removed
  listed := by
    refine forall_update (P := fun j l => active.index j ≠ 0 ↔ l.principal ≠ 0)
      (fun j other => ?_) ?_
    · rw [SwapPop.remove_index_ne_zero h.wellFormed removed, ← h.listed j, and_iff_right other]
    · rw [SwapPop.remove_index_ne_zero h.wellFormed removed]
      simp
  settled := forall_update (P := fun _ l => l.principal = 0 → l.accrued = 0)
    (fun j _ => h.settled j) (fun _ => rfl)
  backed := forall_update (P := fun _ l => l.principal ≠ 0 → 0 < l.collateral)
    (fun j _ => h.backed j) (fun owes => absurd rfl owes)
  held := by
    have moved := pledged_update b i ⟨(b.loan i).collateral - n, 0, 0⟩
    have held := h.held
    have custody := h.collateral_le i
    simp only [pledged, LoanBook.close] at moved ⊢
    omega

/-- Every movement keeps a sound book sound. -/
theorem move (h : b.Sound) {n : ℕ} (m : Move n b b') : b'.Sound := by
  cases m with
  | grow _ t => exact h.grow t
  | gift _ n => exact h.gift n
  | pledge _ i n => exact h.pledge i n
  | release _ i n held kept => exact h.release held kept
  | lend _ i n positive backed => exact h.lend positive backed
  | pay _ i p y n part owed kept => exact h.pay part owed kept
  | close _ i n G active _ held removed left => exact h.close held removed left

theorem moves (h : b.Sound) {n : ℕ} (m : Moves n b b') : b'.Sound := by
  induction m with
  | refl => exact h
  | step _ last ih => exact (ih h).move last

/-- What is held beyond the pledged collateral changes by the gifts alone. -/
theorem custody_move (h : b.Sound) {n : ℕ} (m : Move n b b') :
    b'.custody + b.pledged = b.custody + b'.pledged + n := by
  cases m with
  | grow _ t => rfl
  | gift _ n =>
    simp only [LoanBook.gift, pledged]
    omega
  | pledge _ i n =>
    have moved := pledged_update b i { b.loan i with collateral := (b.loan i).collateral + n }
    simp only [pledged, LoanBook.pledge] at moved ⊢
    omega
  | release _ i n held kept =>
    have moved := pledged_update b i { b.loan i with collateral := (b.loan i).collateral - n }
    have custody := h.collateral_le i
    simp only [pledged, LoanBook.release] at moved ⊢
    omega
  | lend _ i n positive backed =>
    have moved := pledged_update b i { b.loan i with principal := (b.loan i).principal + n }
    simp only [pledged, LoanBook.lend] at moved ⊢
    omega
  | pay _ i p y n part owed kept =>
    have moved := pledged_update b i
      ⟨(b.loan i).collateral - n, (b.loan i).principal - p, (b.loan i).accrued - y⟩
    have custody := h.collateral_le i
    simp only [pledged, LoanBook.pay] at moved ⊢
    omega
  | close _ i n G active _ held removed left =>
    have moved := pledged_update b i ⟨(b.loan i).collateral - n, 0, 0⟩
    have custody := h.collateral_le i
    simp only [pledged, LoanBook.close] at moved ⊢
    omega

theorem custody_moves (h : b.Sound) {n : ℕ} (m : Moves n b b') :
    b'.custody + b.pledged = b.custody + b'.pledged + n := by
  induction m with
  | refl => rfl
  | step before last ih =>
    have kept := ih h
    have moved := (h.moves before).custody_move last
    omega

end Sound

end LoanBook

end Turret
