import Turret.Variable.EngineBooks

/-! How the variable-rate engine takes a payment, writes off a shortfall and ends
a loan. A payment fails for want of tokens only; what follows it never fails,
and leaves the loan smaller or gone. -/

namespace Turret.VariableEngine

open Execution Rounding Function
open VariablePool (CapitalStep LossStep Ready owed keptOwed Checkpointed)

variable {w w' : World} {b sender : Address} {amount : ℕ}

/-- The world with the pool, one position and the registry rewritten. -/
def rebooked (b : Address) (p : Position) (capital : VariablePool.World)
    (active : SwapPop Address) (count : ℕ) (log : List (ℕ × CreditEvent)) (w : World) : World :=
  { w with
    capital
    engine :=
      { w.engine with
        positions := update w.engine.positions b p
        activeDebtPositions := count
        active
        log } }

theorem rebooked_position (p : Position) (capital : VariablePool.World) (active : SwapPop Address)
    (count : ℕ) (log : List (ℕ × CreditEvent)) :
    (rebooked b p capital active count log w).position b = p := by
  simp [rebooked, World.position]

/-! ### Payment -/

/-- The state after a payment for `b` that left the pool at `capital`. -/
def paid (b payer : Address) (amount : ℕ) (capital : VariablePool.World) (w : World) : World :=
  rebooked b ((w.position b).pay amount) capital w.engine.active w.engine.activeDebtPositions
    ((w.now, .repaid b payer ((w.position b).principalPart amount)
      ((w.position b).interestPart amount)) :: w.engine.log) w

/-- The payment in the engine's hands and approved for the pool. -/
theorem pull_approve_ok {u v : World}
    (pulled : pullUsdg sender amount w = .ok u) (approved : safeApprove amount u = .ok v) :
    v = { w with capital := VariablePool.funded sender amount w.capital } ∧
      amount ≤ w.usdg.allowance sender w.self ∧ amount ≤ w.usdg.balanceOf sender := by
  simp only [pullUsdg, bind_eq_ok, orRevert_eq_ok, revertIf_eq_ok, exists_const, pure_eq_ok,
    TokenLedger.transferFrom_eq_some] at pulled
  obtain ⟨usdg, ⟨⟨allowed, held⟩, rfl⟩, -, rfl⟩ := pulled
  simp only [safeApprove, bind_eq_ok, revertIf_eq_ok, exists_const, pure_eq_ok] at approved
  obtain ⟨-, rfl⟩ := approved
  exact ⟨rfl, allowed, held⟩

theorem pull_approve (h : Ready w.capital) (other : sender ≠ w.self)
    (allowed : amount ≤ w.usdg.allowance sender w.self) (held : amount ≤ w.usdg.balanceOf sender) :
    ∃ u, pullUsdg sender amount w = .ok u ∧
      safeApprove amount u = .ok { w with capital := VariablePool.funded sender amount w.capital } := by
  have received : ((w.usdg.approve sender w.self (w.usdg.allowance sender w.self - amount)).move
      sender w.self amount).balanceOf w.self = w.usdg.balanceOf w.self + amount := by
    rw [TokenLedger.move_dst other, TokenLedger.approve_balanceOf]
  simp only [pullUsdg, bind_eq_ok, orRevert_eq_ok, revertIf_eq_ok, exists_const, pure_eq_ok,
    TokenLedger.transferFrom_eq_some, safeApprove]
  refine ⟨_, ⟨_, ⟨⟨allowed, held⟩, rfl⟩, not_not.mpr received, rfl⟩, not_not.mpr (.inr ?_), rfl⟩
  change (TokenLedger.move ..).allowance w.self w.pool = 0
  rw [TokenLedger.move_allowance, TokenLedger.approve_other (.inl (Ne.symm other))]
  exact h.idle _

/-- What a payment leaves of the pool. -/
def paidStep (b : Address) (amount : ℕ) (w : World) (capital : VariablePool.World) : Prop :=
  CapitalStep w.capital capital
    (w.capital.pool.outstandingPrincipal - (w.position b).principalPart amount)
    (keptOwed (w.capital.pool.outstandingPrincipal - (w.position b).principalPart amount)
      (owed w.capital - (w.position b).interestPart amount * DENOMINATOR))

theorem repayPosition_ok (h : Ready w.capital) (done : repayPosition sender b amount w = .ok w') :
    ∃ capital, w' = paid b sender amount capital w ∧ paidStep b amount w capital ∧
      Checkpointed capital := by
  simp only [repayPosition, bind_eq_ok, onPool_eq_ok, checkedSub_eq_ok, pure_eq_ok] at done
  obtain ⟨u, pulled, v, approved, x, ⟨capital, repaid, rfl⟩, left, ⟨-, rfl⟩, rfl⟩ := done
  obtain ⟨rfl, allowed, -⟩ := pull_approve_ok pulled approved
  have step := VariablePool.repay_step h allowed ((w.position b).parts_add amount) repaid
  refine ⟨capital, ?_, step, VariablePool.repay_checkpointed repaid⟩
  simp only [paid, rebooked, World.emit, World.setPosition, World.now, step.now_eq]
  rfl

/-- A payment within the debt needs nothing but the payer's tokens. -/
theorem repayPosition_funded (h : Ready w.capital) (other : sender ≠ w.self) (positive : 0 < amount)
    (within : amount ≤ (w.position b).debt)
    (owes : (w.position b).principal ≤ w.capital.pool.outstandingPrincipal)
    (earned : (w.position b).interest * DENOMINATOR ≤ owed w.capital)
    (allowed : amount ≤ w.usdg.allowance sender w.self) (held : amount ≤ w.usdg.balanceOf sender) :
    ∃ w', repayPosition sender b amount w = .ok w' := by
  obtain ⟨u, pulled, approved⟩ := pull_approve h other allowed held
  have part := (w.position b).interestPart_le amount
  have principal := Position.principalPart_le within
  have receivable : (w.position b).interestPart amount ≤
      (VariablePool.accrue w.capital).pool.interestReceivable :=
    VariablePool.le_receivable ((Nat.mul_le_mul_right _ part).trans earned)
  obtain ⟨capital, repaid⟩ := VariablePool.repay_accepts h other allowed
    ((w.position b).parts_add amount) positive (principal.trans owes) receivable
  simp only [repayPosition, bind_eq_ok, onPool_eq_ok, checkedSub_eq_ok, pure_eq_ok]
  exact ⟨_, u, pulled, _, approved, _, ⟨capital, repaid, rfl⟩, _, ⟨principal, rfl⟩, rfl⟩

theorem repayPosition_error (h : Ready w.capital) (other : sender ≠ w.self) (positive : 0 < amount)
    (within : amount ≤ (w.position b).debt)
    (owes : (w.position b).principal ≤ w.capital.pool.outstandingPrincipal)
    (earned : (w.position b).interest * DENOMINATOR ≤ owed w.capital) {e : Error}
    (failed : repayPosition sender b amount w = .error e) : e = .erc20 := by
  by_cases allowed : amount ≤ w.usdg.allowance sender w.self ∧ amount ≤ w.usdg.balanceOf sender
  · obtain ⟨w', done⟩ := repayPosition_funded h other positive within owes earned allowed.1 allowed.2
    rw [failed] at done
    cases done
  · have refused : w.usdg.transferFrom w.self sender w.self amount = none := by
      rw [TokenLedger.transferFrom_eq_none]
      omega
    simp only [repayPosition, pullUsdg, refused, orRevert, error_bind] at failed
    exact (Except.error.inj failed).symm

/-! ### Shortfall -/

theorem recognizeShortfall_idle (h : ¬((w.position b).collateral = 0 ∧ 0 < (w.position b).debt)) :
    recognizeShortfall b w = .ok w := by
  rw [recognizeShortfall, if_neg h]
  rfl

/-- The position after its loss was recognized. -/
def written (p : Position) : Position := { p with principal := 0, interest := 0 }

theorem recognizeShortfall_ok (h : Ready w.capital)
    (short : (w.position b).collateral = 0 ∧ 0 < (w.position b).debt)
    (owes : (w.position b).principal ≤ w.capital.pool.outstandingPrincipal)
    (earned : (w.position b).interest * DENOMINATOR ≤ owed w.capital) :
    ∃ capital log, recognizeShortfall b w = .ok (rebooked b (written (w.position b)) capital
        w.engine.active w.engine.activeDebtPositions log w) ∧
      (∀ a, interestRepaid a log = interestRepaid a w.engine.log) ∧
      LossStep w.capital capital
        (w.capital.pool.outstandingPrincipal - (w.position b).principal)
        (keptOwed (w.capital.pool.outstandingPrincipal - (w.position b).principal)
          (owed w.capital - (w.position b).interest * DENOMINATOR)) ∧ Checkpointed capital := by
  obtain ⟨capital, lost⟩ := VariablePool.recognizeLoss_accepts h.toSound short.2 owes
    (VariablePool.le_receivable earned)
  refine ⟨capital, (capital.now, .positionLoss b (w.position b).principal
    (w.position b).interest) :: w.engine.log, ?_, fun a => Nat.zero_add _,
    VariablePool.recognizeLoss_step h lost,
    VariablePool.recognizeLoss_checkpointed lost⟩
  simp only [recognizeShortfall, if_pos short, bind_eq_ok, onPool_eq_ok, pure_eq_ok]
  exact ⟨_, ⟨capital, lost, rfl⟩, rfl⟩

/-! ### The end of a loan -/

/-- With no loan and no principal left, the pool is owed nothing at all. -/
theorem clearRoundingInterest_ok (h : Ready w.capital) (checkpointed : Checkpointed w.capital) :
    ∃ capital log G, clearRoundingInterest w = .ok
        { w with capital, engine := { w.engine with log } } ∧
      (∀ a, interestRepaid a log = interestRepaid a w.engine.log) ∧
      LossStep w.capital capital w.capital.pool.outstandingPrincipal G ∧
      (w.engine.activeDebtPositions ≠ 0 → G = owed w.capital) ∧
      (w.engine.activeDebtPositions = 0 → w.capital.pool.outstandingPrincipal = 0 →
        DENOMINATOR ∣ owed w.capital → G = 0) := by
  by_cases last : w.engine.activeDebtPositions = 0 ∧ w.capital.pool.interestReceivable ≠ 0
  · have earned : w.capital.pool.interestReceivable ≤
        (VariablePool.accrue w.capital).pool.interestReceivable := Nat.le_add_right ..
    obtain ⟨capital, lost⟩ := VariablePool.recognizeLoss_accepts (c := w.capital) h.toSound
      (by omega) (Nat.zero_le _) earned
    refine ⟨capital, (capital.now, .roundingInterestCleared w.capital.pool.interestReceivable) ::
      w.engine.log, _, ?_, fun a => Nat.zero_add _, VariablePool.recognizeLoss_step h lost,
      fun more => absurd last.1 more, fun _ none _ => ?_⟩
    · simp only [clearRoundingInterest, if_pos last, bind_eq_ok, onPool_eq_ok, pure_eq_ok]
      exact ⟨_, ⟨capital, lost, rfl⟩, rfl⟩
    · rw [keptOwed, Nat.sub_zero, if_pos none, checkpointed.owed, Nat.add_sub_cancel_left,
        Nat.div_eq_of_lt checkpointed.remainder_lt, Nat.zero_mul]
  · refine ⟨w.capital, w.engine.log, _, ?_, fun _ => rfl, ⟨.refl h, rfl⟩, fun _ => rfl, fun none _ whole => ?_⟩
    · rw [clearRoundingInterest, if_neg last]
      rfl
    · have dustless : w.capital.pool.interestReceivable = 0 := by
        by_contra more
        exact last ⟨none, more⟩
      rw [checkpointed.owed, dustless, Nat.zero_mul, Nat.zero_add] at whole ⊢
      exact Nat.eq_zero_of_dvd_of_lt whole checkpointed.remainder_lt

theorem finish_idle (h : (w.position b).debt ≠ 0) : finish b w = .ok w := by
  simp only [finish, if_neg h]
  rfl

/-- Without debt the loan leaves the registry, and this never fails. -/
theorem finish_ok (h : Ready w.capital) (checkpointed : Checkpointed w.capital)
    (none : (w.position b).debt = 0) (wellFormed : w.engine.active.WellFormed)
    (listed : w.engine.active.index b ≠ 0)
    (count : w.engine.activeDebtPositions = w.engine.active.members.length) :
    ∃ capital log G active, finish b w = .ok
        (rebooked b { w.position b with remainder := 0 } capital active active.members.length log
          w) ∧
      w.engine.active.remove b = some active ∧
      (∀ a, interestRepaid a log = interestRepaid a w.engine.log) ∧
      LossStep w.capital capital w.capital.pool.outstandingPrincipal G ∧
      (active.members ≠ [] → G = owed w.capital) ∧
      (active.members = [] → w.capital.pool.outstandingPrincipal = 0 →
        DENOMINATOR ∣ owed w.capital → G = 0) := by
  obtain ⟨active, removed⟩ := SwapPop.remove_isSome wellFormed listed
  have fewer := SwapPop.remove_length removed
  have positive : 1 ≤ w.engine.activeDebtPositions := by omega
  have counted : w.engine.activeDebtPositions - 1 = active.members.length := by omega
  obtain ⟨capital, log, G, done, told, step, kept, swept⟩ := clearRoundingInterest_ok (w :=
    { w with
      engine :=
        { w.engine with
          positions := update w.engine.positions b { w.position b with remainder := 0 }
          activeDebtPositions := active.members.length
          active } }) h checkpointed
  refine ⟨capital, log, G, active, ?_, removed, told, step, fun more => kept (by simpa using more),
    fun last => swept (by simpa using last)⟩
  simp only [finish, if_pos none, bind_eq_ok, checkedSub_eq_ok, orRevert_eq_ok]
  exact ⟨_, ⟨positive, rfl⟩, active, removed, counted ▸ done⟩

/-! ### After a payment -/

/-- What of the books a payment for `b` relies on. -/
structure Payable (b : Address) (w : World) : Prop where
  ready : Ready w.capital
  owes : (w.position b).principal ≠ 0
  principal_le : (w.position b).principal ≤ w.capital.pool.outstandingPrincipal
  interest_le : (w.position b).interest * DENOMINATOR ≤ owed w.capital
  wellFormed : w.engine.active.WellFormed
  listed : w.engine.active.index b ≠ 0
  count_eq : w.engine.activeDebtPositions = w.engine.active.members.length
  alone : ∀ active, w.engine.active.remove b = some active →
    (active.members = [] ↔ w.capital.pool.outstandingPrincipal = (w.position b).principal)

theorem Good.payable (h : Good w) (owes : (w.position b).principal ≠ 0) : Payable b w where
  ready := h.ready
  owes := owes
  principal_le := h.book_sound.principal_le b
  interest_le := h.interest_le b
  wellFormed := h.book_sound.wellFormed
  listed := (h.listed b).mpr owes
  count_eq := h.count_eq
  alone active removed := by
    have wellFormed := SwapPop.remove_wellFormed h.book_sound.wellFormed removed
    constructor
    · intro last
      have others := h.book_sound.alone removed last
      have total := h.book_sound.reconciled.principal_sum
      rw [Finset.sum_eq_single b (fun a _ apart => others a apart)
        (fun absent => absurd (Finset.mem_univ b) absent)] at total
      exact total.symm
    · intro all
      by_contra some
      obtain ⟨a, member⟩ := List.exists_mem_of_ne_nil _ some
      obtain ⟨apart, listed⟩ := (SwapPop.remove_index_ne_zero h.book_sound.wellFormed removed).mp
        (wellFormed.mem_iff.mp member)
      have lent := (h.listed a).mp listed
      have total := h.book_sound.reconciled.principal_sum
      have both : (w.position a).principal + (w.position b).principal ≤
          w.capital.pool.outstandingPrincipal := by
        rw [← show ∑ i, ((book w).loan i).principal = w.capital.pool.outstandingPrincipal from total]
        have pair := Finset.sum_le_sum_of_subset (f := fun i => ((book w).loan i).principal)
          (Finset.subset_univ ({a, b} : Finset Address))
        rwa [Finset.sum_pair apart] at pair
      omega

/-- How a payment of `amount` for `b` ends: the loan keeps its place, smaller, or is gone. -/
inductive Concluded (b : Address) (amount : ℕ) (w w' : World) : Prop
  | smaller (capital : VariablePool.World) (log : List (ℕ × CreditEvent))
      (told : ∀ a, interestRepaid a log = interestRepaid a w.engine.log +
        if b = a then (w.position b).interestPart amount else 0)
      (step : paidStep b amount w capital) (left : ((w.position b).pay amount).debt ≠ 0)
      (backed : (w.position b).collateral ≠ 0)
      (done : w' = rebooked b ((w.position b).pay amount) capital w.engine.active
        w.engine.activeDebtPositions log w)
  | ended (capital : VariablePool.World) (active : SwapPop Address) (log : List (ℕ × CreditEvent))
      (G : ℕ) (told : ∀ a, a ≠ b → interestRepaid a log = interestRepaid a w.engine.log)
      (removed : w.engine.active.remove b = some active)
      (step : CapitalStep w.capital capital
        (w.capital.pool.outstandingPrincipal - (w.position b).principal) G)
      (enough : active.members ≠ [] →
        owed w.capital ≤ G + (w.position b).interest * DENOMINATOR)
      (swept : active.members = [] → G = 0)
      (all : amount = (w.position b).debt ∨ (w.position b).collateral = 0)
      (done : w' = rebooked b ⟨(w.position b).collateral, 0, 0, 0, (w.position b).updatedAt⟩ capital
        active active.members.length log w)

theorem dvd_keptOwed {P : ℕ} (h : P = 0) (G : ℕ) : DENOMINATOR ∣ keptOwed P G := by
  rw [keptOwed, if_pos h]
  exact Dvd.intro_left _ rfl

/-- A loan without debt is ended, and the pool keeps what the others owe it. -/
theorem finish_ended (h : Payable b w) {p : Position} {capital : VariablePool.World}
    {log : List (ℕ × CreditEvent)} (none : p.debt = 0)
    (all : amount = (w.position b).debt ∨ (w.position b).collateral = 0)
    (same : p.collateral = (w.position b).collateral) (clock : p.updatedAt = (w.position b).updatedAt)
    (told : ∀ a, a ≠ b → interestRepaid a log = interestRepaid a w.engine.log)
    (step : CapitalStep w.capital capital
      (w.capital.pool.outstandingPrincipal - (w.position b).principal)
      (keptOwed (w.capital.pool.outstandingPrincipal - (w.position b).principal)
        (owed w.capital - (w.position b).interest * DENOMINATOR)))
    (checkpointed : Checkpointed capital) :
    ∃ w', finish b (rebooked b p capital w.engine.active w.engine.activeDebtPositions log w) = .ok w' ∧
      Concluded b amount w w' := by
  have position := rebooked_position (w := w) (b := b) p capital w.engine.active
    w.engine.activeDebtPositions log
  obtain ⟨capital', log', G, active, done, removed, told', last, kept, swept⟩ := finish_ok (b := b)
    (w := rebooked b p capital w.engine.active w.engine.activeDebtPositions log w) step.ready
    checkpointed (by rw [position]; exact none) h.wellFormed h.listed h.count_eq
  have lent := h.principal_le
  have booked := h.interest_le
  have alone := h.alone active removed
  have total := step.trans last.toCapitalStep
  refine ⟨_, done, .ended capital' active log' G (fun a apart => (told' a).trans (told a apart))
    removed ?_ (fun more => ?_) (fun none => ?_) all ?_⟩
  · have left : (rebooked b p capital w.engine.active w.engine.activeDebtPositions log
      w).capital.pool.outstandingPrincipal = _ := step.principal_eq
    rwa [left] at total
  · have some : w.capital.pool.outstandingPrincipal - (w.position b).principal ≠ 0 := by
      have := mt alone.mpr more
      omega
    have exact : G = owed capital := kept more
    rw [exact, step.owed_eq, VariablePool.keptOwed_of_pos some]
    omega
  · have empty : w.capital.pool.outstandingPrincipal - (w.position b).principal = 0 := by
      have := alone.mp none
      omega
    refine swept none (step.principal_eq.trans empty) ?_
    change DENOMINATOR ∣ owed capital
    rw [step.owed_eq]
    exact dvd_keptOwed empty _
  · rw [position]
    have debtless : p.principal = 0 ∧ p.interest = 0 := by
      simp only [Position.debt] at none
      omega
    simp only [rebooked, update_idem, ← same, ← clock, debtless]

/-- Once the payment has moved, nothing that follows can fail. -/
theorem conclude (h : Payable b w) (within : amount ≤ (w.position b).debt) {v : World}
    (repaid : repayPosition sender b amount w = .ok v) :
    ∃ w', (recognizeShortfall b v >>= finish b) = .ok w' ∧ Concluded b amount w w' := by
  obtain ⟨capital, rfl, step, checkpointed⟩ := repayPosition_ok h.ready repaid
  have paidDown := Position.pay_debt within
  have interest := (w.position b).interestPart_le amount
  have principal := Position.principalPart_le within
  have scaled := Nat.mul_le_mul_right DENOMINATOR interest
  have lent := h.principal_le
  have booked := h.interest_le
  have position : (paid b sender amount capital w).position b = (w.position b).pay amount :=
    rebooked_position ..
  have told : ∀ a, interestRepaid a (paid b sender amount capital w).engine.log =
      interestRepaid a w.engine.log + if b = a then (w.position b).interestPart amount else 0 :=
    fun a => Nat.add_comm ..
  have others : ∀ a, a ≠ b → interestRepaid a (paid b sender amount capital w).engine.log =
      interestRepaid a w.engine.log := by
    intro a apart
    rw [told, if_neg (Ne.symm apart), Nat.add_zero]
  by_cases none : ((w.position b).pay amount).debt = 0
  · -- paid in full
    have idle : recognizeShortfall b (paid b sender amount capital w) = .ok _ :=
      recognizeShortfall_idle (by rw [position, none]; omega)
    have parts : (w.position b).principalPart amount = (w.position b).principal ∧
        (w.position b).interestPart amount = (w.position b).interest := by
      simp only [Position.debt, Position.pay] at none
      omega
    rw [paidStep, parts.1, parts.2] at step
    have all : amount = (w.position b).debt := by omega
    obtain ⟨w', done, concluded⟩ := finish_ended h none (.inl all) rfl rfl others step
      checkpointed
    exact ⟨w', by rw [idle, ok_bind]; exact done, concluded⟩
  · by_cases empty : (w.position b).collateral = 0
    · -- nothing left to seize: the rest is written off
      have part := Position.pay_principal_pos h.owes none
      have some : w.capital.pool.outstandingPrincipal - (w.position b).principalPart amount ≠ 0 := by
        omega
      rw [paidStep, VariablePool.keptOwed_of_pos some] at step
      have stored : (paid b sender amount capital w).capital = capital := rfl
      obtain ⟨lossy, log, wrote, told', loss, checkpointed'⟩ := recognizeShortfall_ok (b := b)
        (w := paid b sender amount capital w) step.ready
        (by rw [position]; exact ⟨empty, Nat.pos_of_ne_zero none⟩)
        (by
          rw [position, stored, step.principal_eq]
          exact Nat.sub_le_sub_right lent _)
        (by
          rw [position, stored, step.owed_eq]
          simp only [Position.pay, Nat.sub_mul]
          omega)
      rw [position, stored, step.principal_eq, step.owed_eq] at loss
      have total := step.trans loss.toCapitalStep
      have principal_left : w.capital.pool.outstandingPrincipal -
          (w.position b).principalPart amount - ((w.position b).pay amount).principal =
          w.capital.pool.outstandingPrincipal - (w.position b).principal := by
        simp only [Position.pay]
        omega
      have interest_left : owed w.capital - (w.position b).interestPart amount * DENOMINATOR -
          ((w.position b).pay amount).interest * DENOMINATOR =
          owed w.capital - (w.position b).interest * DENOMINATOR := by
        simp only [Position.pay, Nat.sub_mul]
        omega
      rw [principal_left, interest_left] at total
      obtain ⟨w', done, concluded⟩ := finish_ended h
        (p := written ((w.position b).pay amount)) rfl (.inr empty) rfl rfl
        (fun a apart => (told' a).trans (others a apart)) total checkpointed'
      refine ⟨w', ?_, concluded⟩
      rw [wrote, ok_bind, position]
      simp only [paid, rebooked, update_idem] at done ⊢
      exact done
    · -- the loan stays
      have kept : recognizeShortfall b (paid b sender amount capital w) = .ok _ :=
        recognizeShortfall_idle (by rw [position]; exact fun short => empty short.1)
      have open_ : finish b (paid b sender amount capital w) = .ok _ :=
        finish_idle (by rw [position]; exact none)
      exact ⟨_, (congrArg (· >>= finish b) kept).trans open_, .smaller capital _ told step none empty rfl⟩

end Turret.VariableEngine
