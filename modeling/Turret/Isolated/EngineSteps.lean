import Turret.Isolated.Repayment

/-! Every call of the fixed-rate engine, of its pool and of the two tokens is a
few movements of the loan book, and keeps what holds of the engine besides. -/

namespace Turret.IsolatedEngine

open Execution Rounding Function
open IsolatedPool (CapitalStep LossStep Ready owed)

variable {w w' : World}

/-! ### One position rewritten -/

/-- The world with the pool, the collateral, one position and the registry rewritten. -/
def rebooked (b : Address) (p : Position) (capital : IsolatedPool.World)
    (collateral : TokenLedger Address) (active : SwapPop Address) (count : ℕ)
    (log : List (ℕ × CreditEvent)) (w : World) : World :=
  { w with
    capital
    collateral
    engine :=
      { w.engine with
        positions := update w.engine.positions b p
        activeDebtPositions := count
        active
        log } }

section Rebooked

variable {b : Address} {p : Position} {capital : IsolatedPool.World}
  {collateral : TokenLedger Address} {active : SwapPop Address} {count : ℕ} {log : List (ℕ × CreditEvent)}
  {P G : ℕ}

theorem book_rebooked (step : CapitalStep w.capital capital P G) :
    book (rebooked b p capital collateral active count log w) =
      ⟨update (book w).loan b (loanOf p w), P, G, collateral.balanceOf w.self, active⟩ := by
  have self : (rebooked b p capital collateral active count log w).self = w.self := by
    simp only [World.self, rebooked, step.cfg_eq]
  simp only [book, self, LoanBook.mk.injEq]
  refine ⟨funext fun a => ?_, step.principal_eq, step.owed_eq, rfl, rfl⟩
  have clock : (rebooked b p capital collateral active count log w).now = w.now := step.now_eq
  rw [loanOf_congr step.cfg_eq clock]
  by_cases h : a = b
  · subst h; simp [World.position, rebooked]
  · simp [World.position, rebooked, h]

theorem Good.rebooked_local (h : Good w) (step : CapitalStep w.capital capital P G)
    (bound : w.engine.bound = true) (updated : p.updatedAt ≤ w.now)
    (minimum : p.principal ≠ 0 → w.cfg.minimumDebt ≤ p.debt)
    (counted : count = active.members.length) (limit : count ≤ MAX_ACTIVE_POSITIONS)
    (closed : ∀ a, collateral.allowance w.self a = 0) :
    Local (rebooked b p capital collateral active count log w) where
  ready := step.ready
  updated_le a := by
    refine le_of_le_of_eq ?_ step.now_eq.symm
    have before := h.updated_le a
    simp only [World.now] at updated before
    by_cases ha : a = b
    · subst ha; simpa [World.position, rebooked] using updated
    · simpa [World.position, rebooked, ha] using before
  count_eq := counted
  count_le := counted ▸ limit
  minimum a := by
    by_cases ha : a = b
    · subst ha; simpa [World.position, rebooked] using minimum
    · simpa [World.position, rebooked, ha] using h.minimum a
  closed a := by
    simp only [World.self, rebooked, step.cfg_eq]
    exact closed a
  bound _ := bound

/-- A movement of the book, told by what it rewrites. -/
theorem Good.rebooked_step (h : Good w) (step : CapitalStep w.capital capital P G)
    (bound : w.engine.bound = true) (updated : p.updatedAt ≤ w.now)
    (minimum : p.principal ≠ 0 → w.cfg.minimumDebt ≤ p.debt)
    (counted : count = active.members.length) (limit : count ≤ MAX_ACTIVE_POSITIONS)
    (closed : ∀ a, collateral.allowance w.self a = 0)
    (move : LoanBook.Move 0 (book w)
      ⟨update (book w).loan b (loanOf p w), P, G, collateral.balanceOf w.self, active⟩) :
    Step 0 w (rebooked b p capital collateral active count log w) where
  loc := h.rebooked_local step bound updated minimum counted limit closed
  moves := by
    rw [book_rebooked step]
    exact move.moves
  cfg_eq := rfl
  capital_cfg_eq := step.cfg_eq

end Rebooked

theorem Good.refl (h : Good w) : Step 0 w w := ⟨h.toLocal, .refl _, rfl, rfl⟩

/-- A call settles first, so it may be judged from the settled state. -/
theorem Step.of_settle {n : ℕ} {b : Address} (h : Step n (settle b w) w') : Step n w w' :=
  ⟨h.loc, book_settle b w ▸ h.moves, h.cfg_eq, h.capital_cfg_eq⟩

theorem settle_current (b : Address) (w : World) :
    ((settle b w).position b).updatedAt = (settle b w).now := by
  rw [settle_position]
  rfl

theorem Good.count_limit (h : Good w) : w.engine.activeDebtPositions ≤ MAX_ACTIVE_POSITIONS :=
  h.count_eq ▸ h.count_le

/-! ### Collateral -/

theorem depositCollateral_step (h : Good w) {sender b : Address} {amount : ℕ}
    (done : depositCollateral sender b amount w = .ok w') : Step 0 w w' := by
  simp only [depositCollateral, requirePool, pullCollateral, bind_eq_ok, revertIf_eq_ok,
    exists_const, orRevert_eq_ok, pure_eq_ok, ne_eq, not_not, Bool.not_eq_false] at done
  obtain ⟨bound, -, -, -, v, ⟨collateral, pulled, exact, rfl⟩, rfl⟩ := done
  have move : LoanBook.Move 0 (book w) ⟨update (book w).loan b (loanOf { w.position b with
      collateral := (w.position b).collateral + amount } w), (book w).principal, (book w).accrued,
      collateral.balanceOf w.self, w.engine.active⟩ := by
    rw [exact]
    exact .pledge (book w) b amount
  exact h.rebooked_step (.refl h.ready) bound (h.updated_le b) (h.minimum b) h.count_eq
    h.count_limit (TokenLedger.transferFrom_keeps_closed h.closed pulled) move

theorem sendCollateral_ok {dst : Address} {amount : ℕ} (done : sendCollateral dst amount w = .ok w') :
    ∃ collateral, w' = { w with collateral } ∧
      collateral.balanceOf w.self + amount = w.collateral.balanceOf w.self ∧
      collateral.allowance = w.collateral.allowance := by
  simp only [sendCollateral, bind_eq_ok, revertIf_eq_ok, exists_const, orRevert_eq_ok, pure_eq_ok,
    TokenLedger.transfer_eq_some, not_not] at done
  obtain ⟨-, collateral, ⟨-, rfl⟩, exact, rfl⟩ := done
  exact ⟨_, rfl, exact.1, rfl⟩

/-- With debt, some collateral stays. -/
theorem checkExit_ok {p : Position} {amount : ℕ} (within : amount ≤ p.collateral)
    (done : checkExit p amount w = .ok ()) : p.debt ≠ 0 → amount < p.collateral := by
  intro owes
  simp only [checkExit, if_neg owes, bind_eq_ok, revertIf_eq_ok, exists_const,
    Bool.not_eq_false] at done
  obtain ⟨-, value, -, covered⟩ := done
  by_contra all
  have none : p.collateral - amount = 0 := by omega
  rw [none] at covered
  exact owes (safe_zero_amount covered)

/-- Collateral leaves a current position, and not all of it while the position owes. -/
theorem exit_step (h : Good w) {sender recipient : Address} {amount : ℕ} {event : CreditEvent}
    (bound : w.engine.bound = true) (within : amount ≤ (w.position sender).collateral)
    (kept : (w.position sender).debt ≠ 0 → amount < (w.position sender).collateral)
    (sent : sendCollateral recipient amount (w.setPosition sender { w.position sender with
      collateral := (w.position sender).collateral - amount }) = .ok w') :
    Step 0 w (w'.emit event) := by
  obtain ⟨collateral, rfl, exact, spent⟩ := sendCollateral_ok sent
  have move : LoanBook.Move 0 (book w) ⟨update (book w).loan sender (loanOf { w.position sender with
      collateral := (w.position sender).collateral - amount } w), (book w).principal,
      (book w).accrued, collateral.balanceOf w.self, w.engine.active⟩ := by
    have left : collateral.balanceOf w.self = w.collateral.balanceOf w.self - amount := by
      change collateral.balanceOf w.self + amount = w.collateral.balanceOf w.self at exact
      omega
    rw [left]
    exact .release (book w) sender amount within (fun owes => kept (mt h.debt_eq_zero.mp owes))
  exact h.rebooked_step (.refl h.ready) bound (h.updated_le sender) (h.minimum sender)
    h.count_eq h.count_limit (fun a => (congrFun (congrFun spent _) a).trans (h.closed a)) move

theorem withdrawCollateral_step (h : Good w) {sender recipient : Address} {amount : ℕ}
    (done : withdrawCollateral sender amount recipient w = .ok w') : Step 0 w w' := by
  simp only [withdrawCollateral, requirePool, bind_eq_ok, revertIf_eq_ok, exists_const, pure_eq_ok,
    Bool.not_eq_false, not_lt] at done
  obtain ⟨bound, -, within, ⟨⟩, checked, v, sent, rfl⟩ := done
  exact .of_settle (exit_step (h.settle sender) bound within (checkExit_ok within checked) sent)

/-! ### Borrowing -/

theorem enter_ok {b : Address} (done : enter b w = .ok w') :
    ∃ active count, w' = { w with engine := { w.engine with active, activeDebtPositions := count } } ∧
      active = (if (w.position b).principal = 0 then w.engine.active.push b else w.engine.active) ∧
      (w.engine.activeDebtPositions = w.engine.active.members.length →
        count = active.members.length) ∧
      (w.engine.active.members.length ≤ MAX_ACTIVE_POSITIONS →
        active.members.length ≤ MAX_ACTIVE_POSITIONS) := by
  unfold enter at done
  split_ifs at done with first
  · simp only [bind_eq_ok, revertIf_eq_ok, exists_const, pure_eq_ok] at done
    obtain ⟨room, rfl⟩ := done
    have grown : (w.engine.active.push b).members.length = w.engine.active.members.length + 1 := by
      simp [SwapPop.push]
    exact ⟨_, _, rfl, (if_pos first).symm, by omega, by omega⟩
  · rw [pure_eq_ok] at done
    exact ⟨_, _, done.symm, (if_neg first).symm, id, id⟩

/-- A current position borrows against collateral that covers the whole debt at some price. -/
theorem lend_step (h : Good w) {sender : Address} {amount value : ℕ} {safety : Option Bool}
    {event : CreditEvent} {capital : IsolatedPool.World}
    (current : (w.position sender).updatedAt = w.now) (bound : w.engine.bound = true)
    (positive : amount ≠ 0) (enough : w.cfg.minimumDebt ≤ (w.position sender).debt + amount)
    (covered : safe (w.position sender).collateral ((w.position sender).debt + amount) value
      w.cfg.maxLtvBps = true)
    (entered : enter sender w = .ok w')
    (drawn : IsolatedPool.draw safety w'.self sender amount w'.capital = .ok capital) :
    Step 0 w ({ w'.setPosition sender { w'.position sender with
      principal := (w'.position sender).principal + amount } with capital }.emit event) := by
  obtain ⟨active, count, rfl, listed, counted, limited⟩ := enter_ok entered
  have step := IsolatedPool.draw_step h.ready drawn
  have loan : loanOf { w.position sender with principal := (w.position sender).principal + amount } w =
      { (book w).loan sender with principal := (w.position sender).principal + amount } := by
    rw [loanOf_now (by exact current), book_loan_now current]
  have backed : 0 < (w.position sender).collateral := by
    by_contra none
    rw [Nat.eq_zero_of_not_pos none] at covered
    have := safe_zero_amount covered
    omega
  have move : LoanBook.Move 0 (book w) ⟨update (book w).loan sender (loanOf { w.position sender with
      principal := (w.position sender).principal + amount } w), (book w).principal + amount,
      (book w).accrued, w.collateral.balanceOf w.self, active⟩ := by
    rw [loan, listed]
    exact .lend (book w) sender amount (Nat.pos_of_ne_zero positive) backed
  have minimum : w.cfg.minimumDebt ≤ ({ w.position sender with
      principal := (w.position sender).principal + amount } : Position).debt := by
    simp only [Position.debt] at enough ⊢
    omega
  exact h.rebooked_step step bound current.le (fun _ => minimum) (counted h.count_eq)
    (counted h.count_eq ▸ limited h.count_le) h.closed move

theorem borrow_step (h : Good w) {sender : Address} {amount : ℕ}
    (done : borrow sender amount w = .ok w') : Step 0 w w' := by
  simp only [borrow, requirePool, onPool, bind_eq_ok, mapError_eq_ok, revertIf_eq_ok, exists_const,
    pure_eq_ok, Bool.not_eq_false, Bool.not_eq_true, not_lt] at done
  obtain ⟨bound, -, positive, enough, value, -, covered, v, entered, x, ⟨capital, drawn, rfl⟩, rfl⟩ :=
    done
  exact .of_settle (lend_step (h.settle sender) (settle_current sender w) bound positive enough
    covered entered drawn)

/-! ### Repaying

A settled loan that pays `amount` and gives up `n` of its collateral keeps its
place while it owes something, and otherwise leaves the book. -/

section Payment

variable {b : Address} {amount n : ℕ} {collateral : TokenLedger Address}
  {capital : IsolatedPool.World} {log : List (ℕ × CreditEvent)}

/-- The position after the payment and the seizure. -/
def reduced (p : Position) (amount n : ℕ) : Position :=
  { p.pay amount with collateral := p.collateral - n }

theorem reduced_step (h : Good w) (current : (w.position b).updatedAt = w.now)
    (bound : w.engine.bound = true) (within : amount ≤ (w.position b).debt)
    (left : ((w.position b).pay amount).debt ≠ 0)
    (minimum : w.cfg.minimumDebt ≤ ((w.position b).pay amount).debt)
    (kept : n < (w.position b).collateral)
    (step : CapitalStep w.capital capital
      (w.capital.pool.outstandingPrincipal - (w.position b).principalPart amount)
      (owed w.capital - (w.position b).interestPart amount * DENOMINATOR))
    (sent : collateral.balanceOf w.self + n = w.collateral.balanceOf w.self)
    (closed : ∀ a, collateral.allowance w.self a = 0) :
    Step 0 w (rebooked b (reduced (w.position b) amount n) capital collateral w.engine.active
      w.engine.activeDebtPositions log w) := by
  have owes : (w.position b).principal ≠ 0 := by
    rw [ne_eq, ← h.debt_eq_zero]
    have paid := Position.pay_debt within
    omega
  have part := Nat.mul_le_mul_right DENOMINATOR ((w.position b).interestPart_le amount)
  have loan : loanOf (reduced (w.position b) amount n) w =
      ⟨((book w).loan b).collateral - n,
        ((book w).loan b).principal - (w.position b).principalPart amount,
        ((book w).loan b).accrued - (w.position b).interestPart amount * DENOMINATOR⟩ := by
    rw [loanOf_now (by exact current), book_loan_now current]
    simp only [reduced, Position.pay, Loan.mk.injEq, true_and, Nat.sub_mul]
    omega
  have custody : collateral.balanceOf w.self = w.collateral.balanceOf w.self - n := by omega
  have move : LoanBook.Move 0 (book w)
      ⟨update (book w).loan b (loanOf (reduced (w.position b) amount n) w),
        w.capital.pool.outstandingPrincipal - (w.position b).principalPart amount,
        owed w.capital - (w.position b).interestPart amount * DENOMINATOR,
        collateral.balanceOf w.self, w.engine.active⟩ := by
    rw [loan, custody]
    refine .pay (book w) b _ _ n (Position.pay_principal_pos owes left) ?_ kept
    rw [book_loan_now current]
    exact part.trans (Nat.le_add_right ..)
  exact h.rebooked_step step bound current.le (fun _ => minimum) h.count_eq h.count_limit closed move

/-- A loan that ends takes all its principal off the aggregate, and of the interest at most what
it owed itself, unless it was the last one. -/
theorem ended_step (h : Good w) {active : SwapPop Address} {G : ℕ}
    (current : (w.position b).updatedAt = w.now) (bound : w.engine.bound = true)
    (owes : (w.position b).principal ≠ 0) (within : n ≤ (w.position b).collateral)
    (removed : w.engine.active.remove b = some active)
    (step : CapitalStep w.capital capital
      (w.capital.pool.outstandingPrincipal - (w.position b).principal) G)
    (kept : active.members ≠ [] →
      owed w.capital ≤ G + (w.position b).interest * DENOMINATOR)
    (sent : collateral.balanceOf w.self + n = w.collateral.balanceOf w.self)
    (closed : ∀ a, collateral.allowance w.self a = 0) :
    Step 0 w (rebooked b ⟨(w.position b).collateral - n, 0, 0, 0, w.now⟩ capital collateral active
      active.members.length log w) := by
  have fewer := SwapPop.remove_length removed
  have limit := h.count_le
  have custody : collateral.balanceOf w.self = w.collateral.balanceOf w.self - n := by omega
  have loan : loanOf ⟨(w.position b).collateral - n, 0, 0, 0, w.now⟩ w =
      ⟨((book w).loan b).collateral - n, 0, 0⟩ := by
    rw [loanOf_now rfl, book_loan_now current, Nat.zero_mul]
    rfl
  have left : (∀ j, j ≠ b → ((book w).loan j).principal = 0) ∨
      (book w).accrued ≤ G + ((book w).loan b).accrued := by
    by_cases last : active.members = []
    · exact .inl (h.book_sound.alone removed last)
    · have enough := kept last
      rw [book_loan_now current]
      exact .inr (enough.trans (Nat.add_le_add_left (Nat.le_add_right ..) _))
  have move : LoanBook.Move 0 (book w)
      ⟨update (book w).loan b (loanOf ⟨(w.position b).collateral - n, 0, 0, 0, w.now⟩ w),
        w.capital.pool.outstandingPrincipal - (w.position b).principal, G,
        collateral.balanceOf w.self, active⟩ := by
    rw [loan, custody]
    exact .close (book w) b n G active owes within removed left
  exact h.rebooked_step step bound le_rfl (fun owing => absurd rfl owing) rfl (by omega) closed move

/-- The world between the payment and the end of the call. -/
def midway (b : Address) (q : Position) (capital : IsolatedPool.World)
    (log : List (ℕ × CreditEvent)) (w : World) : World :=
  rebooked b q capital w.collateral w.engine.active w.engine.activeDebtPositions log w

theorem midway_position (w : World) (b : Address) (q : Position) (capital : IsolatedPool.World)
    (log : List (ℕ × CreditEvent)) : (midway b q capital log w).position b = q := by
  simp [midway, rebooked, World.position]

/-- `_finish` of a loan that owes nothing any more never fails. -/
theorem finish_midway (log : List (ℕ × CreditEvent)) (h : Good w) (owes : (w.position b).principal ≠ 0) {q : Position}
    (none : q.debt = 0) (current : q.updatedAt = w.now) {P G : ℕ}
    (step : CapitalStep w.capital capital P G) :
    ∃ capital' active log' G', finish b (midway b q capital log w) = .ok
        (rebooked b ⟨q.collateral, 0, 0, 0, w.now⟩ capital' w.collateral active
          active.members.length log' w) ∧
      w.engine.active.remove b = some active ∧ CapitalStep w.capital capital' P G' ∧
      capital'.usdg = capital.usdg ∧ (active.members ≠ [] → G' = G) := by
  have position := midway_position w b q capital log
  obtain ⟨capital', log', G', active, done, removed, last, kept⟩ := finish_ok
    (w := midway b q capital log w) (b := b) step.ready (position.symm ▸ none)
    h.book_sound.wellFormed ((h.listed b).mpr owes) h.count_eq
  have cleared : { q with remainder := 0 } = (⟨q.collateral, 0, 0, 0, w.now⟩ : Position) := by
    simp only [Position.debt] at none
    rw [Position.mk.injEq]
    omega
  refine ⟨capital', active, log', G', ?_, removed, ?_, last.usdg_eq,
    fun more => (kept more).trans step.owed_eq⟩
  · rw [done, position, cleared]
    simp only [midway, rebooked, update_idem]
  · have total := step.trans last.toCapitalStep
    rwa [show (midway b q capital log w).capital = capital from rfl, step.principal_eq] at total

/-- After the payment, writing off what is left without collateral and ending the loan never fail,
and with the collateral sent the whole is a movement of the book. -/
theorem conclude (log : List (ℕ × CreditEvent)) (h : Good w) (current : (w.position b).updatedAt = w.now)
    (bound : w.engine.bound = true) (positive : 0 < amount)
    (within : amount ≤ (w.position b).debt) (seizable : n ≤ (w.position b).collateral)
    (meaningful : n = (w.position b).collateral ∨ amount = (w.position b).debt ∨
      amount + w.cfg.minimumDebt ≤ (w.position b).debt)
    (step : CapitalStep w.capital capital
      (w.capital.pool.outstandingPrincipal - (w.position b).principalPart amount)
      (owed w.capital - (w.position b).interestPart amount * DENOMINATOR)) :
    ∃ q capital' active count log',
      (recognizeShortfall b (midway b (reduced (w.position b) amount n) capital log w) >>=
        finish b) = .ok (rebooked b q capital' w.collateral active count log' w) ∧
      (amount = (w.position b).debt → q.debt = 0) ∧ capital'.now = w.now ∧
      capital'.cfg = w.capital.cfg ∧ capital'.usdg = capital.usdg ∧ ∀ collateral log'', collateral.balanceOf w.self + n = w.collateral.balanceOf w.self →
        (∀ a, collateral.allowance w.self a = 0) →
        Step 0 w (rebooked b q capital' collateral active count log'' w) := by
  have paidDown := Position.pay_debt within
  have owes : (w.position b).principal ≠ 0 := by
    rw [ne_eq, ← h.debt_eq_zero]
    omega
  have interest := (w.position b).interestPart_le amount
  have principal := Position.principalPart_le within
  have scaled := Nat.mul_le_mul_right DENOMINATOR interest
  have booked := h.interest_le b
  have lent := h.book_sound.principal_le b
  have position := midway_position w b (reduced (w.position b) amount n) capital log
  have debt : (reduced (w.position b) amount n).debt = ((w.position b).pay amount).debt := rfl
  by_cases none : ((w.position b).pay amount).debt = 0
  · -- paid in full
    have idle : recognizeShortfall b (midway b (reduced (w.position b) amount n) capital log w) =
        .ok _ := recognizeShortfall_idle (by rw [position, debt, none]; omega)
    have parts : (w.position b).principalPart amount = (w.position b).principal ∧
        (w.position b).interestPart amount = (w.position b).interest := by
      simp only [Position.debt, Position.pay] at none
      omega
    rw [parts.1, parts.2] at step
    obtain ⟨capital', active, log', G', done, removed, last, unmoved, kept⟩ :=
      finish_midway log h owes (debt.trans none) current step
    refine ⟨_, capital', active, _, log', by rw [idle, ok_bind, done], fun _ => rfl,
      last.now_eq, last.cfg_eq, unmoved, fun collateral _ sent closed => ?_⟩
    exact ended_step h current bound owes seizable removed last
      (fun more => by rw [kept more]; omega) sent closed
  · by_cases empty : (w.position b).collateral - n = 0
    · -- nothing left to seize: the rest is written off
      have short : (reduced (w.position b) amount n).collateral = 0 ∧
          0 < (reduced (w.position b) amount n).debt := ⟨empty, Nat.pos_of_ne_zero none⟩
      obtain ⟨lossy, log₁, written, loss⟩ := recognizeShortfall_ok
        (w := midway b (reduced (w.position b) amount n) capital log w) (b := b) step.ready
        (position.symm ▸ short) (by
          rw [position]
          change _ - _ ≤ capital.pool.outstandingPrincipal
          rw [step.principal_eq]
          exact Nat.sub_le_sub_right lent _) (by
          rw [position]
          change (_ - _) * _ ≤ owed capital
          rw [step.owed_eq, Nat.sub_mul]
          exact Nat.sub_le_sub_right booked _)
      have same : ({ midway b (reduced (w.position b) amount n) capital log w with
          capital := lossy
          engine :=
            { (midway b (reduced (w.position b) amount n) capital log w).engine with
              positions := update (midway b (reduced (w.position b) amount n) capital log
                w).engine.positions b (Position.written ((midway b (reduced (w.position b) amount n)
                capital log w).position b))
              log := log₁ } } : World) =
          midway b (Position.written (reduced (w.position b) amount n)) lossy log₁ w := by
        rw [position]
        simp only [midway, rebooked, update_idem]
      have total : CapitalStep w.capital lossy
          (w.capital.pool.outstandingPrincipal - (w.position b).principal)
          (owed w.capital - (w.position b).interest * DENOMINATOR) := by
        have both := step.trans loss.toCapitalStep
        rw [position, show (midway b (reduced (w.position b) amount n) capital log w).capital =
          capital from rfl, step.principal_eq, step.owed_eq] at both
        convert both using 1
        · simp only [reduced, Position.pay]
          omega
        · simp only [reduced, Position.pay, Nat.sub_mul]
          omega
      obtain ⟨capital', active, log', G', done, removed, last, unmoved, kept⟩ :=
        finish_midway log₁ h owes (q := Position.written (reduced (w.position b) amount n))
          rfl current total
      refine ⟨_, capital', active, _, log', by rw [written, ok_bind, same, done], fun _ => rfl,
        last.now_eq, last.cfg_eq, unmoved.trans loss.usdg_eq, fun collateral _ sent closed => ?_⟩
      exact ended_step h current bound owes seizable removed last
        (fun more => by rw [kept more]; omega) sent closed
    · -- the loan stays, with debt and collateral enough for the next payment
      have kept : recognizeShortfall b (midway b (reduced (w.position b) amount n) capital log w) =
          .ok _ := recognizeShortfall_idle (by rw [position]; exact fun short => empty short.1)
      have open_ : finish b (midway b (reduced (w.position b) amount n) capital log w) = .ok _ :=
        finish_idle (by rw [position]; exact none)
      refine ⟨_, capital, _, _, log, by rw [kept, ok_bind, open_]; rfl, fun all => ?_,
        step.now_eq, step.cfg_eq, rfl, fun collateral _ sent closed => ?_⟩
      · rw [debt]
        omega
      · exact reduced_step h current bound within none (by omega) (by omega) step sent closed

end Payment

/-! ### Repayment and closing -/

section Repay

variable {sender b : Address} {amount maxAmount : ℕ}

/-- What a repayment of `b` by `payer` did; no other position changed. -/
structure Repaid (payer b : Address) (amount : ℕ) (w w' : World) : Prop extends Step 0 w w' where
  cleared : amount = (w.position b).debt → (w'.position b).debt = 0
  others : ∀ a, a ≠ b → w'.position a = w.position a
  now_eq : w'.now = w.now
  payer_eq : payer ≠ w.self → payer ≠ w.pool →
    w'.usdg.balanceOf payer = w.usdg.balanceOf payer - amount ∧
      w'.usdg.allowance payer w.self = w.usdg.allowance payer w.self - amount

/-- Once the payment has moved, `_finish` cannot fail. -/
theorem finish_paid (h : Good w) (current : (w.position b).updatedAt = w.now)
    (bound : w.engine.bound = true) (positive : 0 < amount)
    (within : amount ≤ (w.position b).debt)
    (meaningful : amount = (w.position b).debt ∨
      amount + w.cfg.minimumDebt ≤ (w.position b).debt) {v : World}
    (repaid : repayPosition sender b amount w = .ok v) :
    ∃ w', finish b v = .ok w' ∧ Repaid sender b amount w w' := by
  obtain ⟨capital, rfl, step, payer⟩ := repayPosition_ok h repaid
  obtain ⟨q, capital', active, count, log', done, cleared, now_eq, -, unmoved, moved⟩ := conclude
    (paid b sender amount capital w).engine.log h current bound positive within (Nat.zero_le _)
    (.inr meaningful) step
  have owes : (w.position b).principal ≠ 0 := by
    rw [ne_eq, ← h.debt_eq_zero]
    omega
  have backed : (w.position b).collateral ≠ 0 :=
    Nat.ne_of_gt (h.book_sound.backed b owes)
  -- nothing was seized, so there is no shortfall to recognize
  have idle : recognizeShortfall b (midway b (reduced (w.position b) amount 0) capital
      (paid b sender amount capital w).engine.log w) = .ok _ :=
    recognizeShortfall_idle (by
      rw [midway_position]
      exact fun short => backed short.1)
  rw [idle, ok_bind] at done
  have last := moved w.collateral log' rfl h.closed
  refine ⟨_, done, last, fun all => ?_, fun a ha => ?_, now_eq, fun other away => ?_⟩
  · simpa [rebooked, World.position] using cleared all
  · simp [rebooked, World.position, ha]
  · simp only [rebooked, World.usdg, unmoved]
    exact payer other away

theorem repayUpTo_step (h : Good w) {n : ℕ} (done : repayUpTo sender b maxAmount w = .ok (w', n)) :
    n = min maxAmount ((settle b w).position b).debt ∧ n ≠ 0 ∧ w.engine.bound = true ∧
      Repaid sender b n (settle b w) w' := by
  simp only [repayUpTo, requirePool, bind_eq_ok, revertIf_eq_ok, exists_const, pure_eq_ok,
    Prod.mk.injEq, Bool.not_eq_false] at done
  obtain ⟨bound, positive, meaningful, v, repaid, u, finished, rfl, rfl⟩ := done
  have within : min maxAmount ((settle b w).position b).debt ≤ ((settle b w).position b).debt :=
    min_le_right ..
  obtain ⟨w'', done, step⟩ := finish_paid (h.settle b) (settle_current b w) bound
    (Nat.pos_of_ne_zero positive) within (by
      change ¬(_ ∧ _ < (settle b w).cfg.minimumDebt) at meaningful
      omega) repaid
  rw [finished] at done
  obtain rfl := Except.ok.inj done
  exact ⟨rfl, positive, bound, step⟩

/-- Whoever holds and approves the debt can repay it: no price, no pause and no retirement is asked. -/
theorem repayUpTo_funded (h : Good w) (bound : w.engine.bound = true) (other : sender ≠ w.self)
    (owes : positionDebt b w ≠ 0) (enough : positionDebt b w ≤ maxAmount)
    (allowed : positionDebt b w ≤ w.usdg.allowance sender w.self)
    (held : positionDebt b w ≤ w.usdg.balanceOf sender) :
    ∃ w', repayUpTo sender b maxAmount w = .ok (w', positionDebt b w) := by
  rw [h.positionDebt] at *
  have all : min maxAmount ((settle b w).position b).debt = ((settle b w).position b).debt :=
    min_eq_right enough
  obtain ⟨v, repaid⟩ := repayPosition_funded (h.settle b) other (Nat.pos_of_ne_zero owes) le_rfl
    allowed held
  obtain ⟨w', done, -⟩ := finish_paid (h.settle b) (settle_current b w) bound
    (Nat.pos_of_ne_zero owes) le_rfl (.inl rfl) repaid
  simp only [repayUpTo, requirePool, bind_eq_ok, revertIf_eq_ok, exists_const, pure_eq_ok,
    Prod.mk.injEq, Bool.not_eq_false, all]
  exact ⟨w', bound, owes, by omega, v, repaid, w', done, rfl, trivial⟩

theorem withdrawRest_step (h : Good w) {recipient : Address}
    (done : withdrawRest sender recipient w = .ok w') : Step 0 w w' := by
  simp only [withdrawRest] at done
  split_ifs at done
  · exact withdrawCollateral_step h done
  · rw [pure_eq_ok] at done
    exact done ▸ h.refl

theorem close_step (h : Good w) {recipient : Address} {n : ℕ}
    (done : close sender maxAmount recipient w = .ok (w', n)) : Step 0 w w' := by
  simp only [close, bind_eq_ok, revertIf_eq_ok, exists_const, pure_eq_ok, Prod.exists,
    Prod.mk.injEq] at done
  obtain ⟨v, m, repaid, -, u, rest, rfl, rfl⟩ := done
  have first := (repayUpTo_step h repaid).2.2.2.toStep.of_settle
  exact first.trans (withdrawRest_step (first.good h) rest)

end Repay

/-! ### Liquidation -/

/-- A payment leaves nothing, or debt and collateral for a further one. -/
theorem liquidationQuote_ok {cfg : Config} {collateral debt value maxRepay paid seized : ℕ}
    (done : liquidationQuote cfg collateral debt value maxRepay = .ok (paid, seized)) :
    0 < paid ∧ paid ≤ debt ∧ seized ≤ collateral ∧
      (seized = collateral ∨ paid = debt ∨ paid + cfg.minimumDebt ≤ debt) := by
  simp only [liquidationQuote, bind_eq_ok, revertIf_eq_ok, exists_const, pure_eq_ok, Prod.exists,
    Prod.mk.injEq] at done
  obtain ⟨-, positive, p, s, chosen, -, rfl, rfl⟩ := done
  unfold seizure at chosen
  split_ifs at chosen with all
  · rw [pure_eq_ok, Prod.mk.injEq] at chosen
    omega
  · simp only [bind_eq_ok, pure_eq_ok, Prod.mk.injEq] at chosen
    obtain ⟨n, limited, rfl, rfl⟩ := chosen
    refine ⟨?_, ?_, min_le_left .., .inr ?_⟩ <;> unfold partialPayment at limited <;>
      split_ifs at limited with part
    all_goals
      simp only [bind_eq_ok, revertIf_eq_ok, exists_const, pure_eq_ok] at limited
      omega

theorem liquidate_conclude {s v : World} (h : Good s) {sender b : Address} {n m : ℕ}
    (current : (s.position b).updatedAt = s.now) (bound : s.engine.bound = true)
    (positive : 0 < n) (within : n ≤ (s.position b).debt)
    (seizable : m ≤ (s.position b).collateral)
    (meaningful : m = (s.position b).collateral ∨ n = (s.position b).debt ∨
      n + s.cfg.minimumDebt ≤ (s.position b).debt)
    (repaid : repayPosition sender b n s = .ok v) :
    checkedSub (v.position b).collateral m Error.panic = .ok ((s.position b).collateral - m) ∧
    ∃ q capital active count log, (recognizeShortfall b (v.setPosition b { v.position b with
        collateral := (s.position b).collateral - m }) >>= finish b) =
        .ok (rebooked b q capital s.collateral active count log s) ∧
      capital.cfg = s.capital.cfg ∧ ∀ collateral log', collateral.balanceOf s.self + m = s.collateral.balanceOf s.self →
        (∀ a, collateral.allowance s.self a = 0) →
        Step 0 s (rebooked b q capital collateral active count log' s) := by
  obtain ⟨capital, rfl, step, -⟩ := repayPosition_ok h repaid
  have position : (paid b sender n capital s).position b = (s.position b).pay n := by
    simp [paid, World.position]
  refine ⟨(checkedSub_eq_ok ..).mpr ⟨position ▸ seizable, by rw [position]; rfl⟩, ?_⟩
  obtain ⟨q, capital', active, count, log, done, -, -, cfg_eq, -, moved⟩ := conclude
    (paid b sender n capital s).engine.log h current bound positive within seizable meaningful step
  have same : (paid b sender n capital s).setPosition b { (paid b sender n capital s).position b with
      collateral := (s.position b).collateral - m } =
      midway b (reduced (s.position b) n m) capital (paid b sender n capital s).engine.log s := by
    rw [position]
    simp only [paid, World.setPosition, midway, rebooked, reduced, update_idem]
  exact ⟨q, capital', active, count, log, same ▸ done, cfg_eq, moved⟩

/-- A liquidation at some price, from the quote on. -/
theorem seize_step (h : Good w) {sender b : Address} {value maxRepay n m left : ℕ}
    {event : CreditEvent} {v x y : World} (bound : w.engine.bound = true)
    (quoted : liquidationQuote (settle b w).cfg ((settle b w).position b).collateral
      ((settle b w).position b).debt value maxRepay = .ok (n, m))
    (repaid : repayPosition sender b n (settle b w) = .ok v)
    (subtracted : checkedSub (v.position b).collateral m Error.panic = .ok left)
    (short : recognizeShortfall b (v.setPosition b { v.position b with collateral := left }) = .ok x)
    (finished : finish b x = .ok y) (sent : sendCollateral sender m y = .ok w') :
    Step 0 w (w'.emit event) := by
  obtain ⟨positive, within, seizable, meaningful⟩ := liquidationQuote_ok quoted
  obtain ⟨exact, q, capital, active, count, log, done, cfg_eq, moved⟩ := liquidate_conclude
    (h.settle b) (settle_current b w) bound positive within seizable meaningful repaid
  rw [subtracted] at exact
  obtain rfl := Except.ok.inj exact
  rw [short, ok_bind, finished] at done
  obtain rfl := Except.ok.inj done
  obtain ⟨collateral, rfl, exact, spent⟩ := sendCollateral_ok sent
  have self : (rebooked b q capital (settle b w).collateral active count log (settle b w)).self =
      (settle b w).self := congrArg IsolatedPool.Config.creditEngine cfg_eq
  rw [self] at exact
  exact .of_settle (moved collateral _ exact
    (fun a => (congrFun (congrFun spent _) a).trans (h.closed a)))

theorem liquidate_step (h : Good w) {sender b : Address} {maxRepay minCollateral n m : ℕ}
    (done : liquidate sender b maxRepay minCollateral w = .ok (w', n, m)) : Step 0 w w' := by
  simp only [liquidate, requirePool, bind_eq_ok, revertIf_eq_ok, exists_const, pure_eq_ok,
    Prod.exists, Prod.mk.injEq, Bool.not_eq_false] at done
  obtain ⟨bound, value, -, p, s, quoted, -, v, repaid, left, subtracted, x, short, y, finished, z,
    sent, rfl, rfl, rfl⟩ := done
  exact seize_step h bound quoted repaid subtracted short finished sent

end Turret.IsolatedEngine
