import Turret.Variable.Repayment
import Turret.Variable.Scripts

/-! Every call of the variable-rate engine is a few movements of the loan book.
Collateral that leaves the engine before the payment, and whatever runs in
between, is accounted for by reading the book as if it were still there. -/

namespace Turret.VariableEngine

open Execution Rounding Function
open VariablePool (CapitalStep LossStep Ready owed currentRateIntegral withSettlement)

variable {hook callback : World → Except Error World} {w w' : World} {b : Address}

/-- A step, and what it does to the position of each account; `taken` is who was liquidated. -/
structure Moved (taken : Option Address) (n : ℕ) (w w' : World) : Prop extends Step n w w' where
  turn : ∀ a, Turn (taken = some a) a w w'

theorem Moved.trans {taken : Option Address} {m n : ℕ} {u v : World} (h : Moved taken m u v)
    (k : Moved taken n v w) : Moved taken (m + n) u w :=
  ⟨h.toStep.trans k.toStep, fun a => (h.turn a).trans (k.turn a)⟩

theorem Moved.of_settle {taken : Option Address} {n : ℕ} (h : Moved taken n (afterSettle b w) w') :
    Moved taken n w w' :=
  ⟨h.toStep.of_settle, fun a => (Turn.afterSettle a b w).trans (h.turn a)⟩

theorem Good.moved_refl (h : Good w) (taken : Option Address) : Moved taken 0 w w :=
  ⟨h.refl, fun _ => .still rfl rfl⟩

theorem Frozen.moved (h : Frozen w w') (hw : Local w) (taken : Option Address) :
    Moved taken (w'.collateral.balanceOf w.self - w.collateral.balanceOf w.self) w w' :=
  ⟨h.step hw, fun a => h.turn a⟩

theorem Frozen.moved_exact (h : Frozen w w') (hw : Local w) (taken : Option Address)
    (exact : w'.collateral.balanceOf w.self = w.collateral.balanceOf w.self) :
    Moved taken 0 w w' :=
  ⟨h.step_exact hw exact, fun a => h.turn a⟩

/-- A step that touches the position of `b` alone, and no charge. -/
structure Acted (b : Address) (w w' : World) : Prop extends Step 0 w w' where
  charged_eq : ∀ a, charged a w' = charged a w
  others : ∀ a, a ≠ b → (w'.position a).principal = (w.position a).principal ∧
    (w'.position a).collateral = (w.position a).collateral

theorem Acted.trans {u v : World} (h : Acted b u v) (k : Acted b v w) : Acted b u w :=
  ⟨h.toStep.trans k.toStep, fun a => (k.charged_eq a).trans (h.charged_eq a), fun a apart =>
    ⟨(k.others a apart).1.trans (h.others a apart).1, (k.others a apart).2.trans (h.others a apart).2⟩⟩

theorem charged_afterSettle (a b : Address) (w : World) :
    charged a (afterSettle b w) = charged a w := by
  rw [charged, book_afterSettle]
  rfl

theorem Acted.of_settle (h : Acted b (afterSettle b w) w') : Acted b w w' where
  toStep := h.toStep.of_settle
  charged_eq a := (h.charged_eq a).trans (charged_afterSettle a b w)
  others a apart := by
    have same := h.others a apart
    rwa [afterSettle_position_of_ne _ _ apart] at same

theorem Acted.moved (h : Acted b w w') (taken : Option Address)
    (principal_le : (w'.position b).principal ≤ (w.position b).principal)
    (collateral_le : (w.position b).collateral ≤ (w'.position b).collateral ∨
      (w'.position b).principal = 0) : Moved taken 0 w w' where
  toStep := h.toStep
  turn a := by
    by_cases ha : a = b
    · subst ha
      exact ⟨principal_le, .inl (h.charged_eq a), collateral_le.imp_right .inl⟩
    · obtain ⟨principal, collateral⟩ := h.others a ha
      exact ⟨principal.le, .inl (h.charged_eq a), .inl collateral.ge⟩

/-- Right after its settlement the position of `b` is safe at the price `value`. -/
structure Judged (b : Address) (value : ℕ) (w : World) : Prop where
  current : sinceSettled b w = 0
  safe : safe (w.position b).collateral (w.position b).debt value w.cfg.maxLtvBps = true

/-! ### One position rewritten -/

/-- The position of `b` becomes `p`, and the pool is left with principal `P` and scaled interest
`G`; the collateral token, the registry and the events may change as well. -/
structure Rewritten (b : Address) (p : Position) (P G : ℕ) (w z : World) : Prop where
  capital : CapitalStep w.capital z.capital P G
  cfg_eq : z.cfg = w.cfg
  integrals_eq : z.engine.positionRateIntegral = w.engine.positionRateIntegral
  others : ∀ a, a ≠ b → z.position a = w.position a
  this : z.position b = p
  entered_eq : z.engine.entered = w.engine.entered
  price_eq : z.engine.transactionPrice = w.engine.transactionPrice

namespace Rewritten

variable {p : Position} {P G : ℕ} {z : World}

theorem self_eq (h : Rewritten b p P G w z) : z.self = w.self :=
  congrArg VariablePool.Config.creditEngine h.capital.cfg_eq

theorem sinceSettled_eq (h : Rewritten b p P G w z) (a : Address) :
    sinceSettled a z = sinceSettled a w := by
  rw [sinceSettled, sinceSettled, h.capital.integral_eq, h.integrals_eq]

theorem book_eq (h : Rewritten b p P G w z) :
    book z = ⟨update (book w).loan b (p.loan (sinceSettled b w)), P, G,
      z.collateral.balanceOf w.self, z.engine.active⟩ := by
  simp only [book, h.capital.principal_eq, h.capital.owed_eq, h.self_eq, LoanBook.mk.injEq, and_true]
  funext a
  by_cases ha : a = b
  · rw [ha, update_self, h.sinceSettled_eq, h.this]
  · rw [update_of_ne ha, h.others a ha, h.sinceSettled_eq]

theorem loc (h : Rewritten b p P G w z) (hw : Local w)
    (minimum : p.principal ≠ 0 → w.cfg.minimumDebt ≤ p.debt)
    (counted : z.engine.activeDebtPositions = z.engine.active.members.length)
    (closed : ∀ a, z.collateral.allowance w.self a = 0) (bound : z.engine.bound = true)
    (swept : z.engine.active.members = [] → G = 0) : Local z where
  ready := h.capital.ready
  closed a := by
    rw [h.self_eq]
    exact closed a
  integral_le a := by
    rw [h.integrals_eq, h.capital.integral_eq]
    exact hw.integral_le a
  count_eq := counted
  minimum a := by
    rw [h.cfg_eq]
    by_cases ha : a = b
    · rw [ha, h.this]
      exact minimum
    · rw [h.others a ha]
      exact hw.minimum a
  bound _ := bound
  swept none := h.capital.owed_eq.trans (swept none)

/-- A movement of the book, told by what it rewrites. -/
theorem step (h : Rewritten b p P G w z) (hw : Local w)
    (minimum : p.principal ≠ 0 → w.cfg.minimumDebt ≤ p.debt)
    (counted : z.engine.activeDebtPositions = z.engine.active.members.length)
    (closed : ∀ a, z.collateral.allowance w.self a = 0) (bound : z.engine.bound = true)
    (swept : z.engine.active.members = [] → G = 0)
    (move : LoanBook.Move 0 (book w) ⟨update (book w).loan b (p.loan (sinceSettled b w)), P, G,
      z.collateral.balanceOf w.self, z.engine.active⟩) : Step 0 w z where
  loc := h.loc hw minimum counted closed bound swept
  moves := by
    rw [h.book_eq]
    exact move.moves
  cfg_eq := h.cfg_eq
  capital_cfg_eq := h.capital.cfg_eq
  flags_eq := by simp only [flags, h.entered_eq, h.price_eq, h.capital.settlement_eq]

/-- The charge of everybody else stays, and that of `b` follows its position. -/
theorem turn (h : Rewritten b p P G w z) {taken : Option Address}
    (told : ∀ a, a ≠ b → interestRepaid a z.engine.log = interestRepaid a w.engine.log)
    (principal_le : p.principal ≤ (w.position b).principal)
    (charged_eq : (p.loan (sinceSettled b w)).accrued +
        interestRepaid b z.engine.log * DENOMINATOR = charged b w ∨
      (w.position b).principal ≠ 0 ∧ p.principal = 0)
    (collateral_le : (w.position b).collateral ≤ p.collateral ∨ p.principal = 0 ∨
      taken = some b) (a : Address) : Turn (taken = some a) a w z := by
  by_cases ha : a = b
  · have loan : (book z).loan b = p.loan (sinceSettled b w) := by
      rw [h.book_eq]
      exact update_self ..
    subst ha
    refine ⟨?_, ?_, ?_⟩
    · rw [h.this]
      exact principal_le
    · rw [h.this, charged, loan]
      exact charged_eq
    · rw [h.this]
      exact collateral_le
  · refine .still ?_ (told a ha)
    rw [h.book_eq]
    exact update_of_ne ha ..

/-- An action on `b` that pays nothing. -/
theorem acted (h : Rewritten b p P G w z) (step : Step 0 w z)
    (told : ∀ a, interestRepaid a z.engine.log = interestRepaid a w.engine.log)
    (accrued : (p.loan (sinceSettled b w)).accrued = ((book w).loan b).accrued) : Acted b w z where
  toStep := step
  charged_eq a := by
    by_cases ha : a = b
    · rw [charged, charged, told, h.book_eq, ha, ← accrued]
      simp only [update_self]
    · rw [charged, charged, told, h.book_eq]
      simp only [update_of_ne ha]
  others a ha := by
    rw [h.others a ha]
    exact ⟨rfl, rfl⟩

end Rewritten

/-! ### Collateral in and out -/

/-- Collateral arrives in full, whatever the token runs meanwhile. -/
theorem pullCollateral_ok (h : Calm w) (entered : w.engine.entered = true) (freezes : Freezes hook)
    {src : Address} {amount : ℕ} (done : pullCollateral hook src amount w = .ok w') :
    Frozen w w' ∧ w'.collateral.balanceOf w.self = w.collateral.balanceOf w.self + amount := by
  simp only [pullCollateral, bind_eq_ok, orRevert_eq_ok, revertIf_eq_ok, exists_const, pure_eq_ok,
    ne_eq, not_not] at done
  obtain ⟨collateral, pulled, v, hooked, exact, rfl⟩ := done
  have closed := TokenLedger.transferFrom_keeps_closed h.closed pulled
  have kept := (TokenLedger.transferFrom_closed h.closed pulled).1
  have arrived : Frozen w { w with collateral } :=
    ⟨.refl h.ready, rfl, rfl, rfl, rfl, rfl, rfl, rfl, rfl, id, kept, closed⟩
  exact ⟨arrived.trans (freezes _ _ arrived.calm entered hooked), exact⟩

/-- Collateral leaves in full, whatever the token runs meanwhile. -/
theorem sendCollateral_ok (h : Calm w) (entered : w.engine.entered = true) (freezes : Freezes hook)
    {dst : Address} {amount : ℕ} (done : sendCollateral hook dst amount w = .ok w') :
    ∃ collateral, Frozen { w with collateral } w' ∧
      collateral.balanceOf w.self + amount = w.collateral.balanceOf w.self ∧
      w'.collateral.balanceOf w.self = collateral.balanceOf w.self ∧
      (∀ a, collateral.allowance w.self a = 0) ∧ dst ≠ 0 ∧ dst ≠ w.self := by
  simp only [sendCollateral, bind_eq_ok, orRevert_eq_ok, revertIf_eq_ok, exists_const, pure_eq_ok,
    TokenLedger.transfer_eq_some, not_not, not_or] at done
  obtain ⟨⟨real, other⟩, collateral, ⟨held, rfl⟩, v, hooked, ⟨exact, -⟩, rfl⟩ := done
  have left : (w.collateral.move w.self dst amount).balanceOf w.self + amount =
      w.collateral.balanceOf w.self := by
    rw [TokenLedger.move_src (Ne.symm other)]
    omega
  have calm : Calm { w with collateral := w.collateral.move w.self dst amount } :=
    ⟨h.ready, h.closed⟩
  exact ⟨_, freezes _ _ calm entered hooked, left, by omega, h.closed, real, other⟩

theorem depositCollateralFrom_acted (h : Good w) (entered : w.engine.entered = true)
    (freezes : Freezes hook) {payer : Address} {amount : ℕ}
    (done : depositCollateralFrom hook payer b amount w = .ok w') :
    Acted b w w' ∧ (w'.position b).principal = (w.position b).principal ∧
      (w'.position b).collateral = (w.position b).collateral + amount := by
  simp only [depositCollateralFrom, requirePool, bind_eq_ok, revertIf_eq_ok, exists_const,
    pure_eq_ok, Bool.not_eq_false] at done
  obtain ⟨bound, -, -, -, v, pulled, rfl⟩ := done
  obtain ⟨frozen, exact⟩ := pullCollateral_ok h.toCalm entered freezes pulled
  have rewritten : Rewritten b { w.position b with
      collateral := (w.position b).collateral + amount } w.capital.pool.outstandingPrincipal
      (owed w.capital) w (World.emit (.collateralDeposited b payer amount) (v.setPosition b
        { v.position b with collateral := (v.position b).collateral + amount })) :=
    { capital := frozen.capital
      cfg_eq := frozen.cfg_eq
      integrals_eq := frozen.integrals_eq
      others := fun a apart => (position_set_of_ne v apart _).trans (frozen.position_eq a)
      this := (position_set ..).trans (by rw [frozen.position_eq])
      entered_eq := frozen.entered_eq
      price_eq := frozen.price_eq }
  have move : LoanBook.Move 0 (book w)
      ⟨update (book w).loan b (({ w.position b with
        collateral := (w.position b).collateral + amount } : Position).loan (sinceSettled b w)),
        (book w).principal, (book w).accrued, v.collateral.balanceOf w.self, v.engine.active⟩ := by
    rw [exact, frozen.active_eq]
    exact .pledge (book w) b amount
  have step := rewritten.step h.toLocal (h.minimum b)
    (frozen.count_eq.trans (frozen.active_eq ▸ h.count_eq)) frozen.closed (frozen.bound_le bound)
    (fun none => h.swept (frozen.active_eq ▸ none)) move
  refine ⟨rewritten.acted step (fun a => ?_) rfl, ?_, ?_⟩
  · exact (Nat.zero_add _).trans (congrArg (interestRepaid a) frozen.log_eq)
  · rw [rewritten.this]
  · rw [rewritten.this]

/-- With debt, some collateral stays, and a price was there to judge it by. -/
theorem checkExit_ok {p : Position} {amount : ℕ} (within : amount ≤ p.collateral)
    (done : checkExit p amount w = .ok ()) (owes : p.debt ≠ 0) :
    amount < p.collateral ∧ w.engine.riskPaused = false ∧ w.engine.transactionPrice ≠ 0 ∧
      safe (p.collateral - amount) p.debt w.engine.transactionPrice w.cfg.maxLtvBps = true := by
  simp only [checkExit, if_neg owes, borrowingPrice, bind_eq_ok, revertIf_eq_ok, exists_const,
    pure_eq_ok, Bool.not_eq_false, Bool.not_eq_true] at done
  obtain ⟨live, value, ⟨priced, rfl⟩, covered⟩ := done
  refine ⟨?_, live, priced, covered⟩
  by_contra all
  have none : p.collateral - amount = 0 := by omega
  rw [none] at covered
  exact owes (safe_zero_amount covered)

/-- Collateral is withdrawn without debt, or at the price of the action in course. -/
theorem withdrawCollateralFor_acted (h : Good w) (entered : w.engine.entered = true)
    (freezes : Freezes hook) {amount : ℕ} {recipient : Address}
    (done : withdrawCollateralFor hook b amount recipient w = .ok w') :
    Acted b w w' ∧ (w'.position b).principal = (w.position b).principal ∧
      (w.engine.transactionPrice = 0 → (w.position b).principal = 0) ∧
      Judged b w.engine.transactionPrice w' := by
  simp only [withdrawCollateralFor, requirePool, bind_eq_ok, revertIf_eq_ok, exists_const,
    pure_eq_ok, Bool.not_eq_false, not_lt, settle_eq_ok h.ready.toSound] at done
  obtain ⟨bound, -, s, rfl, within, ⟨⟩, checked, v, sent, rfl⟩ := done
  have bound : (afterSettle b w).engine.bound = true := bound
  have entered : (afterSettle b w).engine.entered = true := entered
  have hs := h.afterSettle b
  have current := sinceSettled_afterSettle b w
  have principal : ((afterSettle b w).position b).principal = (w.position b).principal := by
    rw [afterSettle_position]
    rfl
  rw [← principal]
  suffices acted : Acted b (afterSettle b w) (World.emit (.collateralWithdrawn b recipient amount) v) ∧
      _ from ⟨acted.1.of_settle, acted.2⟩
  have priced : w.engine.transactionPrice = (afterSettle b w).engine.transactionPrice := rfl
  rw [priced]
  generalize afterSettle b w = s at *
  have kept := checkExit_ok within checked
  obtain ⟨collateral, frozen, left, exact, closed, -⟩ := sendCollateral_ok
    (w := s.setPosition b ((s.position b).seize amount)) ⟨hs.ready, hs.closed⟩ entered freezes sent
  have rest : v.collateral.balanceOf s.self = s.collateral.balanceOf s.self - amount := by
    change collateral.balanceOf s.self + amount = s.collateral.balanceOf s.self at left
    change v.collateral.balanceOf s.self = collateral.balanceOf s.self at exact
    omega
  have rewritten : Rewritten b ((s.position b).seize amount) s.capital.pool.outstandingPrincipal
      (owed s.capital) s (World.emit (.collateralWithdrawn b recipient amount) v) :=
    { capital := frozen.capital
      cfg_eq := frozen.cfg_eq
      integrals_eq := frozen.integrals_eq
      others := fun a apart => (frozen.position_eq a).trans (position_set_of_ne s apart _)
      this := (frozen.position_eq b).trans (position_set ..)
      entered_eq := frozen.entered_eq
      price_eq := frozen.price_eq }
  have move : LoanBook.Move 0 (book s)
      ⟨update (book s).loan b (((s.position b).seize amount).loan (sinceSettled b s)),
        (book s).principal, (book s).accrued, v.collateral.balanceOf s.self, v.engine.active⟩ := by
    rw [rest, frozen.active_eq]
    exact .release (book s) b amount within (fun owes => (kept (mt hs.debt_eq_zero.mp owes)).1)
  have step := rewritten.step hs.toLocal (hs.minimum b)
    (frozen.count_eq.trans (frozen.active_eq ▸ hs.count_eq)) frozen.closed (frozen.bound_le bound)
    (fun none => hs.swept (frozen.active_eq ▸ none)) move
  refine ⟨rewritten.acted step (fun a => ?_) rfl, ?_, fun free => ?_, ?_, ?_⟩
  · exact (Nat.zero_add _).trans (congrArg (interestRepaid a) frozen.log_eq)
  · rw [rewritten.this]
    rfl
  · by_contra owes
    exact (kept (mt hs.debt_eq_zero.mp owes)).2.2.1 free
  · exact (frozen.sinceSettled_eq b).trans current
  · rw [rewritten.this, rewritten.cfg_eq]
    by_cases none : (s.position b).debt = 0
    · exact (congrArg (safe _ · _ _) none).trans (safe_zero_debt ..)
    · exact (kept none).2.2.2

/-! ### Borrowing -/

theorem enter_ok (b : Address) (w : World) :
    ∃ active count, enter b w =
        { w with engine := { w.engine with active, activeDebtPositions := count } } ∧
      active = (if (w.position b).principal = 0 then w.engine.active.push b else w.engine.active) ∧
      (w.engine.activeDebtPositions = w.engine.active.members.length →
        count = active.members.length) := by
  unfold enter
  split_ifs with first
  · exact ⟨_, _, rfl, rfl, fun counted => by simp [SwapPop.push, counted]⟩
  · exact ⟨_, _, rfl, rfl, id⟩

/-- A loan is drawn in full, at the price of the action in course. -/
theorem borrowFor_ok (h : Ready w.capital) {amount : ℕ} (done : borrowFor b amount w = .ok w') :
    w.engine.bound = true ∧ w.engine.riskPaused = false ∧ amount ≠ 0 ∧
      w.cfg.minimumDebt ≤ ((afterSettle b w).position b).debt + amount ∧
      w.engine.transactionPrice ≠ 0 ∧
      safe ((afterSettle b w).position b).collateral (((afterSettle b w).position b).debt + amount)
        w.engine.transactionPrice w.cfg.maxLtvBps = true ∧
      ∃ safety capital active count log,
        VariablePool.draw safety w.self b amount (afterSettle b w).capital = .ok capital ∧
        active = (if ((afterSettle b w).position b).principal = 0 then w.engine.active.push b
          else w.engine.active) ∧
        (w.engine.activeDebtPositions = w.engine.active.members.length →
          count = active.members.length) ∧
        (∀ a, interestRepaid a log = interestRepaid a w.engine.log) ∧
        w' = rebooked b { (afterSettle b w).position b with
          principal := ((afterSettle b w).position b).principal + amount } capital active count log
          (afterSettle b w) := by
  simp only [borrowFor, requirePool, borrowingPrice, bind_eq_ok, onPool_eq_ok, revertIf_eq_ok,
    exists_const, pure_eq_ok, Bool.not_eq_false, Bool.not_eq_true, not_lt,
    settle_eq_ok h.toSound] at done
  obtain ⟨bound, live, positive, s, rfl, enough, value, ⟨priced, rfl⟩, covered, x,
    ⟨capital, drawn, rfl⟩, rfl⟩ := done
  obtain ⟨active, count, same, listed, counted⟩ := enter_ok b (afterSettle b w)
  rw [same] at drawn ⊢
  exact ⟨bound, live, positive, enough, priced, covered, _, capital, active, count, _, drawn, listed,
    counted, fun a => Nat.zero_add _, rfl⟩

theorem borrowFor_acted (h : Good w) {amount : ℕ} (done : borrowFor b amount w = .ok w') :
    Acted b w w' ∧ w.engine.transactionPrice ≠ 0 ∧ Judged b w.engine.transactionPrice w' := by
  obtain ⟨bound, -, positive, enough, priced, covered, safety, capital, active, count, log, drawn,
    listed, counted, told, rfl⟩ := borrowFor_ok h.ready done
  have current := sinceSettled_afterSettle b w
  have hs := h.afterSettle b
  have counted := counted h.count_eq
  have bound : (afterSettle b w).engine.bound = true := bound
  have listed : active = if _ then (afterSettle b w).engine.active.push b
    else (afterSettle b w).engine.active := listed
  have told : ∀ a, _ = interestRepaid a (afterSettle b w).engine.log := told
  rw [← afterSettle_cfg b w] at enough covered
  suffices acted : Acted b (afterSettle b w) (rebooked b { (afterSettle b w).position b with
      principal := ((afterSettle b w).position b).principal + amount } capital active count log
      (afterSettle b w)) ∧ _ from ⟨acted.1.of_settle, priced, acted.2⟩
  generalize afterSettle b w = s at *
  have step := VariablePool.draw_step (c := s.capital) hs.ready drawn
  have backed : 0 < (s.position b).collateral := by
    by_contra none
    rw [Nat.eq_zero_of_not_pos none] at covered
    have := safe_zero_amount covered
    omega
  have rewritten : Rewritten b { s.position b with
      principal := (s.position b).principal + amount }
      (s.capital.pool.outstandingPrincipal + amount) (owed s.capital) s (rebooked b { s.position b with
        principal := (s.position b).principal + amount } capital active count log s) :=
    { capital := step
      cfg_eq := rfl
      integrals_eq := rfl
      others := fun a apart => by simp [rebooked, World.position, apart]
      this := rebooked_position ..
      entered_eq := rfl
      price_eq := rfl }
  have loan : ({ s.position b with
      principal := (s.position b).principal + amount } : Position).loan (sinceSettled b s) =
      { (book s).loan b with principal := (s.position b).principal + amount } := by
    rw [book_loan_now current, current, Position.loan_zero]
  have move : LoanBook.Move 0 (book s)
      ⟨update (book s).loan b (({ s.position b with
        principal := (s.position b).principal + amount } : Position).loan (sinceSettled b s)),
        (book s).principal + amount, (book s).accrued, (book s).custody, active⟩ := by
    rw [loan, listed]
    exact .lend (book s) b amount (Nat.pos_of_ne_zero positive) backed
  have grown : s.cfg.minimumDebt ≤ ({ s.position b with
      principal := (s.position b).principal + amount } : Position).debt := by
    simp only [Position.debt] at enough ⊢
    omega
  have some : active.members ≠ [] := by
    rw [listed]
    split_ifs with first
    · simp [SwapPop.push]
    · exact List.ne_nil_of_mem (hs.book_sound.wellFormed.mem_iff.mpr ((hs.listed b).mpr first))
  refine ⟨rewritten.acted (rewritten.step hs.toLocal (fun _ => grown) counted hs.closed bound
    (fun none => absurd none some) move) told (by rw [loan]), ?_, ?_⟩
  · exact (rewritten.sinceSettled_eq b).trans current
  · rw [rewritten.this]
    simp only [Position.debt] at covered ⊢
    rwa [Nat.add_right_comm]

/-! ### Repaying

A settled loan that pays `amount` and gives up `n` of its collateral keeps its
place while it owes something, and otherwise leaves the book. The collateral may
be gone, and the pool frozen, before the payment. -/

section Payment

variable {x z : World} {amount n : ℕ} {f : Bool} {t : TokenLedger Address}

/-- The state with `n` of `b`'s collateral released, the collateral at `t` and the freeze at `f`. -/
def released (b : Address) (n : ℕ) (f : Bool) (t : TokenLedger Address) (w : World) : World :=
  ({ w with capital := withSettlement f w.capital, collateral := t }).setPosition b
    ((w.position b).seize n)

theorem released_position :
    (released b n f t w).position b = (w.position b).seize n :=
  position_set ..

theorem released_none (b : Address) (w : World) :
    released b 0 w.capital.pool.liquidationSettlementActive w.collateral w = w := by
  have same : update w.engine.positions b ((w.position b).seize 0) = w.engine.positions :=
    update_eq_self ..
  simp only [released, World.setPosition, same]
  rfl

/-- The same state with another freeze and other events. -/
def dressed (f : Bool) (log : List (ℕ × CreditEvent)) (w : World) : World :=
  { w with capital := withSettlement f w.capital, engine := { w.engine with log } }

theorem Frozen.dressed {u v : World} (h : Frozen u v) (f : Bool) (log : List (ℕ × CreditEvent)) :
    Frozen (dressed f log u) (dressed f log v) :=
  ⟨h.capital.settlement f, h.cfg_eq, h.positions_eq, h.integrals_eq, h.active_eq, h.count_eq,
    h.entered_eq, h.price_eq, rfl, h.bound_le, h.custody_le, h.closed⟩

/-- The end of a call that released collateral: the freeze is as before. -/
def unreleased (x : World) (t : TokenLedger Address) (log : List (ℕ × CreditEvent)) (v : World) :
    World :=
  VariableEngine.dressed x.capital.pool.liquidationSettlementActive log { v with collateral := t }

/-- The loan keeps its place, with debt and collateral enough for the next payment. -/
theorem smaller_moved (h : Good x) (current : sinceSettled b x = 0) (bound : x.engine.bound = true)
    (owes : (x.position b).principal ≠ 0) (left : ((x.position b).pay amount).debt ≠ 0)
    (minimum : x.cfg.minimumDebt ≤ ((x.position b).pay amount).debt)
    (kept : n < (x.position b).collateral) {t' : TokenLedger Address} {capital : VariablePool.World}
    (step : paidStep b amount (released b n f t' x) capital)
    (sent : t.balanceOf x.self + n = x.collateral.balanceOf x.self)
    (closed : ∀ a, t.allowance x.self a = 0) {log log' : List (ℕ × CreditEvent)}
    {taken : Option Address} (seized : n = 0 ∨ taken = some b)
    (told : ∀ a, interestRepaid a log = interestRepaid a x.engine.log +
      if b = a then (x.position b).interestPart amount else 0) :
    Moved taken 0 x (unreleased x t log (rebooked b (((released b n f t' x).position b).pay amount)
      capital x.engine.active x.engine.activeDebtPositions log' (released b n f t' x))) := by
  rw [paidStep, released_position] at step
  rw [released_position]
  have custody : t.balanceOf x.self = x.collateral.balanceOf x.self - n := by omega
  have part := Position.pay_principal_pos owes left
  have lent : (x.position b).principal ≤ x.capital.pool.outstandingPrincipal :=
    h.book_sound.principal_le b
  have rest : x.capital.pool.outstandingPrincipal - (x.position b).principalPart amount ≠ 0 := by
    omega
  have interest := Nat.mul_le_mul_right DENOMINATOR ((x.position b).interestPart_le amount)
  have paid : CapitalStep x.capital _
      (x.capital.pool.outstandingPrincipal - (x.position b).principalPart amount)
      (owed x.capital - (x.position b).interestPart amount * DENOMINATOR) :=
    VariablePool.CapitalStep.unsettle (f := f) (VariablePool.keptOwed_of_pos rest _ ▸ step)
  have rewritten : Rewritten b (((x.position b).seize n).pay amount) _ _ x
      (unreleased x t log (rebooked b (((x.position b).seize n).pay amount) capital x.engine.active
        x.engine.activeDebtPositions log' (released b n f t' x))) :=
    { capital := paid
      cfg_eq := rfl
      integrals_eq := rfl
      others := fun a apart => by
        simp [unreleased, VariableEngine.dressed, rebooked, released, World.setPosition,
          World.position, apart]
      this := update_self ..
      entered_eq := rfl
      price_eq := rfl }
  have loan : (((x.position b).seize n).pay amount).loan (sinceSettled b x) =
      ⟨((book x).loan b).collateral - n,
        ((book x).loan b).principal - (x.position b).principalPart amount,
        ((book x).loan b).accrued - (x.position b).interestPart amount * DENOMINATOR⟩ := by
    rw [current, Position.loan_zero, book_loan_now current]
    simp only [Position.pay, Position.seize, Position.interestPart, Position.principalPart,
      Loan.mk.injEq, true_and, Nat.sub_mul] at interest ⊢
    omega
  have covered : (x.position b).interestPart amount * DENOMINATOR ≤ ((book x).loan b).accrued := by
    rw [book_loan_now current]
    exact interest.trans (Nat.le_add_right ..)
  have move : LoanBook.Move 0 (book x) ⟨update (book x).loan b
      ((((x.position b).seize n).pay amount).loan (sinceSettled b x)),
      (book x).principal - (x.position b).principalPart amount,
      (book x).accrued - (x.position b).interestPart amount * DENOMINATOR, t.balanceOf x.self,
      (book x).active⟩ := by
    rw [loan, custody]
    exact .pay (book x) b _ _ n part covered kept
  refine ⟨rewritten.step h.toLocal (fun _ => minimum) h.count_eq closed bound
    (fun none => by rw [h.swept none, Nat.zero_sub]) move, rewritten.turn (fun a apart => ?_) ?_ ?_ ?_⟩
  · exact (told a).trans (by rw [if_neg (Ne.symm apart), Nat.add_zero])
  · exact Nat.sub_le ..
  · left
    have charge := congrArg Loan.accrued loan
    simp only at charge
    rw [charge, charged, show (unreleased x t log _).engine.log = log from rfl, told, if_pos rfl,
      Nat.add_mul]
    omega
  · rcases seized with none | taken
    · exact .inl (by simp [Position.pay, Position.seize, none])
    · exact .inr (.inr taken)

/-- The loan ends: it takes all its principal off the aggregate, and of the interest at most what it
owed itself, unless it was the last one. -/
theorem ended_moved (h : Good x) (current : sinceSettled b x = 0) (bound : x.engine.bound = true)
    (owes : (x.position b).principal ≠ 0) (within : n ≤ (x.position b).collateral)
    {t' : TokenLedger Address} {capital : VariablePool.World} {active : SwapPop Address} {G : ℕ}
    (removed : x.engine.active.remove b = some active)
    (step : CapitalStep (withSettlement f x.capital) capital
      (x.capital.pool.outstandingPrincipal - (x.position b).principal) G)
    (kept : active.members ≠ [] → owed x.capital ≤ G + (x.position b).interest * DENOMINATOR)
    (swept : active.members = [] → G = 0)
    (sent : t.balanceOf x.self + n = x.collateral.balanceOf x.self)
    (closed : ∀ a, t.allowance x.self a = 0) {log log' : List (ℕ × CreditEvent)}
    (taken : Option Address)
    (told : ∀ a, a ≠ b → interestRepaid a log = interestRepaid a x.engine.log) :
    Moved taken 0 x (unreleased x t log (rebooked b ⟨(x.position b).collateral - n, 0, 0, 0,
      (x.position b).updatedAt⟩ capital active active.members.length log'
      (released b n f t' x))) := by
  have custody : t.balanceOf x.self = x.collateral.balanceOf x.self - n := by omega
  have rewritten : Rewritten b ⟨(x.position b).collateral - n, 0, 0, 0, (x.position b).updatedAt⟩ _ _
      x (unreleased x t log (rebooked b ⟨(x.position b).collateral - n, 0, 0, 0,
        (x.position b).updatedAt⟩ capital active active.members.length log'
        (released b n f t' x))) :=
    { capital := step.unsettle
      cfg_eq := rfl
      integrals_eq := rfl
      others := fun a apart => by
        simp [unreleased, VariableEngine.dressed, rebooked, released, World.setPosition,
          World.position, apart]
      this := update_self ..
      entered_eq := rfl
      price_eq := rfl }
  have loan : (⟨(x.position b).collateral - n, 0, 0, 0, (x.position b).updatedAt⟩ :
      Position).loan (sinceSettled b x) = ⟨((book x).loan b).collateral - n, 0, 0⟩ := by
    simp only [current, Position.loan_zero, book_loan_now current, Nat.zero_mul, Nat.zero_add]
  have left : (∀ j, j ≠ b → ((book x).loan j).principal = 0) ∨
      (book x).accrued ≤ G + ((book x).loan b).accrued := by
    by_cases last : active.members = []
    · exact .inl (h.book_sound.alone removed last)
    · rw [book_loan_now current]
      exact .inr ((kept last).trans (Nat.add_le_add_left (Nat.le_add_right ..) _))
  have move : LoanBook.Move 0 (book x) ⟨update (book x).loan b
      ((⟨(x.position b).collateral - n, 0, 0, 0, (x.position b).updatedAt⟩ : Position).loan
        (sinceSettled b x)), (book x).principal - (x.position b).principal, G, t.balanceOf x.self,
      active⟩ := by
    rw [loan, custody]
    exact .close (book x) b n G active owes within removed left
  exact ⟨rewritten.step h.toLocal (fun owing => absurd rfl owing) rfl closed bound swept move,
    rewritten.turn told (Nat.zero_le _) (.inr ⟨owes, rfl⟩) (.inr (.inl rfl))⟩

theorem concluded_moved (h : Good x) (current : sinceSettled b x = 0)
    (bound : x.engine.bound = true) (positive : 0 < amount)
    (within : n ≤ (x.position b).collateral) (enough : amount ≤ (x.position b).debt)
    (meaningful : n = (x.position b).collateral ∨ amount = (x.position b).debt ∨
      amount + x.cfg.minimumDebt ≤ (x.position b).debt)
    {t' : TokenLedger Address} (concluded : Concluded b amount (released b n f t' x) z)
    (sent : t.balanceOf x.self + n = x.collateral.balanceOf x.self)
    (closed : ∀ a, t.allowance x.self a = 0) (log : List (ℕ × CreditEvent))
    (taken : Option Address) (seized : n = 0 ∨ taken = some b)
    (silent : ∀ a, interestRepaid a log = interestRepaid a z.engine.log) :
    Moved taken 0 x (unreleased x t log z) := by
  have owes : (x.position b).principal ≠ 0 := by
    rw [ne_eq, ← h.debt_eq_zero]
    omega
  cases concluded with
  | smaller capital log' told step left backed done =>
    rw [released_position] at left backed told
    change ((x.position b).pay amount).debt ≠ 0 at left
    change (x.position b).collateral - n ≠ 0 at backed
    have debt := Position.pay_debt enough
    subst done
    exact smaller_moved h current bound owes left (by omega) (by omega) step sent closed seized
      (fun a => (silent a).trans (told a))
  | ended capital active log' G told removed step kept swept all done =>
    rw [released_position] at step kept done
    subst done
    exact ended_moved h current bound owes within removed step kept swept sent closed taken
      (fun a apart => (silent a).trans (told a apart))

/-- What the conclusion leaves alone. -/
theorem Concluded.frame (h : Concluded b amount x z) :
    z.collateral = x.collateral ∧ z.self = x.self ∧ flags z = flags x ∧ Ready z.capital := by
  cases h with
  | smaller capital log told step left backed done =>
    have freeze := step.settlement_eq
    exact done ▸ ⟨rfl, congrArg VariablePool.Config.creditEngine step.cfg_eq,
      by simp only [flags, rebooked, freeze], step.ready⟩
  | ended capital active log G told removed step kept swept all done =>
    have freeze := step.settlement_eq
    exact done ▸ ⟨rfl, congrArg VariablePool.Config.creditEngine step.cfg_eq,
      by simp only [flags, rebooked, freeze], step.ready⟩

/-- A payment that releases no collateral. -/
theorem Concluded.moved (h : Concluded b amount x z) (hx : Good x) (current : sinceSettled b x = 0)
    (bound : x.engine.bound = true) (positive : 0 < amount) (within : amount ≤ (x.position b).debt)
    (meaningful : amount = (x.position b).debt ∨
      amount + x.cfg.minimumDebt ≤ (x.position b).debt) (taken : Option Address) :
    Moved taken 0 x z := by
  have step := concluded_moved (n := 0) (t := x.collateral) hx current bound positive (Nat.zero_le _)
    within (.inr meaningful) ((released_none b x).symm ▸ h) rfl hx.closed z.engine.log taken (.inl rfl)
    (fun _ => rfl)
  have freeze : z.capital.pool.liquidationSettlementActive =
      x.capital.pool.liquidationSettlementActive := congrArg (·.2.2) h.frame.2.2.1
  have same : unreleased x x.collateral z.engine.log z = z := by
    simp only [unreleased, VariableEngine.dressed, withSettlement, ← h.frame.1, ← freeze]
  exact same ▸ step

end Payment

/-! ### Repayment and closing -/

section Repay

variable {sender : Address} {maxAmount : ℕ}

/-- Once the payment has moved, `_finish` cannot fail. -/
theorem finish_paid (h : Good w) {amount : ℕ} (positive : 0 < amount)
    (within : amount ≤ (w.position b).debt) {v : World}
    (repaid : repayPosition sender b amount w = .ok v) :
    ∃ w', finish b v = .ok w' ∧ Concluded b amount w w' := by
  have owes : (w.position b).principal ≠ 0 := by
    rw [ne_eq, ← h.debt_eq_zero]
    omega
  obtain ⟨w', done, concluded⟩ := conclude (h.payable owes) within repaid
  obtain ⟨capital, rfl, -⟩ := repayPosition_ok h.ready repaid
  have backed : (w.position b).collateral ≠ 0 := Nat.ne_of_gt (h.book_sound.backed b owes)
  -- nothing was seized, so there is no shortfall to recognize
  have idle : recognizeShortfall b (paid b sender amount capital w) = .ok _ :=
    recognizeShortfall_idle (by
      rw [paid, rebooked_position]
      exact fun short => backed short.1)
  rw [idle, ok_bind] at done
  exact ⟨w', done, concluded⟩

/-- What a repayment for `b` comes to. -/
theorem repayUpTo_ok (h : Good w) {n : ℕ} (done : repayUpTo sender b maxAmount w = .ok (w', n)) :
    n = min maxAmount ((afterSettle b w).position b).debt ∧ 0 < n ∧ w.engine.bound = true ∧
      (n = ((afterSettle b w).position b).debt ∨
        n + w.cfg.minimumDebt ≤ ((afterSettle b w).position b).debt) ∧
      Concluded b n (afterSettle b w) w' := by
  simp only [repayUpTo, requirePool, bind_eq_ok, revertIf_eq_ok, exists_const, pure_eq_ok,
    Prod.mk.injEq, Bool.not_eq_false, settle_eq_ok h.ready.toSound] at done
  obtain ⟨bound, s, rfl, positive, meaningful, v, repaid, u, finished, rfl, rfl⟩ := done
  have within : min maxAmount ((afterSettle b w).position b).debt ≤
      ((afterSettle b w).position b).debt := min_le_right ..
  have positive := Nat.pos_of_ne_zero positive
  obtain ⟨w'', done, concluded⟩ := finish_paid (h.afterSettle b) positive within repaid
  rw [finished] at done
  obtain rfl := Except.ok.inj done
  refine ⟨rfl, positive, bound, ?_, concluded⟩
  change ¬(_ ∧ _ < w.cfg.minimumDebt) at meaningful
  omega

theorem repayUpTo_moved (h : Good w) {n : ℕ} (done : repayUpTo sender b maxAmount w = .ok (w', n))
    (taken : Option Address) : Moved taken 0 w w' := by
  obtain ⟨rfl, positive, bound, meaningful, concluded⟩ := repayUpTo_ok h done
  exact .of_settle (concluded.moved (h.afterSettle b) (sinceSettled_afterSettle b w) bound positive
    (min_le_right ..) meaningful taken)

theorem Step.entered {n : ℕ} (h : Step n w w') (entered : w.engine.entered = true) :
    w'.engine.entered = true :=
  (congrArg Prod.fst h.flags_eq).trans entered

theorem withdrawRest_moved (h : Good w) (entered : w.engine.entered = true) (freezes : Freezes hook)
    (none : (w.position sender).principal = 0) {recipient : Address}
    (done : withdrawRest hook sender recipient w = .ok w') (taken : Option Address) :
    Moved taken 0 w w' := by
  simp only [withdrawRest] at done
  split_ifs at done
  · obtain ⟨acted, principal, -⟩ := withdrawCollateralFor_acted h entered freezes done
    exact acted.moved taken principal.le (.inr (principal.trans none))
  · rw [pure_eq_ok] at done
    exact done ▸ h.moved_refl taken

theorem close_moved (h : Good w) (entered : w.engine.entered = true) (freezes : Freezes hook)
    {recipient : Address} {n : ℕ} (done : close hook sender maxAmount recipient w = .ok (w', n))
    (taken : Option Address) : Moved taken 0 w w' := by
  simp only [close, bind_eq_ok, revertIf_eq_ok, exists_const, pure_eq_ok, Prod.exists,
    Prod.mk.injEq, ne_eq, not_not] at done
  obtain ⟨v, m, repaid, debtless, u, rest, rfl, rfl⟩ := done
  have first := repayUpTo_moved h repaid taken
  have good := first.good h
  exact first.trans (withdrawRest_moved good (first.toStep.entered entered) freezes
    (good.debt_eq_zero.mp debtless) rest taken)

end Repay

/-! ### Liquidation -/

/-- A payment leaves nothing, or debt and collateral for a further one. -/
theorem liquidationQuote_ok {cfg : Config} {collateral debt value maxRepay paid seized : ℕ}
    (done : liquidationQuote cfg collateral debt value maxRepay = .ok (paid, seized)) :
    0 < paid ∧ paid ≤ debt ∧ seized ≤ collateral ∧
      (seized = collateral ∨ paid = debt ∨ paid + cfg.minimumDebt ≤ debt) := by
  simp only [liquidationQuote, bind_eq_ok, revertIf_eq_ok, exists_const, pure_eq_ok, Prod.exists,
    Prod.mk.injEq] at done
  obtain ⟨-, positive, p, s, chosen, -, rfl, rfl⟩ := done
  unfold seizure at chosen
  split_ifs at chosen with all
  · rw [pure_eq_ok, Prod.mk.injEq] at chosen
    omega
  · simp only [bind_eq_ok, pure_eq_ok, Prod.mk.injEq] at chosen
    obtain ⟨n, limited, rfl, rfl⟩ := chosen
    refine ⟨?_, ?_, min_le_left .., .inr ?_⟩ <;> unfold partialPayment at limited <;>
      split_ifs at limited with part
    all_goals
      simp only [bind_eq_ok, revertIf_eq_ok, exists_const, pure_eq_ok] at limited
      omega

section Liquidation

variable {sender : Address} {maxRepay minCollateral n m : ℕ} {v : World}

/-- The collateral is released from the settled state, priced by the stored valuation. -/
theorem releaseCollateral_ok (h : Ready w.capital)
    (done : releaseCollateral b maxRepay minCollateral w = .ok (v, n, m)) :
    w.engine.bound = true ∧ w.capital.pool.liquidationSettlementActive = false ∧
      (∃ value, price w = .ok value ∧ liquidationQuote w.cfg ((afterSettle b w).position b).collateral
        ((afterSettle b w).position b).debt value maxRepay = .ok (n, m)) ∧ minCollateral ≤ m ∧
      v = released b m true w.collateral (afterSettle b w) := by
  simp only [releaseCollateral, requirePool, bind_eq_ok, revertIf_eq_ok, exists_const, onPool_eq_ok,
    checkedSub_eq_ok, pure_eq_ok, Prod.exists, Prod.mk.injEq, Bool.not_eq_false, not_lt,
    settle_eq_ok h.toSound, VariablePool.beginLiquidationSettlement_eq_ok] at done
  obtain ⟨bound, s, rfl, value, priced, p, q, quoted, enough, x, ⟨capital, ⟨-, idle, rfl⟩, rfl⟩, left,
    ⟨-, rfl⟩, rfl, rfl, rfl⟩ := done
  exact ⟨bound, idle, ⟨value, priced, quoted⟩, enough, rfl⟩

/-- The payment, the shortfall and the end of the loan, on a state with the collateral released and
the pool frozen. -/
theorem settleLiquidation_ok {y : World} (h : Payable b y) (within : n ≤ (y.position b).debt)
    (done : settleLiquidation sender b n y = .ok v) : Concluded b n y v := by
  simp only [settleLiquidation, bind_eq_ok] at done
  obtain ⟨u, repaid, x, short, finished⟩ := done
  obtain ⟨w', done, concluded⟩ := conclude h within repaid
  rw [short, ok_bind, finished] at done
  exact Except.ok.inj done ▸ concluded

/-- Releasing collateral and freezing the pool changes nothing that a payment relies on. -/
theorem Good.payable_released (h : Good w) (owes : (w.position b).principal ≠ 0) {f : Bool}
    {t : TokenLedger Address} : Payable b (released b m f t w) := by
  have payable := h.payable owes
  have position := released_position (b := b) (n := m) (f := f) (t := t) (w := w)
  exact
    { ready := payable.ready.withSettlement f
      owes := position ▸ payable.owes
      principal_le := position ▸ payable.principal_le
      interest_le := position ▸ payable.interest_le
      wellFormed := payable.wellFormed
      listed := payable.listed
      count_eq := payable.count_eq
      alone := position ▸ payable.alone }

theorem endLiquidation_ok {u : World} (done : endLiquidation sender b n m u = .ok v) :
    v = dressed false ((u.now, .liquidated b sender n m) :: u.engine.log) u := by
  simp only [endLiquidation, bind_eq_ok, onPool_eq_ok, pure_eq_ok,
    VariablePool.endLiquidationSettlement_eq_ok] at done
  obtain ⟨x, ⟨capital, ⟨-, -, rfl⟩, rfl⟩, rfl⟩ := done
  rfl

theorem liquidate_moved (h : Good w) (entered : w.engine.entered = true) (freezes : Freezes hook)
    (done : liquidate hook sender b maxRepay minCollateral w = .ok w') : Moved (some b) 0 w w' := by
  simp only [liquidate, bind_eq_ok, Prod.exists] at done
  obtain ⟨v₀, n, m, release, v₁, settled, v₂, sent, last⟩ := done
  obtain ⟨bound, idle, ⟨value, -, quoted⟩, -, rfl⟩ := releaseCollateral_ok h.ready release
  obtain ⟨positive, within, seizable, meaningful⟩ := liquidationQuote_ok quoted
  have hs := h.afterSettle b
  have owes : ((afterSettle b w).position b).principal ≠ 0 := by
    rw [ne_eq, ← hs.debt_eq_zero]
    omega
  have concluded := settleLiquidation_ok (hs.payable_released owes)
    (by rw [released_position]; exact within) settled
  obtain ⟨collateral_eq, self_eq, flags_eq, ready⟩ := concluded.frame
  have calm : Calm v₁ := ⟨ready, fun a => by rw [collateral_eq, self_eq]; exact h.closed a⟩
  obtain ⟨t, frozen, left, exact, closed, -⟩ := sendCollateral_ok calm
    ((congrArg Prod.fst flags_eq).trans entered) freezes sent
  rw [self_eq, collateral_eq] at left
  obtain rfl := endLiquidation_ok last
  have step := concluded_moved hs (sinceSettled_afterSettle b w) bound positive seizable within
    meaningful concluded left (fun a => self_eq ▸ closed a)
    ((v₂.now, .liquidated b sender n m) :: v₂.engine.log) (some b) (.inr rfl)
    (fun a => (Nat.zero_add _).trans (congrArg (interestRepaid a) frozen.log_eq))
  rw [unreleased, show (afterSettle b w).capital.pool.liquidationSettlementActive = false from idle]
    at step
  exact .of_settle (step.trans ((frozen.dressed false _).moved_exact step.loc _ exact))

/-- What a payment relies on survives whatever foreign code does before it. -/
theorem Payable.frozen (h : Payable b w) (frozen : Frozen w v) : Payable b v where
  ready := frozen.capital.ready
  owes := by
    rw [frozen.position_eq]
    exact h.owes
  principal_le := by
    rw [frozen.position_eq, frozen.capital.principal_eq]
    exact h.principal_le
  interest_le := by
    rw [frozen.position_eq, frozen.capital.owed_eq]
    exact h.interest_le
  wellFormed := by
    rw [frozen.active_eq]
    exact h.wellFormed
  listed := by
    rw [frozen.active_eq]
    exact h.listed
  count_eq := by
    rw [frozen.count_eq, frozen.active_eq]
    exact h.count_eq
  alone := by
    rw [frozen.position_eq, frozen.active_eq, frozen.capital.principal_eq]
    exact h.alone

/-- The state before a payment, read as if the collateral `m` were still there. -/
def restored (s : World) (m : ℕ) (y : World) : World :=
  { y with
    capital := withSettlement s.capital.pool.liquidationSettlementActive y.capital
    collateral := y.collateral.mint y.self m
    engine := { y.engine with positions := s.engine.positions } }

theorem restored_frozen {s y : World} {t : TokenLedger Address}
    (left : t.balanceOf s.self + m = s.collateral.balanceOf s.self)
    (frozen : Frozen (released b m true t s) y) : Frozen s (restored s m y) where
  capital := frozen.capital.unsettle
  cfg_eq := frozen.cfg_eq
  positions_eq := rfl
  integrals_eq := frozen.integrals_eq
  active_eq := frozen.active_eq
  count_eq := frozen.count_eq
  entered_eq := frozen.entered_eq
  price_eq := frozen.price_eq
  log_eq := frozen.log_eq
  bound_le := frozen.bound_le
  custody_le := by
    have more := frozen.custody_le
    change t.balanceOf s.self ≤ y.collateral.balanceOf s.self at more
    change _ ≤ (y.collateral.mint y.self m).balanceOf s.self
    rw [show y.self = s.self from frozen.self_eq, TokenLedger.mint_self]
    omega
  closed := frozen.closed

theorem released_restored {s y : World} {t : TokenLedger Address}
    (frozen : Frozen (released b m true t s) y) :
    released b m true y.collateral (restored s m y) = y := by
  have freeze : y.capital.pool.liquidationSettlementActive = true := frozen.capital.settlement_eq
  have positions : update s.engine.positions b ((s.engine.positions b).seize m) =
      y.engine.positions := frozen.positions_eq.symm
  simp only [released, restored, World.setPosition, World.position, withSettlement, ← freeze,
    positions]

theorem liquidateWithCallback_moved (h : Good w) (entered : w.engine.entered = true)
    (freezes : Freezes hook) (freezes' : Freezes callback)
    (done : liquidateWithCallback hook callback sender b maxRepay minCollateral w = .ok w') :
    ∃ n, Moved (some b) n w w' ∧ (GivesNothing w.self callback → n = 0) := by
  simp only [liquidateWithCallback, bind_eq_ok, revertIf_eq_ok, exists_const, Prod.exists] at done
  obtain ⟨-, v₀, n, m, release, v₁, sent, y, called, v, settled, last⟩ := done
  obtain ⟨bound, idle, ⟨value, -, quoted⟩, -, rfl⟩ := releaseCollateral_ok h.ready release
  obtain ⟨positive, within, seizable, meaningful⟩ := liquidationQuote_ok quoted
  have hs := h.afterSettle b
  have idle : (afterSettle b w).capital.pool.liquidationSettlementActive = false := idle
  have bound : (afterSettle b w).engine.bound = true := bound
  have entered : (afterSettle b w).engine.entered = true := entered
  have current := sinceSettled_afterSettle b w
  suffices ∃ n, Moved (some b) n (afterSettle b w) w' ∧
      (GivesNothing (afterSettle b w).self callback → n = 0) by
    obtain ⟨n, step, none⟩ := this
    exact ⟨n, step.of_settle, none⟩
  rw [← afterSettle_collateral b w] at sent
  rw [← afterSettle_cfg b w] at meaningful
  generalize afterSettle b w = s at *
  have owes : (s.position b).principal ≠ 0 := by
    rw [ne_eq, ← hs.debt_eq_zero]
    omega
  -- what runs between the release and the payment leaves the released state as it is
  obtain ⟨t, first, left, exact, -⟩ := sendCollateral_ok
    (w := released b m true s.collateral s) ⟨hs.ready.withSettlement true, hs.closed⟩ entered
    freezes sent
  have second := freezes' _ _ first.calm (first.entered_eq.trans entered) called
  have frozen : Frozen (released b m true t s) y := first.trans second
  have left : t.balanceOf s.self + m = s.collateral.balanceOf s.self := left
  have before := restored_frozen left frozen
  have gx := (before.step hs.toLocal).good hs
  have payable := (hs.payable_released owes (m := m) (f := true) (t := t)).frozen frozen
  have concluded := settleLiquidation_ok payable (by
    rw [frozen.position_eq, released_position]
    exact within) settled
  rw [← released_restored frozen] at concluded
  obtain ⟨collateral_eq, self_eq, -⟩ := concluded.frame
  have position : (restored s m y).position b = s.position b := before.position_eq b
  obtain rfl := endLiquidation_ok last
  have step := concluded_moved (t := v.collateral) gx
    ((before.sinceSettled_eq b).trans current) (before.bound_le bound) positive
    (position ▸ seizable) (position ▸ within)
    (by rw [position, before.cfg_eq]; exact meaningful) concluded
    (by
      rw [collateral_eq]
      exact (TokenLedger.mint_self ..).symm)
    (by
      rw [collateral_eq]
      exact before.calm.closed)
    ((v.now, .liquidated b sender n m) :: v.engine.log) (some b) (.inr rfl) (fun a => Nat.zero_add _)
  rw [unreleased, before.capital.settlement_eq.trans idle] at step
  refine ⟨_, (before.moved hs.toLocal _).trans step, fun nothing => ?_⟩
  have same := nothing _ _ first.calm (first.entered_eq.trans entered) first.self_eq called
  have kept : y.self = s.self := frozen.self_eq
  have exact : v₁.collateral.balanceOf s.self = t.balanceOf s.self := exact
  change (y.collateral.mint y.self m).balanceOf s.self - s.collateral.balanceOf s.self + 0 = 0
  rw [kept, TokenLedger.mint_self]
  omega

end Liquidation

end Turret.VariableEngine
