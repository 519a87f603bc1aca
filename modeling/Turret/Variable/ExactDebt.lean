import Turret.Variable.PoolCheck

/-! Debt at a variable rate. While its principal stands, a position is charged
the principal times the rate in force each second, whoever settles what and
when; the pool's books cover what all positions are charged, its own check
refuses no call of the engine, and with the last loan it is owed nothing. -/

namespace Turret.VariableEngine

open Execution Rounding Function Finset
open VariablePool (owed currentRateIntegral)

variable {w w' : World} {a : Address}

/-- `interest * D + remainder` of the position of `a` as `_settle` would leave it now. -/
def upToDate (a : Address) (w : World) : ℕ :=
  (settled a (w.position a) w).interest * DENOMINATOR + (settled a (w.position a) w).remainder

theorem upToDate_eq (a : Address) (w : World) : upToDate a w = ((book w).loan a).accrued := by
  have exact := Position.loan_settled (w.position a) (sinceSettled a w) w.now
  exact (congrArg Loan.accrued (Position.loan_zero _)).symm.trans (congrArg Loan.accrued exact)

def Call.seconds (c : Call) : ℕ :=
  match c.op with
  | .capital (.elapse seconds) => seconds
  | _ => 0

/-- The sum of `borrowAprBps` over the seconds of a run from `w`. -/
def rateSeconds : List Call → World → ℕ
  | [], _ => 0
  | c :: cs, w =>
    c.seconds * w.capital.pool.borrowAprBps + rateSeconds cs (reached w (exec c w))

/-- A call that leaves the principal of `a` as it was. -/
def keepsPrincipal (a : Address) (w : World) (c : Call) (w' : World) : Prop :=
  accepts exec w c w' ∧ (w'.position a).principal = (w.position a).principal

theorem Call.seconds_of_still {c : Call} (still : c.op.isElapse = false) : c.seconds = 0 := by
  unfold Call.seconds
  split
  · rename_i elapses
    rw [elapses] at still
    cases still
  · rfl

/-- Only time charges a position: no call, payment or change of the rate reprices what has passed. -/
theorem exec_charged (h : Idle w) {c : Call} (done : keepsPrincipal a w c w') :
    charged a w' = charged a w +
      (w.position a).principal * (c.seconds * w.capital.pool.borrowAprBps) := by
  obtain ⟨done, same⟩ := done
  obtain ⟨away, -, v, ran, rfl⟩ := perform_ok done
  change charged a v = _
  change (v.position a).principal = _ at same
  by_cases elapses : c.op.isElapse = true
  · obtain ⟨seconds, op_eq, -, rfl⟩ := elapse_ok elapses ran
    have grown : (book _).loan a = ((book w).grow _).loan a :=
      congrArg (LoanBook.loan · a) (h.book_elapse seconds)
    rw [charged, grown, Call.seconds, op_eq]
    simp only [LoanBook.grow, charged]
    exact Nat.add_right_comm ..
  · rw [Bool.not_eq_true] at elapses
    rw [Call.seconds_of_still elapses, Nat.zero_mul, Nat.mul_zero, Nat.add_zero]
    by_cases approved : c.op.isApproved = true
    · obtain ⟨op, hook, callback⟩ := c
      cases op with
      | executeApproved sender approval signature =>
        exact (run_approved h.toGood h.free hook.run_freezes ran).1.charged_eq a
      | _ => cases approved
    · obtain ⟨n, moved, -⟩ := run_moved h.toGood h.free c.hook.run_freezes c.callback.run_freezes
        elapses (Bool.not_eq_true _ ▸ approved) away ran
      rcases (moved.turn a).charged_eq with kept | ⟨owes, ended⟩
      · exact kept
      · exact absurd (same.symm.trans ended) owes

theorem run_charged {calls : List Call} (h : Idle w) (run : Run (keepsPrincipal a) w calls w') :
    charged a w' = charged a w + (w.position a).principal * rateSeconds calls w := by
  induction run with
  | nil => rw [rateSeconds, Nat.mul_zero, Nat.add_zero]
  | @cons s t u c cs first rest ih =>
    have idle := h.exec first.1
    rw [ih idle, exec_charged h first, first.2, rateSeconds,
      show reached s (exec c s) = t by rw [show exec c s = .ok t from first.1]; rfl, Nat.mul_add,
      Nat.add_assoc]

/-- The exact debt of every position, between any two states of a run. -/
theorem reachable_exact_debt (h : Reachable w) :
    (∀ a calls w', Run (keepsPrincipal a) w calls w' →
      upToDate a w' + interestRepaid a w'.engine.log * DENOMINATOR =
        upToDate a w + interestRepaid a w.engine.log * DENOMINATOR +
          (w.position a).principal * rateSeconds calls w) ∧
    w.capital.pool.outstandingPrincipal = ∑ a, (w.position a).principal ∧
    ∑ a, upToDate a w ≤
      (VariablePool.accrue w.capital).pool.interestReceivable * DENOMINATOR +
        (VariablePool.accrue w.capital).pool.interestRemainder ∧
    (∀ c : Call, (∀ o, c.op ≠ .capital o) → exec c w ≠ .error (.pool .invalidAmount)) ∧
    (w.engine.activeDebtPositions = 0 → w.capital.pool.outstandingPrincipal = 0 ∧
      w.capital.pool.interestReceivable = 0 ∧ w.capital.pool.interestRemainder = 0) := by
  have idle := h.idle
  have good := idle.toGood
  refine ⟨fun a calls w' run => ?_, good.book_sound.reconciled.principal_sum.symm, ?_,
    fun c engineCall => exec_ne_invalid good engineCall, fun none => ?_⟩
  · rw [upToDate_eq, upToDate_eq]
    exact run_charged idle run
  · simp only [upToDate_eq]
    exact good.book_sound.reconciled.interest_le.trans (VariablePool.owed_of_accrue _).ge
  · have empty : w.engine.active.members = [] :=
      List.eq_nil_of_length_eq_zero (good.count_eq.symm.trans none)
    have nothing := good.swept empty
    have positive := DENOMINATOR_pos
    simp only [owed, Nat.add_eq_zero_iff, Nat.mul_eq_zero] at nothing
    have receivable : w.capital.pool.interestReceivable = 0 :=
      nothing.1.1.resolve_right (Nat.ne_of_gt VariablePool.denominator_pos)
    exact ⟨(good.book_sound.idle empty).1, receivable, nothing.1.2⟩

/-- One USDG on the interest of the sample's borrower. -/
def samplePayment : Call := plain (.repay 4 3 (10 ^ 6))

def samplePaid : World := reached sample (exec samplePayment sample)

theorem samplePaid_run : Run (keepsPrincipal 3) sample [samplePayment] samplePaid :=
  .single ⟨eq_ok_reached _ (by decide +kernel), by decide +kernel⟩

theorem sample_exact_debt :
    upToDate 3 samplePaid + interestRepaid 3 samplePaid.engine.log * DENOMINATOR =
      upToDate 3 sample + interestRepaid 3 sample.engine.log * DENOMINATOR +
        (sample.position 3).principal * rateSeconds [samplePayment] sample :=
  (reachable_exact_debt sample_reachable).1 3 [samplePayment] samplePaid samplePaid_run

/-- A payment that covers part of the interest leaves the principal, and lowers what is owed. -/
theorem interest_payment_lowers_debt :
    ¬∀ w a calls w', Reachable w → Run (keepsPrincipal a) w calls w' →
      upToDate a w' = upToDate a w + (w.position a).principal * rateSeconds calls w := by
  intro grows
  have same := grows sample 3 [samplePayment] samplePaid sample_reachable samplePaid_run
  revert same
  decide +kernel

end Turret.VariableEngine
