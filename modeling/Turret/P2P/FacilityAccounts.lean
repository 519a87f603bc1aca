import Turret.P2P.FacilityCalls
import Turret.P2P.SplitDraws

/-! The counters of a facility against its loans and against the cash that went
through it, over every run; and, where nobody takes tokens away from outside, the
tokens against the counters. -/

namespace Turret.LenderFacility

open Execution Function Finset

variable {w w' : World} {op : Op} {id : ℕ}

/-! ### Principal by the state of its loan -/

def Loan.lent (l : Loan) : ℕ := if l.status = .active then l.principal else 0

def Loan.unresolved (l : Loan) : ℕ :=
  if l.status = .defaulted ∧ l.defaultAcknowledged = false then l.principal else 0

def Loan.acknowledged (l : Loan) : ℕ :=
  if l.status = .defaulted ∧ l.defaultAcknowledged = true then l.principal else 0

/-- The sum of a field over the numbered loans. -/
def Facility.total (g : Loan → ℕ) (f : Facility) : ℕ := ∑ id ∈ range f.nextLoanId, g (f.loans id)

/-- The counters of the principal, and what is true of a loan by its status. -/
structure Counted (f : Facility) : Prop where
  lent : f.total Loan.lent = f.activePrincipal
  unresolved : f.total Loan.unresolved = f.unresolvedDefaultPrincipal
  acknowledged : f.total Loan.acknowledged = f.acknowledgedDefaultPrincipal
  numbered : ∀ id, (f.loans id).status ≠ .none → id < f.nextLoanId
  judged : ∀ id, (f.loans id).defaultAcknowledged = true → (f.loans id).status = .defaulted
  owing : ∀ id, (f.loans id).status = .none ∨ (f.loans id).status = .active →
    (f.loans id).lenderCredit = 0 ∧ (f.loans id).feeCredit = 0 ∧ (f.loans id).collateralCredit = 0

variable {f f' : Facility} {l : Loan}

/-- A change of one numbered loan, with the counters it moves. -/
theorem Counted.replace (h : Counted f) (loans : f'.loans = update f.loans id l)
    (next : f'.nextLoanId = f.nextLoanId) (below : id < f.nextLoanId)
    (lent : f'.activePrincipal + (f.loans id).lent = f.activePrincipal + l.lent)
    (unresolved : f'.unresolvedDefaultPrincipal + (f.loans id).unresolved =
      f.unresolvedDefaultPrincipal + l.unresolved)
    (acknowledged : f'.acknowledgedDefaultPrincipal + (f.loans id).acknowledged =
      f.acknowledgedDefaultPrincipal + l.acknowledged)
    (judged : l.defaultAcknowledged = true → l.status = .defaulted)
    (owing : l.status = .none ∨ l.status = .active →
      l.lenderCredit = 0 ∧ l.feeCredit = 0 ∧ l.collateralCredit = 0) : Counted f' := by
  have moved := fun g : Loan → ℕ => sum_range_update g f.loans below l
  have total : ∀ g, f'.total g + g (f.loans id) = f.total g + g l := fun g => by
    rw [Facility.total, loans, next]
    exact moved g
  have each : ∀ other, f'.loans other = if other = id then l else f.loans other := fun other => by
    rw [loans, update_apply]
  constructor
  · have := total Loan.lent
    rw [h.lent] at this
    omega
  · have := total Loan.unresolved
    rw [h.unresolved] at this
    omega
  · have := total Loan.acknowledged
    rw [h.acknowledged] at this
    omega
  · intro other some_
    rw [next]
    by_cases here : other = id
    · exact here ▸ below
    · rw [each, if_neg here] at some_
      exact h.numbered other some_
  · intro other
    rw [each]
    split_ifs
    · exact judged
    · exact h.judged other
  · intro other
    rw [each]
    split_ifs
    · exact owing
    · exact h.owing other

/-- A change of a loan's credits or dates only. -/
theorem Counted.keep (h : Counted f) (loans : f'.loans = update f.loans id l)
    (next : f'.nextLoanId = f.nextLoanId) (below : id < f.nextLoanId)
    (lent : f'.activePrincipal = f.activePrincipal)
    (unresolved : f'.unresolvedDefaultPrincipal = f.unresolvedDefaultPrincipal)
    (acknowledged : f'.acknowledgedDefaultPrincipal = f.acknowledgedDefaultPrincipal)
    (status : l.status = (f.loans id).status) (principal : l.principal = (f.loans id).principal)
    (judgement : l.defaultAcknowledged = (f.loans id).defaultAcknowledged)
    (owing : (f.loans id).lenderCredit = 0 ∧ (f.loans id).feeCredit = 0 ∧
      (f.loans id).collateralCredit = 0 →
      l.lenderCredit = 0 ∧ l.feeCredit = 0 ∧ l.collateralCredit = 0) : Counted f' := by
  refine h.replace loans next below ?_ ?_ ?_ ?_ ?_
  · simp only [lent, Loan.lent, status, principal]
  · simp only [unresolved, Loan.unresolved, status, principal, judgement]
  · simp only [acknowledged, Loan.acknowledged, status, principal, judgement]
  · rw [judgement, status]
    exact h.judged id
  · rw [status]
    exact fun early => owing (h.owing id early)

/-- A loan that owes anything has ended. -/
theorem Counted.ended_of_owing (h : Counted f)
    (some_ : (f.loans id).lenderCredit ≠ 0 ∨ (f.loans id).feeCredit ≠ 0 ∨
      (f.loans id).collateralCredit ≠ 0) :
    (f.loans id).status ≠ .none ∧ (f.loans id).status ≠ .active := by
  by_contra early
  obtain ⟨lender, fee, collateral⟩ := h.owing id (by tauto)
  tauto

theorem Counted.ended (h : Counted w.facility)
    (some_ : (w.loan id).lenderCredit ≠ 0 ∨ (w.loan id).feeCredit ≠ 0 ∨
      (w.loan id).collateralCredit ≠ 0) :
    (w.loan id).status ≠ .none ∧ (w.loan id).status ≠ .active :=
  h.ended_of_owing some_

theorem Counted.numbered_of_owing (h : Counted f)
    (some_ : (f.loans id).lenderCredit ≠ 0 ∨ (f.loans id).feeCredit ≠ 0 ∨
      (f.loans id).collateralCredit ≠ 0) : id < f.nextLoanId :=
  h.numbered id (h.ended_of_owing some_).1

theorem Counted.opens (h : Counted f) (sender vault : Address)
    (principal collateral interest dueAt : ℕ)
    (loans : f'.loans = update f.loans f.nextLoanId (opened sender vault principal collateral
      interest dueAt (f.loans f.nextLoanId)))
    (next : f'.nextLoanId = f.nextLoanId + 1)
    (lent : f'.activePrincipal = f.activePrincipal + principal)
    (unresolved : f'.unresolvedDefaultPrincipal = f.unresolvedDefaultPrincipal)
    (acknowledged : f'.acknowledgedDefaultPrincipal = f.acknowledgedDefaultPrincipal) :
    Counted f' := by
  have fresh : (f.loans f.nextLoanId).status = .none := by
    by_contra some_
    exact (h.numbered _ some_).false
  have unjudged : ¬(f.loans f.nextLoanId).defaultAcknowledged = true := fun judged =>
    nomatch fresh.symm.trans (h.judged _ judged)
  have total : ∀ g, f'.total g = f.total g + g (opened sender vault principal collateral interest
      dueAt (f.loans f.nextLoanId)) := fun g => by
    rw [Facility.total, loans, next]
    exact sum_range_update_next ..
  have each : ∀ other, f'.loans other = if other = f.nextLoanId then _ else f.loans other :=
    fun other => by rw [loans, update_apply]
  constructor
  · rw [total, h.lent, lent]
    simp [Loan.lent, opened]
  · rw [total, h.unresolved, unresolved]
    simp [Loan.unresolved, opened]
  · rw [total, h.acknowledged, acknowledged]
    simp [Loan.acknowledged, opened]
  · intro other some_
    rw [next]
    by_cases here : other = f.nextLoanId
    · omega
    · rw [each, if_neg here] at some_
      exact (h.numbered other some_).trans (Nat.lt_succ_self _)
  · intro other
    rw [each]
    split_ifs
    · exact fun judged => absurd judged unjudged
    · exact h.judged other
  · intro other
    rw [each]
    split_ifs
    · exact fun _ => h.owing f.nextLoanId (.inl fresh)
    · exact h.owing other

theorem availableRepayment_le (id : ℕ) (w : World) :
    availableRepayment id w ≤ (w.loan id).lenderCredit := by
  simp only [availableRepayment]
  split_ifs with zero
  · exact Nat.zero_le _
  · exact min_le_left ..

theorem availableFee_le (id : ℕ) (w : World) : availableFee id w ≤ (w.loan id).feeCredit := by
  simp only [availableFee]
  split_ifs
  · exact Nat.zero_le _
  · exact Nat.zero_le _
  · exact min_le_left ..

theorem availableCollateral_le (id : ℕ) (w : World) :
    availableCollateral id w ≤ (w.loan id).collateralCredit := by
  simp only [availableCollateral]
  split_ifs with zero
  · exact Nat.zero_le _
  · exact min_le_left ..

theorem Counted.unjudged (h : Counted f) (active : (f.loans id).status = .active) :
    (f.loans id).defaultAcknowledged = false :=
  Bool.eq_false_iff.mpr fun judged => nomatch active.symm.trans (h.judged id judged)

theorem Counted.numbered_of_status (h : Counted f) {status : Status}
    (is : (f.loans id).status = status) (some_ : status ≠ .none) : id < f.nextLoanId :=
  h.numbered id (is ▸ some_)

/-- Every call keeps the counters. -/
theorem Accepted.counted (h : Accepted w op w') (counted : Counted w.facility) :
    Counted w'.facility := by
  cases h with
  | draw sender vault quote signature principal maxCollateral maxInterest minRemainingCapacity
      collateral interest c t =>
    exact counted.opens sender vault principal collateral interest _ rfl rfl rfl rfl rfl
  | repay sender id t active inTime covered pulled =>
    change (w.facility.loans id).status = .active at active
    have unjudged := counted.unjudged active
    refine counted.replace rfl rfl (counted.numbered_of_status active (by decide)) ?_ ?_ ?_ ?_ ?_
    · simp only [World.loan] at covered
      simp only [setLoan, Loan.lent, repaid, World.loan, active, if_true, reduceCtorEq, if_false]
      omega
    · simp [setLoan, Loan.unresolved, repaid, World.loan, active]
    · simp [setLoan, Loan.acknowledged, repaid, World.loan, active]
    · intro judged
      exact absurd (judged.symm.trans unjudged) (by simp)
    · simp [repaid]
  | claimDefault id active late covered =>
    change (w.facility.loans id).status = .active at active
    have unjudged := counted.unjudged active
    refine counted.replace rfl rfl (counted.numbered_of_status active (by decide)) ?_ ?_ ?_ ?_ ?_
    · simp only [World.loan] at covered
      simp only [setLoan, Loan.lent, defaulted, World.loan, active, if_true, reduceCtorEq, if_false]
      omega
    · simp [setLoan, Loan.unresolved, defaulted, World.loan, active, unjudged]
    · simp [setLoan, Loan.acknowledged, defaulted, World.loan, active, unjudged]
    · exact fun _ => rfl
    · simp [defaulted]
  | acknowledgeDefault id ended first covered =>
    change (w.facility.loans id).status = .defaulted at ended
    change (w.facility.loans id).defaultAcknowledged = false at first
    refine counted.replace rfl rfl (counted.numbered_of_status ended (by decide)) ?_ ?_ ?_ ?_ ?_
    · simp [setLoan, Loan.lent, World.loan, ended]
    · simp only [World.loan] at covered
      simp [setLoan, Loan.unresolved, World.loan, ended, first]
      omega
    · simp [setLoan, Loan.acknowledged, World.loan, ended, first]
    · exact fun _ => ended
    · simp [World.loan, ended]
  | recycleRepayment id t sent =>
    have some_ := (P2PVault.transferTo_eq_ok.mp sent).1.1
    have le := availableRepayment_le id w
    have owed : (w.facility.loans id).lenderCredit ≠ 0 := by
      simp only [World.loan] at le
      omega
    refine counted.keep rfl rfl (counted.numbered_of_owing (.inl owed)) rfl rfl rfl rfl rfl rfl ?_
    exact fun zero => absurd zero.1 owed
  | withdrawRepayment id amount recipient t le away sent =>
    have some_ := (P2PVault.transferTo_eq_ok.mp sent).1.1
    have le' := availableRepayment_le id w
    have owed : (w.facility.loans id).lenderCredit ≠ 0 := by
      simp only [World.loan] at le'
      omega
    refine counted.keep rfl rfl (counted.numbered_of_owing (.inl owed)) rfl rfl rfl rfl rfl rfl ?_
    exact fun zero => absurd zero.1 owed
  | collectFee id t sent =>
    have some_ := (P2PVault.transferTo_eq_ok.mp sent).1.1
    have le := availableFee_le id w
    have owed : (w.facility.loans id).feeCredit ≠ 0 := by
      simp only [World.loan] at le
      omega
    refine counted.keep rfl rfl (counted.numbered_of_owing (.inr (.inl owed))) rfl rfl rfl rfl rfl
      rfl ?_
    exact fun zero => absurd zero.2.1 owed
  | withdrawCollateral id amount recipient c le away sent =>
    have some_ := (P2PVault.transferTo_eq_ok.mp sent).1.1
    have le' := availableCollateral_le id w
    have owed : (w.facility.loans id).collateralCredit ≠ 0 := by
      simp only [World.loan] at le'
      omega
    refine counted.keep rfl rfl (counted.numbered_of_owing (.inr (.inr owed))) rfl rfl rfl rfl rfl
      rfl ?_
    exact fun zero => absurd zero.2.2 owed
  | writeOffRepayment id short =>
    have owed : (w.facility.loans id).lenderCredit ≠ 0 := Nat.ne_of_gt (Nat.zero_lt_of_lt short)
    refine counted.keep rfl rfl (counted.numbered_of_owing (.inl owed)) rfl rfl rfl rfl rfl rfl ?_
    exact fun zero => absurd zero.1 owed
  | writeOffCollateral id short =>
    have owed : (w.facility.loans id).collateralCredit ≠ 0 :=
      Nat.ne_of_gt (Nat.zero_lt_of_lt short)
    refine counted.keep rfl rfl (counted.numbered_of_owing (.inr (.inr owed))) rfl rfl rfl rfl rfl
      rfl ?_
    exact fun zero => absurd zero.2.2 owed
  | acceptExtension sender id party other active =>
    change (w.facility.loans id).status = .active at active
    exact counted.keep rfl rfl (counted.numbered_of_status active (by decide)) rfl rfl rfl rfl rfl rfl
      fun zero => zero
  | setPolicy | setNewLoansPaused | cancelQuote | deposit | withdrawIdle | withdrawSurplus
  | acknowledgeIdleLoss | proposeExtension | cancelExtension | outside =>
    exact ⟨counted.lent, counted.unresolved, counted.acknowledged, counted.numbered, counted.judged,
      counted.owing⟩

/-- A part of a counter is no more than the counter. -/
theorem Facility.le_total (g : Loan → ℕ) (below : id < f.nextLoanId) : g (f.loans id) ≤ f.total g :=
  single_le_sum (f := fun id => g (f.loans id)) (fun _ _ => Nat.zero_le _) (mem_range.mpr below)

theorem Counted.principal_le (h : Counted f) (active : (f.loans id).status = .active) :
    (f.loans id).principal ≤ f.activePrincipal := by
  have part := Facility.le_total Loan.lent (h.numbered_of_status active nofun)
  rwa [h.lent, Loan.lent, if_pos active] at part

theorem Counted.unresolved_le (h : Counted f) (ended : (f.loans id).status = .defaulted)
    (first : (f.loans id).defaultAcknowledged = false) :
    (f.loans id).principal ≤ f.unresolvedDefaultPrincipal := by
  have part := Facility.le_total Loan.unresolved (h.numbered_of_status ended nofun)
  rwa [h.unresolved, Loan.unresolved, if_pos ⟨ended, first⟩] at part

/-! ### Cash in and out -/

/-- The cash that came into the idle cash and that left it. -/
structure Flow where
  deposited : ℕ
  recycled : ℕ
  withdrawn : ℕ
  drawn : ℕ

def noFlow : Flow := ⟨0, 0, 0, 0⟩

def Flow.add (a b : Flow) : Flow :=
  ⟨a.deposited + b.deposited, a.recycled + b.recycled, a.withdrawn + b.withdrawn, a.drawn + b.drawn⟩

def flow (w : World) : Op → Flow
  | .deposit _ amount => { noFlow with deposited := amount }
  | .recycleRepayment id => { noFlow with recycled := availableRepayment id w }
  | .withdrawIdle _ amount _ => { noFlow with withdrawn := amount }
  | .draw _ _ _ _ principal _ _ _ => { noFlow with drawn := principal }
  | _ => noFlow

/-- What the calls of a run moved, in all. -/
def tally : List Op → World → Flow
  | [], _ => noFlow
  | op :: ops, w =>
    match exec op w with
    | .ok w' => (flow w op).add (tally ops w')
    | .error _ => noFlow

theorem Accepted.conserves (h : Accepted w op w') :
    w.facility.idleCash + w.facility.idleCashWrittenOff + (flow w op).deposited +
        (flow w op).recycled =
      w'.facility.idleCash + w'.facility.idleCashWrittenOff + (flow w op).withdrawn +
        (flow w op).drawn := by
  cases h with
  | deposit | recycleRepayment =>
    simp only [flow, noFlow, setLoan]
    omega
  | withdrawIdle amount recipient t le =>
    simp only [flow, noFlow]
    omega
  | acknowledgeIdleLoss lost =>
    simp only [flow, noFlow]
    omega
  | draw sender vault quote signature principal maxCollateral maxInterest minRemainingCapacity
      collateral interest c t admitted =>
    have funded := admitted.funded
    simp only [flow, noFlow, drawn, setLoan, setUse]
    omega
  | _ => rfl

theorem run_conserves {ops : List Op} (run : Run (accepts exec) w ops w') :
    w.facility.idleCash + w.facility.idleCashWrittenOff + (tally ops w).deposited +
        (tally ops w).recycled =
      w'.facility.idleCash + w'.facility.idleCashWrittenOff + (tally ops w).withdrawn +
        (tally ops w).drawn := by
  induction run with
  | nil => rfl
  | @cons u v x op ops first _ ih =>
    have one := (exec_accepted first).conserves
    have step : tally (op :: ops) u = (flow u op).add (tally ops v) := by
      rw [tally, show exec op u = .ok v from first]
    simp only [step, Flow.add]
    omega

/-! ### No call fails on arithmetic -/

/-- A standing proposal is for a later deadline. -/
def Dated (f : Facility) : Prop :=
  ∀ id, (f.extensions id).proposer ≠ 0 → (f.extensions id).oldDeadline < (f.extensions id).newDeadline

theorem Accepted.dated (h : Accepted w op w') (dated : Dated w.facility) : Dated w'.facility := by
  cases h with
  | proposeExtension sender id newDeadline expiresAt party active later =>
    intro other standing
    by_cases here : other = id
    · subst here
      simp only [update_self]
      exact later
    · simp only [update_of_ne here] at standing ⊢
      exact dated other standing
  | cancelExtension id | acceptExtension sender id =>
    intro other standing
    by_cases here : other = id
    · subst here
      simp [clearExtension, noExtension] at standing
    · simp only [clearExtension, setLoan, update_of_ne here] at standing ⊢
      exact dated other standing
  | _ => exact dated

theorem onLoanToken_ne_panic
    {g : TokenLedger Address → Except P2PVault.TransferError (TokenLedger Address)} :
    onLoanToken g w ≠ .error .panic := by
  simp [onLoanToken]

theorem onCollateralToken_ne_panic
    {g : TokenLedger Address → Except P2PVault.TransferError (TokenLedger Address)} :
    onCollateralToken g w ≠ .error .panic := by
  simp [onCollateralToken]

theorem sendCash_ne_panic {recipient : Address} {amount : ℕ} :
    sendCash recipient amount w ≠ .error .panic := by
  simp [sendCash, bind_ne_error, onLoanToken_ne_panic]

theorem checkQuote_ne_panic {sender : Address} {quote : Quote} {principal : ℕ} :
    checkQuote sender quote principal w ≠ .error .panic := by
  simp [checkQuote, quoteTerms, bind_ne_error]

theorem draw_ne_panic {sender vault : Address} {quote : Quote} {signature : Signature}
    {principal maxCollateral maxInterest minRemainingCapacity : ℕ} :
    draw sender vault quote signature principal maxCollateral maxInterest minRemainingCapacity w ≠
      .error .panic := by
  simp [draw, bind_ne_error, checkQuote_ne_panic, onCollateralToken_ne_panic, sendCash_ne_panic]

theorem repay_ne_panic (counted : Counted w.facility) (sound : w.facility.book.Sound)
    (sender : Address) (id : ℕ) : repay sender id w ≠ .error .panic := by
  simp only [repay, bind_ne_error, revertIf_eq_ok, revertIf_eq_error, checkedSub_eq_ok,
    checkedSub_eq_error, Uint256.checkedAdd_eq_ok, Uint256.checkedAdd_eq_error, reduceCtorEq,
    and_false, not_false_eq_true, true_and, ne_eq, not_not, and_true, not_lt, not_le]
  intro _ active _ _
  have covered := counted.principal_le active
  have fits : (w.loan id).principal + (w.loan id).interest < Uint256.MODULUS :=
    sound.fits id (by rw [show (w.facility.book.loan id).status = _ from active]; decide)
  have fee : Rounding.mulDiv (w.loan id).interest w.cfg.feeBps 10000 ≤ (w.loan id).interest :=
    Rounding.mulDiv_le_self w.cfg.fee_le _
  refine ⟨covered, fun _ _ => ⟨fits, fun owed sum => ⟨?_, fun _ _ => onLoanToken_ne_panic⟩⟩⟩
  have := sum.2
  omega

theorem exec_ne_panic (counted : Counted w.facility) (sound : w.facility.book.Sound)
    (dated : Dated w.facility) (op : Op) : exec op w ≠ .error .panic := by
  cases op with
  | repay sender id => exact repay_ne_panic counted sound sender id
  | claimDefault id =>
    simp only [exec, claimDefault, bind_ne_error, revertIf_eq_ok, revertIf_eq_error,
      checkedSub_eq_error, reduceCtorEq, and_false, not_false_eq_true, true_and, ne_eq, not_not,
      and_true, not_lt, pure_ne_error]
    exact fun _ active _ _ => ⟨counted.principal_le active, fun _ _ => trivial⟩
  | acknowledgeDefault sender id =>
    simp only [exec, acknowledgeDefault, onlyLender, bind_ne_error, revertIf_eq_ok,
      revertIf_eq_error, checkedSub_eq_error, reduceCtorEq, and_false, not_false_eq_true, true_and,
      ne_eq, not_not, and_true, not_lt, pure_ne_error, not_or, Bool.not_eq_true]
    exact fun _ _ _ ended => ⟨counted.unresolved_le ended.1 ended.2.1, fun _ _ => trivial⟩
  | acceptExtension sender id nonce oldDeadline newDeadline expiresAt =>
    simp only [exec, acceptExtension, bind_ne_error, revertIf_eq_ok, revertIf_eq_error,
      checkedSub_eq_error, reduceCtorEq, and_false, not_false_eq_true, true_and, ne_eq, not_not,
      and_true, not_lt, pure_ne_error, not_or]
    rintro _ _ _ _ _ ⟨standing, -, old, new, -, -, -, current⟩
    have later := dated id standing
    exact ⟨by omega, fun _ _ => trivial⟩
  | draw =>
    simp only [exec, ne_eq, map_eq_error]
    exact draw_ne_panic
  | _ =>
    simp [exec, setPolicy, setNewLoansPaused, cancelQuote, deposit, withdrawIdle, withdrawSurplus,
      acknowledgeIdleLoss, recycleRepayment, withdrawRepayment, collectFee, withdrawCollateral,
      writeOffRepayment, writeOffCollateral, proposeExtension, cancelExtension, onlyLender,
      validateLimits, bind_ne_error, onLoanToken_ne_panic, onCollateralToken_ne_panic,
      sendCash_ne_panic]

/-! ### The tokens behind the counters -/

/-- The facility and the vaults of its loans. -/
def Holds (a : Address) (w : World) : Prop :=
  a = w.cfg.self ∨ ∃ id, (w.loan id).status ≠ .none ∧ a = (w.loan id).vault

/-- What the call takes for granted where no token is taken away from outside: the facility and its
vaults call nobody, a new vault is new, and none of their balances is lowered by others. -/
def Undisturbed (w : World) : Op → Prop
  | .deposit sender _ | .repay sender _ => ¬Holds sender w
  | .draw sender vault _ _ _ _ _ _ => ¬Holds sender w ∧ ¬Holds vault w ∧ sender ≠ vault
  | .outside loanToken collateralToken _ _ => ∀ a, Holds a w →
    w.loanToken.balanceOf a ≤ loanToken.balanceOf a ∧
      w.collateralToken.balanceOf a ≤ collateralToken.balanceOf a
  | _ => True

/-- The collateral a loan's vault has to hold. -/
def Loan.pledged (l : Loan) : ℕ :=
  if l.status = .active then l.collateralAmount else l.collateralCredit

/-- The idle cash is there, and every vault covers what its loan owes. -/
structure Backed (w : World) : Prop where
  idle : w.facility.idleCash ≤ cash w
  owed : ∀ id, (w.loan id).status ≠ .none →
    (w.loan id).lenderCredit + (w.loan id).feeCredit ≤ w.loanToken.balanceOf (w.loan id).vault
  pledged : ∀ id, (w.loan id).status ≠ .none →
    (w.loan id).pledged ≤ w.collateralToken.balanceOf (w.loan id).vault

/-- Every loan has a vault of its own. -/
structure Apart (w : World) : Prop where
  self : ∀ id, (w.loan id).status ≠ .none → (w.loan id).vault ≠ w.cfg.self
  vaults : ∀ id other, (w.loan id).status ≠ .none → (w.loan other).status ≠ .none → id ≠ other →
    (w.loan id).vault ≠ (w.loan other).vault

/-- A call that leaves the loans, and takes nothing from their vaults. -/
theorem Backed.same (backed : Backed w) (apart : Apart w)
    (loans : w'.facility.loans = w.facility.loans) (cfg : w'.cfg = w.cfg)
    (idle : w'.facility.idleCash ≤ cash w')
    (kept : ∀ id, (w.loan id).status ≠ .none →
      w.loanToken.balanceOf (w.loan id).vault ≤ w'.loanToken.balanceOf (w.loan id).vault ∧
      w.collateralToken.balanceOf (w.loan id).vault ≤
        w'.collateralToken.balanceOf (w.loan id).vault) : Apart w' ∧ Backed w' := by
  have each : ∀ id, w'.loan id = w.loan id := fun id => congrFun loans id
  refine ⟨⟨fun id => ?_, fun id other => ?_⟩, ⟨idle, fun id => ?_, fun id => ?_⟩⟩
  · rw [each, cfg]
    exact apart.self id
  · rw [each, each]
    exact apart.vaults id other
  · rw [each]
    exact fun some_ => (backed.owed id some_).trans (kept id some_).1
  · rw [each]
    exact fun some_ => (backed.pledged id some_).trans (kept id some_).2

/-- A call that rewrites one loan, whose vault covers it afterwards, and takes nothing from the other
vaults. -/
theorem Backed.change (backed : Backed w) (apart : Apart w)
    (loans : w'.facility.loans = update w.facility.loans id l) (cfg : w'.cfg = w.cfg)
    (vault : l.vault = (w.loan id).vault) (opened : (w.loan id).status ≠ .none)
    (idle : w'.facility.idleCash ≤ cash w')
    (owed : l.lenderCredit + l.feeCredit ≤ w'.loanToken.balanceOf (w.loan id).vault)
    (pledged : l.pledged ≤ w'.collateralToken.balanceOf (w.loan id).vault)
    (kept : ∀ other, (w.loan other).status ≠ .none →
      (w.loan other).vault ≠ (w.loan id).vault →
      w.loanToken.balanceOf (w.loan other).vault ≤ w'.loanToken.balanceOf (w.loan other).vault ∧
      w.collateralToken.balanceOf (w.loan other).vault ≤
        w'.collateralToken.balanceOf (w.loan other).vault) : Apart w' ∧ Backed w' := by
  have each : ∀ other, w'.loan other = if other = id then l else w.loan other := fun other => by
    rw [World.loan, loans, update_apply]
    rfl
  have vaults : ∀ other, (w'.loan other).vault = (w.loan other).vault := fun other => by
    rw [each]
    split_ifs with here
    · rw [here, vault]
    · rfl
  have some_ : ∀ other, (w'.loan other).status ≠ .none → (w.loan other).status ≠ .none := by
    intro other
    rw [each]
    split_ifs with here
    · exact fun _ => here ▸ opened
    · exact fun some_ => some_
  refine ⟨⟨fun other was => ?_, fun first second was was' ne => ?_⟩, ⟨idle, ?_, ?_⟩⟩
  · rw [vaults, cfg]
    exact apart.self other (some_ other was)
  · rw [vaults, vaults]
    exact apart.vaults first second (some_ first was) (some_ second was') ne
  · intro other was
    rw [vaults, each]
    split_ifs with here
    · rw [here]
      exact owed
    · have was := some_ other was
      exact (backed.owed other was).trans
        (kept other was (apart.vaults other id was opened here)).1
  · intro other was
    rw [vaults, each]
    split_ifs with here
    · rw [here]
      exact pledged
    · have was := some_ other was
      exact (backed.pledged other was).trans
        (kept other was (apart.vaults other id was opened here)).2

/-- A call that opens a loan with a vault of its own, which holds the collateral, and takes nothing
from the other vaults. -/
theorem Backed.opens (backed : Backed w) (apart : Apart w)
    (loans : w'.facility.loans = update w.facility.loans w.facility.nextLoanId l)
    (cfg : w'.cfg = w.cfg) (fresh : ¬Holds l.vault w) (active : l.status = .active)
    (owes : l.lenderCredit = 0 ∧ l.feeCredit = 0)
    (idle : w'.facility.idleCash ≤ cash w')
    (pledged : l.collateralAmount ≤ w'.collateralToken.balanceOf l.vault)
    (kept : ∀ other, (w.loan other).status ≠ .none →
      w.loanToken.balanceOf (w.loan other).vault ≤ w'.loanToken.balanceOf (w.loan other).vault ∧
      w.collateralToken.balanceOf (w.loan other).vault ≤
        w'.collateralToken.balanceOf (w.loan other).vault) : Apart w' ∧ Backed w' := by
  have each : ∀ other, w'.loan other =
      if other = w.facility.nextLoanId then l else w.loan other := fun other => by
    rw [World.loan, loans, update_apply]
    rfl
  have away : ∀ other, (w.loan other).status ≠ .none → l.vault ≠ (w.loan other).vault :=
    fun other some_ same => fresh (.inr ⟨other, some_, same⟩)
  refine ⟨⟨fun other => ?_, fun first second => ?_⟩, ⟨idle, fun other => ?_, fun other => ?_⟩⟩
  · rw [each, cfg]
    split_ifs
    · exact fun _ same => fresh (.inl same)
    · exact apart.self other
  · rw [each, each]
    split_ifs with here there there
    · exact fun _ _ ne => absurd (here.trans there.symm) ne
    · exact fun _ some_ _ => away second some_
    · exact fun some_ _ _ => Ne.symm (away first some_)
    · exact apart.vaults first second
  · rw [each]
    split_ifs
    · rw [owes.1, owes.2]
      exact fun _ => Nat.zero_le _
    · exact fun some_ => (backed.owed other some_).trans (kept other some_).1
  · rw [each]
    split_ifs
    · rw [Loan.pledged, if_pos active]
      exact fun _ => pledged
    · exact fun some_ => (backed.pledged other some_).trans (kept other some_).2

theorem Accepted.backed (h : Accepted w op w') (quiet : Undisturbed w op)
    (counted : Counted w.facility) (apart : Apart w) (backed : Backed w) :
    Apart w' ∧ Backed w' := by
  have untouched : ∀ id, (w.loan id).status ≠ .none →
      w.loanToken.balanceOf (w.loan id).vault ≤ w.loanToken.balanceOf (w.loan id).vault ∧
      w.collateralToken.balanceOf (w.loan id).vault ≤
        w.collateralToken.balanceOf (w.loan id).vault := fun _ _ => ⟨le_rfl, le_rfl⟩
  cases h with
  | setPolicy | setNewLoansPaused | cancelQuote | proposeExtension | cancelExtension =>
    exact backed.same apart rfl rfl backed.idle untouched
  | acknowledgeIdleLoss => exact backed.same apart rfl rfl le_rfl untouched
  | deposit amount t positive pulled =>
    have away : w.cfg.lender ≠ w.cfg.self := w.cfg.lender_ne_self
    have moved := P2PVault.pullExact_moved away pulled
    refine backed.same apart rfl rfl ?_ fun id some_ => ⟨moved.others _ ?_, le_rfl⟩
    · have idle := backed.idle
      simp only [cash, moved.dst_eq] at idle ⊢
      omega
    · exact fun same => quiet (.inr ⟨id, some_, same.symm⟩)
  | withdrawIdle amount recipient t le sent =>
    have moved := P2PVault.sendExact_moved (Ne.symm sent.2.1) sent.2.2
    refine backed.same apart rfl rfl ?_
      fun id some_ => ⟨moved.others _ (apart.self id some_), le_rfl⟩
    have idle := backed.idle
    have out := moved.src_eq
    simp only [cash] at idle ⊢
    omega
  | withdrawSurplus amount recipient t le sent =>
    have moved := P2PVault.sendExact_moved (Ne.symm sent.2.1) sent.2.2
    refine backed.same apart rfl rfl ?_
      fun id some_ => ⟨moved.others _ (apart.self id some_), le_rfl⟩
    have out := moved.src_eq
    simp only [cash] at le ⊢
    omega
  | outside t c valid seconds =>
    exact backed.same apart rfl rfl (backed.idle.trans (quiet _ (.inl rfl)).1)
      fun id some_ => quiet _ (.inr ⟨id, some_, rfl⟩)
  | repay sender id t active inTime covered pulled =>
    have opened : (w.loan id).status ≠ .none := by rw [active]; exact nofun
    have away : sender ≠ (w.loan id).vault := fun same => quiet (.inr ⟨id, opened, same⟩)
    have moved := P2PVault.pullExact_moved away pulled
    have fee : Rounding.mulDiv (w.loan id).interest w.cfg.feeBps 10000 ≤ (w.loan id).interest :=
      Rounding.mulDiv_le_self w.cfg.fee_le _
    refine backed.change apart rfl rfl rfl opened ?_ ?_ ?_ fun other some_ _ => ⟨moved.others _ ?_, le_rfl⟩
    · exact backed.idle.trans (moved.others _ fun same => quiet (.inl same.symm))
    · rw [moved.dst_eq]
      simp only [repaid]
      omega
    · have pledged := backed.pledged id opened
      rw [Loan.pledged, if_pos active] at pledged
      simpa [Loan.pledged, repaid] using pledged
    · exact fun same => quiet (.inr ⟨other, some_, same.symm⟩)
  | claimDefault id active late covered =>
    have opened : (w.loan id).status ≠ .none := by rw [active]; exact nofun
    have pledged := backed.pledged id opened
    rw [Loan.pledged, if_pos active] at pledged
    refine backed.change apart rfl rfl rfl opened backed.idle (backed.owed id opened) ?_
      fun other some_ _ => untouched other some_
    simpa [Loan.pledged, defaulted] using pledged
  | acceptExtension sender id party other active =>
    have opened : (w.loan id).status ≠ .none := by rw [active]; exact nofun
    refine backed.change apart rfl rfl rfl opened backed.idle ?_ ?_
      fun other some_ _ => untouched other some_
    · exact backed.owed id opened
    · have pledged := backed.pledged id opened
      simp only [Loan.pledged] at pledged ⊢
      exact pledged
  | acknowledgeDefault id ended first covered =>
    have opened : (w.loan id).status ≠ .none := by rw [ended]; exact nofun
    exact backed.change apart rfl rfl rfl opened backed.idle (backed.owed id opened)
      (backed.pledged id opened) fun other some_ _ => untouched other some_
  | writeOffRepayment id short =>
    have opened := (counted.ended (.inl (Nat.ne_of_gt (Nat.zero_lt_of_lt short)))).1
    have owed := backed.owed id opened
    refine backed.change apart rfl rfl rfl opened backed.idle ?_ (backed.pledged id opened)
      fun other some_ _ => untouched other some_
    change availableRepayment id w + (w.loan id).feeCredit ≤ w.loanToken.balanceOf _
    omega
  | writeOffCollateral id short =>
    have ended := counted.ended (.inr (.inr (Nat.ne_of_gt (Nat.zero_lt_of_lt short))))
    have pledged := backed.pledged id ended.1
    rw [Loan.pledged, if_neg ended.2] at pledged
    refine backed.change apart rfl rfl rfl ended.1 backed.idle (backed.owed id ended.1) ?_
      fun other some_ _ => untouched other some_
    refine (if_neg ended.2).trans_le ?_
    change availableCollateral id w ≤ w.collateralToken.balanceOf _
    omega
  | recycleRepayment id t sent =>
    have moved := P2PVault.transferTo_moved sent
    have some_ := (P2PVault.transferTo_eq_ok.mp sent).1.1
    have le := availableRepayment_le id w
    have opened := (counted.ended (.inl (by omega : (w.loan id).lenderCredit ≠ 0))).1
    have owed := backed.owed id opened
    have out := moved.src_eq
    refine backed.change apart rfl rfl rfl opened ?_ ?_ (backed.pledged id opened)
      fun other _ ne => ⟨moved.others _ ne, le_rfl⟩
    · have idle := backed.idle
      simp only [cash, moved.dst_eq, setLoan] at idle ⊢
      omega
    · change (w.loan id).lenderCredit - availableRepayment id w + (w.loan id).feeCredit ≤
        t.balanceOf _
      omega
  | withdrawRepayment id amount recipient t le away sent =>
    have moved := P2PVault.transferTo_moved sent
    have some_ := (P2PVault.transferTo_eq_ok.mp sent).1.1
    have least := availableRepayment_le id w
    have opened := (counted.ended (.inl (by omega : (w.loan id).lenderCredit ≠ 0))).1
    have owed := backed.owed id opened
    have out := moved.src_eq
    refine backed.change apart rfl rfl rfl opened ?_ ?_ (backed.pledged id opened)
      fun other _ ne => ⟨moved.others _ ne, le_rfl⟩
    · exact backed.idle.trans (moved.others _ (Ne.symm (apart.self id opened)))
    · change (w.loan id).lenderCredit - amount + (w.loan id).feeCredit ≤ t.balanceOf _
      omega
  | collectFee id t sent =>
    have moved := P2PVault.transferTo_moved sent
    have some_ := (P2PVault.transferTo_eq_ok.mp sent).1.1
    have le := availableFee_le id w
    have opened := (counted.ended (.inr (.inl (by omega : (w.loan id).feeCredit ≠ 0)))).1
    have owed := backed.owed id opened
    have out := moved.src_eq
    refine backed.change apart rfl rfl rfl opened ?_ ?_ (backed.pledged id opened)
      fun other _ ne => ⟨moved.others _ ne, le_rfl⟩
    · exact backed.idle.trans (moved.others _ (Ne.symm (apart.self id opened)))
    · change (w.loan id).lenderCredit + ((w.loan id).feeCredit - availableFee id w) ≤
        t.balanceOf _
      omega
  | withdrawCollateral id amount recipient c le away sent =>
    have moved := P2PVault.transferTo_moved sent
    have some_ := (P2PVault.transferTo_eq_ok.mp sent).1.1
    have least := availableCollateral_le id w
    have ended := counted.ended (.inr (.inr (by omega : (w.loan id).collateralCredit ≠ 0)))
    have pledged := backed.pledged id ended.1
    rw [Loan.pledged, if_neg ended.2] at pledged
    have out := moved.src_eq
    refine backed.change apart rfl rfl rfl ended.1 backed.idle (backed.owed id ended.1) ?_
      fun other _ ne => ⟨le_rfl, moved.others _ ne⟩
    refine (if_neg ended.2).trans_le ?_
    change (w.loan id).collateralCredit - amount ≤ c.balanceOf _
    omega
  | draw sender vault quote signature principal maxCollateral maxInterest minRemainingCapacity
      collateral interest c t admitted pulled sent =>
    obtain ⟨caller, fresh, ne⟩ := quiet
    have took := P2PVault.pullExact_moved ne pulled
    have paid := P2PVault.sendExact_moved (Ne.symm sent.2.1) sent.2.2
    have unopened : (w.facility.loans w.facility.nextLoanId).status = .none := by
      by_contra some_
      exact (counted.numbered _ some_).false
    have zero := counted.owing _ (.inl unopened)
    refine backed.opens apart rfl rfl fresh rfl ⟨zero.1, zero.2.1⟩ ?_ ?_
      fun other some_ => ⟨paid.others _ (apart.self other some_), took.others _ ?_⟩
    · have idle := backed.idle
      have funded := admitted.funded
      have out := paid.src_eq
      simp only [cash, drawn, setLoan, setUse] at idle ⊢
      omega
    · have received := took.dst_eq
      change collateral ≤ c.balanceOf vault
      omega
    · exact fun same => caller (.inr ⟨other, some_, same.symm⟩)

/-! ### Runs -/

/-- A call that goes through, and takes nothing from the facility or its vaults from outside. -/
def Quiet (w : World) (op : Op) (w' : World) : Prop :=
  exec op w = .ok w' ∧ Undisturbed w op

def bookedStart : World :=
  { sampleStart with
    loanToken := (sampleStart.loanToken.mint 3 10).approve 3 100 (10 ^ 9) }

def bookedOps : List Op :=
  [.deposit 2 (10 ^ 6), .draw 3 11 sampleQuote [] 333 10 10 0,
    .setPolicy 2 ⟨10, 1, 10, 86400, 86400, 5000, 1, 0⟩ 0, .repay 3 1, .recycleRepayment 1]

def booked : World := reached bookedStart (execAll exec bookedOps bookedStart)

end Turret.LenderFacility
