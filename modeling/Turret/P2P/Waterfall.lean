import Turret.P2P.FacilityBooks

/-! What a repaid loan's vault still pays, and to whom. Both sides draw on one
balance, the lender first: what the lender side can still take and what the fee
can still take each fall by exactly what that side is paid, whoever is paid first
and in whatever parts. -/

namespace Turret.LenderFacility

open Execution Function

/-- A payment out of the vault, by its side and amount, or a call that is none. -/
inductive Payment
  | lender (amount : ℕ)
  | fee (amount : ℕ)
  | none

def Payment.toLender : Payment → ℕ
  | .lender amount => amount
  | _ => 0

def Payment.toFee : Payment → ℕ
  | .fee amount => amount
  | _ => 0

/-- The amount left the vault of the loan for `recipient`. -/
structure Paid (id : ℕ) (recipient : Address) (amount : ℕ) (w w' : World) : Prop where
  vault_eq : (w'.loan id).vault = (w.loan id).vault
  sent_eq : w'.loanToken.balanceOf (w.loan id).vault + amount =
    w.loanToken.balanceOf (w.loan id).vault
  received_eq : w'.loanToken.balanceOf recipient = w.loanToken.balanceOf recipient + amount

/-- The calls that pay out of the vault of the loan `id`, and all others that leave its credits and
the balance of its vault alone. -/
inductive Paying (id : ℕ) (w : World) : Payment → World → Prop
  | recycle {w' : World} {amount : ℕ} (done : recycleRepayment id w = .ok (w', amount)) :
      Paying id w (.lender amount) w'
  | withdraw {sender recipient : Address} {w' : World} {amount : ℕ}
      (done : withdrawRepayment sender id amount recipient w = .ok w') :
      Paying id w (.lender amount) w'
  | collect {w' : World} {amount : ℕ} (done : collectFee id w = .ok (w', amount)) :
      Paying id w (.fee amount) w'
  | other {op : Op} {w' : World} (done : exec op w = .ok w')
      (vault : (w'.loan id).vault = (w.loan id).vault)
      (lender : (w'.loan id).lenderCredit = (w.loan id).lenderCredit)
      (fee : (w'.loan id).feeCredit = (w.loan id).feeCredit)
      (balance : w'.loanToken.balanceOf (w.loan id).vault =
        w.loanToken.balanceOf (w.loan id).vault) :
      Paying id w .none w'

/-! ### The two sides of one balance -/

/-- What stands against the balance of a vault: the lender's claim, then the fee. -/
structure Claims where
  lender : ℕ
  fee : ℕ
  balance : ℕ

namespace Claims

def forLender (c : Claims) : ℕ := min c.lender c.balance

def forFee (c : Claims) : ℕ := min c.fee (c.balance - c.lender)

inductive Pays : Claims → Payment → Claims → Prop
  | lender (c : Claims) (n : ℕ) (le : n ≤ c.forLender) :
      Pays c (.lender n) { c with lender := c.lender - n, balance := c.balance - n }
  | fee (c : Claims) (n : ℕ) (le : n ≤ c.forFee) :
      Pays c (.fee n) { c with fee := c.fee - n, balance := c.balance - n }
  | none (c : Claims) : Pays c .none c

variable {c c' : Claims} {p : Payment}

/-- Each side's part falls by what that side is paid, and by nothing else. -/
theorem Pays.conserves (h : Pays c p c') :
    c'.forLender + p.toLender = c.forLender ∧ c'.forFee + p.toFee = c.forFee := by
  cases h with
  | lender n le =>
    simp only [forLender, forFee, Payment.toLender, Payment.toFee] at le ⊢
    omega
  | fee n le =>
    simp only [forLender, forFee, Payment.toLender, Payment.toFee] at le ⊢
    omega
  | none => exact ⟨rfl, rfl⟩

theorem run_conserves {ps : List Payment} (run : Run Pays c ps c') :
    c'.forLender + (ps.map Payment.toLender).sum = c.forLender ∧
      c'.forFee + (ps.map Payment.toFee).sum = c.forFee := by
  induction run with
  | nil => exact ⟨rfl, rfl⟩
  | cons first _ ih =>
    have one := first.conserves
    simp only [List.map_cons, List.sum_cons]
    omega

end Claims

variable {id : ℕ} {w w' : World}

def claims (id : ℕ) (w : World) : Claims :=
  ⟨(w.loan id).lenderCredit, (w.loan id).feeCredit, w.loanToken.balanceOf (w.loan id).vault⟩

theorem availableRepayment_eq (id : ℕ) (w : World) :
    availableRepayment id w = (claims id w).forLender := by
  simp only [availableRepayment, Claims.forLender, claims]
  split_ifs with zero
  · rw [zero, Nat.zero_min]
  · rfl

theorem availableFee_eq (id : ℕ) (w : World) : availableFee id w = (claims id w).forFee := by
  simp only [availableFee, Claims.forFee, claims]
  split_ifs <;> omega

/-! ### Each call -/

/-- The vault of the loan sends: its balance falls, and only what the call rewrote of the loan
changes. -/
theorem vault_pays {loan : Loan} {recipient : Address} {amount : ℕ} {f : Facility}
    (h : onLoanToken (P2PVault.transferTo (w.loan id).vault recipient amount)
      { w with facility := setLoan id loan f } = .ok w')
    (vault : loan.vault = (w.loan id).vault) :
    Paid id recipient amount w w' ∧ 0 < amount ∧
      claims id w' = ⟨loan.lenderCredit, loan.feeCredit, (claims id w).balance - amount⟩ := by
  obtain ⟨t, sent, rfl⟩ := onLoanToken_ok h
  obtain ⟨⟨positive, -, away⟩, held, rfl⟩ := P2PVault.transferTo_eq_ok.mp sent
  have src := TokenLedger.move_src (Ne.symm away) amount w.loanToken
  have dst := TokenLedger.move_dst (Ne.symm away) amount w.loanToken
  have stored : (setLoan id loan f).loans id = loan := by simp only [setLoan, update_self]
  refine ⟨⟨?_, ?_, dst⟩, Nat.pos_of_ne_zero positive, ?_⟩
  · simp only [World.loan, stored]
    exact vault
  · change (w.loanToken.move _ _ _).balanceOf _ + amount = _
    rw [src]
    exact Nat.sub_add_cancel held
  · simp only [claims, World.loan, stored, vault]
    exact congrArg _ src

theorem recycleRepayment_pays {amount : ℕ} (h : recycleRepayment id w = .ok (w', amount)) :
    Paid id w.cfg.self amount w w' ∧ (claims id w).Pays (.lender amount) (claims id w') := by
  simp only [recycleRepayment, bind_eq_ok, pure_eq_ok, Prod.mk.injEq] at h
  obtain ⟨-, -, mid, sent, rfl, rfl⟩ := h
  obtain ⟨paid, -, left⟩ := vault_pays sent rfl
  refine ⟨⟨paid.vault_eq, paid.sent_eq, paid.received_eq⟩, ?_⟩
  change (claims id w).Pays _ (claims id mid)
  rw [left]
  exact .lender _ _ (availableRepayment_eq id w).le

theorem withdrawRepayment_pays {sender recipient : Address} {amount : ℕ}
    (h : withdrawRepayment sender id amount recipient w = .ok w') :
    Paid id recipient amount w w' ∧ (claims id w).Pays (.lender amount) (claims id w') := by
  simp only [withdrawRepayment, bind_eq_ok, revertIf_eq_ok, exists_const, not_or, not_lt] at h
  obtain ⟨-, -, ⟨-, within, -⟩, sent⟩ := h
  obtain ⟨paid, -, left⟩ := vault_pays sent rfl
  refine ⟨paid, ?_⟩
  rw [left]
  exact .lender _ _ (within.trans (availableRepayment_eq id w).le)

theorem collectFee_pays {amount : ℕ} (h : collectFee id w = .ok (w', amount)) :
    Paid id w.cfg.feeRecipient amount w w' ∧
      (claims id w).Pays (.fee amount) (claims id w') := by
  simp only [collectFee, bind_eq_ok, pure_eq_ok, Prod.mk.injEq] at h
  obtain ⟨-, -, mid, sent, rfl, rfl⟩ := h
  obtain ⟨paid, -, left⟩ := vault_pays sent rfl
  refine ⟨paid, ?_⟩
  rw [left]
  exact .fee _ _ (availableFee_eq id w).le

theorem Paying.pays {p : Payment} (h : Paying id w p w') :
    (claims id w).Pays p (claims id w') := by
  cases h with
  | recycle done => exact (recycleRepayment_pays done).2
  | withdraw done => exact (withdrawRepayment_pays done).2
  | collect done => exact (collectFee_pays done).2
  | other done vault lender fee balance =>
    have same : claims id w' = claims id w := by
      rw [claims, vault, lender, fee, balance]
      rfl
    rw [same]
    exact .none _

theorem claims_run {ps : List Payment} (run : Run (Paying id) w ps w') :
    Run Claims.Pays (claims id w) ps (claims id w') := by
  induction run with
  | nil => exact .nil _
  | cons first _ ih => exact .cons first.pays ih

/-! ### A vault paid out -/

/-- What holds of a single payment at any point. -/
structure Bounded (id : ℕ) (p : Payment) (w w' : World) : Prop where
  repayment_kept : p.toLender = 0 → availableRepayment id w' = availableRepayment id w
  lender_le : p.toLender ≤ (w.loan id).lenderCredit
  fee_le : p.toFee ≤ (w.loan id).feeCredit
  balance_ge : p.toLender + p.toFee ≤ w.loanToken.balanceOf (w.loan id).vault
  lender_paid : ∀ amount, p = .lender amount → ∃ recipient, Paid id recipient amount w w'
  fee_paid : ∀ amount, p = .fee amount → Paid id w.cfg.feeRecipient amount w w'

theorem Paying.bounded {p : Payment} (h : Paying id w p w') : Bounded id p w w' := by
  have conserved := h.pays.conserves
  have lender := conserved.1
  have fee := conserved.2
  simp only [Claims.forLender, Claims.forFee] at lender fee
  constructor
  · intro none
    rw [availableRepayment_eq, availableRepayment_eq]
    omega
  · change p.toLender ≤ (claims id w).lender
    omega
  · change p.toFee ≤ (claims id w).fee
    omega
  · change p.toLender + p.toFee ≤ (claims id w).balance
    omega
  · rintro amount rfl
    cases h with
    | recycle done => exact ⟨_, (recycleRepayment_pays done).1⟩
    | withdraw done => exact ⟨_, (withdrawRepayment_pays done).1⟩
  · rintro amount rfl
    cases h with
    | collect done => exact (collectFee_pays done).1

/-- Whatever was collected, and in whatever order, once nothing is left to collect the lender side
got all it could claim of the vault, and the fee recipient of the rest; no payment on the way went
beyond a credit or the balance, and no fee took from the lender. -/
theorem repayment_waterfall (id : ℕ) (w : World) (ps : List Payment) (w' : World)
    (run : Run (Paying id) w ps w') :
    (availableRepayment id w' = 0 → availableFee id w' = 0 →
      (ps.map Payment.toLender).sum =
          min (w.loan id).lenderCredit (w.loanToken.balanceOf (w.loan id).vault) ∧
        (ps.map Payment.toFee).sum =
          min (w.loan id).feeCredit (w.loanToken.balanceOf (w.loan id).vault -
            min (w.loan id).lenderCredit (w.loanToken.balanceOf (w.loan id).vault))) ∧
    ∀ p u, Paying id w' p u → Bounded id p w' u := by
  refine ⟨fun noRepayment noFee => ?_, fun p u step => step.bounded⟩
  obtain ⟨lender, fee⟩ := Claims.run_conserves (claims_run run)
  rw [← availableRepayment_eq, noRepayment, Nat.zero_add] at lender
  rw [← availableFee_eq, noFee, Nat.zero_add] at fee
  simp only [Claims.forLender, Claims.forFee, claims] at lender fee
  omega

/-! A vault that was robbed of fifteen before the fee, the lender and the facility are paid in turn. -/

def robbed : World where
  cfg := sampleConfig fun _ => 9
  now := 1000
  loanToken := TokenLedger.empty.mint 11 105
  collateralToken := .empty
  isValidSignatureNow _ _ _ := false
  facility :=
    setLoan 1 { noLoan with vault := 11, status := .repaid, lenderCredit := 100, feeCredit := 20 }
      (deployed ⟨10 ^ 9, 1, 10 ^ 6, 86400, 86400, 5000, 1, 0⟩)

def robbedFeePaid : World := (reached (robbed, 0) (collectFee 1 robbed)).1

def robbedLenderPaid : World :=
  reached robbedFeePaid (withdrawRepayment 2 1 40 2 robbedFeePaid)

def robbedEmptied : World :=
  (reached (robbedLenderPaid, 0) (recycleRepayment 1 robbedLenderPaid)).1

theorem robbed_run :
    Run (Paying 1) robbed [.fee 5, .lender 40, .lender 60] robbedEmptied := by
  have fee : collectFee 1 robbed = .ok (robbedFeePaid, 5) :=
    eq_ok_reached (robbed, 0) (by decide +kernel)
  have withdrawn : withdrawRepayment 2 1 40 2 robbedFeePaid = .ok robbedLenderPaid :=
    eq_ok_reached robbedFeePaid (by decide +kernel)
  have recycled : recycleRepayment 1 robbedLenderPaid = .ok (robbedEmptied, 60) :=
    eq_ok_reached (robbedLenderPaid, 0) (by decide +kernel)
  exact .cons (.collect fee) (.cons (.withdraw withdrawn) (.single (.recycle recycled)))

theorem robbed_waterfall :
    ([Payment.fee 5, .lender 40, .lender 60].map Payment.toLender).sum = min 100 105 ∧
      ([Payment.fee 5, .lender 40, .lender 60].map Payment.toFee).sum =
        min 20 (105 - min 100 105) :=
  (repayment_waterfall 1 robbed _ _ robbed_run).1 (by decide +kernel) (by decide +kernel)

theorem lender_exhausts (away : w.cfg.lender ≠ (w.loan id).vault) :
    ∃ ps w', Run (Paying id) w ps w' ∧ availableRepayment id w' = 0 ∧ w'.cfg = w.cfg ∧
      (w'.loan id).vault = (w.loan id).vault := by
  by_cases none : availableRepayment id w = 0
  · exact ⟨[], w, .nil w, none, rfl, rfl⟩
  have held : availableRepayment id w ≤ w.loanToken.balanceOf (w.loan id).vault := by
    rw [availableRepayment_eq]
    exact min_le_right ..
  have sent := P2PVault.transferTo_eq_ok.mpr
    ⟨⟨none, w.cfg.lender_ne_zero, away⟩, held, rfl⟩
  obtain ⟨w', done, cfg⟩ : ∃ w', withdrawRepayment w.cfg.lender id (availableRepayment id w)
      w.cfg.lender w = .ok w' ∧ w'.cfg = w.cfg := by
    simp only [withdrawRepayment, onlyLender, bind_eq_ok, revertIf_eq_ok, exists_const]
    exact ⟨_, ⟨by simp, by simp [none, w.cfg.lender_ne_self], onLoanToken_of_ok sent⟩, rfl⟩
  have conserved := (withdrawRepayment_pays done).2.conserves.1
  rw [← availableRepayment_eq, ← availableRepayment_eq, Payment.toLender] at conserved
  exact ⟨_, w', .single (.withdraw done), by omega, cfg, (withdrawRepayment_pays done).1.vault_eq⟩

theorem fee_exhausts (away : w.cfg.feeRecipient ≠ (w.loan id).vault) :
    ∃ ps w', Run (Paying id) w ps w' ∧ availableFee id w' = 0 ∧
      availableRepayment id w' = availableRepayment id w := by
  by_cases none : availableFee id w = 0
  · exact ⟨[], w, .nil w, none, rfl⟩
  have held : availableFee id w ≤ w.loanToken.balanceOf (w.loan id).vault := by
    rw [availableFee_eq]
    exact (min_le_right ..).trans (Nat.sub_le ..)
  have sent := P2PVault.transferTo_eq_ok.mpr
    ⟨⟨none, w.cfg.recipient_ne_zero, away⟩, held, rfl⟩
  obtain ⟨w', done⟩ : ∃ w', collectFee id w = .ok (w', availableFee id w) := by
    simp only [collectFee, bind_eq_ok, revertIf_eq_ok, exists_const, pure_eq_ok, Prod.mk.injEq,
      and_true]
    exact ⟨_, none, _, onLoanToken_of_ok sent, rfl⟩
  have step : Paying id w (.fee (availableFee id w)) w' := .collect done
  have conserved := step.pays.conserves.2
  rw [← availableFee_eq, ← availableFee_eq, Payment.toFee] at conserved
  exact ⟨_, w', .single step, by omega, step.bounded.repayment_kept rfl⟩

/-- The vault can always be paid out, where neither side is the vault itself. -/
theorem exhaustible (away : w.cfg.lender ≠ (w.loan id).vault)
    (recipient_away : w.cfg.feeRecipient ≠ (w.loan id).vault) :
    ∃ ps w', Run (Paying id) w ps w' ∧ availableRepayment id w' = 0 ∧ availableFee id w' = 0 := by
  obtain ⟨first, mid, run, noRepayment, sameCfg, sameVault⟩ := lender_exhausts away
  obtain ⟨rest, w', run', noFee, kept⟩ :=
    @fee_exhausts id mid (by rw [sameCfg, sameVault]; exact recipient_away)
  exact ⟨_, w', run.append run', kept.trans noRepayment, noFee⟩

end Turret.LenderFacility
