import Turret.P2P.FacilityBooks

/-! What a call of the facility that goes through has checked, and all that it
writes: said once for every call, so that what holds over runs is read off here. -/

namespace Turret.LenderFacility

open Execution Function

variable {w w' : World}

/-! ### Quotes -/

/-- The terms of a quote that bind the borrower and the draw. -/
structure Quoted (sender : Address) (quote : Quote) (principal : ℕ) (w : World) : Prop where
  epoch_eq : quote.epoch = w.facility.epoch
  sender_ne : sender ≠ w.cfg.lender
  borrower : quote.borrower = 0 ∨ quote.borrower = sender
  validAfter_le : quote.validAfter ≤ w.now
  now_lt : w.now < quote.expiresAt
  minDraw_le : quote.minDraw ≤ principal
  principal_pos : 0 < principal
  principal_le : principal ≤ quote.capacity
  duration : w.facility.limits.minDuration ≤ quote.duration ∧
    quote.duration ≤ w.facility.limits.maxDuration

theorem checkQuote_ok {sender : Address} {quote : Quote} {principal : ℕ} {terms : ℕ × ℕ}
    (h : checkQuote sender quote principal w = .ok terms) : Quoted sender quote principal w := by
  simp only [checkQuote, quoteTerms, bind_eq_ok, revertIf_eq_ok, exists_const, pure_eq_ok, not_or,
    not_lt, not_le, ne_eq, not_not] at h
  obtain ⟨⟨epoch, lender, borrower, -, -, -, -, -, -, after, before, -, -, -, -, short, long, -,
    least, -, -⟩, asked, ⟨⟨positive, -, within⟩, -⟩, -⟩ := h
  refine ⟨epoch, lender, ?_, after, before, least, Nat.pos_of_ne_zero positive, within, short, long⟩
  by_cases anyone : quote.borrower = 0
  · exact .inl anyone
  · exact .inr (not_not.mp fun other => borrower ⟨anyone, other⟩)

/-- All that a draw checks besides the borrower's own bounds. -/
structure Admitted (sender : Address) (quote : Quote) (signature : Signature)
    (principal interest : ℕ) (w : World) : Prop where
  running : w.facility.newLoansPaused = false
  quoted : Quoted sender quote principal w
  fits : principal + interest < Uint256.MODULUS
  signed : isValidQuoteSignature quote signature w = true
  kept : (w.facility.quoteUses w.facility.epoch quote.nonce).cancelled = false
  digest : (w.facility.quoteUses w.facility.epoch quote.nonce).filled = 0 ∨
    (w.facility.quoteUses w.facility.epoch quote.nonce).digest = w.cfg.quoteHash quote
  room : (w.facility.quoteUses w.facility.epoch quote.nonce).filled + principal ≤ quote.capacity
  exposure : w.facility.activePrincipal + w.facility.unresolvedDefaultPrincipal + principal ≤
    w.facility.limits.maxExposure
  funded : principal ≤ w.facility.idleCash
  backed : w.facility.idleCash ≤ cash w

/-- The loan a draw opens. -/
def opened (sender vault : Address) (principal collateral interest dueAt : ℕ) (l : Loan) : Loan :=
  { l with
    borrower := sender
    vault
    principal
    collateralAmount := collateral
    interest
    dueAt
    status := .active }

/-- What a draw writes. -/
def drawn (sender vault : Address) (quote : Quote) (principal collateral interest : ℕ)
    (w : World) : Facility :=
  let f := w.facility
  let used := f.quoteUses f.epoch quote.nonce
  let f := setUse quote.nonce
    { used with digest := w.cfg.quoteHash quote, filled := used.filled + principal } f
  setLoan f.nextLoanId
    (opened sender vault principal collateral interest (w.now + quote.duration)
      (f.loans f.nextLoanId))
    { f with
      idleCash := f.idleCash - principal
      activePrincipal := f.activePrincipal + principal
      nextLoanId := f.nextLoanId + 1 }

/-- The loan as a repayment leaves it. -/
def repaid (w : World) (l : Loan) : Loan :=
  { l with
    status := .repaid
    feeCredit := Rounding.mulDiv l.interest w.cfg.feeBps 10000
    lenderCredit := l.principal + l.interest - Rounding.mulDiv l.interest w.cfg.feeBps 10000
    collateralCredit := l.collateralAmount }

def defaulted (l : Loan) : Loan :=
  { l with status := .defaulted, collateralCredit := l.collateralAmount }

/-! ### The calls -/

/-- A payment of the facility's own money. -/
def Sends (recipient : Address) (amount : ℕ) (w : World) (t : TokenLedger Address) : Prop :=
  recipient ≠ 0 ∧ recipient ≠ w.cfg.self ∧
    P2PVault.sendExact w.cfg.self recipient amount w.loanToken = .ok t

inductive Accepted (w : World) : Op → World → Prop
  | setPolicy (next : Limits) (signer : Address) (valid : validateLimits next = .ok ()) :
      Accepted w (.setPolicy w.cfg.lender next signer)
        { w with
          facility :=
            { w.facility with
              limits := next, quoteSigner := signer, epoch := w.facility.epoch + 1 } }
  | setNewLoansPaused (paused : Bool) :
      Accepted w (.setNewLoansPaused w.cfg.lender paused)
        { w with facility := { w.facility with newLoansPaused := paused } }
  | cancelQuote (nonce : ℕ) :
      Accepted w (.cancelQuote w.cfg.lender nonce)
        { w with
          facility := setUse nonce
            { w.facility.quoteUses w.facility.epoch nonce with cancelled := true } w.facility }
  | deposit (amount : ℕ) (t : TokenLedger Address) (positive : 0 < amount)
      (pulled : P2PVault.pullExact w.cfg.self w.cfg.lender w.cfg.self amount w.loanToken = .ok t) :
      Accepted w (.deposit w.cfg.lender amount)
        { w with
          loanToken := t
          facility := { w.facility with idleCash := w.facility.idleCash + amount } }
  | withdrawIdle (amount : ℕ) (recipient : Address) (t : TokenLedger Address)
      (le : amount ≤ w.facility.idleCash) (sent : Sends recipient amount w t) :
      Accepted w (.withdrawIdle w.cfg.lender amount recipient)
        { w with
          loanToken := t
          facility := { w.facility with idleCash := w.facility.idleCash - amount } }
  | withdrawSurplus (amount : ℕ) (recipient : Address) (t : TokenLedger Address)
      (le : w.facility.idleCash + amount ≤ cash w) (sent : Sends recipient amount w t) :
      Accepted w (.withdrawSurplus w.cfg.lender amount recipient) { w with loanToken := t }
  | acknowledgeIdleLoss (lost : cash w < w.facility.idleCash) :
      Accepted w (.acknowledgeIdleLoss w.cfg.lender)
        { w with
          facility :=
            { w.facility with
              idleCash := cash w
              idleCashWrittenOff :=
                w.facility.idleCashWrittenOff + (w.facility.idleCash - cash w) } }
  | draw (sender vault : Address) (quote : Quote) (signature : Signature)
      (principal maxCollateral maxInterest minRemainingCapacity collateral interest : ℕ)
      (c t : TokenLedger Address)
      (admitted : Admitted sender quote signature principal interest w)
      (pulled : P2PVault.pullExact w.cfg.self sender vault collateral w.collateralToken = .ok c)
      (sent : Sends sender principal w t) :
      Accepted w (.draw sender vault quote signature principal maxCollateral maxInterest
        minRemainingCapacity)
        { w with
          loanToken := t
          collateralToken := c
          facility := drawn sender vault quote principal collateral interest w }
  | repay (sender : Address) (id : ℕ) (t : TokenLedger Address)
      (active : (w.loan id).status = .active) (inTime : w.now ≤ (w.loan id).dueAt + GRACE_PERIOD)
      (covered : (w.loan id).principal ≤ w.facility.activePrincipal)
      (pulled : P2PVault.pullExact w.cfg.self sender (w.loan id).vault
        ((w.loan id).principal + (w.loan id).interest) w.loanToken = .ok t) :
      Accepted w (.repay sender id)
        { w with
          loanToken := t
          facility := setLoan id (repaid w (w.loan id))
            { w.facility with
              activePrincipal := w.facility.activePrincipal - (w.loan id).principal } }
  | claimDefault (id : ℕ) (active : (w.loan id).status = .active)
      (late : (w.loan id).dueAt + GRACE_PERIOD < w.now)
      (covered : (w.loan id).principal ≤ w.facility.activePrincipal) :
      Accepted w (.claimDefault id)
        { w with
          facility := setLoan id (defaulted (w.loan id))
            { w.facility with
              activePrincipal := w.facility.activePrincipal - (w.loan id).principal
              unresolvedDefaultPrincipal :=
                w.facility.unresolvedDefaultPrincipal + (w.loan id).principal } }
  | recycleRepayment (id : ℕ) (t : TokenLedger Address)
      (sent : P2PVault.transferTo (w.loan id).vault w.cfg.self (availableRepayment id w)
        w.loanToken = .ok t) :
      Accepted w (.recycleRepayment id)
        { w with
          loanToken := t
          facility := setLoan id
            { w.loan id with lenderCredit := (w.loan id).lenderCredit - availableRepayment id w }
            { w.facility with idleCash := w.facility.idleCash + availableRepayment id w } }
  | withdrawRepayment (id amount : ℕ) (recipient : Address) (t : TokenLedger Address)
      (le : amount ≤ availableRepayment id w) (away : recipient ≠ w.cfg.self)
      (sent : P2PVault.transferTo (w.loan id).vault recipient amount w.loanToken = .ok t) :
      Accepted w (.withdrawRepayment w.cfg.lender id amount recipient)
        { w with
          loanToken := t
          facility := setLoan id
            { w.loan id with lenderCredit := (w.loan id).lenderCredit - amount } w.facility }
  | collectFee (id : ℕ) (t : TokenLedger Address)
      (sent : P2PVault.transferTo (w.loan id).vault w.cfg.feeRecipient (availableFee id w)
        w.loanToken = .ok t) :
      Accepted w (.collectFee id)
        { w with
          loanToken := t
          facility := setLoan id
            { w.loan id with feeCredit := (w.loan id).feeCredit - availableFee id w } w.facility }
  | withdrawCollateral (id amount : ℕ) (recipient : Address) (c : TokenLedger Address)
      (le : amount ≤ availableCollateral id w) (away : recipient ≠ w.cfg.self)
      (sent : P2PVault.transferTo (w.loan id).vault recipient amount w.collateralToken = .ok c) :
      Accepted w (.withdrawCollateral (collateralOwner id w) id amount recipient)
        { w with
          collateralToken := c
          facility := setLoan id
            { w.loan id with collateralCredit := (w.loan id).collateralCredit - amount }
            w.facility }
  | writeOffRepayment (id : ℕ) (short : availableRepayment id w < (w.loan id).lenderCredit) :
      Accepted w (.writeOffRepayment w.cfg.lender id)
        { w with
          facility := setLoan id { w.loan id with lenderCredit := availableRepayment id w }
            { w.facility with
              repaymentWrittenOff := w.facility.repaymentWrittenOff +
                ((w.loan id).lenderCredit - availableRepayment id w) } }
  | writeOffCollateral (id : ℕ) (short : availableCollateral id w < (w.loan id).collateralCredit) :
      Accepted w (.writeOffCollateral (collateralOwner id w) id)
        { w with
          facility := setLoan id { w.loan id with collateralCredit := availableCollateral id w }
            w.facility }
  | acknowledgeDefault (id : ℕ) (ended : (w.loan id).status = .defaulted)
      (first : (w.loan id).defaultAcknowledged = false)
      (covered : (w.loan id).principal ≤ w.facility.unresolvedDefaultPrincipal) :
      Accepted w (.acknowledgeDefault w.cfg.lender id)
        { w with
          facility := setLoan id { w.loan id with defaultAcknowledged := true }
            { w.facility with
              unresolvedDefaultPrincipal :=
                w.facility.unresolvedDefaultPrincipal - (w.loan id).principal
              acknowledgedDefaultPrincipal :=
                w.facility.acknowledgedDefaultPrincipal + (w.loan id).principal } }
  | proposeExtension (sender : Address) (id newDeadline expiresAt : ℕ)
      (party : sender = w.cfg.lender ∨ sender = (w.loan id).borrower)
      (active : (w.loan id).status = .active)
      (later : (w.loan id).dueAt + GRACE_PERIOD < newDeadline) :
      Accepted w (.proposeExtension sender id newDeadline expiresAt)
        { w with
          facility :=
            { w.facility with
              extensionNonce :=
                update w.facility.extensionNonce id (w.facility.extensionNonce id + 1)
              extensions := update w.facility.extensions id
                ⟨sender, w.facility.extensionNonce id + 1, (w.loan id).dueAt + GRACE_PERIOD,
                  newDeadline, expiresAt⟩ } }
  | cancelExtension (id : ℕ) :
      Accepted w (.cancelExtension (w.facility.extensions id).proposer id)
        { w with facility := clearExtension id w.facility }
  | acceptExtension (sender : Address) (id : ℕ)
      (party : sender = w.cfg.lender ∨ sender = (w.loan id).borrower)
      (other : sender ≠ (w.facility.extensions id).proposer)
      (active : (w.loan id).status = .active)
      (proposed : (w.facility.extensions id).proposer ≠ 0)
      (inTime : w.now < (w.facility.extensions id).expiresAt)
      (future : w.now < (w.facility.extensions id).newDeadline)
      (current : (w.loan id).dueAt + GRACE_PERIOD = (w.facility.extensions id).oldDeadline)
      (graced : GRACE_PERIOD ≤ (w.facility.extensions id).newDeadline) :
      Accepted w (.acceptExtension sender id (w.facility.extensions id).nonce
          (w.facility.extensions id).oldDeadline (w.facility.extensions id).newDeadline
          (w.facility.extensions id).expiresAt)
        { w with
          facility := clearExtension id (setLoan id
            { w.loan id with dueAt := (w.facility.extensions id).newDeadline - GRACE_PERIOD }
            w.facility) }
  | outside (loanToken collateralToken : TokenLedger Address)
      (isValidSignatureNow : Address → ℕ → Signature → Bool) (seconds : ℕ) :
      Accepted w (.outside loanToken collateralToken isValidSignatureNow seconds)
        { w with loanToken, collateralToken, isValidSignatureNow, now := w.now + seconds }

theorem onlyLender_ok {sender : Address} {u : Unit} :
    onlyLender sender w = .ok u ↔ sender = w.cfg.lender := by
  rw [onlyLender, revertIf_eq_ok, ne_eq, not_not]

theorem sendCash_ok {recipient : Address} {amount : ℕ} (h : sendCash recipient amount w = .ok w') :
    ∃ t, Sends recipient amount w t ∧ w' = { w with loanToken := t } := by
  simp only [sendCash, bind_eq_ok, revertIf_eq_ok, exists_const, not_or] at h
  obtain ⟨⟨some_, away⟩, sent⟩ := h
  obtain ⟨t, done, rfl⟩ := onLoanToken_ok sent
  exact ⟨t, ⟨some_, away, done⟩, rfl⟩

theorem onCollateralToken_ok
    {f : TokenLedger Address → Except P2PVault.TransferError (TokenLedger Address)}
    (h : onCollateralToken f w = .ok w') :
    ∃ t, f w.collateralToken = .ok t ∧ w' = { w with collateralToken := t } := by
  simp only [onCollateralToken, bind_eq_ok, mapError_eq_ok, pure_eq_ok] at h
  obtain ⟨t, sent, rfl⟩ := h
  exact ⟨t, sent, rfl⟩

theorem draw_accepted {sender vault : Address} {quote : Quote} {signature : Signature}
    {principal maxCollateral maxInterest minRemainingCapacity id : ℕ}
    (h : draw sender vault quote signature principal maxCollateral maxInterest
      minRemainingCapacity w = .ok (w', id)) :
    Accepted w (.draw sender vault quote signature principal maxCollateral maxInterest
      minRemainingCapacity) w' := by
  obtain ⟨_, interest, shape⟩ := draw_ok h
  have fits := shape.fits
  have bound := shape.interest_eq
  simp only [draw, bind_eq_ok, revertIf_eq_ok, exists_const, pure_eq_ok, not_or, not_lt,
    Prod.mk.injEq, Bool.not_eq_true, Bool.not_eq_false] at h
  obtain ⟨running, ⟨collateral, asked⟩, quoted, -, signed, ⟨kept, digest, room, remaining, -⟩,
    ⟨limit, exposed, funded, backed⟩, u, taken, v, paid, rfl, -⟩ := h
  obtain ⟨c, pulled, rfl⟩ := onCollateralToken_ok taken
  obtain ⟨t, sent, rfl⟩ := sendCash_ok paid
  have rounded : asked = interest := by
    simp only [checkQuote, quoteTerms, bind_eq_ok, revertIf_eq_ok, exists_const, pure_eq_ok,
      Prod.mk.injEq] at quoted
    obtain ⟨-, -, ⟨-, rfl⟩, -, -, rfl⟩ := quoted
    exact bound.symm
  have admitted : Admitted sender quote signature principal asked w :=
    ⟨running, checkQuote_ok quoted, rounded ▸ fits, signed, kept, by tauto, by omega, by omega,
      funded, backed⟩
  exact .draw sender vault quote signature principal maxCollateral maxInterest minRemainingCapacity
    collateral asked c t admitted pulled sent

theorem exec_accepted {op : Op} (h : exec op w = .ok w') : Accepted w op w' := by
  cases op with
  | setPolicy sender next signer =>
    simp only [exec, setPolicy, bind_eq_ok, onlyLender_ok, exists_const, pure_eq_ok] at h
    obtain ⟨rfl, ⟨⟩, valid, -, -, rfl⟩ := h
    exact .setPolicy next signer valid
  | setNewLoansPaused sender paused =>
    simp only [exec, setNewLoansPaused, bind_eq_ok, onlyLender_ok, exists_const, pure_eq_ok] at h
    obtain ⟨rfl, rfl⟩ := h
    exact .setNewLoansPaused paused
  | cancelQuote sender nonce =>
    simp only [exec, cancelQuote, bind_eq_ok, onlyLender_ok, exists_const, pure_eq_ok] at h
    obtain ⟨rfl, rfl⟩ := h
    exact .cancelQuote nonce
  | deposit sender amount =>
    simp only [exec, deposit, bind_eq_ok, onlyLender_ok, revertIf_eq_ok, exists_const,
      pure_eq_ok, not_or] at h
    obtain ⟨rfl, ⟨some_, -⟩, mid, taken, rfl⟩ := h
    obtain ⟨t, pulled, rfl⟩ := onLoanToken_ok taken
    exact .deposit amount t (Nat.pos_of_ne_zero some_) pulled
  | withdrawIdle sender amount recipient =>
    simp only [exec, withdrawIdle, bind_eq_ok, onlyLender_ok, revertIf_eq_ok, exists_const, not_or,
      not_lt] at h
    obtain ⟨rfl, ⟨-, le⟩, paid⟩ := h
    obtain ⟨t, sent, rfl⟩ := sendCash_ok paid
    exact .withdrawIdle amount recipient t le sent
  | withdrawSurplus sender amount recipient =>
    simp only [exec, withdrawSurplus, bind_eq_ok, onlyLender_ok, revertIf_eq_ok, exists_const,
      not_or, not_lt] at h
    obtain ⟨rfl, ⟨backed, -, le⟩, paid⟩ := h
    obtain ⟨t, sent, rfl⟩ := sendCash_ok paid
    exact .withdrawSurplus amount recipient t (by omega) sent
  | acknowledgeIdleLoss sender =>
    simp only [exec, acknowledgeIdleLoss, bind_eq_ok, onlyLender_ok, revertIf_eq_ok, exists_const,
      pure_eq_ok, not_le] at h
    obtain ⟨rfl, lost, rfl⟩ := h
    exact .acknowledgeIdleLoss lost
  | draw sender vault quote signature principal maxCollateral maxInterest minRemainingCapacity =>
    obtain ⟨id, done⟩ := fst_map_eq_ok.mp h
    exact draw_accepted done
  | repay sender id =>
    simp only [exec, repay, bind_eq_ok, revertIf_eq_ok, exists_const, checkedSub_eq_ok,
      Uint256.checkedAdd_eq_ok, ne_eq, not_not, not_lt] at h
    obtain ⟨active, inTime, _, ⟨covered, rfl⟩, _, ⟨-, rfl⟩, _, ⟨-, rfl⟩, taken⟩ := h
    obtain ⟨t, pulled, rfl⟩ := onLoanToken_ok taken
    exact .repay sender id t active inTime covered pulled
  | claimDefault id =>
    simp only [exec, claimDefault, bind_eq_ok, revertIf_eq_ok, exists_const, checkedSub_eq_ok,
      pure_eq_ok, ne_eq, not_not, not_le] at h
    obtain ⟨active, late, _, ⟨covered, rfl⟩, rfl⟩ := h
    exact .claimDefault id active late covered
  | recycleRepayment id =>
    obtain ⟨n, done⟩ := fst_map_eq_ok.mp h
    simp only [recycleRepayment, bind_eq_ok, pure_eq_ok, Prod.mk.injEq] at done
    obtain ⟨-, -, mid, paid, rfl, -⟩ := done
    obtain ⟨t, sent, rfl⟩ := onLoanToken_ok paid
    exact .recycleRepayment id t sent
  | withdrawRepayment sender id amount recipient =>
    simp only [exec, withdrawRepayment, bind_eq_ok, onlyLender_ok, revertIf_eq_ok, exists_const,
      not_or, not_lt] at h
    obtain ⟨rfl, ⟨-, le, away⟩, paid⟩ := h
    obtain ⟨t, sent, rfl⟩ := onLoanToken_ok paid
    exact .withdrawRepayment id amount recipient t le away sent
  | collectFee id =>
    obtain ⟨n, done⟩ := fst_map_eq_ok.mp h
    simp only [collectFee, bind_eq_ok, pure_eq_ok, Prod.mk.injEq] at done
    obtain ⟨-, -, mid, paid, rfl, -⟩ := done
    obtain ⟨t, sent, rfl⟩ := onLoanToken_ok paid
    exact .collectFee id t sent
  | withdrawCollateral sender id amount recipient =>
    simp only [exec, withdrawCollateral, bind_eq_ok, revertIf_eq_ok, exists_const, not_or, not_lt,
      ne_eq, not_not] at h
    obtain ⟨rfl, ⟨-, le, away⟩, paid⟩ := h
    obtain ⟨c, sent, rfl⟩ := onCollateralToken_ok paid
    exact .withdrawCollateral id amount recipient c le away sent
  | writeOffRepayment sender id =>
    simp only [exec, writeOffRepayment, bind_eq_ok, onlyLender_ok, revertIf_eq_ok, exists_const,
      pure_eq_ok, not_le] at h
    obtain ⟨rfl, short, rfl⟩ := h
    exact .writeOffRepayment id short
  | writeOffCollateral sender id =>
    simp only [exec, writeOffCollateral, bind_eq_ok, revertIf_eq_ok, exists_const, pure_eq_ok,
      not_le, ne_eq, not_not] at h
    obtain ⟨rfl, short, rfl⟩ := h
    exact .writeOffCollateral id short
  | acknowledgeDefault sender id =>
    simp only [exec, acknowledgeDefault, bind_eq_ok, onlyLender_ok, revertIf_eq_ok, exists_const,
      checkedSub_eq_ok, pure_eq_ok, not_or, ne_eq, not_not, Bool.not_eq_true] at h
    obtain ⟨rfl, ⟨ended, first, -⟩, _, ⟨covered, rfl⟩, rfl⟩ := h
    exact .acknowledgeDefault id ended first covered
  | proposeExtension sender id newDeadline expiresAt =>
    simp only [exec, proposeExtension, bind_eq_ok, revertIf_eq_ok, exists_const, pure_eq_ok, not_or,
      not_le, not_lt, ne_eq, not_not] at h
    obtain ⟨party, active, ⟨later, -⟩, rfl⟩ := h
    exact .proposeExtension sender id newDeadline expiresAt (by tauto) active later
  | cancelExtension sender id =>
    simp only [exec, cancelExtension, bind_eq_ok, revertIf_eq_ok, exists_const, pure_eq_ok, ne_eq,
      not_not] at h
    obtain ⟨rfl, rfl⟩ := h
    exact .cancelExtension id
  | acceptExtension sender id nonce oldDeadline newDeadline expiresAt =>
    simp only [exec, acceptExtension, bind_eq_ok, revertIf_eq_ok, exists_const, checkedSub_eq_ok,
      pure_eq_ok, not_or, not_le, ne_eq, not_not] at h
    obtain ⟨⟨party, other⟩, active, ⟨proposed, rfl, rfl, rfl, rfl, inTime, future, current⟩, _,
      ⟨graced, rfl⟩, rfl⟩ := h
    exact .acceptExtension sender id (by tauto) other active proposed inTime future current graced
  | outside loanToken collateralToken isValidSignatureNow seconds =>
    rw [exec, pure_eq_ok] at h
    exact h ▸ .outside loanToken collateralToken isValidSignatureNow seconds

end Turret.LenderFacility
