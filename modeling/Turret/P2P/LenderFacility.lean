import Turret.Library.Rounding
import Turret.P2P.Vault

/-! `TurretLenderFacility`: the idle cash of one lender, lent out by signed quotes,
each loan with a vault of its own, and the credits that repayment and default
leave there. Quotes are words of the call; other amounts are naturals, and where
the contract's checked arithmetic would overflow it reverts, so its runs are
among the runs below; the sum that a repayment asks for is checked here as there.
The two tokens move exactly what is asked or fail; what their holders and issuers
do besides, and what signatures are valid, is not restricted. The reentrancy guard
is left out, since no call is met inside another. The address of a new vault is an
argument of the call that creates it. -/

namespace Turret.LenderFacility

open Execution Function Rounding Uint256

inductive Error
  | unauthorized
  | invalidConfiguration
  | invalidQuote
  | invalidSignature
  | quoteUnavailable
  | borrowerBoundsExceeded
  | capacityUnavailable
  | newLoansPaused
  | invalidWithdrawal
  | wrongStatus
  | deadlinePassed
  | tooEarly
  | invalidExtension
  | transfer (cause : P2PVault.TransferError)
  | panic
  deriving DecidableEq

/-- `1 days`. -/
def GRACE_PERIOD : ℕ := 86400
def MAX_TIMESTAMP : ℕ := 8640000000000

structure Limits where
  maxExposure : ℕ
  minDraw : ℕ
  maxDraw : ℕ
  minDuration : ℕ
  maxDuration : ℕ
  maxQuoteLifetime : ℕ
  minCollateralPerPrincipalWad : ℕ
  minInterestBps : ℕ

/-- What a call carries; the amounts are words. -/
structure Quote where
  epoch : ℕ
  nonce : ℕ
  borrower : Address
  capacity : ℕ
  minDraw : ℕ
  collateralForCapacity : ℕ
  interestForCapacity : ℕ
  duration : ℕ
  validAfter : ℕ
  expiresAt : ℕ
  capacity_lt : capacity < MODULUS
  collateral_lt : collateralForCapacity < MODULUS
  interest_lt : interestForCapacity < MODULUS

structure QuoteUse where
  digest : ℕ
  filled : ℕ
  cancelled : Bool

inductive Status
  | none
  | active
  | repaid
  | defaulted
  deriving DecidableEq

structure Loan where
  borrower : Address
  vault : Address
  principal : ℕ
  collateralAmount : ℕ
  interest : ℕ
  dueAt : ℕ
  lenderCredit : ℕ
  feeCredit : ℕ
  collateralCredit : ℕ
  status : Status
  defaultAcknowledged : Bool

structure Extension where
  proposer : Address
  nonce : ℕ
  oldDeadline : ℕ
  newDeadline : ℕ
  expiresAt : ℕ

def noUse : QuoteUse := ⟨0, 0, false⟩
def noLoan : Loan := ⟨0, 0, 0, 0, 0, 0, 0, 0, 0, .none, false⟩
def noExtension : Extension := ⟨0, 0, 0, 0, 0⟩

/-- The immutables, with what the constructor checks of them. -/
structure Config where
  self : Address
  lender : Address
  feeRecipient : Address
  feeBps : ℕ
  /-- The EIP-712 digest of a quote. -/
  quoteHash : Quote → ℕ
  lender_ne_zero : lender ≠ 0
  lender_ne_self : lender ≠ self
  recipient_ne_zero : feeRecipient ≠ 0
  recipient_ne_self : feeRecipient ≠ self
  fee_le : feeBps ≤ 10000

structure Facility where
  quoteSigner : Address
  limits : Limits
  epoch : ℕ
  newLoansPaused : Bool
  idleCash : ℕ
  activePrincipal : ℕ
  unresolvedDefaultPrincipal : ℕ
  acknowledgedDefaultPrincipal : ℕ
  idleCashWrittenOff : ℕ
  repaymentWrittenOff : ℕ
  nextLoanId : ℕ
  quoteUses : ℕ → ℕ → QuoteUse
  loans : ℕ → Loan
  extensions : ℕ → Extension
  extensionNonce : ℕ → ℕ

abbrev Signature := List UInt8

structure World where
  cfg : Config
  now : ℕ
  loanToken : TokenLedger Address
  collateralToken : TokenLedger Address
  isValidSignatureNow : Address → ℕ → Signature → Bool
  facility : Facility

def World.loan (id : ℕ) (w : World) : Loan := w.facility.loans id

def setLoan (id : ℕ) (loan : Loan) (f : Facility) : Facility :=
  { f with loans := update f.loans id loan }

/-- The facility's own USDG. -/
def cash (w : World) : ℕ := w.loanToken.balanceOf w.cfg.self

/-! ### Tokens -/

def onLoanToken
    (f : TokenLedger Address → Except P2PVault.TransferError (TokenLedger Address)) (w : World) :
    Except Error World := do
  let loanToken ← (f w.loanToken).mapError .transfer
  pure { w with loanToken }

def onCollateralToken
    (f : TokenLedger Address → Except P2PVault.TransferError (TokenLedger Address)) (w : World) :
    Except Error World := do
  let collateralToken ← (f w.collateralToken).mapError .transfer
  pure { w with collateralToken }

/-- `_sendCash`. -/
def sendCash (recipient : Address) (amount : ℕ) (w : World) : Except Error World := do
  revertIf (recipient = 0 ∨ recipient = w.cfg.self) .invalidWithdrawal
  onLoanToken (P2PVault.sendExact w.cfg.self recipient amount) w

/-! ### The lender's policy and idle cash -/

def onlyLender (sender : Address) (w : World) : Except Error Unit :=
  revertIf (sender ≠ w.cfg.lender) .unauthorized

/-- `_validateLimits`. -/
def validateLimits (policy : Limits) : Except Error Unit :=
  revertIf (policy.maxExposure = 0 ∨ policy.minDraw = 0 ∨ policy.maxDraw < policy.minDraw ∨
    policy.maxExposure < policy.maxDraw ∨ policy.minDuration = 0 ∨
    policy.minDuration % 86400 ≠ 0 ∨ policy.maxDuration < policy.minDuration ∨
    policy.maxDuration % 86400 ≠ 0 ∨ MAX_TIMESTAMP - GRACE_PERIOD < policy.maxDuration ∨
    policy.maxQuoteLifetime = 0 ∨ policy.minCollateralPerPrincipalWad = 0 ∨
    10000 < policy.minInterestBps) .invalidConfiguration

def setPolicy (sender : Address) (next : Limits) (signer : Address) (w : World) :
    Except Error World := do
  onlyLender sender w
  validateLimits next
  revertIf (signer = w.cfg.self) .invalidConfiguration
  pure
    { w with
      facility :=
        { w.facility with
          limits := next
          quoteSigner := signer
          epoch := w.facility.epoch + 1 } }

def setNewLoansPaused (sender : Address) (paused : Bool) (w : World) : Except Error World := do
  onlyLender sender w
  pure { w with facility := { w.facility with newLoansPaused := paused } }

def setUse (nonce : ℕ) (use : QuoteUse) (f : Facility) : Facility :=
  { f with quoteUses := update f.quoteUses f.epoch (update (f.quoteUses f.epoch) nonce use) }

def cancelQuote (sender : Address) (nonce : ℕ) (w : World) : Except Error World := do
  onlyLender sender w
  let f := w.facility
  pure { w with facility := setUse nonce { f.quoteUses f.epoch nonce with cancelled := true } f }

def deposit (sender : Address) (amount : ℕ) (w : World) : Except Error World := do
  onlyLender sender w
  revertIf (amount = 0 ∨ cash w < w.facility.idleCash) .capacityUnavailable
  let w ← onLoanToken (P2PVault.pullExact w.cfg.self sender w.cfg.self amount) w
  pure { w with facility := { w.facility with idleCash := w.facility.idleCash + amount } }

def withdrawIdle (sender : Address) (amount : ℕ) (recipient : Address) (w : World) :
    Except Error World := do
  onlyLender sender w
  revertIf (amount = 0 ∨ w.facility.idleCash < amount) .invalidWithdrawal
  sendCash recipient amount
    { w with facility := { w.facility with idleCash := w.facility.idleCash - amount } }

def withdrawSurplus (sender : Address) (amount : ℕ) (recipient : Address) (w : World) :
    Except Error World := do
  onlyLender sender w
  revertIf (cash w < w.facility.idleCash ∨ amount = 0 ∨ cash w - w.facility.idleCash < amount)
    .invalidWithdrawal
  sendCash recipient amount w

def acknowledgeIdleLoss (sender : Address) (w : World) : Except Error World := do
  onlyLender sender w
  revertIf (w.facility.idleCash ≤ cash w) .invalidWithdrawal
  pure
    { w with
      facility :=
        { w.facility with
          idleCash := cash w
          idleCashWrittenOff := w.facility.idleCashWrittenOff + (w.facility.idleCash - cash w) } }

/-! ### Quotes -/

def isValidQuoteSignature (quote : Quote) (signature : Signature) (w : World) : Bool :=
  let digest := w.cfg.quoteHash quote
  w.isValidSignatureNow w.cfg.lender digest signature ||
    (decide (w.facility.quoteSigner ≠ 0) &&
      w.isValidSignatureNow w.facility.quoteSigner digest signature)

/-- The collateral and the interest of a draw. -/
def quoteTerms (quote : Quote) (principal : ℕ) : Except Error (ℕ × ℕ) := do
  revertIf (principal = 0 ∨ quote.capacity = 0 ∨ quote.capacity < principal) .invalidQuote
  pure (mulDivUp principal quote.collateralForCapacity quote.capacity,
    mulDivUp principal quote.interestForCapacity quote.capacity)

/-- `_checkQuote`. -/
def checkQuote (sender : Address) (quote : Quote) (principal : ℕ) (w : World) :
    Except Error (ℕ × ℕ) := do
  let limits := w.facility.limits
  revertIf (quote.epoch ≠ w.facility.epoch ∨ sender = w.cfg.lender ∨
    (quote.borrower ≠ 0 ∧ quote.borrower ≠ sender) ∨ quote.borrower = w.cfg.self ∨
    quote.capacity = 0 ∨ quote.minDraw = 0 ∨ quote.capacity < quote.minDraw ∨
    quote.collateralForCapacity = 0 ∨ MODULUS - 1 - quote.capacity < quote.interestForCapacity ∨
    w.now < quote.validAfter ∨ quote.expiresAt ≤ w.now ∨ quote.expiresAt ≤ quote.validAfter ∨
    limits.maxQuoteLifetime < quote.expiresAt - quote.validAfter ∨
    MAX_TIMESTAMP - GRACE_PERIOD < quote.expiresAt ∨
    MAX_TIMESTAMP - GRACE_PERIOD - quote.expiresAt < quote.duration ∨
    quote.duration < limits.minDuration ∨ limits.maxDuration < quote.duration ∨
    quote.duration % 86400 ≠ 0 ∨ principal < quote.minDraw ∨ principal < limits.minDraw ∨
    limits.maxDraw < principal) .invalidQuote
  let (collateral, interest) ← quoteTerms quote principal
  revertIf (collateral < mulDivUp principal limits.minCollateralPerPrincipalWad (10 ^ 18) ∨
    interest < mulDivUp principal limits.minInterestBps 10000) .invalidQuote
  pure (collateral, interest)

/-! ### Loans -/

/-- The new loan, and its number. -/
def draw (sender vault : Address) (quote : Quote) (signature : Signature)
    (principal maxCollateral maxInterest minRemainingCapacity : ℕ) (w : World) :
    Except Error (World × ℕ) := do
  let f := w.facility
  revertIf (f.newLoansPaused = true) .newLoansPaused
  let (collateral, interest) ← checkQuote sender quote principal w
  revertIf (maxCollateral < collateral ∨ maxInterest < interest) .borrowerBoundsExceeded
  let digest := w.cfg.quoteHash quote
  revertIf (isValidQuoteSignature quote signature w = false) .invalidSignature
  let used := f.quoteUses f.epoch quote.nonce
  revertIf (used.cancelled = true ∨ (used.filled ≠ 0 ∧ used.digest ≠ digest) ∨
    quote.capacity < used.filled ∨ quote.capacity - used.filled < principal ∨
    quote.capacity - used.filled < minRemainingCapacity) .quoteUnavailable
  let exposure := f.activePrincipal + f.unresolvedDefaultPrincipal
  revertIf (f.limits.maxExposure < exposure ∨ f.limits.maxExposure - exposure < principal ∨
    f.idleCash < principal ∨ cash w < f.idleCash) .capacityUnavailable
  let id := f.nextLoanId
  let f := setUse quote.nonce { used with digest, filled := used.filled + principal } f
  let f :=
    setLoan id
      { f.loans id with
        borrower := sender
        vault
        principal
        collateralAmount := collateral
        interest
        dueAt := w.now + quote.duration
        status := .active }
      { f with
        idleCash := f.idleCash - principal
        activePrincipal := f.activePrincipal + principal
        nextLoanId := id + 1 }
  let w ← onCollateralToken (P2PVault.pullExact w.cfg.self sender vault collateral)
    { w with facility := f }
  let w ← sendCash sender principal w
  pure (w, id)

def repay (sender : Address) (id : ℕ) (w : World) : Except Error World := do
  let loan := w.loan id
  revertIf (loan.status ≠ .active) .wrongStatus
  revertIf (loan.dueAt + GRACE_PERIOD < w.now) .deadlinePassed
  let activePrincipal ← checkedSub w.facility.activePrincipal loan.principal .panic
  let feeCredit := mulDiv loan.interest w.cfg.feeBps 10000
  let owed ← checkedAdd loan.principal loan.interest .panic
  let lenderCredit ← checkedSub owed feeCredit .panic
  let f :=
    setLoan id
      { loan with
        status := .repaid, feeCredit, lenderCredit, collateralCredit := loan.collateralAmount }
      { w.facility with activePrincipal }
  onLoanToken (P2PVault.pullExact w.cfg.self sender loan.vault owed) { w with facility := f }

def claimDefault (id : ℕ) (w : World) : Except Error World := do
  let loan := w.loan id
  revertIf (loan.status ≠ .active) .wrongStatus
  revertIf (w.now ≤ loan.dueAt + GRACE_PERIOD) .tooEarly
  let activePrincipal ← checkedSub w.facility.activePrincipal loan.principal .panic
  pure
    { w with
      facility :=
        setLoan id { loan with status := .defaulted, collateralCredit := loan.collateralAmount }
          { w.facility with
            activePrincipal
            unresolvedDefaultPrincipal :=
              w.facility.unresolvedDefaultPrincipal + loan.principal } }

/-! ### What a vault still holds for each side -/

def availableRepayment (id : ℕ) (w : World) : ℕ :=
  let loan := w.loan id
  if loan.lenderCredit = 0 then 0 else min loan.lenderCredit (w.loanToken.balanceOf loan.vault)

/-- The lender's claim comes before the fee. -/
def availableFee (id : ℕ) (w : World) : ℕ :=
  let loan := w.loan id
  if loan.feeCredit = 0 then 0
  else
    let balance := w.loanToken.balanceOf loan.vault
    if balance ≤ loan.lenderCredit then 0 else min loan.feeCredit (balance - loan.lenderCredit)

def availableCollateral (id : ℕ) (w : World) : ℕ :=
  let loan := w.loan id
  if loan.collateralCredit = 0 then 0
  else min loan.collateralCredit (w.collateralToken.balanceOf loan.vault)

def collateralOwner (id : ℕ) (w : World) : Address :=
  match (w.loan id).status with
  | .repaid => (w.loan id).borrower
  | .defaulted => w.cfg.lender
  | _ => 0

def recycleRepayment (id : ℕ) (w : World) : Except Error (World × ℕ) := do
  let loan := w.loan id
  let amount := availableRepayment id w
  revertIf (amount = 0 ∨ cash w < w.facility.idleCash) .capacityUnavailable
  let f := setLoan id { loan with lenderCredit := loan.lenderCredit - amount } w.facility
  let w ← onLoanToken (P2PVault.transferTo loan.vault w.cfg.self amount) { w with facility := f }
  pure ({ w with facility := { w.facility with idleCash := w.facility.idleCash + amount } }, amount)

def withdrawRepayment (sender : Address) (id amount : ℕ) (recipient : Address) (w : World) :
    Except Error World := do
  onlyLender sender w
  let loan := w.loan id
  revertIf (amount = 0 ∨ availableRepayment id w < amount ∨ recipient = w.cfg.self)
    .invalidWithdrawal
  let f := setLoan id { loan with lenderCredit := loan.lenderCredit - amount } w.facility
  onLoanToken (P2PVault.transferTo loan.vault recipient amount) { w with facility := f }

def collectFee (id : ℕ) (w : World) : Except Error (World × ℕ) := do
  let loan := w.loan id
  let amount := availableFee id w
  revertIf (amount = 0) .invalidWithdrawal
  let f := setLoan id { loan with feeCredit := loan.feeCredit - amount } w.facility
  let w ← onLoanToken (P2PVault.transferTo loan.vault w.cfg.feeRecipient amount)
    { w with facility := f }
  pure (w, amount)

def withdrawCollateral (sender : Address) (id amount : ℕ) (recipient : Address) (w : World) :
    Except Error World := do
  let loan := w.loan id
  revertIf (sender ≠ collateralOwner id w) .unauthorized
  revertIf (amount = 0 ∨ availableCollateral id w < amount ∨ recipient = w.cfg.self)
    .invalidWithdrawal
  let f := setLoan id { loan with collateralCredit := loan.collateralCredit - amount } w.facility
  onCollateralToken (P2PVault.transferTo loan.vault recipient amount) { w with facility := f }

def writeOffRepayment (sender : Address) (id : ℕ) (w : World) : Except Error World := do
  onlyLender sender w
  let loan := w.loan id
  let available := availableRepayment id w
  revertIf (loan.lenderCredit ≤ available) .invalidWithdrawal
  pure
    { w with
      facility :=
        setLoan id { loan with lenderCredit := available }
          { w.facility with
            repaymentWrittenOff :=
              w.facility.repaymentWrittenOff + (loan.lenderCredit - available) } }

def writeOffCollateral (sender : Address) (id : ℕ) (w : World) : Except Error World := do
  let loan := w.loan id
  revertIf (sender ≠ collateralOwner id w) .unauthorized
  let available := availableCollateral id w
  revertIf (loan.collateralCredit ≤ available) .invalidWithdrawal
  pure { w with facility := setLoan id { loan with collateralCredit := available } w.facility }

def acknowledgeDefault (sender : Address) (id : ℕ) (w : World) : Except Error World := do
  onlyLender sender w
  let loan := w.loan id
  revertIf (loan.status ≠ .defaulted ∨ loan.defaultAcknowledged = true ∨ loan.collateralCredit ≠ 0)
    .wrongStatus
  let unresolved ← checkedSub w.facility.unresolvedDefaultPrincipal loan.principal .panic
  pure
    { w with
      facility :=
        setLoan id { loan with defaultAcknowledged := true }
          { w.facility with
            unresolvedDefaultPrincipal := unresolved
            acknowledgedDefaultPrincipal :=
              w.facility.acknowledgedDefaultPrincipal + loan.principal } }

/-! ### Extensions -/

def proposeExtension (sender : Address) (id newDeadline expiresAt : ℕ) (w : World) :
    Except Error World := do
  let loan := w.loan id
  revertIf (sender ≠ w.cfg.lender ∧ sender ≠ loan.borrower) .unauthorized
  revertIf (loan.status ≠ .active) .wrongStatus
  let oldDeadline := loan.dueAt + GRACE_PERIOD
  revertIf (newDeadline ≤ oldDeadline ∨ newDeadline ≤ w.now ∨ MAX_TIMESTAMP < newDeadline ∨
    expiresAt ≤ w.now ∨ newDeadline < expiresAt) .invalidExtension
  let f := w.facility
  let nonce := f.extensionNonce id + 1
  pure
    { w with
      facility :=
        { f with
          extensionNonce := update f.extensionNonce id nonce
          extensions := update f.extensions id
            ⟨sender, nonce, oldDeadline, newDeadline, expiresAt⟩ } }

def clearExtension (id : ℕ) (f : Facility) : Facility :=
  { f with extensions := update f.extensions id noExtension }

def cancelExtension (sender : Address) (id : ℕ) (w : World) : Except Error World := do
  revertIf (sender ≠ (w.facility.extensions id).proposer) .unauthorized
  pure { w with facility := clearExtension id w.facility }

def acceptExtension (sender : Address) (id nonce oldDeadline newDeadline expiresAt : ℕ)
    (w : World) : Except Error World := do
  let loan := w.loan id
  let proposal := w.facility.extensions id
  revertIf ((sender ≠ w.cfg.lender ∧ sender ≠ loan.borrower) ∨ sender = proposal.proposer)
    .unauthorized
  revertIf (loan.status ≠ .active) .wrongStatus
  revertIf (proposal.proposer = 0 ∨ proposal.nonce ≠ nonce ∨ proposal.oldDeadline ≠ oldDeadline ∨
    proposal.newDeadline ≠ newDeadline ∨ proposal.expiresAt ≠ expiresAt ∨ expiresAt ≤ w.now ∨
    newDeadline ≤ w.now ∨ loan.dueAt + GRACE_PERIOD ≠ oldDeadline) .invalidExtension
  let dueAt ← checkedSub newDeadline GRACE_PERIOD .panic
  pure { w with facility := clearExtension id (setLoan id { loan with dueAt } w.facility) }

/-! ### Calls -/

inductive Op
  | setPolicy (sender : Address) (next : Limits) (signer : Address)
  | setNewLoansPaused (sender : Address) (paused : Bool)
  | cancelQuote (sender : Address) (nonce : ℕ)
  | deposit (sender : Address) (amount : ℕ)
  | withdrawIdle (sender : Address) (amount : ℕ) (recipient : Address)
  | withdrawSurplus (sender : Address) (amount : ℕ) (recipient : Address)
  | acknowledgeIdleLoss (sender : Address)
  | draw (sender vault : Address) (quote : Quote) (signature : Signature)
      (principal maxCollateral maxInterest minRemainingCapacity : ℕ)
  | repay (sender : Address) (id : ℕ)
  | claimDefault (id : ℕ)
  | recycleRepayment (id : ℕ)
  | withdrawRepayment (sender : Address) (id amount : ℕ) (recipient : Address)
  | collectFee (id : ℕ)
  | withdrawCollateral (sender : Address) (id amount : ℕ) (recipient : Address)
  | writeOffRepayment (sender : Address) (id : ℕ)
  | writeOffCollateral (sender : Address) (id : ℕ)
  | acknowledgeDefault (sender : Address) (id : ℕ)
  | proposeExtension (sender : Address) (id newDeadline expiresAt : ℕ)
  | cancelExtension (sender : Address) (id : ℕ)
  | acceptExtension (sender : Address) (id nonce oldDeadline newDeadline expiresAt : ℕ)
  /-- Time passes, others do what they like with the tokens, and signers change their minds. -/
  | outside (loanToken collateralToken : TokenLedger Address)
      (isValidSignatureNow : Address → ℕ → Signature → Bool) (seconds : ℕ)

def exec : Op → World → Except Error World
  | .setPolicy sender next signer, w => setPolicy sender next signer w
  | .setNewLoansPaused sender paused, w => setNewLoansPaused sender paused w
  | .cancelQuote sender nonce, w => cancelQuote sender nonce w
  | .deposit sender amount, w => deposit sender amount w
  | .withdrawIdle sender amount recipient, w => withdrawIdle sender amount recipient w
  | .withdrawSurplus sender amount recipient, w => withdrawSurplus sender amount recipient w
  | .acknowledgeIdleLoss sender, w => acknowledgeIdleLoss sender w
  | .draw sender vault quote signature principal maxCollateral maxInterest minRemainingCapacity, w =>
    Prod.fst <$>
      draw sender vault quote signature principal maxCollateral maxInterest minRemainingCapacity w
  | .repay sender id, w => repay sender id w
  | .claimDefault id, w => claimDefault id w
  | .recycleRepayment id, w => Prod.fst <$> recycleRepayment id w
  | .withdrawRepayment sender id amount recipient, w =>
    withdrawRepayment sender id amount recipient w
  | .collectFee id, w => Prod.fst <$> collectFee id w
  | .withdrawCollateral sender id amount recipient, w =>
    withdrawCollateral sender id amount recipient w
  | .writeOffRepayment sender id, w => writeOffRepayment sender id w
  | .writeOffCollateral sender id, w => writeOffCollateral sender id w
  | .acknowledgeDefault sender id, w => acknowledgeDefault sender id w
  | .proposeExtension sender id newDeadline expiresAt, w =>
    proposeExtension sender id newDeadline expiresAt w
  | .cancelExtension sender id, w => cancelExtension sender id w
  | .acceptExtension sender id nonce oldDeadline newDeadline expiresAt, w =>
    acceptExtension sender id nonce oldDeadline newDeadline expiresAt w
  | .outside loanToken collateralToken isValidSignatureNow seconds, w =>
    pure { w with loanToken, collateralToken, isValidSignatureNow, now := w.now + seconds }

/-- What the constructor leaves. -/
def deployed (limits : Limits) : Facility where
  quoteSigner := 0
  limits := limits
  epoch := 1
  newLoansPaused := false
  idleCash := 0
  activePrincipal := 0
  unresolvedDefaultPrincipal := 0
  acknowledgedDefaultPrincipal := 0
  idleCashWrittenOff := 0
  repaymentWrittenOff := 0
  nextLoanId := 1
  quoteUses _ _ := noUse
  loans _ := noLoan
  extensions _ := noExtension
  extensionNonce _ := 0

def Deployed (w : World) : Prop :=
  ∃ limits, validateLimits limits = .ok () ∧ w.facility = deployed limits

def Reachable (w : World) : Prop :=
  ∃ start ops, Deployed start ∧ Run (accepts exec) start ops w

/-- A facility at account 100, for the cash of account 2. -/
def sampleConfig (quoteHash : Quote → ℕ) : Config where
  self := 100
  lender := 2
  feeRecipient := 4
  feeBps := 2500
  quoteHash := quoteHash
  lender_ne_zero := Address.two_ne_zero
  lender_ne_self := by decide
  recipient_ne_zero := by decide
  recipient_ne_self := by decide
  fee_le := by decide

/-- A thousand units of cash, against seven of collateral and three of interest. -/
def sampleQuote : Quote where
  epoch := 1
  nonce := 5
  borrower := 0
  capacity := 1000
  minDraw := 1
  collateralForCapacity := 7
  interestForCapacity := 3
  duration := 86400
  validAfter := 900
  expiresAt := 2000
  capacity_lt := by decide
  collateral_lt := by decide
  interest_lt := by decide

end Turret.LenderFacility
