import Turret.ERC4626
import Turret.Library.SwapPop
import Turret.P2P.Vault

/-! `TurretP2PLendingV3`: fixed-term loans between two parties, each offer with a
vault of its own, and the credits that repayment, default and cancellation leave
to the parties. Amounts are naturals: where the contract's checked arithmetic
would overflow it reverts, so its runs are among the runs below. The two tokens
move exactly what is asked or fail; what their holders and issuers do besides is
not restricted. The reentrancy guard is left out, since no call is met inside
another. The address of a new vault is an argument of the call that creates it. -/

namespace Turret.LendingV3

open Execution ERC4626 Function

inductive Error
  | invalidConfiguration
  | invalidTerms
  | newLoansPaused
  | unauthorized
  | wrongStatus
  | offerExpired
  | tooEarly
  | repaymentDeadlinePassed
  | invalidPagination
  | stalePagination
  | unsupportedTransfer
  | invalidWithdrawal
  | insufficientBacking
  | invalidCreditSources
  | invalidExtension
  | transfer (cause : P2PVault.TransferError)
  | panic
  deriving DecidableEq

/-- `1 days`. -/
def GRACE_PERIOD : ℕ := 86400
def MAX_PAGE_SIZE : ℕ := 50
def MAX_CREDIT_SOURCES : ℕ := 16
def MAX_TIMESTAMP : ℕ := 8640000000000

inductive Status
  | none
  | open_
  | active
  | repaid
  | defaulted
  | cancelled
  | expired
  deriving DecidableEq

structure Offer where
  lender : Address
  borrower : Address
  principal : ℕ
  collateralAmount : ℕ
  interest : ℕ
  duration : ℕ
  expiresAt : ℕ
  dueAt : ℕ
  status : Status

structure ExtensionProposal where
  proposer : Address
  nonce : ℕ
  oldDeadline : ℕ
  newDeadline : ℕ
  expiresAt : ℕ

/-- The token a call names: one of the pair, or any other contract. -/
inductive Token
  | loanToken
  | collateralToken
  | other
  deriving DecidableEq

def noOffer : Offer := ⟨0, 0, 0, 0, 0, 0, 0, 0, .none⟩
def noProposal : ExtensionProposal := ⟨0, 0, 0, 0, 0⟩

structure Market where
  guardian : Address
  pendingGuardian : Address
  newLoansPaused : Bool
  nextOfferId : ℕ
  committedPrincipal : ℕ
  reservedPrincipal : ℕ
  lockedCollateral : ℕ
  offers : ℕ → Offer
  vaults : ℕ → Address
  isPublicOffer : ℕ → Bool
  offerCreatedAt : ℕ → ℕ
  credits : Token → Address → ℕ
  totalCredits : Token → ℕ
  loanCredits : ℕ → Token → ℕ
  accountOfferIds : Address → List ℕ
  incomingOfferIds : Address → List ℕ
  publicOfferIds : List ℕ
  activeLoanIds : Address → SwapPop ℕ
  activeLoanRevision : Address → ℕ
  extensionProposals : ℕ → ExtensionProposal
  extensionNonce : ℕ → ℕ

structure World where
  self : Address
  now : ℕ
  token : Token → TokenLedger Address
  market : Market

/-! ### Tokens -/

/-- A transfer of `token`. -/
def onToken (token : Token)
    (f : TokenLedger Address → Except P2PVault.TransferError (TokenLedger Address)) (w : World) :
    Except Error World := do
  let next ← (f (w.token token)).mapError .transfer
  pure { w with token := update w.token token next }

/-- `_pullToExact`. -/
def pullToExact (token : Token) (src vault : Address) (amount : ℕ) : World → Except Error World :=
  fun w => onToken token (P2PVault.pullExact w.self src vault amount) w

/-- `transferTo` of a vault, for the two tokens it knows. -/
def transferTo (vault : Address) (token : Token) (recipient : Address) (amount : ℕ) (w : World) :
    Except Error World := do
  revertIf (token = .other) (.transfer .invalidTransfer)
  onToken token (P2PVault.transferTo vault recipient amount) w

/-! ### Credits -/

/-- `_credit`. -/
def credit (id : ℕ) (token : Token) (account : Address) (amount : ℕ) (m : Market) : Market :=
  { m with
    loanCredits := update m.loanCredits id
      (update (m.loanCredits id) token (m.loanCredits id token + amount))
    credits := update m.credits token
      (update (m.credits token) account (m.credits token account + amount))
    totalCredits := update m.totalCredits token (m.totalCredits token + amount) }

/-- `_beneficiary`. -/
def beneficiary (id : ℕ) (token : Token) (m : Market) : Address :=
  let offer := m.offers id
  if token = .loanToken ∧
      (offer.status = .repaid ∨ offer.status = .cancelled ∨ offer.status = .expired) then
    offer.lender
  else if token = .collateralToken ∧ offer.status = .repaid then offer.borrower
  else if token = .collateralToken ∧ offer.status = .defaulted then offer.lender
  else 0

/-- `loanCredit`: the beneficiary, its nominal claim, and what backs it. -/
def loanCredit (id : ℕ) (token : Token) (w : World) : Address × ℕ × ℕ :=
  let nominal := w.market.loanCredits id token
  (beneficiary id token w.market, nominal,
    if nominal = 0 then 0 else min ((w.token token).balanceOf (w.market.vaults id)) nominal)

/-- `_debitCredit`. -/
def debitCredit (sender : Address) (id : ℕ) (token : Token) (amount : ℕ) (m : Market) :
    Except Error Market := do
  let claim ← checkedSub (m.loanCredits id token) amount .panic
  let owned ← checkedSub (m.credits token sender) amount .panic
  let total ← checkedSub (m.totalCredits token) amount .panic
  pure
    { m with
      loanCredits := update m.loanCredits id (update (m.loanCredits id) token claim)
      credits := update m.credits token (update (m.credits token) sender owned)
      totalCredits := update m.totalCredits token total }

/-- `_spendCredit`. -/
def spendCredit (sender : Address) (id : ℕ) (token : Token) (amount : ℕ) (w : World) :
    Except Error World := do
  let (owner, nominal, available) := loanCredit id token w
  revertIf (owner ≠ sender) .unauthorized
  revertIf (amount = 0 ∨ nominal < amount) .invalidWithdrawal
  revertIf (available < amount) .insufficientBacking
  let market ← debitCredit sender id token amount w.market
  pure { w with market }

/-! ### Active loans -/

/-- `_addActive`. -/
def addActive (account : Address) (id : ℕ) (m : Market) : Market :=
  { m with
    activeLoanIds := update m.activeLoanIds account ((m.activeLoanIds account).insert id)
    activeLoanRevision := update m.activeLoanRevision account (m.activeLoanRevision account + 1) }

def removeActive (account : Address) (id : ℕ) (m : Market) : Except Error Market := do
  let rest ← orRevert ((m.activeLoanIds account).erase id) .panic
  pure { m with activeLoanIds := update m.activeLoanIds account rest }

def bumpRevision (account : Address) (m : Market) : Market :=
  { m with
    activeLoanRevision := update m.activeLoanRevision account (m.activeLoanRevision account + 1) }

/-- `_settled`. -/
def settled (id : ℕ) (m : Market) : Except Error Market := do
  let offer := m.offers id
  let m ← removeActive offer.lender id m
  let m ← removeActive offer.borrower id m
  let m := bumpRevision offer.borrower (bumpRevision offer.lender m)
  pure { m with extensionProposals := update m.extensionProposals id noProposal }

def setOffer (id : ℕ) (offer : Offer) (m : Market) : Market :=
  { m with offers := update m.offers id offer }

/-! ### Offers -/

/-- Where a new offer is listed besides its lender's history: publicly, or for its borrower. -/
def listed (id : ℕ) (borrower : Address) (m : Market) : Market :=
  if borrower = 0 then
    { m with
      isPublicOffer := update m.isPublicOffer id true
      publicOfferIds := m.publicOfferIds ++ [id] }
  else
    { m with
      incomingOfferIds :=
        update m.incomingOfferIds borrower (m.incomingOfferIds borrower ++ [id]) }

/-- The account's history ends with `id`. -/
def remembered (account : Address) (id : ℕ) (m : Market) : Market :=
  { m with accountOfferIds := update m.accountOfferIds account (m.accountOfferIds account ++ [id]) }

def createOffer (sender vault borrower : Address)
    (principal collateralAmount interest duration expiresAt : ℕ) (w : World) :
    Except Error World := do
  let m := w.market
  revertIf (m.newLoansPaused = true) .newLoansPaused
  revertIf (borrower = w.self ∨ borrower = sender ∨ principal = 0 ∨ collateralAmount = 0 ∨
    maxUint - principal < interest ∨ duration = 0 ∨ duration % 86400 ≠ 0 ∨ expiresAt ≤ w.now ∨
    MAX_TIMESTAMP - GRACE_PERIOD < expiresAt ∨
    MAX_TIMESTAMP - GRACE_PERIOD - expiresAt < duration) .invalidTerms
  let id := m.nextOfferId
  let m :=
    { m with
      nextOfferId := id + 1
      offers := update m.offers id ⟨sender, borrower, principal, collateralAmount, interest,
        duration, expiresAt, 0, .open_⟩
      offerCreatedAt := update m.offerCreatedAt id (w.now % 2 ^ 64)
      vaults := update m.vaults id vault }
  let m := listed id borrower (remembered sender id m)
  let m :=
    { m with
      committedPrincipal := m.committedPrincipal + principal
      reservedPrincipal := m.reservedPrincipal + principal }
  pullToExact .loanToken sender vault principal { w with market := m }

def acceptOffer (sender : Address) (id : ℕ) (w : World) : Except Error World := do
  let m := w.market
  revertIf (m.newLoansPaused = true) .newLoansPaused
  let offer := m.offers id
  revertIf (offer.status ≠ .open_) .wrongStatus
  revertIf (sender = offer.lender ∨ (offer.borrower ≠ 0 ∧ sender ≠ offer.borrower)) .unauthorized
  revertIf (offer.expiresAt ≤ w.now) .offerExpired
  let vault := m.vaults id
  revertIf ((w.token .loanToken).balanceOf vault < offer.principal) .insufficientBacking
  let reserved ← checkedSub m.reservedPrincipal offer.principal .panic
  let m := remembered sender id (setOffer id
    { offer with borrower := sender, status := .active, dueAt := w.now + offer.duration } m)
  let m :=
    { m with
      reservedPrincipal := reserved
      lockedCollateral := m.lockedCollateral + offer.collateralAmount }
  let m := addActive sender id (addActive offer.lender id m)
  let w ← pullToExact .collateralToken sender vault offer.collateralAmount { w with market := m }
  transferTo vault .loanToken sender offer.principal w

/-- `_closeOffer`. -/
def closeOffer (id : ℕ) (status : Status) (m : Market) : Except Error Market := do
  let offer := m.offers id
  let committed ← checkedSub m.committedPrincipal offer.principal .panic
  let reserved ← checkedSub m.reservedPrincipal offer.principal .panic
  let m := setOffer id { offer with status } m
  pure (credit id .loanToken offer.lender offer.principal
    { m with committedPrincipal := committed, reservedPrincipal := reserved })

def cancelOffer (sender : Address) (id : ℕ) (w : World) : Except Error World := do
  let offer := w.market.offers id
  revertIf (offer.status ≠ .open_) .wrongStatus
  revertIf (sender ≠ offer.lender) .unauthorized
  let market ← closeOffer id .cancelled w.market
  pure { w with market }

def expireOffer (id : ℕ) (w : World) : Except Error World := do
  let offer := w.market.offers id
  revertIf (offer.status ≠ .open_) .wrongStatus
  revertIf (w.now < offer.expiresAt) .tooEarly
  let market ← closeOffer id .expired w.market
  pure { w with market }

/-! ### Repayment and default -/

/-- The principal and the collateral of a loan that ends are no longer committed. -/
def released (offer : Offer) (m : Market) : Except Error Market := do
  let committed ← checkedSub m.committedPrincipal offer.principal .panic
  let locked ← checkedSub m.lockedCollateral offer.collateralAmount .panic
  pure { m with committedPrincipal := committed, lockedCollateral := locked }

/-- `_repayable`. -/
def repayable (id : ℕ) (w : World) : Except Error Offer := do
  let offer := w.market.offers id
  revertIf (offer.status ≠ .active) .wrongStatus
  revertIf (offer.dueAt + GRACE_PERIOD < w.now) .repaymentDeadlinePassed
  pure offer

/-- `_finishRepayment`. -/
def finishRepayment (id : ℕ) (offer : Offer) (repayment : ℕ) (m : Market) :
    Except Error Market := do
  let m ← released offer (setOffer id { offer with status := .repaid } m)
  settled id (credit id .collateralToken offer.borrower offer.collateralAmount
    (credit id .loanToken offer.lender repayment m))

def repay (sender : Address) (id : ℕ) (w : World) : Except Error World := do
  let offer ← repayable id w
  let repayment := offer.principal + offer.interest
  let w ← pullToExact .loanToken sender (w.market.vaults id) repayment w
  let market ← finishRepayment id offer repayment w.market
  pure { w with market }

/-- Sources strictly increase, none is the loan itself, and every amount is positive. -/
def ValidSources (id : ℕ) (sources : List (ℕ × ℕ)) : Prop :=
  (∀ source ∈ sources, source.1 ≠ 0 ∧ source.1 ≠ id ∧ source.2 ≠ 0) ∧
    sources.Pairwise fun first second => first.1 < second.1

instance (id : ℕ) (sources : List (ℕ × ℕ)) : Decidable (ValidSources id sources) :=
  inferInstanceAs (Decidable (_ ∧ _))

/-- The loop over the sources: each credit is spent and sent from its vault to `target`. -/
def spendSources (sender target : Address) : List (ℕ × ℕ) → World → Except Error World
  | [], w => pure w
  | (source, amount) :: rest, w => do
    let w ← spendCredit sender source .loanToken amount w
    let w ← transferTo (w.market.vaults source) .loanToken target amount w
    spendSources sender target rest w

/-- `if (walletAmount != 0) _pullToExact(...)`. -/
def pullWallet (sender target : Address) (walletAmount : ℕ) (w : World) : Except Error World :=
  if walletAmount ≠ 0 then pullToExact .loanToken sender target walletAmount w else pure w

def repayWithCredits (sender : Address) (id : ℕ) (sourceIds sourceAmounts : List ℕ)
    (walletAmount : ℕ) (w : World) : Except Error World := do
  let offer ← repayable id w
  revertIf (sourceIds.length ≠ sourceAmounts.length ∨ MAX_CREDIT_SOURCES < sourceIds.length)
    .invalidCreditSources
  let repayment := offer.principal + offer.interest
  let sources := sourceIds.zip sourceAmounts
  revertIf (¬ValidSources id sources) .invalidCreditSources
  let creditAmount := sourceAmounts.sum
  revertIf (repayment < creditAmount ∨ walletAmount ≠ repayment - creditAmount)
    .invalidCreditSources
  let target := w.market.vaults id
  let beforeTarget := (w.token .loanToken).balanceOf target
  let w ← spendSources sender target sources w
  let w ← pullWallet sender target walletAmount w
  revertIf ((w.token .loanToken).balanceOf target ≠ beforeTarget + repayment) .unsupportedTransfer
  let market ← finishRepayment id offer repayment w.market
  pure { w with market }

def claimDefault (id : ℕ) (w : World) : Except Error World := do
  let offer := w.market.offers id
  revertIf (offer.status ≠ .active) .wrongStatus
  revertIf (w.now ≤ offer.dueAt + GRACE_PERIOD) .tooEarly
  let m ← released offer (setOffer id { offer with status := .defaulted } w.market)
  let market ← settled id (credit id .collateralToken offer.lender offer.collateralAmount m)
  pure { w with market }

/-! ### Withdrawals -/

/-- `_validRecipient`. -/
def validRecipient (recipient : Address) (w : World) : Except Error Unit :=
  revertIf (recipient = 0 ∨ recipient = w.self) .invalidWithdrawal

def withdrawCredit (sender : Address) (id : ℕ) (token : Token) (amount : ℕ) (recipient : Address)
    (w : World) : Except Error World := do
  validRecipient recipient w
  let w ← spendCredit sender id token amount w
  transferTo (w.market.vaults id) token recipient amount w

/-- `if (available != 0) transferTo(...)`. -/
def payAvailable (vault : Address) (token : Token) (recipient : Address) (available : ℕ)
    (w : World) : Except Error World :=
  if available ≠ 0 then transferTo vault token recipient available w else pure w

def withdrawAvailableCredit (sender : Address) (id : ℕ) (token : Token) (minReceived : ℕ)
    (recipient : Address) (w : World) : Except Error World := do
  validRecipient recipient w
  let (owner, nominal, available) := loanCredit id token w
  revertIf (owner ≠ sender) .unauthorized
  revertIf (nominal = 0 ∨ available < minReceived) .invalidWithdrawal
  let market ← debitCredit sender id token nominal w.market
  payAvailable (market.vaults id) token recipient available { w with market }

/-! ### Extensions -/

/-- The parties of the loan, in the order the code names them. -/
def isParty (sender : Address) (offer : Offer) : Prop :=
  sender = offer.borrower ∨ sender = offer.lender

instance (sender : Address) (offer : Offer) : Decidable (isParty sender offer) :=
  inferInstanceAs (Decidable (_ ∨ _))

def proposeExtension (sender : Address) (id newDeadline expiresAt : ℕ) (w : World) :
    Except Error World := do
  let m := w.market
  let offer := m.offers id
  revertIf (offer.status ≠ .active) .wrongStatus
  revertIf (¬isParty sender offer) .unauthorized
  let oldDeadline := offer.dueAt + GRACE_PERIOD
  revertIf (newDeadline ≤ oldDeadline ∨ MAX_TIMESTAMP < newDeadline ∨ expiresAt ≤ w.now ∨
    newDeadline < expiresAt ∨ newDeadline ≤ w.now) .invalidExtension
  let nonce := m.extensionNonce id + 1
  pure
    { w with
      market :=
        { m with
          extensionNonce := update m.extensionNonce id nonce
          extensionProposals := update m.extensionProposals id
            ⟨sender, nonce, oldDeadline, newDeadline, expiresAt⟩ } }

def acceptExtension (sender : Address) (id nonce oldDeadline newDeadline expiresAt : ℕ)
    (w : World) : Except Error World := do
  let m := w.market
  let offer := m.offers id
  revertIf (offer.status ≠ .active) .wrongStatus
  let proposal := m.extensionProposals id
  revertIf (sender = proposal.proposer ∨ ¬isParty sender offer) .unauthorized
  revertIf (proposal.proposer = 0 ∨ proposal.nonce ≠ nonce ∨ proposal.oldDeadline ≠ oldDeadline ∨
    proposal.newDeadline ≠ newDeadline ∨ proposal.expiresAt ≠ expiresAt ∨
    offer.dueAt + GRACE_PERIOD ≠ oldDeadline ∨ expiresAt ≤ w.now) .invalidExtension
  let dueAt ← checkedSub newDeadline GRACE_PERIOD .panic
  pure
    { w with
      market :=
        setOffer id { offer with dueAt }
          { m with extensionProposals := update m.extensionProposals id noProposal } }

def cancelExtension (sender : Address) (id nonce : ℕ) (w : World) : Except Error World := do
  let m := w.market
  let proposal := m.extensionProposals id
  revertIf (proposal.proposer ≠ sender) .unauthorized
  revertIf (proposal.nonce ≠ nonce) .invalidExtension
  pure
    { w with market := { m with extensionProposals := update m.extensionProposals id noProposal } }

/-! ### The guardian -/

def setNewLoansPaused (sender : Address) (paused : Bool) (w : World) : Except Error World := do
  revertIf (sender ≠ w.market.guardian) .unauthorized
  pure { w with market := { w.market with newLoansPaused := paused } }

def nominateGuardian (sender replacement : Address) (w : World) : Except Error World := do
  revertIf (sender ≠ w.market.guardian) .unauthorized
  revertIf (replacement = 0 ∨ replacement = w.self ∨ replacement = w.market.guardian)
    .invalidConfiguration
  pure { w with market := { w.market with pendingGuardian := replacement } }

def cancelGuardianNomination (sender : Address) (w : World) : Except Error World := do
  revertIf (sender ≠ w.market.guardian) .unauthorized
  pure { w with market := { w.market with pendingGuardian := 0 } }

def acceptGuardian (sender : Address) (w : World) : Except Error World := do
  revertIf (sender ≠ w.market.pendingGuardian) .unauthorized
  pure { w with market := { w.market with guardian := sender, pendingGuardian := 0 } }

/-! ### Views -/

/-- The set of `account` from `cursor` on: its ids, the next cursor, and the revision. -/
def getActiveLoanIds (account : Address) (cursor limit expectedRevision : ℕ) (w : World) :
    Except Error (List ℕ × ℕ × ℕ) := do
  let revision := w.market.activeLoanRevision account
  revertIf ((expectedRevision = 0 ∧ cursor ≠ 0) ∨
    (expectedRevision ≠ 0 ∧ expectedRevision ≠ revision)) .stalePagination
  let source := (w.market.activeLoanIds account).members
  revertIf (limit = 0 ∨ MAX_PAGE_SIZE < limit ∨ source.length < cursor) .invalidPagination
  let rest := source.length - cursor
  let count := if limit < rest then limit else rest
  -- `for (i < count) ids[i] = source.at(cursor + i)`
  let ids := (List.range count).map fun i => source.getD (cursor + i) 0
  pure (ids, if cursor + count = source.length then 0 else cursor + count, revision)

/-! ### Calls -/

inductive Op
  | createOffer (sender vault borrower : Address)
      (principal collateralAmount interest duration expiresAt : ℕ)
  | acceptOffer (sender : Address) (id : ℕ)
  | cancelOffer (sender : Address) (id : ℕ)
  | expireOffer (id : ℕ)
  | repay (sender : Address) (id : ℕ)
  | repayWithCredits (sender : Address) (id : ℕ) (sourceIds sourceAmounts : List ℕ)
      (walletAmount : ℕ)
  | claimDefault (id : ℕ)
  | withdrawCredit (sender : Address) (id : ℕ) (token : Token) (amount : ℕ) (recipient : Address)
  | withdrawAvailableCredit (sender : Address) (id : ℕ) (token : Token) (minReceived : ℕ)
      (recipient : Address)
  | proposeExtension (sender : Address) (id newDeadline expiresAt : ℕ)
  | acceptExtension (sender : Address) (id nonce oldDeadline newDeadline expiresAt : ℕ)
  | cancelExtension (sender : Address) (id nonce : ℕ)
  | setNewLoansPaused (sender : Address) (paused : Bool)
  | nominateGuardian (sender replacement : Address)
  | cancelGuardianNomination (sender : Address)
  | acceptGuardian (sender : Address)
  /-- Time passes, and others do what they like with the tokens. -/
  | outside (token : Token → TokenLedger Address) (seconds : ℕ)

def exec : Op → World → Except Error World
  | .createOffer sender vault borrower principal collateralAmount interest duration expiresAt, w =>
    createOffer sender vault borrower principal collateralAmount interest duration expiresAt w
  | .acceptOffer sender id, w => acceptOffer sender id w
  | .cancelOffer sender id, w => cancelOffer sender id w
  | .expireOffer id, w => expireOffer id w
  | .repay sender id, w => repay sender id w
  | .repayWithCredits sender id sourceIds sourceAmounts walletAmount, w =>
    repayWithCredits sender id sourceIds sourceAmounts walletAmount w
  | .claimDefault id, w => claimDefault id w
  | .withdrawCredit sender id token amount recipient, w =>
    withdrawCredit sender id token amount recipient w
  | .withdrawAvailableCredit sender id token minReceived recipient, w =>
    withdrawAvailableCredit sender id token minReceived recipient w
  | .proposeExtension sender id newDeadline expiresAt, w =>
    proposeExtension sender id newDeadline expiresAt w
  | .acceptExtension sender id nonce oldDeadline newDeadline expiresAt, w =>
    acceptExtension sender id nonce oldDeadline newDeadline expiresAt w
  | .cancelExtension sender id nonce, w => cancelExtension sender id nonce w
  | .setNewLoansPaused sender paused, w => setNewLoansPaused sender paused w
  | .nominateGuardian sender replacement, w => nominateGuardian sender replacement w
  | .cancelGuardianNomination sender, w => cancelGuardianNomination sender w
  | .acceptGuardian sender, w => acceptGuardian sender w
  | .outside token seconds, w => pure { w with token, now := w.now + seconds }

/-- What the constructor leaves. -/
def deployed (guardian : Address) : Market where
  guardian := guardian
  pendingGuardian := 0
  newLoansPaused := false
  nextOfferId := 1
  committedPrincipal := 0
  reservedPrincipal := 0
  lockedCollateral := 0
  offers _ := noOffer
  vaults _ := 0
  isPublicOffer _ := false
  offerCreatedAt _ := 0
  credits _ _ := 0
  totalCredits _ := 0
  loanCredits _ _ := 0
  accountOfferIds _ := []
  incomingOfferIds _ := []
  publicOfferIds := []
  activeLoanIds _ := .empty
  activeLoanRevision _ := 0
  extensionProposals _ := noProposal
  extensionNonce _ := 0

def Deployed (w : World) : Prop :=
  ∃ guardian : Address, guardian ≠ 0 ∧ guardian ≠ w.self ∧ w.market = deployed guardian

def Reachable (w : World) : Prop :=
  ∃ start ops, Deployed start ∧ Run (accepts exec) start ops w

end Turret.LendingV3
