import Turret.Library.Payments
import Turret.P2P.LendingV3

/-! `TurretP2PLendingV2`, the market before the vaults: every offer and every
credit of a token share the one balance of the contract. Amounts are naturals:
where the contract's checked arithmetic would overflow it reverts, so its runs
are among the runs below. The tokens are exact-transfer and run no code of
their holders; the contract sends them by its own code only. -/

namespace Turret.P2PLendingV2

open Execution ERC4626 Function
open LendingV3 (Status Offer Token noOffer GRACE_PERIOD MAX_TIMESTAMP)

inductive Error
  | invalidTerms
  | newLoansPaused
  | unauthorized
  | wrongStatus
  | offerExpired
  | tooEarly
  | repaymentDeadlinePassed
  | unsupportedTransfer
  | invalidWithdrawal
  | contractCaller
  | erc20
  | panic
  deriving DecidableEq

structure Market where
  guardian : Address
  newLoansPaused : Bool
  nextOfferId : ℕ
  committedPrincipal : ℕ
  reservedPrincipal : ℕ
  lockedCollateral : ℕ
  offers : ℕ → Offer
  isPublicOffer : ℕ → Bool
  offerCreatedAt : ℕ → ℕ
  accountOfferIds : Address → List ℕ
  publicOfferIds : List ℕ
  credits : Token → Address → ℕ
  totalCredits : Token → ℕ

structure World where
  self : Address
  now : ℕ
  token : Token → TokenLedger Address
  market : Market

/-- `_pullExact`. -/
def pullExact (token : Token) (src : Address) (amount : ℕ) (w : World) : Except Error World := do
  let next ← (w.token token).pullExact .erc20 .unsupportedTransfer w.self src w.self amount
  pure { w with token := update w.token token next }

/-- `_pushExact`. -/
def pushExact (token : Token) (recipient : Address) (amount : ℕ) (w : World) :
    Except Error World := do
  let next ← (w.token token).sendExact .erc20 .unsupportedTransfer w.self recipient amount
  pure { w with token := update w.token token next }

/-- `_credit`. -/
def credit (token : Token) (account : Address) (amount : ℕ) (m : Market) : Market :=
  { m with
    credits := update m.credits token
      (update (m.credits token) account (m.credits token account + amount))
    totalCredits := update m.totalCredits token (m.totalCredits token + amount) }

def setOffer (id : ℕ) (offer : Offer) (m : Market) : Market :=
  { m with offers := update m.offers id offer }

/-- The account's history ends with `id`. -/
def remembered (account : Address) (id : ℕ) (m : Market) : Market :=
  { m with accountOfferIds := update m.accountOfferIds account (m.accountOfferIds account ++ [id]) }

/-- Where a new offer is listed besides its lender's history: publicly, or for its borrower. -/
def listed (id : ℕ) (borrower : Address) (m : Market) : Market :=
  if borrower = 0 then
    { m with
      isPublicOffer := update m.isPublicOffer id true
      publicOfferIds := m.publicOfferIds ++ [id] }
  else remembered borrower id m

def createOffer (sender borrower : Address)
    (principal collateralAmount interest duration expiresAt : ℕ) (w : World) :
    Except Error World := do
  let m := w.market
  revertIf (m.newLoansPaused = true) .newLoansPaused
  revertIf (borrower = w.self ∨ borrower = sender ∨ principal = 0 ∨ collateralAmount = 0 ∨
    maxUint - principal < interest ∨ duration = 0 ∨ duration % 86400 ≠ 0 ∨ expiresAt ≤ w.now ∨
    MAX_TIMESTAMP - GRACE_PERIOD < expiresAt ∨
    MAX_TIMESTAMP - GRACE_PERIOD - expiresAt < duration) .invalidTerms
  let id := m.nextOfferId
  let m :=
    { m with
      nextOfferId := id + 1
      offers := update m.offers id ⟨sender, borrower, principal, collateralAmount, interest,
        duration, expiresAt, 0, .open_⟩
      offerCreatedAt := update m.offerCreatedAt id (w.now % 2 ^ 64) }
  let m := listed id borrower (remembered sender id m)
  let m :=
    { m with
      committedPrincipal := m.committedPrincipal + principal
      reservedPrincipal := m.reservedPrincipal + principal }
  pullExact .loanToken sender principal { w with market := m }

/-- A public offer binds the account that takes it. -/
def bound (sender : Address) (id : ℕ) (m : Market) : Market :=
  if m.isPublicOffer id then
    remembered sender id (setOffer id { m.offers id with borrower := sender } m)
  else m

def acceptOffer (sender : Address) (id : ℕ) (w : World) : Except Error World := do
  let m := w.market
  revertIf (m.newLoansPaused = true) .newLoansPaused
  let offer := m.offers id
  revertIf (offer.status ≠ .open_) .wrongStatus
  revertIf (sender = offer.lender ∨ (offer.borrower ≠ 0 ∧ sender ≠ offer.borrower)) .unauthorized
  revertIf (offer.expiresAt ≤ w.now) .offerExpired
  let m := bound sender id m
  let reserved ← checkedSub m.reservedPrincipal offer.principal .panic
  let m := setOffer id
    { m.offers id with status := .active, dueAt := w.now + offer.duration } m
  let m :=
    { m with
      reservedPrincipal := reserved
      lockedCollateral := m.lockedCollateral + offer.collateralAmount }
  let w ← pullExact .collateralToken sender offer.collateralAmount { w with market := m }
  pushExact .loanToken sender offer.principal w

/-- `_closeOffer`. -/
def closeOffer (id : ℕ) (status : Status) (m : Market) : Except Error Market := do
  let offer := m.offers id
  let committed ← checkedSub m.committedPrincipal offer.principal .panic
  let reserved ← checkedSub m.reservedPrincipal offer.principal .panic
  let m := setOffer id { offer with status } m
  pure (credit .loanToken offer.lender offer.principal
    { m with committedPrincipal := committed, reservedPrincipal := reserved })

def cancelOffer (sender : Address) (id : ℕ) (w : World) : Except Error World := do
  let offer := w.market.offers id
  revertIf (offer.status ≠ .open_) .wrongStatus
  revertIf (sender ≠ offer.lender) .unauthorized
  let market ← closeOffer id .cancelled w.market
  pure { w with market }

def expireOffer (id : ℕ) (w : World) : Except Error World := do
  let offer := w.market.offers id
  revertIf (offer.status ≠ .open_) .wrongStatus
  revertIf (w.now < offer.expiresAt) .tooEarly
  let market ← closeOffer id .expired w.market
  pure { w with market }

/-- The principal and the collateral of a loan that ends are no longer committed. -/
def released (offer : Offer) (m : Market) : Except Error Market := do
  let committed ← checkedSub m.committedPrincipal offer.principal .panic
  let locked ← checkedSub m.lockedCollateral offer.collateralAmount .panic
  pure { m with committedPrincipal := committed, lockedCollateral := locked }

def repay (sender : Address) (id : ℕ) (w : World) : Except Error World := do
  let offer := w.market.offers id
  revertIf (offer.status ≠ .active) .wrongStatus
  revertIf (offer.dueAt + GRACE_PERIOD < w.now) .repaymentDeadlinePassed
  let repayment := offer.principal + offer.interest
  let m ← released offer (setOffer id { offer with status := .repaid } w.market)
  let market := credit .collateralToken offer.borrower offer.collateralAmount
    (credit .loanToken offer.lender repayment m)
  pullExact .loanToken sender repayment { w with market }

def claimDefault (id : ℕ) (w : World) : Except Error World := do
  let offer := w.market.offers id
  revertIf (offer.status ≠ .active) .wrongStatus
  revertIf (w.now ≤ offer.dueAt + GRACE_PERIOD) .tooEarly
  let m ← released offer (setOffer id { offer with status := .defaulted } w.market)
  pure { w with market := credit .collateralToken offer.lender offer.collateralAmount m }

def withdraw (sender : Address) (token : Token) (amount : ℕ) (recipient : Address) (w : World) :
    Except Error World := do
  let m := w.market
  revertIf (token = .other ∨ amount = 0 ∨ recipient = 0 ∨ recipient = w.self ∨
    m.credits token sender < amount) .invalidWithdrawal
  let owned ← checkedSub (m.credits token sender) amount .panic
  let total ← checkedSub (m.totalCredits token) amount .panic
  let market :=
    { m with
      credits := update m.credits token (update (m.credits token) sender owned)
      totalCredits := update m.totalCredits token total }
  pushExact token recipient amount { w with market }

def setNewLoansPaused (sender : Address) (paused : Bool) (w : World) : Except Error World := do
  revertIf (sender ≠ w.market.guardian) .unauthorized
  pure { w with market := { w.market with newLoansPaused := paused } }

def callToken (token : Token) (call : TokenCall Address) (w : World) : Except Error World := do
  let next ← orRevert (call.exec (w.token token)) .erc20
  pure { w with token := update w.token token next }

/-! ### Calls -/

inductive Op
  | createOffer (sender borrower : Address)
      (principal collateralAmount interest duration expiresAt : ℕ)
  | acceptOffer (sender : Address) (id : ℕ)
  | cancelOffer (sender : Address) (id : ℕ)
  | expireOffer (sender : Address) (id : ℕ)
  | repay (sender : Address) (id : ℕ)
  | claimDefault (sender : Address) (id : ℕ)
  | withdraw (sender : Address) (token : Token) (amount : ℕ) (recipient : Address)
  | setNewLoansPaused (sender : Address) (paused : Bool)
  | callToken (token : Token) (call : TokenCall Address)
  | elapse (seconds : ℕ)

/-- Minting and time have no caller. -/
def Op.sender : Op → Option Address
  | .createOffer sender .. | .acceptOffer sender _ | .cancelOffer sender _ | .expireOffer sender _
  | .repay sender _ | .claimDefault sender _ | .withdraw sender .. | .setNewLoansPaused sender _ =>
    some sender
  | .callToken _ call => call.sender
  | .elapse _ => none

def exec (op : Op) (w : World) : Except Error World := do
  revertIf (op.sender = some w.self) .contractCaller
  match op with
  | .createOffer sender borrower principal collateralAmount interest duration expiresAt =>
    createOffer sender borrower principal collateralAmount interest duration expiresAt w
  | .acceptOffer sender id => acceptOffer sender id w
  | .cancelOffer sender id => cancelOffer sender id w
  | .expireOffer _ id => expireOffer id w
  | .repay sender id => repay sender id w
  | .claimDefault _ id => claimDefault id w
  | .withdraw sender token amount recipient => withdraw sender token amount recipient w
  | .setNewLoansPaused sender paused => setNewLoansPaused sender paused w
  | .callToken token call => callToken token call w
  | .elapse seconds => pure { w with now := w.now + seconds }

/-- What the constructor leaves. -/
def deployed (guardian : Address) : Market where
  guardian := guardian
  newLoansPaused := false
  nextOfferId := 1
  committedPrincipal := 0
  reservedPrincipal := 0
  lockedCollateral := 0
  offers _ := noOffer
  isPublicOffer _ := false
  offerCreatedAt _ := 0
  accountOfferIds _ := []
  publicOfferIds := []
  credits _ _ := 0
  totalCredits _ := 0

/-- A new contract has approved nobody. -/
structure Deployed (w : World) : Prop where
  guardian_ne : w.market.guardian ≠ 0
  market_eq : w.market = deployed w.market.guardian
  closed : ∀ token a, (w.token token).allowance w.self a = 0

end Turret.P2PLendingV2
