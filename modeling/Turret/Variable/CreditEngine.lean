import Turret.CreditPosition
import Turret.Variable.CapitalPool

/-! `TurretVariableCreditEngine`, with `VariableCreditBase` under it, together
with the pool it is bound to. The engine's address is the pool's `creditEngine`.
USDG is an exact-transfer token; the collateral token is one too, but may run
code while it transfers, and so does the contract that liquidates with a
callback. A call that is met inside another meets the reentrancy guard. -/

namespace Turret.VariableEngine

open Execution Rounding Function

inductive Error
  | notOwner
  | poolAlreadyBound
  | notReady
  | invalidConfiguration
  | invalidAmount
  | invalidRecipient
  | unsupportedTransfer
  | oracleUnavailable
  | unsafePosition
  | healthyPosition
  | slippage
  | invalidBorrowIntent
  | invalidBorrowSignature
  | invalidApproval
  | marketRetired
  | reentrantCall
  | contractCaller
  | callback
  | erc20
  | panic
  | pool (error : PoolError)
  deriving DecidableEq

/-! ### Signed data -/

structure Approval where
  borrower : Address
  action : ℕ
  collateralAmount : ℕ
  debtAmount : ℕ
  maxDebt : ℕ
  price : ℕ
  nonce : ℕ
  observedAt : ℕ
  deadline : ℕ
  epoch : ℕ

structure Price where
  value : ℕ
  observedAt : ℕ
  deadline : ℕ
  epoch : ℕ
  deriving DecidableEq

/-- `action` is 1 to deposit and borrow, 2 to borrow, 3 to withdraw collateral. -/
structure BorrowIntent where
  owner : Address
  action : ℕ
  collateralAmount : ℕ
  debtAmount : ℕ
  maxDebt : ℕ
  minPrice : ℕ
  nonce : ℕ
  validAfter : ℕ
  deadline : ℕ

/-- What is hashed, under the domain separators of this engine on this chain. -/
inductive TypedData
  | approval (a : Approval)
  | price (p : Price)
  | borrowIntent (i : BorrowIntent)

abbrev Digest : Type := Fin (2 ^ 256)
abbrev Signature : Type := List (Fin 256)

def Price.none : Price := ⟨0, 0, 0, 0⟩

/-! ### Calls -/

inductive Op
  | bindPool (sender : Address)
  | setRiskPaused (sender : Address) (paused : Bool)
  | scheduleDebtLimit (sender : Address) (limit : ℕ)
  | executeDebtLimit (sender : Address)
  | cancelDebtLimit (sender : Address)
  | lowerDebtLimit (sender : Address) (limit : ℕ)
  | transferOwnership (sender newOwner : Address)
  | retireMarket (sender : Address)
  | executeBorrowIntent (sender : Address) (instruction : BorrowIntent) (signature : Signature)
      (proof : List (Fin 256))
  | invalidateBorrowIntents (sender : Address) (nextNonce : ℕ)
  | depositCollateral (sender borrower : Address) (amount : ℕ)
  | depositAndBorrow (sender : Address) (collateralAmount borrowAmount : ℕ)
  | borrow (sender : Address) (amount : ℕ)
  | withdrawCollateral (sender : Address) (amount : ℕ) (recipient : Address)
  | repay (sender borrower : Address) (maxAmount : ℕ)
  | close (sender : Address) (maxRepay : ℕ) (recipient : Address)
  | liquidate (sender borrower : Address) (maxRepay minCollateral : ℕ)
  | liquidateWithCallback (sender borrower : Address) (maxRepay minCollateral : ℕ)
  | setRiskSigner (sender signer : Address)
  | invalidateApprovals (sender : Address) (nextNonce : ℕ)
  | executeApproved (sender : Address) (a : Approval) (signature : Signature)
  | submitPrice (sender : Address) (p : Price) (signature : Signature)
  | priceWithApproval (sender : Address) (p : Price) (signature : Signature)
  | liquidationQuoteWithApproval (sender borrower : Address) (maximum : ℕ) (p : Price)
      (signature : Signature)
  | liquidateApproved (sender borrower : Address) (maximum minimum : ℕ) (p : Price)
      (signature : Signature)
  | liquidateWithCallbackApproved (sender borrower : Address) (maximum minimum : ℕ) (p : Price)
      (signature : Signature)
  | capital (op : VariablePool.Op)
  | collateral (call : TokenCall Address)
  | outside (isValidSignatureNow : Address → Digest → Signature → Bool) (hasCode : Address → Bool)

def Op.sender : Op → Option Address
  | .bindPool sender | .setRiskPaused sender _ | .scheduleDebtLimit sender _
  | .executeDebtLimit sender | .cancelDebtLimit sender | .lowerDebtLimit sender _
  | .transferOwnership sender _ | .retireMarket sender | .executeBorrowIntent sender ..
  | .invalidateBorrowIntents sender _ | .depositCollateral sender .. | .depositAndBorrow sender ..
  | .borrow sender _ | .withdrawCollateral sender .. | .repay sender .. | .close sender ..
  | .liquidate sender .. | .liquidateWithCallback sender .. | .setRiskSigner sender _
  | .invalidateApprovals sender _ | .executeApproved sender .. | .submitPrice sender ..
  | .priceWithApproval sender .. | .liquidationQuoteWithApproval sender ..
  | .liquidateApproved sender .. | .liquidateWithCallbackApproved sender .. => some sender
  | .capital op => op.sender
  | .collateral call => call.sender
  | .outside .. => none

/-- A successful call in the record of a run, with the block time, and the owner and the debt
limit it left. -/
structure Entry where
  time : ℕ
  op : Op
  owner : Address
  debtLimit : ℕ

/-! ### State -/

/-- The immutables, with what the constructor checks of them, and the hashing of typed data. -/
structure Config where
  maxLtvBps : ℕ
  liquidationLtvBps : ℕ
  bonusBps : ℕ
  minimumDebt : ℕ
  digest : TypedData → Digest
  maxLtv_ne_zero : maxLtvBps ≠ 0
  maxLtv_lt : maxLtvBps < liquidationLtvBps
  liquidationLtv_lt : liquidationLtvBps < 10000
  bonus_le : bonusBps ≤ 1500
  minimumDebt_ne_zero : minimumDebt ≠ 0
  bonus_room : liquidationLtvBps * (10000 + bonusBps) < 10000 * 10000

structure Engine where
  owner : Address
  /-- The reentrancy guard is taken. -/
  entered : Bool
  bound : Bool
  riskPaused : Bool
  retired : Bool
  activeDebtPositions : ℕ
  borrowIntentNonces : Address → ℕ
  /-- `activeBorrowers` and `activeIndex`. -/
  active : SwapPop Address
  positions : Address → Position
  positionRateIntegral : Address → ℕ
  riskSigner : Address
  signerEpoch : ℕ
  approvalNonces : Address → ℕ
  liquidationPrice : Price
  transactionPrice : ℕ
  /-- The events emitted so far with their block times, newest first. -/
  log : List (ℕ × CreditEvent)

structure World where
  cfg : Config
  capital : VariablePool.World
  collateral : TokenLedger Address
  engine : Engine
  /-- The answer of a signer, a contract or not, at this moment. -/
  isValidSignatureNow : Address → Digest → Signature → Bool
  hasCode : Address → Bool
  /-- The successful calls so far, newest first; no call reads it. -/
  history : List Entry

def MAX_INTENT_LIFETIME : ℕ := 30 * 60
def MAX_APPROVAL_LIFETIME : ℕ := 60

namespace World

def self (w : World) : Address := w.capital.cfg.creditEngine
def pool (w : World) : Address := w.capital.cfg.self
def now (w : World) : ℕ := w.capital.now
def usdg (w : World) : TokenLedger Address := w.capital.usdg

def position (borrower : Address) (w : World) : Position := w.engine.positions borrower

def setPosition (borrower : Address) (p : Position) (w : World) : World :=
  { w with engine := { w.engine with positions := update w.engine.positions borrower p } }

def emit (event : CreditEvent) (w : World) : World :=
  { w with engine := { w.engine with log := (w.now, event) :: w.engine.log } }

def setEntered (entered : Bool) (w : World) : World :=
  { w with engine := { w.engine with entered } }

def record (op : Op) (w : World) : World :=
  { w with
    history := ⟨w.now, op, w.engine.owner, w.capital.pool.debtLimit⟩ :: w.history }

end World

/-- A call to the pool; its revert is the engine's. -/
def onPool (call : VariablePool.World → Except PoolError VariablePool.World)
    (w : World) : Except Error World := do
  let capital ← (call w.capital).mapError .pool
  pure { w with capital }

def requirePool (w : World) : Except Error Unit :=
  revertIf (w.engine.bound = false) .notReady

def onlyOwner (sender : Address) (w : World) : Except Error Unit :=
  revertIf (sender ≠ w.engine.owner) .notOwner

def nonReentrant (body : World → Except Error World) (w : World) : Except Error World := do
  revertIf (w.engine.entered = true) .reentrantCall
  let w ← body (w.setEntered true)
  pure (w.setEntered false)

/-! ### Prices -/

/-- `_validWindow`. -/
def validWindow (observedAt deadline epoch : ℕ) (w : World) : Prop :=
  epoch = w.engine.signerEpoch ∧ observedAt ≤ w.now ∧ w.now < deadline ∧ observedAt < deadline ∧
    deadline - observedAt ≤ MAX_APPROVAL_LIFETIME

instance (observedAt deadline epoch : ℕ) (w : World) :
    Decidable (validWindow observedAt deadline epoch w) := by
  unfold validWindow
  infer_instance

/-- The price of an approved action, which stands only while it is executed. -/
def borrowingPrice (w : World) : Except Error ℕ := do
  revertIf (w.engine.transactionPrice = 0) .oracleUnavailable
  pure w.engine.transactionPrice

def price (w : World) : Except Error ℕ := do
  let p := w.engine.liquidationPrice
  revertIf (p.value = 0 ∨ ¬validWindow p.observedAt p.deadline p.epoch w) .oracleUnavailable
  pure p.value

def submitPrice (p : Price) (signature : Signature) (w : World) : Except Error World := do
  revertIf (p.value = 0 ∨ ¬validWindow p.observedAt p.deadline p.epoch w ∨
    p.observedAt < w.engine.liquidationPrice.observedAt) .invalidApproval
  revertIf (w.isValidSignatureNow w.engine.riskSigner (w.cfg.digest (.price p)) signature = false)
    .invalidApproval
  -- a published valuation is neither replaced nor extended at its own timestamp
  revertIf (p.observedAt = w.engine.liquidationPrice.observedAt ∧
    w.engine.liquidationPrice.value ≠ 0 ∧ (p.value ≠ w.engine.liquidationPrice.value ∨
      p.deadline ≠ w.engine.liquidationPrice.deadline)) .invalidApproval
  pure { w with engine := { w.engine with liquidationPrice := p } }

/-! ### Debt -/

/-- `_interest`; the rate integral never falls, so the subtraction is exact. -/
def interest (borrower : Address) (p : Position) (w : World) : ℕ × ℕ :=
  carry DENOMINATOR p.principal
    (VariablePool.currentRateIntegral w.capital - w.engine.positionRateIntegral borrower) p.remainder

def positionDebt (borrower : Address) (w : World) : ℕ :=
  let p := w.position borrower
  if p.principal = 0 then p.interest
  else p.principal + p.interest + (interest borrower p w).1

def capitalOperationsAllowed (w : World) : Bool :=
  w.engine.bound && !w.capital.pool.liquidationSettlementActive

/-- The position after `_settle`. -/
def settled (borrower : Address) (p : Position) (w : World) : Position :=
  { p with
    interest := p.interest + (interest borrower p w).1
    remainder := (interest borrower p w).2
    updatedAt := w.now }

/-- The position's part of `_settle`. -/
def settlePosition (borrower : Address) (w : World) : World :=
  { w with
    engine :=
      { w.engine with
        positions := update w.engine.positions borrower
          (settled borrower (w.position borrower) w)
        positionRateIntegral := update w.engine.positionRateIntegral borrower
          (VariablePool.currentRateIntegral w.capital) } }

/-- `_settle`. -/
def settle (borrower : Address) (w : World) : Except Error World := do
  let w ← onPool VariablePool.accrueInterest w
  pure (settlePosition borrower w)

/-! ### Tokens

`hook` is what the collateral token runs while it transfers, once the balances
have moved. -/

/-- `_pullExact(collateralToken, from, amount)`. -/
def pullCollateral (hook : World → Except Error World) (src : Address) (amount : ℕ) (w : World) :
    Except Error World := do
  let collateral ← orRevert (w.collateral.transferFrom w.self src w.self amount) .erc20
  let v ← hook { w with collateral }
  revertIf (v.collateral.balanceOf w.self ≠ w.collateral.balanceOf w.self + amount)
    .unsupportedTransfer
  pure v

/-- `_sendExact(collateralToken, to, amount)`. -/
def sendCollateral (hook : World → Except Error World) (dst : Address) (amount : ℕ) (w : World) :
    Except Error World := do
  revertIf (dst = 0 ∨ dst = w.self) .invalidRecipient
  let collateral ← orRevert (w.collateral.transfer w.self dst amount) .erc20
  let v ← hook { w with collateral }
  revertIf (¬(v.collateral.balanceOf w.self + amount = w.collateral.balanceOf w.self ∧
    v.collateral.balanceOf dst = w.collateral.balanceOf dst + amount)) .unsupportedTransfer
  pure v

def withUsdg (usdg : TokenLedger Address) (w : World) : World :=
  { w with capital := { w.capital with usdg } }

/-- `_pullExact(usdg, from, amount)`. -/
def pullUsdg (src : Address) (amount : ℕ) (w : World) : Except Error World := do
  let usdg ← orRevert (w.usdg.transferFrom w.self src w.self amount) .erc20
  revertIf (usdg.balanceOf w.self ≠ w.usdg.balanceOf w.self + amount) .unsupportedTransfer
  pure (withUsdg usdg w)

/-- `usdg.safeApprove(address(pool), amount)`. -/
def safeApprove (amount : ℕ) (w : World) : Except Error World := do
  revertIf (¬(amount = 0 ∨ w.usdg.allowance w.self w.pool = 0)) .erc20
  pure (withUsdg (w.usdg.approve w.self w.pool amount) w)

/-! ### Collateral and borrowing -/

/-- `_depositCollateralFrom`. -/
def depositCollateralFrom (hook : World → Except Error World) (payer borrower : Address)
    (amount : ℕ) (w : World) : Except Error World := do
  requirePool w
  revertIf (borrower = 0 ∨ borrower = w.self) .invalidRecipient
  revertIf (amount = 0) .invalidAmount
  revertIf (w.engine.retired = true ∧ (w.position borrower).debt = 0) .marketRetired
  let w ← pullCollateral hook payer amount w
  let p := w.position borrower
  pure ((w.setPosition borrower { p with collateral := p.collateral + amount }).emit
    (.collateralDeposited borrower payer amount))

/-- The first borrow of a position enters it into the registry. -/
def enter (borrower : Address) (w : World) : World :=
  if (w.position borrower).principal = 0 then
    { w with
      engine :=
        { w.engine with
          active := w.engine.active.push borrower
          activeDebtPositions := w.engine.activeDebtPositions + 1 } }
  else w

/-- `_borrowFor`. -/
def borrowFor (borrower : Address) (amount : ℕ) (w : World) : Except Error World := do
  requirePool w
  revertIf (w.engine.riskPaused = true) .notReady
  revertIf (amount = 0) .invalidAmount
  let w ← settle borrower w
  let debt := (w.position borrower).debt + amount
  revertIf (debt < w.cfg.minimumDebt) .invalidAmount
  let value ← borrowingPrice w
  revertIf (safe (w.position borrower).collateral debt value w.cfg.maxLtvBps = false)
    .unsafePosition
  let w := enter borrower w
  let p := w.position borrower
  let w := w.setPosition borrower { p with principal := p.principal + amount }
  let w ← onPool (VariablePool.draw (some (capitalOperationsAllowed w)) w.self borrower amount) w
  pure (w.emit (.borrowed borrower amount))

/-- With debt, collateral leaves only unpaused and while what stays is safe. -/
def checkExit (p : Position) (amount : ℕ) (w : World) : Except Error Unit :=
  if p.debt = 0 then pure ()
  else do
    revertIf (w.engine.riskPaused = true) .unsafePosition
    let value ← borrowingPrice w
    revertIf (safe (p.collateral - amount) p.debt value w.cfg.maxLtvBps = false) .unsafePosition

/-- `_withdrawCollateralFor`. -/
def withdrawCollateralFor (hook : World → Except Error World) (borrower : Address) (amount : ℕ)
    (recipient : Address) (w : World) : Except Error World := do
  requirePool w
  revertIf (amount = 0) .invalidAmount
  let w ← settle borrower w
  let p := w.position borrower
  revertIf (p.collateral < amount) .invalidAmount
  checkExit p amount w
  let w := w.setPosition borrower { p with collateral := p.collateral - amount }
  let w ← sendCollateral hook recipient amount w
  pure (w.emit (.collateralWithdrawn borrower recipient amount))

/-- `_refreshExecutionProof`. -/
def refreshExecutionProof (proof : List (Fin 256)) : Except Error Unit :=
  revertIf (proof.length ≠ 0) .invalidBorrowIntent

/-- Every intent but a withdrawal without debt asks for a price. -/
def checkIntentPrice (instruction : BorrowIntent) (proof : List (Fin 256)) (w : World) :
    Except Error Unit :=
  if instruction.action ≠ 3 ∨ positionDebt instruction.owner w ≠ 0 then do
    refreshExecutionProof proof
    let value ← borrowingPrice w
    revertIf (value < instruction.minPrice) .slippage
  else pure ()

def intentAction (hook : World → Except Error World) (instruction : BorrowIntent) (w : World) :
    Except Error World :=
  if instruction.action = 1 then do
    let w ← depositCollateralFrom hook instruction.owner instruction.owner
      instruction.collateralAmount w
    borrowFor instruction.owner instruction.debtAmount w
  else if instruction.action = 2 ∧ instruction.collateralAmount = 0 then
    borrowFor instruction.owner instruction.debtAmount w
  else if instruction.action = 3 ∧ instruction.debtAmount = 0 then
    withdrawCollateralFor hook instruction.owner instruction.collateralAmount instruction.owner w
  else .error .invalidBorrowIntent

def executeBorrowIntent (hook : World → Except Error World) (instruction : BorrowIntent)
    (signature : Signature) (proof : List (Fin 256)) (w : World) : Except Error World := do
  revertIf (instruction.owner = 0 ∨ instruction.owner = w.self ∨
    instruction.nonce ≠ w.engine.borrowIntentNonces instruction.owner ∨
    instruction.deadline ≤ instruction.validAfter ∨
    MAX_INTENT_LIFETIME < instruction.deadline - instruction.validAfter ∨
    w.now < instruction.validAfter ∨ instruction.deadline ≤ w.now ∨
    instruction.minPrice = 0) .invalidBorrowIntent
  revertIf (w.isValidSignatureNow instruction.owner (w.cfg.digest (.borrowIntent instruction))
    signature = false) .invalidBorrowSignature
  let w :=
    { w with
      engine :=
        { w.engine with
          borrowIntentNonces := update w.engine.borrowIntentNonces instruction.owner
            (w.engine.borrowIntentNonces instruction.owner + 1) } }
  checkIntentPrice instruction proof w
  let w ← intentAction hook instruction w
  revertIf (instruction.maxDebt < positionDebt instruction.owner w) .slippage
  pure w

def invalidateBorrowIntents (sender : Address) (nextNonce : ℕ) (w : World) :
    Except Error World := do
  revertIf (nextNonce ≤ w.engine.borrowIntentNonces sender) .invalidBorrowIntent
  pure
    { w with
      engine :=
        { w.engine with
          borrowIntentNonces := update w.engine.borrowIntentNonces sender nextNonce } }

/-! ### Approved actions -/

def approvedAction (hook : World → Except Error World) (sender : Address) (a : Approval)
    (w : World) : Except Error World :=
  if a.action = 1 ∧ a.collateralAmount ≠ 0 ∧ a.debtAmount ≠ 0 then do
    let w ← depositCollateralFrom hook sender sender a.collateralAmount w
    borrowFor sender a.debtAmount w
  else if a.action = 2 ∧ a.collateralAmount = 0 ∧ a.debtAmount ≠ 0 then
    borrowFor sender a.debtAmount w
  else if a.action = 3 ∧ a.collateralAmount ≠ 0 ∧ a.debtAmount = 0 then
    withdrawCollateralFor hook sender a.collateralAmount sender w
  else .error .invalidApproval

def setTransactionPrice (n : ℕ) (w : World) : World :=
  { w with engine := { w.engine with transactionPrice := n } }

def executeApproved (hook : World → Except Error World) (sender : Address) (a : Approval)
    (signature : Signature) (w : World) : Except Error World := do
  revertIf (a.borrower ≠ sender ∨ a.nonce ≠ w.engine.approvalNonces sender ∨ a.price = 0 ∨
    ¬validWindow a.observedAt a.deadline a.epoch w) .invalidApproval
  revertIf (w.isValidSignatureNow w.engine.riskSigner (w.cfg.digest (.approval a)) signature =
    false) .invalidApproval
  let w :=
    { w with
      engine :=
        { w.engine with
          approvalNonces := update w.engine.approvalNonces sender
            (w.engine.approvalNonces sender + 1) } }
  let w ← approvedAction hook sender a (setTransactionPrice a.price w)
  revertIf (a.maxDebt < positionDebt sender w) .slippage
  pure (setTransactionPrice 0 w)

def invalidateApprovals (sender : Address) (nextNonce : ℕ) (w : World) : Except Error World := do
  revertIf (nextNonce ≤ w.engine.approvalNonces sender) .invalidApproval
  pure
    { w with
      engine := { w.engine with approvalNonces := update w.engine.approvalNonces sender nextNonce } }

def setRiskSigner (sender signer : Address) (w : World) : Except Error World := do
  onlyOwner sender w
  revertIf (signer = 0) .invalidConfiguration
  pure
    { w with
      engine :=
        { w.engine with
          riskSigner := signer
          signerEpoch := w.engine.signerEpoch + 1
          liquidationPrice := .none } }

/-! ### Repayment and liquidation -/

/-- `_repay`: interest first. -/
def repayPosition (sender borrower : Address) (amount : ℕ) (w : World) : Except Error World := do
  let p := w.position borrower
  let interest := min amount p.interest
  let principal := amount - interest
  let w ← pullUsdg sender amount w
  let w ← safeApprove amount w
  let w ← onPool (VariablePool.repay w.self principal interest) w
  let left ← checkedSub p.principal principal .panic
  pure ((w.setPosition borrower { p with interest := p.interest - interest, principal := left }).emit
    (.repaid borrower sender principal interest))

/-- Once all loans are closed, the interest the aggregate rounded differently is removed. -/
def clearRoundingInterest (w : World) : Except Error World :=
  if w.engine.activeDebtPositions = 0 ∧ w.capital.pool.interestReceivable ≠ 0 then do
    let dust := w.capital.pool.interestReceivable
    let w ← onPool (VariablePool.recognizeLoss w.self 0 dust) w
    pure (w.emit (.roundingInterestCleared dust))
  else pure w

/-- `_finish`. -/
def finish (borrower : Address) (w : World) : Except Error World :=
  let p := w.position borrower
  if p.debt = 0 then do
    let count ← checkedSub w.engine.activeDebtPositions 1 .panic
    let active ← orRevert (w.engine.active.remove borrower) .panic
    clearRoundingInterest
      { w.setPosition borrower { p with remainder := 0 } with
        engine :=
          { (w.setPosition borrower { p with remainder := 0 }).engine with
            activeDebtPositions := count
            active } }
  else pure w

/-- `_repayUpTo`. -/
def repayUpTo (sender borrower : Address) (maxAmount : ℕ) (w : World) :
    Except Error (World × ℕ) := do
  requirePool w
  let w ← settle borrower w
  let debt := (w.position borrower).debt
  let paid := min maxAmount debt
  revertIf (paid = 0) .invalidAmount
  let remaining := debt - paid
  revertIf (remaining ≠ 0 ∧ remaining < w.cfg.minimumDebt) .invalidAmount
  let w ← repayPosition sender borrower paid w
  let w ← finish borrower w
  pure (w, paid)

def withdrawRest (hook : World → Except Error World) (sender recipient : Address) (w : World) :
    Except Error World :=
  let amount := (w.position sender).collateral
  if amount ≠ 0 then withdrawCollateralFor hook sender amount recipient w else pure w

def close (hook : World → Except Error World) (sender : Address) (maxRepay : ℕ)
    (recipient : Address) (w : World) : Except Error (World × ℕ) := do
  let (w, paid) ← repayUpTo sender sender maxRepay w
  revertIf ((w.position sender).debt ≠ 0) .unsafePosition
  let w ← withdrawRest hook sender recipient w
  pure (w, paid)

/-- The payment of a partial liquidation: debt and collateral are kept for the next one. -/
def partialPayment (cfg : Config) (collateral debt value repayCap paid : ℕ) : Except Error ℕ :=
  if paid < repayCap then do
    revertIf (repayCap ≤ cfg.minimumDebt) .invalidAmount
    let reservedCollateral := collateralForPayment cfg.bonusBps cfg.minimumDebt value
    revertIf (collateral ≤ reservedCollateral) .invalidAmount
    let paid := min paid (min (debt - cfg.minimumDebt)
      (coveredDebt cfg.bonusBps (collateral - reservedCollateral) value))
    revertIf (paid = 0) .invalidAmount
    pure paid
  else pure paid

/-- What the payment seizes, and the payment itself. -/
def seizure (cfg : Config) (collateral debt value covered repayCap paid : ℕ) :
    Except Error (ℕ × ℕ) :=
  if covered < debt ∧ paid = repayCap then pure (paid, collateral)
  else do
    let paid ← partialPayment cfg collateral debt value repayCap paid
    pure (paid, min collateral (collateralForPayment cfg.bonusBps paid value))

/-- `_liquidationQuote`. -/
def liquidationQuote (cfg : Config) (collateral debt value maxRepay : ℕ) :
    Except Error (ℕ × ℕ) := do
  revertIf (debt = 0 ∨ safe collateral debt value cfg.liquidationLtvBps = true) .healthyPosition
  let covered := coveredDebt cfg.bonusBps collateral value
  let repayCap := min debt (max covered 1)
  let paid := min maxRepay repayCap
  revertIf (paid = 0) .invalidAmount
  let (paid, seized) ← seizure cfg collateral debt value covered repayCap paid
  revertIf (seized = 0) .slippage
  pure (paid, seized)

/-- A position left with debt and no collateral is written off. -/
def recognizeShortfall (borrower : Address) (w : World) : Except Error World :=
  let p := w.position borrower
  if p.collateral = 0 ∧ 0 < p.debt then do
    let w ← onPool (VariablePool.recognizeLoss w.self p.principal p.interest) w
    pure ((w.emit (.positionLoss borrower p.principal p.interest)).setPosition borrower
      { p with principal := 0, interest := 0 })
  else pure w

/-- `_executeLiquidation` up to the release of the collateral: the payment and the seizure are
fixed, and the pool is frozen. -/
def releaseCollateral (borrower : Address) (maxRepay minCollateral : ℕ) (w : World) :
    Except Error (World × ℕ × ℕ) := do
  requirePool w
  let w ← settle borrower w
  let p := w.position borrower
  let value ← price w
  let (paid, seized) ← liquidationQuote w.cfg p.collateral p.debt value maxRepay
  revertIf (seized < minCollateral) .slippage
  let w ← onPool (VariablePool.beginLiquidationSettlement w.self) w
  let left ← checkedSub p.collateral seized .panic
  pure (w.setPosition borrower { p with collateral := left }, paid, seized)

/-- The payment, the shortfall, and the end of the loan. -/
def settleLiquidation (sender borrower : Address) (paid : ℕ) (w : World) : Except Error World := do
  let w ← repayPosition sender borrower paid w
  let w ← recognizeShortfall borrower w
  finish borrower w

def endLiquidation (sender borrower : Address) (paid seized : ℕ) (w : World) :
    Except Error World := do
  let w ← onPool (VariablePool.endLiquidationSettlement w.self) w
  pure (w.emit (.liquidated borrower sender paid seized))

/-- `_executeLiquidation` without a callback. -/
def liquidate (hook : World → Except Error World) (sender borrower : Address)
    (maxRepay minCollateral : ℕ) (w : World) : Except Error World := do
  let (w, paid, seized) ← releaseCollateral borrower maxRepay minCollateral w
  let w ← settleLiquidation sender borrower paid w
  let w ← sendCollateral hook sender seized w
  endLiquidation sender borrower paid seized w

/-- `_liquidateWithCallback`: the liquidator has the collateral, and runs its own code, before it
pays. -/
def liquidateWithCallback (hook callback : World → Except Error World) (sender borrower : Address)
    (maxRepay minCollateral : ℕ) (w : World) : Except Error World := do
  revertIf (w.hasCode sender = false) .invalidRecipient
  let (w, paid, seized) ← releaseCollateral borrower maxRepay minCollateral w
  let w ← sendCollateral hook sender seized w
  let w ← callback w
  let w ← settleLiquidation sender borrower paid w
  endLiquidation sender borrower paid seized w

/-! ### Administration -/

def bindPool (sender : Address) (w : World) : Except Error World := do
  onlyOwner sender w
  revertIf (w.engine.bound = true) .poolAlreadyBound
  pure { w with engine := { w.engine with bound := true } }

/-- Opening requires a live market. -/
def checkOpen (paused : Bool) (w : World) : Except Error Unit :=
  if paused then pure ()
  else do
    revertIf (w.engine.retired = true) .marketRetired
    requirePool w

def setRiskPaused (sender : Address) (paused : Bool) (w : World) : Except Error World := do
  onlyOwner sender w
  checkOpen paused w
  pure { w with engine := { w.engine with riskPaused := paused } }

/-- The owner's call passed on to the pool. -/
def ownerCall (sender : Address)
    (call : Address → VariablePool.World → Except PoolError VariablePool.World) (w : World) :
    Except Error World := do
  onlyOwner sender w
  requirePool w
  onPool (call w.self) w

def scheduleDebtLimit (sender : Address) (limit : ℕ) : World → Except Error World :=
  ownerCall sender (VariablePool.scheduleDebtLimit · limit)

def executeDebtLimit (sender : Address) : World → Except Error World :=
  ownerCall sender VariablePool.executeDebtLimit

def cancelDebtLimit (sender : Address) : World → Except Error World :=
  ownerCall sender VariablePool.cancelDebtLimit

def lowerDebtLimit (sender : Address) (limit : ℕ) : World → Except Error World :=
  ownerCall sender (VariablePool.lowerDebtLimit · limit)

def cancelIfBound (w : World) : Except Error World :=
  if w.engine.bound then onPool (VariablePool.cancelDebtLimit w.self) w else pure w

/-- A successor schedules its own increase of the limit. -/
def transferOwnership (sender newOwner : Address) (w : World) : Except Error World := do
  onlyOwner sender w
  let w ← cancelIfBound w
  revertIf (newOwner = 0) .invalidConfiguration
  pure { w with engine := { w.engine with owner := newOwner } }

def retireMarket (sender : Address) (w : World) : Except Error World := do
  onlyOwner sender w
  requirePool w
  onPool (VariablePool.retire w.self)
    { w with engine := { w.engine with retired := true, riskPaused := true } }

/-! ### Calls, scripts and transactions

A call names its sender. The two contracts act by their own code only, so
neither is ever the sender. `capital` is any call of the pool or of USDG, and
the passing of time, which happens between transactions only. -/

def run (hook callback : World → Except Error World) : Op → World → Except Error World
  | .bindPool sender, w => bindPool sender w
  | .setRiskPaused sender paused, w => setRiskPaused sender paused w
  | .scheduleDebtLimit sender limit, w => scheduleDebtLimit sender limit w
  | .executeDebtLimit sender, w => executeDebtLimit sender w
  | .cancelDebtLimit sender, w => cancelDebtLimit sender w
  | .lowerDebtLimit sender limit, w => lowerDebtLimit sender limit w
  | .transferOwnership sender newOwner, w => transferOwnership sender newOwner w
  | .retireMarket sender, w => nonReentrant (retireMarket sender) w
  | .executeBorrowIntent _ instruction signature proof, w =>
    nonReentrant (executeBorrowIntent hook instruction signature proof) w
  | .invalidateBorrowIntents sender nextNonce, w => invalidateBorrowIntents sender nextNonce w
  | .depositCollateral sender borrower amount, w =>
    nonReentrant (depositCollateralFrom hook sender borrower amount) w
  | .depositAndBorrow sender collateralAmount borrowAmount, w =>
    nonReentrant (fun w => do
      let w ← depositCollateralFrom hook sender sender collateralAmount w
      borrowFor sender borrowAmount w) w
  | .borrow sender amount, w => nonReentrant (borrowFor sender amount) w
  | .withdrawCollateral sender amount recipient, w =>
    nonReentrant (withdrawCollateralFor hook sender amount recipient) w
  | .repay sender borrower maxAmount, w =>
    nonReentrant (fun w => do
      let (w, _) ← repayUpTo sender borrower maxAmount w
      pure w) w
  | .close sender maxRepay recipient, w =>
    nonReentrant (fun w => do
      let (w, _) ← close hook sender maxRepay recipient w
      pure w) w
  | .liquidate sender borrower maxRepay minCollateral, w =>
    nonReentrant (liquidate hook sender borrower maxRepay minCollateral) w
  | .liquidateWithCallback sender borrower maxRepay minCollateral, w =>
    nonReentrant (liquidateWithCallback hook callback sender borrower maxRepay minCollateral) w
  | .setRiskSigner sender signer, w => setRiskSigner sender signer w
  | .invalidateApprovals sender nextNonce, w => invalidateApprovals sender nextNonce w
  | .executeApproved sender a signature, w =>
    nonReentrant (executeApproved hook sender a signature) w
  | .submitPrice _ p signature, w => submitPrice p signature w
  | .priceWithApproval _ p signature, w => do
    let w ← submitPrice p signature w
    let _ ← price w
    pure w
  | .liquidationQuoteWithApproval _ borrower maximum p signature, w => do
    let w ← submitPrice p signature w
    let value ← price w
    let _ ← liquidationQuote w.cfg (w.position borrower).collateral (positionDebt borrower w)
      value maximum
    pure w
  | .liquidateApproved sender borrower maximum minimum p signature, w =>
    nonReentrant (fun w => do
      let w ← submitPrice p signature w
      liquidate hook sender borrower maximum minimum w) w
  | .liquidateWithCallbackApproved sender borrower maximum minimum p signature, w =>
    nonReentrant (fun w => do
      let w ← submitPrice p signature w
      liquidateWithCallback hook callback sender borrower maximum minimum w) w
  | .capital op, w => do
    revertIf (op.isElapse = true ∧ w.engine.entered = true) .reentrantCall
    onPool (VariablePool.exec (op.withSafety (some (capitalOperationsAllowed w)))) w
  | .collateral call, w => do
    let collateral ← orRevert (call.exec w.collateral) .erc20
    pure { w with collateral }
  | .outside isValidSignatureNow hasCode, w => pure { w with isValidSignatureNow, hasCode }

def perform (hook callback : World → Except Error World) (op : Op) (w : World) :
    Except Error World := do
  revertIf (op.sender = some w.self ∨ op.sender = some w.pool) .contractCaller
  let w ← run hook callback op w
  pure (w.record op)

/-- What foreign code does when it is called: calls of its own, each with what the token and a
callback do in it, and a revert or a return at the end. A call that fails changes nothing and is
passed over; to fail with it is to revert. -/
inductive Script
  | return
  | revert
  | call (op : Op) (hook callback rest : Script)

def Script.run : Script → World → Except Error World
  | .return, w => .ok w
  | .revert, _ => .error .callback
  | .call op hook callback rest, w =>
    rest.run (reached w (perform hook.run callback.run op w))

/-- A transaction: one call, with what the token and a callback do in it. -/
structure Call where
  op : Op
  hook : Script
  callback : Script

def exec (c : Call) (w : World) : Except Error World := perform c.hook.run c.callback.run c.op w

/-- What the two constructors leave: no position, no bound pool, the market paused, no price, and no
allowance granted by either contract. Tokens may already have been sent to them. -/
structure Deployed (w : World) : Prop where
  pool : VariablePool.Deployed w.capital
  engine_eq : ∃ owner signer, w.engine = ⟨owner, false, false, true, false, 0, fun _ => 0, .empty,
    fun _ => .empty, fun _ => 0, signer, 0, fun _ => 0, .none, 0, []⟩
  usdg_allowance : ∀ a, w.usdg.allowance w.self a = 0
  collateral_allowance : ∀ a, w.collateral.allowance w.self a = 0
  history_eq : w.history = []

def Reachable (w : World) : Prop :=
  ∃ start calls, Deployed start ∧ Run (accepts exec) start calls w

end Turret.VariableEngine
