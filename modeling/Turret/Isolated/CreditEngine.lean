import Turret.CreditPosition
import Turret.Isolated.CapitalPool
import Turret.Library.SwapPop

/-! `DockyardIsolatedCreditEngine` together with the pool it is bound to. The
engine's address is the pool's `creditEngine`, the only one `bindPool` accepts
it for. Both tokens are exact-transfer and run no code of their holders, so a
call is never met inside another and the reentrancy guards are left out. The
two price feeds answer as they like and may change or fail at any time. -/

namespace Turret.IsolatedEngine

open Execution Rounding Function

inductive Error
  | notOwner
  | poolAlreadyBound
  | notReady
  | invalidConfiguration
  | invalidAmount
  | invalidRecipient
  | unsupportedTransfer
  | oracleUnavailable
  | oracleMismatch
  | unsafePosition
  | healthyPosition
  | slippage
  | positionLimitReached
  | marketRetired
  | contractCaller
  | erc20
  | panic
  | pool (error : PoolError)
  deriving DecidableEq

/-- The immutables, with what the constructor checks of them. -/
structure Config where
  staleness : ℕ
  maxLtvBps : ℕ
  liquidationLtvBps : ℕ
  bonusBps : ℕ
  deviationBps : ℕ
  minimumDebt : ℕ
  primaryDecimals : ℕ
  secondaryDecimals : ℕ
  staleness_ne_zero : staleness ≠ 0
  maxLtv_ne_zero : maxLtvBps ≠ 0
  maxLtv_lt : maxLtvBps < liquidationLtvBps
  liquidationLtv_lt : liquidationLtvBps < 10000
  bonus_le : bonusBps ≤ 1500
  deviation_ne_zero : deviationBps ≠ 0
  deviation_le : deviationBps ≤ 2500
  minimumDebt_ne_zero : minimumDebt ≠ 0
  bonus_room : liquidationLtvBps * (10000 + bonusBps) < 10000 * 10000
  primaryDecimals_le : primaryDecimals ≤ 18
  secondaryDecimals_le : secondaryDecimals ≤ 18

structure Round where
  round : ℕ
  answer : ℤ
  updated : ℕ
  answered : ℕ

/-- What a feed answers now; `none` where the call reverts. -/
structure Feed where
  decimals : Option ℕ
  latestRoundData : Option Round

structure Engine where
  owner : Address
  bound : Bool
  riskPaused : Bool
  retired : Bool
  activeDebtPositions : ℕ
  /-- `activeBorrowers` and `activeIndex`. -/
  active : SwapPop Address
  positions : Address → Position
  /-- The events emitted so far with their block times, newest first. -/
  log : List (ℕ × CreditEvent)

structure World where
  cfg : Config
  capital : IsolatedPool.World
  collateral : TokenLedger Address
  engine : Engine
  primary : Feed
  secondary : Feed

def MAX_ACTIVE_POSITIONS : ℕ := 64

namespace World

def self (w : World) : Address := w.capital.cfg.creditEngine
def pool (w : World) : Address := w.capital.cfg.self
def now (w : World) : ℕ := w.capital.now
def usdg (w : World) : TokenLedger Address := w.capital.usdg

def position (borrower : Address) (w : World) : Position := w.engine.positions borrower

def setPosition (borrower : Address) (p : Position) (w : World) : World :=
  { w with engine := { w.engine with positions := update w.engine.positions borrower p } }

def emit (event : CreditEvent) (w : World) : World :=
  { w with engine := { w.engine with log := (w.now, event) :: w.engine.log } }

end World

/-- A call to the pool; its revert is the engine's. -/
def onPool (call : IsolatedPool.World → Except PoolError IsolatedPool.World)
    (w : World) : Except Error World := do
  let capital ← (call w.capital).mapError .pool
  pure { w with capital }

def requirePool (w : World) : Except Error Unit :=
  revertIf (w.engine.bound = false) .notReady

def onlyOwner (sender : Address) (w : World) : Except Error Unit :=
  revertIf (sender ≠ w.engine.owner) .notOwner

/-! ### Prices -/

/-- `_read`. -/
def read (feed : Feed) (decimals : ℕ) (w : World) : Except Error ℕ := do
  let answered ← orRevert feed.decimals .oracleUnavailable
  revertIf (answered ≠ decimals) .oracleUnavailable
  let data ← orRevert feed.latestRoundData .oracleUnavailable
  revertIf (data.answer ≤ 0 ∨ data.round = 0 ∨ data.answered < data.round ∨ data.updated = 0 ∨
    w.now < data.updated ∨ w.cfg.staleness < w.now - data.updated) .oracleUnavailable
  pure (data.answer.toNat * 10 ^ (18 - decimals))

def price (w : World) : Except Error ℕ := do
  let a ← read w.primary w.cfg.primaryDecimals w
  let b ← read w.secondary w.cfg.secondaryDecimals w
  let low := min a b
  revertIf (w.cfg.deviationBps < mulDivUp (max a b - low) 10000 low) .oracleMismatch
  pure low

def borrowingPrice (w : World) : Except Error ℕ := price w

/-! ### Debt -/

/-- `_interest`. -/
def interest (p : Position) (w : World) : ℕ × ℕ :=
  carry DENOMINATOR p.principal ((w.now - p.updatedAt) * w.capital.cfg.borrowAprBps) p.remainder

def positionDebt (borrower : Address) (w : World) : ℕ :=
  let p := w.position borrower
  if p.principal = 0 then p.interest
  else p.principal + p.interest + (interest p w).1

def capitalOperationsAllowed (w : World) : Bool :=
  if w.engine.active.members.length = 0 then true
  else if w.engine.riskPaused then false
  else
    match borrowingPrice w with
    | .error _ => false
    | .ok value => w.engine.active.members.all fun borrower =>
        safe (w.position borrower).collateral (positionDebt borrower w) value
          w.cfg.liquidationLtvBps

/-- The position after `_settle`. -/
def settled (p : Position) (w : World) : Position :=
  { p with
    interest := p.interest + (interest p w).1
    remainder := (interest p w).2
    updatedAt := w.now }

/-- `_settle`; `accrueInterest` of the pool cannot revert. -/
def settle (borrower : Address) (w : World) : World :=
  { w with capital := IsolatedPool.accrue w.capital }.setPosition borrower
    (settled (w.position borrower) w)

/-! ### Tokens -/

/-- `_pullExact(collateralToken, from, amount)`. -/
def pullCollateral (src : Address) (amount : ℕ) (w : World) : Except Error World := do
  let collateral ← orRevert (w.collateral.transferFrom w.self src w.self amount) .erc20
  revertIf (collateral.balanceOf w.self ≠ w.collateral.balanceOf w.self + amount)
    .unsupportedTransfer
  pure { w with collateral }

/-- `_sendExact(collateralToken, to, amount)`. -/
def sendCollateral (dst : Address) (amount : ℕ) (w : World) : Except Error World := do
  revertIf (dst = 0 ∨ dst = w.self) .invalidRecipient
  let collateral ← orRevert (w.collateral.transfer w.self dst amount) .erc20
  revertIf (¬(collateral.balanceOf w.self + amount = w.collateral.balanceOf w.self ∧
    collateral.balanceOf dst = w.collateral.balanceOf dst + amount)) .unsupportedTransfer
  pure { w with collateral }

def withUsdg (usdg : TokenLedger Address) (w : World) : World :=
  { w with capital := { w.capital with usdg } }

/-- `_pullExact(usdg, from, amount)`. -/
def pullUsdg (src : Address) (amount : ℕ) (w : World) : Except Error World := do
  let usdg ← orRevert (w.usdg.transferFrom w.self src w.self amount) .erc20
  revertIf (usdg.balanceOf w.self ≠ w.usdg.balanceOf w.self + amount) .unsupportedTransfer
  pure (withUsdg usdg w)

/-- `usdg.safeApprove(address(pool), amount)`. -/
def safeApprove (amount : ℕ) (w : World) : Except Error World := do
  revertIf (¬(amount = 0 ∨ w.usdg.allowance w.self w.pool = 0)) .erc20
  pure (withUsdg (w.usdg.approve w.self w.pool amount) w)

/-! ### Collateral and borrowing -/

/-- `_depositCollateral`. -/
def depositCollateral (sender borrower : Address) (amount : ℕ) (w : World) :
    Except Error World := do
  requirePool w
  revertIf (borrower = 0 ∨ borrower = w.self) .invalidRecipient
  revertIf (amount = 0) .invalidAmount
  revertIf (w.engine.retired = true ∧ (w.position borrower).debt = 0) .marketRetired
  let w ← pullCollateral sender amount w
  let p := w.position borrower
  pure ((w.setPosition borrower { p with collateral := p.collateral + amount }).emit
    (.collateralDeposited borrower sender amount))

/-- The first borrow of a position enters it into the registry. -/
def enter (borrower : Address) (w : World) : Except Error World :=
  if (w.position borrower).principal = 0 then do
    revertIf (w.engine.active.members.length = MAX_ACTIVE_POSITIONS) .positionLimitReached
    pure
      { w with
        engine :=
          { w.engine with
            active := w.engine.active.push borrower
            activeDebtPositions := w.engine.activeDebtPositions + 1 } }
  else pure w

/-- `_borrow`. -/
def borrow (sender : Address) (amount : ℕ) (w : World) : Except Error World := do
  requirePool w
  revertIf (w.engine.riskPaused = true) .notReady
  revertIf (amount = 0) .invalidAmount
  let w := settle sender w
  let debt := (w.position sender).debt + amount
  revertIf (debt < w.cfg.minimumDebt) .invalidAmount
  let value ← borrowingPrice w
  revertIf (safe (w.position sender).collateral debt value w.cfg.maxLtvBps = false) .unsafePosition
  let w ← enter sender w
  let p := w.position sender
  let w := w.setPosition sender { p with principal := p.principal + amount }
  let w ← onPool (IsolatedPool.draw (some (capitalOperationsAllowed w)) w.self sender amount) w
  pure (w.emit (.borrowed sender amount))

/-- With debt, collateral leaves only unpaused and while what stays is safe. -/
def checkExit (p : Position) (amount : ℕ) (w : World) : Except Error Unit :=
  if p.debt = 0 then pure ()
  else do
    revertIf (w.engine.riskPaused = true) .unsafePosition
    let value ← borrowingPrice w
    revertIf (safe (p.collateral - amount) p.debt value w.cfg.maxLtvBps = false) .unsafePosition

/-- `_withdrawCollateral`. -/
def withdrawCollateral (sender : Address) (amount : ℕ) (recipient : Address) (w : World) :
    Except Error World := do
  requirePool w
  revertIf (amount = 0) .invalidAmount
  let w := settle sender w
  let p := w.position sender
  revertIf (p.collateral < amount) .invalidAmount
  checkExit p amount w
  let w := w.setPosition sender { p with collateral := p.collateral - amount }
  let w ← sendCollateral recipient amount w
  pure (w.emit (.collateralWithdrawn sender recipient amount))

/-! ### Repayment and liquidation -/

/-- `_repay`: interest first. -/
def repayPosition (sender borrower : Address) (amount : ℕ) (w : World) : Except Error World := do
  let p := w.position borrower
  let interest := min amount p.interest
  let principal := amount - interest
  let w ← pullUsdg sender amount w
  let w ← safeApprove amount w
  let w ← onPool (IsolatedPool.repay w.self principal interest) w
  let left ← checkedSub p.principal principal .panic
  pure ((w.setPosition borrower { p with interest := p.interest - interest, principal := left }).emit
    (.repaid borrower sender principal interest))

/-- Once all loans are closed, the interest the aggregate rounded differently is removed. -/
def clearRoundingInterest (w : World) : Except Error World :=
  if w.engine.activeDebtPositions = 0 ∧ w.capital.pool.interestReceivable ≠ 0 then do
    let dust := w.capital.pool.interestReceivable
    let w ← onPool (IsolatedPool.recognizeLoss w.self 0 dust) w
    pure (w.emit (.roundingInterestCleared dust))
  else pure w

/-- `_finish`. -/
def finish (borrower : Address) (w : World) : Except Error World :=
  let p := w.position borrower
  if p.debt = 0 then do
    let count ← checkedSub w.engine.activeDebtPositions 1 .panic
    let active ← orRevert (w.engine.active.remove borrower) .panic
    clearRoundingInterest
      { w.setPosition borrower { p with remainder := 0 } with
        engine :=
          { (w.setPosition borrower { p with remainder := 0 }).engine with
            activeDebtPositions := count
            active } }
  else pure w

/-- `_repayUpTo`. -/
def repayUpTo (sender borrower : Address) (maxAmount : ℕ) (w : World) :
    Except Error (World × ℕ) := do
  requirePool w
  let w := settle borrower w
  let debt := (w.position borrower).debt
  let paid := min maxAmount debt
  revertIf (paid = 0) .invalidAmount
  let remaining := debt - paid
  revertIf (remaining ≠ 0 ∧ remaining < w.cfg.minimumDebt) .invalidAmount
  let w ← repayPosition sender borrower paid w
  let w ← finish borrower w
  pure (w, paid)

def repay (sender borrower : Address) (maxAmount : ℕ) (w : World) : Except Error (World × ℕ) :=
  repayUpTo sender borrower maxAmount w

def withdrawRest (sender recipient : Address) (w : World) : Except Error World :=
  let amount := (w.position sender).collateral
  if amount ≠ 0 then withdrawCollateral sender amount recipient w else pure w

def close (sender : Address) (maxRepay : ℕ) (recipient : Address) (w : World) :
    Except Error (World × ℕ) := do
  let (w, paid) ← repayUpTo sender sender maxRepay w
  revertIf ((w.position sender).debt ≠ 0) .unsafePosition
  let w ← withdrawRest sender recipient w
  pure (w, paid)

/-- The payment of a partial liquidation: debt and collateral are kept for the next one. -/
def partialPayment (cfg : Config) (collateral debt value paid : ℕ) : Except Error ℕ :=
  if paid < debt then do
    revertIf (debt ≤ cfg.minimumDebt) .invalidAmount
    let reserve := collateralForPayment cfg.bonusBps cfg.minimumDebt value
    revertIf (collateral ≤ reserve) .invalidAmount
    let partialCap := min (debt - cfg.minimumDebt)
      (coveredDebt cfg.bonusBps (collateral - reserve) value)
    let paid := min paid partialCap
    revertIf (paid = 0) .invalidAmount
    pure paid
  else pure paid

/-- What the payment seizes, and the payment itself. -/
def seizure (cfg : Config) (collateral debt value covered repayCap paid : ℕ) :
    Except Error (ℕ × ℕ) :=
  if covered < debt ∧ paid = repayCap then pure (paid, collateral)
  else do
    let paid ← partialPayment cfg collateral debt value paid
    pure (paid, min collateral (collateralForPayment cfg.bonusBps paid value))

/-- `_liquidationQuote`. -/
def liquidationQuote (cfg : Config) (collateral debt value maxRepay : ℕ) :
    Except Error (ℕ × ℕ) := do
  revertIf (debt = 0 ∨ safe collateral debt value cfg.liquidationLtvBps = true) .healthyPosition
  let covered := coveredDebt cfg.bonusBps collateral value
  let repayCap := min debt (max covered 1)
  let paid := min maxRepay repayCap
  revertIf (paid = 0) .invalidAmount
  let (paid, seized) ← seizure cfg collateral debt value covered repayCap paid
  revertIf (seized = 0) .slippage
  pure (paid, seized)

/-- A position left with debt and no collateral is written off. -/
def recognizeShortfall (borrower : Address) (w : World) : Except Error World :=
  let p := w.position borrower
  if p.collateral = 0 ∧ 0 < p.debt then do
    let w ← onPool (IsolatedPool.recognizeLoss w.self p.principal p.interest) w
    pure ((w.emit (.positionLoss borrower p.principal p.interest)).setPosition borrower
      { p with principal := 0, interest := 0 })
  else pure w

/-- `_liquidate`. -/
def liquidate (sender borrower : Address) (maxRepay minCollateral : ℕ) (w : World) :
    Except Error (World × ℕ × ℕ) := do
  requirePool w
  let w := settle borrower w
  let value ← price w
  let (paid, seized) ← liquidationQuote w.cfg (w.position borrower).collateral
    (w.position borrower).debt value maxRepay
  revertIf (seized < minCollateral) .slippage
  let w ← repayPosition sender borrower paid w
  let p := w.position borrower
  let left ← checkedSub p.collateral seized .panic
  let w ← recognizeShortfall borrower (w.setPosition borrower { p with collateral := left })
  let w ← finish borrower w
  let w ← sendCollateral sender seized w
  pure (w.emit (.liquidated borrower sender paid seized), paid, seized)

/-! ### Administration -/

def bindPool (sender : Address) (w : World) : Except Error World := do
  onlyOwner sender w
  revertIf (w.engine.bound = true) .poolAlreadyBound
  pure { w with engine := { w.engine with bound := true } }

/-- Opening requires a live market. -/
def checkOpen (paused : Bool) (w : World) : Except Error Unit :=
  if paused then pure ()
  else do
    revertIf (w.engine.retired = true) .marketRetired
    requirePool w
    let _ ← price w
    pure ()

def setRiskPaused (sender : Address) (paused : Bool) (w : World) : Except Error World := do
  onlyOwner sender w
  checkOpen paused w
  pure { w with engine := { w.engine with riskPaused := paused } }

def retireMarket (sender : Address) (w : World) : Except Error World := do
  onlyOwner sender w
  requirePool w
  onPool (IsolatedPool.retire w.self)
    { w with engine := { w.engine with retired := true, riskPaused := true } }

/-- `Ownable.transferOwnership`. -/
def transferOwnership (sender newOwner : Address) (w : World) : Except Error World := do
  onlyOwner sender w
  revertIf (newOwner = 0) .invalidConfiguration
  pure { w with engine := { w.engine with owner := newOwner } }

/-! ### Calls and time

A call names its sender. The two contracts act by their own code only, so
neither is ever the sender. `capital` is any call of the pool or of USDG, and
the passing of time; the pool then asks this engine for its answer. -/

inductive Op
  | bindPool (sender : Address)
  | setRiskPaused (sender : Address) (paused : Bool)
  | retireMarket (sender : Address)
  | transferOwnership (sender newOwner : Address)
  | depositCollateral (sender borrower : Address) (amount : ℕ)
  | depositAndBorrow (sender : Address) (collateralAmount borrowAmount : ℕ)
  | borrow (sender : Address) (amount : ℕ)
  | withdrawCollateral (sender : Address) (amount : ℕ) (recipient : Address)
  | repay (sender borrower : Address) (maxAmount : ℕ)
  | close (sender : Address) (maxRepay : ℕ) (recipient : Address)
  | liquidate (sender borrower : Address) (maxRepay minCollateral : ℕ)
  | capital (op : IsolatedPool.Op)
  | collateral (call : TokenCall Address)
  | feeds (primary secondary : Feed)

def Op.sender : Op → Option Address
  | .bindPool sender | .setRiskPaused sender _ | .retireMarket sender
  | .transferOwnership sender _ | .depositCollateral sender .. | .depositAndBorrow sender ..
  | .borrow sender _ | .withdrawCollateral sender .. | .repay sender .. | .close sender ..
  | .liquidate sender .. => some sender
  | .capital op => op.sender
  | .collateral call => call.sender
  | .feeds .. => none

def run : Op → World → Except Error World
  | .bindPool sender, w => bindPool sender w
  | .setRiskPaused sender paused, w => setRiskPaused sender paused w
  | .retireMarket sender, w => retireMarket sender w
  | .transferOwnership sender newOwner, w => transferOwnership sender newOwner w
  | .depositCollateral sender borrower amount, w => depositCollateral sender borrower amount w
  | .depositAndBorrow sender collateralAmount borrowAmount, w => do
    let w ← depositCollateral sender sender collateralAmount w
    borrow sender borrowAmount w
  | .borrow sender amount, w => borrow sender amount w
  | .withdrawCollateral sender amount recipient, w => withdrawCollateral sender amount recipient w
  | .repay sender borrower maxAmount, w => do
    let (w, _) ← repay sender borrower maxAmount w
    pure w
  | .close sender maxRepay recipient, w => do
    let (w, _) ← close sender maxRepay recipient w
    pure w
  | .liquidate sender borrower maxRepay minCollateral, w => do
    let (w, _) ← liquidate sender borrower maxRepay minCollateral w
    pure w
  | .capital op, w =>
    onPool (IsolatedPool.exec (op.withSafety (some (capitalOperationsAllowed w)))) w
  | .collateral call, w => do
    let collateral ← orRevert (call.exec w.collateral) .erc20
    pure { w with collateral }
  | .feeds primary secondary, w => pure { w with primary, secondary }

def exec (op : Op) (w : World) : Except Error World := do
  revertIf (op.sender = some w.self ∨ op.sender = some w.pool) .contractCaller
  run op w

/-- What the two constructors leave: no position, no bound pool, the market paused, and no
allowance granted by either contract. Tokens may already have been sent to them. -/
structure Deployed (w : World) : Prop where
  pool : IsolatedPool.Deployed w.capital
  engine_eq : ∃ owner, w.engine =
    ⟨owner, false, true, false, 0, .empty, fun _ => .empty, []⟩
  usdg_allowance : ∀ a, w.usdg.allowance w.self a = 0
  collateral_allowance : ∀ a, w.collateral.allowance w.self a = 0

def Reachable (w : World) : Prop :=
  ∃ start ops, Deployed start ∧ Run (accepts exec) start ops w

end Turret.IsolatedEngine
