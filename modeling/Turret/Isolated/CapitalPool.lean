import Turret.LenderVault

/-! `DockyardIsolatedCapitalPool`: the lender ledger of one fixed-rate engine.
Amounts are naturals: where the contract's checked arithmetic would overflow it
reverts, so its runs are among the runs below. The clock never runs backwards,
and `lastAccrual` is only ever set to it. USDG is an exact-transfer token that
runs no code of its holders, so no call is met inside another and the
reentrancy guard is left out here. `safety` is the answer of the engine's
`capitalOperationsAllowed()` at the moment of a call, `none` when it reverts. -/

namespace Turret.IsolatedPool

open Execution Rounding ERC4626

/-- The immutables, with what the constructor checks of them. -/
structure Config where
  self : Address
  creditEngine : Address
  feeRecipient : Address
  debtLimit : ℕ
  revenueFeeBps : ℕ
  borrowAprBps : ℕ
  self_ne_zero : self ≠ 0
  engine_ne_self : creditEngine ≠ self
  recipient_ne_zero : feeRecipient ≠ 0
  recipient_ne_self : feeRecipient ≠ self
  limit_ne_zero : debtLimit ≠ 0
  fee_le : revenueFeeBps ≤ 2000
  apr_le : borrowAprBps ≤ 10000

structure Pool where
  outstandingPrincipal : ℕ
  interestReceivable : ℕ
  lastAccrual : ℕ
  interestRemainder : ℕ
  protocolFees : ℕ
  cumulativeLoss : ℕ
  retired : Bool
  shares : ShareLedger

structure World where
  cfg : Config
  now : ℕ
  usdg : TokenLedger Address
  pool : Pool

/-- `10000 * 365 days`. -/
def INTEREST_DENOMINATOR : ℕ := 10000 * (365 * 86400)

def pendingInterest (w : World) : ℕ × ℕ :=
  carry INTEREST_DENOMINATOR w.pool.outstandingPrincipal
    ((w.now - w.pool.lastAccrual) * w.cfg.borrowAprBps) w.pool.interestRemainder

def accrue (w : World) : World :=
  { w with
    pool :=
      { w.pool with
        interestReceivable := w.pool.interestReceivable + (pendingInterest w).1
        interestRemainder := (pendingInterest w).2
        lastAccrual := w.now } }

def availableCash (w : World) : Except PoolError ℕ :=
  checkedSub (w.usdg.balanceOf w.cfg.self) w.pool.protocolFees .panic

/-- `Math.mulDiv(grossInterest, revenueFeeBps, 10000)`. -/
def feeOn (w : World) (interest : ℕ) : ℕ := mulDiv interest w.cfg.revenueFeeBps 10000

/-- The fee share never exceeds the interest it is taken from, so the last subtraction is exact. -/
def totalAssets (w : World) : Except PoolError ℕ := do
  let grossInterest := w.pool.interestReceivable + (pendingInterest w).1
  let cash ← availableCash w
  pure (cash + w.pool.outstandingPrincipal + grossInterest - feeOn w grossInterest)

/-- Fails closed when the engine's answer is missing; debt-free cash needs no answer. -/
def capitalOperationsAllowed (safety : Option Bool) (w : World) : Bool :=
  if w.pool.outstandingPrincipal = 0 ∧ w.pool.interestReceivable = 0 then true
  else safety.getD false

/-- The lender side; there is no rate to refresh. -/
def vault : LenderVault World where
  self w := w.cfg.self
  now w := w.now
  usdg w := w.usdg
  shares w := w.pool.shares
  retired w := w.pool.retired
  availableCash := availableCash
  totalAssets := totalAssets
  capitalOperationsAllowed := capitalOperationsAllowed
  accrue := accrue
  move usdg shares w := { w with usdg, pool := { w.pool with shares } }
  refresh := .ok

/-! ### Engine entry points -/

def onlyEngine (sender : Address) (w : World) : Except PoolError Unit :=
  revertIf (sender ≠ w.cfg.creditEngine) .engineOnly

def retire (sender : Address) (w : World) : Except PoolError World := do
  onlyEngine sender w
  pure { w with pool := { w.pool with retired := true } }

def draw (safety : Option Bool) (sender recipient : Address) (amount : ℕ) (w : World) :
    Except PoolError World := do
  onlyEngine sender w
  revertIf (w.pool.retired = true) .marketRetired
  let w := accrue w
  revertIf (capitalOperationsAllowed safety w = false) .capitalOperationsSuspended
  revertIf (amount = 0) .invalidAmount
  let cash ← availableCash w
  revertIf (cash < amount) .insufficientCash
  let room ← checkedSub w.cfg.debtLimit w.pool.outstandingPrincipal .panic
  revertIf (room < amount) .debtLimitExceeded
  vault.sendExact recipient amount
    { w with
      pool := { w.pool with outstandingPrincipal := w.pool.outstandingPrincipal + amount } }

def repay (sender : Address) (principal receivedYield : ℕ) (w : World) : Except PoolError World := do
  onlyEngine sender w
  let w := accrue w
  revertIf (w.pool.outstandingPrincipal < principal ∨ w.pool.interestReceivable < receivedYield ∨
    principal + receivedYield = 0) .invalidAmount
  let usdg ← orRevert
    (w.usdg.transferFrom w.cfg.self sender w.cfg.self (principal + receivedYield)) .erc20
  revertIf (usdg.balanceOf w.cfg.self ≠
    w.usdg.balanceOf w.cfg.self + (principal + receivedYield)) .unsupportedTransfer
  let receivable := w.pool.interestReceivable - receivedYield
  -- `feeBefore - feeAfter`, exact because the floor is monotone
  let fee := feeOn w w.pool.interestReceivable - feeOn w receivable
  pure
    { w with
      usdg
      pool :=
        { w.pool with
          outstandingPrincipal := w.pool.outstandingPrincipal - principal
          interestReceivable := receivable
          protocolFees := w.pool.protocolFees + fee } }

def recognizeLoss (sender : Address) (principal interest : ℕ) (w : World) :
    Except PoolError World := do
  onlyEngine sender w
  let w := accrue w
  revertIf (principal + interest = 0 ∨ w.pool.outstandingPrincipal < principal ∨
    w.pool.interestReceivable < interest) .invalidAmount
  pure
    { w with
      pool :=
        { w.pool with
          outstandingPrincipal := w.pool.outstandingPrincipal - principal
          interestReceivable := w.pool.interestReceivable - interest
          cumulativeLoss := w.pool.cumulativeLoss + (principal + interest) } }

def claimRevenue (w : World) : Except PoolError World := do
  revertIf (w.pool.protocolFees = 0) .invalidAmount
  vault.sendExact w.cfg.feeRecipient w.pool.protocolFees
    { w with pool := { w.pool with protocolFees := 0 } }

/-! ### Calls and time

Everything that can change the pool or the USDG it holds. The pool sends USDG
and grants allowances by its own code only, so no plain token call is made in
its name. -/

inductive Op
  | lender (safety : Option Bool) (call : LenderCall)
  | accrueInterest
  | claimRevenue
  | draw (safety : Option Bool) (sender recipient : Address) (amount : ℕ)
  | repay (sender : Address) (principal receivedYield : ℕ)
  | recognizeLoss (sender : Address) (principal interest : ℕ)
  | retire (sender : Address)
  | usdg (call : TokenCall Address)
  | elapse (seconds : ℕ)

/-- The caller of a pool or USDG call; minting and time have none. -/
def Op.sender : Op → Option Address
  | .lender _ call => some call.sender
  | .draw _ sender .. | .repay sender .. | .recognizeLoss sender .. | .retire sender => some sender
  | .usdg call => call.sender
  | .accrueInterest | .claimRevenue | .elapse .. => none

/-- The same call with another answer of the engine. -/
def Op.withSafety (safety : Option Bool) : Op → Op
  | .lender _ call => .lender safety call
  | .draw _ sender recipient amount => .draw safety sender recipient amount
  | op => op

def exec : Op → World → Except PoolError World
  | .lender safety call, w => vault.call safety call w
  | .accrueInterest, w => pure (accrue w)
  | .claimRevenue, w => claimRevenue w
  | .draw safety sender recipient amount, w => draw safety sender recipient amount w
  | .repay sender principal receivedYield, w => repay sender principal receivedYield w
  | .recognizeLoss sender principal interest, w => recognizeLoss sender principal interest w
  | .retire sender, w => retire sender w
  | .usdg call, w => do
    revertIf (call.sender = some w.cfg.self) .erc20
    let usdg ← orRevert (call.exec w.usdg) .erc20
    pure { w with usdg }
  | .elapse seconds, w => pure { w with now := w.now + seconds }

/-- What the constructor leaves: nothing lent, nothing booked, no share, and no allowance
granted by the pool. USDG may already have been sent to its address. -/
structure Deployed (w : World) : Prop where
  pool_eq : w.pool = ⟨0, 0, w.now, 0, 0, 0, false, .empty⟩
  no_allowance : ∀ spender, w.usdg.allowance w.cfg.self spender = 0

def Reachable (w : World) : Prop :=
  ∃ start ops, Deployed start ∧ Run (accepts exec) start ops w

/-- A pool at account 101 for the engine at 100, at ten percent a year. -/
def sampleConfig : Config where
  self := 101
  creditEngine := 100
  feeRecipient := 102
  debtLimit := 10 ^ 12
  revenueFeeBps := 1000
  borrowAprBps := 1000
  self_ne_zero := by decide
  engine_ne_self := by decide
  recipient_ne_zero := by decide
  recipient_ne_self := by decide
  limit_ne_zero := by decide
  fee_le := by decide
  apr_le := by decide

end Turret.IsolatedPool
