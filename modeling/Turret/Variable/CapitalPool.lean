import Turret.LenderVault

/-! `TurretVariableCapitalPool`: the lender ledger of one variable-rate engine,
with its utilization curve, the timelock on its debt limit and the freeze during
a liquidation. As for the fixed-rate pool, amounts are naturals, a call that
overflows reverts in the contract, the clock never runs backwards, and USDG is an
exact-transfer token that runs no code of its holders, so no pool call is met
inside another. -/

namespace Turret.VariablePool

open Execution Rounding ERC4626

/-- The immutables, with what the constructor checks of them. -/
structure Config where
  self : Address
  creditEngine : Address
  feeRecipient : Address
  revenueFeeBps : ℕ
  baseAprBps : ℕ
  kinkAprBps : ℕ
  maxAprBps : ℕ
  kinkUtilizationBps : ℕ
  self_ne_zero : self ≠ 0
  engine_ne_self : creditEngine ≠ self
  recipient_ne_zero : feeRecipient ≠ 0
  recipient_ne_self : feeRecipient ≠ self
  fee_le : revenueFeeBps ≤ 2000
  base_le : baseAprBps ≤ kinkAprBps
  kink_le : kinkAprBps ≤ maxAprBps
  max_le : maxAprBps ≤ 10000
  kinkUtilization_ne_zero : kinkUtilizationBps ≠ 0
  kinkUtilization_lt : kinkUtilizationBps < 10000

structure Pool where
  debtLimit : ℕ
  pendingDebtLimit : ℕ
  debtLimitValidAfter : ℕ
  borrowAprBps : ℕ
  storedRateIntegral : ℕ
  outstandingPrincipal : ℕ
  interestReceivable : ℕ
  lastAccrual : ℕ
  interestRemainder : ℕ
  protocolFees : ℕ
  cumulativeLoss : ℕ
  retired : Bool
  liquidationSettlementActive : Bool
  shares : ShareLedger

structure World where
  cfg : Config
  now : ℕ
  usdg : TokenLedger Address
  pool : Pool

/-- `1 days`. -/
def DEBT_LIMIT_DELAY : ℕ := 86400

/-- `10000 * 365 days`. -/
def INTEREST_DENOMINATOR : ℕ := 10000 * (365 * 86400)

/-! ### Views -/

/-- `_pendingInterest`. -/
def pendingInterest (w : World) : ℕ × ℕ :=
  carry INTEREST_DENOMINATOR w.pool.outstandingPrincipal
    ((w.now - w.pool.lastAccrual) * w.pool.borrowAprBps) w.pool.interestRemainder

def currentRateIntegral (w : World) : ℕ :=
  w.pool.storedRateIntegral + (w.now - w.pool.lastAccrual) * w.pool.borrowAprBps

def availableCash (w : World) : Except PoolError ℕ :=
  checkedSub (w.usdg.balanceOf w.cfg.self) w.pool.protocolFees .panic

/-- `Math.mulDiv(grossInterest, revenueFeeBps, 10000)`. -/
def feeOn (w : World) (interest : ℕ) : ℕ := mulDiv interest w.cfg.revenueFeeBps 10000

/-- The fee share never exceeds the interest it is taken from, so the last subtraction is exact. -/
def totalAssets (w : World) : Except PoolError ℕ := do
  let grossInterest := w.pool.interestReceivable + (pendingInterest w).1
  let cash ← availableCash w
  pure (cash + w.pool.outstandingPrincipal + grossInterest - feeOn w grossInterest)

/-- Fails closed during a liquidation and when the engine's answer is missing; debt-free cash needs
no answer. -/
def capitalOperationsAllowed (safety : Option Bool) (w : World) : Bool :=
  if w.pool.liquidationSettlementActive then false
  else if w.pool.outstandingPrincipal = 0 ∧ w.pool.interestReceivable = 0 then true
  else safety.getD false

/-! ### The rate -/

/-- `_utilization`. -/
def utilization (principal cash : ℕ) : ℕ :=
  if principal = 0 then 0 else mulDiv principal 10000 (principal + cash)

def utilizationBps (w : World) : Except PoolError ℕ := do
  let cash ← availableCash w
  pure (utilization w.pool.outstandingPrincipal cash)

/-- The cast `uint16(n)`. -/
def uint16 (n : ℕ) : ℕ := n % 2 ^ 16

def rateAtUtilization (cfg : Config) (utilization : ℕ) : Except PoolError ℕ := do
  revertIf (10000 < utilization) .invalidAmount
  if utilization ≤ cfg.kinkUtilizationBps then
    pure (uint16 (cfg.baseAprBps + mulDiv (cfg.kinkAprBps - cfg.baseAprBps) utilization
      cfg.kinkUtilizationBps))
  else
    pure (uint16 (cfg.kinkAprBps + mulDiv (cfg.maxAprBps - cfg.kinkAprBps)
      (utilization - cfg.kinkUtilizationBps) (10000 - cfg.kinkUtilizationBps)))

/-- `_refreshRate`. -/
def refreshRate (w : World) : Except PoolError World := do
  let utilization ← utilizationBps w
  let next ← rateAtUtilization w.cfg utilization
  pure { w with pool := { w.pool with borrowAprBps := next } }

/-- `_accrue`. -/
def accrue (w : World) : World :=
  { w with
    pool :=
      { w.pool with
        interestReceivable := w.pool.interestReceivable + (pendingInterest w).1
        interestRemainder := (pendingInterest w).2
        storedRateIntegral := currentRateIntegral w
        lastAccrual := w.now } }

def accrueInterest (w : World) : Except PoolError World := refreshRate (accrue w)

/-- The lender side; a deposit or withdrawal ends by refreshing the rate. -/
def vault : LenderVault World where
  self w := w.cfg.self
  now w := w.now
  usdg w := w.usdg
  shares w := w.pool.shares
  retired w := w.pool.retired
  availableCash := availableCash
  totalAssets := totalAssets
  capitalOperationsAllowed := capitalOperationsAllowed
  accrue := accrue
  move usdg shares w := { w with usdg, pool := { w.pool with shares } }
  refresh := refreshRate

/-! ### The debt limit -/

def onlyEngine (sender : Address) (w : World) : Except PoolError Unit :=
  revertIf (sender ≠ w.cfg.creditEngine) .engineOnly

/-- `_cancelDebtLimit`. -/
def clearDebtLimit (p : Pool) : Pool := { p with pendingDebtLimit := 0, debtLimitValidAfter := 0 }

def scheduleDebtLimit (sender : Address) (limit : ℕ) (w : World) : Except PoolError World := do
  onlyEngine sender w
  revertIf (w.pool.retired = true) .marketRetired
  revertIf (limit ≤ w.pool.debtLimit) .invalidDebtLimit
  pure
    { w with
      pool :=
        { w.pool with
          pendingDebtLimit := limit
          debtLimitValidAfter := w.now + DEBT_LIMIT_DELAY } }

def executeDebtLimit (sender : Address) (w : World) : Except PoolError World := do
  onlyEngine sender w
  revertIf (w.pool.retired = true) .marketRetired
  revertIf (w.pool.debtLimitValidAfter = 0 ∨ w.now < w.pool.debtLimitValidAfter ∨
    w.pool.pendingDebtLimit ≤ w.pool.debtLimit) .debtLimitNotReady
  pure { w with pool := { clearDebtLimit w.pool with debtLimit := w.pool.pendingDebtLimit } }

def lowerDebtLimit (sender : Address) (limit : ℕ) (w : World) : Except PoolError World := do
  onlyEngine sender w
  revertIf (w.pool.debtLimit ≤ limit) .invalidDebtLimit
  pure { w with pool := { clearDebtLimit w.pool with debtLimit := limit } }

def cancelDebtLimit (sender : Address) (w : World) : Except PoolError World := do
  onlyEngine sender w
  pure { w with pool := clearDebtLimit w.pool }

def retire (sender : Address) (w : World) : Except PoolError World := do
  onlyEngine sender w
  pure { w with pool := { clearDebtLimit w.pool with retired := true } }

/-! ### Engine entry points -/

def beginLiquidationSettlement (sender : Address) (w : World) : Except PoolError World := do
  onlyEngine sender w
  revertIf (w.pool.liquidationSettlementActive = true) .invalidSettlementState
  pure { w with pool := { w.pool with liquidationSettlementActive := true } }

def endLiquidationSettlement (sender : Address) (w : World) : Except PoolError World := do
  onlyEngine sender w
  revertIf (w.pool.liquidationSettlementActive = false) .invalidSettlementState
  pure { w with pool := { w.pool with liquidationSettlementActive := false } }

def draw (safety : Option Bool) (sender recipient : Address) (amount : ℕ) (w : World) :
    Except PoolError World := do
  onlyEngine sender w
  revertIf (w.pool.retired = true) .marketRetired
  let w := accrue w
  revertIf (capitalOperationsAllowed safety w = false) .capitalOperationsSuspended
  revertIf (amount = 0) .invalidAmount
  let cash ← availableCash w
  revertIf (cash < amount) .insufficientCash
  revertIf (w.pool.debtLimit ≤ w.pool.outstandingPrincipal ∨
    w.pool.debtLimit - w.pool.outstandingPrincipal < amount) .debtLimitExceeded
  let w ← vault.sendExact recipient amount
    { w with
      pool := { w.pool with outstandingPrincipal := w.pool.outstandingPrincipal + amount } }
  refreshRate w

/-- `if (outstandingPrincipal == 0) interestRemainder = 0;` -/
def resetRemainder (p : Pool) : Pool :=
  if p.outstandingPrincipal = 0 then { p with interestRemainder := 0 } else p

def repay (sender : Address) (principal receivedYield : ℕ) (w : World) :
    Except PoolError World := do
  onlyEngine sender w
  let w := accrue w
  revertIf (w.pool.outstandingPrincipal < principal ∨ w.pool.interestReceivable < receivedYield ∨
    principal + receivedYield = 0) .invalidAmount
  let usdg ← orRevert
    (w.usdg.transferFrom w.cfg.self sender w.cfg.self (principal + receivedYield)) .erc20
  revertIf (usdg.balanceOf w.cfg.self ≠
    w.usdg.balanceOf w.cfg.self + (principal + receivedYield)) .unsupportedTransfer
  let receivable := w.pool.interestReceivable - receivedYield
  -- `feeBefore - feeAfter`, exact because the floor is monotone
  let fee := feeOn w w.pool.interestReceivable - feeOn w receivable
  refreshRate
    { w with
      usdg
      pool :=
        resetRemainder
          { w.pool with
            outstandingPrincipal := w.pool.outstandingPrincipal - principal
            interestReceivable := receivable
            protocolFees := w.pool.protocolFees + fee } }

def recognizeLoss (sender : Address) (principal interest : ℕ) (w : World) :
    Except PoolError World := do
  onlyEngine sender w
  let w := accrue w
  revertIf (principal + interest = 0 ∨ w.pool.outstandingPrincipal < principal ∨
    w.pool.interestReceivable < interest) .invalidAmount
  refreshRate
    { w with
      pool :=
        resetRemainder
          { w.pool with
            outstandingPrincipal := w.pool.outstandingPrincipal - principal
            interestReceivable := w.pool.interestReceivable - interest
            cumulativeLoss := w.pool.cumulativeLoss + (principal + interest) } }

def claimRevenue (w : World) : Except PoolError World := do
  revertIf (w.pool.protocolFees = 0) .invalidAmount
  vault.sendExact w.cfg.feeRecipient w.pool.protocolFees
    { w with pool := { w.pool with protocolFees := 0 } }

/-! ### Calls and time

The pool sends USDG and grants allowances by its own code only, so no plain
token call is made in its name. -/

inductive Op
  | lender (safety : Option Bool) (call : LenderCall)
  | accrueInterest
  | claimRevenue
  | draw (safety : Option Bool) (sender recipient : Address) (amount : ℕ)
  | repay (sender : Address) (principal receivedYield : ℕ)
  | recognizeLoss (sender : Address) (principal interest : ℕ)
  | scheduleDebtLimit (sender : Address) (limit : ℕ)
  | executeDebtLimit (sender : Address)
  | lowerDebtLimit (sender : Address) (limit : ℕ)
  | cancelDebtLimit (sender : Address)
  | retire (sender : Address)
  | beginLiquidationSettlement (sender : Address)
  | endLiquidationSettlement (sender : Address)
  | usdg (call : TokenCall Address)
  | elapse (seconds : ℕ)

/-- The caller of a pool or USDG call; minting and time have none. -/
def Op.sender : Op → Option Address
  | .lender _ call => some call.sender
  | .draw _ sender .. | .repay sender .. | .recognizeLoss sender .. | .scheduleDebtLimit sender ..
  | .executeDebtLimit sender | .lowerDebtLimit sender .. | .cancelDebtLimit sender
  | .retire sender | .beginLiquidationSettlement sender | .endLiquidationSettlement sender =>
    some sender
  | .usdg call => call.sender
  | .accrueInterest | .claimRevenue | .elapse .. => none

def Op.isElapse : Op → Bool
  | .elapse .. => true
  | _ => false

/-- The same call with another answer of the engine. -/
def Op.withSafety (safety : Option Bool) : Op → Op
  | .lender _ call => .lender safety call
  | .draw _ sender recipient amount => .draw safety sender recipient amount
  | op => op

def exec : Op → World → Except PoolError World
  | .lender safety call, w => vault.call safety call w
  | .accrueInterest, w => accrueInterest w
  | .claimRevenue, w => claimRevenue w
  | .draw safety sender recipient amount, w => draw safety sender recipient amount w
  | .repay sender principal receivedYield, w => repay sender principal receivedYield w
  | .recognizeLoss sender principal interest, w => recognizeLoss sender principal interest w
  | .scheduleDebtLimit sender limit, w => scheduleDebtLimit sender limit w
  | .executeDebtLimit sender, w => executeDebtLimit sender w
  | .lowerDebtLimit sender limit, w => lowerDebtLimit sender limit w
  | .cancelDebtLimit sender, w => cancelDebtLimit sender w
  | .retire sender, w => retire sender w
  | .beginLiquidationSettlement sender, w => beginLiquidationSettlement sender w
  | .endLiquidationSettlement sender, w => endLiquidationSettlement sender w
  | .usdg call, w => do
    revertIf (call.sender = some w.cfg.self) .erc20
    let usdg ← orRevert (call.exec w.usdg) .erc20
    pure { w with usdg }
  | .elapse seconds, w => pure { w with now := w.now + seconds }

/-- What the constructor leaves: a positive limit, the base rate, nothing lent, nothing booked, no
share, and no allowance granted by the pool. USDG may already have been sent to its address. -/
structure Deployed (w : World) : Prop where
  pool_eq : ∃ limit, limit ≠ 0 ∧
    w.pool = ⟨limit, 0, 0, w.cfg.baseAprBps, 0, 0, 0, w.now, 0, 0, 0, false, false, .empty⟩
  no_allowance : ∀ spender, w.usdg.allowance w.cfg.self spender = 0

def Reachable (w : World) : Prop :=
  ∃ start ops, Deployed start ∧ Run (accepts exec) start ops w

/-- A pool at account 201 for the engine at 200, with a kink at eighty percent. -/
def sampleConfig : Config where
  self := 201
  creditEngine := 200
  feeRecipient := 202
  revenueFeeBps := 1200
  baseAprBps := 200
  kinkAprBps := 800
  maxAprBps := 3000
  kinkUtilizationBps := 8000
  self_ne_zero := by decide
  engine_ne_self := by decide
  recipient_ne_zero := by decide
  recipient_ne_self := by decide
  fee_le := by decide
  base_le := by decide
  kink_le := by decide
  max_le := by decide
  kinkUtilization_ne_zero := by decide
  kinkUtilization_lt := Nat.lt_add_of_pos_right (k := 2000) (by decide)

end Turret.VariablePool
