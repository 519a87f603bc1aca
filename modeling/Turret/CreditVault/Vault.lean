import Turret.Library.Ledger
import Turret.Library.Rounding

/-! `DockyardUSDGCreditVaultV2`: USDG lent by the owner against several
collaterals. The tokens move exactly what is asked or fail and run no code of
their holders, so a call is never met inside another and the reentrancy guard is
left out. Oracles, risk adapters and the pause of a stock token answer as they
like, may change at any time, and may fail. Where no overflow check is written,
a sum that does not fit a word reverts in the contract, so its runs are among
the runs below. -/

namespace Turret.CreditVault

open Execution Function Rounding Uint256

inductive Error
  | notOwner
  | paused
  | notPaused
  | zeroAddress
  | zeroAmount
  | invalidMarket
  | marketAlreadyExists
  | marketDisabled
  | invalidRiskParameters
  | invalidOracle
  | oracleUnavailable
  | stockTokenPaused
  | insufficientLiquidity
  | debtCeilingExceeded
  | positionWouldBeUnsafe
  | positionIsHealthy
  | noBadDebt
  | uint128Overflow
  | erc20
  | panic
  deriving DecidableEq

def BPS : ℕ := 10000
def USD_PRECISION : ℕ := 10 ^ 18

structure Market where
  primaryOracle : Address
  secondaryOracle : Address
  debtCeiling : ℕ
  maxLtvBps : ℕ
  liquidationLtvBps : ℕ
  liquidationBonusBps : ℕ
  maxOracleDeviationBps : ℕ
  primaryOracleDecimals : ℕ
  secondaryOracleDecimals : ℕ
  enabled : Bool

def noMarket : Market := ⟨0, 0, 0, 0, 0, 0, 0, 0, 0, false⟩

structure Position where
  collateral : ℕ
  debt : ℕ

def noPosition : Position := ⟨0, 0⟩

/-- The immutables, with what the constructor checks of them, and the decimals of the tokens. -/
structure Config where
  self : Address
  usdg : Address
  originationFeeBps : ℕ
  globalDebtCeiling : ℕ
  decimals : Address → ℕ
  usdg_ne_zero : usdg ≠ 0
  decimals_le : decimals usdg ≤ 18
  fee_le : originationFeeBps ≤ 500
  ceiling_ne_zero : globalDebtCeiling ≠ 0

/-- `10 ** (18 - usdgDecimals)`. -/
def Config.usdgTo18Scale (cfg : Config) : ℕ := 10 ^ (18 - cfg.decimals cfg.usdg)

structure Vault where
  owner : Address
  paused : Bool
  markets : Address → Market
  positions : Address → Address → Position
  marketDebt : Address → ℕ
  collaterals : List Address
  totalDebt : ℕ

/-- What the contracts outside answer now; `none` where a call reverts. -/
structure Outside where
  decimals : Address → Option ℕ
  collateral : Address → Option Address
  primaryOracle : Address → Option Address
  maxDeviationBps : Address → Option ℕ
  validatedPrice : Address → Bool → Option ℕ
  oraclePaused : Address → Option Bool

structure World where
  cfg : Config
  tokens : Address → TokenLedger Address
  outside : Outside
  vault : Vault

namespace World

def position (collateral borrower : Address) (w : World) : Position :=
  w.vault.positions collateral borrower

def setPosition (collateral borrower : Address) (p : Position) (w : World) : World :=
  { w with
    vault :=
      { w.vault with
        positions :=
          update w.vault.positions collateral (update (w.vault.positions collateral) borrower p) } }

end World

def availableLiquidity (w : World) : ℕ := (w.tokens w.cfg.usdg).balanceOf w.cfg.self

def onlyOwner (sender : Address) (w : World) : Except Error Unit :=
  revertIf (sender ≠ w.vault.owner) .notOwner

def requireNotPaused (w : World) : Except Error Unit :=
  revertIf (w.vault.paused = true) .paused

/-! ### Markets and prices -/

/-- `_market`. -/
def market (collateral : Address) (w : World) : Except Error Market := do
  let m := w.vault.markets collateral
  revertIf (m.primaryOracle = 0) .invalidMarket
  pure m

/-- `_enabledMarket`. -/
def enabledMarket (collateral : Address) (w : World) : Except Error Market := do
  let m ← market collateral w
  revertIf (m.enabled = false) .marketDisabled
  pure m

/-- `_validatedPrice`, and with `borrowing` `_validatedPriceForBorrowing`. -/
def validatedPrice (borrowing : Bool) (collateral : Address) (m : Market) (w : World) :
    Except Error ℕ := do
  revertIf (w.outside.oraclePaused collateral ≠ some false) .stockTokenPaused
  let value ← orRevert (w.outside.validatedPrice m.secondaryOracle borrowing) .oracleUnavailable
  revertIf (value = 0) .oracleUnavailable
  pure value

/-- `_isSafe`. -/
def isSafe (usdgTo18Scale collateral debt price ltvBps : ℕ) : Except Error Bool :=
  if debt = 0 then pure true
  else do
    let collateralValue ← checkedMulDiv collateral price USD_PRECISION .panic
    let maximumDebt ← checkedMulDiv collateralValue ltvBps BPS .panic
    let debt18 ← checkedMul debt usdgTo18Scale .panic
    pure (decide (debt18 ≤ maximumDebt))

/-- `_toUint128`. -/
def toUint128 (value : ℕ) : Except Error ℕ :=
  if value ≤ UINT128_MAX then .ok value else .error .uint128Overflow

/-- `_oracleDecimals`. -/
def oracleDecimals (oracle : Address) (w : World) : Except Error ℕ := do
  let value ← orRevert (w.outside.decimals oracle) .invalidOracle
  revertIf (18 < value) .invalidOracle
  pure value

def addMarket (sender collateral primaryOracle secondaryOracle : Address)
    (debtCeiling maxLtvBps liquidationLtvBps liquidationBonusBps maxOracleDeviationBps : ℕ)
    (w : World) : Except Error World := do
  onlyOwner sender w
  revertIf (collateral = 0 ∨ primaryOracle = 0 ∨ secondaryOracle = 0) .zeroAddress
  revertIf ((w.vault.markets collateral).primaryOracle ≠ 0) .marketAlreadyExists
  revertIf (w.cfg.decimals collateral ≠ 18) .invalidMarket
  revertIf (debtCeiling = 0 ∨ maxLtvBps = 0 ∨ liquidationLtvBps ≤ maxLtvBps ∨
    BPS ≤ liquidationLtvBps ∨ 1500 < liquidationBonusBps ∨ maxOracleDeviationBps = 0 ∨
    2500 < maxOracleDeviationBps) .invalidRiskParameters
  revertIf (primaryOracle = secondaryOracle ∨
    w.outside.collateral secondaryOracle ≠ some collateral ∨
    w.outside.primaryOracle secondaryOracle ≠ some primaryOracle ∨
    w.outside.maxDeviationBps secondaryOracle ≠ some maxOracleDeviationBps) .invalidOracle
  let primaryOracleDecimals ← oracleDecimals primaryOracle w
  let secondaryOracleDecimals ← oracleDecimals secondaryOracle w
  pure
    { w with
      vault :=
        { w.vault with
          markets :=
            update w.vault.markets collateral
              { primaryOracle, secondaryOracle, debtCeiling, maxLtvBps, liquidationLtvBps
                liquidationBonusBps, maxOracleDeviationBps, primaryOracleDecimals
                secondaryOracleDecimals, enabled := false }
          collaterals := w.vault.collaterals ++ [collateral] } }

/-! ### Tokens -/

def onToken (token : Address) (f : TokenLedger Address → Option (TokenLedger Address)) (w : World) :
    Except Error World := do
  let ledger ← orRevert (f (w.tokens token)) .erc20
  pure { w with tokens := update w.tokens token ledger }

/-- `safeTransferFrom(from, address(this), amount)`. -/
def pull (token src : Address) (amount : ℕ) (w : World) : Except Error World :=
  onToken token (fun t => t.transferFrom w.cfg.self src w.cfg.self amount) w

/-- `safeTransfer(to, amount)`. -/
def send (token dst : Address) (amount : ℕ) (w : World) : Except Error World :=
  onToken token (fun t => t.transfer w.cfg.self dst amount) w

/-! ### Liquidity -/

def fund (sender : Address) (amount : ℕ) (w : World) : Except Error World := do
  onlyOwner sender w
  revertIf (amount = 0) .zeroAmount
  pull w.cfg.usdg sender amount w

def withdrawLiquidity (sender recipient : Address) (amount : ℕ) (w : World) :
    Except Error World := do
  onlyOwner sender w
  revertIf (recipient = 0) .zeroAddress
  revertIf (amount = 0) .zeroAmount
  revertIf (availableLiquidity w < amount) .insufficientLiquidity
  send w.cfg.usdg recipient amount w

/-! ### Collateral and debt -/

/-- Opening a position needs the vault, the market and the price of a loan. -/
def checkOpen (collateral : Address) (p : Position) (w : World) : Except Error Unit :=
  if p.collateral = 0 ∧ p.debt = 0 then do
    requireNotPaused w
    let m ← enabledMarket collateral w
    let _ ← validatedPrice true collateral m w
  else pure ()

/-- `_depositCollateral`. -/
def depositCollateral (collateral borrower : Address) (amount : ℕ) (w : World) :
    Except Error World := do
  let _ ← market collateral w
  revertIf (amount = 0) .zeroAmount
  let p := w.position collateral borrower
  checkOpen collateral p w
  let total ← toUint128 (p.collateral + amount)
  pull collateral borrower amount (w.setPosition collateral borrower { p with collateral := total })

/-- With debt, collateral leaves only unpaused and while what stays is safe. -/
def checkExit (collateral : Address) (m : Market) (p : Position) (amount : ℕ) (w : World) :
    Except Error Unit :=
  if p.debt ≠ 0 then do
    requireNotPaused w
    revertIf (m.enabled = false) .marketDisabled
    let collateralPrice ← validatedPrice true collateral m w
    let safe ← isSafe w.cfg.usdgTo18Scale (p.collateral - amount) p.debt collateralPrice m.maxLtvBps
    revertIf (safe = false) .positionWouldBeUnsafe
  else pure ()

/-- `_withdrawCollateral`. -/
def withdrawCollateral (sender collateral : Address) (amount : ℕ) (recipient : Address) (w : World) :
    Except Error World := do
  revertIf (recipient = 0) .zeroAddress
  revertIf (amount = 0) .zeroAmount
  let m ← market collateral w
  let p := w.position collateral sender
  revertIf (p.collateral < amount) .invalidMarket
  checkExit collateral m p amount w
  send collateral recipient amount
    (w.setPosition collateral sender { p with collateral := p.collateral - amount })

/-- The debt that a loan adds, and the fee in it. -/
def quoteDebt (amount : ℕ) (w : World) : ℕ × ℕ :=
  let fee := mulDivUp amount w.cfg.originationFeeBps BPS
  (amount + fee, fee)

/-- Adds to the debts of a position, its market and the vault. -/
def addDebt (collateral borrower : Address) (debt debtIncrease : ℕ) (w : World) : World :=
  let w := w.setPosition collateral borrower { w.position collateral borrower with debt }
  { w with
    vault :=
      { w.vault with
        marketDebt := update w.vault.marketDebt collateral (w.vault.marketDebt collateral + debtIncrease)
        totalDebt := w.vault.totalDebt + debtIncrease } }

/-- `_borrow`. -/
def borrow (collateral borrower : Address) (amount : ℕ) (w : World) : Except Error World := do
  revertIf (amount = 0) .zeroAmount
  revertIf (availableLiquidity w < amount) .insufficientLiquidity
  let m ← enabledMarket collateral w
  let p := w.position collateral borrower
  let debtIncrease := (quoteDebt amount w).1
  revertIf (m.debtCeiling < w.vault.marketDebt collateral + debtIncrease ∨
    w.cfg.globalDebtCeiling < w.vault.totalDebt + debtIncrease) .debtCeilingExceeded
  let collateralPrice ← validatedPrice true collateral m w
  let safe ← isSafe w.cfg.usdgTo18Scale p.collateral (p.debt + debtIncrease) collateralPrice
    m.maxLtvBps
  revertIf (safe = false) .positionWouldBeUnsafe
  let debt ← toUint128 (p.debt + debtIncrease)
  send w.cfg.usdg borrower amount (addDebt collateral borrower debt debtIncrease w)

def depositAndBorrow (sender collateral : Address) (collateralAmount borrowAmount : ℕ) (w : World) :
    Except Error World := do
  requireNotPaused w
  revertIf (availableLiquidity w < borrowAmount) .insufficientLiquidity
  let w ← depositCollateral collateral sender collateralAmount w
  borrow collateral sender borrowAmount w

/-- `marketDebt[collateral] -= amount; totalDebt -= amount;`. -/
def removeDebt (collateral : Address) (amount : ℕ) (w : World) : Except Error World := do
  let marketDebt ← checkedSub (w.vault.marketDebt collateral) amount .panic
  let totalDebt ← checkedSub w.vault.totalDebt amount .panic
  pure
    { w with
      vault :=
        { w.vault with marketDebt := update w.vault.marketDebt collateral marketDebt, totalDebt } }

def repay (sender collateral borrower : Address) (amount : ℕ) (w : World) : Except Error World := do
  revertIf (amount = 0) .zeroAmount
  let p := w.position collateral borrower
  let repaid := min amount p.debt
  revertIf (repaid = 0) .zeroAmount
  let w ← removeDebt collateral repaid
    (w.setPosition collateral borrower { p with debt := p.debt - repaid })
  pull w.cfg.usdg sender repaid w

/-- The payment of `repayAllAndWithdrawCollateral`. -/
def repayAll (sender collateral : Address) (repaid : ℕ) (w : World) : Except Error World :=
  if repaid ≠ 0 then do
    let w ← removeDebt collateral repaid w
    pull w.cfg.usdg sender repaid w
  else pure w

def sendRest (collateral recipient : Address) (withdrawn : ℕ) (w : World) : Except Error World :=
  if withdrawn ≠ 0 then send collateral recipient withdrawn w else pure w

def repayAllAndWithdrawCollateral (sender collateral recipient : Address) (w : World) :
    Except Error World := do
  revertIf (recipient = 0) .zeroAddress
  let p := w.position collateral sender
  revertIf (p.debt = 0 ∧ p.collateral = 0) .zeroAmount
  let w ← repayAll sender collateral p.debt (w.setPosition collateral sender noPosition)
  sendRest collateral recipient p.collateral w

/-! ### Liquidation -/

/-- What a liquidation takes at a price: the payment and the collateral seized. -/
def liquidationTerms (usdgTo18Scale : ℕ) (m : Market) (p : Position) (collateralPrice maxRepay : ℕ) :
    Except Error (ℕ × ℕ) := do
  let collateralValue ← checkedMulDiv p.collateral collateralPrice USD_PRECISION .panic
  let maxRepayUsd18 ← checkedMulDiv collateralValue BPS (BPS + m.liquidationBonusBps) .panic
  let maxRepayFromCollateral := maxRepayUsd18 / usdgTo18Scale
  let repaid := min (min maxRepay p.debt) maxRepayFromCollateral
  revertIf (repaid = 0) .zeroAmount
  let repaid18 ← checkedMul repaid usdgTo18Scale .panic
  let seizeValue ← checkedMulDiv repaid18 (BPS + m.liquidationBonusBps) BPS .panic
  if repaid = maxRepayFromCollateral then pure (repaid, p.collateral)
  else do
    let seized ← checkedMulDiv seizeValue USD_PRECISION collateralPrice .panic
    pure (repaid, min p.collateral seized)

def liquidate (sender collateral borrower : Address) (maxRepay : ℕ) (recipient : Address)
    (w : World) : Except Error World := do
  revertIf (recipient = 0) .zeroAddress
  revertIf (maxRepay = 0) .zeroAmount
  let m ← market collateral w
  let p := w.position collateral borrower
  let collateralPrice ← validatedPrice false collateral m w
  let safe ← isSafe w.cfg.usdgTo18Scale p.collateral p.debt collateralPrice m.liquidationLtvBps
  revertIf (safe = true) .positionIsHealthy
  let (repaid, seized) ← liquidationTerms w.cfg.usdgTo18Scale m p collateralPrice maxRepay
  let w ← removeDebt collateral repaid
    (w.setPosition collateral borrower ⟨p.collateral - seized, p.debt - repaid⟩)
  let w ← pull w.cfg.usdg sender repaid w
  send collateral recipient seized w

def writeOffBadDebt (sender collateral borrower : Address) (w : World) : Except Error World := do
  onlyOwner sender w
  let p := w.position collateral borrower
  revertIf (p.collateral ≠ 0 ∨ p.debt = 0) .noBadDebt
  removeDebt collateral p.debt (w.setPosition collateral borrower { p with debt := 0 })

/-! ### Administration -/

/-- A market is enabled only with a price. -/
def setMarketEnabled (sender collateral : Address) (enabled : Bool) (w : World) :
    Except Error World := do
  onlyOwner sender w
  let m ← market collateral w
  if enabled then do
    let _ ← validatedPrice true collateral m w
    pure { w with vault := { w.vault with
      markets := update w.vault.markets collateral { m with enabled := true } } }
  else
    pure { w with vault := { w.vault with
      markets := update w.vault.markets collateral { m with enabled := false } } }

def setDebtCeiling (sender collateral : Address) (newDebtCeiling : ℕ) (w : World) :
    Except Error World := do
  onlyOwner sender w
  let m ← market collateral w
  revertIf (newDebtCeiling = 0) .invalidMarket
  pure { w with vault := { w.vault with
    markets := update w.vault.markets collateral { m with debtCeiling := newDebtCeiling } } }

def pause (sender : Address) (w : World) : Except Error World := do
  onlyOwner sender w
  revertIf (w.vault.paused = true) .paused
  pure { w with vault := { w.vault with paused := true } }

def unpause (sender : Address) (w : World) : Except Error World := do
  onlyOwner sender w
  revertIf (w.vault.paused = false) .notPaused
  pure { w with vault := { w.vault with paused := false } }

def transferOwnership (sender newOwner : Address) (w : World) : Except Error World := do
  onlyOwner sender w
  revertIf (newOwner = 0) .zeroAddress
  pure { w with vault := { w.vault with owner := newOwner } }

/-! ### Calls and the outside

Everything that can change the vault or the tokens it holds. The vault moves
tokens by its own code only, so no plain token call is made in its name. -/

inductive Op
  | addMarket (sender collateral primaryOracle secondaryOracle : Address)
      (debtCeiling maxLtvBps liquidationLtvBps liquidationBonusBps maxOracleDeviationBps : ℕ)
  | fund (sender : Address) (amount : ℕ)
  | withdrawLiquidity (sender recipient : Address) (amount : ℕ)
  | depositCollateral (sender collateral : Address) (amount : ℕ)
  | depositAndBorrow (sender collateral : Address) (collateralAmount borrowAmount : ℕ)
  | withdrawCollateral (sender collateral : Address) (amount : ℕ) (recipient : Address)
  | borrow (sender collateral : Address) (amount : ℕ)
  | repay (sender collateral borrower : Address) (amount : ℕ)
  | repayAllAndWithdrawCollateral (sender collateral recipient : Address)
  | liquidate (sender collateral borrower : Address) (maxRepay : ℕ) (recipient : Address)
  | writeOffBadDebt (sender collateral borrower : Address)
  | setMarketEnabled (sender collateral : Address) (enabled : Bool)
  | setDebtCeiling (sender collateral : Address) (newDebtCeiling : ℕ)
  | pause (sender : Address)
  | unpause (sender : Address)
  | transferOwnership (sender newOwner : Address)
  | token (token : Address) (call : TokenCall Address)
  | outside (answers : Outside)

def exec : Op → World → Except Error World
  | .addMarket sender collateral primaryOracle secondaryOracle debtCeiling maxLtvBps
      liquidationLtvBps liquidationBonusBps maxOracleDeviationBps, w =>
    addMarket sender collateral primaryOracle secondaryOracle debtCeiling maxLtvBps
      liquidationLtvBps liquidationBonusBps maxOracleDeviationBps w
  | .fund sender amount, w => fund sender amount w
  | .withdrawLiquidity sender recipient amount, w => withdrawLiquidity sender recipient amount w
  | .depositCollateral sender collateral amount, w => depositCollateral collateral sender amount w
  | .depositAndBorrow sender collateral collateralAmount borrowAmount, w =>
    depositAndBorrow sender collateral collateralAmount borrowAmount w
  | .withdrawCollateral sender collateral amount recipient, w =>
    withdrawCollateral sender collateral amount recipient w
  | .borrow sender collateral amount, w => do
    requireNotPaused w
    borrow collateral sender amount w
  | .repay sender collateral borrower amount, w => repay sender collateral borrower amount w
  | .repayAllAndWithdrawCollateral sender collateral recipient, w =>
    repayAllAndWithdrawCollateral sender collateral recipient w
  | .liquidate sender collateral borrower maxRepay recipient, w =>
    liquidate sender collateral borrower maxRepay recipient w
  | .writeOffBadDebt sender collateral borrower, w => writeOffBadDebt sender collateral borrower w
  | .setMarketEnabled sender collateral enabled, w => setMarketEnabled sender collateral enabled w
  | .setDebtCeiling sender collateral newDebtCeiling, w =>
    setDebtCeiling sender collateral newDebtCeiling w
  | .pause sender, w => pause sender w
  | .unpause sender, w => unpause sender w
  | .transferOwnership sender newOwner, w => transferOwnership sender newOwner w
  | .token token call, w => do
    revertIf (call.sender = some w.cfg.self) .erc20
    onToken token call.exec w
  | .outside answers, w => pure { w with outside := answers }

/-- What the constructor leaves: paused, no market, no position, and no allowance granted by the
vault. Tokens may already have been sent to its address. -/
structure Deployed (w : World) : Prop where
  vault_eq : ∃ owner, owner ≠ 0 ∧
    w.vault = ⟨owner, true, fun _ => noMarket, fun _ _ => noPosition, fun _ => 0, [], 0⟩
  no_allowance : ∀ token spender, (w.tokens token).allowance w.cfg.self spender = 0

def Reachable (w : World) : Prop :=
  ∃ start ops, Deployed start ∧ Run (accepts exec) start ops w

end Turret.CreditVault
